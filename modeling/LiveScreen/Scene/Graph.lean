/-
The view graph of a screen: a tree of nodes with one root, kept as a list of
nodes that refer to each other by id, and what is pushed into it when the screen
is loaded.
-/
import LiveScreen.Action
import LiveScreen.Animation.Center
import LiveScreen.Layout.Params

namespace LiveScreen

/-- The number of a screen. -/
abbrev ScreenId := Nat

/-- Who a view graph or a service belongs to. A screen has at most one of each kind. What belongs
to no screen has a number that the host has chosen. -/
inductive Owner where
  | screen (id : ScreenId)
  | host (number : Nat)
  deriving DecidableEq

/-- A view graph, known by its owner. -/
abbrev GraphId := Owner

/-- A data binder, known by its owner. -/
abbrev BinderId := Owner

/-- A task center, known by its owner. -/
abbrev TaskCenterId := Owner

/-- An animation center, known by its owner. -/
abbrev AnimationCenterId := Owner

/-- A node, known by the graph it was made for and its number there. -/
structure NodeId where
  graph : GraphId
  index : Nat
  deriving DecidableEq

/-- Shows the value of a key of the screen's data as an attribute of a node. -/
structure Binding where
  key : String
  attr : String
  deriving DecidableEq

/-- A view. -/
structure Node where
  id : NodeId
  /-- The type of widget. -/
  kind : String
  /-- The id given in markup. -/
  name : Option String
  parent : Option NodeId
  children : List NodeId
  params : Layout.Params
  attributes : Attributes
  bindings : List Binding
  action : Option Action
  animation : Option Animation

/-- Sets an attribute of a node. -/
def Node.setAttribute (n : Node) (key : String) (value : Value) : Node :=
  { n with attributes := n.attributes.insert key value }

/-- Writes a value into every attribute of a node that is bound to a key. -/
def Node.applyData (n : Node) (key : String) (value : Value) : Node :=
  n.bindings.foldl (fun n b => if b.key = key then n.setAttribute b.attr value else n) n

/-- What happens once when loading ends: a line in the log, a change of the data, further hooks. -/
inductive LoadHook where
  | mk (tag : String) (update : Option (String × Value)) (nested : List LoadHook)

instance : Inhabited LoadHook := ⟨.mk "" none []⟩

/-- Who keeps a view graph alive. -/
inductive Holder where
  /-- A name in the host's table of graphs. -/
  | host (name : String)
  /-- A screen that shows the graph. -/
  | screen (id : ScreenId)
  /-- The initialization of a screen, which has just built it. -/
  | job (id : ScreenId)
  deriving DecidableEq

/-- What is pushed into a graph when it is loaded into a container. -/
structure Mount where
  params : Option Layout.Params
  /-- Who listens to the screen's outer actions. -/
  listener : Option String
  loaded : Bool

/-- The mount of a graph that was not loaded. -/
def Mount.none : Mount := ⟨Option.none, Option.none, false⟩

/-- A view graph and the services of its screen. -/
structure Graph where
  root : NodeId
  nodes : List Node
  binder : BinderId
  tasks : TaskCenterId
  animations : AnimationCenterId
  mount : Mount
  hooks : List LoadHook
  holders : List Holder

namespace Graph

/-- The node with an id. -/
def node? (g : Graph) (id : NodeId) : Option Node := g.nodes.find? (·.id = id)

/-- The node with a markup id. -/
def find? (g : Graph) (name : String) : Option Node := g.nodes.find? (·.name = some name)

/-- The number of nodes. -/
def size (g : Graph) : Nat := g.nodes.length

/-- Changes the node with an id. -/
def modifyNode (g : Graph) (id : NodeId) (f : Node → Node) : Graph :=
  { g with nodes := g.nodes.map fun n => if n.id = id then f n else n }

/-- Writes a value into every node attribute bound to a key. -/
def applyData (g : Graph) (key : String) (value : Value) : Graph :=
  { g with nodes := g.nodes.map (·.applyData key value) }

/-- Writes several values, one after the other. -/
def applyAll (g : Graph) (values : List (String × Value)) : Graph :=
  values.foldl (fun g e => g.applyData e.1 e.2) g

/-- Leaves the end state of an animation on a node. -/
def animate (g : Graph) (id : NodeId) (a : Animation) : Graph :=
  g.modifyNode id fun n => { n with attributes := a.apply n.attributes }

/-- Pushes the container's parameters and the listener into a graph. -/
def mounted (g : Graph) (params : Layout.Params) (listener : Option String) : Graph :=
  { g with mount := { g.mount with params := some params, listener } }

end Graph

end LiveScreen
