/-
From declarations to a view graph. A plugin whose name nobody knows, whose
factory fails or whose attributes are refused is left out, and so is an
animation nested where none can be; everything else is built as declared.
-/
import LiveScreen.Markup.Decl
import LiveScreen.Plugins
import LiveScreen.Scene.Tasks

namespace LiveScreen

/-- What a screen is built with. -/
structure BuildRequest where
  registries : Registries
  context : Context
  env : Dict String
  binder : BinderId
  tasks : TaskCenterId
  animations : AnimationCenterId
  /-- The animation center as animations are made for it. -/
  center : AnimationCenter

namespace BuildRequest

/-- The action of a declaration, if it is usable. -/
def action? (r : BuildRequest) (d : PluginDecl) : Option Action :=
  r.registries.actions.resolve d.name ⟨d.attributes, r.env⟩

/-- An animation with the attributes of a declaration, if it is usable. -/
def bareAnimation? (r : BuildRequest) (name : String) (attributes : Attributes) : Option Animation :=
  match r.registries.animations.resolve name r.center with
  | none => none
  | some a =>
    match a.configure attributes with
    | (.ok (), a) => some a
    | (.error _, _) => none

mutual

/-- The animation of a declaration with the usable animations nested in it, if it is usable. -/
def animation? (r : BuildRequest) : PluginDecl → Option Animation
  | .mk name attributes children =>
    match r.bareAnimation? name attributes with
    | none => none
    | some a => some (r.nest children a)

/-- Nests the usable animations of declarations in another, as far as it takes them. -/
def nest (r : BuildRequest) : List PluginDecl → Animation → Animation
  | [], a => a
  | d :: rest, a =>
    match r.animation? d with
    | some child => r.nest rest (a.addChild child).2
    | none => r.nest rest a

end

/-- The layout parameters of a view. In a context whose density scales nothing they are made for a
density of one. -/
def paramsOf (r : BuildRequest) (d : ViewDecl) : Layout.Params :=
  let params := match r.registries.params.resolve d.params r.context with
    | some params => params
    | none => .new (r.registries.params.kindFor d.params)
  params.setAttributes d.layout

/-- The node of a view. -/
def nodeOf (r : BuildRequest) (d : ViewDecl) (id : NodeId) (parent : Option NodeId)
    (children : List NodeId) : Node where
  id
  kind := d.kind
  name := d.name
  parent
  children
  params := r.paramsOf d
  attributes := d.attributes
  bindings := d.bindings
  action := d.action.bind r.action?
  animation := d.animation.bind r.animation?

mutual

/-- The nodes of a declaration for a graph, numbered from a given number on, the view itself first. -/
def nodes (r : BuildRequest) (g : GraphId) (parent : Option NodeId) (next : Nat) : NodeDecl → List Node
  | .mk view children =>
    r.nodeOf view ⟨g, next⟩ parent (childIds g (next + 1) children) ::
      r.nodesAll g ⟨g, next⟩ (next + 1) children

/-- The nodes of the views in another one. -/
def nodesAll (r : BuildRequest) (g : GraphId) (parent : NodeId) (next : Nat) : List NodeDecl → List Node
  | [] => []
  | d :: rest => r.nodes g (some parent) next d ++ r.nodesAll g parent (next + d.size) rest

/-- The ids that views next to each other get: each is followed by those of the views in it. -/
def childIds (g : GraphId) (next : Nat) : List NodeDecl → List NodeId
  | [] => []
  | d :: rest => ⟨g, next⟩ :: childIds g (next + d.size) rest

end

/-- The task of a declaration with the actions that are usable. -/
def taskOf (r : BuildRequest) (d : TaskDecl) : Task := ⟨d.hook, d.filter, d.actions.filterMap r.action?⟩

/-- The request after an animation was declared by name, if it is usable: what is made from then on is made for
a center that has it. -/
def declared (r : BuildRequest) (d : String × PluginDecl) : BuildRequest :=
  match r.animation? d.2 with
  | some a => { r with center := r.center.insert d.1 a }
  | none => r

/-- The usable ones among the animations declared by name. -/
def namedOf (r : BuildRequest) : List (String × PluginDecl) → List (String × Animation)
  | [] => []
  | d :: rest => ((r.animation? d.2).map (d.1, ·)).toList ++ (r.declared d).namedOf rest

end BuildRequest

/-- The graph of a declaration. Nobody holds it yet. -/
def BuildRequest.graphOf (r : BuildRequest) (g : GraphId) (d : NodeDecl) : Graph where
  root := ⟨g, 0⟩
  nodes := r.nodes g none 0 d
  binder := r.binder
  tasks := r.tasks
  animations := r.animations
  mount := .none
  hooks := []
  holders := []

/-- Builds a screen: its nodes make a graph, its named animations and tasks go to the animation
center and the task center of the request. -/
def Scene.build (s : Scene) (r : BuildRequest) (g : GraphId) (d : GraphDecl) : Scene :=
  let s := { s with graphs := s.graphs.insert g (r.graphOf g d.root) }
  let s := (r.namedOf d.animations).foldl (fun s a => s.insertAnimation r.animations a.1 a.2) s
  (d.tasks.map r.taskOf).foldl (fun s task => s.addTask r.tasks task) s

end LiveScreen
