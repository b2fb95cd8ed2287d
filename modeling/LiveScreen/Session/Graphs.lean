/-
What a session does with graphs and their nodes. A graph or node that is not
there is answered by nothing.
-/
import LiveScreen.Session.Basic
import LiveScreen.Scene.Tree

namespace LiveScreen

/-- Which node of a graph is meant: by its markup id or by the way from the root. It may be looked
up in another graph, and then its number is used in this one. -/
structure NodeRef where
  graph : String
  name : Option String
  path : List Nat
  lookIn : Option String

namespace Session

/-- The graph and the number of the node that is meant. -/
def nodeRef? (s : Session) (r : NodeRef) : Option (GraphId × NodeId) := do
  let (g, graph) ← s.graph? r.graph
  let graph ← match r.lookIn with
    | none => some graph
    | some other => (s.graph? other).map (·.2)
  let id ← match r.name with
    | some name => (graph.find? name).map (·.id)
    | none => graph.follow graph.root r.path
  pure (g, id)

/-- The node that is meant. -/
def node? (s : Session) (r : NodeRef) : Option (GraphId × Node) := do
  let (g, id) ← s.nodeRef? r
  let graph ← s.app.scene.graphs.get? g
  let node ← graph.node? id
  pure (g, node)

/-- Builds a graph with the session's services under a name, in place of any other. -/
def build (s : Session) (name : String) (d : GraphDecl) : Session :=
  let g : GraphId := .host s.nextGraph
  { s with nextGraph := s.nextGraph + 1 }.modifyScene (·.build s.buildRequest g d) |>.putGraph name g

/-- Runs the action of a node. -/
def perform (s : Session) (r : NodeRef) (off : Bool) : Option (Bool × Session) := do
  let (g, id) ← s.nodeRef? r
  let (t, s) := s.thread off
  pure (s.onScene (·.performAction t g id))

/-- Plays the animation of a node. -/
def animate (s : Session) (r : NodeRef) (off : Bool) : Option (Bool × Session) := do
  let (g, id) ← s.nodeRef? r
  let (t, s) := s.thread off
  pure (s.onScene (·.startAnimation t g id))

/-- Plays an animation declared by name on a node. -/
def start (s : Session) (r : NodeRef) (animation : String) (off : Bool) : Option (Bool × Session) := do
  let (g, id) ← s.nodeRef? r
  let graph ← s.app.scene.graphs.get? g
  let center ← s.app.scene.animationCenters.get? graph.animations
  let a ← center.named.get? animation
  let (t, s) := s.thread off
  pure (s.onScene (·.start t graph.animations g id a))

/-- Sets an attribute of a node. -/
def setAttribute (s : Session) (r : NodeRef) (key : String) (value : Value) : Option Session := do
  let (g, node) ← s.node? r
  pure (s.modifyScene (·.modifyGraph g (·.modifyNode node.id (·.setAttribute key value))))

/-- The value a node has for an attribute, if it has one. -/
def valueAt (s : Session) (r : NodeRef) (key : String) : Option (Option Value) :=
  (s.node? r).map (·.2.attributes.get? key)

/-- Writes a value into every attribute of a graph bound to a key. -/
def applyData (s : Session) (name key : String) (value : Value) : Option Session := do
  let (g, _) ← s.graph? name
  pure (s.modifyScene (·.modifyGraph g (·.applyData key value)))

/-- Mounts parameters of the kind of a name and a listener in a graph. -/
def mount (s : Session) (name : String) (paramType listener : Option String) :
    Option (Option Layout.Params × Session) := do
  let (g, _) ← s.graph? name
  let params := Layout.Params.new (s.app.registries.params.kindFor paramType)
  let s := s.modifyScene (·.mountGraph g params listener)
  let (_, graph) ← s.graph? name
  pure (graph.mount.params, s)

/-- Registers a load hook in a graph. -/
def addHook (s : Session) (name : String) (hook : LoadHook) : Option Session := do
  let (g, _) ← s.graph? name
  pure (s.modifyScene (·.addLoadHook g hook))

/-- Ends the loading of a graph; answers whether it is loaded. -/
def finishLoad (s : Session) (name : String) : Option (Bool × Session) := do
  let (g, _) ← s.graph? name
  let s := s.modifyScene (·.finishLoad mainThread g)
  pure (s.app.scene.isLoaded g, s)

/-- Attaches a graph to its own binder or to the session's. -/
def addView (s : Session) (name : String) (shared : Bool) : Option Session := do
  let (g, graph) ← s.graph? name
  pure (s.modifyScene (·.addView (if shared then own else graph.binder) g))

/-- Makes a graph the one of its own task center or of the session's. -/
def attach (s : Session) (name : String) (shared : Bool) : Option Session := do
  let (g, graph) ← s.graph? name
  pure (s.modifyScene (·.attach (if shared then own else graph.tasks) g))

end Session

end LiveScreen
