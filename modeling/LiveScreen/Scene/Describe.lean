/-
The description of a scene's parts. The numbers of nodes and threads are not
shown; two dots stand in their place.
-/
import LiveScreen.Scene.Basic
import LiveScreen.Animation.Describe
import LiveScreen.Text.Sorted

namespace LiveScreen

open Text

/-- What stands for the number of a node. -/
def nodeMark : String := "NodeId(..)"

/-- What stands for the number of a thread. -/
def threadMark : String := "ThreadId(..)"

/-- The description of a table of values. -/
def describeValues (values : Dict Value) : String :=
  Record.table (values.entries.map fun e => (quote e.1, e.2.describe))

/-- The description of a table of texts. -/
def describeTexts (texts : Dict String) : String :=
  Record.table (texts.entries.map fun e => (quote e.1, quote e.2))

/-- The description of a binding. -/
def Binding.describe (b : Binding) : String :=
  Record.fields "Binding" [("key", quote b.key), ("attribute", quote b.attr)]

/-- The description of a node. -/
def Node.describe (n : Node) : String :=
  Record.fields "Node"
    [("id", nodeMark), ("kind", quote n.kind), ("name", Record.optional (n.name.map quote)),
      ("children", Record.list (n.children.map fun _ => nodeMark)), ("params", n.params.kind.describe),
      ("attributes", describeValues n.attributes), ("bindings", Record.list (n.bindings.map Binding.describe)),
      ("action", Record.optional (n.action.map Action.describe)),
      ("animation", Record.optional (n.animation.map Animation.describe))]

/-- The description of a view graph. -/
def Graph.describe (g : Graph) : String :=
  Record.fields "ViewGraph"
    [("root", nodeMark), ("nodes", Record.table (g.nodes.map fun n => (nodeMark, n.describe))),
      ("loaded", Record.flag g.mount.loaded)]

/-- The description of what work is sent to a queue through. -/
def handleMark : String := Record.fields "UiHandle" [("thread", threadMark)]

/-- The description of a queue. -/
def UiQueue.describe (q : UiQueue) : String :=
  Record.fields "UiQueue" [("pending", toString q.pending.length), ("thread", threadMark)]

/-- The description of a binder. -/
def Binder.describe (b : Binder) : String :=
  Record.fields "DataBinder"
    [("values", describeValues b.values), ("loaded", Record.flag b.loaded),
      ("ui", Record.optional (b.ui.map fun _ => handleMark)), ("views", toString b.views.length)]

/-- The description of a task center. -/
def TaskCenter.describe (c : TaskCenter) : String :=
  Record.fields "TaskCenter"
    [("restricted", Record.flag c.restricted), ("tasks", Record.list (c.tasks.map Task.describe))]

/-- The description of an animation center: of the animations only the names, in ascending order. -/
def AnimationCenter.describe (c : AnimationCenter) : String :=
  Record.fields "AnimationCenter"
    [("context", c.context.describe), ("ui", Record.optional (c.ui.map fun _ => handleMark)),
      ("named", Record.list ((sorted c.named.keys).map quote))]

end LiveScreen
