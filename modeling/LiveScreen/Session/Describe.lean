/-
The descriptions a session can give of itself and of what it holds.
-/
import LiveScreen.Session.Graphs
import LiveScreen.Session.Services
import LiveScreen.Loader.Describe

namespace LiveScreen.Session

open Text

/-- The description of the session's configuration. -/
def describeConfig (s : Session) : String := s.config.describe defaultThreads

/-- The description of the session's application. -/
def describeLoader (s : Session) : String := s.app.describe s.config defaultThreads

/-- The description of the action of a declaration, if it is usable. -/
def describeAction (s : Session) (d : PluginDecl) : String :=
  Record.optional ((s.buildRequest.action? d).map Action.describe)

/-- The description of the UI queue, if there is one. -/
def describeQueue (s : Session) : String :=
  Record.optional ((s.queue.bind s.app.scene.queues.get?).map UiQueue.describe)

/-- The description of what work is sent to the UI queue through, if there is one. -/
def describeHandle (s : Session) : String := Record.optional (s.queue.map fun _ => handleMark)

/-- The description of a graph, if there is one of that name. -/
def describeGraph (s : Session) (name : String) : String :=
  Record.optional ((s.graph? name).map (·.2.describe))

/-- The description of a node, if there is one. -/
def describeNode (s : Session) (r : NodeRef) : String :=
  Record.optional ((s.node? r).map (·.2.describe))

end LiveScreen.Session
