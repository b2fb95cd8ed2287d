/-
A host at work. A session owns an application, one set of services that belong
to no screen, a UI queue, and tables in which it keeps screens and graphs under
names; a graph in the table stays alive. Whatever a session does it does on its
main thread, or on a fresh thread that ends with it.
-/
import LiveScreen.Loader.Step

namespace LiveScreen

/-- What a session starts with. -/
structure SessionSettings where
  config : LoaderConfig
  context : Context
  restricted : Bool
  env : Dict String
  markups : Dict Markup
  /-- Whether the builtin plugins are registered. -/
  builtins : Bool
  /-- Further plugins, by the key they are registered under and the name they are known by. -/
  plugins : List (String × String)

/-- A host and everything it owns. -/
structure Session where
  app : App
  config : LoaderConfig
  context : Context
  env : Dict String
  queue : Option QueueId
  screens : Dict ScreenId
  graphs : Dict GraphId
  /-- The next graph that is built without a screen gets this number. -/
  nextGraph : Nat
  /-- The next loading gets this number. -/
  nextCall : Nat
  nextThread : Thread
  /-- How many events were reported already. -/
  reported : Nat

namespace Session

/-- The number of worker threads of a session that asks for none. -/
def defaultThreads : Nat := 1

/-- The thread a session is made on. -/
def mainThread : Thread := 0

/-- The owner of the services that belong to no screen. -/
def own : Owner := .host 0

/-- A session at its start. -/
def new (settings : SessionSettings) : Session :=
  let registries := if settings.builtins then Registries.builtin else .bare
  let registries := settings.plugins.foldl
    (fun r p => match Plugin.ofName? p.2 with
      | some plugin => r.add p.1 plugin
      | none => r) registries.withProbes
  let app := App.new (settings.config.threads defaultThreads) settings.config.loadTimeout registries
    settings.markups
  let scene := { app.scene with
    binders := app.scene.binders.insert own (.new .empty)
    taskCenters := app.scene.taskCenters.insert own (.new settings.restricted)
    animationCenters := app.scene.animationCenters.insert own (.new settings.context) }
  { app := { app with scene := scene.addQueue mainThread }, config := settings.config,
    context := settings.context, env := settings.env, queue := some 0, screens := .empty,
    graphs := .empty, nextGraph := 0, nextCall := 0, nextThread := mainThread + 1, reported := 0 }

/-- The lines logged since the last report. -/
def report (s : Session) : List String × Session :=
  let events := s.app.scene.events
  ((events.drop s.reported).filterMap Event.line?, { s with reported := events.length })

/-- The thread for a piece of work: the main thread, or a fresh one. -/
def thread (s : Session) (off : Bool) : Thread × Session :=
  if off then (s.nextThread, { s with nextThread := s.nextThread + 1 }) else (mainThread, s)

/-- Changes the scene. -/
def modifyScene (s : Session) (f : Scene → Scene) : Session := { s with app := s.app.modifyScene f }

/-- Changes the scene by something that answers. -/
def onScene {α : Type} (s : Session) (f : Scene → α × Scene) : α × Session :=
  let (r, scene) := f s.app.scene
  (r, { s with app := { s.app with scene } })

/-- Lets the workers do all they can. -/
def settle (s : Session) : Session := { s with app := s.app.settle }

/-- The graph under a name. -/
def graph? (s : Session) (name : String) : Option (GraphId × Graph) :=
  match s.graphs.get? name with
  | some g => (s.app.scene.graphs.get? g).map (g, ·)
  | none => none

/-- Takes a name out of the table of graphs. -/
def removeGraph (s : Session) (name : String) : Session :=
  match s.graphs.get? name with
  | none => s
  | some g => { s with graphs := s.graphs.erase name }.modifyScene (·.release g (.host name))

/-- Puts a graph into the table under a name. -/
def putGraph (s : Session) (name : String) (g : GraphId) : Session :=
  let s := s.removeGraph name
  { s with graphs := s.graphs.insert name g }.modifyScene (·.hold g (.host name))

/-- Takes a name out of the table of screens; its screen is let go of. -/
def removeScreen (s : Session) (name : String) : Session :=
  match s.screens.get? name with
  | none => s
  | some i => { s with screens := s.screens.erase name, app := s.app.dropScreen i }

/-- Puts a screen into the table under a name. -/
def putScreen (s : Session) (name : String) (i : ScreenId) : Session :=
  let s := s.removeScreen name
  { s with screens := s.screens.insert name i }

/-- The binder of the graph under a name, or the session's own. -/
def binderOf (s : Session) (graph : String) : BinderId :=
  ((s.graph? graph).map (·.2.binder)).getD own

/-- The task center of the graph under a name, or the session's own. -/
def tasksOf (s : Session) (graph : String) : TaskCenterId :=
  ((s.graph? graph).map (·.2.tasks)).getD own

/-- The animation center of the graph under a name, or the session's own. -/
def animationsOf (s : Session) (graph : String) : AnimationCenterId :=
  ((s.graph? graph).map (·.2.animations)).getD own

/-- What screens are built with by the session itself. -/
def buildRequest (s : Session) : BuildRequest where
  registries := s.app.registries
  context := s.context
  env := s.env
  binder := own
  tasks := own
  animations := own
  center := (s.app.scene.animationCenters.get? own).getD (.new s.context)

end Session

end LiveScreen
