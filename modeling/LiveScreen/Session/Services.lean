/-
What a session does with binders, task centers, animation centers, its UI queue
and its plugins. The services are those of the graph that is named, if the table
has it, else the session's own.
-/
import LiveScreen.Session.Basic

namespace LiveScreen.Session

/-- The services that can be given the UI queue. -/
inductive UiTarget where
  | binder
  | animations
  | both

/-- Stores a value. -/
def update (s : Session) (graph : String) (key : String) (value : Value) (off : Bool) : Session :=
  let (t, s) := s.thread off
  s.modifyScene (·.update t (s.binderOf graph) key value)

/-- The binder that is meant. -/
def binder? (s : Session) (graph : String) : Option Binder := s.app.scene.binders.get? (s.binderOf graph)

/-- The task center that is meant. -/
def taskCenter? (s : Session) (graph : String) : Option TaskCenter :=
  s.app.scene.taskCenters.get? (s.tasksOf graph)

/-- The animation center that is meant. -/
def animationCenter? (s : Session) (graph : String) : Option AnimationCenter :=
  s.app.scene.animationCenters.get? (s.animationsOf graph)

/-- Gives the session's UI queue to the binder, to the animation center or to both; answers which of
them have a queue then. -/
def setUi (s : Session) (graph : String) (target : UiTarget) : Option ((Bool × Bool) × Session) := do
  let q ← s.queue
  let b := s.binderOf graph
  let c := s.animationsOf graph
  let s := match target with
    | .animations => s
    | _ => s.modifyScene (·.setBinderUi b q)
  let s := match target with
    | .binder => s
    | _ => s.modifyScene (·.setAnimationUi c q)
  let binder ← s.app.scene.binders.get? b
  let center ← s.app.scene.animationCenters.get? c
  pure ((binder.ui.isSome, center.ui.isSome), s)

/-- Marks the data as stored; answers whether they are. -/
def setLoaded (s : Session) (graph : String) : Bool × Session :=
  let s := s.modifyScene (·.setLoaded (s.binderOf graph))
  (((s.binder? graph).map (·.loaded)).getD false, s)

/-- The actions of declarations that are usable. -/
def actionsOf (s : Session) (ds : List PluginDecl) : List Action := ds.filterMap s.buildRequest.action?

/-- Adds a task; answers how many there are. -/
def addTask (s : Session) (graph : String) (d : TaskDecl) : Nat × Session :=
  let s := s.modifyScene (·.addTask (s.tasksOf graph) ⟨d.hook, d.filter, s.actionsOf d.actions⟩)
  (((s.taskCenter? graph).map (·.tasks.length)).getD 0, s)

/-- Fires a hook; answers how many tasks ran. -/
def notify (s : Session) (graph : String) (hook : Hook) (value : String) (off : Bool) : Nat × Session :=
  let (t, s) := s.thread off
  s.onScene (·.notify t (s.tasksOf graph) hook value)

/-- Declares an animation by name; what is nested in it does not count. Answers whether there is
such an animation, or why it cannot be configured. -/
def insertAnimation (s : Session) (graph : String) (id : String) (d : PluginDecl) :
    Except FactoryError Bool × Session :=
  match (s.animationCenter? graph).bind fun c => s.app.registries.animations.resolve d.name c with
  | none => (.ok false, s)
  | some a =>
    match a.configure d.attributes with
    | (.error e, _) => (.error e, s)
    | (.ok (), a) => (.ok true, s.modifyScene (·.insertAnimation (s.animationsOf graph) id a))

/-- The animation declared by a name. -/
def animation? (s : Session) (graph : String) (id : String) : Option Animation :=
  (s.animationCenter? graph).bind (·.named.get? id)

/-- Ends the session's UI queue; answers whether there was one. -/
def dropQueue (s : Session) : Bool × Session :=
  match s.queue with
  | none => (false, s)
  | some q => (true, { s with queue := none }.modifyScene (·.dropQueue q))

/-- Makes a UI queue on the main thread, or on another that ends right away, in place of the former. -/
def newQueue (s : Session) (off : Bool) : Session :=
  let (t, s) := s.thread off
  let q := s.app.scene.queues.next
  let s := s.modifyScene (·.addQueue t)
  { s.dropQueue.2 with queue := some q }

/-- Runs what waits in the UI queue; answers how many tasks ran. -/
def poll (s : Session) : Option (Nat × Session) := do
  let q ← s.queue
  pure (s.onScene (·.poll q mainThread))

/-- Whether a thread is the UI thread. -/
def isUiThread (s : Session) (off : Bool) : Option (Bool × Session) := do
  let q ← s.queue
  let (t, s) := s.thread off
  pure (s.app.scene.isUiThread q t, s)

/-- Queues a note, or dispatches it. -/
def send (s : Session) (queued : Bool) (tag : String) (next : List Followup) (off : Bool) : Option Session := do
  let q ← s.queue
  let (t, s) := s.thread off
  let task := UiTask.note tag next
  pure (s.modifyScene fun scene => if queued then scene.post q task else scene.dispatch q t task)

/-- Registers a plugin by the name it is known by; answers whether there is such a plugin. -/
def register (s : Session) (key known : String) : Bool × Session :=
  match Plugin.ofName? known with
  | some plugin => (true, { s with app := { s.app with registries := s.app.registries.add key plugin } })
  | none => (false, s)

/-- Adds a name for a kind of layout parameters. -/
def addKindName (s : Session) (name : String) (kind : Layout.Kind) : Session :=
  let registries := s.app.registries
  { s with app := { s.app with registries := { registries with params := registries.params.addName name kind } } }

end LiveScreen.Session
