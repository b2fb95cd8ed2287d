/-
The state of an application: its screens, the jobs that initialize them in the
background, the calls that load them, and the scene they all work on.

Initialization and loading are machines that advance in single steps, so that
steps of different threads can be put in any order. A step is what a thread does
without letting go of a lock, or what belongs to the UI thread alone.

A screen is loaded, shown and polled on the UI thread. So the last stages of a
loading are one step each although they take more than one lock. Firing a hook
runs the tasks that wait for it, one after the other. The last stage marks the
graph as loaded, takes its load hooks, runs them and returns; what would see the
graph loaded and its hooks not yet run is a showing, and the same thread makes
that call before or after. What other threads store or register while such a
stage lasts is taken to come before it or after it.
-/
import LiveScreen.Loader.Options
import LiveScreen.Loader.Workers
import LiveScreen.Loader.Config
import LiveScreen.Plugins

namespace LiveScreen

/-- One screen, as its host and its initialization job see it. -/
structure Screen where
  calledInitialize : Bool
  /-- Set by the loading that is on its way or has succeeded. -/
  calledLoad : Bool
  /-- Whether initialization has ended, in whatever way. -/
  released : Bool
  view : Option GraphId
  /-- Whether the host has let go of the screen. -/
  dropped : Bool
  /-- Whether the initialization job keeps the screen's state although the host may let go. -/
  pinned : Bool

/-- A screen nothing was done to. -/
def Screen.new : Screen := ⟨false, false, false, none, false, false⟩

/-- How far an initialization has come. -/
inductive JobStage where
  /-- About to look whether the screen is still there. -/
  | start
  /-- About to call the parser. -/
  | parse
  /-- The parser was called with these services, and waits if there is a gate. -/
  | parsing (binder : BinderId) (tasks : TaskCenterId) (animations : AnimationCenterId)
  /-- The parser returned a graph. -/
  | parsed (graph : GraphId)
  /-- About to make the graph the one tasks are run on. -/
  | attach (graph : GraphId)
  /-- About to attach the graph to its binder. -/
  | addView (graph : GraphId)
  /-- About to make the graph the screen's view. -/
  | publish (graph : GraphId)
  /-- About to let go of the screen's state. -/
  | letGo
  /-- About to call back. -/
  | callBack
  /-- About to wake the loading calls that wait. -/
  | release
  /-- Over. -/
  | ended
  deriving DecidableEq

/-- An initialization. -/
structure Job where
  screen : ScreenId
  markup : String
  options : InitOptions
  stage : JobStage

/-- Whether a job initializes a screen. -/
def Job.isFor (i : ScreenId) (job : Job) : Bool := job.screen = i

/-- A call that loads a screen: the screen and a number the caller has chosen. -/
structure CallId where
  screen : ScreenId
  number : Nat
  deriving DecidableEq

/-- What a screen is loaded with. -/
structure LoadRequest where
  thread : Thread
  /-- The queue of the UI thread. -/
  queue : QueueId
  /-- The display of the container. -/
  parent : Context
  /-- The name of the container's kind of layout parameters. -/
  paramType : String
  data : List (String × Value)
  listener : Option String

/-- How far a loading has come. -/
inductive LoadStage where
  /-- About to look at the screen's phase. -/
  | check
  /-- Waiting for the initialization to end. -/
  | wait
  /-- The waiting took too long. -/
  | expired
  /-- About to look for the view. -/
  | lookUp
  /-- About to make layout parameters. -/
  | resolve (graph : GraphId)
  /-- There are no layout parameters. -/
  | unavailable
  /-- About to give the UI queue to the animation center. -/
  | bindAnimations (graph : GraphId) (params : Layout.Params)
  /-- About to mount the parameters and the listener. -/
  | mount (graph : GraphId) (params : Layout.Params)
  /-- About to store the rest of the data. -/
  | store (graph : GraphId) (rest : List (String × Value))
  /-- About to give the UI queue to the binder. -/
  | bindData (graph : GraphId)
  /-- About to mark the data as stored. -/
  | markLoaded (graph : GraphId)
  /-- About to fire the hook for data. -/
  | fireData (graph : GraphId)
  /-- About to fire the hook for the end of loading. -/
  | fireFinish (graph : GraphId)
  /-- About to run the load hooks. -/
  | runHooks (graph : GraphId)
  /-- Over. -/
  | returned (result : Except LoadError GraphId)

/-- A loading on its way. -/
structure LoadCall where
  request : LoadRequest
  stage : LoadStage

/-- An application. -/
structure App where
  scene : Scene
  screens : Store Screen
  workers : Workers Job
  calls : Table CallId LoadCall
  registries : Registries
  markups : Dict Markup
  /-- How many gates may still be passed. -/
  tokens : Nat
  /-- How long loading waits. -/
  loadTimeout : Option Duration

namespace App

/-- An application without screens, with worker threads and plugins. -/
def new (threads : Nat) (loadTimeout : Option Duration) (registries : Registries) (markups : Dict Markup) : App :=
  ⟨.empty, .empty, .new threads, .empty, registries, markups, 0, loadTimeout⟩

/-- Changes the scene. -/
def modifyScene (a : App) (f : Scene → Scene) : App := { a with scene := f a.scene }

/-- Changes a screen. -/
def modifyScreen (a : App) (i : ScreenId) (f : Screen → Screen) : App :=
  { a with screens := a.screens.modify i f }

/-- Makes a screen. -/
def addScreen (a : App) : App := { a with screens := a.screens.add .new }

/-- What the parser finds under a name. -/
def markup (a : App) (name : String) : Markup := (a.markups.get? name).getD .unknown

end App

end LiveScreen
