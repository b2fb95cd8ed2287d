/-
The scene: all view graphs there are, the services they share, the UI queues,
and the record of what happened. Binders and task centers know graphs only
weakly: a graph is alive while somebody holds it or an animation that waits in a
live queue is going to be played on it, and a dead graph is passed over.
-/
import LiveScreen.Scene.Store
import LiveScreen.Table
import LiveScreen.Scene.Graph
import LiveScreen.Context

namespace LiveScreen

/-- The number of a thread. -/
abbrev Thread := Nat

/-- The data a screen shows. -/
structure Binder where
  values : Dict Value
  /-- Whether the data a screen is loaded with have been stored. -/
  loaded : Bool
  /-- The queue attached views are updated through, once there is one. -/
  ui : Option QueueId
  /-- The attached views, as often as they were attached. -/
  views : List GraphId

/-- A binder with initial data. -/
def Binder.new (values : Dict Value) : Binder := ⟨values, false, none, []⟩

/-- The tasks of a screen. -/
structure TaskCenter where
  restricted : Bool
  tasks : List Task
  /-- The graph actions are run on, once one was attached. -/
  graph : Option GraphId

/-- A task center without tasks. -/
def TaskCenter.new (restricted : Bool) : TaskCenter := ⟨restricted, [], none⟩

/-- What a noted task does after its note: it queues another one, or dispatches it. -/
inductive Followup where
  | mk (queued : Bool) (tag : String) (next : List Followup)

instance : Inhabited Followup := ⟨.mk false "" []⟩

/-- Work for the UI thread. -/
inductive UiTask where
  /-- Shows a value in a graph if it is still alive. -/
  | applyData (graph : GraphId) (key : String) (value : Value)
  /-- Plays an animation on a node of a graph that it keeps alive. -/
  | animate (graph : GraphId) (node : NodeId) (animation : Animation)
  /-- Writes a line into the log and goes on with further tasks. -/
  | note (tag : String) (next : List Followup)

/-- The work that waits for the UI thread. -/
structure UiQueue where
  /-- The thread that made the queue. -/
  thread : Thread
  alive : Bool
  pending : List UiTask

/-- An empty queue. -/
def UiQueue.new (thread : Thread) : UiQueue := ⟨thread, true, []⟩

/-- What happened. -/
inductive Event where
  /-- A UI task wrote a line. -/
  | note (line : String)
  /-- An action of a graph wrote a line. -/
  | recorded (graph : GraphId) (line : String)
  /-- An action of a graph reported a value of the data and an attribute of a node. -/
  | probed (graph : GraphId) (tag : String) (stored shown : Option Value)
  /-- The listener of a graph was told something. -/
  | told (graph : GraphId) (listener key value : String)
  /-- A load hook of a graph ran. -/
  | hookRan (graph : GraphId) (tag : String) (loaded : Bool)
  /-- A task center ran an action on a graph. -/
  | ran (center : TaskCenterId) (graph : GraphId) (action : Action)
  /-- The parser was called for a screen. -/
  | parsed (screen : ScreenId) (markup : String) (line : String)
  /-- The callback of an initialization was called. -/
  | initDone (screen : ScreenId) (line : String)

/-- The text of a value, a dash if there is none. -/
def textOrDash (v : Option Value) : String := (v.map Value.asText).getD "-"

/-- The line of an event in the log. That a task ran an action is not logged. -/
def Event.line? : Event → Option String
  | .note line => some line
  | .recorded _ line => some line
  | .probed _ tag stored shown => some (tag ++ ":" ++ textOrDash stored ++ ":" ++ textOrDash shown)
  | .told _ listener key value => some (listener ++ " " ++ key ++ "=" ++ value)
  | .hookRan _ tag loaded => some ("hook " ++ tag ++ " loaded=" ++ (if loaded then "true" else "false"))
  | .ran .. => none
  | .parsed _ _ line => some line
  | .initDone _ line => some line

/-- Everything screens are made of. -/
structure Scene where
  graphs : Table GraphId Graph
  binders : Table BinderId Binder
  taskCenters : Table TaskCenterId TaskCenter
  animationCenters : Table AnimationCenterId AnimationCenter
  queues : Store UiQueue
  /-- What happened, in order. -/
  events : List Event

namespace Scene

/-- The scene in which nothing exists yet. -/
def empty : Scene := ⟨.empty, .empty, .empty, .empty, .empty, []⟩

/-- Records an event. -/
def emit (s : Scene) (e : Event) : Scene := { s with events := s.events ++ [e] }

/-- Changes a graph. -/
def modifyGraph (s : Scene) (g : GraphId) (f : Graph → Graph) : Scene :=
  { s with graphs := s.graphs.modify g f }

/-- Changes a binder. -/
def modifyBinder (s : Scene) (b : BinderId) (f : Binder → Binder) : Scene :=
  { s with binders := s.binders.modify b f }

/-- Changes a task center. -/
def modifyTasks (s : Scene) (c : TaskCenterId) (f : TaskCenter → TaskCenter) : Scene :=
  { s with taskCenters := s.taskCenters.modify c f }

/-- Changes an animation center. -/
def modifyAnimations (s : Scene) (c : AnimationCenterId) (f : AnimationCenter → AnimationCenter) : Scene :=
  { s with animationCenters := s.animationCenters.modify c f }

/-- Changes a queue. -/
def modifyQueue (s : Scene) (q : QueueId) (f : UiQueue → UiQueue) : Scene :=
  { s with queues := s.queues.modify q f }

/-- Whether a task keeps a graph alive. -/
def keeps (g : GraphId) : UiTask → Bool
  | .animate g' _ _ => g' = g
  | _ => false

/-- Whether a graph is alive. -/
def alive (s : Scene) (g : GraphId) : Bool :=
  (match s.graphs.get? g with
    | some graph => !graph.holders.isEmpty
    | none => false) ||
  s.queues.items.any fun q => q.alive && q.pending.any (keeps g)

/-- Lets somebody keep a graph alive. -/
def hold (s : Scene) (g : GraphId) (h : Holder) : Scene :=
  s.modifyGraph g fun graph => { graph with holders := h :: graph.holders.filter (· ≠ h) }

/-- Ends that somebody keeps a graph alive. -/
def release (s : Scene) (g : GraphId) (h : Holder) : Scene :=
  s.modifyGraph g fun graph => { graph with holders := graph.holders.filter (· ≠ h) }

end Scene

end LiveScreen
