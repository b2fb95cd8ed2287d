/-
Work for the UI thread. A task that is dispatched on the UI thread runs at once;
from any other thread it is queued, and runs when the queue is polled. What is
sent to a queue that is gone is lost, but the thread that made it still runs its
own tasks at once.
-/
import LiveScreen.Scene.Basic

namespace LiveScreen.Scene

/-- Whether a thread is the UI thread of a queue. -/
def isUiThread (s : Scene) (q : QueueId) (t : Thread) : Bool :=
  match s.queues.get? q with
  | some queue => queue.thread = t
  | none => false

/-- Queues a task, unless the queue is gone. -/
def post (s : Scene) (q : QueueId) (task : UiTask) : Scene :=
  s.modifyQueue q fun queue =>
    if queue.alive then { queue with pending := queue.pending ++ [task] } else queue

mutual

/-- Goes on after a note on a thread: what is dispatched on the UI thread runs at once. -/
def followUp (q : QueueId) (t : Thread) : Followup → Scene → Scene
  | .mk queued tag next, s =>
    if queued || !s.isUiThread q t then s.post q (.note tag next)
    else followUps q t next (s.emit (.note tag))

/-- Goes on with several tasks, one after the other. -/
def followUps (q : QueueId) (t : Thread) : List Followup → Scene → Scene
  | [], s => s
  | f :: rest, s => followUps q t rest (followUp q t f s)

end

/-- Runs a task of a queue on a thread. -/
def runTask (s : Scene) (q : QueueId) (t : Thread) : UiTask → Scene
  | .applyData g key value => if s.alive g then s.modifyGraph g (·.applyData key value) else s
  | .animate g node animation => s.modifyGraph g (·.animate node animation)
  | .note tag next => followUps q t next (s.emit (.note tag))

/-- Runs a task at once on the UI thread and queues it elsewhere. -/
def dispatch (s : Scene) (q : QueueId) (t : Thread) (task : UiTask) : Scene :=
  if s.isUiThread q t then s.runTask q t task else s.post q task

mutual

/-- How many tasks come of a task that goes on. -/
def weight : Followup → Nat
  | .mk _ _ next => 1 + weights next

/-- How many tasks come of several. -/
def weights : List Followup → Nat
  | [] => 0
  | f :: rest => weight f + weights rest

end

/-- How many tasks come of a task, itself included. -/
def taskWeight : UiTask → Nat
  | .note _ next => 1 + weights next
  | _ => 1

/-- The tasks that wait in a queue. -/
def pending (s : Scene) (q : QueueId) : List UiTask :=
  match s.queues.get? q with
  | some queue => queue.pending
  | none => []

/-- Takes the first task off a queue and runs it. -/
def runNext? (s : Scene) (q : QueueId) (t : Thread) : Option Scene :=
  match s.pending q with
  | [] => none
  | task :: rest => some ((s.modifyQueue q fun queue => { queue with pending := rest }).runTask q t task)

/-- Runs at most so many tasks of a queue and counts them. -/
def pollFor (q : QueueId) (t : Thread) : Nat → Scene → Nat × Scene
  | 0, s => (0, s)
  | n + 1, s =>
    match s.runNext? q t with
    | none => (0, s)
    | some s' =>
      let (count, s'') := pollFor q t n s'
      (count + 1, s'')

/-- Runs the tasks of a queue, those they queue included, until none is left; answers how many
ran. A task can only lead to the tasks it holds, so their number bounds the run. -/
def poll (s : Scene) (q : QueueId) (t : Thread) : Nat × Scene :=
  pollFor q t ((s.pending q).foldr (fun task n => taskWeight task + n) 0) s

/-- Makes a queue on a thread. -/
def addQueue (s : Scene) (t : Thread) : Scene := { s with queues := s.queues.add (.new t) }

/-- The end of a queue: what waits in it is dropped. -/
def dropQueue (s : Scene) (q : QueueId) : Scene :=
  s.modifyQueue q fun queue => { queue with alive := false, pending := [] }

end LiveScreen.Scene
