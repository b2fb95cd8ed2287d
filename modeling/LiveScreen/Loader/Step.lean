/-
All moves of an application, and its runs. A run is any sequence of moves of the
host, the workers and the loading calls; nothing orders the moves of different
threads except what makes a move impossible.

The second half runs one thread to its end before the next: `settle` lets the
workers do all they can, `finishCall` a loading.
-/
import LiveScreen.Loader.Prepare
import LiveScreen.Loader.Load

namespace LiveScreen

/-- A move of an application. -/
inductive Move where
  /-- The host makes a screen. -/
  | addScreen
  /-- Somebody asks for a screen to be initialized. -/
  | prepare (screen : ScreenId) (markup : String) (options : InitOptions)
  /-- Somebody calls for a screen to be loaded. -/
  | load (call : CallId) (request : LoadRequest)
  /-- A loading goes on. -/
  | resume (call : CallId)
  /-- A loading has waited too long. -/
  | expire (call : CallId)
  /-- A worker takes the job of a screen. -/
  | take (screen : ScreenId)
  /-- The job of a screen advances. -/
  | work (screen : ScreenId)
  /-- The job of a screen is dropped while it waits. -/
  | discard (screen : ScreenId)
  /-- A parser may pass its gate. -/
  | openGate
  /-- The host lets go of a screen. -/
  | drop (screen : ScreenId)
  /-- A part of a screen was put on display. -/
  | present (thread : Thread) (screen : ScreenId) (value : String)
  /-- A value is stored in a binder. -/
  | update (thread : Thread) (binder : BinderId) (key : String) (value : Value)
  /-- The action of a node is run. -/
  | perform (thread : Thread) (graph : GraphId) (node : NodeId)
  /-- The animation of a node is played. -/
  | animate (thread : Thread) (graph : GraphId) (node : NodeId)
  /-- A load hook is registered in a graph. -/
  | addLoadHook (graph : GraphId) (hook : LoadHook)
  /-- A UI queue is polled. -/
  | poll (queue : QueueId) (thread : Thread)

namespace App

/-- One move, if it is possible. -/
def step? (a : App) : Move → Option App
  | .addScreen => some a.addScreen
  | .prepare i markup options => some (a.prepare i markup options)
  | .load call r => a.addCall? call r
  | .resume call => a.resume? call
  | .expire call => a.expire? call
  | .take i => a.takeJob? i
  | .work i => a.work? i
  | .discard i => a.discardJob? i
  | .openGate => some { a with tokens := a.tokens + 1 }
  | .drop i => some (a.dropScreen i)
  | .present t i value => some (a.present t i value).2
  | .update t b key value => some (a.modifyScene (·.update t b key value))
  | .perform t g node => some (a.modifyScene fun s => (s.performAction t g node).2)
  | .animate t g node => some (a.modifyScene fun s => (s.startAnimation t g node).2)
  | .addLoadHook g hook => some (a.modifyScene (·.addLoadHook g hook))
  | .poll q t => some (a.modifyScene fun s => (s.poll q t).2)

/-- Moves one after the other; a move that is not possible ends them without a result. -/
def steps? (a : App) : List Move → Option App
  | [] => some a
  | m :: rest => (a.step? m).bind fun a => a.steps? rest

/-- The next move of the workers: the first job that can go on does, else a job is taken. -/
def nextWork? (a : App) : Option App :=
  match a.workers.busy.findSome? fun job => a.work? job.screen with
  | some a' => some a'
  | none => a.workers.waiting.head?.bind fun job => a.takeJob? job.screen

/-- So many moves of the workers, or as many as are possible. -/
def settleFor : Nat → App → App
  | 0, a => a
  | n + 1, a =>
    match a.nextWork? with
    | some a' => settleFor n a'
    | none => a

/-- The workers do all they can. A job has at most eleven stages. -/
def settle (a : App) : App := settleFor (12 * (a.workers.waiting.length + a.workers.busy.length)) a

/-- So many steps of a loading, or as many as are possible. -/
def resumeFor (id : CallId) : Nat → App → App
  | 0, a => a
  | n + 1, a =>
    match a.resume? id with
    | some a' => resumeFor id n a'
    | none => a

/-- A loading goes on until it is over or has to wait. -/
def finishCall (a : App) (id : CallId) : App :=
  match a.calls.get? id with
  | some call => resumeFor id (15 + call.request.data.length) a
  | none => a

end App

end LiveScreen
