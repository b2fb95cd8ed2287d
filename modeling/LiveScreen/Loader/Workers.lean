/-
Worker threads that drain one queue of jobs. Jobs start in the order in which
they were queued, at most one on each thread.
-/
namespace LiveScreen

/-- A fixed number of worker threads, the jobs that wait and those that run. -/
structure Workers (α : Type) where
  threads : Nat
  waiting : List α
  busy : List α

namespace Workers

variable {α : Type}

/-- Idle threads, at least one. -/
def new (threads : Nat) : Workers α := ⟨max threads 1, [], []⟩

/-- Queues a job. -/
def submit (w : Workers α) (job : α) : Workers α := { w with waiting := w.waiting ++ [job] }

/-- A thread without a job takes the first that waits. -/
def take? (w : Workers α) : Option (α × Workers α) :=
  if w.busy.length < w.threads then
    match w.waiting with
    | [] => none
    | job :: rest => some (job, { w with waiting := rest, busy := w.busy ++ [job] })
  else none

/-- Replaces the job that runs on a thread. -/
def update (w : Workers α) (i : Nat) (job : α) : Workers α := { w with busy := w.busy.set i job }

/-- The job on a thread has ended. -/
def retire (w : Workers α) (i : Nat) : Workers α := { w with busy := w.busy.eraseIdx i }

/-- Whether nothing waits and nothing runs. -/
def isIdle (w : Workers α) : Bool := w.waiting.isEmpty && w.busy.isEmpty

@[simp] theorem waiting_submit (w : Workers α) (job : α) : (w.submit job).waiting = w.waiting ++ [job] := rfl

end Workers

end LiveScreen
