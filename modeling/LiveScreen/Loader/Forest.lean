/-
Jobs that queue further jobs. A job may hold a reference to the pool it runs
on, and through it queues its children behind everything that waits already; a
job that panics queues nothing. The queue stays open as long as somebody holds a
reference: the owner of the pool, or a job that waits or runs.

`Forest.step?` is one move of one worker or of the owner. The workers are there
from the start, so the owner may queue a job while others run. `Forest.run` lets
a single worker do everything that has been queued.
-/
import LiveScreen.Loader.Workers
import LiveScreen.Text.Sorted

namespace LiveScreen

/-- A job and the jobs it queues. -/
inductive PoolJob where
  | mk (tag : String) (panics : Bool) (named : Bool) (keepsPool : Bool) (children : List PoolJob)

instance : Inhabited PoolJob := ⟨.mk "" false false false []⟩

namespace PoolJob

/-- What a job is called. -/
def tag : PoolJob → String
  | .mk tag .. => tag

/-- Whether a job panics. -/
def panics : PoolJob → Bool
  | .mk _ panics .. => panics

/-- Whether a job reports the thread it runs on. -/
def named : PoolJob → Bool
  | .mk _ _ named .. => named

/-- Whether a job holds a reference to the pool. -/
def keepsPool : PoolJob → Bool
  | .mk _ _ _ keepsPool _ => keepsPool

/-- The jobs a job would queue. -/
def children : PoolJob → List PoolJob
  | .mk _ _ _ _ children => children

/-- The jobs a job does queue: all its children if it does not panic and can reach the pool. -/
def queued (j : PoolJob) : List PoolJob := if j.panics || !j.keepsPool then [] else j.children

mutual

/-- The number of jobs in a tree. -/
def size : PoolJob → Nat
  | .mk _ _ _ _ children => 1 + sizeAll children

/-- The number of jobs in a forest. -/
def sizeAll : List PoolJob → Nat
  | [] => 0
  | j :: rest => j.size + sizeAll rest

end

/-- What a job writes into the log on a thread. -/
def line (j : PoolJob) (thread : String) : String :=
  if j.panics then j.tag ++ "!" else if j.named then j.tag ++ "@" ++ thread else j.tag

end PoolJob

/-- A job on its way: the job and those it has still to queue. -/
structure PoolTask where
  job : PoolJob
  left : List PoolJob

/-- A pool in the middle of its work. -/
structure Forest where
  workers : Workers PoolTask
  /-- Whether the owner still holds the pool. -/
  owned : Bool
  /-- The jobs that were queued, in order. -/
  submitted : List PoolJob
  /-- The jobs that were started, in order. -/
  started : List PoolJob

namespace Forest

/-- A pool right after its owner made it. -/
def new (threads : Nat) : Forest where
  workers := .new threads
  owned := true
  submitted := []
  started := []

/-- Queues a job behind all that wait. -/
def submit (f : Forest) (job : PoolJob) : Forest where
  workers := f.workers.submit ⟨job, job.queued⟩
  owned := f.owned
  submitted := f.submitted ++ [job]
  started := f.started

/-- Whether further jobs can still be queued. -/
def isOpen (f : Forest) : Bool :=
  f.owned || f.workers.waiting.any (·.job.keepsPool) || f.workers.busy.any (·.job.keepsPool)

/-- A move of the pool. -/
inductive Move where
  /-- The owner queues a job. -/
  | execute (job : PoolJob)
  /-- An idle worker starts the first job that waits. -/
  | take
  /-- The job on a thread queues its next child, or ends if there is none. -/
  | advance (thread : Nat)
  /-- The owner lets go of the pool. -/
  | disown

/-- One move, if it is possible. -/
def step? (f : Forest) : Move → Option Forest
  | .execute job => if f.owned then some (f.submit job) else none
  | .take =>
    match f.workers.take? with
    | some (task, workers) => some { f with workers, started := f.started ++ [task.job] }
    | none => none
  | .advance i =>
    match f.workers.busy[i]? with
    | none => none
    | some ⟨_, []⟩ => some { f with workers := f.workers.retire i }
    | some ⟨job, child :: left⟩ => some ({ f with workers := f.workers.update i ⟨job, left⟩ }.submit child)
  | .disown => if f.owned then some { f with owned := false } else none

/-- Whether every worker has stopped: nothing waits or runs and nobody can queue more. -/
def isStopped (f : Forest) : Bool := f.workers.isIdle && !f.isOpen

/-- The next move when one worker does everything and the owner queues no more. -/
def serial (f : Forest) : Move :=
  if f.workers.busy.isEmpty then (if f.workers.waiting.isEmpty then .disown else .take) else .advance 0

/-- Makes the next serial move so often, or until none is possible. -/
def runFor : Nat → Forest → Forest
  | 0, f => f
  | n + 1, f =>
    match f.step? f.serial with
    | some f' => runFor n f'
    | none => f

/-- A pool whose owner has queued its jobs before a worker did anything. It may hold on to the pool. -/
def given (threads : Nat) (roots : List PoolJob) (owned : Bool) : Forest :=
  { roots.foldl submit (new threads) with owned }

/-- The pool after one worker did everything: each job is taken, queues its children and ends. -/
def run (f : Forest) (roots : List PoolJob) : Forest := runFor (3 * PoolJob.sizeAll roots + 1) f

/-- The lines the jobs of a forest write, on a pool whose threads have a name. With more than one
thread their order is left open, and they are given in ascending order. -/
def log (threads : Nat) (name : String) (roots : List PoolJob) (owned : Bool) : List String :=
  let f := (given threads roots owned).run roots
  let lines := f.started.map fun j => j.line (name ++ "-0")
  if f.workers.threads = 1 then lines else Text.sorted lines

end Forest

end LiveScreen
