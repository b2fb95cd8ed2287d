/-
The configuration of a loader.
-/
import LiveScreen.Duration
import LiveScreen.Text.Quoted
import LiveScreen.Text.Record

namespace LiveScreen

/-- How screens are initialized and how long loading waits for that. -/
structure LoaderConfig where
  /-- The number of threads screens are initialized on; as many as the machine has, up to four,
  where none is given. -/
  workerThreads : Option Nat
  /-- The threads are called by this name and a number. -/
  threadName : String
  /-- How long loading waits; without end if there is no time. -/
  loadTimeout : Option Duration
  deriving DecidableEq

namespace LoaderConfig

/-- The configuration where nothing is chosen. -/
def standard : LoaderConfig := ⟨none, "petal-init", none⟩

/-- The number of worker threads asked for, on a machine that would choose the given one. -/
def threads (c : LoaderConfig) (machine : Nat) : Nat := c.workerThreads.getD machine

/-- The description of a configuration on a machine. -/
def describe (c : LoaderConfig) (machine : Nat) : String :=
  Text.Record.fields "LoaderConfig"
    [("worker_threads", toString (c.threads machine)), ("thread_name", Text.quote c.threadName),
      ("load_timeout", Text.Record.optional (c.loadTimeout.map Duration.text))]

end LoaderConfig

end LiveScreen
