/-
What a session does with screens. A name that no screen has is answered by
nothing.
-/
import LiveScreen.Session.Basic

namespace LiveScreen

/-- What a session loads a screen with. -/
structure LoadArgs where
  parent : Context
  paramType : String
  data : List (String × Value)
  listener : Option String

/-- What there is to see of a graph that was just loaded. -/
structure LoadedView where
  size : Nat
  loaded : Bool
  params : Option Layout.Params
  listens : Bool
  binderLoaded : Bool
  /-- Whether the table of graphs had this very graph under the name, if it had one. -/
  same : Option Bool

namespace Session

/-- Makes a screen under a name, in place of any other. -/
def addScreen (s : Session) (name : String) : Session :=
  let i := s.app.screens.next
  { s with app := s.app.addScreen }.putScreen name i

/-- Asks for a screen to be initialized and lets the workers do what they can. -/
def prepare (s : Session) (name markup : String) (options : InitOptions) : Option Session :=
  (s.screens.get? name).map fun i => { s with app := s.app.prepare i markup options }.settle

/-- Lets a parser pass its gate and the workers do what they can. -/
def openGate (s : Session) : Session := { s with app := { s.app with tokens := s.app.tokens + 1 } }.settle

/-- Starts a loading on a thread, which goes on until it is over or has to wait. That takes a UI
queue. -/
def startLoad (s : Session) (i : ScreenId) (t : Thread) (args : LoadArgs) : Option (CallId × Session) := do
  let queue ← s.queue
  let call : CallId := ⟨i, s.nextCall⟩
  let app ← s.app.addCall? call ⟨t, queue, args.parent, args.paramType, args.data, args.listener⟩
  pure (call, { s with app := app.finishCall call, nextCall := s.nextCall + 1 })

/-- Lets a loading go on as far as it can. -/
def resume (s : Session) (call : CallId) : Session := { s with app := s.app.finishCall call }

/-- Ends the waiting of a loading that still waits. -/
def expire (s : Session) (call : CallId) : Session :=
  match s.app.expire? call with
  | some app => { s with app }.resume call
  | none => s

/-- What there is to see of a graph that was loaded, beside the graph known under a name. -/
def loadedView (s : Session) (name : String) (g : GraphId) : LoadedView :=
  let known := (s.graphs.get? name).map fun g' => decide (g' = g)
  match s.app.scene.graphs.get? g with
  | none => ⟨0, false, none, false, false, known⟩
  | some graph =>
    ⟨graph.size, graph.mount.loaded, graph.mount.params, graph.mount.listener.isSome,
      ((s.app.scene.binders.get? graph.binder).map (·.loaded)).getD false, known⟩

/-- Describes what was loaded beside what the table has under a name, and may put it there. -/
def keepLoaded (s : Session) (name : String) (keeps : Bool) :
    Except LoadError GraphId → Except LoadError LoadedView × Session
  | .error e => (.error e, s)
  | .ok g => (.ok (s.loadedView name g), if keeps then s.putGraph name g else s)

/-- Loads a screen on the main thread or on another. If the gate is opened meanwhile the workers go
on while the loading waits. The graph is compared with what the table has under the name `slot`, and
may be put there. -/
def load (s : Session) (name : String) (args : LoadArgs) (opensGate off : Bool) (slot : String)
    (keeps : Bool) : Option (Except LoadError LoadedView × Session) := do
  let i ← s.screens.get? name
  let (t, s) := s.thread off
  let (call, s) ← s.startLoad i t args
  let s := if opensGate then s.openGate.resume call else s
  let s := s.expire call
  let result ← s.app.result? call
  pure (s.keepLoaded slot keeps result)

/-- Loads a screen on another thread, and while that waits on the main thread too; then the gate is
opened. Only the first loading is given the data. -/
def loadContended (s : Session) (name : String) (args : LoadArgs) :
    Option (Except LoadError LoadedView × Except LoadError Nat × Session) := do
  let i ← s.screens.get? name
  let (t, s) := s.thread true
  let (call, s) ← s.startLoad i t args
  let (call', s) ← s.startLoad i mainThread { args with data := [] }
  let s := ((s.openGate.resume call).resume call').expire call
  let result ← s.app.result? call
  let result' ← s.app.result? call'
  let (view, s) := s.keepLoaded name true result
  pure (view, result'.map fun g => ((s.app.scene.graphs.get? g).map (·.size)).getD 0, s)

/-- Makes a screen, initializes it and loads it right away. On success the screen and its graph are
put into the tables under the name, and the flag says whether the graph is the screen's view; on
failure the screen is let go of. -/
def loadAtOnce (s : Session) (name markup : String) (options : InitOptions) (args : LoadArgs) :
    Option (Except LoadError (LoadedView × Bool) × Session) := do
  let i := s.app.screens.next
  let s := { s with app := s.app.addScreen.prepare i markup options }.settle
  let (call, s) ← s.startLoad i mainThread args
  let s := s.expire call
  match ← s.app.result? call with
  | .error e => pure (.error e, { s with app := s.app.dropScreen i })
  | .ok g =>
    let view := s.loadedView name g
    let shown := ((s.app.screens.get? i).bind (·.view)) = some g
    pure (.ok (view, shown), (s.putScreen name i).putGraph name g)

/-- The screen of a name. -/
def screen? (s : Session) (name : String) : Option Screen := (s.screens.get? name).bind s.app.screens.get?

/-- The number of nodes of the view of a screen. -/
def viewSize? (s : Session) (screen : Screen) : Option Nat :=
  (screen.view.bind s.app.scene.graphs.get?).map (·.size)

/-- Puts the view of a screen, if it has one, into the table of graphs. -/
def takeView (s : Session) (name : String) : Option (Bool × Session) := do
  let screen ← s.screen? name
  pure (match screen.view with
    | some g => (true, s.putGraph name g)
    | none => (false, s))

/-- Tells a screen that a part of it was put on display; answers how many tasks ran. -/
def present (s : Session) (name value : String) (off : Bool) : Option (Nat × Session) := do
  let i ← s.screens.get? name
  let (t, s) := s.thread off
  let (count, app) := s.app.present t i value
  pure (count, { s with app })

end Session

end LiveScreen
