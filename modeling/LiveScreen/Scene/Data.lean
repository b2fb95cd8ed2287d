/-
The flow of data into views. A value that is stored in a binder is pushed into
every attached view, at once or through the UI queue; a view that is attached
late is given every value stored before.
-/
import LiveScreen.Scene.Dispatch

namespace LiveScreen.Scene

/-- Pushes a value into an attached view: through the queue if there is one. -/
def pushValue (t : Thread) (ui : Option QueueId) (key : String) (value : Value) (s : Scene) (g : GraphId) :
    Scene :=
  match ui with
  | some q => s.dispatch q t (.applyData g key value)
  | none => if s.alive g then s.modifyGraph g (·.applyData key value) else s

/-- Stores a value in a binder, forgets the dead views and pushes the value into the others. -/
def update (s : Scene) (t : Thread) (b : BinderId) (key : String) (value : Value) : Scene :=
  match s.binders.get? b with
  | none => s
  | some binder =>
    let views := binder.views.filter s.alive
    let s := s.modifyBinder b fun binder => { binder with values := binder.values.insert key value, views }
    views.foldl (pushValue t binder.ui key value) s

/-- The value a binder holds for a key. -/
def valueOf (s : Scene) (b : BinderId) (key : String) : Option Value :=
  (s.binders.get? b).bind (·.values.get? key)

/-- Attaches a view to a binder and shows every stored value in it. -/
def addView (s : Scene) (b : BinderId) (g : GraphId) : Scene :=
  match s.binders.get? b with
  | none => s
  | some binder =>
    (s.modifyBinder b fun binder => { binder with views := binder.views ++ [g] }).modifyGraph g
      (·.applyAll binder.values.entries)

/-- From now on a binder updates its views through a queue. -/
def setBinderUi (s : Scene) (b : BinderId) (q : QueueId) : Scene :=
  s.modifyBinder b fun binder => { binder with ui := some q }

/-- Marks the data a screen is loaded with as stored. -/
def setLoaded (s : Scene) (b : BinderId) : Scene := s.modifyBinder b fun binder => { binder with loaded := true }

end LiveScreen.Scene
