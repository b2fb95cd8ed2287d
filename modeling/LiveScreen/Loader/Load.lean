/-
The foreground half of a screen's life. A loading takes the screen for itself,
waits until it is initialized, makes layout parameters for its container, and
then mounts them, stores the data, fires the hooks for data and for the end of
loading, and runs the load hooks, in this order. If the waiting takes too long
or there are no parameters, the screen can be loaded again.
-/
import LiveScreen.Loader.App
import LiveScreen.Scene.Tasks

namespace LiveScreen.App

/-- Calls for a screen to be loaded. A call that was made cannot be made again. -/
def addCall? (a : App) (call : CallId) (r : LoadRequest) : Option App :=
  if a.calls.contains call then none else some { a with calls := a.calls.insert call ⟨r, .check⟩ }

/-- Gives a screen back that a loading had taken for itself. -/
def rollBack (a : App) (i : ScreenId) : App := a.modifyScreen i fun s => { s with calledLoad := false }

/-- The view of a screen as the result of a loading. -/
def viewOf (screen : Screen) : Except LoadError GraphId :=
  match screen.view with
  | some g => .ok g
  | none => .error .emptyView

/-- Fires a hook at the tasks of a graph. -/
def fire (t : Thread) (g : GraphId) (hook : Hook) (s : Scene) : Scene :=
  match s.graphs.get? g with
  | some graph => (s.notify t graph.tasks hook "").2
  | none => s

/-- Changes a scene by a service of a graph. -/
def withGraph (g : GraphId) (f : Graph → Scene → Scene) (s : Scene) : Scene :=
  match s.graphs.get? g with
  | some graph => f graph s
  | none => s

/-- One step of a loading of a screen, if it can go on: its next stage and what it did. -/
def advanceCall? (a : App) (i : ScreenId) (call : LoadCall) : Option (LoadStage × App) :=
  let r := call.request
  match a.screens.get? i with
  | none => none
  | some screen =>
    match call.stage with
    | .check =>
      if !screen.calledInitialize then some (.returned (.error .notInitialized), a)
      else if screen.calledLoad then some (.returned (viewOf screen), a)
      else some (.wait, a.modifyScreen i fun s => { s with calledLoad := true })
    | .wait => if screen.released then some (.lookUp, a) else none
    | .expired => some (.returned (.error .timedOut), a.rollBack i)
    | .lookUp =>
      match screen.view with
      | some g => some (.resolve g, a)
      | none => some (.returned (.error .emptyView), a)
    | .resolve g =>
      match a.registries.params.resolve (some r.paramType) r.parent with
      | some params => some (.bindAnimations g params, a)
      | none => some (.unavailable, a)
    | .unavailable => some (.returned (.error .paramsUnavailable), a.rollBack i)
    | .bindAnimations g params =>
      some (.mount g params,
        a.modifyScene (withGraph g fun graph s => s.setAnimationUi graph.animations r.queue))
    | .mount g params => some (.store g r.data, a.modifyScene (·.mountGraph g params r.listener))
    | .store g [] => some (.bindData g, a)
    | .store g ((key, value) :: rest) =>
      some (.store g rest, a.modifyScene (withGraph g fun graph s => s.update r.thread graph.binder key value))
    | .bindData g =>
      some (.markLoaded g, a.modifyScene (withGraph g fun graph s => s.setBinderUi graph.binder r.queue))
    | .markLoaded g => some (.fireData g, a.modifyScene (withGraph g fun graph s => s.setLoaded graph.binder))
    | .fireData g => some (.fireFinish g, a.modifyScene (fire r.thread g .dataInitialize))
    | .fireFinish g => some (.runHooks g, a.modifyScene (fire r.thread g .loadFinish))
    | .runHooks g => some (.returned (.ok g), a.modifyScene (·.finishLoad r.thread g))
    | .returned _ => none

/-- A loading goes on. -/
def resume? (a : App) (id : CallId) : Option App :=
  match a.calls.get? id with
  | none => none
  | some call =>
    (a.advanceCall? id.screen call).map fun (stage, a') =>
      { a' with calls := a.calls.insert id { call with stage } }

/-- A loading has waited too long. That happens only where there is a limit. -/
def expire? (a : App) (id : CallId) : Option App :=
  match a.calls.get? id, a.loadTimeout with
  | some ⟨request, .wait⟩, some _ => some { a with calls := a.calls.insert id ⟨request, .expired⟩ }
  | _, _ => none

/-- The result of a loading that is over. -/
def result? (a : App) (id : CallId) : Option (Except LoadError GraphId) :=
  match a.calls.get? id with
  | some ⟨_, .returned r⟩ => some r
  | _ => none

/-- Tells a screen that a part of it was put on display. Nothing happens before it is loaded. -/
def present (a : App) (t : Thread) (i : ScreenId) (value : String) : Nat × App :=
  match (a.screens.get? i).bind (·.view) with
  | none => (0, a)
  | some g =>
    match a.scene.graphs.get? g with
    | none => (0, a)
    | some graph =>
      if graph.mount.loaded then
        let (count, s) := a.scene.notify t graph.tasks .viewShow value
        (count, { a with scene := s })
      else (0, a)

end LiveScreen.App
