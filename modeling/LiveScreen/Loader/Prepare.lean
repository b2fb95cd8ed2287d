/-
The background half of a screen's life. The first call of `prepare` queues a
job; the job parses the markup, unless the host has let go of the screen before,
attaches the graph to its services, and only then shows it as the screen's view.
However the job ends, it wakes the loading calls that wait.
-/
import LiveScreen.Loader.App
import LiveScreen.Markup.Build

namespace LiveScreen.App

/-- Asks for a screen to be initialized. Only the first call does anything. -/
def prepare (a : App) (i : ScreenId) (markup : String) (options : InitOptions) : App :=
  match a.screens.get? i with
  | none => a
  | some screen =>
    if screen.calledInitialize then a
    else { a.modifyScreen i fun s => { s with calledInitialize := true } with
      workers := a.workers.submit ⟨i, markup, options, .start⟩ }

/-- Takes the view away from a screen whose state nobody keeps any more. -/
def forgetView (a : App) (i : ScreenId) : App :=
  match (a.screens.get? i).bind (·.view) with
  | none => a
  | some g =>
    (a.modifyScreen i fun s => { s with view := none }).modifyScene (·.release g (.screen i))

/-- The host lets go of a screen. Its state is gone with that, unless its job just keeps it. -/
def dropScreen (a : App) (i : ScreenId) : App :=
  match a.screens.get? i with
  | none => a
  | some screen =>
    let a := a.modifyScreen i fun s => { s with dropped := true }
    if screen.pinned then a else a.forgetView i

/-- What a job is built with. -/
def request (a : App) (job : Job) (binder : BinderId) (tasks : TaskCenterId)
    (animations : AnimationCenterId) : BuildRequest where
  registries := a.registries
  context := job.options.context
  env := job.options.env
  binder
  tasks
  animations
  center := .new job.options.context

/-- Makes the services of a screen and calls the parser. -/
def callParser (a : App) (job : Job) : JobStage × App :=
  let own : Owner := .screen job.screen
  let s := a.scene
  let (binder, s) := match job.options.binder with
    | some b => (b, s)
    | none => (own, { s with binders := s.binders.insert own (.new job.options.initialData) })
  let s := { s with
    taskCenters := s.taskCenters.insert own (.new job.options.restricted)
    animationCenters := s.animationCenters.insert own (.new job.options.context) }
  let values := ((s.binders.get? binder).map (·.values.size)).getD 0
  let s := s.emit (.parsed job.screen job.markup (job.options.parseLine job.markup 0 values))
  (.parsing binder own own, { a with scene := s })

/-- Lets the parser finish: it passes its gate, panics, finds nothing, or builds a graph that the
job holds for the time being. Without a token for the gate it cannot go on. -/
def finishParser? (a : App) (job : Job) (binder : BinderId) (tasks : TaskCenterId)
    (animations : AnimationCenterId) : Option (JobStage × App) :=
  let m := a.markup job.markup
  if m.gated ∧ a.tokens = 0 then none
  else
    let a := if m.gated then { a with tokens := a.tokens - 1 } else a
    match m.panics, m.screen with
    | false, some decl =>
      let g : GraphId := .screen job.screen
      let s := a.scene.build (a.request job binder tasks animations) g decl
      let s := m.hooks.foldl (fun s hook => s.addLoadHook g hook) s
      some (.parsed g, { a with scene := s.hold g (.job job.screen) })
    | _, _ => some (.release, a)

/-- Makes a graph the view of a screen: from now on the screen holds it and the job does not. -/
def publish (a : App) (i : ScreenId) (g : GraphId) : App :=
  (a.modifyScreen i fun s => { s with view := some g }).modifyScene fun s =>
    (s.hold g (.screen i)).release g (.job i)

/-- One step of an initialization, if it can go on: its next stage and what it did. -/
def advanceJob? (a : App) (job : Job) : Option (JobStage × App) :=
  let i := job.screen
  match a.screens.get? i with
  | none => none
  | some screen =>
    match job.stage with
    | .start => if screen.dropped then some (.release, a) else some (.parse, a)
    | .parse => some (a.callParser job)
    | .parsing b c n => a.finishParser? job b c n
    | .parsed g =>
      if screen.dropped then some (.release, a.modifyScene (·.release g (.job i)))
      else some (.attach g, a.modifyScreen i fun s => { s with pinned := true })
    | .attach g =>
      match a.scene.graphs.get? g with
      | none => none
      | some graph => some (.addView g, a.modifyScene (·.attach graph.tasks g))
    | .addView g =>
      match a.scene.graphs.get? g with
      | none => none
      | some graph => some (.publish g, a.modifyScene (·.addView graph.binder g))
    | .publish g => some (.letGo, a.publish i g)
    | .letGo =>
      let a := a.modifyScreen i fun s => { s with pinned := false }
      some (.callBack, if screen.dropped then a.forgetView i else a)
    | .callBack =>
      match job.options.onDone with
      | none => some (.release, a)
      | some done => some (.release, a.modifyScene (·.emit (.initDone i done.line)))
    | .release => some (.ended, a.modifyScreen i fun s => { s with released := true })
    | .ended => none

/-- A worker without a job takes the first that waits, which has to be the one of a screen. -/
def takeJob? (a : App) (i : ScreenId) : Option App :=
  match a.workers.take? with
  | some (job, workers) => if job.isFor i then some { a with workers } else none
  | none => none

/-- The job of a screen advances on its worker. A job that has ended leaves the worker. -/
def work? (a : App) (i : ScreenId) : Option App :=
  match a.workers.busy.findIdx? (·.isFor i) with
  | none => none
  | some worker =>
    match a.workers.busy[worker]? with
    | none => none
    | some job =>
      match a.advanceJob? job with
      | none => none
      | some (.ended, a') => some { a' with workers := a.workers.retire worker }
      | some (stage, a') => some { a' with workers := a.workers.update worker { job with stage } }

/-- The job of a screen is dropped while it waits, without being run: the loading calls that wait
for it are woken. -/
def discardJob? (a : App) (i : ScreenId) : Option App :=
  if a.workers.waiting.any (·.isFor i) then
    some { a.modifyScreen i fun s => { s with released := true } with
      workers := { a.workers with waiting := a.workers.waiting.filter fun job => !job.isFor i } }
  else none

end LiveScreen.App
