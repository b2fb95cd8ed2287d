/-
Screens and what the moves of their initialization do to them. A screen nobody
made yet reads as a new one (`App.screen`), so that making it changes nothing. A
step of an initialization is its next stage, what it leaves of its screen, the
scene and the tokens (`Job.effect?`).
-/
import LiveScreen.Loader.Step

namespace LiveScreen

namespace App

variable {a a' : App} {i j : ScreenId}

/-- A screen; a new one if nobody has made it. -/
def screen (a : App) (i : ScreenId) : Screen := (a.screens.get? i).getD .new

theorem screen_eq {screen : Screen} (h : a.screens.get? i = some screen) : a.screen i = screen := by
  simp [App.screen, h]

theorem screens_of_initialized (h : (a.screen i).calledInitialize = true) :
    a.screens.get? i = some (a.screen i) := by
  cases hget : a.screens.get? i with
  | some screen => rw [screen_eq hget]
  | none =>
    simp only [App.screen, hget] at h
    cases h

theorem screen_congr (h : a'.screens = a.screens) (i : ScreenId) : a'.screen i = a.screen i := by
  simp only [screen, h]

@[simp] theorem screen_addScreen (a : App) (i : ScreenId) : a.addScreen.screen i = a.screen i := by
  simp only [screen, addScreen, Store.get?_add]
  split
  · rename_i h
    rw [Store.get?_eq_none_of_next_le _ (Nat.le_of_eq h.symm)]
    rfl
  · rfl

theorem screen_modify_self {screen : Screen} (h : a.screens.get? i = some screen) (f : Screen → Screen)
    (ha : a'.screens = a.screens.modify i f) : a'.screen i = f screen := by
  simp [App.screen, ha, h]

theorem screen_modify_other (f : Screen → Screen) (ha : a'.screens = a.screens.modify j f) (hj : j ≠ i) :
    a'.screen i = a.screen i := by
  simp only [App.screen, ha, Store.get?_modify_other _ _ hj]

/-- What a change of a screen does not touch stays as it is in all screens. -/
theorem screen_modify_proj {β : Type} (p : Screen → β) {f : Screen → Screen}
    (ha : a'.screens = a.screens.modify j f)
    (hf : ∀ screen, a.screens.get? j = some screen → p (f screen) = p screen) (i : ScreenId) :
    p (a'.screen i) = p (a.screen i) := by
  by_cases h : j = i
  · subst h
    cases hs : a.screens.get? j with
    | none => simp [App.screen, ha, hs]
    | some screen => rw [screen_modify_self hs f ha, screen_eq hs, hf screen hs]
  · rw [screen_modify_other f ha h]

end App

/-! ## Initializations -/

/-- What a step of an initialization leaves behind. -/
structure JobEffect where
  stage : JobStage
  screen : Screen
  scene : Scene
  tokens : Nat

/-- The screen that a parser builds, if it neither panics nor finds nothing. -/
def Markup.built? (m : Markup) : Option GraphDecl := if m.panics then none else m.screen

/-- What a step of an initialization does on its screen, if it can go on. -/
def Job.effect? (a : App) (job : Job) (screen : Screen) : Option JobEffect :=
  let i := job.screen
  match job.stage with
  | .start => some ⟨if screen.dropped then .release else .parse, screen, a.scene, a.tokens⟩
  | .parse => some ⟨(a.callParser job).1, screen, (a.callParser job).2.scene, a.tokens⟩
  | .parsing b c n => (a.finishParser? job b c n).map fun (stage, a') => ⟨stage, screen, a'.scene, a'.tokens⟩
  | .parsed g =>
    if screen.dropped then some ⟨.release, screen, a.scene.release g (.job i), a.tokens⟩
    else some ⟨.attach g, { screen with pinned := true }, a.scene, a.tokens⟩
  | .attach g =>
    (a.scene.graphs.get? g).map fun graph => ⟨.addView g, screen, a.scene.attach graph.tasks g, a.tokens⟩
  | .addView g =>
    (a.scene.graphs.get? g).map fun graph => ⟨.publish g, screen, a.scene.addView graph.binder g, a.tokens⟩
  | .publish g =>
    some ⟨.letGo, { screen with view := some g }, (a.scene.hold g (.screen i)).release g (.job i), a.tokens⟩
  | .letGo =>
    match screen.dropped, screen.view with
    | true, some g =>
      some ⟨.callBack, { screen with pinned := false, view := none }, a.scene.release g (.screen i), a.tokens⟩
    | _, _ => some ⟨.callBack, { screen with pinned := false }, a.scene, a.tokens⟩
  | .callBack =>
    some ⟨.release, screen, match job.options.onDone with
      | none => a.scene
      | some done => a.scene.emit (.initDone i done.line), a.tokens⟩
  | .release => some ⟨.ended, { screen with released := true }, a.scene, a.tokens⟩
  | .ended => none

/-- An application after a step of an initialization. -/
def App.afterJob (a : App) (i : ScreenId) (e : JobEffect) : App :=
  { a with screens := a.screens.modify i fun _ => e.screen, scene := e.scene, tokens := e.tokens }

namespace App

/-- The scene after the parser of a screen has built its graph. -/
def builtScene (a : App) (job : Job) (b c n : Owner) (decl : GraphDecl) (hooks : List LoadHook) : Scene :=
  (hooks.foldl (fun s hook => s.addLoadHook (.screen job.screen) hook)
    (a.scene.build (a.request job b c n) (.screen job.screen) decl)).hold (.screen job.screen) (.job job.screen)

/-- What a parser does that may pass its gate. -/
theorem finishParser?_eq (a : App) (job : Job) (b c n : Owner) : a.finishParser? job b c n =
    if (a.markup job.markup).gated = true ∧ a.tokens = 0 then none
    else
      let tokens := if (a.markup job.markup).gated then a.tokens - 1 else a.tokens
      match (a.markup job.markup).built? with
      | some decl => some (.parsed (.screen job.screen),
          { a with scene := a.builtScene job b c n decl (a.markup job.markup).hooks, tokens := tokens })
      | none => some (.release, { a with tokens := tokens }) := by
  unfold finishParser? Markup.built?
  dsimp only
  split
  · rfl
  · cases (a.markup job.markup).gated
    all_goals
      cases (a.markup job.markup).panics
      · cases (a.markup job.markup).screen <;> rfl
      · rfl

/-- What the parser does once it has passed its gate: it builds the graph of the screen, or nothing. -/
theorem finishParser?_eq_some {a a' : App} {job : Job} {b c n : Owner} {stage : JobStage}
    (h : a.finishParser? job b c n = some (stage, a')) :
    ∃ s tokens, a' = { a with scene := s, tokens := tokens } ∧
      ((stage = .release ∧ s = a.scene) ∨
        ∃ decl, stage = .parsed (.screen job.screen) ∧
          s = a.builtScene job b c n decl (a.markup job.markup).hooks) := by
  rw [finishParser?_eq] at h
  split at h
  · cases h
  · dsimp only at h
    split at h
    · rename_i decl _
      cases h
      exact ⟨_, _, rfl, .inr ⟨decl, rfl, rfl⟩⟩
    · cases h
      exact ⟨_, _, rfl, .inl ⟨rfl, rfl⟩⟩

end App

namespace Job

/-- What the job of a screen can do in one step. -/
inductive Turn (a : App) (job : Job) (screen : Screen) : JobEffect → Prop
  /-- The host has let go of the screen before the job began. -/
  | giveUp (at_start : job.stage = .start) (dropped : screen.dropped = true) :
      Turn a job screen ⟨.release, screen, a.scene, a.tokens⟩
  | begin (at_start : job.stage = .start) : Turn a job screen ⟨.parse, screen, a.scene, a.tokens⟩
  | call (at_parse : job.stage = .parse) :
      Turn a job screen ⟨(a.callParser job).1, screen, (a.callParser job).2.scene, a.tokens⟩
  /-- The parser panics or returns nothing. -/
  | fail {b c n : Owner} {tokens : Nat} (at_parsing : job.stage = .parsing b c n) :
      Turn a job screen ⟨.release, screen, a.scene, tokens⟩
  /-- The parser returns a graph, in which the hooks of the markup are registered. -/
  | build {b c n : Owner} {tokens : Nat} (decl : GraphDecl) (hooks : List LoadHook)
      (at_parsing : job.stage = .parsing b c n) (registered : hooks = (a.markup job.markup).hooks) :
      Turn a job screen ⟨.parsed (.screen job.screen), screen, a.builtScene job b c n decl hooks, tokens⟩
  /-- The host has let go of the screen while the parser ran. -/
  | discard {g : GraphId} (at_parsed : job.stage = .parsed g) (dropped : screen.dropped = true) :
      Turn a job screen ⟨.release, screen, a.scene.release g (.job job.screen), a.tokens⟩
  | keep {g : GraphId} (at_parsed : job.stage = .parsed g) :
      Turn a job screen ⟨.attach g, { screen with pinned := true }, a.scene, a.tokens⟩
  | attach {g : GraphId} {graph : Graph} (at_attach : job.stage = .attach g)
      (built : a.scene.graphs.get? g = some graph) :
      Turn a job screen ⟨.addView g, screen, a.scene.attach graph.tasks g, a.tokens⟩
  | addView {g : GraphId} {graph : Graph} (at_addView : job.stage = .addView g)
      (built : a.scene.graphs.get? g = some graph) :
      Turn a job screen ⟨.publish g, screen, a.scene.addView graph.binder g, a.tokens⟩
  | publish {g : GraphId} (at_publish : job.stage = .publish g) :
      Turn a job screen ⟨.letGo, { screen with view := some g },
        (a.scene.hold g (.screen job.screen)).release g (.job job.screen), a.tokens⟩
  /-- The host has let go of the screen while the job kept its state. -/
  | forget {g : GraphId} (at_letGo : job.stage = .letGo) (dropped : screen.dropped = true)
      (view : screen.view = some g) :
      Turn a job screen ⟨.callBack, { screen with pinned := false, view := none },
        a.scene.release g (.screen job.screen), a.tokens⟩
  | letGo (at_letGo : job.stage = .letGo) :
      Turn a job screen ⟨.callBack, { screen with pinned := false }, a.scene, a.tokens⟩
  /-- The callback is called, if there is one. -/
  | callBack {s : Scene} (at_callBack : job.stage = .callBack)
      (called : s = a.scene ∨ ∃ line, s = a.scene.emit (.initDone job.screen line)) :
      Turn a job screen ⟨.release, screen, s, a.tokens⟩
  | release (at_release : job.stage = .release) :
      Turn a job screen ⟨.ended, { screen with released := true }, a.scene, a.tokens⟩

theorem turn_of_effect {a : App} {job : Job} {screen : Screen} {e : JobEffect} (h : job.effect? a screen = some e) :
    Turn a job screen e := by
  cases hstage : job.stage with
  | start =>
    simp only [effect?, hstage] at h
    cases h
    split
    · rename_i hdropped
      exact .giveUp hstage hdropped
    · exact .begin hstage
  | parse =>
    simp only [effect?, hstage] at h
    cases h
    exact .call hstage
  | parsing b c n =>
    simp only [effect?, hstage] at h
    obtain ⟨⟨stage, a'⟩, hf, rfl⟩ := Option.map_eq_some_iff.1 h
    obtain ⟨s, tokens, rfl, ⟨rfl, rfl⟩ | ⟨decl, rfl, rfl⟩⟩ := App.finishParser?_eq_some hf
    · exact .fail hstage
    · exact .build decl _ hstage rfl
  | parsed g =>
    simp only [effect?, hstage] at h
    split at h
    · rename_i hdropped
      cases h
      exact .discard hstage hdropped
    · cases h
      exact .keep hstage
  | attach g =>
    simp only [effect?, hstage] at h
    obtain ⟨graph, hgraph, rfl⟩ := Option.map_eq_some_iff.1 h
    exact .attach hstage hgraph
  | addView g =>
    simp only [effect?, hstage] at h
    obtain ⟨graph, hgraph, rfl⟩ := Option.map_eq_some_iff.1 h
    exact .addView hstage hgraph
  | publish g =>
    simp only [effect?, hstage] at h
    cases h
    exact .publish hstage
  | letGo =>
    simp only [effect?, hstage] at h
    split at h
    · rename_i g hdropped hview
      cases h
      exact .forget hstage hdropped hview
    · cases h
      exact .letGo hstage
  | callBack =>
    simp only [effect?, hstage] at h
    cases h
    refine .callBack hstage ?_
    split
    · exact .inl rfl
    · exact .inr ⟨_, rfl⟩
  | release =>
    simp only [effect?, hstage] at h
    cases h
    exact .release hstage
  | ended =>
    simp only [effect?, hstage] at h
    cases h

end Job

namespace App

theorem advanceJob?_eq (a : App) (job : Job) :
    a.advanceJob? job = (a.screens.get? job.screen).bind fun screen =>
      (job.effect? a screen).map fun e => (e.stage, a.afterJob job.screen e) := by
  cases hs : a.screens.get? job.screen with
  | none => simp [advanceJob?, hs]
  | some screen =>
    have hself := Store.modify_self hs
    simp only [advanceJob?, hs, Option.bind_some, Job.effect?]
    cases job.stage with
    | start => cases screen.dropped <;> simp [afterJob, hself]
    | parse => simp [afterJob, hself, callParser]
    | parsing b c n =>
      cases hf : a.finishParser? job b c n with
      | none => simp [hf]
      | some r =>
        obtain ⟨stage, a'⟩ := r
        obtain ⟨s, tokens, rfl, -⟩ := finishParser?_eq_some hf
        simp [hf, afterJob, hself]
    | parsed g =>
      by_cases hd : screen.dropped = true
      · simp [hd, afterJob, modifyScene, hself]
      · simp only [hd, afterJob, modifyScreen, Store.modify_eq_const hs]
        rfl
    | attach g => cases hg : a.scene.graphs.get? g <;> simp [hg, afterJob, modifyScene, hself]
    | addView g => cases hg : a.scene.graphs.get? g <;> simp [hg, afterJob, modifyScene, hself]
    | publish g =>
      simp only [afterJob, publish, modifyScene, modifyScreen, Store.modify_eq_const hs]
      rfl
    | letGo =>
      simp only [afterJob, modifyScreen, modifyScene, Store.modify_eq_const hs, forgetView,
        Store.get?_modify_self, hs, Option.map_some, Option.bind_some]
      by_cases hd : screen.dropped = true
      · cases screen.view <;> simp [hd, Store.modify_modify, Function.comp_def]
      · simp [hd]
    | callBack => cases job.options.onDone <;> simp [afterJob, modifyScene, hself]
    | release =>
      simp only [afterJob, modifyScreen, Store.modify_eq_const hs]
      rfl
    | ended => rfl

/-- What a worker does that goes on with the job of a screen. -/
theorem work?_eq_some {a a' : App} {i : ScreenId} (h : a.work? i = some a') :
    ∃ k job screen e, a.workers.busy[k]? = some job ∧ job.screen = i ∧ a.screens.get? i = some screen ∧
      job.effect? a screen = some e ∧
        a' = { a.afterJob i e with
          workers := if e.stage = .ended then a.workers.retire k
            else a.workers.update k { job with stage := e.stage } } := by
  unfold work? at h
  split at h
  · cases h
  · rename_i k hk
    split at h
    · cases h
    · rename_i job hjob
      have hi : job.screen = i := by
        obtain ⟨hlt, hfor, -⟩ := List.findIdx?_eq_some_iff_getElem.1 hk
        rw [List.getElem?_eq_getElem hlt] at hjob
        rw [Option.some.inj hjob] at hfor
        simpa [Job.isFor] using hfor
      subst hi
      rw [advanceJob?_eq] at h
      cases hs : a.screens.get? job.screen with
      | none => simp [hs] at h
      | some screen =>
        cases he : job.effect? a screen with
        | none => simp [hs, he] at h
        | some e =>
          refine ⟨k, job, screen, e, hjob, rfl, rfl, he, ?_⟩
          simp only [hs, he, Option.bind_some, Option.map_some] at h
          by_cases hend : e.stage = .ended
          · simp only [hend] at h
            cases h
            rw [if_pos hend]
          · rw [if_neg hend]
            split at h
            · cases h
            · rename_i heq
              exact absurd (congrArg Prod.fst (Option.some.inj heq)) hend
            · rename_i heq
              cases heq
              cases h
              rfl

/-- The first call of `prepare` for a screen. -/
theorem prepare_eq {a : App} {i : ScreenId} {screen : Screen} (hs : a.screens.get? i = some screen)
    (hi : screen.calledInitialize = false) (markup : String) (options : InitOptions) :
    a.prepare i markup options = { a with
      screens := a.screens.modify i fun s => { s with calledInitialize := true }
      workers := a.workers.submit ⟨i, markup, options, .start⟩ } := by
  simp [prepare, hs, hi, modifyScreen]

/-- A screen the host lets go of. -/
theorem dropScreen_eq {a : App} {i : ScreenId} {screen : Screen} (hs : a.screens.get? i = some screen) :
    a.dropScreen i = { a with
      screens := a.screens.modify i fun _ =>
        { screen with dropped := true, view := if screen.pinned then screen.view else none }
      scene := match screen.pinned, screen.view with
        | false, some g => a.scene.release g (.screen i)
        | _, _ => a.scene } := by
  simp only [dropScreen, hs, forgetView, modifyScreen, modifyScene, Store.modify_eq_const hs,
    Store.get?_modify_self, Option.map_some, Option.bind_some]
  cases screen.pinned
  · cases screen.view <;> simp [Store.modify_modify, Function.comp_def]
  · rfl

/-- Telling a screen that a part of it is on display changes at most the scene. -/
theorem present_eq (a : App) (t : Thread) (i : ScreenId) (value : String) :
    (a.present t i value).2 = { a with scene := (a.present t i value).2.scene } := by
  unfold present
  split
  · rfl
  · split
    · rfl
    · split <;> rfl

theorem takeJob?_eq_some {a a' : App} {i : ScreenId} (h : a.takeJob? i = some a') :
    ∃ job rest, a.workers.waiting = job :: rest ∧ job.screen = i ∧
      a' = { a with workers := { a.workers with waiting := rest, busy := a.workers.busy ++ [job] } } := by
  unfold takeJob? Workers.take? at h
  split at h
  · rename_i job workers htake
    split at htake
    · split at htake
      · cases htake
      · rename_i rest hw
        cases htake
        split at h
        · rename_i hi
          cases h
          exact ⟨job, rest, hw, by simpa [Job.isFor] using hi, rfl⟩
        · cases h
    · cases htake
  · cases h

theorem discardJob?_eq_some {a a' : App} {i : ScreenId} (h : a.discardJob? i = some a') :
    (∃ job ∈ a.workers.waiting, job.screen = i) ∧
      a' = { a with
        screens := a.screens.modify i fun s => { s with released := true }
        workers := { a.workers with waiting := a.workers.waiting.filter fun job => !job.isFor i } } := by
  unfold discardJob? at h
  split at h
  · rename_i hany
    cases h
    obtain ⟨job, hj, hi⟩ := List.any_eq_true.1 hany
    exact ⟨⟨job, hj, by simpa [Job.isFor] using hi⟩, rfl⟩
  · cases h

end App

end LiveScreen
