/-
What is outside of the loadings of a screen: everything but the screen's flag
and the calls (`App.outside`). Moves that are about no call neither read nor
change what is inside (`step?_outside`), and a call reads of it only its own
entry and the flag of its screen (`Twin.step`).
-/
import LiveScreen.Proofs.Loader.Jobs

namespace LiveScreen

/-- A screen that nobody has taken for himself. -/
def Screen.untaken (s : Screen) : Screen := { s with calledLoad := false }

theorem Screen.eq_of_untaken {s s' : Screen} (h : s'.untaken = s.untaken) (hflag : s'.calledLoad = s.calledLoad) :
    s' = s := by
  obtain ⟨initialized, taken, released, view, dropped, pinned⟩ := s
  obtain ⟨initialized', taken', released', view', dropped', pinned'⟩ := s'
  cases h
  cases hflag
  rfl

namespace App

variable {a a' b : App} {i j : ScreenId} {c : CallId}

/-- An application as it is outside of the loadings of a screen. -/
def outside (a : App) (i : ScreenId) : App := { a with screens := a.screens.modify i .untaken, calls := .empty }

theorem get?_screens_outside (a : App) (i j : ScreenId) :
    (a.outside i).screens.get? j = (a.screens.get? j).map fun s => if j = i then s.untaken else s := by
  show (a.screens.modify i .untaken).get? j = _
  rw [Store.get?_modify]
  split
  · rfl
  · rw [Option.map_id']

/-- What is outside of the loadings of a screen says all of the screen but its flag. -/
theorem screen_of_outside (h : a'.outside i = a.outside i) (j : ScreenId) :
    (a'.screen j).untaken = (a.screen j).untaken := by
  have hget : (a'.outside i).screens.get? j = (a.outside i).screens.get? j := by rw [h]
  rw [get?_screens_outside, get?_screens_outside] at hget
  simp only [App.screen]
  cases ha : a.screens.get? j <;> cases ha' : a'.screens.get? j <;>
    simp only [ha, ha', Option.map_none, Option.map_some] at hget
  · rfl
  · cases hget
  · cases hget
  · have hscreen := Option.some.inj hget
    split at hscreen
    · exact hscreen
    · exact congrArg Screen.untaken hscreen

theorem screens_of_outside (h : a'.outside i = a.outside i) {j : ScreenId}
    (hflag : j = i → (a'.screen i).calledLoad = (a.screen i).calledLoad) : a'.screens.get? j = a.screens.get? j := by
  have hget : (a'.outside i).screens.get? j = (a.outside i).screens.get? j := by rw [h]
  rw [get?_screens_outside, get?_screens_outside] at hget
  by_cases hj : j = i
  · subst hj
    have hflag := hflag rfl
    simp only [if_true] at hget
    cases ha : a.screens.get? j with
    | none =>
      rw [ha] at hget
      exact Option.map_eq_none_iff.1 hget
    | some s =>
      rw [ha] at hget
      obtain ⟨s', ha', huntaken⟩ := Option.map_eq_some_iff.1 hget
      rw [screen_eq ha, screen_eq ha'] at hflag
      rw [ha', Screen.eq_of_untaken huntaken hflag]
  · simpa only [if_neg hj, Option.map_id'] using hget

theorem finishParser?_outside (a : App) (i : ScreenId) (job : Job) (b c n : Owner) :
    (a.outside i).finishParser? job b c n = (a.finishParser? job b c n).map fun r => (r.1, r.2.outside i) := by
  simp only [finishParser?, show (a.outside i).markup job.markup = a.markup job.markup from rfl,
    show (a.outside i).tokens = a.tokens from rfl]
  by_cases hgate : (a.markup job.markup).gated = true ∧ a.tokens = 0
  · rw [if_pos hgate, if_pos hgate]
    rfl
  · rw [if_neg hgate, if_neg hgate]
    cases (a.markup job.markup).gated <;> cases (a.markup job.markup).panics <;>
      cases (a.markup job.markup).screen <;> rfl

/-- A job does the same to a screen and the scene whoever loads screens. -/
theorem effect?_outside (a : App) (i : ScreenId) (job : Job) (screen : Screen) :
    job.effect? (a.outside i) screen = job.effect? a screen := by
  have hscene : (a.outside i).scene = a.scene := rfl
  have htokens : (a.outside i).tokens = a.tokens := rfl
  simp only [Job.effect?, hscene, htokens, finishParser?_outside, Option.map_map]
  cases job.stage <;> rfl

/-- A job does the same whether its screen is taken or not. -/
theorem effect?_untaken (a : App) (job : Job) (screen : Screen) :
    job.effect? a screen.untaken = (job.effect? a screen).map fun e => { e with screen := e.screen.untaken } := by
  cases hstage : job.stage with
  | parsing | attach | addView =>
    simp only [Job.effect?, hstage, Option.map_map]
    rfl
  | parsed | letGo =>
    obtain ⟨initialized, taken, released, view, dropped, pinned⟩ := screen
    simp only [Job.effect?, hstage, Screen.untaken]
    cases dropped <;> cases view <;> rfl
  | _ =>
    simp only [Job.effect?, hstage]
    rfl

/-! ## Moves that are about no call -/

theorem prepare_outside (a : App) (i j : ScreenId) (markup : String) (options : InitOptions) :
    (a.outside i).prepare j markup options = (a.prepare j markup options).outside i := by
  have hget := get?_screens_outside a i j
  cases hs : a.screens.get? j with
  | none =>
    rw [hs] at hget
    simp only [prepare, hget, hs, Option.map_none]
  | some screen =>
    rw [hs] at hget
    have hinit : (if j = i then screen.untaken else screen).calledInitialize = screen.calledInitialize := by
      split <;> rfl
    cases hi : screen.calledInitialize with
    | true => simp only [prepare, hget, hs, Option.map_some, hinit, hi, if_true]
    | false =>
      rw [prepare_eq hs hi, prepare_eq hget (hinit.trans hi)]
      simp only [outside]
      rw [Store.modify_comm]
      exact fun _ _ => rfl

/-- Setting a screen, in an application and as it is outside. -/
theorem modify_const_outside (a : App) (i j : ScreenId) (screen : Screen) :
    (a.screens.modify i .untaken).modify j (fun _ => if j = i then screen.untaken else screen) =
      (a.screens.modify j fun _ => screen).modify i .untaken := by
  refine Store.ext_get? fun k => ?_
  simp only [Store.get?_modify]
  by_cases hj : k = j
  · subst hj
    by_cases hi : k = i
    · simp only [if_pos hi, if_true, Option.map_map]
      rfl
    · simp only [if_neg hi, if_true, Option.map_map]
  · simp only [if_neg hj]

theorem dropScreen_outside (a : App) (i j : ScreenId) : (a.outside i).dropScreen j = (a.dropScreen j).outside i := by
  have hget := get?_screens_outside a i j
  cases hs : a.screens.get? j with
  | none =>
    rw [hs] at hget
    simp only [dropScreen, hget, hs, Option.map_none]
  | some screen =>
    rw [hs] at hget
    rw [dropScreen_eq hs, dropScreen_eq hget]
    simp only [outside]
    rw [← modify_const_outside]
    by_cases hj : j = i
    · simp only [if_pos hj]
      rfl
    · simp only [if_neg hj]

theorem present_outside (a : App) (i j : ScreenId) (t : Thread) (value : String) :
    (a.outside i).present t j value = ((a.present t j value).1, (a.present t j value).2.outside i) := by
  have hview : ((a.outside i).screens.get? j).bind (·.view) = (a.screens.get? j).bind (·.view) := by
    rw [get?_screens_outside]
    cases a.screens.get? j with
    | none => rfl
    | some screen =>
      show (if j = i then screen.untaken else screen).view = screen.view
      split <;> rfl
  have hscene : (a.outside i).scene = a.scene := rfl
  simp only [present, hview, hscene]
  cases (a.screens.get? j).bind (·.view) with
  | none => rfl
  | some g =>
    cases hg : a.scene.graphs.get? g with
    | none => simp only [hg]
    | some graph => cases hl : graph.mount.loaded <;> simp only [hg, hl] <;> rfl

theorem advanceJob?_outside (a : App) (i : ScreenId) (job : Job) :
    (a.outside i).advanceJob? job = (a.advanceJob? job).map fun r => (r.1, r.2.outside i) := by
  rw [advanceJob?_eq, advanceJob?_eq, get?_screens_outside]
  cases hs : a.screens.get? job.screen with
  | none => rfl
  | some screen =>
    simp only [Option.map_some, Option.bind_some, effect?_outside, Option.map_map]
    -- The screen is the one whose flag is left out, or another one.
    by_cases hi : job.screen = i
    · subst hi
      simp only [if_true, effect?_untaken, Option.map_map]
      congr 1
      refine funext fun e => ?_
      have hscreens := modify_const_outside a job.screen job.screen e.screen
      simp only [if_true] at hscreens
      simp only [Function.comp_def, afterJob, outside, hscreens]
    · simp only [if_neg hi]
      congr 1
      refine funext fun e => ?_
      have hscreens := modify_const_outside a i job.screen e.screen
      simp only [if_neg hi] at hscreens
      simp only [Function.comp_def, afterJob, outside, hscreens]

theorem work?_outside (a : App) (i j : ScreenId) : (a.outside i).work? j = (a.work? j).map (·.outside i) := by
  have hworkers : (a.outside i).workers = a.workers := rfl
  simp only [work?, hworkers, advanceJob?_outside]
  cases a.workers.busy.findIdx? (·.isFor j) with
  | none => rfl
  | some k =>
    cases hk : a.workers.busy[k]? with
    | none => simp only [hk, Option.map_none]
    | some job =>
      cases hadvance : a.advanceJob? job with
      | none => simp only [hk, hadvance, Option.map_none]
      | some r =>
        obtain ⟨stage, a'⟩ := r
        simp only [hk, hadvance, Option.map_some]
        cases stage <;> rfl

/-- A move that is about no call does the same outside, whoever loads the screen. -/
theorem step?_outside (a : App) (i : ScreenId) {m : Move} (hm : m.call? = none) :
    (a.outside i).step? m = (a.step? m).map (·.outside i) := by
  have hworkers : (a.outside i).workers = a.workers := rfl
  cases m with
  | load | resume | expire => cases hm
  | addScreen =>
    simp only [step?, addScreen, outside, Option.map_some]
    rw [Store.modify_add _ _ rfl]
  | prepare j markup options => exact congrArg some (prepare_outside a i j markup options)
  | work j => exact work?_outside a i j
  | drop j => exact congrArg some (dropScreen_outside a i j)
  | present t j value => exact congrArg (fun r => some r.2) (present_outside a i j t value)
  | take j =>
    simp only [step?, takeJob?, hworkers]
    cases a.workers.take? with
    | none => rfl
    | some r =>
      obtain ⟨job, workers⟩ := r
      cases hj : job.isFor j <;> simp only [hj] <;> rfl
  | discard j =>
    simp only [step?, discardJob?, hworkers]
    cases a.workers.waiting.any (·.isFor j) with
    | true =>
      simp only [modifyScreen, outside, if_true, Option.map_some]
      rw [Store.modify_comm]
      exact fun _ _ => rfl
    | false => rfl
  | openGate | update | perform | animate | addLoadHook | poll => rfl

/-! ## Moves of a call -/

theorem resume?_eq (a : App) (c : CallId) :
    a.resume? c = (a.calls.get? c).bind fun call => (a.screens.get? c.screen).bind fun screen =>
      (call.next? a.registries screen).map fun (stage, flag) =>
        { a with
          scene := call.act a.scene
          screens := a.flagged c.screen flag
          calls := a.calls.insert c { call with stage } } := by
  unfold resume?
  cases a.calls.get? c with
  | none => rfl
  | some call =>
    simp only [advanceCall?_eq, Option.bind_some]
    cases a.screens.get? c.screen with
    | none => rfl
    | some screen => simp only [Option.bind_some, Option.map_map]; rfl

/-- A step of a call that has no layout parameters stays inside of the loadings of its screen. -/
theorem outside_of_step {m : Move} (h : a.step? m = some b) (hm : m.call? = some c) (hc : c.screen = i)
    (hpassed : ∀ call, a.calls.get? c = some call → call.stage.passed = false) : b.outside i = a.outside i := by
  cases callMove_of_step h i with
  | elsewhere about => exact absurd hc (about c hm)
  | load _ _ after => rw [after]; rfl
  | expire _ _ after => rw [after]; rfl
  | @resume _ call stage flag about before known next after =>
    cases hm
    have hflagged : (a.flagged i flag).modify i .untaken = a.screens.modify i .untaken := by
      cases flag with
      | none => rfl
      | some b => simp only [flagged, Store.modify_modify]; rfl
    rw [after, LoadCall.act_of_not_passed (hpassed call before)]
    simp only [outside, hflagged]

/-- Two applications are the same for a call: outside of the loadings of a screen, and in what the
call reads of them. -/
structure Twin (i : ScreenId) (c : CallId) (a a' : App) : Prop where
  outside : a'.outside i = a.outside i
  screen : a'.screens.get? c.screen = a.screens.get? c.screen
  entry : a'.calls.get? c = a.calls.get? c

theorem Twin.symm (h : Twin i c a a') : Twin i c a' a := ⟨h.outside.symm, h.screen.symm, h.entry.symm⟩

theorem Twin.flagged (h : Twin i c a a') (flag : Option Bool) :
    (a'.flagged c.screen flag).modify i .untaken = (a.flagged c.screen flag).modify i .untaken ∧
      (a'.flagged c.screen flag).get? c.screen = (a.flagged c.screen flag).get? c.screen := by
  have hs : a'.screens.modify i .untaken = a.screens.modify i .untaken := congrArg (·.screens) h.outside
  cases flag with
  | none => exact ⟨hs, h.screen⟩
  | some b =>
    refine ⟨?_, by simp only [App.flagged, Store.get?_modify_self, h.screen]⟩
    by_cases hc : c.screen = i
    · simp only [App.flagged, hc, Store.modify_modify]
      exact hs
    · simp only [App.flagged]
      rw [Store.modify_comm a'.screens _ _ fun he => absurd he hc, hs,
        Store.modify_comm a.screens _ _ fun he => absurd he hc]

/-- A move of a call does the same where everything is the same for the call. -/
theorem Twin.step (h : Twin i c a a') {m : Move} (hm : m.call? = some c)
    (hb : a.step? m = some b) : ∃ b', a'.step? m = some b' ∧ Twin i c b b' := by
  have hscene : a'.scene = a.scene := congrArg (·.scene) h.outside
  have hregistries : a'.registries = a.registries := congrArg (·.registries) h.outside
  have htimeout : a'.loadTimeout = a.loadTimeout := congrArg (·.loadTimeout) h.outside
  cases m with
  | load c' r =>
    cases hm
    obtain ⟨hfresh, rfl⟩ := addCall?_eq_some hb
    refine ⟨{ a' with calls := a'.calls.insert c ⟨r, .check⟩ }, ?_, h.outside, h.screen, ?_⟩
    · simp only [step?, addCall?, Table.contains, h.entry, hfresh]
      rfl
    · simp only [Table.get?_insert_self]
  | expire c' =>
    cases hm
    obtain ⟨r, hwait, rfl⟩ := expire?_eq_some hb
    refine ⟨{ a' with calls := a'.calls.insert c ⟨r, .expired⟩ }, ?_, h.outside, h.screen, ?_⟩
    · simp only [step?, expire?, hwait] at hb
      cases ht : a.loadTimeout with
      | none => simp only [ht] at hb; cases hb
      | some limit => simp only [step?, expire?, h.entry, hwait, htimeout, ht]
    · simp only [Table.get?_insert_self]
  | resume c' =>
    cases hm
    obtain ⟨call, screen, stage, flag, hcall, hs, hnext, rfl⟩ := resume?_eq_some hb
    obtain ⟨hout, hscreen⟩ := h.flagged flag
    refine ⟨{ a' with
      scene := call.act a'.scene
      screens := a'.flagged c.screen flag
      calls := a'.calls.insert c { call with stage } }, ?_, ?_, hscreen, ?_⟩
    · simp only [step?, resume?_eq, h.entry, hcall, h.screen, hs, hregistries, hnext, Option.bind_some,
        Option.map_some]
    · show { a'.outside i with
          scene := call.act a'.scene
          screens := (a'.flagged c.screen flag).modify i .untaken } = { a.outside i with
          scene := call.act a.scene
          screens := (a.flagged c.screen flag).modify i .untaken }
      rw [h.outside, hscene, hout]
    · simp only [Table.get?_insert_self]
  | _ => cases hm

end App

end LiveScreen
