/-
Screens whose loadings are settled. Once a screen was loaded, and likewise once it
was released without a view, every call for it that starts from then on gets the
same answer and does nothing (`Settled.after`). Of such a call there is nothing
more to know than its request and whether it is over (`LoadCall.progress`).
-/
import LiveScreen.Proofs.Loader.InTurn

namespace LiveScreen

/-- The result of a loading. -/
abbrev LoadResult := Except LoadError GraphId

/-- The stages that a call can be at on a settled screen until it is over. If there is a view, calls
do not come to wait. -/
def LoadStage.early (result : LoadResult) : LoadStage → Prop
  | .check => True
  | .wait | .lookUp => result = .error .emptyView
  | _ => False

/-- How many steps are left at most. -/
def LoadStage.left : LoadStage → Nat
  | .check => 3
  | .wait => 2
  | .lookUp => 1
  | _ => 0

theorem LoadStage.left_le (stage : LoadStage) : stage.left ≤ 3 := by
  cases stage <;> simp [left]

theorem LoadStage.left_pos {result : LoadResult} {stage : LoadStage} (h : stage.early result) : 0 < stage.left := by
  cases stage <;> first | decide | exact absurd h id

/-- What there is to know of a call on a settled screen: its request, and its result once it is over. -/
def LoadCall.progress : Option LoadCall → Option (LoadRequest × Option LoadResult)
  | none => none
  | some ⟨r, .returned result⟩ => some (r, some result)
  | some ⟨r, _⟩ => some (r, none)

/-- A call is not there, has just begun, or is over. -/
def LoadCall.Idle (result : LoadResult) (entry : Option LoadCall) : Prop :=
  ∀ call, entry = some call → call.stage.early result ∨ ∃ result', call.stage = .returned result'

/-- What a happening does to a call on a settled screen. -/
def Happening.settle (result : LoadResult) :
    Happening → Option (LoadRequest × Option LoadResult) → Option (LoadRequest × Option LoadResult)
  | .call _ r, none => some (r, none)
  | .finish _, some (r, none) => some (r, some result)
  | _, progress => progress

namespace App

variable {a a' b : App} {i : ScreenId} {c : CallId} {result : LoadResult}

/-- All calls for a screen get the same answer. -/
structure Settled (i : ScreenId) (result : LoadResult) (a : App) : Prop where
  initialized : (a.screen i).calledInitialize = true
  released : (a.screen i).released = true
  view : viewOf (a.screen i) = result
  taken : result ≠ .error .emptyView → (a.screen i).calledLoad = true

theorem Settled.known (hs : Settled i result a) : a.screens.get? i = some (a.screen i) :=
  screens_of_initialized hs.initialized

/-- What a call does next that has just begun. -/
theorem Settled.next (hs : Settled i result a) {call : LoadCall} (hearly : call.stage.early result) :
    ∃ stage flag, call.next? a.registries (a.screen i) = some (stage, flag) ∧
      (stage = .returned result ∨ stage.early result ∧ stage.left < call.stage.left ∧ flag ≠ some false) := by
  cases hstage : call.stage with
  | check =>
    cases htaken : (a.screen i).calledLoad with
    | true =>
      refine ⟨.returned result, none, ?_, .inl rfl⟩
      simp only [LoadCall.next?, hstage, hs.initialized, htaken, hs.view]
      rfl
    | false =>
      have hempty : result = .error .emptyView := by
        by_contra hne
        rw [hs.taken hne] at htaken
        cases htaken
      refine ⟨.wait, some true, ?_, .inr ⟨hempty, by decide, by decide⟩⟩
      simp only [LoadCall.next?, hstage, hs.initialized, htaken]
      rfl
  | wait =>
    rw [hstage] at hearly
    refine ⟨.lookUp, none, ?_, .inr ⟨hearly, by decide, by decide⟩⟩
    simp only [LoadCall.next?, hstage, hs.released, if_true]
  | lookUp =>
    rw [hstage] at hearly
    have hview := hs.view
    rw [show result = .error .emptyView from hearly] at hview ⊢
    refine ⟨_, none, ?_, .inl rfl⟩
    cases hv : (a.screen i).view with
    | none => simp only [LoadCall.next?, hstage, hv]
    | some g =>
      simp only [viewOf, hv] at hview
      cases hview
  | _ =>
    rw [hstage] at hearly
    exact absurd hearly id

/-- A screen that is settled stays so where nothing changes outside of its loadings and it is not given
back. -/
theorem Settled.of_outside (hs : Settled i result a) (hout : b.outside i = a.outside i)
    (htaken : result ≠ .error .emptyView → (b.screen i).calledLoad = true) : Settled i result b := by
  have hscreen := screen_of_outside hout i
  refine ⟨?_, ?_, ?_, htaken⟩
  · exact (congrArg Screen.calledInitialize hscreen).trans hs.initialized
  · exact (congrArg Screen.released hscreen).trans hs.released
  · have hview := congrArg Screen.view hscreen
    rw [← hs.view]
    unfold viewOf
    rw [show (b.screen i).view = (a.screen i).view from hview]

/-- A step of a call that has just begun. -/
theorem Settled.resume (hs : Settled i result a) (hc : c.screen = i) {call : LoadCall}
    (hcall : a.calls.get? c = some call) (hearly : call.stage.early result) :
    ∃ b stage, a.resume? c = some b ∧ b.calls.get? c = some { call with stage } ∧ b.outside i = a.outside i ∧
      (stage = .returned result ∨ Settled i result b ∧ stage.early result ∧ stage.left < call.stage.left) := by
  subst hc
  obtain ⟨stage, flag, hnext, hstage⟩ := hs.next hearly
  obtain ⟨b, hb⟩ : ∃ b, b = { a with
      scene := call.act a.scene
      screens := a.flagged c.screen flag
      calls := a.calls.insert c { call with stage } } := ⟨_, rfl⟩
  have hresume : a.resume? c = some b := by
    rw [hb, resume?_eq, hcall, Option.bind_some, hs.known, Option.bind_some, hnext, Option.map_some]
  have hout : b.outside c.screen = a.outside c.screen := by
    refine outside_of_step (m := .resume c) hresume rfl rfl fun call' hcall' => ?_
    obtain rfl := Option.some.inj (hcall.symm.trans hcall')
    cases hstage : call.stage <;> simp only [hstage] at hearly <;> first | rfl | exact absurd hearly id
  refine ⟨b, stage, hresume, by rw [hb, Table.get?_insert_self], hout, ?_⟩
  rcases hstage with hover | ⟨hearly', hleft, hflag⟩
  · exact .inl hover
  · refine .inr ⟨hs.of_outside hout fun hne => ?_, hearly', hleft⟩
    rw [(holds_resume hs.known hb).1]
    cases flag with
    | none => exact hs.taken hne
    | some taken =>
      cases taken with
      | true => rfl
      | false => exact absurd rfl hflag

theorem resume?_of_result {result : LoadResult} (h : a.result? c = some result) : a.resume? c = none := by
  obtain ⟨r, hcall⟩ := result?_eq_some.1 h
  cases hresume : a.resume? c with
  | none => rfl
  | some b =>
    obtain ⟨call, screen, stage, flag, hcall', -, hnext, -⟩ := resume?_eq_some hresume
    rw [hcall] at hcall'
    cases hcall'
    cases hnext

theorem resumeFor_of_none (n : Nat) (h : a.resume? c = none) : resumeFor c n a = a := by
  cases n with
  | zero => rfl
  | succ n => simp only [App.resumeFor, h]

/-- A call that has just begun comes to its end at once. -/
theorem Settled.resumeFor (hs : Settled i result a) (hc : c.screen = i) {call : LoadCall}
    (hcall : a.calls.get? c = some call) (hearly : call.stage.early result) {n : Nat} (hn : call.stage.left ≤ n) :
    (resumeFor c n a).calls.get? c = some { call with stage := .returned result } ∧
      (resumeFor c n a).outside i = a.outside i := by
  induction n generalizing a call with
  | zero =>
    have hpos := LoadStage.left_pos hearly
    omega
  | succ n ih =>
    obtain ⟨b, stage, hresume, hentry, hout, hstage⟩ := hs.resume hc hcall hearly
    simp only [App.resumeFor, hresume]
    rcases hstage with rfl | ⟨hb, hearly', hleft⟩
    · rw [resumeFor_of_none _ (resume?_of_result (result?_eq_some.2 ⟨_, hentry⟩))]
      exact ⟨hentry, hout⟩
    · obtain ⟨hover, hout'⟩ := ih hb hentry hearly' (by dsimp only; omega)
      exact ⟨hover, hout'.trans hout⟩

theorem progress_of_early {call : LoadCall} (h : call.stage.early result) :
    LoadCall.progress (some call) = some (call.request, none) := by
  obtain ⟨r, stage⟩ := call
  cases stage <;> first | rfl | exact absurd h id

theorem result?_of_early {call : LoadCall} (hcall : a.calls.get? c = some call) (h : call.stage.early result) :
    a.result? c = none := by
  cases hr : a.result? c with
  | none => rfl
  | some result' =>
    obtain ⟨r, hcall'⟩ := result?_eq_some.1 hr
    rw [hcall] at hcall'
    cases hcall'
    exact absurd h id

/-- What has become of a call on a settled screen, whose progress is known. -/
structure Kept (i : ScreenId) (c : CallId) (result : LoadResult) (progress : Option (LoadRequest × Option LoadResult))
    (a a' : App) : Prop where
  outside : a'.outside i = a.outside i
  idle : LoadCall.Idle result (a'.calls.get? c)
  progress : LoadCall.progress (a'.calls.get? c) = progress

theorem Kept.refl (h : LoadCall.Idle result (a.calls.get? c)) :
    Kept i c result (LoadCall.progress (a.calls.get? c)) a a := ⟨rfl, h, rfl⟩

theorem Settled.call (hidle : LoadCall.Idle result (a.calls.get? c)) (r : LoadRequest) :
    Kept i c result ((Happening.call c r).settle result (LoadCall.progress (a.calls.get? c))) a
      (a.after (.call c r)) := by
  cases hentry : a.calls.get? c with
  | none =>
    have hafter : a.after (.call c r) = { a with calls := a.calls.insert c ⟨r, .check⟩ } := by
      simp only [App.after, addCall?, Table.contains, hentry]
      rfl
    rw [hafter]
    refine ⟨rfl, fun call hcall => ?_, ?_⟩
    · rw [Table.get?_insert_self] at hcall
      cases hcall
      exact .inl trivial
    · rw [Table.get?_insert_self]
      rfl
  | some call =>
    have hafter : a.after (.call c r) = a := by
      simp only [App.after, addCall?, Table.contains, hentry]
      rfl
    have hsettle : (Happening.call c r).settle result (LoadCall.progress (some call)) =
        LoadCall.progress (some call) := by
      obtain ⟨r', stage⟩ := call
      cases stage <;> rfl
    rw [hafter, hsettle, ← hentry]
    exact .refl hidle

theorem Settled.advance (hs : Settled i result a) (hc : c.screen = i)
    (hidle : LoadCall.Idle result (a.calls.get? c)) :
    Kept i c result (LoadCall.progress (a.calls.get? c)) a (a.after (.advance c)) := by
  cases hentry : a.calls.get? c with
  | none =>
    have hafter : a.after (.advance c) = a := by simp only [App.after, resume?_eq, hentry, Option.bind_none]
    rw [hafter, ← hentry]
    exact .refl hidle
  | some call =>
    rcases hidle call hentry with hearly | ⟨result', hover⟩
    · obtain ⟨b, stage, hresume, hnew, hout, hstage⟩ := hs.resume hc hentry hearly
      rcases hstage with rfl | ⟨-, hearly', -⟩
      · -- The step would end the call.
        have hafter : a.after (.advance c) = a := by
          simp only [App.after, hresume, result?_eq_some.2 ⟨_, hnew⟩, Option.isSome_some, if_true]
        rw [hafter, ← hentry]
        exact .refl hidle
      · have hafter : a.after (.advance c) = b := by
          simp only [App.after, hresume, result?_of_early hnew hearly']
          rfl
        rw [hafter]
        refine ⟨hout, fun call' hcall' => ?_, ?_⟩
        · rw [hnew] at hcall'
          cases hcall'
          exact .inl hearly'
        · rw [hnew, progress_of_early hearly', progress_of_early hearly]
    · have hresult : a.result? c = some result' := result?_eq_some.2 ⟨call.request, by rw [hentry, ← hover]⟩
      have hafter : a.after (.advance c) = a := by simp only [App.after, resume?_of_result hresult]
      rw [hafter, ← hentry]
      exact .refl hidle

theorem Settled.finish (hs : Settled i result a) (hc : c.screen = i)
    (hidle : LoadCall.Idle result (a.calls.get? c)) :
    Kept i c result ((Happening.finish c).settle result (LoadCall.progress (a.calls.get? c))) a
      (a.after (.finish c)) := by
  cases hentry : a.calls.get? c with
  | none =>
    have hafter : a.after (.finish c) = a := by simp only [App.after, finishCall, hentry]
    rw [hafter, show (Happening.finish c).settle result (LoadCall.progress none) = LoadCall.progress none from rfl,
      ← hentry]
    exact .refl hidle
  | some call =>
    have hafter : a.after (.finish c) = App.resumeFor c (15 + call.request.data.length) a := by
      simp only [App.after, finishCall, hentry]
    rw [hafter]
    rcases hidle call hentry with hearly | ⟨result', hover⟩
    · have hleft : call.stage.left ≤ 15 + call.request.data.length := by
        have hsmall := LoadStage.left_le call.stage
        omega
      obtain ⟨hnew, hout⟩ := hs.resumeFor hc hentry hearly hleft
      refine ⟨hout, fun call' hcall' => ?_, ?_⟩
      · rw [hnew] at hcall'
        cases hcall'
        exact .inr ⟨result, rfl⟩
      · rw [hnew, progress_of_early hearly]
        rfl
    · obtain ⟨r, stage⟩ := call
      obtain rfl : stage = .returned result' := hover
      rw [resumeFor_of_none _ (resume?_of_result (result?_eq_some.2 ⟨r, hentry⟩)),
        show (Happening.finish c).settle result (LoadCall.progress (some ⟨r, .returned result'⟩)) =
          LoadCall.progress (some ⟨r, .returned result'⟩) from rfl, ← hentry]
      exact .refl hidle

/-- **On a settled screen calls come to the same end and do nothing.** Whatever happens to a call for
it stays inside of the loadings of the screen, and `finish` ends the call with the answer that is
settled. -/
theorem Settled.after (hs : Settled i result a) (hc : c.screen = i) {h : Happening} (hh : h.call? = some c)
    (hmove : ∀ m, h ≠ .move m) (hidle : LoadCall.Idle result (a.calls.get? c)) :
    Kept i c result (h.settle result (LoadCall.progress (a.calls.get? c))) a (a.after h) := by
  cases h with
  | move m => exact absurd rfl (hmove m)
  | call c' r =>
    cases hh
    exact Settled.call hidle r
  | advance c' =>
    cases hh
    exact hs.advance hc hidle
  | expire c' =>
    cases hh
    have hafter : a.after (.expire c) = a := by simp only [App.after, hc, hs.released, if_true]
    rw [hafter]
    exact .refl hidle
  | finish c' =>
    cases hh
    exact hs.finish hc hidle

end App

end LiveScreen
