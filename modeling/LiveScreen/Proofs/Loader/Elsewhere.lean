/-
What happens to a call depends only on what the call reads (`Twin.after`), and what
happens elsewhere only on what is outside of the loadings of a screen
(`elsewhere_after`).
-/
import LiveScreen.Proofs.Loader.Histories

namespace LiveScreen.App

variable {a a' : App} {i : ScreenId} {d : CallId}

/-- A move of a call that is not possible is not possible either where everything is the same for it. -/
theorem Twin.step_none (ht : Twin i d a a') {m : Move} (hm : m.call? = some d) (hs : a.step? m = none) :
    a'.step? m = none := by
  cases hs' : a'.step? m with
  | none => rfl
  | some b' =>
    obtain ⟨b, hb, -⟩ := ht.symm.step hm hs'
    rw [hs] at hb
    cases hb

theorem Twin.getD (ht : Twin i d a a') {m : Move} (hm : m.call? = some d) :
    Twin i d ((a.step? m).getD a) ((a'.step? m).getD a') := by
  cases hs : a.step? m with
  | some b =>
    obtain ⟨b', hb', htwin⟩ := ht.step hm hs
    rw [hb']
    exact htwin
  | none =>
    rw [ht.step_none hm hs]
    exact ht

theorem Twin.resumeFor (ht : Twin i d a a') (n : Nat) : Twin i d (resumeFor d n a) (resumeFor d n a') := by
  induction n generalizing a a' with
  | zero => exact ht
  | succ n ih =>
    unfold App.resumeFor
    cases hs : a.resume? d with
    | some b =>
      obtain ⟨b', hb', htwin⟩ := ht.step (m := .resume d) rfl hs
      rw [show a'.resume? d = some b' from hb']
      exact ih htwin
    | none =>
      rw [show a'.resume? d = none from ht.step_none (m := .resume d) rfl hs]
      exact ht

/-- What happens to a call is the same where everything is the same for the call. -/
theorem Twin.after (ht : Twin i d a a') {h : Happening} (hh : h.call? = some d) :
    Twin i d (a.after h) (a'.after h) := by
  cases h with
  | call c r =>
    cases hh
    exact ht.getD (m := .load d r) rfl
  | advance c =>
    cases hh
    cases hs : a.resume? d with
    | some b =>
      obtain ⟨b', hb', htwin⟩ := ht.step (m := .resume d) rfl hs
      have hresult : b'.result? d = b.result? d := by simp only [result?, htwin.entry]
      simp only [App.after, hs, show a'.resume? d = some b' from hb', hresult]
      split
      · exact ht
      · exact htwin
    | none =>
      simp only [App.after, hs, show a'.resume? d = none from ht.step_none (m := .resume d) rfl hs]
      exact ht
  | expire c =>
    cases hh
    have hscreen : a'.screen d.screen = a.screen d.screen := by simp only [App.screen, ht.screen]
    simp only [App.after, hscreen]
    split
    · exact ht
    · exact ht.getD (m := .expire d) rfl
  | finish c =>
    cases hh
    simp only [App.after, finishCall, ht.entry]
    split
    · exact ht.resumeFor _
    · exact ht
  | move m => exact ht.getD hh

/-- All that a call answers is its result. -/
theorem answer_congr {h : Happening} (hh : h.call? = some d)
    (hresult : (a'.after h).result? d = (a.after h).result? d) : a'.answer h = a.answer h := by
  cases h with
  | finish c =>
    cases hh
    simp only [answer]
    rw [show (a'.finishCall d).result? d = (a.finishCall d).result? d from hresult]
  | move m => cases m <;> first | rfl | cases hh
  | _ => rfl

theorem Twin.answer (ht : Twin i d a a') {h : Happening} (hh : h.call? = some d) : a'.answer h = a.answer h :=
  answer_congr hh (by simp only [result?, (ht.after hh).entry])

/-! ## Elsewhere -/

theorem outside_after_move (a : App) (i : ScreenId) {m : Move} (hm : m.call? = none) :
    (a.after (.move m)).outside i = (a.outside i).after (.move m) := by
  simp only [App.after, step?_outside a i hm]
  cases a.step? m <;> rfl

theorem answer_outside (a : App) (i : ScreenId) {m : Move} :
    (a.outside i).answer (.move m) = a.answer (.move m) := by
  cases m with
  | present t j value => simp only [App.answer, present_outside]
  | _ => rfl

theorem flag_after {h : Happening} (hh : ∀ d, h.call? = some d → d.screen ≠ i) :
    ((a.after h).screen i).calledLoad = (a.screen i).calledLoad := by
  refine after_induction (P := fun b => (b.screen i).calledLoad = (a.screen i).calledLoad) i
    (fun b m b' hb hstep hm _ => ?_) rfl
  rw [← hm] at hh
  cases callMove_of_step hstep i with
  | elsewhere _ _ flag => rw [flag, hb]
  | load about => exact absurd about (hh _ rfl)
  | expire about => exact absurd about (hh _ rfl)
  | resume about => exact absurd about (hh _ rfl)

/-- Whatever happens elsewhere is the same where everything is outside of the loadings of a screen. -/
theorem elsewhere_after (hout : a'.outside i = a.outside i)
    (hoff : ∀ x, x.screen ≠ i → a'.calls.get? x = a.calls.get? x) {m : Move} (hadmits : a.Admits i (.move m)) :
    (a'.after (.move m)).outside i = (a.after (.move m)).outside i ∧
      (∀ x, x.screen ≠ i → (a'.after (.move m)).calls.get? x = (a.after (.move m)).calls.get? x) ∧
        a'.answer (.move m) = a.answer (.move m) := by
  cases hm : m.call? with
  | none =>
    refine ⟨?_, fun x hx => ?_, ?_⟩
    · rw [outside_after_move _ _ hm, outside_after_move _ _ hm, hout]
    · have hne : Happening.call? (.move m) ≠ some x := by
        rw [show Happening.call? (.move m) = none from hm]
        nofun
      rw [entry_after hne, entry_after hne, hoff x hx]
    · rw [← answer_outside a' i, ← answer_outside a i, hout]
  | some d =>
    have hd : d.screen ≠ i := hadmits.1 d hm
    have ht : Twin i d a a' := ⟨hout, screens_of_outside hout fun he => absurd he hd, hoff d hd⟩
    refine ⟨(ht.after (h := .move m) hm).outside, fun x hx => ?_, ht.answer (h := .move m) hm⟩
    by_cases hx' : x = d
    · subst hx'
      exact (ht.after (h := .move m) hm).entry
    · rw [entry_after_other (h := .move m) hm hx', entry_after_other (h := .move m) hm hx', hoff x hx]

end LiveScreen.App
