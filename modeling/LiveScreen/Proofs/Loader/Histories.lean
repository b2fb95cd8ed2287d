/-
Loading a screen one call after the other. A history is what its user sees of a
run: what happens, what it answers, and the application, outside of the loadings
of the screen, before and after it. Calls still take their time, so that
everything else goes on between their steps; but a call ends before the next one
starts (`App.Sequential`). Whatever happens is a run of moves in turn
(`after_induction`).
-/
import LiveScreen.Proofs.Loader.Outside
import LiveScreen.Proofs.Loader.Loaded

namespace LiveScreen

/-- A call is over. -/
def LoadStage.isOver : LoadStage → Bool
  | .returned _ => true
  | _ => false

/-- What can happen to an application while a screen is loaded by one call after the other. -/
inductive Happening where
  /-- Somebody calls for the screen to be loaded. -/
  | call (call : CallId) (request : LoadRequest)
  /-- The call goes on by a step that does not end it. -/
  | advance (call : CallId)
  /-- The call has waited too long. A screen that is released lets everybody through. -/
  | expire (call : CallId)
  /-- The call goes on until it is over, or has to wait. -/
  | finish (call : CallId)
  /-- Something else. -/
  | move (move : Move)

/-- The call that a happening is about. -/
def Happening.call? : Happening → Option CallId
  | .call c _ | .advance c | .expire c | .finish c => some c
  | .move m => m.call?

/-- What a happening answers. -/
inductive Answer where
  | silent
  | loaded (result : Except LoadError GraphId)
  | shown (count : Nat)

/-- A happening, its answer, and the application before and after it. -/
structure Outcome where
  happening : Happening
  answer : Answer
  before : App
  after : App

namespace App

/-- A call is under way. -/
def Open (a : App) (c : CallId) : Prop :=
  ∃ call, a.calls.get? c = some call ∧ ∀ result, call.stage ≠ .returned result

/-- An application after a happening; nothing happens that is not possible. -/
def after (a : App) : Happening → App
  | .call c r => (a.addCall? c r).getD a
  | .advance c =>
    match a.resume? c with
    | some b => if (b.result? c).isSome then a else b
    | none => a
  | .expire c => if (a.screen c.screen).released then a else (a.expire? c).getD a
  | .finish c => a.finishCall c
  | .move m => (a.step? m).getD a

/-- An application after several happenings. -/
def afterAll (a : App) (hs : List Happening) : App := hs.foldl after a

/-- What a happening answers: a call its result once it is over, `present` how many tasks it ran. -/
def answer (a : App) : Happening → Answer
  | .finish c =>
    match (a.finishCall c).result? c with
    | some result => .loaded result
    | none => .silent
  | .move (.present t i value) => .shown (a.present t i value).1
  | _ => .silent

/-- What the user of a screen sees. -/
def history (i : ScreenId) (a : App) : List Happening → List Outcome
  | [] => []
  | h :: hs => ⟨h, a.answer h, a.outside i, (a.after h).outside i⟩ :: (a.after h).history i hs

/-- What may happen where a screen is loaded by one call after the other and nobody lets go of it. -/
def Admits (a : App) (i : ScreenId) : Happening → Prop
  | .call c _ => c.screen = i ∧ ∀ c', c'.screen = i → ¬ a.Open c'
  | .advance c | .expire c | .finish c => c.screen = i
  | .move m => (∀ c, m.call? = some c → c.screen ≠ i) ∧ m ≠ .drop i

/-- Each call for a screen ends before the next one starts. -/
def Sequential (i : ScreenId) (a : App) : List Happening → Prop
  | [] => True
  | h :: hs => a.Admits i h ∧ (a.after h).Sequential i hs

theorem not_open_iff (a : App) (i : ScreenId) : (∀ c, c.screen = i → ¬ a.Open c) ↔
    ∀ e ∈ a.calls.entries, e.1.screen = i → e.2.stage.isOver = true := by
  constructor
  · rintro h ⟨c, call⟩ hmem hc
    have hcall := (Table.mem_entries_iff _).1 hmem
    by_contra hover
    exact h c hc ⟨call, hcall, fun result hstage => hover (by rw [show call.stage = _ from hstage]; rfl)⟩
  · rintro h c hc ⟨call, hcall, hopen⟩
    have hover := h (c, call) ((Table.mem_entries_iff _).2 hcall) hc
    cases hstage : call.stage with
    | returned result => exact hopen result hstage
    | _ =>
      rw [show (c, call).2.stage = _ from hstage] at hover
      cases hover

instance decidableNotOpen (a : App) (i : ScreenId) : Decidable (∀ c, c.screen = i → ¬ a.Open c) :=
  decidable_of_iff _ (not_open_iff a i).symm

instance decidableNotAbout (i : ScreenId) (m : Move) : Decidable (∀ c, m.call? = some c → c.screen ≠ i) :=
  inferInstanceAs (Decidable (∀ c, c ∈ m.call? → c.screen ≠ i))

instance decidableKept (i : ScreenId) : (m : Move) → Decidable (m ≠ .drop i)
  | .drop j => decidable_of_iff (j ≠ i) ⟨fun h he => h (Move.drop.inj he), fun h he => h (by rw [he])⟩
  | .addScreen | .prepare .. | .load .. | .resume _ | .expire _ | .take _ | .work _ | .discard _ | .openGate
  | .present .. | .update .. | .perform .. | .animate .. | .addLoadHook .. | .poll .. => .isTrue nofun

instance decidableAdmits (a : App) (i : ScreenId) : (h : Happening) → Decidable (a.Admits i h)
  | .call c _ => inferInstanceAs (Decidable (c.screen = i ∧ ∀ c', c'.screen = i → ¬ a.Open c'))
  | .advance c | .expire c | .finish c => inferInstanceAs (Decidable (c.screen = i))
  | .move m => inferInstanceAs (Decidable ((∀ c, m.call? = some c → c.screen ≠ i) ∧ m ≠ .drop i))

instance decidableSequential (i : ScreenId) : (a : App) → (hs : List Happening) → Decidable (a.Sequential i hs)
  | _, [] => .isTrue trivial
  | a, h :: hs =>
    have := decidableSequential i (a.after h) hs
    inferInstanceAs (Decidable (a.Admits i h ∧ (a.after h).Sequential i hs))

/-- A call answers in a history. -/
def Answers (start : App) (i : ScreenId) (hs : List Happening) (c : CallId) (result : Except LoadError GraphId) :
    Prop :=
  ∃ o ∈ start.history i hs, o.happening = .finish c ∧ o.answer = .loaded result

/-! ## Histories are runs -/

variable {start a a' b : App} {i : ScreenId} {c : CallId}

/-- A move that keeps the calls of a screen in turn, and the screen. -/
structure InTurn (a : App) (i : ScreenId) (m : Move) : Prop where
  kept : m ≠ .drop i
  alone : ∀ c r, m = .load c r → c.screen = i → ∀ c', c'.screen = i → ¬ a.Open c'

theorem resumeFor_induction {P : App → Prop} (hstep : ∀ b b', P b → b.resume? c = some b' → P b') (n : Nat)
    (ha : P a) : P (resumeFor c n a) := by
  induction n generalizing a with
  | zero => exact ha
  | succ n ih =>
    unfold resumeFor
    split
    · rename_i a' ha'
      exact ih (hstep a a' ha ha')
    · exact ha

/-- What the moves keep that a happening consists of is kept by it. They are moves in turn if the
happening is admitted. -/
theorem after_induction {P : App → Prop} (i : ScreenId) {h : Happening}
    (hstep : ∀ b m b', P b → b.step? m = some b' →
    m.call? = h.call? → (a.Admits i h → b.InTurn i m) → P b') (ha : P a) : P (a.after h) := by
  have optional : ∀ m, m.call? = h.call? → (a.Admits i h → a.InTurn i m) → P ((a.step? m).getD a) := by
    intro m hm hturn
    cases hs : a.step? m with
    | none => exact ha
    | some b => exact hstep a m b ha hs hm hturn
  cases h with
  | call c r => exact optional (.load c r) rfl fun hadmits => ⟨nofun, fun _ _ _ _ => hadmits.2⟩
  | advance c =>
    simp only [after]
    split
    · rename_i b hb
      split
      · exact ha
      · exact hstep a (.resume c) b ha hb rfl fun _ => ⟨nofun, nofun⟩
    · exact ha
  | expire c =>
    simp only [after]
    split
    · exact ha
    · exact optional (.expire c) rfl fun _ => ⟨nofun, nofun⟩
  | finish c =>
    show P (a.finishCall c)
    unfold finishCall
    split
    · exact resumeFor_induction (fun b b' hb hb' => hstep b (.resume c) b' hb hb' rfl fun _ => ⟨nofun, nofun⟩) _ ha
    · exact ha
  | move m =>
    refine optional m rfl fun hadmits => ⟨hadmits.2, ?_⟩
    rintro c r rfl hc
    exact absurd hc (hadmits.1 c rfl)

/-- An application that a run leads to. -/
def Reached (start a : App) : Prop := ∃ ms, start.steps? ms = some a

theorem Reached.step (hr : Reached start a) {m : Move} (h : a.step? m = some a') : Reached start a' := by
  obtain ⟨ms, hms⟩ := hr
  exact ⟨ms ++ [m], by rw [steps?_concat, hms]; exact h⟩

theorem Reached.after (hr : Reached start a) (h : Happening) : Reached start (a.after h) :=
  after_induction 0 (fun _ _ _ hb hstep _ _ => hb.step hstep) hr

/-! ## Entries -/

/-- A move leaves the entries of the calls that it is not about. -/
theorem entry_step {m : Move} (h : a.step? m = some a') (hm : m.call? ≠ some c) :
    a'.calls.get? c = a.calls.get? c := by
  cases m with
  | load c' r =>
    obtain ⟨-, rfl⟩ := addCall?_eq_some h
    exact Table.get?_insert_other _ _ fun he => hm (by rw [he]; rfl)
  | resume c' =>
    obtain ⟨call, screen, stage, flag, -, -, -, rfl⟩ := resume?_eq_some h
    exact Table.get?_insert_other _ _ fun he => hm (by rw [he]; rfl)
  | expire c' =>
    obtain ⟨r, -, rfl⟩ := expire?_eq_some h
    exact Table.get?_insert_other _ _ fun he => hm (by rw [he]; rfl)
  | _ => rw [(step?_of_no_call h rfl).1]

theorem entry_after {h : Happening} (hh : h.call? ≠ some c) : (a.after h).calls.get? c = a.calls.get? c :=
  after_induction (P := fun b => b.calls.get? c = a.calls.get? c) c.screen
    (fun _ _ _ hb hstep hm _ => (entry_step hstep (hm ▸ hh)).trans hb) rfl

theorem entry_after_other {d : CallId} {h : Happening} (hh : h.call? = some d) (hc : c ≠ d) :
    (a.after h).calls.get? c = a.calls.get? c := by
  refine entry_after ?_
  rw [hh]
  exact fun he => hc (Option.some.inj he).symm

/-- What a move does to the call that it is about, once the call was made. -/
theorem stage_step {m : Move} (h : a.step? m = some a') (hm : m.call? = some c) {call : LoadCall}
    (hcall : a.calls.get? c = some call) : ∃ stage, a'.calls.get? c = some { call with stage } ∧
      ((call.stage = .wait ∧ stage = .expired) ∨
        ∃ flag, call.next? a.registries (a.screen c.screen) = some (stage, flag)) := by
  cases callMove_of_step h c.screen with
  | elsewhere about => exact absurd rfl (about c hm)
  | load about fresh after =>
    cases hm
    rw [fresh] at hcall
    cases hcall
  | expire about waits after =>
    cases hm
    rw [waits] at hcall
    cases hcall
    exact ⟨.expired, by rw [after, Table.get?_insert_self], .inl ⟨rfl, rfl⟩⟩
  | @resume _ _ stage flag about before known next after =>
    cases hm
    rw [before] at hcall
    cases hcall
    exact ⟨stage, by rw [after, Table.get?_insert_self], .inr ⟨flag, next⟩⟩

/-- A call that is over stays so. -/
theorem result?_step {m : Move} (h : a.step? m = some a') {result : Except LoadError GraphId}
    (hr : a.result? c = some result) : a'.result? c = some result := by
  obtain ⟨r, hcall⟩ := result?_eq_some.1 hr
  refine result?_eq_some.2 ⟨r, ?_⟩
  by_cases hm : m.call? = some c
  · obtain ⟨stage, -, ⟨hwait, -⟩ | ⟨flag, hnext⟩⟩ := stage_step h hm hcall
    · cases hwait
    · cases hnext
  · rw [entry_step h hm, hcall]

/-- A call that has got layout parameters, or is over with a graph, stays on its way or over. -/
theorem won_step {m : Move} (h : a.step? m = some a') (hw : ∃ call, a.calls.get? c = some call ∧ call.Won) :
    ∃ call, a'.calls.get? c = some call ∧ call.Won := by
  obtain ⟨call, hcall, hwon⟩ := hw
  by_cases hm : m.call? = some c
  · obtain ⟨stage, hafter, hstage⟩ := stage_step h hm hcall
    refine ⟨_, hafter, ?_⟩
    rcases hwon with hpassed | ⟨g, hover⟩
    · rcases hstage with ⟨hwait, -⟩ | ⟨flag, hnext⟩
      · rw [hwait] at hpassed
        cases hpassed
      · rw [LoadCall.next?_of_passed hpassed] at hnext
        cases hnext
        exact LoadCall.won_following hpassed
    · rcases hstage with ⟨hwait, -⟩ | ⟨flag, hnext⟩
      · rw [hover] at hwait
        cases hwait
      · simp only [LoadCall.next?, hover] at hnext
        cases hnext
  · exact ⟨call, by rw [entry_step h hm, hcall], hwon⟩

theorem result?_after (h : Happening) {result : Except LoadError GraphId} (hr : a.result? c = some result) :
    (a.after h).result? c = some result :=
  after_induction c.screen (fun _ _ _ hb hstep _ _ => result?_step hstep hb) hr

/-- Only `finish` ends a call, and it answers with the result. -/
theorem answer_of_result {h : Happening} (hadmits : a.Admits i h) (hc : c.screen = i) (hopen : a.result? c = none)
    {result : Except LoadError GraphId} (hr : (a.after h).result? c = some result) :
    h = .finish c ∧ a.answer h = .loaded result := by
  have hnot : a.result? c ≠ some result := by
    rw [hopen]
    nofun
  have habout : h.call? = some c := by
    by_contra hne
    refine hnot ?_
    simpa only [result?, entry_after hne] using hr
  obtain ⟨r, hentry⟩ := result?_eq_some.1 hr
  cases h with
  | finish c' =>
    cases habout
    refine ⟨rfl, ?_⟩
    simp only [answer]
    rw [show (a.finishCall c).result? c = some result from hr]
  | call c' r' =>
    cases habout
    cases hadd : a.addCall? c r' with
    | none => exact absurd (by simpa only [after, hadd, Option.getD_none] using hr) hnot
    | some b =>
      obtain ⟨-, rfl⟩ := addCall?_eq_some hadd
      simp only [after, hadd, Option.getD_some, Table.get?_insert_self] at hentry
      cases hentry
  | advance c' =>
    cases habout
    simp only [after] at hr
    split at hr
    · rename_i b hb
      split at hr
      · exact absurd hr hnot
      · rename_i hnone
        rw [hr] at hnone
        exact absurd rfl hnone
    · exact absurd hr hnot
  | expire c' =>
    cases habout
    simp only [after] at hr hentry
    split at hr
    · exact absurd hr hnot
    · rename_i hreleased
      rw [if_neg hreleased] at hentry
      cases hexpire : a.expire? c with
      | none => exact absurd (by simpa only [hexpire, Option.getD_none] using hr) hnot
      | some b =>
        obtain ⟨r', -, rfl⟩ := expire?_eq_some hexpire
        simp only [hexpire, Option.getD_some, Table.get?_insert_self] at hentry
        cases hentry
  | move m => exact absurd hc (hadmits.1 c habout)

/-! ## Whole histories -/

variable {hs hs' : List Happening}

theorem Sequential.of_append (h : a.Sequential i (hs ++ hs')) :
    a.Sequential i hs ∧ (a.afterAll hs).Sequential i hs' := by
  induction hs generalizing a with
  | nil => exact ⟨trivial, h⟩
  | cons x hs ih =>
    obtain ⟨hadmits, hrest⟩ := h
    obtain ⟨hfirst, hsecond⟩ := ih hrest
    exact ⟨⟨hadmits, hfirst⟩, hsecond⟩

/-- What all happenings of a history keep holds after it. -/
theorem afterAll_induction {P : App → Prop} (hstep : ∀ b, ∀ h ∈ hs, P b → P (b.after h)) (ha : P a) :
    P (a.afterAll hs) := by
  induction hs generalizing a with
  | nil => exact ha
  | cons x hs ih =>
    exact ih (fun b h hmem => hstep b h (List.mem_cons_of_mem x hmem)) (hstep a x (List.mem_cons_self ..) ha)

theorem Reached.afterAll (hr : Reached start a) (hs : List Happening) : Reached start (a.afterAll hs) :=
  afterAll_induction (fun _ h _ hb => hb.after h) hr

theorem result?_afterAll (hs : List Happening) {result : Except LoadError GraphId} (hr : a.result? c = some result) :
    (a.afterAll hs).result? c = some result :=
  afterAll_induction (P := fun b => b.result? c = some result) (fun _ h _ hb => result?_after h hb) hr

/-- A history that is not about a call leaves its entry. -/
theorem entry_afterAll (hno : ∀ h ∈ hs, h.call? ≠ some c) : (a.afterAll hs).calls.get? c = a.calls.get? c :=
  afterAll_induction (P := fun b => b.calls.get? c = a.calls.get? c)
    (fun _ h hmem hb => (entry_after (hno h hmem)).trans hb) rfl

/-- A call that comes to its end in a history answers in it. -/
theorem answers_of_result (hseq : a.Sequential i hs) (hc : c.screen = i) (hopen : a.result? c = none)
    {result : Except LoadError GraphId} (hr : (a.afterAll hs).result? c = some result) : a.Answers i hs c result := by
  induction hs generalizing a with
  | nil =>
    rw [show a.afterAll [] = a from rfl, hopen] at hr
    cases hr
  | cons x hs ih =>
    obtain ⟨hadmits, hrest⟩ := hseq
    cases hx : (a.after x).result? c with
    | none =>
      obtain ⟨o, hmem, hanswer⟩ := ih hrest hx hr
      exact ⟨o, List.mem_cons_of_mem _ hmem, hanswer⟩
    | some result' =>
      obtain rfl : result' = result := Option.some.inj ((result?_afterAll hs hx).symm.trans hr)
      exact ⟨_, List.mem_cons_self .., answer_of_result hadmits hc hopen hx⟩

/-- A call that has answered is over with its answer. -/
theorem result_of_answers {result : Except LoadError GraphId} (h : a.Answers i hs c result) :
    (a.afterAll hs).result? c = some result := by
  obtain ⟨o, hmem, hhappening, hanswer⟩ := h
  induction hs generalizing a with
  | nil => cases hmem
  | cons x hs ih =>
    rcases List.mem_cons.1 hmem with rfl | hmem
    · obtain rfl : x = .finish c := hhappening
      refine result?_afterAll hs ?_
      have hloaded : a.answer (.finish c) = .loaded result := hanswer
      simp only [answer] at hloaded
      split at hloaded
      · rename_i result' hresult
        cases hloaded
        exact hresult
      · cases hloaded
    · exact ih hmem

end App

end LiveScreen
