/-
Loadings that fail, and those that come after one that succeeded, leave no trace.
A history is compared with the one where a call was never made. Three of the ways
to fail give the flag of the screen back, so that both have the same flag again
once the call is over (`Forgot`). The fourth one, to find no view, does not. But
then the screen was released without a view and stays so, and later calls answer
alike no matter whether they are turned back at the flag or get to look for the
view themselves (`Stuck`). Later calls for a loaded screen are turned back at the
flag, with the graph (`Late`).
-/
import LiveScreen.Proofs.Loader.Elsewhere
import LiveScreen.Proofs.Loader.Settled

namespace LiveScreen.App

variable {start a a' b : App} {i : ScreenId} {c d : CallId} {done : List (CallId × LoadStage)}

/-! ## A run without one of its calls -/

/-- An application and what it would be without one call, which has not failed for want of a view. -/
structure Forgot (c : CallId) (a a' : App) : Prop where
  outside : a'.outside c.screen = a.outside c.screen
  absent : a'.calls.get? c = none
  others : ∀ x, x ≠ c → a'.calls.get? x = a.calls.get? x
  held : a.Holds c → (a'.screen c.screen).calledLoad = false
  same : ¬ a.Holds c → (a'.screen c.screen).calledLoad = (a.screen c.screen).calledLoad

/-- An application in which a call found no view, and what it would be without it. The call has left the
screen taken, but all calls for the screen fail in either of them, with the same answer. -/
structure Stuck (c : CallId) (a a' : App) : Prop where
  outside : a'.outside c.screen = a.outside c.screen
  absent : a'.calls.get? c = none
  settled : Settled c.screen (.error .emptyView) a
  ended : ∃ result, a.result? c = some result
  elsewhere : ∀ x, x.screen ≠ c.screen → a'.calls.get? x = a.calls.get? x
  idle : ∀ x, x ≠ c → x.screen = c.screen → LoadCall.Idle (.error .emptyView) (a.calls.get? x) ∧
    LoadCall.Idle (.error .emptyView) (a'.calls.get? x)
  progress : ∀ x, x ≠ c → x.screen = c.screen →
    LoadCall.progress (a'.calls.get? x) = LoadCall.progress (a.calls.get? x)

theorem idle_of_not_open {result : LoadResult} (h : ¬ a.Open c) : LoadCall.Idle result (a.calls.get? c) := by
  intro call hcall
  refine .inr ?_
  by_contra hno
  exact h ⟨call, hcall, fun result hstage => hno ⟨result, hstage⟩⟩

/-- A step of the call itself. -/
theorem Forgot.step (hf : Forgot c a a') (hp : Prepared c.screen a) (haw : Awake c.screen a done)
    (ho : OneByOne c.screen a) {m : Move} (h : a.step? m = some b) (hm : m.call? = some c)
    (hnot : ¬ ∃ call, b.calls.get? c = some call ∧ call.Won) :
    b.outside c.screen = a.outside c.screen ∧ (Forgot c b a' ∨ Stuck c b a') := by
  have hout : b.outside c.screen = a.outside c.screen := by
    refine outside_of_step h hm rfl fun call hcall => ?_
    cases hpassed : call.stage.passed with
    | false => rfl
    | true => exact absurd (won_step h ⟨call, hcall, .inl hpassed⟩) hnot
  have hothers : ∀ x, x ≠ c → a'.calls.get? x = b.calls.get? x := by
    intro x hx
    rw [hf.others x hx, entry_step h]
    rw [hm]
    exact fun he => hx (Option.some.inj he).symm
  refine ⟨hout, ?_⟩
  have forgot : (b.Holds c → (a'.screen c.screen).calledLoad = false) →
      (¬ b.Holds c → (a'.screen c.screen).calledLoad = (b.screen c.screen).calledLoad) → Forgot c b a' :=
    fun hheld hsame => ⟨hf.outside.trans hout.symm, hf.absent, hothers, hheld, hsame⟩
  cases callMove_of_step h c.screen with
  | elsewhere about => exact absurd rfl (about c hm)
  | @load c' r about fresh after =>
    cases hm
    have hcalls : b.calls = a.calls.insert c ⟨r, .check⟩ := by rw [after]
    refine .inl (forgot (fun hh => ?_) fun _ => ?_)
    · rw [holds_insert hcalls, if_pos rfl] at hh
      cases hh
    · rw [show b.screen c.screen = a.screen c.screen from screen_congr (by rw [after]) _]
      refine hf.same ?_
      rintro ⟨call, hcall, -⟩
      rw [fresh] at hcall
      cases hcall
  | @expire c' r about waits after =>
    cases hm
    have hholds : a.Holds c := ⟨_, waits, rfl⟩
    have hcalls : b.calls = a.calls.insert c ⟨r, .expired⟩ := by rw [after]
    refine .inl (forgot (fun _ => hf.held hholds) fun hh => absurd ?_ hh)
    rw [holds_insert hcalls, if_pos rfl]
    rfl
  | @resume c' call stage flag about before known next after =>
    cases hm
    obtain ⟨hflag, hholds⟩ := holds_resume known after
    have hentry : b.calls.get? c = some { call with stage } := by rw [after, Table.get?_insert_self]
    have hself : b.Holds c ↔ stage.holds = true := by rw [hholds, if_pos rfl]
    have hbefore : a.Holds c ↔ call.stage.holds = true := by
      refine ⟨fun ⟨call', hcall', hh⟩ => ?_, fun hh => ⟨call, before, hh⟩⟩
      obtain rfl : call = call' := Option.some.inj (before.symm.trans hcall')
      exact hh
    have hturn := LoadCall.turn_of_next next
    cases hturn with
    | turnBack at_check held =>
      refine .inl (forgot (fun hh => ?_) fun _ => ?_)
      · cases hself.1 hh
      · rw [hflag]
        refine hf.same fun hh => ?_
        rw [hbefore, at_check] at hh
        cases hh
    | take at_check free =>
      refine .inl (forgot (fun _ => ?_) fun hh => absurd (hself.2 rfl) hh)
      rw [hf.same, free]
      rw [hbefore, at_check]
      nofun
    | wake hstage | find hstage | lose hstage =>
      exact .inl (forgot (fun _ => hf.held (hbefore.2 (by rw [hstage]; rfl))) fun hh => absurd (hself.2 rfl) hh)
    | win => exact absurd ⟨_, hentry, .inl rfl⟩ hnot
    | push hpassed => exact absurd ⟨_, hentry, LoadCall.won_following hpassed⟩ hnot
    | giveBack at_end =>
      refine .inl (forgot (fun hh => ?_) fun _ => ?_)
      · cases hself.1 hh
      · rw [hflag]
        refine hf.held (hbefore.2 ?_)
        rcases at_end with ⟨hstage, -⟩ | ⟨hstage, -⟩
        · rw [hstage]; rfl
        · rw [hstage]; rfl
    | miss at_lookUp view =>
      have hopen : a.Open c := open_of_holds (hbefore.2 (by rw [at_lookUp]; rfl))
      have hrel := haw.stage c call rfl before (by rw [at_lookUp]; rfl)
      have hsettled : Settled c.screen (.error .emptyView) a :=
        ⟨hp.initialized hrel, hrel, by simp only [viewOf, view], fun hne => absurd rfl hne⟩
      have hidle : ∀ x, x ≠ c → x.screen = c.screen → LoadCall.Idle (.error .emptyView) (b.calls.get? x) := by
        intro x hx hi
        rw [entry_step h fun he => hx (Option.some.inj he).symm]
        exact idle_of_not_open fun hopen' => hx (ho.single x c hi rfl hopen' hopen)
      refine .inr ⟨hf.outside.trans hout.symm, hf.absent, hsettled.of_outside hout fun hne => absurd rfl hne,
        ⟨_, result?_eq_some.2 ⟨_, hentry⟩⟩, fun x hx => hothers x fun he => hx (by rw [he]), fun x hx hi => ?_,
        fun x hx _ => by rw [hothers x hx]⟩
      rw [hothers x hx]
      exact ⟨hidle x hx hi, hidle x hx hi⟩

/-- A call that is over has no more steps. -/
theorem Stuck.step (hs : Stuck c a a') {m : Move} (h : a.step? m = some b) (hm : m.call? = some c) : False := by
  obtain ⟨result, hover⟩ := hs.ended
  obtain ⟨r, hcall⟩ := result?_eq_some.1 hover
  obtain ⟨stage, -, ⟨hwait, -⟩ | ⟨flag, hnext⟩⟩ := stage_step h hm hcall
  · cases hwait
  · cases hnext

/-- What happens to a call that does not come to have layout parameters makes no difference outside of
the loadings of its screen, nor to what the application would be without it. -/
theorem forget_self (hf : start.Fresh) (hr : Reached start a) (ho : OneByOne c.screen a)
    (hrel : Forgot c a a' ∨ Stuck c a a') {h : Happening} (hadmits : a.Admits c.screen h) (hh : h.call? = some c)
    (hnot : ¬ ∃ call, (a.after h).calls.get? c = some call ∧ call.Won) :
    (a.after h).outside c.screen = a.outside c.screen ∧ (Forgot c (a.after h) a' ∨ Stuck c (a.after h) a') := by
  refine (after_induction (P := fun b => Reached start b ∧ OneByOne c.screen b ∧
    ((¬ ∃ call, b.calls.get? c = some call ∧ call.Won) →
      b.outside c.screen = a.outside c.screen ∧ (Forgot c b a' ∨ Stuck c b a'))) c.screen
    (fun b m b' hb hstep hm hturn => ?_) ⟨hr, ho, fun _ => ⟨rfl, hrel⟩⟩).2.2 hnot
  obtain ⟨hr, ho, hb⟩ := hb
  rw [hh] at hm
  obtain ⟨done, haw⟩ := hr.awake hf c.screen
  have hp := hr.prepared hf c.screen
  refine ⟨hr.step hstep, ho.step hp (hr.locked hf c.screen) haw hstep (hturn hadmits), fun hnot => ?_⟩
  obtain ⟨hout, hrel⟩ := hb fun hwon => hnot (won_step hstep hwon)
  rcases hrel with hforgot | hstuck
  · obtain ⟨hout', hrel'⟩ := hforgot.step hp haw ho hstep hm hnot
    exact ⟨hout'.trans hout, hrel'⟩
  · exact absurd hm fun hm => hstuck.step hstep hm

theorem result?_eq_progress (a : App) (c : CallId) :
    a.result? c = (LoadCall.progress (a.calls.get? c)).bind (·.2) := by
  unfold result?
  cases a.calls.get? c with
  | none => rfl
  | some call =>
    obtain ⟨r, stage⟩ := call
    cases stage <;> rfl

theorem open_iff_progress : a.Open d ↔ ∃ r, LoadCall.progress (a.calls.get? d) = some (r, none) := by
  unfold Open
  cases a.calls.get? d with
  | none => simp [LoadCall.progress]
  | some call =>
    obtain ⟨r, stage⟩ := call
    cases stage <;> simp [LoadCall.progress]

/-- Nothing happens to a call that is not under way, unless it is made. -/
theorem after_of_not_open (hopen : ¬ a.Open d) {h : Happening} (hh : h.call? = some d) (hcall : ∀ r, h ≠ .call d r)
    (hmove : ∀ m, h ≠ .move m) : a.after h = a := by
  have hresume : a.resume? d = none := by
    cases hr : a.resume? d with
    | none => rfl
    | some b =>
      obtain ⟨call, screen, stage, flag, hentry, -, hnext, -⟩ := resume?_eq_some hr
      refine absurd ⟨call, hentry, fun result hstage => ?_⟩ hopen
      simp only [LoadCall.next?, hstage] at hnext
      cases hnext
  cases h with
  | call c r =>
    cases hh
    exact absurd rfl (hcall r)
  | advance c =>
    cases hh
    simp only [after, hresume]
  | expire c =>
    cases hh
    simp only [after]
    split
    · rfl
    · cases he : a.expire? d with
      | none => rfl
      | some b =>
        obtain ⟨r, hwait, -⟩ := expire?_eq_some he
        exact absurd ⟨_, hwait, by simp⟩ hopen
  | finish c =>
    cases hh
    simp only [after, finishCall]
    split
    · exact resumeFor_of_none _ hresume
    · rfl
  | move m => exact absurd rfl (hmove m)

theorem own_of_admits {h : Happening} (hadmits : a.Admits i h) (hmove : ∀ m, h ≠ .move m) :
    ∃ d, h.call? = some d ∧ d.screen = i := by
  cases h with
  | call d r => exact ⟨d, rfl, hadmits.1⟩
  | advance d | expire d | finish d => exact ⟨d, rfl, hadmits⟩
  | move m => exact absurd rfl (hmove m)

theorem holds_after {h : Happening} (hh : h.call? ≠ some c) : (a.after h).Holds c ↔ a.Holds c := by
  unfold Holds
  rw [entry_after hh]

/-- What happens to other calls, or elsewhere, does not depend on a call that is forgotten. -/
theorem Forgot.other (hf : Forgot c a a') (ho : OneByOne c.screen a) {h : Happening} (hadmits : a.Admits c.screen h)
    (hh : h.call? ≠ some c) : a'.answer h = a.answer h ∧ Forgot c (a.after h) (a'.after h) := by
  by_cases hmove : ∃ m, h = .move m
  · obtain ⟨m, rfl⟩ := hmove
    have hoff : ∀ x, x.screen ≠ c.screen → a'.calls.get? x = a.calls.get? x :=
      fun x hx => hf.others x fun he => hx (by rw [he])
    obtain ⟨hout, hoff', hanswer⟩ := elsewhere_after hf.outside hoff hadmits
    have hnot : ∀ d, Happening.call? (.move m) = some d → d.screen ≠ c.screen := hadmits.1
    refine ⟨hanswer, hout, (entry_after hh).trans hf.absent, fun x hx => ?_, fun hheld => ?_, fun hheld => ?_⟩
    · by_cases hi : x.screen = c.screen
      · have hne : Happening.call? (.move m) ≠ some x := fun he => hadmits.1 x he hi
        rw [entry_after hne, entry_after hne, hf.others x hx]
      · exact hoff' x hi
    · rw [flag_after hnot, hf.held ((holds_after hh).1 hheld)]
    · rw [flag_after hnot, flag_after hnot, hf.same fun hb => hheld ((holds_after hh).2 hb)]
  · obtain ⟨d, hd, hi⟩ := own_of_admits hadmits fun m he => hmove ⟨m, he⟩
    have hne : d ≠ c := fun he => hh (by rw [hd, he])
    have hentry : a'.calls.get? d = a.calls.get? d := hf.others d hne
    by_cases hheld : a.Holds c
    · -- While the call is under way there is no other one.
      have hopen := open_of_holds hheld
      have hclosed : ¬ a.Open d := fun hopen' => hne (ho.single d c hi rfl hopen' hopen)
      have hclosed' : ¬ a'.Open d := by simpa only [Open, hentry] using hclosed
      have hcall : ∀ r, h ≠ .call d r := by
        rintro r rfl
        exact hadmits.2 c rfl hopen
      have hafter := after_of_not_open hclosed hd hcall fun m he => hmove ⟨m, he⟩
      have hafter' := after_of_not_open hclosed' hd hcall fun m he => hmove ⟨m, he⟩
      refine ⟨answer_congr hd ?_, ?_⟩
      · simp only [hafter, hafter', result?, hentry]
      · rw [hafter, hafter']
        exact hf
    · have ht : Twin c.screen d a a' := ⟨hf.outside, screens_of_outside hf.outside fun _ => hf.same hheld, hentry⟩
      have ht' := ht.after hd
      have hscreen : (a'.after h).screen c.screen = (a.after h).screen c.screen := by
        rw [← hi]
        simp only [screen, ht'.screen]
      refine ⟨ht.answer hd, ht'.outside, (entry_after hh).trans hf.absent, fun x hx => ?_,
        fun hheld' => absurd ((holds_after hh).1 hheld') hheld, fun _ => by rw [hscreen]⟩
      by_cases hx' : x = d
      · rw [hx']
        exact ht'.entry
      · rw [entry_after_other hd hx', entry_after_other hd hx', hf.others x hx]

/-- A screen that was released without a view stays so. -/
theorem Settled.step (hs : Settled i (.error .emptyView) a) (hp : Prepared i a) {m : Move} (h : a.step? m = some b) :
    Settled i (.error .emptyView) b := by
  obtain ⟨hrel, hview⟩ := released_step hp h hs.released
  refine ⟨(hp.step h).initialized hrel, hrel, ?_, fun hne => absurd rfl hne⟩
  cases hv : (b.screen i).view with
  | none => simp only [viewOf, hv]
  | some g =>
    have hempty := hs.view
    simp only [viewOf, hview g hv] at hempty
    cases hempty

/-- What happens to other calls, or elsewhere, does not depend on a call that has found no view. -/
theorem Stuck.other (hs : Stuck c a a') (hp : Prepared c.screen a) {h : Happening} (hadmits : a.Admits c.screen h)
    (hh : h.call? ≠ some c) : a'.answer h = a.answer h ∧ Stuck c (a.after h) (a'.after h) := by
  have hover : ∃ result, (a.after h).result? c = some result := by
    obtain ⟨result, hover⟩ := hs.ended
    exact ⟨result, result?_after h hover⟩
  by_cases hmove : ∃ m, h = .move m
  · obtain ⟨m, rfl⟩ := hmove
    obtain ⟨hout, hoff', hanswer⟩ := elsewhere_after hs.outside hs.elsewhere hadmits
    have hsettled : Settled c.screen (.error .emptyView) (a.after (.move m)) := by
      simp only [after]
      cases hstep : a.step? m with
      | none => exact hs.settled
      | some b => exact hs.settled.step hp hstep
    have hne : ∀ x, x.screen = c.screen → Happening.call? (.move m) ≠ some x := fun x hi he => hadmits.1 x he hi
    refine ⟨hanswer, hout, (entry_after hh).trans hs.absent, hsettled, hover, hoff', fun x hx hi => ?_,
      fun x hx hi => ?_⟩
    · rw [entry_after (hne x hi), entry_after (hne x hi)]
      exact hs.idle x hx hi
    · rw [entry_after (hne x hi), entry_after (hne x hi)]
      exact hs.progress x hx hi
  · obtain ⟨d, hd, hi⟩ := own_of_admits hadmits fun m he => hmove ⟨m, he⟩
    have hne : d ≠ c := fun he => hh (by rw [hd, he])
    have hsettled' : Settled c.screen (.error .emptyView) a' :=
      hs.settled.of_outside hs.outside fun hne => absurd rfl hne
    obtain ⟨hidle, hidle'⟩ := hs.idle d hne hi
    have hk := hs.settled.after hi hd (fun m he => hmove ⟨m, he⟩) hidle
    have hk' := hsettled'.after hi hd (fun m he => hmove ⟨m, he⟩) hidle'
    have hprogress :
        LoadCall.progress ((a'.after h).calls.get? d) = LoadCall.progress ((a.after h).calls.get? d) := by
      rw [hk'.progress, hk.progress, hs.progress d hne hi]
    refine ⟨answer_congr hd ?_, ?_, (entry_after hh).trans hs.absent,
      hs.settled.of_outside hk.outside fun hne => absurd rfl hne, hover,
      fun x hx => ?_, fun x hx hx' => ?_, fun x hx hx' => ?_⟩
    · rw [result?_eq_progress, result?_eq_progress, hprogress]
    · rw [hk'.outside, hk.outside, hs.outside]
    · have hxd : x ≠ d := fun he => hx (by rw [he, hi])
      rw [entry_after_other hd hxd, entry_after_other hd hxd, hs.elsewhere x hx]
    · by_cases hxd : x = d
      · rw [hxd]
        exact ⟨hk.idle, hk'.idle⟩
      · rw [entry_after_other hd hxd, entry_after_other hd hxd]
        exact hs.idle x hx hx'
    · by_cases hxd : x = d
      · rw [hxd, hprogress]
      · rw [entry_after_other hd hxd, entry_after_other hd hxd]
        exact hs.progress x hx hx'

/-- A call that fails never had layout parameters. -/
theorem not_won_of_error {hs : List Happening} {error : LoadError}
    (hfail : (a.afterAll hs).result? c = some (.error error)) : ¬ ∃ call, a.calls.get? c = some call ∧ call.Won := by
  intro hwon
  have hend : ∃ call, (a.afterAll hs).calls.get? c = some call ∧ call.Won :=
    afterAll_induction (fun b h _ hb =>
      after_induction c.screen (fun _ _ _ hb hstep _ _ => won_step hstep hb) hb) hwon
  obtain ⟨call, hcall, hwon⟩ := hend
  obtain ⟨r, hentry⟩ := result?_eq_some.1 hfail
  rw [hcall] at hentry
  cases hentry
  rcases hwon with hpassed | ⟨g, hok⟩
  · cases hpassed
  · cases hok

/-- An application, and what it would be without a call that does not come to have layout parameters. -/
def Without (c : CallId) (a a' : App) : Prop := Forgot c a a' ∨ Stuck c a a'

theorem Without.outside (hw : Without c a a') : a'.outside c.screen = a.outside c.screen := by
  rcases hw with hw | hw
  · exact hw.outside
  · exact hw.outside

/-- Without the call no more calls are under way. -/
theorem Without.open (hw : Without c a a') {d : CallId} (hd : d.screen = c.screen) (hopen : a'.Open d) :
    a.Open d := by
  have hne : a'.calls.get? c = none → d ≠ c := by
    rintro habsent rfl
    obtain ⟨call, hcall, -⟩ := hopen
    rw [habsent] at hcall
    cases hcall
  rcases hw with hw | hw
  · simpa only [Open, hw.others d (hne hw.absent)] using hopen
  · rw [open_iff_progress] at hopen ⊢
    rwa [hw.progress d (hne hw.absent) hd] at hopen

theorem Without.admits (hw : Without c a a') {h : Happening} (hadmits : a.Admits c.screen h) :
    a'.Admits c.screen h := by
  cases h with
  | call d r => exact ⟨hadmits.1, fun d' hd' hopen => hadmits.2 d' hd' (hw.open hd' hopen)⟩
  | advance d | expire d | finish d | move m => exact hadmits

theorem Without.other (hw : Without c a a') (hp : Prepared c.screen a) (ho : OneByOne c.screen a) {h : Happening}
    (hadmits : a.Admits c.screen h) (hh : h.call? ≠ some c) :
    a'.answer h = a.answer h ∧ Without c (a.after h) (a'.after h) := by
  rcases hw with hw | hw
  · obtain ⟨hanswer, hafter⟩ := hw.other ho hadmits hh
    exact ⟨hanswer, .inl hafter⟩
  · obtain ⟨hanswer, hafter⟩ := hw.other hp hadmits hh
    exact ⟨hanswer, .inr hafter⟩

/-- **A call that fails might as well not have been made.** It changes nothing outside of the loadings
of its screen, and without it everything else is answered the same and does the same. -/
theorem Without.history (hw : Without c a a') (hf : start.Fresh) (hr : Reached start a) (ho : OneByOne c.screen a)
    {hs : List Happening} (hseq : a.Sequential c.screen hs) {error : LoadError}
    (hfail : (a.afterAll hs).result? c = some (.error error)) :
    (∀ o ∈ a.history c.screen hs, o.happening.call? = some c → o.after = o.before) ∧
      a'.Sequential c.screen (hs.filter fun h => h.call? ≠ some c) ∧
        a'.history c.screen (hs.filter fun h => h.call? ≠ some c) =
          (a.history c.screen hs).filter fun o => o.happening.call? ≠ some c := by
  induction hs generalizing a a' with
  | nil => exact ⟨by simp [App.history], trivial, rfl⟩
  | cons h hs ih =>
    obtain ⟨hadmits, hrest⟩ := hseq
    have hr' := hr.after h
    have ho' := ho.after hf hr hadmits
    by_cases hh : h.call? = some c
    · have hnot := not_won_of_error (show ((a.after h).afterAll hs).result? c = _ from hfail)
      obtain ⟨hself, hw'⟩ := forget_self hf hr ho hw hadmits hh hnot
      obtain ⟨hown, hseq', hothers⟩ := ih hw' hr' ho' hrest hfail
      refine ⟨fun o hmem habout => ?_, ?_, ?_⟩
      · rcases List.mem_cons.1 hmem with rfl | hmem
        · exact hself
        · exact hown o hmem habout
      · simp only [List.filter_cons, hh, ne_eq, not_true, decide_false]
        exact hseq'
      · simp only [App.history, List.filter_cons, hh, ne_eq, not_true, decide_false]
        exact hothers
    · obtain ⟨hanswer, hw'⟩ := hw.other (hr.prepared hf c.screen) ho hadmits hh
      obtain ⟨hown, hseq', hothers⟩ := ih hw' hr' ho' hrest hfail
      refine ⟨fun o hmem habout => ?_, ?_, ?_⟩
      · rcases List.mem_cons.1 hmem with rfl | hmem
        · exact absurd habout hh
        · exact hown o hmem habout
      · simp only [List.filter_cons, hh, ne_eq, not_false_eq_true, decide_true, if_true]
        exact ⟨hw.admits hadmits, hseq'⟩
      · simp only [App.history, List.filter_cons, hh, ne_eq, not_false_eq_true, decide_true, if_true]
        rw [hothers, hanswer, hw.outside, hw'.outside]

theorem Fresh.forgot (hf : start.Fresh) (c : CallId) : Forgot c start start := by
  have hnone : start.calls.get? c = none := by rw [hf.calls]; rfl
  refine ⟨rfl, hnone, fun _ _ => rfl, fun hh => ?_, fun _ => rfl⟩
  obtain ⟨call, hcall, -⟩ := hh
  rw [hnone] at hcall
  cases hcall

/-! ## After the first success -/

theorem LoadedWith.settled {g : GraphId} (hl : LoadedWith i g a) (hp : Prepared i a) : Settled i (.ok g) a := by
  obtain ⟨hrel, htaken, hv, -⟩ := hl
  exact ⟨hp.initialized hrel, hrel, by simp only [viewOf, hv], fun _ => htaken⟩

/-- A call that was made after a screen was loaded. -/
structure Late (g : GraphId) (d : CallId) (a : App) : Prop where
  idle : LoadCall.Idle (.ok g) (a.calls.get? d)
  progress : ∃ r, LoadCall.progress (a.calls.get? d) = some (r, none) ∨
    LoadCall.progress (a.calls.get? d) = some (r, some (.ok g))

/-- What happens to such a call. -/
theorem Late.after {g : GraphId} (hlate : Late g d a) (hs : Settled i (.ok g) a) (hd : d.screen = i) {h : Happening}
    (hh : h.call? = some d) (hmove : ∀ m, h ≠ .move m) :
    (a.after h).outside i = a.outside i ∧ Late g d (a.after h) ∧ (h = .finish d → a.answer h = .loaded (.ok g)) := by
  obtain ⟨hout, hidle, hafter⟩ := hs.after hd hh hmove hlate.idle
  obtain ⟨r, hprogress⟩ := hlate.progress
  cases h with
  | move m => exact absurd rfl (hmove m)
  | call c r' =>
    refine ⟨hout, ⟨hidle, r, ?_⟩, nofun⟩
    rcases hprogress with hp | hp
    · exact .inl (by rw [hafter, hp]; rfl)
    · exact .inr (by rw [hafter, hp]; rfl)
  | advance c | expire c =>
    refine ⟨hout, ⟨hidle, r, ?_⟩, nofun⟩
    rcases hprogress with hp | hp
    · exact .inl (by rw [hafter, hp]; rfl)
    · exact .inr (by rw [hafter, hp]; rfl)
  | finish c =>
    cases hh
    have hover : LoadCall.progress ((a.after (.finish d)).calls.get? d) = some (r, some (.ok g)) := by
      rcases hprogress with hp | hp
      · rw [hafter, hp]; rfl
      · rw [hafter, hp]; rfl
    refine ⟨hout, ⟨hidle, r, .inr hover⟩, fun _ => ?_⟩
    have hresult : (a.finishCall d).result? d = some (.ok g) := by
      rw [result?_eq_progress, show LoadCall.progress ((a.finishCall d).calls.get? d) = _ from hover]
      rfl
    simp only [answer, hresult]

/-- A call that was made after a screen was loaded answers with the same graph, and does nothing. -/
theorem Late.history {g : GraphId} (hlate : Late g d a) (hf : start.Fresh) (hr : Reached start a) (ho : OneByOne i a)
    {w : CallId} (hw : w.screen = i) (hok : a.result? w = some (.ok g)) (hd : d.screen = i) {hs : List Happening}
    (hseq : a.Sequential i hs) : ∀ o ∈ a.history i hs, o.happening.call? = some d →
      o.after = o.before ∧ (o.happening = .finish d → o.answer = .loaded (.ok g)) := by
  induction hs generalizing a with
  | nil => simp [App.history]
  | cons h hs ih =>
    obtain ⟨hadmits, hrest⟩ := hseq
    have hlater : Late g d (a.after h) → ∀ o ∈ (a.after h).history i hs, o.happening.call? = some d →
        o.after = o.before ∧ (o.happening = .finish d → o.answer = .loaded (.ok g)) :=
      fun hlate => ih hlate (hr.after h) (ho.after hf hr hadmits) (result?_after h hok) hrest
    intro o hmem habout
    by_cases hh : h.call? = some d
    · have hmove : ∀ m, h ≠ .move m := by
        rintro m rfl
        exact hadmits.1 d hh hd
      have hsettled := (ho.loaded w g hw hok).settled (hr.prepared hf i)
      obtain ⟨hout, hlate', hanswer⟩ := hlate.after hsettled hd hh hmove
      rcases List.mem_cons.1 hmem with rfl | hmem
      · exact ⟨hout, hanswer⟩
      · exact hlater hlate' o hmem habout
    · rcases List.mem_cons.1 hmem with rfl | hmem
      · exact absurd habout hh
      · refine hlater ⟨?_, ?_⟩ o hmem habout
        · rw [entry_after hh]
          exact hlate.idle
        · rw [entry_after hh]
          exact hlate.progress

/-- The same of a call from its beginning on. -/
theorem history_of_late {g : GraphId} (hf : start.Fresh) (hr : Reached start a) (ho : OneByOne i a) {w : CallId}
    (hw : w.screen = i) (hok : a.result? w = some (.ok g)) (hnew : a.calls.get? d = none) {r : LoadRequest}
    {hs : List Happening} (hseq : a.Sequential i (.call d r :: hs)) :
    ∀ o ∈ a.history i (.call d r :: hs), o.happening.call? = some d →
      o.after = o.before ∧ (o.happening = .finish d → o.answer = .loaded (.ok g)) := by
  obtain ⟨hadmits, hrest⟩ := hseq
  have hidle : LoadCall.Idle (.ok g) (a.calls.get? d) := by
    intro call hcall
    rw [hnew] at hcall
    cases hcall
  have hsettled := (ho.loaded w g hw hok).settled (hr.prepared hf i)
  obtain ⟨hout, hidle', hafter⟩ := hsettled.after (h := .call d r) hadmits.1 rfl nofun hidle
  rw [hnew] at hafter
  intro o hmem habout
  rcases List.mem_cons.1 hmem with rfl | hmem
  · exact ⟨hout, nofun⟩
  · exact Late.history ⟨hidle', r, .inl hafter⟩ hf (hr.after _) (ho.after hf hr hadmits) hw (result?_after _ hok)
      hadmits.1 hrest o hmem habout

/-- **Loadings that fail, and those after the first success, leave no trace.** In a history in which
each call for a screen ends before the next one starts: a call that fails changes nothing outside of
the loadings of the screen, and without it everything else has the same answers and does the same; once a
call has answered with a graph the screen stays taken, and a call that is made from then on answers
with the same graph, whatever it asks for, and changes nothing; and as long as no call has answered with a
graph, putting a part of the screen on display runs nothing. -/
theorem loads_leave_no_trace {start : App} (hf : start.Fresh) {i : ScreenId} {hs : List Happening}
    (hseq : start.Sequential i hs) :
    (∀ c error, c.screen = i → start.Answers i hs c (.error error) →
      (∀ o ∈ start.history i hs, o.happening.call? = some c → o.after = o.before) ∧
        start.Sequential i (hs.filter fun h => h.call? ≠ some c) ∧
          start.history i (hs.filter fun h => h.call? ≠ some c) =
            (start.history i hs).filter fun o => o.happening.call? ≠ some c) ∧
      (∀ before later w g, hs = before ++ later → w.screen = i → start.Answers i before w (.ok g) →
        ((start.afterAll before).screen i).calledLoad = true ∧
          ∀ d r after, later = .call d r :: after → (∀ h ∈ before, h.call? ≠ some d) →
            ∀ o ∈ (start.afterAll before).history i later, o.happening.call? = some d →
              o.after = o.before ∧ (o.happening = .finish d → o.answer = .loaded (.ok g))) ∧
        ∀ before t value after, hs = before ++ .move (.present t i value) :: after →
          (∀ w g, w.screen = i → ¬ start.Answers i before w (.ok g)) →
            (start.afterAll before).present t i value = (0, start.afterAll before) := by
  have hreached : ∀ hs, Reached start (start.afterAll hs) := Reached.afterAll ⟨[], rfl⟩
  refine ⟨?_, ?_, ?_⟩
  · rintro c error rfl hfail
    exact Without.history (.inl (hf.forgot c)) hf ⟨[], rfl⟩ (hf.oneByOne _) hseq (result_of_answers hfail)
  · rintro before later w g rfl hw hok
    obtain ⟨hbefore, hafter⟩ := hseq.of_append
    have hone := (hf.oneByOne i).afterAll hf ⟨[], rfl⟩ hbefore
    have hresult := result_of_answers hok
    obtain ⟨-, htaken, -, -⟩ := hone.loaded w g hw hresult
    refine ⟨htaken, ?_⟩
    rintro d r after rfl hnew
    have hentry : (start.afterAll before).calls.get? d = none := by
      rw [entry_afterAll hnew, hf.calls]
      rfl
    exact history_of_late hf (hreached before) hone hw hresult hentry hafter
  · rintro before t value after rfl hnone
    obtain ⟨hbefore, -⟩ := hseq.of_append
    refine (hreached before).present hf (fun c g hc hok => hnone c g hc ?_) t value
    refine answers_of_result hbefore hc ?_ hok
    unfold result?
    rw [hf.calls]
    rfl

/-! ## One screen -/

/-- The application with one view, where loading waits for a second at most. -/
def patientView : App := { oneView with loadTimeout := Duration.ofMillis? 1000 }

/-- A screen is loaded too early, too late, for a container without layout parameters, with success, and
once more; and parts of it are put on display. -/
def retries : List Happening :=
  [.move .addScreen, .call ⟨0, 0⟩ oneValue, .finish ⟨0, 0⟩, .move (.prepare 0 "" .standard),
    .call ⟨0, 1⟩ oneValue, .advance ⟨0, 1⟩, .expire ⟨0, 1⟩, .finish ⟨0, 1⟩, .move (.take 0)] ++
    List.replicate 10 (.move (.work 0)) ++
      [.call ⟨0, 2⟩ { oneValue with paramType := "grid" }, .finish ⟨0, 2⟩, .move (.present 0 0 ""),
        .call ⟨0, 3⟩ oneValue, .finish ⟨0, 3⟩, .call ⟨0, 4⟩ { oneValue with paramType := "grid" }, .finish ⟨0, 4⟩]

/-- Of these calls only the fourth one loads the screen. -/
theorem patientView_retries :
    patientView.Sequential 0 retries ∧ patientView.Answers 0 retries ⟨0, 1⟩ (.error .timedOut) ∧
      patientView.history 0 (retries.filter fun h => h.call? ≠ some ⟨0, 1⟩) =
        (patientView.history 0 retries).filter (fun o => o.happening.call? ≠ some ⟨0, 1⟩) ∧
        (patientView.afterAll (retries.take 21)).present 0 0 "" = (0, patientView.afterAll (retries.take 21)) ∧
          patientView.Answers 0 (retries.take 24) ⟨0, 3⟩ (.ok (.screen 0)) ∧
            ∀ o ∈ (patientView.afterAll (retries.take 24)).history 0 (retries.drop 24), o.happening = .finish ⟨0, 4⟩ →
              o.after = o.before ∧ o.answer = .loaded (.ok (.screen 0)) := by
  have hfresh : patientView.Fresh := ⟨rfl, rfl, rfl, rfl⟩
  have hseq : patientView.Sequential 0 retries := by decide +kernel
  obtain ⟨hfailed, hlate, hnone⟩ := loads_leave_no_trace hfresh hseq
  have hfails : patientView.Answers 0 retries ⟨0, 1⟩ (.error .timedOut) :=
    answers_of_result hseq rfl rfl (by decide +kernel)
  have hloads : patientView.Answers 0 (retries.take 24) ⟨0, 3⟩ (.ok (.screen 0)) :=
    answers_of_result (show patientView.Sequential 0 (retries.take 24) by decide +kernel) rfl rfl
      (show (patientView.afterAll (retries.take 24)).result? ⟨0, 3⟩ = some (.ok (.screen 0)) by decide +kernel)
  have hearly : ∀ w g, w.screen = 0 → ¬ patientView.Answers 0 (retries.take 21) w (.ok g) := by
    rintro w g - ⟨o, hmem, -, hanswer⟩
    have hall : ((patientView.history 0 (retries.take 21)).all fun o =>
        match o.answer with | .loaded (.ok _) => false | _ => true) = true := by decide +kernel
    have ho := List.all_eq_true.1 hall o hmem
    rw [hanswer] at ho
    cases ho
  refine ⟨hseq, hfails, (hfailed _ _ rfl hfails).2.2, hnone (retries.take 21) 0 "" (retries.drop 22) rfl hearly,
    hloads, fun o hmem habout => ?_⟩
  have hnew : ∀ h ∈ retries.take 24, h.call? ≠ some ⟨0, 4⟩ := by decide
  obtain ⟨-, hrest⟩ := hlate (retries.take 24) (retries.drop 24) ⟨0, 3⟩ _ rfl rfl hloads
  obtain ⟨hsame, hok⟩ := hrest ⟨0, 4⟩ _ [.finish ⟨0, 4⟩] rfl hnew o hmem (by rw [habout]; rfl)
  exact ⟨hsame, hok habout⟩

end LiveScreen.App
