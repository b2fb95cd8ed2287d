/-
Letting go of a screen cancels its initialization. The job looks twice whether the screen
is still there: before it calls the parser, and when the parser has returned. A screen
that is gone before the first look is never parsed. One that is gone before the second is
parsed for nothing: its graph is attached to nothing and seen by nobody, its callback is
not called, and a binder it shares with others is as if the screen had not been touched
(`dropping_cancels`).
-/
import LiveScreen.Proofs.Loader.Unkept

namespace LiveScreen

open Scene

namespace JobStage

/-- The parser was not called, and is not about to be. -/
def silent : JobStage → Bool
  | .start | .release | .ended => true
  | _ => false

end JobStage

theorem Part.awaits_rest (p : Part) (task : UiTask) : p.rest.awaits task = !p.awaits task := by
  cases task <;> rfl

theorem Scene.pending_rest_eq_nil {p : Part} {s : Scene} {q : QueueId} :
    (s.only p.rest).pending q = [] ↔ ∀ task ∈ s.pending q, p.awaits task = true := by
  simp [pending_only, List.filter_eq_nil_iff, Part.awaits_rest]

/-- Most moves are not made in two parts at once. -/
theorem Move.within_rest {p : Part} {m : Move} (h : m.within p = true) :
    m.within p.rest = false ∨ m = .addScreen ∨ m = .openGate ∨ ∃ q t, m = .poll q t := by
  cases m <;> simp_all [Move.within, Move.screen?, Part.rest]

/-- Nothing in a scene belongs to a screen or is about to change it. -/
structure Scene.Untouched (s : Scene) (i : ScreenId) : Prop where
  loose : s.Loose (.screen i)
  closed : s.Closed (Part.without i (.screen i))
  dones : s.dones i = []
  pending : ∀ q, ∀ task ∈ s.pending q, (Part.without i (.screen i)).awaits task = true

namespace App

variable {start a a' b : App} {i : ScreenId} {ms : List Move} {m : Move}

/-! ## Parsers that have returned -/

/-- The jobs whose parser returns with a move. -/
def returns (i : ScreenId) (a : App) : Move → List Job
  | .work j => if j = i then (a.jobs i).filter (·.stage.isParsing) else []
  | _ => []

/-- The jobs of a screen whose parser has returned, in order. -/
def returned (i : ScreenId) : App → List Move → List Job := along fun a m _ => a.returns i m

theorem Fresh.unkept (hf : start.Fresh) (i : ScreenId) : Unkept i start where
  view := by rw [hf.screen]; rfl
  jobs job hjob := by
    rw [hf.jobs] at hjob
    cases hjob
  calls c call _ hcall := by
    rw [hf.calls] at hcall
    cases hcall

/-- Before the parser has returned there is nothing that could be kept. -/
theorem unbuilt_of_run (hf : start.Fresh) (i : ScreenId) (ms : List Move) (h : start.steps? ms = some a)
    (hnone : start.returned i ms = []) : Unkept i a ∧ ∀ job ∈ a.jobs i, job.stage.built = false := by
  refine run_induction (P := fun ms a => start.returned i ms = [] →
    Unkept i a ∧ ∀ job ∈ a.jobs i, job.stage.built = false) (fun _ => ⟨hf.unkept i, fun job hjob => ?_⟩) ?_ ms h hnone
  · rw [hf.jobs] at hjob
    cases hjob
  · intro ms a m a' ha ih hm hnone
    rw [returned, along_concat _ hm ms ha, List.append_eq_nil_iff] at hnone
    obtain ⟨hu, hunbuilt⟩ := ih hnone.1
    have hp := prepared_of_run hf i ms ha
    have hlater : ∀ job ∈ a'.jobs i, job.stage.built = false := by
      intro job hjob
      rcases job_of_step hp hm hjob with hold | ⟨hstart, -⟩ | ⟨rfl, old, hold, e, he, rfl⟩
      · exact hunbuilt job hold
      · rw [hstart]
        rfl
      · by_contra hbuilt
        rcases built_effect he (eq_true_of_ne_false hbuilt) with hbefore | ⟨hparsing, -⟩
        · rw [hunbuilt old hold] at hbefore
          cases hbefore
        · have hreturns := hnone.2
          simp only [returns, if_true, List.filter_eq_nil_iff] at hreturns
          exact hreturns old hold hparsing
    exact ⟨hu.step hp hm fun job hjob => JobStage.keeping_of_not_built (hlater job hjob), hlater⟩

/-! ## Letting go -/

theorem step?_drop (b : App) (i : ScreenId) : b.step? (.drop i) = some (b.dropScreen i) := by rw [step?]

theorem steps?_drop {before : List Move} (hbefore : start.steps? before = some b) (i : ScreenId) :
    start.steps? (before ++ [.drop i]) = some (b.dropScreen i) := by
  rw [steps?_concat, hbefore, Option.bind_some, step?_drop]

theorem dropped_of_drop (hmade : (b.screens.get? i).isSome = true) : ((b.dropScreen i).screen i).dropped = true := by
  obtain ⟨screen, hs⟩ := Option.isSome_iff_exists.1 hmade
  rw [dropScreen_eq hs, screen_modify_self hs _ rfl]

/-- Who has let go of a screen does not get it back. -/
theorem stays_dropped (hm : a.step? m = some a') (hd : (a.screen i).dropped = true) : (a'.screen i).dropped = true := by
  by_contra hno
  rw [dropped_step hm (eq_false_of_ne_true hno)] at hd
  cases hd

/-- A job that finds its screen gone keeps nothing. -/
theorem Unkept.step_of_dropped (hu : Unkept i a) (hp : Prepared i a) (hd : (a.screen i).dropped = true)
    (hm : a.step? m = some a') : Unkept i a' := by
  refine hu.step hp hm fun job hjob => ?_
  rcases job_of_step hp hm hjob with hold | ⟨hstart, -⟩ | ⟨rfl, old, hold, e, he, rfl⟩
  · exact hu.jobs job hold
  · rw [hstart]
    rfl
  · by_contra hkeep
    rcases keeping_effect he (eq_true_of_ne_false hkeep) with hbefore | ⟨-, hthere⟩
    · rw [hu.jobs old hold] at hbefore
      cases hbefore
    · rw [hd] at hthere
      cases hthere

theorem jobs_dropScreen (b : App) (i j : ScreenId) : (b.dropScreen i).jobs j = b.jobs j := by
  cases hs : b.screens.get? i with
  | none => simp only [dropScreen, hs]
  | some screen => rw [dropScreen_eq hs]; rfl

/-- Nothing is kept once a screen was let go of whose parser had not returned. -/
theorem unkept_of_drop (hf : start.Fresh) {before : List Move} (hbefore : start.steps? before = some b)
    (hmade : (b.screens.get? i).isSome = true) (hnone : start.returned i before = []) (after : List Move)
    (h : start.steps? (before ++ .drop i :: after) = some a) : Unkept i a := by
  have hdrop := steps?_drop hbefore i
  have hnow : Unkept i (b.dropScreen i) := by
    obtain ⟨hu, -⟩ := unbuilt_of_run hf i before hbefore hnone
    refine hu.step (prepared_of_run hf i before hbefore) (step?_drop b i) fun job hjob => ?_
    rw [jobs_dropScreen] at hjob
    exact hu.jobs job hjob
  have hrun : start.steps? ((before ++ [.drop i]) ++ after) = some a := by simpa using h
  refine (run_induction_from (P := fun _ a => (a.screen i).dropped = true ∧ Unkept i a) hdrop
    ⟨dropped_of_drop hmade, hnow⟩ (fun ms a m a' ha ih hm => ?_) after hrun).2
  obtain ⟨hd, hu⟩ := ih
  exact ⟨stays_dropped hm hd, hu.step_of_dropped (prepared_of_run hf i ms ha) hd hm⟩

/-- The host lets go of a screen whose parser has not returned. -/
def DroppedEarly (start : App) (i : ScreenId) (ms : List Move) : Prop :=
  ∃ before after b, ms = before ++ .drop i :: after ∧ start.steps? before = some b ∧
    (b.screens.get? i).isSome = true ∧ start.returned i before = []

/-- Nothing is kept of a screen that the host lets go of early, before it does and after. -/
theorem DroppedEarly.unkept (hf : start.Fresh) {past future : List Move} (hd : start.DroppedEarly i (past ++ future))
    (h : start.steps? past = some a) : Unkept i a := by
  obtain ⟨before, after, b, hms, hbefore, hmade, hnone⟩ := hd
  rcases List.append_eq_append_iff.1 hms with ⟨more, rfl, -⟩ | ⟨more, rfl, hmore⟩
  · rw [returned, along_append _ past more h, List.append_eq_nil_iff] at hnone
    exact (unbuilt_of_run hf i past h hnone.1).1
  · cases more with
    | nil =>
      rw [List.append_nil] at h
      exact (unbuilt_of_run hf i before h hnone).1
    | cons m more =>
      obtain ⟨rfl, -⟩ := List.cons.inj hmore
      exact unkept_of_drop hf hbefore hmade hnone more h

/-! ## Screens that are not parsed -/

theorem silent_effect {job : Job} {screen : Screen} {e : JobEffect} (h : job.effect? a screen = some e)
    (hd : screen.dropped = true) (hsilent : job.stage.silent = true) : e.stage.silent = true := by
  cases hstage : job.stage with
  | start | release =>
    simp only [Job.effect?, hstage, hd, if_true] at h
    cases h
    rfl
  | ended =>
    simp only [Job.effect?, hstage] at h
    cases h
  | _ =>
    rw [hstage] at hsilent
    cases hsilent

/-- A job that is not run stays as it was queued. -/
theorem start_of_run (hb : start.Blank) (ms : List Move) (h : start.steps? ms = some a) (hl : start.Lends ms)
    (hwork : .work i ∉ ms) : (∀ job ∈ a.jobs i, job.stage = .start) ∧ a.scene.parses i = [] := by
  refine run_induction (P := fun ms a => start.Lends ms → .work i ∉ ms →
    (∀ job ∈ a.jobs i, job.stage = .start) ∧ a.scene.parses i = [])
    (fun _ _ => ⟨fun job hjob => ?_, hb.parses i⟩) ?_ ms h hl hwork
  · rw [hb.toFresh.jobs] at hjob
    cases hjob
  · intro ms a m a' ha ih hm hl hwork
    rw [List.mem_append, List.mem_singleton, not_or] at hwork
    obtain ⟨hstart, hparses⟩ := ih hl.init hwork.1
    have hprepared := fun j => prepared_of_run hb.toFresh j ms ha
    have hestablished := established_of_run hb ms ha hl.init
    refine ⟨fun job hjob => ?_, (parses_step hprepared hestablished hm (Ne.symm hwork.2)).trans hparses⟩
    rcases job_of_step (hprepared i) hm hjob with hold | ⟨hnew, -⟩ | ⟨rfl, -⟩
    · exact hstart job hold
    · exact hnew
    · exact absurd rfl hwork.2

/-- The parser is not called for a screen that was let go of before its job began. -/
theorem unparsed_of_drop (hb : start.Blank) {before : List Move} (hbefore : start.steps? before = some b)
    (hmade : (b.screens.get? i).isSome = true) (hwork : .work i ∉ before) (after : List Move)
    (hl : start.Lends (before ++ .drop i :: after)) (h : start.steps? (before ++ .drop i :: after) = some a) :
    a.scene.parses i = [] := by
  have hdrop := steps?_drop hbefore i
  have hmoves : before ++ .drop i :: after = (before ++ [.drop i]) ++ after := by simp
  rw [hmoves] at h hl
  obtain ⟨hstart, hparses⟩ := start_of_run hb _ hdrop hl.of_append (by simpa using hwork)
  refine (run_induction_from (P := fun ms a => start.Lends ms → (a.screen i).dropped = true ∧
    (∀ job ∈ a.jobs i, job.stage.silent = true) ∧ a.scene.parses i = []) hdrop (fun _ => ⟨dropped_of_drop hmade,
      fun job hjob => by rw [hstart job hjob]; rfl, hparses⟩) (fun ms a m a' ha ih hm hl => ?_) after h hl).2.2
  obtain ⟨hd, hsilent, hparses⟩ := ih hl.init
  have hprepared := fun j => prepared_of_run hb.toFresh j ms ha
  have hestablished := established_of_run hb ms ha hl.init
  refine ⟨stays_dropped hm hd, fun job hjob => ?_, ?_⟩
  · rcases job_of_step (hprepared i) hm hjob with hold | ⟨hnew, -⟩ | ⟨rfl, old, hold, e, he, rfl⟩
    · exact hsilent job hold
    · rw [hnew]
      rfl
    · exact silent_effect he hd (hsilent old hold)
  · by_cases hwork : m = .work i
    · subst hwork
      obtain ⟨k, job, screen, e, hk, rfl, hs, he, rfl⟩ := work?_eq_some hm
      have hjob := mem_jobs_of_busy hk
      obtain ⟨n, hsame⟩ := parses_effect he
      have hstage : job.stage ≠ .parse := by
        intro hparse
        have hno := hsilent job hjob
        rw [hparse] at hno
        cases hno
      rw [if_neg hstage, hparses] at hsame
      exact hsame
    · exact (parses_step hprepared hestablished hm hwork).trans hparses

/-! ## What is left of an initialization -/

/-- Nobody calls back for a screen of which nothing is kept. -/
theorem Unkept.dones_step (hu : Unkept i a) (hm : a.step? m = some a') : a'.scene.dones i = a.scene.dones i := by
  rcases quiet_step hm with ⟨job, screen, e, -, hjob, -, he, hscene⟩ | hquiet
  · rw [hscene, dones_effect he, if_neg, List.append_nil]
    rintro ⟨hstage, rfl⟩
    have hkeep := hu.jobs job hjob
    rw [hstage] at hkeep
    cases hkeep
  · exact hquiet.dones i

/-- The graph of a screen that is not kept is not attached. -/
theorem Unkept.loose_step (hu : Unkept i a) (hhome : a.AtHome) (hl : a.scene.Loose (.screen i))
    (hm : a.step? m = some a') : a'.scene.Loose (.screen i) := by
  rcases quiet_step hm with ⟨job, screen, e, -, hjob, -, he, hscene⟩ | hquiet
  · rw [hscene]
    refine hl.effect he (hhome.graph _ job hjob) ?_
    rintro rfl
    exact hu.jobs job hjob
  · exact hl.quiet hquiet

theorem loose_of_run (hf : start.Fresh) (hun : start.scene.Untouched i) (past : List Move)
    (h : start.steps? past = some a) {future : List Move} (hd : start.DroppedEarly i (past ++ future)) :
    a.scene.Loose (.screen i) ∧ a.scene.dones i = [] := by
  refine run_induction (P := fun past a => ∀ future, start.DroppedEarly i (past ++ future) →
    a.scene.Loose (.screen i) ∧ a.scene.dones i = []) (fun _ _ => ⟨hun.loose, hun.dones⟩) ?_ past h future hd
  intro ms a m a' ha ih hm future hd
  rw [List.append_assoc] at hd
  obtain ⟨hloose, hdones⟩ := ih _ hd
  have hu := hd.unkept hf ha
  exact ⟨hu.loose_step (atHome_of_run hf ms ha) hloose hm, (hu.dones_step hm).trans hdones⟩

/-- What belongs to the others stays closed when nothing is kept of a screen. -/
theorem Unkept.closed_step (hu : Unkept i a) (hhome : a.AtHome) (hp : (Part.without i (.screen i)).Houses a)
    (hc : a.scene.Closed (Part.without i (.screen i))) (hm : a.step? m = some a') :
    a'.scene.Closed (Part.without i (.screen i)) := by
  refine hc.step hhome hp hm fun k _ job hjob hattach => .inl (owns_without.2 fun hk => ?_)
  obtain rfl := Owner.screen.inj hk
  exact hu.not_attaching hjob hattach

/-- Nothing waits for a graph that is attached nowhere and not used. -/
theorem Unkept.pending_step (hu : Unkept i a) (hhome : a.AtHome) (hp : (Part.without i (.screen i)).Houses a)
    (hc : a.scene.Closed (Part.without i (.screen i))) (huse : m.uses? ≠ some (.screen i))
    (hidle : ∀ q, (a.scene.only (Part.without i (.screen i)).rest).pending q = []) (hm : a.step? m = some a')
    (q : QueueId) :
    (a'.scene.only (Part.without i (.screen i)).rest).pending q = [] := by
  cases hwithin : m.within (Part.without i (.screen i)) with
  | false =>
    rcases Move.within_without hwithin with hi | hno
    · rw [pending_only, pending_congr (hu.only_step hhome hm hi).2, ← pending_only, hidle]
    · exact absurd hno huse
  | true =>
    rcases Move.within_rest hwithin with hout | rfl | rfl | ⟨q', t, rfl⟩
    · rw [← Part.rest_rest (Part.without i (.screen i))] at hc hp
      rw [App.only_step hc hhome hp hout hm, hidle]
    · cases hm
      exact hidle q
    · cases hm
      exact hidle q
    · cases hm
      have hpoll : ((a.scene.poll q' t).2.only (Part.without i (.screen i)).rest) =
          a.scene.only (Part.without i (.screen i)).rest := by
        rw [only_poll, poll, pollFor_of_pending_eq_nil (hidle q')]
      exact (congrArg (pending · q) hpoll).trans (hidle q)

/-- The binders of the others are theirs. -/
theorem houses_others (hb : start.Blank) {past future : List Move} (hl : start.Lends (past ++ future))
    (h : start.steps? past = some a) (hapart : ∀ k, k ≠ i → start.binderOf k (past ++ future) ≠ .screen i) :
    (Part.without i (.screen i)).Houses a := by
  intro k hk job hjob
  have hother := hapart k fun he => owns_without.1 hk (by rw [he])
  rw [binder_of_job hb hl h hjob]
  simpa [Part.without] using hother

/-- If nobody uses what a screen has made, nothing of the others refers to it. -/
theorem closed_others (hb : start.Blank) (hun : start.scene.Untouched i) (past : List Move)
    (h : start.steps? past = some a) {future : List Move} (hl : start.Lends (past ++ future))
    (hd : start.DroppedEarly i (past ++ future)) (huse : ∀ m ∈ past ++ future, m.uses? ≠ some (.screen i))
    (hapart : ∀ k, k ≠ i → start.binderOf k (past ++ future) ≠ .screen i) :
    a.scene.Closed (Part.without i (.screen i)) ∧
      ∀ q, (a.scene.only (Part.without i (.screen i)).rest).pending q = [] := by
  refine run_induction (P := fun past a => ∀ future, start.Lends (past ++ future) →
    start.DroppedEarly i (past ++ future) → (∀ m ∈ past ++ future, m.uses? ≠ some (.screen i)) →
    (∀ k, k ≠ i → start.binderOf k (past ++ future) ≠ .screen i) → a.scene.Closed (Part.without i (.screen i)) ∧
      ∀ q, (a.scene.only (Part.without i (.screen i)).rest).pending q = [])
    (fun _ _ _ _ _ => ⟨hun.closed, fun q => pending_rest_eq_nil.2 (hun.pending q)⟩) ?_ past h future hl hd huse hapart
  intro ms a m a' ha ih hm future hl hd huse hapart
  rw [List.append_assoc] at hl hd huse hapart
  obtain ⟨hclosed, hidle⟩ := ih _ hl hd huse hapart
  have hu := hd.unkept hb.toFresh ha
  have hhome := atHome_of_run hb.toFresh ms ha
  have hhouses := houses_others hb hl ha hapart
  exact ⟨hu.closed_step hhome hhouses hclosed hm,
    hu.pending_step hhome hhouses hclosed (huse m (by simp)) hidle hm⟩

/-- **Letting go of a screen cancels its initialization.** Before the job begins: the parser is not called. Before
the parser has returned: its graph is at no time attached to anything and the callback is not called; and if nobody
uses the graph or the own binder of the screen, which nobody is given, the others are as they would be if nobody had
ever asked for the screen, and nothing waits in a queue for the graph. The callback is called once at most in any
run, by a job whose parser has built a graph, after the view was set. -/
theorem dropping_cancels (hb : start.Blank) (ms : List Move) (hl : start.Lends ms) (h : start.steps? ms = some a)
    (i : ScreenId) (hun : start.scene.Untouched i) :
    (∀ before after b, ms = before ++ .drop i :: after → start.steps? before = some b →
      (b.screens.get? i).isSome = true → .work i ∉ before → a.scene.parses i = []) ∧
    (start.DroppedEarly i ms →
      (∀ past future b, ms = past ++ future → start.steps? past = some b →
        b.scene.Loose (.screen i) ∧ b.scene.dones i = []) ∧
      ((∀ m ∈ ms, m.uses? ≠ some (.screen i)) → (∀ k, k ≠ i → start.binderOf k ms ≠ .screen i) →
        ∃ a', start.steps? (ms.filter (Move.within (Part.without i (.screen i)))) = some a' ∧
          SameBut i (.screen i) a a' ∧
          ∀ q, ∀ task ∈ a.scene.pending q, (Part.without i (.screen i)).awaits task = true)) ∧
    (a.scene.dones i = [] ∨ CalledAfter start ms i (a.scene.dones i)) := by
  refine ⟨?_, fun hd => ⟨?_, fun huse hapart => ?_⟩, (calledBack_of_run hb i hun.dones ms h hl).after⟩
  · rintro before after b rfl hbefore hmade hwork
    exact unparsed_of_drop hb hbefore hmade hwork after hl h
  · rintro past future b rfl hpast
    exact loose_of_run hb.toFresh hun past hpast hd
  · obtain ⟨a', ha', hlacks, -⟩ := lacks_of_run hb.toFresh ms h (p := Part.without i (.screen i))
      fun past m future b b' hms hpast hm => by
        subst hms
        have hhouses := houses_others hb hl hpast hapart
        refine ⟨(closed_others hb hun past hpast hl hd huse hapart).1, hhouses, fun hout => ?_⟩
        rcases Move.within_without hout with hi | hno
        · exact ((hd.unkept hb.toFresh hpast).only_step (atHome_of_run hb.toFresh past hpast) hm hi).1
        · exact absurd hno (huse m (by simp))
    refine ⟨a', ha', .of_lacks hlacks, fun q => pending_rest_eq_nil.1 ?_⟩
    rw [← List.append_nil ms] at hl hd huse hapart
    exact (closed_others hb hun ms h hl hd huse hapart).2 q

/-! ## A screen that is let go of -/

/-- A screen is initialized with the binder of the host, and let go of while the parser runs. Then the binder is
updated. -/
def droppedWhileParsing : List Move :=
  [.addScreen, .prepare 0 "" { InitOptions.standard with binder := some (.host 0), onDone := some ⟨"done", false⟩ }] ++
    [.take 0, .work 0, .work 0, .drop 0, .work 0, .work 0, .work 0, .update 0 (.host 0) "text_1" (.text "there")]

theorem lends_droppedWhileParsing : storedLabel.Lends droppedWhileParsing := by
  refine Lends.append ?_ (by simp)
  intro before i markup options after b hms hb x hx
  match before with
  | [] => cases hms
  | [_] =>
    cases hms
    cases hb
    cases hx
    rfl
  | _ :: _ :: _ :: _ => simp at hms

theorem untouched_storedLabel (i : ScreenId) : storedLabel.scene.Untouched i := by
  have hclosed := closed_storedLabel ⟨fun o => o ≠ .screen i, fun _ => true, true⟩
  refine ⟨⟨fun b binder hbinder hg => ?_, fun c center hcenter => ?_⟩, closed_storedLabel _, rfl,
    fun q task htask => ?_⟩
  · exact absurd (hclosed.views b binder rfl hbinder _ hg) (by simp)
  · cases hcenter
  · cases htask

theorem storedLabel_cancelled : ∃ a a', storedLabel.steps? droppedWhileParsing = some a ∧
    storedLabel.steps? [.addScreen, .update 0 (.host 0) "text_1" (.text "there")] = some a' ∧
      SameBut 0 (.screen 0) a a' ∧ (a.scene.parses 0).length = 1 ∧ (a.screen 0).released = true ∧
        a.scene.Loose (.screen 0) ∧ a.scene.dones 0 = [] := by
  obtain ⟨a, ha⟩ : ∃ a, storedLabel.steps? droppedWhileParsing = some a := Option.isSome_iff_exists.1 rfl
  have hseen : (storedLabel.steps? droppedWhileParsing).map (fun a =>
      ((a.scene.parses 0).length, (a.screen 0).released)) = some (1, true) := rfl
  rw [ha] at hseen
  simp only [Option.map_some, Option.some.injEq, Prod.mk.injEq] at hseen
  obtain ⟨b, hb⟩ : ∃ b, storedLabel.steps? (droppedWhileParsing.take 5) = some b := Option.isSome_iff_exists.1 rfl
  have hmade : ((storedLabel.steps? (droppedWhileParsing.take 5)).map fun b => (b.screens.get? 0).isSome) =
      some true := rfl
  rw [hb] at hmade
  have hapart : ∀ k, k ≠ 0 → storedLabel.binderOf k droppedWhileParsing ≠ .screen 0 := by
    intro k hk
    have hnil : storedLabel.asked k droppedWhileParsing = [] := by
      refine asked_eq_nil _ _ fun markup options hmem => ?_
      simp [droppedWhileParsing, hk] at hmem
    rw [binderOf, hnil]
    exact fun h => hk (Owner.screen.inj h)
  obtain ⟨-, hearly, -⟩ := dropping_cancels blank_storedLabel droppedWhileParsing lends_droppedWhileParsing ha 0
    (untouched_storedLabel 0)
  obtain ⟨hloose, hothers⟩ := hearly ⟨droppedWhileParsing.take 5, droppedWhileParsing.drop 6, b, rfl, hb,
    Option.some.inj hmade, rfl⟩
  obtain ⟨a', ha', hsame, -⟩ := hothers (by simp [droppedWhileParsing, Move.uses?]) hapart
  exact ⟨a, a', ha, ha', hsame, hseen.1, hseen.2, hloose droppedWhileParsing [] a (List.append_nil _).symm ha⟩

end App

end LiveScreen
