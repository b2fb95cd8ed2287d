/-
The callback of an initialization. It is called by the job of the screen, in one of its
last steps: once at most, with the callback of the first call that asks for the screen,
after the job has set the screen's view, and only if the parser has built a graph
(`calledBack_of_run`). No other move calls it.
-/
import LiveScreen.Proofs.Loader.Belonging
import LiveScreen.Proofs.Loader.Hooks

namespace LiveScreen

namespace JobStage

/-- The parser was called and has not returned. -/
def isParsing : JobStage → Bool
  | .parsing .. => true
  | _ => false

/-- The parser has built a graph, and the callback was not called yet. -/
def built : JobStage → Bool
  | .parsed _ | .attach _ | .addView _ | .publish _ | .letGo | .callBack => true
  | _ => false

/-- The view was set, and the callback was not called yet. -/
def shown : JobStage → Bool
  | .letGo | .callBack => true
  | _ => false

/-- The callback was called if it ever will be. -/
def finished : JobStage → Bool
  | .release | .ended => true
  | _ => false

end JobStage

namespace App

variable {start a a' : App} {i : ScreenId}

/-! ## One move -/

/-- A step of an initialization calls back at one stage. -/
theorem dones_effect {job : Job} {screen : Screen} {e : JobEffect} (h : job.effect? a screen = some e) (i : ScreenId) :
    e.scene.dones i = a.scene.dones i ++
      if job.stage = .callBack ∧ job.screen = i then (job.options.onDone.map (·.line)).toList else [] := by
  by_cases hcall : job.stage = .callBack
  · simp only [Job.effect?, hcall] at h
    cases h
    cases job.options.onDone with
    | none => simp
    | some done => simp [Scene.dones_emit, Event.done?, hcall, apply_ite]
  · rw [if_neg fun hno => hcall hno.1, List.append_nil]
    cases Job.turn_of_effect h with
    | giveUp | begin | fail | keep | letGo | release | discard | forget | attach | publish => rfl
    | call =>
      have hserve : (job.serve a.scene).dones i = a.scene.dones i := by
        unfold Job.serve
        cases job.options.binder <;> rfl
      rw [callParser_eq, Scene.dones_emit, hserve]
      exact List.append_nil _
    | build decl hooks =>
      exact congrArg (List.filterMap _) ((Scene.foldl_frame (f := fun s hook =>
        s.addLoadHook (.screen job.screen) hook) Scene.events (fun _ _ => rfl) hooks _).trans (Scene.events_build ..))
    | @addView g graph =>
      unfold Scene.addView
      split <;> rfl
    | callBack hstage => exact absurd hstage hcall

/-- Only the job of a screen calls back. -/
theorem dones_step {m : Move} (h : a.step? m = some a') (hwork : m ≠ .work i) : a'.scene.dones i = a.scene.dones i := by
  rcases Scene.quiet_step h with ⟨job, screen, e, rfl, -, -, he, hscene⟩ | hquiet
  · have hother : job.screen ≠ i := by
      rintro rfl
      exact hwork rfl
    rw [hscene, dones_effect he, if_neg fun hno => hother hno.2, List.append_nil]
  · exact hquiet.dones i

/-- Only a parser that builds something leaves something to show. -/
theorem built_effect {job : Job} {screen : Screen} {e : JobEffect} (h : job.effect? a screen = some e)
    (hbuilt : e.stage.built = true) :
    job.stage.built = true ∨ job.stage.isParsing = true ∧ ((a.markup job.markup).built?).isSome = true := by
  by_cases hparsing : ∃ b c n, job.stage = .parsing b c n
  · obtain ⟨b, c, n, hstage⟩ := hparsing
    simp only [Job.effect?, hstage, finishParser?_eq] at h
    split at h
    · cases h
    · split at h
      · rename_i decl hdecl
        exact .inr ⟨by rw [hstage]; rfl, by rw [hdecl]; rfl⟩
      · cases h
        cases hbuilt
  · cases Job.turn_of_effect h with
    | fail hstage | build _ _ hstage => exact absurd ⟨_, _, _, hstage⟩ hparsing
    | call =>
      rw [callParser_eq] at hbuilt
      cases hbuilt
    | giveUp | begin | discard | callBack | release => cases hbuilt
    | keep hstage | attach hstage | addView hstage | publish hstage | forget hstage | letGo hstage =>
      exact .inl (by rw [hstage]; rfl)

/-- Nothing comes after the callback but the end. -/
theorem finished_effect {job : Job} {screen : Screen} {e : JobEffect} (h : job.effect? a screen = some e)
    (hfinished : e.stage.finished = false) : job.stage.finished = false := by
  cases Job.turn_of_effect h with
  | release => cases hfinished
  | giveUp hstage | begin hstage | call hstage | fail hstage | build _ _ hstage | discard hstage | keep hstage
  | attach hstage | addView hstage | publish hstage | forget hstage | letGo hstage | callBack hstage => rw [hstage]; rfl

/-- The view is set just before the stages in which it was set. -/
theorem shown_effect {job : Job} {screen : Screen} {e : JobEffect} (h : job.effect? a screen = some e)
    (hshown : e.stage.shown = true) :
    job.stage.shown = true ∨ ∃ g, job.stage = .publish g ∧ e.screen.view = some g := by
  cases Job.turn_of_effect h with
  | publish hstage => exact .inr ⟨_, hstage, rfl⟩
  | letGo hstage | forget hstage => exact .inl (by rw [hstage]; rfl)
  | call =>
    rw [callParser_eq] at hshown
    cases hshown
  | giveUp | begin | fail | build | discard | keep | attach | addView | callBack | release => cases hshown

/-! ## Runs -/

/-- The view of a screen was set, while the callback of its initialization was not called. -/
def ShownIn (start : App) (ms : List Move) (i : ScreenId) : Prop :=
  ∃ before after b b', ms = before ++ .work i :: after ∧ start.steps? before = some b ∧ b.step? (.work i) = some b' ∧
    (b.screen i).view = none ∧ (b'.screen i).view = some (.screen i) ∧ b'.scene.dones i = []

theorem ShownIn.concat {ms : List Move} (h : ShownIn start ms i) (m : Move) : ShownIn start (ms ++ [m]) i := by
  obtain ⟨before, after, b, b', rfl, hb, hstep, hrest⟩ := h
  exact ⟨before, after ++ [m], b, b', by simp, hb, hstep, hrest⟩

/-- The callback of the first call that asks for a screen was called, after the view was set to what the parser
has built. -/
def CalledAfter (start : App) (ms : List Move) (i : ScreenId) (lines : List String) : Prop :=
  ∃ first done, (start.asked i ms).head? = some first ∧ first.2.onDone = some done ∧ lines = [done.line] ∧
    ((start.markup first.1).built?).isSome = true ∧ ShownIn start ms i

theorem head?_asked_concat {m : Move} {ms : List Move} (hm : a.step? m = some a') (h : start.steps? ms = some a)
    {first : String × InitOptions} (hfirst : (start.asked i ms).head? = some first) :
    (start.asked i (ms ++ [m])).head? = some first := by
  rw [asked, along_concat _ hm ms h, List.head?_append]
  exact congrArg (Option.or · _) hfirst

theorem CalledAfter.concat {m : Move} {ms : List Move} {lines : List String} (hc : CalledAfter start ms i lines)
    (hm : a.step? m = some a') (h : start.steps? ms = some a) : CalledAfter start (ms ++ [m]) i lines := by
  obtain ⟨first, done, hfirst, hdone, hlines, hbuilt, hshown⟩ := hc
  exact ⟨first, done, head?_asked_concat hm h hfirst, hdone, hlines, hbuilt, hshown.concat m⟩

/-- How far an initialization has come with its callback. -/
structure CalledBack (start : App) (i : ScreenId) (ms : List Move) (a : App) : Prop where
  unasked : start.asked i ms = [] → a.scene.dones i = []
  before : ∀ job ∈ a.jobs i, job.stage.finished = false → a.scene.dones i = []
  built : ∀ job ∈ a.jobs i, job.stage.built = true → ((start.markup job.markup).built?).isSome = true
  shown : ∀ job ∈ a.jobs i, job.stage.shown = true → ShownIn start ms i
  after : a.scene.dones i = [] ∨ CalledAfter start ms i (a.scene.dones i)

variable {ms : List Move} {m : Move}

theorem CalledBack.unasked_concat (hc : CalledBack start i ms a) (h : start.steps? ms = some a)
    (hm : a.step? m = some a') (hnil : start.asked i (ms ++ [m]) = []) : a.scene.dones i = [] := by
  rw [asked, along_concat _ hm ms h, List.append_eq_nil_iff] at hnil
  exact hc.unasked hnil.1

/-- A move that is not one of the job. A job that was not there before is queued by the first call. -/
theorem CalledBack.other (hc : CalledBack start i ms a) (hp : Prepared i a) {queued : List Job}
    (hf : First i a (start.asked i ms) queued) (h : start.steps? ms = some a) (hm : a.step? m = some a')
    (hwork : m ≠ .work i) : CalledBack start i (ms ++ [m]) a' := by
  have hdones := dones_step hm hwork
  have hjob : ∀ job ∈ a'.jobs i, job ∈ a.jobs i ∨ (job.stage = .start ∧ a.scene.dones i = []) := by
    intro job hjob
    rcases job_of_step hp hm hjob with hold | ⟨hstart, hcalled⟩ | ⟨rfl, -⟩
    · exact .inl hold
    · refine .inr ⟨hstart, hc.unasked ?_⟩
      by_contra hne
      rw [hf.called.2 hne] at hcalled
      cases hcalled
    · exact absurd rfl hwork
  refine ⟨fun hnil => ?_, fun job hmem hfinished => ?_, fun job hmem hbuilt => ?_, fun job hmem hshown => ?_, ?_⟩
  · rw [hdones, hc.unasked_concat h hm hnil]
  · rw [hdones]
    rcases hjob job hmem with hold | ⟨-, hnil⟩
    · exact hc.before job hold hfinished
    · exact hnil
  · rcases hjob job hmem with hold | ⟨hstart, -⟩
    · exact hc.built job hold hbuilt
    · rw [hstart] at hbuilt
      cases hbuilt
  · rcases hjob job hmem with hold | ⟨hstart, -⟩
    · exact (hc.shown job hold hshown).concat m
    · rw [hstart] at hshown
      cases hshown
  · rw [hdones]
    exact hc.after.imp id (·.concat hm h)

/-- The step of the job that calls back. -/
theorem CalledBack.call (hc : CalledBack start i ms a) {queued : List Job} (hf : First i a (start.asked i ms) queued)
    (h : start.steps? ms = some a) (hm : a.step? (.work i) = some a') {job : Job} (hone : a.jobs i = [job])
    (hcall : job.stage = .callBack) : CalledBack start i (ms ++ [.work i]) a' := by
  obtain ⟨screen, e, rfl, hs, he, -, hscene, hafter⟩ := job_of_work hm hone
  have hmem : job ∈ a.jobs job.screen := by rw [hone]; exact List.mem_singleton_self _
  have hfirst := head?_asked_concat hm h (hf.jobs job hmem)
  have hdones : a'.scene.dones job.screen = (job.options.onDone.map (·.line)).toList := by
    rw [hscene, dones_effect he, if_pos ⟨hcall, rfl⟩, hc.before job hmem (by rw [hcall]; rfl), List.nil_append]
  have hlater : ∀ job' ∈ a'.jobs job.screen, job'.stage = .release := by
    intro job' hjob'
    rw [hafter job' hjob']
    simp only [Job.effect?, hcall] at he
    cases he
    rfl
  refine ⟨fun hnil => ?_, fun job' hjob' hfinished => ?_, fun job' hjob' hnow => ?_, fun job' hjob' hnow => ?_, ?_⟩
  · rw [hnil] at hfirst
    cases hfirst
  · rw [hlater job' hjob'] at hfinished
    cases hfinished
  · rw [hlater job' hjob'] at hnow
    cases hnow
  · rw [hlater job' hjob'] at hnow
    cases hnow
  · rw [hdones]
    cases hdone : job.options.onDone with
    | none => exact .inl rfl
    | some done =>
      exact .inr ⟨(job.markup, job.options), done, hfirst, hdone, rfl, hc.built job hmem (by rw [hcall]; rfl),
        (hc.shown job hmem (by rw [hcall]; rfl)).concat _⟩

/-- Any other step of the job. -/
theorem CalledBack.advance (hc : CalledBack start i ms a) (hp : Prepared i a) (he : Established i a)
    (h : start.steps? ms = some a) (hm : a.step? (.work i) = some a') {job : Job} (hone : a.jobs i = [job])
    (hcall : job.stage ≠ .callBack) : CalledBack start i (ms ++ [.work i]) a' := by
  obtain ⟨screen, e, rfl, hs, heff, hself, hscene, hafter⟩ := job_of_work hm hone
  have hmem : job ∈ a.jobs job.screen := by rw [hone]; exact List.mem_singleton_self _
  have hdones : a'.scene.dones job.screen = a.scene.dones job.screen := by
    rw [hscene, dones_effect heff, if_neg fun hno => hcall hno.1, List.append_nil]
  refine ⟨fun hnil => ?_, fun job' hjob' hfinished => ?_, fun job' hjob' hnow => ?_, fun job' hjob' hnow => ?_, ?_⟩
  · rw [hdones, hc.unasked_concat h hm hnil]
  · rw [hafter job' hjob'] at hfinished
    rw [hdones, hc.before job hmem (finished_effect heff hfinished)]
  · rw [hafter job' hjob'] at hnow ⊢
    rcases built_effect heff hnow with hold | ⟨-, hparsed⟩
    · exact hc.built job hmem hold
    · rwa [App.markup, markups_of_run ms h] at hparsed
  · rw [hafter job' hjob'] at hnow
    rcases shown_effect heff hnow with hold | ⟨g, hstage, hview⟩
    · exact (hc.shown job hmem hold).concat _
    · obtain rfl := hp.own hmem (by rw [hstage]; rfl)
      refine ⟨ms, [], a, a', rfl, h, hm, ?_, by rw [hself, hview], ?_⟩
      · exact he.unpublished (.inr ⟨job, hmem, by rw [hstage]; rfl⟩)
      · rw [hdones, hc.before job hmem (by rw [hstage]; rfl)]
  · rw [hdones]
    exact hc.after.imp id (·.concat hm h)

theorem calledBack_of_run (hb : start.Blank) (i : ScreenId) (hnone : start.scene.dones i = []) (ms : List Move)
    (h : start.steps? ms = some a) (hl : start.Lends ms) : CalledBack start i ms a := by
  refine run_induction (P := fun ms a => start.Lends ms → CalledBack start i ms a) (fun _ => ?_) ?_ ms h hl
  · have hnil := hb.jobs i
    refine ⟨fun _ => hnone, ?_, ?_, ?_, .inl hnone⟩
    all_goals
      intro job hjob
      rw [hnil] at hjob
      cases hjob
  · intro ms a m a' ha ih hm hl
    have hp := prepared_of_run hb.toFresh i ms ha
    have hf := first_of_run hb i ms ha hl.init
    by_cases hwork : m = .work i
    · subst hwork
      rcases hp.jobs with hnil | ⟨job, hone, -, -⟩
      · exact absurd hnil (jobs_ne_nil_of_work hm)
      · by_cases hcall : job.stage = .callBack
        · exact (ih hl.init).call hf ha hm hone hcall
        · exact (ih hl.init).advance hp (established_of_run hb ms ha hl.init i) ha hm hone hcall
    · exact (ih hl.init).other hp hf ha hm hwork

end App

end LiveScreen
