/-
What a screen works on is its own: its view, and the graph that its job or one of its
loadings is about, is the graph of the screen, which its job makes with the task center and
the animation center of the screen and with one binder (`AtHome`). So a part of a scene
that has the binders of its screens stays closed, whatever is done with the application
(`Closed.step`).
-/
import LiveScreen.Proofs.Loader.Ownership
import LiveScreen.Proofs.Scene.Housing

namespace LiveScreen

/-! ## Jobs -/

namespace Job

/-- The binder of the graph that a job makes. -/
def binder (job : Job) : BinderId := job.options.binder.getD (.screen job.screen)

/-- A parser that was called has the services of its screen. -/
def Served (job : Job) : Prop :=
  ∀ b c n, job.stage = .parsing b c n → b = job.binder ∧ c = .screen job.screen ∧ n = .screen job.screen

/-- What is recorded of a parser that is called. -/
def parseEvent (job : Job) (s : Scene) : Event :=
  .parsed job.screen job.markup
    (job.options.parseLine job.markup 0 (((s.binders.get? job.binder).map (·.values.size)).getD 0))

/-- A scene with the services that a job makes for its parser. -/
def serve (job : Job) (s : Scene) : Scene :=
  (match job.options.binder with
    | some _ => s
    | none => s.withBinder (.screen job.screen) (.new job.options.initialData)).withCenters (.screen job.screen)
      (.new job.options.restricted) (.new job.options.context)

end Job

/-- The graph is about to be attached to a task center or a binder. -/
def JobStage.attaching : JobStage → Bool
  | .attach _ | .addView _ => true
  | _ => false

namespace App

variable {a a' : App} {i : ScreenId} {p : Part}

theorem callParser_eq (a : App) (job : Job) : a.callParser job =
    (.parsing job.binder (.screen job.screen) (.screen job.screen),
      { a with scene := (job.serve a.scene).emit (job.parseEvent (job.serve a.scene)) }) := by
  unfold callParser Job.parseEvent Job.serve Job.binder
  cases job.options.binder <;> rfl

theorem served_effect {job : Job} {screen : Screen} {e : JobEffect} (h : job.effect? a screen = some e) :
    Job.Served { job with stage := e.stage } := by
  cases Job.turn_of_effect h with
  | call =>
    rw [callParser_eq]
    intro b c n hstage
    cases hstage
    exact ⟨rfl, rfl, rfl⟩
  | _ => nofun

/-- The only job of a screen, after its step. -/
theorem job_of_work (hm : a.step? (.work i) = some a') {job : Job} (hone : a.jobs i = [job]) :
    ∃ screen e, job.screen = i ∧ a.screens.get? i = some screen ∧ job.effect? a screen = some e ∧
      a'.screen i = e.screen ∧ a'.scene = e.scene ∧ ∀ job' ∈ a'.jobs i, job' = { job with stage := e.stage } := by
  obtain ⟨screen, e, hi, hs, he, hscreens, hscene, hjobs⟩ := jobs_work_self hm hone
  refine ⟨screen, e, hi, hs, he, screen_modify_self hs _ hscreens, hscene, fun job' hjob' => ?_⟩
  rw [hjobs] at hjob'
  split at hjob'
  · cases hjob'
  · exact List.mem_singleton.1 hjob'

/-- Where a job comes from: it was there before, it was just queued, or it went on. -/
theorem job_of_step (hp : Prepared i a) {m : Move} (h : a.step? m = some a') {job : Job} (hjob : job ∈ a'.jobs i) :
    job ∈ a.jobs i ∨ (job.stage = .start ∧ (a.screen i).calledInitialize = false) ∨
      m = .work i ∧ ∃ old ∈ a.jobs i, ∃ e, old.effect? a (a.screen i) = some e ∧
        job = { old with stage := e.stage } := by
  by_cases hwork : m = .work i
  · subst hwork
    rcases hp.jobs with hnil | ⟨old, hone, -, -⟩
    · exact absurd hnil (jobs_ne_nil_of_work h)
    obtain ⟨screen, e, -, hs, he, -, -, hafter⟩ := job_of_work h hone
    rw [← screen_eq hs] at he
    exact .inr (.inr ⟨rfl, old, by rw [hone]; exact List.mem_singleton_self _, e, he, hafter job hjob⟩)
  by_cases hdiscard : m = .discard i
  · subst hdiscard
    refine .inl ?_
    obtain ⟨-, rfl⟩ := discardJob?_eq_some h
    simp only [App.jobs, Workers.all, List.mem_filter, List.mem_append] at hjob ⊢
    exact ⟨hjob.1.imp And.left id, hjob.2⟩
  by_cases hprepare : ∃ markup options, m = .prepare i markup options
  · obtain ⟨markup, options, rfl⟩ := hprepare
    cases h
    cases hs : a.screens.get? i with
    | none => exact .inl (by simpa [App.prepare, hs] using hjob)
    | some screen =>
      cases hi : screen.calledInitialize with
      | true => exact .inl (by simpa [App.prepare, hs, hi] using hjob)
      | false =>
        rw [jobs_prepare markup options hs hi (hp.idle (by rw [screen_eq hs, hi])).1] at hjob
        obtain rfl := List.mem_singleton.1 hjob
        exact .inr (.inl ⟨rfl, by rw [screen_eq hs, hi]⟩)
  · exact .inl ((jobs_step h hwork hdiscard fun _ _ he => hprepare ⟨_, _, he⟩).mem_iff.1 hjob)

/-- What a screen works on is its own. -/
structure AtHome (a : App) : Prop where
  view : ∀ i g, (a.screen i).view = some g → g = .screen i
  call : ∀ c call g, a.calls.get? c = some call → call.stage.graph? = some g → g = .screen c.screen
  graph : ∀ i, ∀ job ∈ a.jobs i, ∀ g, job.stage.graph? = some g → g = .screen i
  served : ∀ i, ∀ job ∈ a.jobs i, job.Served

theorem served_of_run {start : App} (hf : start.Fresh) (i : ScreenId) (ms : List Move) (h : start.steps? ms = some a) :
    ∀ job ∈ a.jobs i, job.Served := by
  refine run_induction (P := fun _ a => ∀ job ∈ a.jobs i, job.Served) (fun job hjob => ?_) ?_ ms h
  · rw [hf.jobs] at hjob
    cases hjob
  · intro ms a m a' ha ih hstep job hjob
    rcases job_of_step (prepared_of_run hf i ms ha) hstep hjob with hold | ⟨hstart, -⟩ | ⟨-, old, -, e, he, rfl⟩
    · exact ih job hold
    · intro b c n hstage
      rw [hstart] at hstage
      cases hstage
    · exact served_effect he

theorem atHome_of_run {start : App} (hf : start.Fresh) (ms : List Move) (h : start.steps? ms = some a) : a.AtHome where
  view i g hg := ((prepared_of_run hf i ms h).view g hg).1
  call c call g hcall hg := ((recorded_of_run hf c.screen ms h).1.graph c call rfl hcall g hg).1
  graph i job hjob g hg := by
    rcases (prepared_of_run hf i ms h).jobs with hnil | ⟨job', hone, -, ho⟩
    · rw [hnil] at hjob
      cases hjob
    · rw [hone] at hjob
      obtain rfl := List.mem_singleton.1 hjob
      exact (ho g hg).1
  served i := served_of_run hf i ms h

end App

/-- A part has the binders of the graphs that are made for its screens. -/
def Part.Houses (p : Part) (a : App) : Prop :=
  ∀ i, p.owns (.screen i) = true → ∀ job ∈ a.jobs i, p.binds job.binder = true

namespace Scene

variable {a a' : App} {i : ScreenId} {p : Part}

/-! ## Parts that stay closed -/

theorem Quiet.withGraph (s : Scene) (g : GraphId) {f : Graph → Scene → Scene} (hf : ∀ graph s, Quiet s (f graph s)) :
    Quiet s (App.withGraph g f s) := by
  unfold App.withGraph
  split
  · exact hf _ s
  · exact .refl s

theorem Quiet.fire (s : Scene) (t : Thread) (g : GraphId) (hook : Hook) : Quiet s (App.fire t g hook s) := by
  unfold App.fire
  split
  · exact .notify s t _ hook ""
  · exact .refl s

theorem Quiet.act (call : LoadCall) (s : Scene) : Quiet s (call.act s) := by
  unfold LoadCall.act
  cases call.stage with
  | bindAnimations g => exact .withGraph s g fun graph s => .setAnimationUi s graph.animations _
  | mount g params => exact .mountGraph s g params _
  | store g rest =>
    cases rest with
    | nil => exact .refl s
    | cons e rest => exact .withGraph s g fun graph s => of_leads (leads_update s _ graph.binder e.1 e.2)
  | bindData g => exact .withGraph s g fun graph s => .setBinderUi s graph.binder _
  | markLoaded g => exact .withGraph s g fun graph s => .setLoaded s graph.binder
  | fireData g => exact .fire s _ g .dataInitialize
  | fireFinish g => exact .fire s _ g .loadFinish
  | runHooks g => exact .finishLoad s _ g
  | _ => exact .refl s

theorem Closed.serve {s : Scene} (h : s.Closed p) (job : Job) : (job.serve s).Closed p := by
  unfold Job.serve
  cases job.options.binder with
  | some b => exact h.withCenters rfl
  | none => exact (h.withBinder rfl).withCenters rfl

theorem Closed.builtScene {job : Job} {b c n : Owner} (h : a.scene.Closed p)
    (hr : p.owns (.screen job.screen) = true → p.binds b = true ∧ p.owns c = true ∧ p.owns n = true)
    (decl : GraphDecl) (hooks : List LoadHook) : (a.builtScene job b c n decl hooks).Closed p := by
  have hbuilt : (a.scene.build (a.request job b c n) (.screen job.screen) decl).Closed p := h.build hr
  exact (hbuilt.quiet (.foldl (fun s hook => .addLoadHook s _ hook) hooks _)).quiet (.hold _ _ _)

/-- A step of an initialization leaves a part closed. What it attaches to something of the part belongs to
the part, because the graph of the screen does or because what does not is closed as well. -/
theorem Closed.effect {job : Job} {screen : Screen} {e : JobEffect} (h : a.scene.Closed p)
    (he : job.effect? a screen = some e) (hserved : job.Served)
    (hgraph : ∀ g, job.stage.graph? = some g → g = .screen job.screen)
    (hbinder : p.owns (.screen job.screen) = true → p.binds job.binder = true)
    (hattach : job.stage.attaching = true → p.owns (.screen job.screen) = true ∨ a.scene.Closed p.rest) :
    e.scene.Closed p := by
  -- What a graph outside of the part is attached to is outside of it too.
  have outside : ∀ {graph : Graph}, job.stage.attaching = true → a.scene.graphs.get? (.screen job.screen) = some graph →
      (p.binds graph.binder = true → p.owns (.screen job.screen) = true) ∧
        (p.owns graph.tasks = true → p.owns (.screen job.screen) = true) := by
    intro graph hstage hknown
    rcases hattach hstage with hown | hrest
    · exact ⟨fun _ => hown, fun _ => hown⟩
    · cases hown : p.owns (.screen job.screen) with
      | true => exact ⟨fun _ => rfl, fun _ => rfl⟩
      | false =>
        have hservices := hrest.graph _ graph (by simp [Part.rest, hown]) hknown
        simp only [Part.rest, Bool.not_eq_true'] at hservices
        obtain ⟨hb, hc, -⟩ := hservices
        rw [hb, hc]
        exact ⟨id, id⟩
  cases Job.turn_of_effect he with
  | giveUp | begin | fail | keep | letGo | release => exact h
  | call =>
    rw [App.callParser_eq]
    exact (h.serve job).emit _
  | build decl hooks hstage =>
    obtain ⟨rfl, rfl, rfl⟩ := hserved _ _ _ hstage
    exact h.builtScene (fun hown => ⟨hbinder hown, hown, hown⟩) decl hooks
  | discard | forget => exact h.quiet (.release _ _ _)
  | attach hstage hknown =>
    obtain rfl := hgraph _ (by rw [hstage]; rfl)
    exact h.attach (outside (by rw [hstage]; rfl) hknown).2
  | addView hstage hknown =>
    obtain rfl := hgraph _ (by rw [hstage]; rfl)
    exact h.addView (outside (by rw [hstage]; rfl) hknown).1
  | publish => exact (h.quiet (.hold _ _ _)).quiet (.release _ _ _)
  | callBack _ hcalled =>
    rcases hcalled with rfl | ⟨line, rfl⟩
    · exact h
    · exact h.emit _

/-- A move that is no step of an initialization makes and attaches nothing. -/
theorem Quiet.step {m : Move} (hm : a.step? m = some a') (hwork : ∀ i, m ≠ .work i) : Quiet a.scene a'.scene := by
  cases m with
  | work i => exact absurd rfl (hwork i)
  | addScreen | openGate =>
    cases hm
    exact .refl _
  | prepare i markup options =>
    cases hm
    unfold App.prepare
    split
    · exact .refl _
    · split <;> exact .refl _
  | load c r =>
    obtain ⟨-, rfl⟩ := App.addCall?_eq_some hm
    exact .refl _
  | resume c =>
    obtain ⟨call, screen, stage, flag, -, -, -, rfl⟩ := App.resume?_eq_some hm
    exact .act call _
  | expire c =>
    obtain ⟨r, -, rfl⟩ := App.expire?_eq_some hm
    exact .refl _
  | take i =>
    obtain ⟨job, rest, -, -, rfl⟩ := App.takeJob?_eq_some hm
    exact .refl _
  | discard i =>
    obtain ⟨-, rfl⟩ := App.discardJob?_eq_some hm
    exact .refl _
  | drop i =>
    cases hm
    cases hs : a.screens.get? i with
    | none =>
      simp only [App.dropScreen, hs]
      exact .refl _
    | some screen =>
      rw [App.dropScreen_eq hs]
      dsimp only
      split
      · exact .release _ _ _
      · exact .refl _
  | present t i value =>
    cases hm
    unfold App.present
    split
    · exact .refl _
    · split
      · exact .refl _
      · split
        · exact .notify _ t _ _ _
        · exact .refl _
  | update t b key value =>
    cases hm
    exact .of_leads (leads_update _ t b key value)
  | perform t g node =>
    cases hm
    exact .performAction _ t g node
  | animate t g node =>
    cases hm
    exact .of_leads (leads_startAnimation _ t g node)
  | addLoadHook g hook =>
    cases hm
    exact .addLoadHook _ g hook
  | poll q t =>
    cases hm
    exact .of_leads (leads_poll _ q t)

/-- A move is a step of an initialization, or it makes and attaches nothing. -/
theorem quiet_step {m : Move} (hm : a.step? m = some a') :
    (∃ job screen e, m = .work job.screen ∧ job ∈ a.jobs job.screen ∧ a.screens.get? job.screen = some screen ∧
      job.effect? a screen = some e ∧ a'.scene = e.scene) ∨ Quiet a.scene a'.scene := by
  by_cases hwork : ∃ i, m = .work i
  · obtain ⟨i, rfl⟩ := hwork
    obtain ⟨k, job, screen, e, hk, rfl, hs, he, rfl⟩ := App.work?_eq_some hm
    exact .inl ⟨job, screen, e, rfl, App.mem_jobs_of_busy hk, hs, he, rfl⟩
  · exact .inr (.step hm (not_exists.1 hwork))

/-- Every move leaves a part closed that has the binders of its screens. -/
theorem Closed.step (h : a.scene.Closed p) (hhome : a.AtHome) (hp : p.Houses a) {m : Move} (hm : a.step? m = some a')
    (hattach : ∀ i, m = .work i → ∀ job ∈ a.jobs i, job.stage.attaching = true →
      p.owns (.screen i) = true ∨ a.scene.Closed p.rest) : a'.scene.Closed p := by
  rcases quiet_step hm with ⟨job, screen, e, hwork, hjob, -, he, hscene⟩ | hquiet
  · rw [hscene]
    exact h.effect he (hhome.served _ job hjob) (hhome.graph _ job hjob) (hp _ · job hjob) (hattach _ hwork job hjob)
  · exact h.quiet hquiet

end Scene

end LiveScreen
