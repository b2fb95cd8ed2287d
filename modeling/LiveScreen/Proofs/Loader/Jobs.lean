/-
What initialization keeps of a screen: it has at most one job, none before
somebody asks for it and none after the screen was released, and the graph that
the job or the screen knows is the screen's own (`Prepared`). This holds in all
runs of an application in which nothing has begun yet (`prepared_of_run`).
-/
import LiveScreen.Proofs.Loader.Calls
import Mathlib.Data.List.Induction

namespace LiveScreen

/-- The graph that a stage of an initialization is about. -/
def JobStage.graph? : JobStage → Option GraphId
  | .parsed g | .attach g | .addView g | .publish g => some g
  | _ => none

namespace Workers

variable {α : Type}

/-- The jobs that wait and those that run. -/
def all (w : Workers α) : List α := w.waiting ++ w.busy

/-- The jobs around one that runs stay when it is replaced or leaves. -/
theorem all_around {w : Workers α} {k : Nat} {job : α} (h : w.busy[k]? = some job) :
    ∃ A B, w.all = A ++ job :: B ∧ (∀ job', (w.update k job').all = A ++ job' :: B) ∧
      (w.retire k).all = A ++ B := by
  obtain ⟨threads, waiting, busy⟩ := w
  simp only [all, update, retire] at h ⊢
  obtain ⟨hk, rfl⟩ := List.getElem?_eq_some_iff.1 h
  refine ⟨waiting ++ busy.take k, busy.drop (k + 1), ?_, fun job' => ?_, ?_⟩
  · rw [List.append_assoc, List.getElem_cons_drop, List.take_append_drop]
  · rw [List.set_eq_take_append_cons_drop, if_pos hk, List.append_assoc]
  · rw [List.eraseIdx_eq_take_drop_succ, List.append_assoc]

end Workers

namespace App

/-! ## Runs -/

/-- An application in which no screen was made yet. -/
structure Fresh (a : App) : Prop where
  screens : a.screens = .empty
  calls : a.calls = .empty
  waiting : a.workers.waiting = []
  busy : a.workers.busy = []

theorem steps?_append : ∀ (xs ys : List Move) (a : App), a.steps? (xs ++ ys) = (a.steps? xs).bind (·.steps? ys)
  | [], _, _ => rfl
  | m :: xs, ys, a => by
    simp only [List.cons_append, steps?]
    cases a.step? m with
    | none => rfl
    | some a' => exact steps?_append xs ys a'

theorem steps?_concat (a : App) (ms : List Move) (m : Move) :
    a.steps? (ms ++ [m]) = (a.steps? ms).bind (·.step? m) := by
  rw [steps?_append]
  congr 1
  funext b
  exact Option.bind_fun_some (b.step? m)

/-- What holds at one point of a run and is kept by every later move holds at the end. -/
theorem run_induction_from {start b : App} {P : List Move → App → Prop} {before : List Move}
    (hbefore : start.steps? before = some b) (hnil : P before b)
    (hsnoc : ∀ ms a m a', start.steps? ms = some a → P ms a → a.step? m = some a' → P (ms ++ [m]) a')
    (ms : List Move) {a : App} (h : start.steps? (before ++ ms) = some a) : P (before ++ ms) a := by
  induction ms using List.reverseRecOn generalizing a with
  | nil =>
    rw [List.append_nil] at h ⊢
    cases hbefore.symm.trans h
    exact hnil
  | append_singleton ms m ih =>
    rw [← List.append_assoc, steps?_concat] at h
    obtain ⟨c, hc, hm⟩ := Option.bind_eq_some_iff.1 h
    rw [← List.append_assoc]
    exact hsnoc _ c m a hc (ih hc) hm

/-- What holds at the start and is kept by every move of a run holds after it. -/
theorem run_induction {start : App} {P : List Move → App → Prop} (hnil : P [] start)
    (hsnoc : ∀ ms a m a', start.steps? ms = some a → P ms a → a.step? m = some a' → P (ms ++ [m]) a')
    (ms : List Move) {a : App} (h : start.steps? ms = some a) : P ms a :=
  @run_induction_from start start P [] rfl hnil hsnoc ms a h

/-! ## The jobs of a screen -/

/-- The jobs of a screen that wait or run. -/
def jobs (a : App) (i : ScreenId) : List Job := a.workers.all.filter (·.isFor i)

variable {a a' : App} {i j : ScreenId}

theorem jobs_congr (h : a'.workers = a.workers) (i : ScreenId) : a'.jobs i = a.jobs i := by
  simp only [jobs, h]

theorem mem_jobs_of_busy {k : Nat} {job : Job} (hk : a.workers.busy[k]? = some job) : job ∈ a.jobs job.screen :=
  List.mem_filter.2 ⟨List.mem_append_right _ (List.mem_of_getElem? hk), by simp [Job.isFor]⟩

/-- A job that is taken only changes its place. -/
theorem jobs_take (h : a.takeJob? j = some a') (i : ScreenId) : (a'.jobs i).Perm (a.jobs i) := by
  obtain ⟨job, rest, hw, -, rfl⟩ := takeJob?_eq_some h
  simp only [jobs, Workers.all, hw]
  refine List.Perm.filter _ ?_
  rw [← List.append_assoc]
  exact List.perm_append_singleton job _

/-- Dropping the jobs of one screen that wait leaves those of the others. -/
theorem jobs_discard_other (h : a.discardJob? j = some a') (hi : j ≠ i) : a'.jobs i = a.jobs i := by
  obtain ⟨-, rfl⟩ := discardJob?_eq_some h
  simp only [jobs, Workers.all, List.filter_append, List.filter_filter]
  congr 1
  refine List.filter_congr fun job _ => ?_
  by_cases hj : job.screen = i
  · simp [Job.isFor, hj, Ne.symm hi]
  · simp [Job.isFor, hj]

/-- If the screen has only one job, dropping it leaves none. -/
theorem jobs_discard_self (h : a.discardJob? i = some a') {job : Job} (hjobs : a.jobs i = [job]) :
    a'.jobs i = [] := by
  obtain ⟨⟨job', hw, hi⟩, rfl⟩ := discardJob?_eq_some h
  have hlen : (a.workers.waiting.filter (·.isFor i)).length + (a.workers.busy.filter (·.isFor i)).length = 1 := by
    rw [← List.length_append, ← List.filter_append]
    exact congrArg List.length hjobs
  have hpos : 0 < (a.workers.waiting.filter (·.isFor i)).length :=
    List.length_pos_of_mem (List.mem_filter.2 ⟨hw, by simp [Job.isFor, hi]⟩)
  have hbusy : a.workers.busy.filter (·.isFor i) = [] := List.eq_nil_of_length_eq_zero (by omega)
  simp only [jobs, Workers.all, List.filter_append, List.filter_filter, hbusy, List.append_nil]
  exact List.filter_eq_nil_iff.2 fun job _ => by simp

/-- A step of the job of one screen leaves the jobs of the others. -/
theorem jobs_work_other (h : a.work? j = some a') (hi : j ≠ i) : a'.jobs i = a.jobs i := by
  obtain ⟨k, job, screen, e, hk, hj, -, -, rfl⟩ := work?_eq_some h
  obtain ⟨A, B, hall, hupdate, hretire⟩ := Workers.all_around hk
  have hne : ¬ job.screen = i := by rw [hj]; exact hi
  simp only [jobs, hall]
  split
  · simp [hretire, Job.isFor, hne]
  · simp [hupdate, Job.isFor, hne]

theorem jobs_ne_nil_of_work (h : a.work? i = some a') : a.jobs i ≠ [] := by
  obtain ⟨k, job, screen, e, hk, hj, -⟩ := work?_eq_some h
  obtain ⟨A, B, hall, -⟩ := Workers.all_around hk
  intro hnil
  simp [App.jobs, hall, Job.isFor, hj] at hnil

/-- If a screen has only one job, that is the one that makes a step. -/
theorem jobs_work_self (h : a.work? i = some a') {job : Job} (hjobs : a.jobs i = [job]) :
    ∃ screen e, job.screen = i ∧ a.screens.get? i = some screen ∧ job.effect? a screen = some e ∧
      a'.screens = a.screens.modify i (fun _ => e.screen) ∧ a'.scene = e.scene ∧
        a'.jobs i = if e.stage = .ended then [] else [{ job with stage := e.stage }] := by
  obtain ⟨k, job', screen, e, hk, hj, hs, he, rfl⟩ := work?_eq_some h
  obtain ⟨A, B, hall, hupdate, hretire⟩ := Workers.all_around hk
  simp only [jobs, hall, List.filter_append, List.filter_cons, Job.isFor, hj, decide_true, if_true] at hjobs
  obtain ⟨hA, hrest⟩ : A.filter (·.isFor i) = [] ∧ job' :: B.filter (·.isFor i) = [job] := by
    rw [List.append_eq_singleton_iff] at hjobs
    rcases hjobs with hjobs | ⟨-, hnil⟩
    · exact hjobs
    · cases hnil
  obtain ⟨rfl, hB⟩ := List.cons.inj hrest
  refine ⟨screen, e, hj, hs, he, rfl, rfl, ?_⟩
  simp only [jobs]
  split
  · simp only [hretire, List.filter_append, hA, hB]
    rfl
  · simp only [hupdate, List.filter_append, List.filter_cons, hA, hB]
    simp [Job.isFor, hj]

/-! ## Graphs stay -/

/-- What lasts of a graph is the same after a step of an initialization, or the step builds a graph. -/
theorem same_effect {β : Type} {p : Graph → β} (hp : Graph.Lasting p) {job : Job} {screen : Screen} {e : JobEffect}
    (h : job.effect? a screen = some e) :
    (∃ b c n decl, e.stage = .parsed (.screen job.screen) ∧
        e.scene = a.builtScene job b c n decl (a.markup job.markup).hooks) ∨
      ((∀ g, e.stage ≠ .parsed g) ∧ Scene.Same p a.scene e.scene) := by
  cases Job.turn_of_effect h with
  | @build b c n tokens decl hooks _ hhooks => exact .inl ⟨b, c, n, decl, rfl, by rw [hhooks]⟩
  | call =>
    refine .inr ⟨nofun, .of_graphs ?_⟩
    unfold callParser
    cases job.options.binder <;> rfl
  | discard | forget => exact .inr ⟨nofun, .release hp _ _ _⟩
  | addView => exact .inr ⟨nofun, .addView hp _ _ _⟩
  | publish => exact .inr ⟨nofun, (Scene.Same.hold hp _ _ _).trans (.release hp _ _ _)⟩
  | callBack _ hcalled =>
    refine .inr ⟨nofun, .of_graphs ?_⟩
    rcases hcalled with rfl | ⟨line, rfl⟩ <;> rfl
  | _ => exact .inr ⟨nofun, .of_graphs rfl⟩

/-- The mounts after the parser of a screen has built its graph. -/
theorem mount?_builtScene (a : App) (job : Job) (b c n : Owner) (decl : GraphDecl) (hooks : List LoadHook)
    (g : GraphId) :
    (a.builtScene job b c n decl hooks).mount? g = if g = .screen job.screen then some .none else a.scene.mount? g := by
  unfold builtScene
  rw [(Scene.Same.hold Graph.lasting_mount _ _ _).mounts g,
    Scene.SameMounts.foldl (fun s hook => Scene.sameMounts_addLoadHook s _ hook) hooks _ g, Scene.mount?_build]

/-- A step of an initialization builds the graph of its screen, or changes no mount. -/
theorem mount?_effect {job : Job} {screen : Screen} {e : JobEffect} (h : job.effect? a screen = some e) :
    (e.stage = .parsed (.screen job.screen) ∧
        ∀ g, e.scene.mount? g = if g = .screen job.screen then some .none else a.scene.mount? g) ∨
      ((∀ g, e.stage ≠ .parsed g) ∧ Scene.SameMounts a.scene e.scene) := by
  rcases same_effect Graph.lasting_mount h with ⟨b, c, n, decl, hstage, hscene⟩ | ⟨hnot, hsame⟩
  · exact .inl ⟨hstage, fun g => by rw [hscene, mount?_builtScene]⟩
  · exact .inr ⟨hnot, hsame.mounts⟩

/-- What lasts of a graph is the same after a move, or a graph was built, or a call went on, or a load hook was
registered. -/
theorem same_step {m : Move} (h : a.step? m = some a') :
    (∀ {β : Type} {p : Graph → β}, Graph.Lasting p → Scene.Same p a.scene a'.scene) ∨
      (∃ job b c n decl, m = .work job.screen ∧ job ∈ a.jobs job.screen ∧
        a'.scene = a.builtScene job b c n decl (a.markup job.markup).hooks) ∨
        (∃ c call, m = .resume c ∧ a.calls.get? c = some call ∧ a'.scene = call.act a.scene) ∨
          ∃ g hook, m = .addLoadHook g hook ∧ a'.scene = a.scene.addLoadHook g hook := by
  cases m with
  | addScreen | openGate =>
    cases h
    exact .inl fun _ => .refl _
  | prepare i markup options =>
    cases h
    refine .inl fun _ => .of_graphs ?_
    unfold prepare
    split
    · rfl
    · split <;> rfl
  | load c r =>
    obtain ⟨-, rfl⟩ := addCall?_eq_some h
    exact .inl fun _ => .refl _
  | resume c =>
    obtain ⟨call, screen, stage, flag, hc, -, -, rfl⟩ := resume?_eq_some h
    exact .inr (.inr (.inl ⟨c, call, rfl, hc, rfl⟩))
  | expire c =>
    obtain ⟨r, -, rfl⟩ := expire?_eq_some h
    exact .inl fun _ => .refl _
  | take i =>
    obtain ⟨job, rest, -, -, rfl⟩ := takeJob?_eq_some h
    exact .inl fun _ => .refl _
  | work i =>
    obtain ⟨k, job, screen, e, hk, rfl, -, he, rfl⟩ := work?_eq_some h
    by_cases hbuilt : ∃ g, e.stage = .parsed g
    · rcases same_effect Graph.lasting_mount he with ⟨b, c, n, decl, -, hscene⟩ | ⟨hnot, -⟩
      · exact .inr (.inl ⟨job, b, c, n, decl, rfl, mem_jobs_of_busy hk, hscene⟩)
      · obtain ⟨g, hg⟩ := hbuilt
        exact absurd hg (hnot g)
    · refine .inl fun hp => ?_
      rcases same_effect hp he with ⟨b, c, n, decl, hstage, -⟩ | ⟨-, hsame⟩
      · exact absurd ⟨_, hstage⟩ hbuilt
      · exact hsame
  | discard i =>
    obtain ⟨-, rfl⟩ := discardJob?_eq_some h
    exact .inl fun _ => .refl _
  | drop i =>
    cases h
    refine .inl fun hp => ?_
    cases hs : a.screens.get? i with
    | none =>
      simp only [dropScreen, hs]
      exact .refl _
    | some screen =>
      rw [dropScreen_eq hs]
      dsimp only
      split
      · exact .release hp _ _ _
      · exact .refl _
  | present t i value =>
    cases h
    refine .inl fun hp => ?_
    unfold present
    split
    · exact .refl _
    · split
      · exact .refl _
      · split
        · exact .notify hp a.scene t _ _ _
        · exact .refl _
  | update t b key value =>
    cases h
    exact .inl fun hp => .of_leads hp (Scene.leads_update a.scene t b key value)
  | perform t g node =>
    cases h
    exact .inl fun hp => .performAction hp a.scene t g node
  | animate t g node =>
    cases h
    exact .inl fun hp => .of_leads hp (Scene.leads_startAnimation a.scene t g node)
  | addLoadHook g hook =>
    cases h
    exact .inr (.inr (.inr ⟨g, hook, rfl, rfl⟩))
  | poll q t =>
    cases h
    exact .inl fun hp => .of_leads hp (Scene.leads_poll a.scene q t)

/-- What a move does to what was pushed into a graph. -/
theorem mount?_step {m : Move} (h : a.step? m = some a') (g : GraphId) :
    a'.scene.mount? g = a.scene.mount? g ∨
      (∃ i, m = .work i ∧ g = .screen i ∧ a'.scene.mount? g = some .none) ∨
        ∃ c call, m = .resume c ∧ a.calls.get? c = some call ∧ a'.scene = call.act a.scene := by
  rcases same_step h with hsame | ⟨job, b, c, n, decl, rfl, -, hscene⟩ | hcall | ⟨g', hook, -, hscene⟩
  · exact .inl (hsame Graph.lasting_mount g)
  · have hmount := mount?_builtScene a job b c n decl (a.markup job.markup).hooks g
    rw [← hscene] at hmount
    by_cases hg : g = .screen job.screen
    · exact .inr (.inl ⟨job.screen, rfl, hg, by rw [hmount, if_pos hg]⟩)
    · exact .inl (by rw [hmount, if_neg hg])
  · exact .inr (.inr hcall)
  · exact .inl (by rw [hscene, Scene.sameMounts_addLoadHook])

/-- A graph that was built stays. -/
theorem isSome_mount?_step {m : Move} (h : a.step? m = some a') {g : GraphId}
    (hg : (a.scene.mount? g).isSome = true) : (a'.scene.mount? g).isSome = true := by
  rcases mount?_step h g with hsame | ⟨-, -, -, hnew⟩ | ⟨c, call, -, -, hact⟩
  · rw [hsame, hg]
  · rw [hnew]; rfl
  · rw [hact, LoadCall.mount?_act]
    split
    · split
      · rename_i he; subst he; simpa using hg
      · exact hg
    · split
      · rename_i he; subst he; simpa using hg
      · exact hg
    · exact hg

/-! ## What initialization keeps -/

/-- What a step of an initialization does to its screen, and which graph it then is about. -/
theorem record_effect {job : Job} {screen : Screen} {e : JobEffect} (h : job.effect? a screen = some e) :
    e.screen.calledInitialize = screen.calledInitialize ∧
      (e.stage ≠ .ended → e.screen.released = screen.released) ∧
        (∀ g, e.screen.view = some g → screen.view = some g ∨ job.stage.graph? = some g) ∧
          ∀ g, e.stage.graph? = some g → job.stage.graph? = some g ∨ e.stage = .parsed g := by
  cases Job.turn_of_effect h with
  | call | giveUp | begin | fail | discard | letGo | callBack => exact ⟨rfl, fun _ => rfl, fun g hg => .inl hg, nofun⟩
  | build =>
    refine ⟨rfl, fun _ => rfl, fun g hg => .inl hg, fun g hg => .inr ?_⟩
    cases hg
    rfl
  | keep hstage | attach hstage | addView hstage =>
    exact ⟨rfl, fun _ => rfl, fun g hg => .inl hg, fun g hg => .inl (by rw [hstage]; exact hg)⟩
  | publish hstage => exact ⟨rfl, fun _ => rfl, fun g hg => .inr (by rw [hstage]; exact hg), nofun⟩
  | forget => exact ⟨rfl, fun _ => rfl, nofun, nofun⟩
  | release => exact ⟨rfl, fun hne => absurd rfl hne, fun g hg => .inl hg, nofun⟩

/-- A graph, if there is one, is the one of a screen, and was built. -/
def Owns (a : App) (i : ScreenId) (graph? : Option GraphId) : Prop :=
  ∀ g, graph? = some g → g = .screen i ∧ (a.scene.mount? g).isSome = true

/-- What initialization keeps of a screen. -/
structure Prepared (i : ScreenId) (a : App) : Prop where
  idle : (a.screen i).calledInitialize = false → a.jobs i = [] ∧ (a.screen i).released = false
  jobs : a.jobs i = [] ∨ ∃ job, a.jobs i = [job] ∧ (a.screen i).released = false ∧ a.Owns i job.stage.graph?
  view : a.Owns i (a.screen i).view

theorem Prepared.initialized (hp : Prepared i a) (hr : (a.screen i).released = true) :
    (a.screen i).calledInitialize = true := by
  cases hi : (a.screen i).calledInitialize with
  | true => rfl
  | false =>
    rw [(hp.idle hi).2] at hr
    cases hr

theorem Owns.step {m : Move} (h : a.step? m = some a') {graph? : Option GraphId} (ho : a.Owns i graph?) :
    a'.Owns i graph? :=
  fun g hg => ⟨(ho g hg).1, isSome_mount?_step h (ho g hg).2⟩

/-- What a move leaves of a screen, unless it is a step of its job: the view is not set and only taken
away by who lets go of the screen, the screen stays released, only dropping its job releases it, and
only `prepare` asks for its initialization. -/
theorem record_step {m : Move} (h : a.step? m = some a') (hm : m ≠ .work i) :
    ((a'.screen i).view = (a.screen i).view ∨ m = .drop i ∧ (a'.screen i).view = none) ∧
      (m ≠ .discard i → (a'.screen i).released = (a.screen i).released) ∧
        ((a.screen i).released = true → (a'.screen i).released = true) ∧
          ((∀ markup options, m ≠ .prepare i markup options) →
            (a'.screen i).calledInitialize = (a.screen i).calledInitialize) := by
  have same : ∀ {b : App}, b.screen i = a.screen i →
      ((b.screen i).view = (a.screen i).view ∨ m = .drop i ∧ (b.screen i).view = none) ∧
        (m ≠ .discard i → (b.screen i).released = (a.screen i).released) ∧
          ((a.screen i).released = true → (b.screen i).released = true) ∧
            ((∀ markup options, m ≠ .prepare i markup options) →
              (b.screen i).calledInitialize = (a.screen i).calledInitialize) := by
    intro b hb
    rw [hb]
    exact ⟨.inl rfl, fun _ => rfl, id, fun _ => rfl⟩
  cases m with
  | addScreen =>
    cases h
    exact same (screen_addScreen a i)
  | prepare j markup options =>
    cases h
    cases hs : a.screens.get? j with
    | none => exact same (by simp [App.prepare, hs])
    | some screen =>
      cases hi : screen.calledInitialize with
      | true => exact same (by simp [App.prepare, hs, hi])
      | false =>
        have hscreens : (a.prepare j markup options).screens =
            a.screens.modify j fun s => { s with calledInitialize := true } := by rw [prepare_eq hs hi]
        have hview := screen_modify_proj (·.view) hscreens (fun _ _ => rfl) i
        have hrel := screen_modify_proj (·.released) hscreens (fun _ _ => rfl) i
        refine ⟨.inl hview, fun _ => hrel, fun hr => hrel.trans hr, fun hno => ?_⟩
        refine congrArg _ (screen_modify_other _ hscreens ?_)
        rintro rfl
        exact hno markup options rfl
  | load c r =>
    obtain ⟨-, rfl⟩ := addCall?_eq_some h
    exact same rfl
  | expire c =>
    obtain ⟨r, -, rfl⟩ := expire?_eq_some h
    exact same rfl
  | resume c =>
    obtain ⟨call, screen, stage, flag, -, -, -, ha⟩ := resume?_eq_some h
    cases flag with
    | none => exact same (screen_congr (by rw [ha]; rfl) i)
    | some b =>
      have hscreens : a'.screens = a.screens.modify c.screen fun s => { s with calledLoad := b } := by
        rw [ha]
        rfl
      have hview := screen_modify_proj (·.view) hscreens (fun _ _ => rfl) i
      have hrel := screen_modify_proj (·.released) hscreens (fun _ _ => rfl) i
      exact ⟨.inl hview, fun _ => hrel, fun hr => hrel.trans hr,
        fun _ => screen_modify_proj (·.calledInitialize) hscreens (fun _ _ => rfl) i⟩
  | take j =>
    obtain ⟨job, rest, -, -, rfl⟩ := takeJob?_eq_some h
    exact same rfl
  | work j =>
    obtain ⟨k, job, screen, e, -, -, -, -, rfl⟩ := work?_eq_some h
    refine same (screen_modify_other _ rfl ?_)
    rintro rfl
    exact hm rfl
  | discard j =>
    have hscreens : a'.screens = a.screens.modify j fun s => { s with released := true } := by
      obtain ⟨-, rfl⟩ := discardJob?_eq_some h
      rfl
    by_cases hj : j = i
    · subst hj
      have hview := screen_modify_proj (·.view) hscreens (fun _ _ => rfl) j
      refine ⟨.inl hview, fun hne => absurd rfl hne, fun hr => ?_,
        fun _ => screen_modify_proj (·.calledInitialize) hscreens (fun _ _ => rfl) j⟩
      cases hs : a.screens.get? j with
      | none =>
        rw [App.screen, hs] at hr
        cases hr
      | some screen => rw [screen_modify_self hs _ hscreens]
    · exact same (screen_modify_other _ hscreens hj)
  | drop j =>
    cases h
    cases hs : a.screens.get? j with
    | none => exact same (by simp [dropScreen, hs])
    | some screen =>
      have hscreens : (a.dropScreen j).screens = a.screens.modify j fun _ =>
          { screen with dropped := true, view := if screen.pinned then screen.view else none } := by
        rw [dropScreen_eq hs]
      by_cases hj : j = i
      · subst hj
        rw [screen_modify_self hs _ hscreens, screen_eq hs]
        refine ⟨?_, fun _ => rfl, id, fun _ => rfl⟩
        cases screen.pinned with
        | true => exact .inl rfl
        | false => exact .inr ⟨rfl, rfl⟩
      · exact same (screen_modify_other _ hscreens hj)
  | openGate | update | perform | animate | addLoadHook | poll =>
    cases h
    exact same rfl
  | present t j value =>
    cases h
    exact same (screen_congr (by rw [present_eq]) i)

/-- Only the job of a screen sets its view. -/
theorem view_of_step {m : Move} (h : a.step? m = some a') (hm : m ≠ .work i) (g : GraphId)
    (hg : (a'.screen i).view = some g) : (a.screen i).view = some g := by
  rcases (record_step h hm).1 with hsame | ⟨-, hnone⟩
  · rw [← hsame, hg]
  · rw [hnone] at hg
    cases hg

/-- A move leaves the jobs of a screen, up to their places, unless it is one of three. -/
theorem jobs_step {m : Move} (h : a.step? m = some a') (hwork : m ≠ .work i) (hdiscard : m ≠ .discard i)
    (hprepare : ∀ markup options, m ≠ .prepare i markup options) : (a'.jobs i).Perm (a.jobs i) := by
  have same : ∀ {b : App}, b.workers = a.workers → (b.jobs i).Perm (a.jobs i) := fun hb => .of_eq (jobs_congr hb i)
  cases m with
  | addScreen | openGate | update | perform | animate | addLoadHook | poll =>
    cases h
    exact same rfl
  | prepare j markup options =>
    cases h
    cases hs : a.screens.get? j with
    | none => exact same (by simp [App.prepare, hs])
    | some screen =>
      cases hi : screen.calledInitialize with
      | true => exact same (by simp [App.prepare, hs, hi])
      | false =>
        have hj : j ≠ i := by
          rintro rfl
          exact hprepare markup options rfl
        refine .of_eq ?_
        rw [prepare_eq hs hi]
        simp [App.jobs, Workers.all, Workers.submit, Job.isFor, hj]
  | load c r =>
    obtain ⟨-, rfl⟩ := addCall?_eq_some h
    exact same rfl
  | expire c =>
    obtain ⟨r, -, rfl⟩ := expire?_eq_some h
    exact same rfl
  | resume c =>
    obtain ⟨call, screen, stage, flag, -, -, -, rfl⟩ := resume?_eq_some h
    exact same rfl
  | take j => exact jobs_take h i
  | work j =>
    refine .of_eq (jobs_work_other h ?_)
    rintro rfl
    exact hwork rfl
  | discard j =>
    refine .of_eq (jobs_discard_other h ?_)
    rintro rfl
    exact hdiscard rfl
  | drop j =>
    cases h
    cases hs : a.screens.get? j with
    | none => exact same (by simp [dropScreen, hs])
    | some screen => exact same (by rw [dropScreen_eq hs])
  | present t j value =>
    cases h
    exact same (by rw [present_eq])

/-- Moves that change neither the jobs of a screen nor anything of the screen but its flag. -/
theorem Prepared.congr {m : Move} (hp : Prepared i a) (h : a.step? m = some a')
    (hjobs : (a'.jobs i).Perm (a.jobs i))
    (hinit : (a'.screen i).calledInitialize = (a.screen i).calledInitialize)
    (hrel : (a'.screen i).released = (a.screen i).released)
    (hview : ∀ g, (a'.screen i).view = some g → (a.screen i).view = some g) : Prepared i a' := by
  refine ⟨fun hi => ?_, ?_, fun g hg => hp.view.step h g (hview g hg)⟩
  · rw [hinit] at hi
    obtain ⟨hnil, hr⟩ := hp.idle hi
    rw [hnil] at hjobs
    exact ⟨hjobs.eq_nil, by rw [hrel, hr]⟩
  · rcases hp.jobs with hnil | ⟨job, hone, hr, ho⟩
    · rw [hnil] at hjobs
      exact .inl hjobs.eq_nil
    · rw [hone] at hjobs
      exact .inr ⟨job, List.perm_singleton.1 hjobs, by rw [hrel, hr], ho.step h⟩

/-- The first call of `prepare` queues a job. -/
theorem jobs_prepare (markup : String) (options : InitOptions) {screen : Screen}
    (hs : a.screens.get? i = some screen) (hi : screen.calledInitialize = false) (hnil : a.jobs i = []) :
    (a.prepare i markup options).jobs i = [⟨i, markup, options, .start⟩] := by
  simp only [App.jobs, Workers.all, List.filter_append, List.append_eq_nil_iff] at hnil
  simp only [prepare_eq hs hi markup options, App.jobs, Workers.all, Workers.submit, List.filter_append, hnil]
  simp [Job.isFor]

theorem Prepared.prepare (hp : Prepared i a) (markup : String) (options : InitOptions) {screen : Screen}
    (hs : a.screens.get? i = some screen) (hi : screen.calledInitialize = false) :
    Prepared i (a.prepare i markup options) := by
  have hself := screen_eq hs
  obtain ⟨hnil, hr⟩ := hp.idle (by rw [hself, hi])
  have heq := prepare_eq hs hi markup options
  have hscreen : (a.prepare i markup options).screen i = { screen with calledInitialize := true } := by
    rw [heq]
    exact screen_modify_self hs (fun s => { s with calledInitialize := true }) rfl
  refine ⟨fun hinit => ?_, .inr ⟨_, jobs_prepare markup options hs hi hnil, ?_, nofun⟩, ?_⟩
  · rw [hscreen] at hinit
    cases hinit
  · rw [hscreen, ← hr, hself]
  · rw [hscreen, heq]
    have hview := hp.view
    rw [hself] at hview
    exact hview

/-- One step of the job of a screen. -/
theorem Prepared.work (hp : Prepared i a) (h : a.work? i = some a') : Prepared i a' := by
  have hstep : a.step? (.work i) = some a' := h
  rcases hp.jobs with hnil | ⟨job, hone, hr, ho⟩
  · exact absurd hnil (jobs_ne_nil_of_work h)
  · obtain ⟨screen, e, rfl, hs, he, hscreens, hscene, hjobs⟩ := jobs_work_self h hone
    obtain ⟨hinit, hrel, hview, hgraph⟩ := record_effect he
    have hself := screen_eq hs
    have hself' : a'.screen job.screen = e.screen := screen_modify_self hs _ hscreens
    rw [hself] at hr
    have hcalled : screen.calledInitialize = true := by
      cases hc : screen.calledInitialize with
      | true => rfl
      | false =>
        obtain ⟨hnil, -⟩ := hp.idle (by rw [hself, hc])
        rw [hone] at hnil
        cases hnil
    refine ⟨fun hidle => ?_, ?_, fun g hg => ?_⟩
    · rw [hself', hinit, hcalled] at hidle
      cases hidle
    · rw [hjobs]
      by_cases hend : e.stage = .ended
      · exact .inl (if_pos hend)
      · refine .inr ⟨_, if_neg hend, by rw [hself', hrel hend, hr], fun g hg => ?_⟩
        rcases hgraph g hg with hold | hnew
        · exact ho.step hstep g hold
        · rcases mount?_effect he with ⟨hstage, hbuilt⟩ | ⟨hnot, -⟩
          · obtain rfl : g = .screen job.screen := by
              rw [hnew] at hstage
              exact JobStage.parsed.inj hstage
            exact ⟨rfl, by rw [hscene, hbuilt, if_pos rfl]; rfl⟩
          · exact absurd hnew (hnot g)
    · rw [hself'] at hg
      rcases hview g hg with hold | hnew
      · exact hp.view.step hstep g (by rw [hself, hold])
      · exact ho.step hstep g hnew

/-- The job of a screen is dropped while it waits. -/
theorem Prepared.discard (hp : Prepared i a) (h : a.discardJob? i = some a')
    (hinit : (a'.screen i).calledInitialize = (a.screen i).calledInitialize)
    (hview : ∀ g, (a'.screen i).view = some g → (a.screen i).view = some g) : Prepared i a' := by
  have hstep : a.step? (.discard i) = some a' := h
  rcases hp.jobs with hnil | ⟨job, hone, -, -⟩
  · obtain ⟨⟨job, hw, hi⟩, -⟩ := discardJob?_eq_some h
    have hmem : job ∈ a.jobs i := by simp [App.jobs, Workers.all, hw, Job.isFor, hi]
    rw [hnil] at hmem
    cases hmem
  · refine ⟨fun hidle => ?_, .inl (jobs_discard_self h hone), fun g hg => hp.view.step hstep g (hview g hg)⟩
    rw [hinit] at hidle
    rw [(hp.idle hidle).1] at hone
    cases hone

/-- Every move keeps what initialization keeps. -/
theorem Prepared.step (hp : Prepared i a) {m : Move} (h : a.step? m = some a') : Prepared i a' := by
  by_cases hwork : m = .work i
  · subst hwork
    exact hp.work h
  · obtain ⟨-, hrel, -, hinit⟩ := record_step h hwork
    have hview := view_of_step h hwork
    by_cases hdiscard : m = .discard i
    · subst hdiscard
      exact hp.discard h (hinit nofun) hview
    · by_cases hprepare : ∃ markup options, m = .prepare i markup options
      · obtain ⟨markup, options, rfl⟩ := hprepare
        have hstep := h
        cases h
        cases hs : a.screens.get? i with
        | none => simpa [App.prepare, hs] using hp
        | some screen =>
          cases hi : screen.calledInitialize with
          | true => simpa [App.prepare, hs, hi] using hp
          | false => exact hp.prepare markup options hs hi
      · have hno : ∀ markup options, m ≠ .prepare i markup options := fun _ _ he => hprepare ⟨_, _, he⟩
        exact hp.congr h (jobs_step h hwork hdiscard hno) (hinit hno) (hrel hdiscard) hview

theorem Fresh.screen (h : a.Fresh) (i : ScreenId) : a.screen i = .new := by
  unfold App.screen
  rw [h.screens]
  rfl

theorem Fresh.jobs (h : a.Fresh) (i : ScreenId) : a.jobs i = [] := by
  simp [App.jobs, Workers.all, h.waiting, h.busy]

theorem Fresh.prepared (h : a.Fresh) (i : ScreenId) : Prepared i a := by
  have hscreen := h.screen i
  have hnil := h.jobs i
  refine ⟨fun _ => ⟨hnil, ?_⟩, .inl hnil, ?_⟩
  · rw [hscreen]
    rfl
  · rw [hscreen]
    nofun

/-- What initialization keeps holds in all runs. -/
theorem prepared_of_run {start : App} (hf : start.Fresh) (i : ScreenId) (ms : List Move) {a : App}
    (h : start.steps? ms = some a) : Prepared i a :=
  run_induction (P := fun _ a => Prepared i a) (hf.prepared i) (fun _ _ _ _ _ hp hstep => hp.step hstep) ms h

end App

end LiveScreen
