/-
What holds of a screen that is loaded by one call after the other: at most one
call is open; the graph a call works on is still the screen's view; and after a
call has answered with a graph the screen stays taken, with this view, and
nobody is going to give it back (`OneByOne`). The graph of a screen is marked as
loaded only by a call that has answered with it (`Unloaded`).
-/
import LiveScreen.Proofs.Loader.Histories

namespace LiveScreen.App

variable {start a a' : App} {i : ScreenId} {c : CallId} {done : List (CallId × LoadStage)}

theorem Reached.prepared (hr : Reached start a) (hf : start.Fresh) (i : ScreenId) : Prepared i a := by
  obtain ⟨ms, hms⟩ := hr
  exact prepared_of_run hf i ms hms

theorem Reached.locked (hr : Reached start a) (hf : start.Fresh) (i : ScreenId) : Locked i a := by
  obtain ⟨ms, hms⟩ := hr
  exact (recorded_of_run hf i ms hms).1

theorem Reached.awake (hr : Reached start a) (hf : start.Fresh) (i : ScreenId) : ∃ done, Awake i a done := by
  obtain ⟨ms, hms⟩ := hr
  exact ⟨_, (loading_of_run hf i ms hms).1⟩

/-- A screen that is released keeps its view until its host lets go of it. -/
theorem view_kept (hp : Prepared i a) {m : Move} (h : a.step? m = some a') (hm : m ≠ .drop i)
    (hr : (a.screen i).released = true) : (a'.screen i).view = (a.screen i).view := by
  by_cases hwork : m = .work i
  · subst hwork
    rcases hp.jobs with hnil | ⟨job, -, hfalse, -⟩
    · exact absurd hnil (jobs_ne_nil_of_work h)
    · rw [hr] at hfalse
      cases hfalse
  · rcases (record_step h hwork).1 with hsame | ⟨hdrop, -⟩
    · exact hsame
    · exact absurd hdrop hm

/-! ## One call after the other -/

theorem open_of_holds (h : a.Holds c) : a.Open c := by
  obtain ⟨call, hcall, hholds⟩ := h
  refine ⟨call, hcall, fun result hstage => ?_⟩
  rw [hstage] at hholds
  cases hholds

/-- An open call that does not hold its screen has not looked at it yet. -/
theorem check_of_not_holds {call : LoadCall} (hopen : a.Open c) (hcall : a.calls.get? c = some call)
    (hh : call.stage.holds ≠ true) : call.stage = .check := by
  obtain ⟨call', hcall', hnot⟩ := hopen
  obtain rfl : call = call' := Option.some.inj (hcall.symm.trans hcall')
  cases hstage : call.stage with
  | check => rfl
  | returned result => exact absurd hstage (hnot result)
  | _ =>
    rw [hstage] at hh
    exact absurd rfl hh

theorem open_insert {c' : CallId} {call : LoadCall} (h : a'.calls = a.calls.insert c call) :
    a'.Open c' ↔ if c' = c then ∀ result, call.stage ≠ .returned result else a.Open c' := by
  unfold Open
  rw [h]
  by_cases hc : c' = c
  · subst hc; simp
  · simp [hc, Table.get?_insert_other]

theorem awake_of_graph? {stage : LoadStage} {g : GraphId} (h : stage.graph? = some g) : stage.awake = true := by
  cases stage <;> first | rfl | cases h

/-- The screen stays as a call leaves it that has answered with a graph. -/
def LoadedWith (i : ScreenId) (g : GraphId) (a : App) : Prop :=
  (a.screen i).released = true ∧ (a.screen i).calledLoad = true ∧ (a.screen i).view = some g ∧
    ∀ c, c.screen = i → ¬ a.Holds c

/-- What is known of a screen that is loaded by one call after the other. -/
structure OneByOne (i : ScreenId) (a : App) : Prop where
  single : ∀ c c', c.screen = i → c'.screen = i → a.Open c → a.Open c' → c = c'
  found : ∀ c call g, c.screen = i → a.calls.get? c = some call → call.stage.graph? = some g →
    (a.screen i).view = some g
  loaded : ∀ c g, c.screen = i → a.result? c = some (.ok g) → LoadedWith i g a

/-- A move that changes one call. -/
theorem OneByOne.insert (ho : OneByOne i a) (hp : Prepared i a) (haw : Awake i a done) {m : Move}
    (h : a.step? m = some a') (hturn : a.InTurn i m) {call : LoadCall} (hcalls : a'.calls = a.calls.insert c call)
    (hsingle : ∀ c', c'.screen = i → a.Open c' → c' = c)
    (hfound : ∀ g, call.stage.graph? = some g → (a'.screen i).view = some g)
    (hkept : (∀ c', c'.screen = i → ¬ a.Holds c') → (a.screen i).calledLoad = true →
      (a'.screen i).calledLoad = true ∧ call.stage.holds = false)
    (hover : ∀ g, call.stage = .returned (.ok g) → LoadedWith i g a') : OneByOne i a' := by
  have hview := view_kept hp h hturn.kept
  refine ⟨fun c₁ c₂ hc₁ hc₂ hopen₁ hopen₂ => ?_, fun c' call' g hc' hcall' hg => ?_, fun c' g hc' hok => ?_⟩
  · have honly : ∀ c', c'.screen = i → a'.Open c' → c' = c := by
      intro c' hc' hopen
      rw [open_insert hcalls] at hopen
      split at hopen
      · assumption
      · exact hsingle c' hc' hopen
    rw [honly c₁ hc₁ hopen₁, honly c₂ hc₂ hopen₂]
  · rcases calls_insert_cases hcalls hcall' with ⟨-, rfl⟩ | ⟨-, hold⟩
    · exact hfound g hg
    · rw [hview (haw.stage c' call' hc' hold (awake_of_graph? hg)), ho.found c' call' g hc' hold hg]
  · obtain ⟨r, hcall'⟩ := result?_eq_some.1 hok
    rcases calls_insert_cases hcalls hcall' with ⟨-, rfl⟩ | ⟨-, hold⟩
    · exact hover g rfl
    · obtain ⟨hrel, htaken, hv, hnone⟩ := ho.loaded c' g hc' (result?_eq_some.2 ⟨r, hold⟩)
      obtain ⟨htaken', hholds⟩ := hkept hnone htaken
      refine ⟨(released_step hp h hrel).1, htaken', by rw [hview hrel, hv], fun c'' hc'' hh => ?_⟩
      rw [holds_insert hcalls] at hh
      split at hh
      · rw [hholds] at hh
        cases hh
      · exact hnone c'' hc'' hh

/-- Every move in turn keeps that calls come one after the other. -/
theorem OneByOne.step (ho : OneByOne i a) (hp : Prepared i a) (hl : Locked i a) (haw : Awake i a done) {m : Move}
    (h : a.step? m = some a') (hturn : a.InTurn i m) : OneByOne i a' := by
  have hview := view_kept hp h hturn.kept
  cases callMove_of_step h i with
  | elsewhere about calls flag =>
    refine ⟨fun c c' hc hc' hopen hopen' => ?_, fun c call g hc hcall hg => ?_, fun c g hc hok => ?_⟩
    · simp only [Open, calls c hc, calls c' hc'] at hopen hopen'
      exact ho.single c c' hc hc' hopen hopen'
    · rw [calls c hc] at hcall
      rw [hview (haw.stage c call hc hcall (awake_of_graph? hg)), ho.found c call g hc hcall hg]
    · simp only [result?, calls c hc] at hok
      obtain ⟨hrel, htaken, hv, hnone⟩ := ho.loaded c g hc hok
      refine ⟨(released_step hp h hrel).1, by rw [flag, htaken], by rw [hview hrel, hv], fun c' hc' hh => ?_⟩
      simp only [Holds, calls c' hc'] at hh
      exact hnone c' hc' hh
  | @load c r about fresh after =>
    refine ho.insert hp haw h hturn (by rw [after])
      (fun c' hc' hopen => absurd hopen (hturn.alone c r rfl about c' hc'))
      (fun g hg => ?_) (fun _ htaken => ⟨by rw [after]; exact htaken, rfl⟩) fun g hg => ?_
    · cases hg
    · cases hg
  | @expire c r about waits after =>
    have hholds : a.Holds c := ⟨_, waits, rfl⟩
    refine ho.insert hp haw h hturn (by rw [after])
      (fun c' hc' hopen => ho.single c' c hc' about hopen (open_of_holds hholds)) (fun g hg => ?_)
      (fun hnone _ => absurd hholds (hnone c about)) fun g hg => ?_
    · cases hg
    · cases hg
  | @resume c call stage flag about before known next after =>
    obtain ⟨hflag, hholds⟩ := holds_resume known after
    have hcalls : a'.calls = a.calls.insert c { call with stage } := by rw [after]
    have hturn' := LoadCall.turn_of_next next
    have hopen : a.Open c := by
      refine ⟨call, before, fun result hstage => ?_⟩
      simp only [LoadCall.next?, hstage] at next
      cases next
    have hself : (a'.screen i).view = (a.screen i).view := by
      rcases (record_step h (by rintro ⟨⟩)).1 with hsame | ⟨hdrop, -⟩
      · exact hsame
      · cases hdrop
    refine ho.insert hp haw h hturn hcalls (fun c' hc' hopen' => ho.single c' c hc' about hopen' hopen)
      (fun g hg => ?_) (fun hnone htaken => ?_) fun g hg => ?_
    · rw [hself]
      rcases hturn'.graph hg with hold | hv
      · exact ho.found c call g about before hold
      · exact hv
    · have hcheck : call.stage = .check :=
        check_of_not_holds hopen before fun hh => hnone c about ⟨call, before, hh⟩
      simp only [LoadCall.next?, hcheck, htaken, if_true] at next
      split at next
      · cases next
        exact ⟨by rw [hflag]; exact htaken, rfl⟩
      · cases next
        exact ⟨by rw [hflag]; exact htaken, rfl⟩
    · subst hg
      have hnone : ∀ c', c'.screen = i → ¬ a'.Holds c' := by
        intro c' hc' hh
        rw [hholds] at hh
        split at hh
        · cases hh
        · rename_i hne
          exact hne (ho.single c' c hc' about (open_of_holds hh) hopen)
      have hcase : (a.screen i).released = true ∧ (a.screen i).calledLoad = true ∧ (a.screen i).view = some g ∧
          flag = none := by
        rcases ok_of_next next with ⟨hcheck, htaken, hv, hflag⟩ | ⟨hrun, hflag⟩
        · refine ⟨?_, htaken, hv, hflag⟩
          rcases haw.reason htaken with ⟨c', hc', hh⟩ | hdone | ⟨hrel, -⟩
          · obtain rfl := ho.single c' c hc' about (open_of_holds hh) hopen
            obtain ⟨call', hcall', hh'⟩ := hh
            rw [before] at hcall'
            cases hcall'
            rw [hcheck] at hh'
            cases hh'
          · exact haw.released hdone
          · exact hrel
        · have hgraph : call.stage.graph? = some g := by rw [hrun]; rfl
          exact ⟨haw.stage c call about before (awake_of_graph? hgraph),
            hl.taken c about ⟨call, before, by rw [hrun]; rfl⟩, ho.found c call g about before hgraph, hflag⟩
      obtain ⟨hrel, htaken, hv, rfl⟩ := hcase
      exact ⟨(released_step hp h hrel).1, by rw [hflag]; exact htaken, by rw [hself, hv], hnone⟩

theorem Fresh.oneByOne (hf : start.Fresh) (i : ScreenId) : OneByOne i start := by
  have hnone : ∀ c, start.calls.get? c = none := fun c => by rw [hf.calls]; rfl
  refine ⟨fun c _ _ _ ⟨call, hcall, _⟩ _ => ?_, fun c call _ _ hcall => ?_, fun c g _ hok => ?_⟩
  · rw [hnone] at hcall
    cases hcall
  · rw [hnone] at hcall
    cases hcall
  · obtain ⟨r, hcall⟩ := result?_eq_some.1 hok
    rw [hnone] at hcall
    cases hcall

theorem OneByOne.after (hf : start.Fresh) (hr : Reached start a) (ho : OneByOne i a) {h : Happening}
    (hadmits : a.Admits i h) : OneByOne i (a.after h) := by
  refine (after_induction (P := fun b => Reached start b ∧ OneByOne i b) i (fun b m b' hb hstep _ hturn => ?_)
    ⟨hr, ho⟩).2
  obtain ⟨done, haw⟩ := hb.1.awake hf i
  exact ⟨hb.1.step hstep, hb.2.step (hb.1.prepared hf i) (hb.1.locked hf i) haw hstep (hturn hadmits)⟩

theorem OneByOne.afterAll (hf : start.Fresh) (hr : Reached start a) (ho : OneByOne i a) {hs : List Happening}
    (hseq : a.Sequential i hs) : OneByOne i (a.afterAll hs) := by
  induction hs generalizing a with
  | nil => exact ho
  | cons h hs ih => exact ih (hr.after h) (ho.after hf hr hseq.1) hseq.2

/-! ## Who marks a graph as loaded -/

/-- A screen or its job knows the screen's graph. -/
def Known (i : ScreenId) (a : App) : Prop :=
  (a.screen i).view = some (.screen i) ∨ ∃ job ∈ a.jobs i, job.stage.graph? = some (.screen i)

/-- The graph of a screen is marked as loaded only once a call has answered with it. -/
def MarkedByCall (i : ScreenId) (a : App) : Prop :=
  Known i a → ∀ m, a.scene.mount? (.screen i) = some m → m.loaded = true →
    ∃ c, c.screen = i ∧ a.result? c = some (.ok (.screen i))

/-- Only its own job lets a screen know a graph. -/
theorem known_of_step (hp : Prepared i a) {m : Move} (h : a.step? m = some a') (hwork : m ≠ .work i)
    (hk : Known i a') : Known i a := by
  rcases hk with hv | ⟨job, hmem, hg⟩
  · exact .inl (view_of_step h hwork _ hv)
  · refine .inr ⟨job, ?_, hg⟩
    by_cases hdiscard : m = .discard i
    · subst hdiscard
      rcases hp.jobs with hnil | ⟨job', hone, -⟩
      · obtain ⟨⟨job', hw, hi⟩, -⟩ := discardJob?_eq_some h
        have hin : job' ∈ a.jobs i := by simp [App.jobs, Workers.all, hw, Job.isFor, hi]
        rw [hnil] at hin
        cases hin
      · rw [jobs_discard_self h hone] at hmem
        cases hmem
    · by_cases hprepare : ∃ markup options, m = .prepare i markup options
      · obtain ⟨markup, options, rfl⟩ := hprepare
        cases h
        cases hs : a.screens.get? i with
        | none => simpa [App.prepare, hs] using hmem
        | some screen =>
          cases hi : screen.calledInitialize with
          | true => simpa [App.prepare, hs, hi] using hmem
          | false =>
            obtain ⟨hnil, -⟩ := hp.idle (by rw [screen_eq hs, hi])
            rw [jobs_prepare markup options hs hi hnil] at hmem
            obtain rfl := List.mem_singleton.1 hmem
            cases hg
      · exact (jobs_step h hwork hdiscard fun _ _ he => hprepare ⟨_, _, he⟩).mem_iff.1 hmem

/-- A step of the job of a screen builds the screen's graph, or it was known and is left as it is. -/
theorem known_of_work (hp : Prepared i a) (h : a.work? i = some a') (hk : Known i a') :
    (∃ job b c n decl, job.screen = i ∧ job ∈ a.jobs i ∧
        a'.scene = a.builtScene job b c n decl (a.markup job.markup).hooks) ∨
      (Known i a ∧ ∀ {β : Type} {p : Graph → β}, Graph.Lasting p → Scene.Same p a.scene a'.scene) := by
  rcases hp.jobs with hnil | ⟨job, hone, -⟩
  · exact absurd hnil (jobs_ne_nil_of_work h)
  · obtain ⟨screen, e, rfl, hs, he, hscreens, hscene, hjobs⟩ := jobs_work_self h hone
    obtain ⟨-, -, hview, hgraph⟩ := record_effect he
    rw [hscene]
    have hmem : job ∈ a.jobs job.screen := by rw [hone]; exact List.mem_singleton_self _
    rcases same_effect Graph.lasting_mount he with ⟨b, c, n, decl, -, hbuilt⟩ | ⟨hnot, -⟩
    · exact .inl ⟨job, b, c, n, decl, rfl, hmem, hbuilt⟩
    · refine .inr ⟨?_, fun hp => ((same_effect hp he).resolve_left fun ⟨_, _, _, _, hstage, _⟩ => hnot _ hstage).2⟩
      have hold : job.stage.graph? = some (.screen job.screen) → Known job.screen a := fun hg =>
        .inr ⟨job, hmem, hg⟩
      rcases hk with hv | ⟨job', hmem, hg⟩
      · rw [screen_modify_self hs _ hscreens] at hv
        rcases hview _ hv with hv | hg
        · exact .inl (by rw [screen_eq hs, hv])
        · exact hold hg
      · rw [hjobs] at hmem
        split at hmem
        · cases hmem
        · obtain rfl := List.mem_singleton.1 hmem
          rcases hgraph _ hg with hg | hparsed
          · exact hold hg
          · exact absurd hparsed (hnot _)

/-- Every move keeps that only calls mark a graph as loaded. -/
theorem MarkedByCall.step (hm : MarkedByCall i a) (hp : Prepared i a) (hl : ∀ j, Locked j a) {m : Move}
    (h : a.step? m = some a') : MarkedByCall i a' := by
  intro hk mount hmount hloaded
  have hbefore : Known i a → ∀ mount, a.scene.mount? (.screen i) = some mount → mount.loaded = true →
      ∃ c, c.screen = i ∧ a'.result? c = some (.ok (.screen i)) := by
    intro hk mount hmount hloaded
    obtain ⟨c, hc, hok⟩ := hm hk mount hmount hloaded
    exact ⟨c, hc, result?_step h hok⟩
  by_cases hwork : m = .work i
  · subst hwork
    rcases known_of_work hp h hk with ⟨job, b, c, n, decl, rfl, -, hbuilt⟩ | ⟨hk, hsame⟩
    · rw [hbuilt, mount?_builtScene, if_pos rfl] at hmount
      cases hmount
      cases hloaded
    · exact hbefore hk mount (by rw [← (hsame Graph.lasting_mount).mounts, hmount]) hloaded
  · have hk := known_of_step hp h hwork hk
    rcases mount?_step h (.screen i) with hsame | ⟨j, rfl, hj, -⟩ | ⟨c, call, rfl, hcall, hscene⟩
    · exact hbefore hk mount (by rw [← hsame, hmount]) hloaded
    · cases hj
      exact absurd rfl hwork
    · rw [hscene, LoadCall.mount?_act] at hmount
      cases hstage : call.stage with
      | mount g p =>
        simp only [hstage] at hmount
        split at hmount
        · rename_i hg
          subst hg
          obtain ⟨mount', hmount', rfl⟩ := Option.map_eq_some_iff.1 hmount
          exact hbefore hk mount' hmount' hloaded
        · exact hbefore hk mount hmount hloaded
      | runHooks g =>
        simp only [hstage] at hmount
        split at hmount
        · rename_i hg
          subst hg
          obtain ⟨hi, -⟩ := (hl c.screen).graph c call rfl hcall _ (by rw [hstage]; rfl)
          obtain ⟨stage, hafter, ⟨hwait, -⟩ | ⟨flag, hnext⟩⟩ := stage_step h rfl hcall
          · rw [hstage] at hwait
            cases hwait
          · rw [LoadCall.next?_of_passed (by rw [hstage]; rfl)] at hnext
            cases hnext
            refine ⟨c, (Owner.screen.inj hi).symm, result?_eq_some.2 ⟨call.request, ?_⟩⟩
            rw [hafter]
            simp only [LoadCall.following, hstage]
        · exact hbefore hk mount hmount hloaded
      | _ =>
        simp only [hstage] at hmount
        exact hbefore hk mount hmount hloaded

theorem Fresh.not_known (hf : start.Fresh) (i : ScreenId) : ¬ Known i start := by
  rintro (hv | ⟨job, hmem, -⟩)
  · rw [hf.screen] at hv
    cases hv
  · rw [hf.jobs] at hmem
    cases hmem

theorem Fresh.markedByCall (hf : start.Fresh) (i : ScreenId) : MarkedByCall i start :=
  fun hk => absurd hk (hf.not_known i)

theorem Reached.markedByCall (hr : Reached start a) (hf : start.Fresh) (i : ScreenId) : MarkedByCall i a := by
  obtain ⟨ms, hms⟩ := hr
  refine run_induction (P := fun _ a => MarkedByCall i a) (hf.markedByCall i)
    (fun ms a m a' hms hm hstep => ?_) ms hms
  have hr : Reached start a := ⟨ms, hms⟩
  exact hm.step (hr.prepared hf i) (fun j => hr.locked hf j) hstep

/-- Nothing happens when a part of a screen is put on display that no call has answered for with a graph. -/
theorem Reached.present (hr : Reached start a) (hf : start.Fresh)
    (hnone : ∀ c g, c.screen = i → a.result? c ≠ some (.ok g)) (t : Thread) (value : String) :
    a.present t i value = (0, a) := by
  unfold App.present
  cases hv : (a.screens.get? i).bind (·.view) with
  | none => rfl
  | some g =>
    obtain ⟨screen, hs, hview⟩ := Option.bind_eq_some_iff.1 hv
    rw [← screen_eq hs] at hview
    obtain ⟨rfl, -⟩ := (hr.prepared hf i).view g hview
    cases hg : a.scene.graphs.get? (.screen i) with
    | none => simp only [hg]
    | some graph =>
      simp only [hg]
      split
      · rename_i hloaded
        obtain ⟨c, hc, hok⟩ := hr.markedByCall hf i (.inl hview) graph.mount (by simp [Scene.mount?, hg]) hloaded
        exact absurd hok (hnone c _ hc)
      · rfl

end LiveScreen.App
