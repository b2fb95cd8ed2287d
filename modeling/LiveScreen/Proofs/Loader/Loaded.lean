/-
What it means that a loading answers with a graph. The flag of a screen can be
set for three reasons: a call holds the screen, one has loaded it, or the screen
was found without a view (`Awake.reason`). So a call that finds the flag set and
a view shown answers with a graph that is loaded, or that another call is just
about to load or to give up (`loaded_or_held_of_ok`). Both do happen
(`oneView_ok_before_release`).
-/
import LiveScreen.Proofs.Loader.Ownership
import LiveScreen.Proofs.Scene.Push

namespace LiveScreen

/-- A call has seen that its screen is released. -/
def LoadStage.awake : LoadStage → Bool
  | .check | .wait | .expired | .returned _ => false
  | _ => true

theorem LoadStage.awake_of_passed {stage : LoadStage} (h : stage.passed = true) : stage.awake = true := by
  cases stage <;> first | rfl | cases h

/-- A call that is awake after a step was awake before, or its screen is released. -/
theorem LoadCall.Turn.awake {registries : Registries} {screen : Screen} {call : LoadCall} {stage : LoadStage}
    {flag : Option Bool} (h : Turn registries screen call stage flag) (hs : stage.awake = true) :
    call.stage.awake = true ∨ screen.released = true := by
  cases h with
  | wake _ hr => exact .inr hr
  | find hstage | win hstage | lose hstage => exact .inl (by rw [hstage]; rfl)
  | push hpassed => exact .inl (LoadStage.awake_of_passed hpassed)
  | _ => cases hs

namespace App

variable {a a' : App} {i : ScreenId} {done : List (CallId × LoadStage)}

/-- A screen that is released stays so, and its view is not set any more. -/
theorem released_step (hp : Prepared i a) {m : Move} (h : a.step? m = some a')
    (hr : (a.screen i).released = true) :
    (a'.screen i).released = true ∧ ∀ g, (a'.screen i).view = some g → (a.screen i).view = some g := by
  by_cases hm : m = .work i
  · subst hm
    rcases hp.jobs with hnil | ⟨job, -, hfalse, -⟩
    · exact absurd hnil (jobs_ne_nil_of_work h)
    · rw [hfalse] at hr
      cases hr
  · obtain ⟨-, -, hrel, -⟩ := record_step h hm
    exact ⟨hrel hr, view_of_step h hm⟩

/-! ## Why a screen is taken -/

/-- What the calls of a screen know of its release: a screen that is being loaded is released, and a
screen is taken for one of three reasons. -/
structure Awake (i : ScreenId) (a : App) (done : List (CallId × LoadStage)) : Prop where
  released : done ≠ [] → (a.screen i).released = true
  stage : ∀ c call, c.screen = i → a.calls.get? c = some call → call.stage.awake = true →
    (a.screen i).released = true
  reason : (a.screen i).calledLoad = true → (∃ c, c.screen = i ∧ a.Holds c) ∨ done ≠ [] ∨
    (a.screen i).released = true ∧ (a.screen i).view = none

/-- A reason outlasts every move that lets no call go that holds the screen. -/
theorem Awake.reason_step (haw : Awake i a done) (hp : Prepared i a) {m : Move} (h : a.step? m = some a')
    (hflag : (a'.screen i).calledLoad = (a.screen i).calledLoad)
    (hholds : ∀ c, c.screen = i → a.Holds c → ∃ c', c'.screen = i ∧ a'.Holds c')
    (more : List (CallId × LoadStage)) (ht : (a'.screen i).calledLoad = true) :
    (∃ c, c.screen = i ∧ a'.Holds c) ∨ done ++ more ≠ [] ∨
      (a'.screen i).released = true ∧ (a'.screen i).view = none := by
  rcases haw.reason (by rw [← hflag, ht]) with ⟨c, hc, hh⟩ | hdone | ⟨hr, hv⟩
  · exact .inl (hholds c hc hh)
  · refine .inr (.inl fun hnil => hdone (List.append_eq_nil_iff.1 hnil).1)
  · obtain ⟨hr', hview⟩ := released_step hp h hr
    refine .inr (.inr ⟨hr', ?_⟩)
    cases hv' : (a'.screen i).view with
    | none => rfl
    | some g =>
      rw [hview g hv'] at hv
      cases hv

/-- All that a call without layout parameters can complete is to get some. -/
theorem resolve_of_completed {c : CallId} {call : LoadCall} (hcall : a.calls.get? c = some call)
    (hpassed : call.stage.passed = false) {x : CallId × LoadStage} (h : a.completed? i (.resume c) = some x) :
    ∃ g, x = (c, .resolve g) := by
  obtain ⟨request, stage⟩ := call
  simp only [completed?, hcall] at h
  split at h
  · cases stage with
    | resolve g =>
      simp only at h
      split at h
      · cases h
        exact ⟨g, rfl⟩
      · cases h
    | check | wait | expired | lookUp | unavailable | returned => cases h
    | _ => cases hpassed
  · cases h

/-- A call that completes something is awake. -/
theorem awake_of_completed {c : CallId} {call : LoadCall} (hcall : a.calls.get? c = some call)
    {x : CallId × LoadStage} (h : a.completed? i (.resume c) = some x) : call.stage.awake = true := by
  cases hpassed : call.stage.passed with
  | true => exact LoadStage.awake_of_passed hpassed
  | false =>
    by_cases hresolve : ∃ g, call.stage = .resolve g
    · obtain ⟨g, hg⟩ := hresolve
      rw [hg]
      rfl
    · rw [completed?_of_stage hcall hpassed fun g hg => hresolve ⟨g, hg⟩] at h
      cases h

/-- Every move keeps what the calls know. -/
theorem Awake.step (haw : Awake i a done) (hp : Prepared i a) {m : Move} (h : a.step? m = some a') :
    Awake i a' (done ++ (a.completed? i m).toList) := by
  have hkept := released_step hp h
  have holdDone : done ≠ [] → (a'.screen i).released = true := fun hne => (hkept (haw.released hne)).1
  cases callMove_of_step h i with
  | elsewhere about calls flag =>
    refine ⟨?_, fun c call hc hcall hawake => ?_, haw.reason_step hp h flag (fun c hc hh => ⟨c, hc, ?_⟩) _⟩
    · rw [completed?_of_not_about about, Option.toList_none, List.append_nil]
      exact holdDone
    · rw [calls c hc] at hcall
      exact (hkept (haw.stage c call hc hcall hawake)).1
    · simpa only [Holds, calls c hc] using hh
  | @load c r about fresh after =>
    have hcalls : a'.calls = a.calls.insert c ⟨r, .check⟩ := by rw [after]
    have hnone : a.completed? i (.load c r) = none := rfl
    refine ⟨?_, fun c' call hc' hcall hawake => ?_,
      haw.reason_step hp h (by rw [after]; rfl) (fun c' hc' hh => ⟨c', hc', ?_⟩) _⟩
    · rw [hnone, Option.toList_none, List.append_nil]
      exact holdDone
    · rcases calls_insert_cases hcalls hcall with ⟨rfl, rfl⟩ | ⟨-, hold⟩
      · cases hawake
      · exact (hkept (haw.stage c' call hc' hold hawake)).1
    · rw [holds_insert hcalls, if_neg]
      · exact hh
      · rintro rfl
        obtain ⟨call, hcall, -⟩ := hh
        rw [fresh] at hcall
        cases hcall
  | @expire c r about waits after =>
    have hcalls : a'.calls = a.calls.insert c ⟨r, .expired⟩ := by rw [after]
    have hnone : a.completed? i (.expire c) = none := rfl
    refine ⟨?_, fun c' call hc' hcall hawake => ?_,
      haw.reason_step hp h (by rw [after]; rfl) (fun c' hc' hh => ⟨c', hc', ?_⟩) _⟩
    · rw [hnone, Option.toList_none, List.append_nil]
      exact holdDone
    · rcases calls_insert_cases hcalls hcall with ⟨rfl, rfl⟩ | ⟨-, hold⟩
      · cases hawake
      · exact (hkept (haw.stage c' call hc' hold hawake)).1
    · rw [holds_insert hcalls]
      split
      · rfl
      · exact hh
  | @resume c call stage flag about before known next after =>
    obtain ⟨hflag, hholds⟩ := holds_resume known after
    have hcalls : a'.calls = a.calls.insert c { call with stage } := by rw [after]
    have hturn := LoadCall.turn_of_next next
    have hreleased : call.stage.awake = true → (a'.screen i).released = true :=
      fun hawake => (hkept (haw.stage c call about before hawake)).1
    -- Whoever held the screen still does, if it is another call or this one goes on.
    have hother : (a.Holds c → stage.holds = true) → ∀ c', c'.screen = i → a.Holds c' →
        ∃ c', c'.screen = i ∧ a'.Holds c' := by
      intro hself c' hc' hh
      refine ⟨c', hc', ?_⟩
      rw [hholds]
      split
      · rename_i he
        subst he
        exact hself hh
      · exact hh
    refine ⟨fun hne => ?_, fun c' call' hc' hcall hawake => ?_, ?_⟩
    · cases hdone : a.completed? i (.resume c) with
      | none =>
        rw [hdone, Option.toList_none, List.append_nil] at hne
        exact holdDone hne
      | some x => exact hreleased (awake_of_completed before hdone)
    · rcases calls_insert_cases hcalls hcall with ⟨rfl, rfl⟩ | ⟨-, hold⟩
      · rcases hturn.awake hawake with hwas | hrel
        · exact hreleased hwas
        · exact (hkept hrel).1
      · exact (hkept (haw.stage c' call' hc' hold hawake)).1
    · cases hturn with
      | turnBack at_check held =>
        refine haw.reason_step hp h hflag (hother fun hh => ?_) _
        obtain ⟨call', hcall', hheld⟩ := hh
        rw [before] at hcall'
        cases hcall'
        rw [at_check] at hheld
        cases hheld
      | take => exact fun _ => .inl ⟨c, about, (hholds c).2 (by rw [if_pos rfl]; rfl)⟩
      | wake | find | lose | win => exact haw.reason_step hp h hflag (hother fun _ => rfl) _
      | miss at_lookUp view =>
        intro _
        have hrel := haw.stage c call about before (by rw [at_lookUp]; rfl)
        refine .inr (.inr ⟨(hkept hrel).1, ?_⟩)
        cases hv : (a'.screen i).view with
        | none => rfl
        | some g =>
          rw [(hkept hrel).2 g hv] at view
          cases view
      | giveBack =>
        intro ht
        rw [hflag] at ht
        cases ht
      | push hpassed =>
        intro _
        rw [completed?_of_passed about before hpassed]
        exact .inr (.inl (by simp))

/-! ## What is pushed into the graph -/

/-- What was completed shows in the mount of the graph. -/
structure Mounted (i : ScreenId) (a : App) (done : List (CallId × LoadStage)) : Prop where
  params : ∀ c call p, (c, .mount (.screen i) p) ∈ done → a.calls.get? c = some call →
    ∃ m, a.scene.mount? (.screen i) = some m ∧ m.params = some p ∧ m.listener = call.request.listener
  loaded : ∀ c, (c, .runHooks (.screen i)) ∈ done →
    ∃ m, a.scene.mount? (.screen i) = some m ∧ m.loaded = true

/-- Only the job of a screen and calls on it touch the mount of its graph. -/
theorem mount?_kept (hl : ∀ j, Locked j a) {m : Move} (h : a.step? m = some a') (hm : m ≠ .work i)
    (hc : ∀ c, m = .resume c → c.screen ≠ i) : a'.scene.mount? (.screen i) = a.scene.mount? (.screen i) := by
  rcases mount?_step h (.screen i) with hsame | ⟨j, rfl, hj, -⟩ | ⟨c, call, rfl, hcall, hscene⟩
  · exact hsame
  · cases hj
    exact absurd rfl hm
  · rw [hscene, LoadCall.mount?_act]
    have hother : ∀ g, call.stage.graph? = some g → Owner.screen i ≠ g := by
      rintro g hg rfl
      obtain ⟨he, -⟩ := hl c.screen |>.graph c call rfl hcall _ hg
      exact hc c rfl (Owner.screen.inj he).symm
    split
    · rename_i g p hstage
      rw [if_neg (hother g (by rw [hstage]; rfl))]
    · rename_i g hstage
      rw [if_neg (hother g (by rw [hstage]; rfl))]
    · rfl

/-- Two things completed on a screen are of one call. -/
theorem Recorded.mem_script (hr : Recorded i a done) :
    done = [] ∨ ∃ c call params, a.calls.get? c = some call ∧
      ∀ c' stage, (c', stage) ∈ done → c' = c ∧ stage ∈ call.request.script (.screen i) params := by
  rcases hr with ⟨hnil, -⟩ | ⟨c, call, params, -, hcall, -, -, -, hdone⟩
  · exact .inl hnil
  · refine .inr ⟨c, call, params, hcall, fun c' stage hmem => ?_⟩
    have hin : (c', stage) ∈ (call.request.script (.screen i) params).map (c, ·) :=
      hdone ▸ List.mem_append_left _ hmem
    obtain ⟨stage', hstage, he⟩ := List.mem_map.1 hin
    cases he
    exact ⟨rfl, hstage⟩

/-- What was mounted before a move, in terms of the calls after it. -/
theorem Mounted.params_before (hm : Mounted i a done) (hr : Recorded i a done) {m : Move} (h : a.step? m = some a')
    {c : CallId} {call : LoadCall} {p : Layout.Params} (hmem : (c, .mount (.screen i) p) ∈ done)
    (hcall : a'.calls.get? c = some call) :
    ∃ m, a.scene.mount? (.screen i) = some m ∧ m.params = some p ∧ m.listener = call.request.listener := by
  rcases hr.mem_script with hnil | ⟨w, call₀, params, hcall₀, hscript⟩
  · rw [hnil] at hmem
    cases hmem
  · obtain ⟨rfl, -⟩ := hscript c _ hmem
    obtain ⟨call', hcall', hreq⟩ := request_step h hcall₀
    obtain rfl : call' = call := Option.some.inj (hcall'.symm.trans hcall)
    rw [hreq]
    exact hm.params c call₀ p hmem hcall₀

/-- A move that completes neither of the two stages that touch the mount, and leaves it alone. -/
theorem Mounted.keep (hm : Mounted i a done) (hr : Recorded i a done) {m : Move} (h : a.step? m = some a')
    (hmount : done ≠ [] → a'.scene.mount? (.screen i) = a.scene.mount? (.screen i))
    {more : List (CallId × LoadStage)}
    (hmore : ∀ x ∈ more, ∀ p, x.2 ≠ .mount (.screen i) p ∧ x.2 ≠ .runHooks (.screen i)) :
    Mounted i a' (done ++ more) := by
  refine ⟨fun c call p hmem hcall => ?_, fun c hmem => ?_⟩
  · rcases List.mem_append.1 hmem with hin | hin
    · rw [hmount (List.ne_nil_of_mem hin)]
      exact hm.params_before hr h hin hcall
    · exact absurd rfl (hmore _ hin p).1
  · rcases List.mem_append.1 hmem with hin | hin
    · rw [hmount (List.ne_nil_of_mem hin)]
      exact hm.loaded c hin
    · exact absurd rfl (hmore _ hin (.new .relative)).2

/-- The winner mounts its parameters. -/
theorem Mounted.mount (hm : Mounted i a done) {c : CallId} {call : LoadCall} {p : Layout.Params}
    (hr' : Recorded i a' (done ++ [(c, .mount (.screen i) p)])) (hcall : a'.calls.get? c = some call)
    (hmount : ∃ m, a.scene.mount? (.screen i) = some m ∧
      a'.scene.mount? (.screen i) = some { m with params := some p, listener := call.request.listener }) :
    Mounted i a' (done ++ [(c, .mount (.screen i) p)]) := by
  obtain ⟨m, hm₀, hm₁⟩ := hmount
  rcases hr'.mem_script with hnil | ⟨w, call₀, params, -, hscript⟩
  · exact absurd hnil (by simp)
  · obtain ⟨rfl, hin⟩ := hscript c _ (List.mem_append_right _ (List.mem_singleton.2 rfl))
    obtain ⟨-, rfl⟩ := mount_mem_script.1 hin
    refine ⟨fun c' call' p' hmem hcall' => ?_, fun c' hmem => ?_⟩
    · obtain ⟨rfl, hin'⟩ := hscript c' _ hmem
      obtain ⟨-, rfl⟩ := mount_mem_script.1 hin'
      obtain rfl : call = call' := Option.some.inj (hcall.symm.trans hcall')
      exact ⟨_, hm₁, rfl, rfl⟩
    · rcases List.mem_append.1 hmem with hin' | hin'
      · obtain ⟨m', hm', hloaded⟩ := hm.loaded c' hin'
        obtain rfl : m = m' := Option.some.inj (hm₀.symm.trans hm')
        exact ⟨_, hm₁, hloaded⟩
      · cases List.mem_singleton.1 hin'

/-- The winner marks the graph as loaded. -/
theorem Mounted.runHooks (hm : Mounted i a done) (hr : Recorded i a done) {m : Move} (h : a.step? m = some a')
    {c : CallId} (hmount : ∃ m, a.scene.mount? (.screen i) = some m ∧
      a'.scene.mount? (.screen i) = some { m with loaded := true }) :
    Mounted i a' (done ++ [(c, .runHooks (.screen i))]) := by
  obtain ⟨m, hm₀, hm₁⟩ := hmount
  refine ⟨fun c' call p hmem hcall => ?_, fun c' _ => ⟨_, hm₁, rfl⟩⟩
  rcases List.mem_append.1 hmem with hin | hin
  · obtain ⟨m', hm', hparams, hlistener⟩ := hm.params_before hr h hin hcall
    obtain rfl : m = m' := Option.some.inj (hm₀.symm.trans hm')
    exact ⟨_, hm₁, hparams, hlistener⟩
  · cases List.mem_singleton.1 hin

/-- Every move keeps that what was completed shows. -/
theorem Mounted.step (hm : Mounted i a done) (hr : Recorded i a done) (hl : ∀ j, Locked j a)
    (hp : Prepared i a) (haw : Awake i a done) {m : Move} (h : a.step? m = some a') :
    Mounted i a' (done ++ (a.completed? i m).toList) := by
  by_cases hwork : m = .work i
  · subst hwork
    refine hm.keep hr h (fun hne => ?_) (by simp [completed?])
    -- Nobody loads a screen whose job still runs.
    rcases hp.jobs with hnil | ⟨job, -, hfalse, -⟩
    · exact absurd hnil (jobs_ne_nil_of_work h)
    · rw [haw.released hne] at hfalse
      cases hfalse
  · cases callMove_of_step h i with
    | elsewhere about calls flag =>
      refine hm.keep hr h (fun _ => mount?_kept hl h hwork fun c hc => about c (by rw [hc]; rfl)) ?_
      simp [completed?_of_not_about about]
    | load about fresh after => exact hm.keep hr h (fun _ => by rw [after]) (by simp [completed?])
    | expire about waits after => exact hm.keep hr h (fun _ => by rw [after]) (by simp [completed?])
    | @resume c call stage flag about before known next after =>
      have hscene : a'.scene = call.act a.scene := by rw [after]
      have hcall : a'.calls.get? c = some { call with stage } := by rw [after, Table.get?_insert_self]
      have hgraph := (hl i).graph c call about before
      cases hpassed : call.stage.passed with
      | false =>
        refine hm.keep hr h (fun _ => by rw [hscene, LoadCall.act_of_not_passed hpassed]) fun x hx p => ?_
        obtain ⟨g, rfl⟩ := resolve_of_completed before hpassed (Option.mem_toList.1 hx)
        simp
      | true =>
        have hmounts := LoadCall.mount?_act call a.scene (.screen i)
        have hr' := hr.step (hl i) h
        rw [completed?_of_passed about before hpassed] at hr' ⊢
        rw [← hscene] at hmounts
        cases hstage : call.stage with
        | mount g p =>
          obtain ⟨rfl, hsome⟩ := hgraph g (by rw [hstage]; rfl)
          obtain ⟨m, hm₀⟩ := Option.isSome_iff_exists.1 hsome
          rw [hstage] at hr'
          refine hm.mount hr' hcall ⟨m, hm₀, ?_⟩
          simpa only [hstage, if_true, hm₀, Option.map_some] using hmounts
        | runHooks g =>
          obtain ⟨rfl, hsome⟩ := hgraph g (by rw [hstage]; rfl)
          obtain ⟨m, hm₀⟩ := Option.isSome_iff_exists.1 hsome
          refine hm.runHooks hr h ⟨m, hm₀, ?_⟩
          simpa only [hstage, if_true, hm₀, Option.map_some] using hmounts
        | _ =>
          refine hm.keep hr h (fun _ => by simpa only [hstage] using hmounts) fun x hx p => ?_
          obtain rfl := List.mem_singleton.1 hx
          simp

/-! ## Loadings that answer with a graph -/

theorem Fresh.awake (h : a.Fresh) (i : ScreenId) : Awake i a [] := by
  have hscreen := h.screen i
  refine ⟨fun hne => absurd rfl hne, fun c call _ hcall _ => ?_, fun ht => ?_⟩
  · rw [h.calls] at hcall
    cases hcall
  · rw [hscreen] at ht
    cases ht

theorem Mounted.nil (i : ScreenId) (a : App) : Mounted i a [] := ⟨by simp, by simp⟩

/-- What is known of a screen after any run. -/
theorem loading_of_run {start : App} (hf : start.Fresh) (i : ScreenId) (ms : List Move) {a : App}
    (h : start.steps? ms = some a) :
    Awake i a (start.completed i ms) ∧ Mounted i a (start.completed i ms) := by
  refine run_induction (P := fun ms a => Awake i a (start.completed i ms) ∧ Mounted i a (start.completed i ms))
    ⟨hf.awake i, Mounted.nil i start⟩ (fun ms a m a' hms ih hstep => ?_) ms h
  have hp := prepared_of_run hf i ms hms
  rw [completed_concat i m ms hms (by rw [hstep]; rfl)]
  exact ⟨ih.1.step hp hstep, ih.2.step (recorded_of_run hf i ms hms).2
    (fun j => (recorded_of_run hf j ms hms).1) hp ih.1 hstep⟩

/-- A call has loaded its screen after a run: it has gone through its whole script and done what that says, the
screen is released, and the graph has the call's parameters and listener and is loaded. -/
def LoadedBy (start : App) (ms : List Move) (a : App) (i : ScreenId) (c : CallId) : Prop :=
  ∃ call params, c.screen = i ∧ a.calls.get? c = some call ∧
    start.completed i ms = (call.request.script (.screen i) params).map (c, ·) ∧ start.CarriedOut ms a i ∧
      (a.screen i).released = true ∧
        a.scene.mount? (.screen i) = some ⟨some params, call.request.listener, true⟩

/-- A screen that something was completed on has been loaded, or is held by the call that loads it. -/
theorem loadedBy_or_holds {start : App} (hf : start.Fresh) {i : ScreenId} {ms : List Move}
    (h : start.steps? ms = some a) (hdone : start.completed i ms ≠ []) :
    ∃ c, c.screen = i ∧ (LoadedBy start ms a i c ∨ a.Holds c) := by
  obtain ⟨haw, hmounted⟩ := loading_of_run hf i ms h
  rcases (recorded_of_run hf i ms h).2 with ⟨hnil, -⟩ | ⟨c, call, params, hc, hcall, hwon, -, -, hscript⟩
  · exact absurd hnil hdone
  · refine ⟨c, hc, ?_⟩
    rcases hwon with hpassed | ⟨g, hreturned⟩
    · exact .inr ⟨call, hcall, LoadStage.holds_of_passed hpassed⟩
    · have hremaining : call.remaining = [] := by simp only [LoadCall.remaining, hreturned]
      rw [hremaining, List.map_nil, List.append_nil] at hscript
      have hmem : ∀ {stage}, stage ∈ call.request.script (.screen i) params →
          (c, stage) ∈ start.completed i ms := fun hin => hscript ▸ List.mem_map_of_mem hin
      obtain ⟨m, hm, hparams, hlistener⟩ :=
        hmounted.params c call params (hmem (mount_mem_script.2 ⟨rfl, rfl⟩)) hcall
      obtain ⟨m', hm', hloaded⟩ := hmounted.loaded c (hmem (runHooks_mem_script _ _ _))
      obtain rfl : m = m' := Option.some.inj (hm.symm.trans hm')
      refine .inl ⟨call, params, hc, hcall, hscript, carriedOut_of_run h i, haw.released hdone, ?_⟩
      rw [hm, ← hparams, ← hlistener, ← hloaded]

theorem result?_eq_some {result : Except LoadError GraphId} :
    a.result? c = some result ↔ ∃ r, a.calls.get? c = some ⟨r, .returned result⟩ := by
  unfold result?
  constructor
  · intro h
    split at h
    · rename_i r _ hc
      cases h
      exact ⟨r, hc⟩
    · cases h
  · rintro ⟨r, hc⟩
    rw [hc]

theorem viewOf_eq_ok {screen : Screen} {g : GraphId} (h : viewOf screen = .ok g) : screen.view = some g := by
  unfold viewOf at h
  split at h
  · rename_i hv
    cases h
    exact hv
  · cases h

/-- A call answers with a graph for one of two reasons. -/
theorem ok_of_next {registries : Registries} {screen : Screen} {call : LoadCall} {g : GraphId} {flag : Option Bool}
    (h : call.next? registries screen = some (.returned (.ok g), flag)) :
    (call.stage = .check ∧ screen.calledLoad = true ∧ screen.view = some g ∧ flag = none) ∨
      (call.stage = .runHooks g ∧ flag = none) := by
  have hturn := LoadCall.turn_of_next h
  generalize hstage : LoadStage.returned (.ok g) = stage at hturn
  cases hturn with
  | turnBack at_check held =>
    cases hstage
    rcases held with ⟨-, herror⟩ | ⟨htaken, hview⟩
    · cases herror
    · exact .inl ⟨at_check, htaken, viewOf_eq_ok hview.symm, rfl⟩
  | push hpassed =>
    obtain ⟨g', hrun, hg⟩ := LoadCall.stage_of_following_returned hpassed hstage.symm
    cases hg
    exact .inr ⟨hrun, rfl⟩
  | _ => cases hstage

/-- **What an answer with a graph means.** Whenever a step of a call lets it answer with a graph, the
graph is the screen's own, and either some call has loaded the screen, or another call holds it at
that moment. -/
theorem loaded_or_held_of_ok {start : App} (hf : start.Fresh) (ms : List Move) {a a' : App}
    (h : start.steps? ms = some a) {c : CallId} (hstep : a.step? (.resume c) = some a') {g : GraphId}
    (hok : a'.result? c = some (.ok g)) :
    g = .screen c.screen ∧
      ((∃ w, LoadedBy start (ms ++ [.resume c]) a' c.screen w) ∨
        ∃ w, w ≠ c ∧ w.screen = c.screen ∧ a'.Holds w) := by
  have hrun : start.steps? (ms ++ [.resume c]) = some a' := by rw [steps?_concat, h]; exact hstep
  have hcompleted := completed_concat c.screen (.resume c) ms h (by rw [hstep]; rfl)
  cases callMove_of_step hstep c.screen with
  | elsewhere about => exact absurd rfl (about c rfl)
  | @resume _ call stage flag about before known next after =>
    have hcall : a'.calls.get? c = some { call with stage } := by rw [after, Table.get?_insert_self]
    obtain rfl : stage = .returned (.ok g) := by
      obtain ⟨r, hover⟩ := result?_eq_some.1 hok
      rw [hcall] at hover
      cases hover
      rfl
    have hnot : ¬ a'.Holds c := by
      rintro ⟨call', hcall', hh⟩
      rw [hcall] at hcall'
      cases hcall'
      cases hh
    -- Something was completed: its call is through, or it holds the screen and so is another one.
    have hcases : start.completed c.screen (ms ++ [.resume c]) ≠ [] →
        (∃ w, LoadedBy start (ms ++ [.resume c]) a' c.screen w) ∨
          ∃ w, w ≠ c ∧ w.screen = c.screen ∧ a'.Holds w := by
      intro hne
      obtain ⟨w, hw, hloaded | hh⟩ := loadedBy_or_holds hf hrun hne
      · exact .inl ⟨w, hloaded⟩
      · refine .inr ⟨w, ?_, hw, hh⟩
        rintro rfl
        exact hnot hh
    rcases ok_of_next next with ⟨hcheck, htaken, hview, -⟩ | ⟨hrun', -⟩
    · refine ⟨((prepared_of_run hf c.screen ms h).view g hview).1, ?_⟩
      rcases (loading_of_run hf c.screen ms h).1.reason htaken with ⟨w, hw, hh⟩ | hdone | ⟨-, hnone⟩
      · have hne : w ≠ c := by
          rintro rfl
          obtain ⟨call', hcall', hholds⟩ := hh
          rw [before] at hcall'
          cases hcall'
          rw [hcheck] at hholds
          cases hholds
        refine .inr ⟨w, hne, hw, ?_⟩
        rw [holds_insert (show a'.calls = a.calls.insert c _ by rw [after]), if_neg hne]
        exact hh
      · refine hcases fun hnil => hdone ?_
        rw [hcompleted] at hnil
        exact (List.append_eq_nil_iff.1 hnil).1
      · rw [hview] at hnone
        cases hnone
    · refine ⟨((recorded_of_run hf c.screen ms h).1.graph c call rfl before g (by rw [hrun']; rfl)).1, hcases ?_⟩
      rw [hcompleted, completed?_of_passed rfl before (by rw [hrun']; rfl)]
      simp

/-! ## One screen -/

/-- All but the last step of two calls that race for a screen. -/
def almostLoaded : List Move :=
  initialized ++ [.load ⟨0, 0⟩ oneValue, .load ⟨0, 1⟩ oneValue, .resume ⟨0, 0⟩, .resume ⟨0, 1⟩] ++
    List.replicate 11 (.resume ⟨0, 0⟩)

theorem oneView_loaded_or_held : ∃ a a', oneView.steps? almostLoaded = some a ∧ a.step? (.resume ⟨0, 0⟩) = some a' ∧
    a'.result? ⟨0, 0⟩ = some (.ok (.screen 0)) ∧
      ((∃ w, LoadedBy oneView (almostLoaded ++ [.resume ⟨0, 0⟩]) a' 0 w) ∨
        ∃ w, w ≠ ⟨0, 0⟩ ∧ w.screen = 0 ∧ a'.Holds w) := by
  obtain ⟨a, ha⟩ : ∃ a, oneView.steps? almostLoaded = some a := Option.isSome_iff_exists.1 rfl
  obtain ⟨a', ha'⟩ : ∃ a', (oneView.steps? almostLoaded).bind (·.step? (.resume ⟨0, 0⟩)) = some a' :=
    Option.isSome_iff_exists.1 rfl
  have hok : ((oneView.steps? almostLoaded).bind (·.step? (.resume ⟨0, 0⟩))).bind (·.result? ⟨0, 0⟩) =
      some (.ok (.screen 0)) := rfl
  rw [ha'] at hok
  rw [ha] at ha'
  exact ⟨a, a', ha, ha', hok, (loaded_or_held_of_ok fresh_oneView almostLoaded ha ha' hok).2⟩

/-- A first call waits, and a second one comes when the view is shown and the screen not yet released. -/
def earlyAnswer : List Move :=
  [.addScreen, .prepare 0 "" .standard, .load ⟨0, 0⟩ oneValue, .resume ⟨0, 0⟩, .take 0] ++
    List.replicate 7 (.work 0) ++ [.load ⟨0, 1⟩ oneValue, .resume ⟨0, 1⟩]

/-- The same application with a label and a binder that has the UI queue of the first thread. -/
def sharedLabel : App :=
  { oneView with
    scene := { Scene.empty with
      binders := Table.empty.insert (.host 0) ⟨.empty, false, some 0, []⟩
      queues := Store.empty.add (.new 0) }
    markups := Table.empty.insert "" ⟨false, false,
      some ⟨.mk ⟨"", none, none, [], .empty, [⟨"text_1", "text"⟩], none, none⟩ [], [], []⟩, []⟩ }

/-- A screen that shares the binder is loaded from a second thread. -/
def loadedElsewhere : List Move :=
  [.addScreen, .prepare 0 "" { InitOptions.standard with binder := some (.host 0) }, .take 0] ++
    List.replicate 10 (.work 0) ++ [.load ⟨0, 0⟩ { oneValue with thread := 1 }] ++
      List.replicate 13 (.resume ⟨0, 0⟩)

/-- A call can answer with a graph before the screen is released and before anything of loading it was
completed; and the data of a call that has answered can still wait in a queue. -/
theorem oneView_ok_before_release :
    (oneView.Fresh ∧ oneView.completed 0 earlyAnswer = [] ∧
      (oneView.steps? earlyAnswer).map (fun a => (a.result? ⟨0, 1⟩, (a.screen 0).released)) =
        some (some (.ok (.screen 0)), false)) ∧
      sharedLabel.Fresh ∧
        (sharedLabel.steps? loadedElsewhere).map (fun a =>
          (a.result? ⟨0, 0⟩, a.scene.valueOf (.host 0) "text_1", a.scene.shown (.screen 0) "text_1")) =
            some (some (.ok (.screen 0)), some (.text "hello"), [none]) :=
  ⟨⟨fresh_oneView, rfl, rfl⟩, ⟨rfl, rfl, rfl, rfl⟩, rfl⟩

end App

end LiveScreen
