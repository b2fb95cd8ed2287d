/-
A loading that nothing stops succeeds. With a catalog of layout parameters that
was made from the standard one there are parameters for every name
(`Layout.Catalog.Built.resolve`). So a call that has a released screen with a view
to itself goes through all its stages when it goes on, and answers with the
graph (`Unhindered.finishCall`).
-/
import LiveScreen.Proofs.Layout.Names
import LiveScreen.Proofs.Loader.Settled

namespace LiveScreen

/-! ## How far a call has to go -/

theorem length_storing (g : GraphId) : ∀ data : List (String × Value), (storing g data).length = data.length + 6
  | [] => rfl
  | e :: data => by simp [storing, length_storing g data]

/-- The stages of a call that has taken its screen and goes on to answer with a graph. -/
def LoadStage.headsFor (g : GraphId) (stage : LoadStage) : Prop :=
  stage = .wait ∨ stage = .lookUp ∨ stage = .resolve g ∨ stage.passed = true ∧ stage.graph? = some g

namespace LoadCall

/-- How many steps a call has still to take that nothing stops. -/
def ahead (call : LoadCall) : Nat :=
  match call.stage with
  | .check => call.request.data.length + 12
  | .wait => call.request.data.length + 11
  | .lookUp => call.request.data.length + 10
  | .resolve _ => call.request.data.length + 9
  | _ => call.remaining.length

/-- A call that pushes things into a graph comes one step nearer to the end. -/
theorem following_headsFor {call : LoadCall} {g : GraphId} (h : call.stage.passed = true)
    (hg : call.stage.graph? = some g) :
    (call.stage = .runHooks g ∧ call.following = .returned (.ok g)) ∨
      (call.following.headsFor g ∧ call.ahead = ahead { call with stage := call.following } + 1) := by
  have hremaining : call.remaining.length = (remaining { call with stage := call.following }).length + 1 := by
    rw [remaining_of_passed h, List.length_cons]
  obtain ⟨request, stage⟩ := call
  cases stage with
  | store g' rest =>
    cases rest <;> exact .inr ⟨.inr (.inr (.inr ⟨rfl, hg⟩)), hremaining⟩
  | bindAnimations | mount | bindData | markLoaded | fireData | fireFinish =>
    exact .inr ⟨.inr (.inr (.inr ⟨rfl, hg⟩)), hremaining⟩
  | runHooks g' =>
    obtain rfl := Option.some.inj hg
    exact .inl ⟨rfl, rfl⟩
  | _ => cases h

end LoadCall

namespace App

variable {start a a' b : App} {i : ScreenId} {c : CallId}

/-- Plugins are not registered while an application runs. -/
theorem registries_step {m : Move} (h : a.step? m = some a') : a'.registries = a.registries := by
  cases hm : m.call? with
  | none => exact (step?_of_no_call h hm).2.1
  | some c =>
    cases callMove_of_step h c.screen with
    | elsewhere about => exact absurd rfl (about c hm)
    | load _ _ after | expire _ _ after | resume _ _ _ _ after => rw [after]

theorem registries_of_run (ms : List Move) (h : start.steps? ms = some a) : a.registries = start.registries :=
  run_induction (P := fun _ a => a.registries = start.registries) rfl
    (fun _ _ _ _ _ ih hstep => (registries_step hstep).trans ih) ms h

/-! ## A call that goes on -/

/-- A call is on its way to answer with a graph, and nothing stops it: its screen is released and shows the
graph, there are layout parameters for it, and if it has just begun, nobody has taken the screen. -/
structure Unhindered (g : GraphId) (a : App) (c : CallId) (call : LoadCall) : Prop where
  entry : a.calls.get? c = some call
  known : a.screens.get? c.screen = some (a.screen c.screen)
  initialized : (a.screen c.screen).calledInitialize = true
  released : (a.screen c.screen).released = true
  view : (a.screen c.screen).view = some g
  params : ∃ params, a.registries.params.resolve (some call.request.paramType) call.request.parent = some params
  stage : call.stage = .check ∧ (a.screen c.screen).calledLoad = false ∨ call.stage.headsFor g

/-- A call that can go on does. -/
theorem resume_of_next {call : LoadCall} {stage : LoadStage} {flag : Option Bool} (hcall : a.calls.get? c = some call)
    (hs : a.screens.get? c.screen = some (a.screen c.screen))
    (hnext : call.next? a.registries (a.screen c.screen) = some (stage, flag)) :
    ∃ b, a.resume? c = some b ∧ b.calls.get? c = some { call with stage } ∧ b.registries = a.registries ∧
      b.screens.get? c.screen =
        some { a.screen c.screen with calledLoad := flag.getD (a.screen c.screen).calledLoad } := by
  refine ⟨{ a with
    scene := call.act a.scene
    screens := a.flagged c.screen flag
    calls := a.calls.insert c { call with stage } }, ?_, Table.get?_insert_self .., rfl, ?_⟩
  · simp only [resume?_eq, hcall, hs, hnext, Option.bind_some, Option.map_some]
  · cases flag with
    | none => exact hs
    | some taken => simp only [flagged, Store.get?_modify_self, hs, Option.map_some, Option.getD_some]

/-- What a call does next that nothing stops. -/
theorem Unhindered.next {g : GraphId} {call : LoadCall} (hu : Unhindered g a c call) :
    ∃ stage flag, call.next? a.registries (a.screen c.screen) = some (stage, flag) ∧
      (call.stage = .runHooks g ∧ stage = .returned (.ok g) ∨
        stage.headsFor g ∧ call.ahead = LoadCall.ahead { call with stage } + 1) := by
  obtain ⟨request, stage⟩ := call
  rcases hu.stage with ⟨rfl, hfree⟩ | rfl | rfl | rfl | ⟨hpassed, hgraph⟩
  · refine ⟨.wait, some true, ?_, .inr ⟨.inl rfl, rfl⟩⟩
    simp only [LoadCall.next?, hu.initialized, hfree]
    rfl
  · refine ⟨.lookUp, none, ?_, .inr ⟨.inr (.inl rfl), rfl⟩⟩
    simp only [LoadCall.next?, hu.released, if_true]
  · refine ⟨.resolve g, none, ?_, .inr ⟨.inr (.inr (.inl rfl)), rfl⟩⟩
    simp only [LoadCall.next?, hu.view]
  · obtain ⟨params, hparams⟩ := hu.params
    refine ⟨.bindAnimations g params, none, ?_, .inr ⟨.inr (.inr (.inr ⟨rfl, rfl⟩)), ?_⟩⟩
    · simp only [LoadCall.next?, hparams]
    · simp [LoadCall.ahead, LoadCall.remaining, length_storing]
  · exact ⟨_, none, LoadCall.next?_of_passed hpassed _ _, LoadCall.following_headsFor hpassed hgraph⟩

/-- A step of a call that nothing stops is its last one, or nothing stops it afterwards. -/
theorem Unhindered.resume {g : GraphId} {call : LoadCall} (hu : Unhindered g a c call) :
    ∃ b stage, a.resume? c = some b ∧ b.calls.get? c = some { call with stage } ∧
      (stage = .returned (.ok g) ∧ a.completed? c.screen (.resume c) = some (c, .runHooks g) ∨
        Unhindered g b c { call with stage } ∧ call.ahead = LoadCall.ahead { call with stage } + 1) := by
  obtain ⟨stage, flag, hnext, hstage⟩ := hu.next
  obtain ⟨b, hb, hentry, hregistries, hscreen⟩ := resume_of_next hu.entry hu.known hnext
  have hself := screen_eq hscreen
  refine ⟨b, stage, hb, hentry, ?_⟩
  rcases hstage with ⟨hlast, rfl⟩ | ⟨hheads, hahead⟩
  · refine .inl ⟨rfl, ?_⟩
    rw [completed?_of_passed rfl hu.entry (by rw [hlast]; rfl), hlast]
  · refine .inr ⟨?_, hahead⟩
    constructor
    case entry => exact hentry
    case known => rw [hself]; exact hscreen
    case initialized => rw [hself]; exact hu.initialized
    case released => rw [hself]; exact hu.released
    case view => rw [hself]; exact hu.view
    case params => rw [hregistries]; exact hu.params
    case stage => exact .inr hheads

/-- A call that nothing stops answers with the graph when it goes on, and loads the screen. -/
theorem Unhindered.resumeFor {g : GraphId} : ∀ (n : Nat) {a : App} {call : LoadCall}, Unhindered g a c call →
    call.ahead ≤ n → ∃ k, a.steps? (List.replicate k (.resume c)) = some (resumeFor c n a) ∧
      (resumeFor c n a).calls.get? c = some { call with stage := .returned (.ok g) } ∧
        (c, .runHooks g) ∈ a.completed c.screen (List.replicate k (.resume c))
  | 0, a, call, hu, hn => by
    obtain ⟨stage, flag, -, ⟨hlast, -⟩ | ⟨-, hahead⟩⟩ := hu.next
    · simp [LoadCall.ahead, LoadCall.remaining, hlast, closing] at hn
    · omega
  | n + 1, a, call, hu, hn => by
    obtain ⟨b, stage, hb, hentry, hstage⟩ := hu.resume
    have hstep : a.step? (.resume c) = some b := hb
    simp only [App.resumeFor, hb]
    rcases hstage with ⟨rfl, hcompleted⟩ | ⟨hu', hahead⟩
    · rw [resumeFor_of_none n (resume?_of_result (result?_eq_some.2 ⟨_, hentry⟩))]
      refine ⟨1, ?_, hentry, ?_⟩
      · simp [steps?, hstep]
      · simp [completed, hstep, hcompleted]
    · obtain ⟨k, hsteps, hanswer, hmem⟩ := Unhindered.resumeFor n hu' (by omega)
      refine ⟨k + 1, ?_, hanswer, ?_⟩
      · simp only [List.replicate_succ, steps?, hstep, Option.bind_some, hsteps]
      · simp only [List.replicate_succ, completed, hstep]
        exact List.mem_append_right _ hmem

/-- A call that has just begun, or has just taken its screen, answers with the graph if nothing stops it. -/
theorem Unhindered.finishCall {g : GraphId} {call : LoadCall} (hu : Unhindered g a c call)
    (hstage : call.stage = .check ∨ call.stage = .wait) :
    ∃ k, a.steps? (List.replicate k (.resume c)) = some (a.finishCall c) ∧
      (a.finishCall c).calls.get? c = some { call with stage := .returned (.ok g) } ∧
        (c, .runHooks g) ∈ a.completed c.screen (List.replicate k (.resume c)) := by
  have hfinish : a.finishCall c = App.resumeFor c (15 + call.request.data.length) a := by
    simp only [App.finishCall, hu.entry]
  rw [hfinish]
  refine hu.resumeFor _ ?_
  rcases hstage with hcheck | hwait
  · simp only [LoadCall.ahead, hcheck]
    omega
  · simp only [LoadCall.ahead, hwait]
    omega

end App

end LiveScreen
