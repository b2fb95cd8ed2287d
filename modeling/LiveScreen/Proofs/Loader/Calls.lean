/-
What the moves of an application do to the calls that load one screen. A step of
a call is what it does to its own stage and to the flag of its screen
(`LoadCall.next?`), and, once there are layout parameters, what it does to the
scene (`LoadCall.act`). `callMove_of_step` sorts all moves by what they do to the
calls of a screen; every other move leaves them and the flag alone.
-/
import LiveScreen.Proofs.Loader.Screens
import LiveScreen.Proofs.Scene.Mounts

namespace LiveScreen

/-! ## Stages -/

namespace LoadStage

/-- The call has layout parameters and is pushing things into the screen's graph. -/
def passed : LoadStage → Bool
  | .bindAnimations .. | .mount .. | .store .. | .bindData _ | .markLoaded _ | .fireData _ | .fireFinish _
  | .runHooks _ => true
  | _ => false

/-- The call has taken the screen for itself and may yet give it back. -/
def holds : LoadStage → Bool
  | .check | .returned _ => false
  | _ => true

/-- The graph that a stage is about. -/
def graph? : LoadStage → Option GraphId
  | .resolve g | .bindAnimations g _ | .mount g _ | .store g _ | .bindData g | .markLoaded g | .fireData g
  | .fireFinish g | .runHooks g => some g
  | _ => none

theorem holds_of_passed {stage : LoadStage} (h : stage.passed = true) : stage.holds = true := by
  cases stage <;> first | rfl | cases h

end LoadStage

/-- The call that a move is about. -/
def Move.call? : Move → Option CallId
  | .load c _ | .resume c | .expire c => some c
  | _ => none

/-! ## One step of a call -/

namespace LoadCall

/-- The stage after one in which things are pushed into the graph. -/
def following (call : LoadCall) : LoadStage :=
  match call.stage with
  | .bindAnimations g params => .mount g params
  | .mount g _ => .store g call.request.data
  | .store g [] => .bindData g
  | .store g (_ :: rest) => .store g rest
  | .bindData g => .markLoaded g
  | .markLoaded g => .fireData g
  | .fireData g => .fireFinish g
  | .fireFinish g => .runHooks g
  | .runHooks g => .returned (.ok g)
  | stage => stage

/-- The next stage of a call on a screen, and what becomes of the screen's flag if it changes. -/
def next? (registries : Registries) (screen : Screen) (call : LoadCall) : Option (LoadStage × Option Bool) :=
  match call.stage with
  | .check =>
    if !screen.calledInitialize then some (.returned (.error .notInitialized), none)
    else if screen.calledLoad then some (.returned (App.viewOf screen), none)
    else some (.wait, some true)
  | .wait => if screen.released then some (.lookUp, none) else none
  | .expired => some (.returned (.error .timedOut), some false)
  | .lookUp =>
    match screen.view with
    | some g => some (.resolve g, none)
    | none => some (.returned (.error .emptyView), none)
  | .resolve g =>
    match registries.params.resolve (some call.request.paramType) call.request.parent with
    | some params => some (.bindAnimations g params, none)
    | none => some (.unavailable, none)
  | .unavailable => some (.returned (.error .paramsUnavailable), some false)
  | .returned _ => none
  | _ => some (call.following, none)

/-- What a step of a call does to the scene. -/
def act (call : LoadCall) (s : Scene) : Scene :=
  let r := call.request
  match call.stage with
  | .bindAnimations g _ => App.withGraph g (fun graph s => s.setAnimationUi graph.animations r.queue) s
  | .mount g params => s.mountGraph g params r.listener
  | .store g ((key, value) :: _) => App.withGraph g (fun graph s => s.update r.thread graph.binder key value) s
  | .bindData g => App.withGraph g (fun graph s => s.setBinderUi graph.binder r.queue) s
  | .markLoaded g => App.withGraph g (fun graph s => s.setLoaded graph.binder) s
  | .fireData g => App.fire r.thread g .dataInitialize s
  | .fireFinish g => App.fire r.thread g .loadFinish s
  | .runHooks g => s.finishLoad r.thread g
  | _ => s

variable {call : LoadCall}

theorem next?_of_passed (h : call.stage.passed = true) (registries : Registries) (screen : Screen) :
    call.next? registries screen = some (call.following, none) := by
  unfold next?
  cases hs : call.stage <;> simp only [hs, LoadStage.passed] at h <;> first | rfl | cases h

/-- A call that has no layout parameters yet changes nothing in the scene. -/
theorem act_of_not_passed (h : call.stage.passed = false) (s : Scene) : call.act s = s := by
  unfold act
  cases hs : call.stage <;> simp only [hs, LoadStage.passed] at h ⊢ <;> cases h

section Same

variable {β : Type} {p : Graph → β}

theorem same_withGraph (g : GraphId) {f : Graph → Scene → Scene} (hf : ∀ graph s, Scene.Same p s (f graph s))
    (s : Scene) : Scene.Same p s (App.withGraph g f s) := by
  unfold App.withGraph
  split
  · exact hf _ s
  · exact .refl s

theorem same_fire (hp : Graph.Lasting p) (t : Thread) (g : GraphId) (hook : Hook) (s : Scene) :
    Scene.Same p s (App.fire t g hook s) := by
  unfold App.fire
  split
  · exact .notify hp s t _ hook ""
  · exact .refl s

/-- Only two steps of a call touch what lasts of a graph. -/
theorem same_act (hp : Graph.Lasting p) (call : LoadCall) (hmount : ∀ g params, call.stage ≠ .mount g params)
    (hrun : ∀ g, call.stage ≠ .runHooks g) (s : Scene) : Scene.Same p s (call.act s) := by
  unfold act
  cases hstage : call.stage with
  | mount g params => exact absurd hstage (hmount g params)
  | runHooks g => exact absurd hstage (hrun g)
  | store g rest =>
    cases rest with
    | nil => exact .refl s
    | cons e rest => exact same_withGraph g (fun graph s => .of_leads hp (Scene.leads_update s _ _ _ _)) s
  | bindAnimations g | bindData g | markLoaded g =>
    refine same_withGraph g (fun graph s => ?_) s
    exact .of_graphs rfl
  | fireData g | fireFinish g => exact same_fire hp _ g _ s
  | _ => exact .refl s

end Same

/-- What a step of a call does to what is pushed into a graph when it is loaded. -/
theorem mount?_act (call : LoadCall) (s : Scene) (g : GraphId) :
    (call.act s).mount? g =
      match call.stage with
      | .mount g' params =>
        if g = g' then (s.mount? g').map fun m => { m with params := some params, listener := call.request.listener }
        else s.mount? g
      | .runHooks g' => if g = g' then (s.mount? g').map fun m => { m with loaded := true } else s.mount? g
      | _ => s.mount? g := by
  cases hstage : call.stage with
  | mount g' params =>
    simp only [act, hstage]
    exact Scene.mount?_mountGraph s g' params _ g
  | runHooks g' =>
    simp only [act, hstage]
    exact Scene.mount?_finishLoad s _ g' g
  | _ =>
    exact same_act Graph.lasting_mount call (fun _ _ => by rw [hstage]; nofun) (fun _ => by rw [hstage]; nofun) s g

end LoadCall

namespace App

/-- The screens after one of them was taken or given back. -/
def flagged (a : App) (i : ScreenId) : Option Bool → Store Screen
  | some b => a.screens.modify i fun s => { s with calledLoad := b }
  | none => a.screens

theorem advanceCall?_eq (a : App) (i : ScreenId) (call : LoadCall) :
    a.advanceCall? i call = (a.screens.get? i).bind fun screen =>
      (call.next? a.registries screen).map fun (stage, flag) =>
        (stage, { a with scene := call.act a.scene, screens := a.flagged i flag }) := by
  unfold advanceCall?
  cases hs : a.screens.get? i with
  | none => rfl
  | some screen =>
    simp only [Option.bind_some]
    obtain ⟨request, stage⟩ := call
    cases stage with
    | check =>
      simp only [LoadCall.next?]
      split
      · rfl
      · split <;> rfl
    | wait =>
      simp only [LoadCall.next?]
      split <;> rfl
    | lookUp =>
      simp only [LoadCall.next?]
      cases screen.view <;> rfl
    | resolve g =>
      simp only [LoadCall.next?]
      cases a.registries.params.resolve (some request.paramType) request.parent <;> rfl
    | store g rest => cases rest <;> rfl
    | _ => rfl

/-- What a call does that goes on. -/
theorem resume?_eq_some {a a' : App} {c : CallId} (h : a.resume? c = some a') :
    ∃ call screen stage flag, a.calls.get? c = some call ∧ a.screens.get? c.screen = some screen ∧
      call.next? a.registries screen = some (stage, flag) ∧
        a' = { a with
          scene := call.act a.scene
          screens := a.flagged c.screen flag
          calls := a.calls.insert c { call with stage } } := by
  unfold resume? at h
  cases hc : a.calls.get? c with
  | none => simp only [hc] at h; cases h
  | some call =>
    simp only [hc, advanceCall?_eq] at h
    obtain ⟨_, hadv, rfl⟩ := Option.map_eq_some_iff.1 h
    obtain ⟨screen, hs, hn⟩ := Option.bind_eq_some_iff.1 hadv
    obtain ⟨⟨stage, flag⟩, hn', rfl⟩ := Option.map_eq_some_iff.1 hn
    exact ⟨call, screen, stage, flag, rfl, hs, hn', rfl⟩

/-- What it takes for a call to expire. -/
theorem expire?_eq_some {a a' : App} {c : CallId} (h : a.expire? c = some a') :
    ∃ request, a.calls.get? c = some ⟨request, .wait⟩ ∧
      a' = { a with calls := a.calls.insert c ⟨request, .expired⟩ } := by
  unfold expire? at h
  split at h
  · rename_i request _ hc _
    cases h
    exact ⟨request, hc, rfl⟩
  · cases h

/-- What it takes for a call to be made. -/
theorem addCall?_eq_some {a a' : App} {c : CallId} {r : LoadRequest} (h : a.addCall? c r = some a') :
    a.calls.get? c = none ∧ a' = { a with calls := a.calls.insert c ⟨r, .check⟩ } := by
  unfold addCall? at h
  split at h
  · cases h
  · rename_i hc
    cases h
    exact ⟨by simpa [Table.contains] using hc, rfl⟩

/-! ## Moves and the calls of a screen -/

/-- A step of an initialization does not touch the flag of its screen. -/
theorem calledLoad_effect {a : App} {job : Job} {screen : Screen} {e : JobEffect}
    (h : job.effect? a screen = some e) : e.screen.calledLoad = screen.calledLoad := by
  cases Job.turn_of_effect h <;> rfl

/-- What a move that is about no call leaves alone. -/
theorem step?_of_no_call {a a' : App} {m : Move} (h : a.step? m = some a') (hm : m.call? = none) :
    a'.calls = a.calls ∧ a'.registries = a.registries ∧
      ∀ i, (a'.screen i).calledLoad = (a.screen i).calledLoad := by
  have modified : ∀ {b : App} {j : ScreenId} {f : Screen → Screen}, b.screens = a.screens.modify j f →
      (∀ screen, a.screens.get? j = some screen → (f screen).calledLoad = screen.calledLoad) →
        ∀ i, (b.screen i).calledLoad = (a.screen i).calledLoad :=
    fun hb hf i => screen_modify_proj (·.calledLoad) hb hf i
  cases m with
  | load | resume | expire => cases hm
  | addScreen =>
    cases h
    exact ⟨rfl, rfl, fun i => by rw [screen_addScreen]⟩
  | prepare j markup options =>
    cases h
    unfold prepare
    split
    · exact ⟨rfl, rfl, fun _ => rfl⟩
    · split
      · exact ⟨rfl, rfl, fun _ => rfl⟩
      · exact ⟨rfl, rfl, modified rfl fun _ _ => rfl⟩
  | take j =>
    obtain ⟨job, rest, -, -, rfl⟩ := takeJob?_eq_some h
    exact ⟨rfl, rfl, fun _ => rfl⟩
  | work j =>
    obtain ⟨k, job, screen, e, -, -, hs, he, rfl⟩ := work?_eq_some h
    refine ⟨rfl, rfl, modified rfl fun screen' hs' => ?_⟩
    rw [hs] at hs'
    cases hs'
    exact calledLoad_effect he
  | discard j =>
    obtain ⟨-, rfl⟩ := discardJob?_eq_some h
    exact ⟨rfl, rfl, modified rfl fun _ _ => rfl⟩
  | drop j =>
    cases h
    cases hs : a.screens.get? j with
    | none => simp [dropScreen, hs]
    | some screen =>
      rw [dropScreen_eq hs]
      refine ⟨rfl, rfl, modified rfl fun screen' hs' => ?_⟩
      rw [hs] at hs'
      cases hs'
      rfl
  | present t j value =>
    cases h
    rw [present_eq]
    exact ⟨rfl, rfl, fun _ => rfl⟩
  | openGate | update | perform | animate | addLoadHook | poll =>
    cases h
    exact ⟨rfl, rfl, fun _ => rfl⟩

/-- What a move does to the calls of one screen and to the flag of the screen. -/
inductive CallMove (i : ScreenId) (a a' : App) : Move → Prop where
  /-- Nothing. -/
  | elsewhere {m : Move} (about : ∀ c, m.call? = some c → c.screen ≠ i)
      (calls : ∀ c, c.screen = i → a'.calls.get? c = a.calls.get? c)
      (flag : (a'.screen i).calledLoad = (a.screen i).calledLoad) : CallMove i a a' m
  /-- A call is made. -/
  | load {c : CallId} {r : LoadRequest} (about : c.screen = i) (fresh : a.calls.get? c = none)
      (after : a' = { a with calls := a.calls.insert c ⟨r, .check⟩ }) : CallMove i a a' (.load c r)
  /-- A call has waited too long. -/
  | expire {c : CallId} {r : LoadRequest} (about : c.screen = i) (waits : a.calls.get? c = some ⟨r, .wait⟩)
      (after : a' = { a with calls := a.calls.insert c ⟨r, .expired⟩ }) : CallMove i a a' (.expire c)
  /-- A call goes on. -/
  | resume {c : CallId} {call : LoadCall} {stage : LoadStage} {flag : Option Bool} (about : c.screen = i)
      (before : a.calls.get? c = some call) (known : a.screens.get? i = some (a.screen i))
      (next : call.next? a.registries (a.screen i) = some (stage, flag))
      (after : a' = { a with
        scene := call.act a.scene
        screens := a.flagged i flag
        calls := a.calls.insert c { call with stage } }) : CallMove i a a' (.resume c)

/-- Every move is of one of these kinds. -/
theorem callMove_of_step {a a' : App} {m : Move} (h : a.step? m = some a') (i : ScreenId) : CallMove i a a' m := by
  cases hm : m.call? with
  | none =>
    obtain ⟨hcalls, -, hflag⟩ := step?_of_no_call h hm
    exact .elsewhere (by simp [hm]) (fun c _ => by rw [hcalls]) (hflag i)
  | some c =>
    by_cases hc : c.screen = i
    · cases m with
      | load c' r =>
        cases hm
        obtain ⟨hnone, ha⟩ := addCall?_eq_some h
        exact .load hc hnone ha
      | expire c' =>
        cases hm
        obtain ⟨r, hwait, ha⟩ := expire?_eq_some h
        exact .expire hc hwait ha
      | resume c' =>
        cases hm
        obtain ⟨call, screen, stage, flag, hcall, hs, hnext, ha⟩ := resume?_eq_some h
        subst hc
        obtain rfl := screen_eq hs
        exact .resume rfl hcall hs hnext ha
      | _ => cases hm
    · have hother : ∀ {c' call}, c'.screen = i → (a.calls.insert c call).get? c' = a.calls.get? c' := by
        intro c' call hc'
        refine Table.get?_insert_other _ _ fun he => hc ?_
        rw [← he, hc']
      have habout : ∀ c', m.call? = some c' → c'.screen ≠ i := by
        intro c' hc'
        rw [hm] at hc'
        cases hc'
        exact hc
      cases m with
      | load c' r =>
        cases hm
        obtain ⟨-, rfl⟩ := addCall?_eq_some h
        exact .elsewhere habout (fun _ => hother) rfl
      | expire c' =>
        cases hm
        obtain ⟨r, -, rfl⟩ := expire?_eq_some h
        exact .elsewhere habout (fun _ => hother) rfl
      | resume c' =>
        cases hm
        obtain ⟨call, screen, stage, flag, -, -, -, rfl⟩ := resume?_eq_some h
        refine .elsewhere habout (fun _ => hother) ?_
        cases flag with
        | none => rfl
        | some b => exact congrArg _ (screen_modify_other _ rfl hc)
      | _ => cases hm

end App

end LiveScreen
