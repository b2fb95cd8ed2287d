/-
A screen is loaded by one call at most. The screen's flag works as a lock that
is only tried: a call that finds it set turns back, and the call that set it
holds the screen until it returns. A call that gets layout parameters never gives
the screen back, so it stays the only one that pushes anything into the screen's
graph, and it does so along one fixed script (`loads_once`).
-/
import LiveScreen.Proofs.Loader.Jobs

namespace LiveScreen

/-! ## The script of a loading -/

/-- The last stages of a loading. -/
def closing (g : GraphId) : List LoadStage :=
  [.bindData g, .markLoaded g, .fireData g, .fireFinish g, .runHooks g]

/-- The stages of a loading from the storing of the data on: every entry is stored once, in order. -/
def storing (g : GraphId) : List (String × Value) → List LoadStage
  | [] => .store g [] :: closing g
  | e :: rest => .store g (e :: rest) :: storing g rest

/-- The stages of a whole loading from the making of the layout parameters on. -/
def LoadRequest.script (r : LoadRequest) (g : GraphId) (params : Layout.Params) : List LoadStage :=
  .resolve g :: .bindAnimations g params :: .mount g params :: storing g r.data

theorem mem_storing {g : GraphId} {stage : LoadStage} : ∀ {data : List (String × Value)},
    stage ∈ storing g data ↔ (∃ rest, rest <:+ data ∧ stage = .store g rest) ∨ stage ∈ closing g
  | [] => by simp [storing]
  | e :: data => by
    simp only [storing, List.mem_cons, mem_storing, List.suffix_cons_iff]
    constructor
    · rintro (rfl | ⟨rest, hrest, rfl⟩ | hclosing)
      · exact .inl ⟨_, .inl rfl, rfl⟩
      · exact .inl ⟨rest, .inr hrest, rfl⟩
      · exact .inr hclosing
    · rintro (⟨rest, rfl | hrest, rfl⟩ | hclosing)
      · exact .inl rfl
      · exact .inr (.inl ⟨rest, hrest, rfl⟩)
      · exact .inr (.inr hclosing)

/-- Layout parameters are mounted at one place of a script. -/
theorem mount_mem_script {r : LoadRequest} {g g' : GraphId} {params p : Layout.Params} :
    .mount g' p ∈ r.script g params ↔ g' = g ∧ p = params := by
  simp [LoadRequest.script, mem_storing, closing]

theorem runHooks_mem_script (r : LoadRequest) (g : GraphId) (params : Layout.Params) :
    .runHooks g ∈ r.script g params := by
  simp [LoadRequest.script, mem_storing, closing]

namespace LoadCall

/-- The stages that a call has still to go through. -/
def remaining (call : LoadCall) : List LoadStage :=
  match call.stage with
  | .bindAnimations g params => .bindAnimations g params :: .mount g params :: storing g call.request.data
  | .mount g params => .mount g params :: storing g call.request.data
  | .store g rest => storing g rest
  | .bindData g => closing g
  | .markLoaded g => (closing g).drop 1
  | .fireData g => (closing g).drop 2
  | .fireFinish g => (closing g).drop 3
  | .runHooks g => (closing g).drop 4
  | _ => []

theorem remaining_of_passed {call : LoadCall} (h : call.stage.passed = true) :
    call.remaining = call.stage :: remaining { call with stage := call.following } := by
  obtain ⟨request, stage⟩ := call
  cases stage with
  | store g rest => cases rest <;> rfl
  | bindAnimations | mount | bindData | markLoaded | fireData | fireFinish | runHooks => rfl
  | _ => cases h

/-- A call has got layout parameters: it is pushing things into the graph, or is through. -/
def Won (call : LoadCall) : Prop := call.stage.passed = true ∨ ∃ g, call.stage = .returned (.ok g)

theorem won_following {call : LoadCall} (h : call.stage.passed = true) :
    Won { call with stage := call.following } := by
  obtain ⟨request, stage⟩ := call
  cases stage with
  | store g rest => cases rest <;> exact .inl rfl
  | bindAnimations | mount | bindData | markLoaded | fireData | fireFinish => exact .inl rfl
  | runHooks g => exact .inr ⟨g, rfl⟩
  | _ => cases h

theorem graph?_following {call : LoadCall} (h : call.stage.passed = true) {g : GraphId}
    (hg : call.following.graph? = some g) : call.stage.graph? = some g := by
  obtain ⟨request, stage⟩ := call
  cases stage with
  | store g' rest => cases rest <;> exact hg
  | bindAnimations | mount | bindData | markLoaded | fireData | fireFinish => exact hg
  | runHooks g' => cases hg
  | _ => cases h

/-- A call answers with a graph once it has run the graph's load hooks. -/
theorem stage_of_following_returned {call : LoadCall} (h : call.stage.passed = true)
    {result : Except LoadError GraphId} (hr : call.following = .returned result) :
    ∃ g, call.stage = .runHooks g ∧ result = .ok g := by
  obtain ⟨request, stage⟩ := call
  cases stage with
  | store g rest => cases rest <;> cases hr
  | runHooks g =>
    cases hr
    exact ⟨g, rfl, rfl⟩
  | bindAnimations | mount | bindData | markLoaded | fireData | fireFinish => cases hr
  | _ => cases h

/-- What a call can do in one step: its next stage, and what becomes of its screen's flag. -/
inductive Turn (registries : Registries) (screen : Screen) (call : LoadCall) : LoadStage → Option Bool → Prop
  /-- The screen is not initialized, or another call has taken it. -/
  | turnBack {result : Except LoadError GraphId} (at_check : call.stage = .check)
      (held : screen.calledInitialize = false ∧ result = .error .notInitialized ∨
        screen.calledLoad = true ∧ result = App.viewOf screen) : Turn registries screen call (.returned result) none
  /-- The call takes the screen. -/
  | take (at_check : call.stage = .check) (free : screen.calledLoad = false) :
      Turn registries screen call .wait (some true)
  /-- The call was woken. -/
  | wake (at_wait : call.stage = .wait) (released : screen.released = true) : Turn registries screen call .lookUp none
  /-- The call has found a view. -/
  | find {g : GraphId} (at_lookUp : call.stage = .lookUp) (view : screen.view = some g) :
      Turn registries screen call (.resolve g) none
  /-- There is no view; the screen stays taken. -/
  | miss (at_lookUp : call.stage = .lookUp) (view : screen.view = none) :
      Turn registries screen call (.returned (.error .emptyView)) none
  /-- The call gets layout parameters. -/
  | win {g : GraphId} {params : Layout.Params} (at_resolve : call.stage = .resolve g)
      (made : registries.params.resolve (some call.request.paramType) call.request.parent = some params) :
      Turn registries screen call (.bindAnimations g params) none
  /-- There are no layout parameters. -/
  | lose {g : GraphId} (at_resolve : call.stage = .resolve g)
      (made : registries.params.resolve (some call.request.paramType) call.request.parent = none) :
      Turn registries screen call .unavailable none
  /-- The call gives the screen back. -/
  | giveBack {error : LoadError} (at_end : call.stage = .expired ∧ error = .timedOut ∨
      call.stage = .unavailable ∧ error = .paramsUnavailable) :
      Turn registries screen call (.returned (.error error)) (some false)
  /-- The call pushes something into the graph. -/
  | push (passed : call.stage.passed = true) : Turn registries screen call call.following none

/-- The graph a call is about after a step is the one it was about, or the screen's view. -/
theorem Turn.graph {registries : Registries} {screen : Screen} {call : LoadCall} {stage : LoadStage}
    {flag : Option Bool} (h : Turn registries screen call stage flag) {g : GraphId} (hg : stage.graph? = some g) :
    call.stage.graph? = some g ∨ screen.view = some g := by
  cases h with
  | find _ hv =>
    cases hg
    exact .inr hv
  | win hstage _ =>
    cases hg
    exact .inl (by rw [hstage]; rfl)
  | push hpassed => exact .inl (graph?_following hpassed hg)
  | _ => cases hg

/-- A call that holds its screen after a step without having set the flag held it before. -/
theorem Turn.held {registries : Registries} {screen : Screen} {call : LoadCall} {stage : LoadStage}
    (h : Turn registries screen call stage none) (hs : stage.holds = true) : call.stage.holds = true := by
  cases h with
  | wake hstage | find hstage | win hstage | lose hstage => rw [hstage]; rfl
  | push hpassed => exact LoadStage.holds_of_passed hpassed
  | turnBack | miss => cases hs

theorem turn_of_next {registries : Registries} {screen : Screen} {call : LoadCall} {stage : LoadStage}
    {flag : Option Bool} (h : call.next? registries screen = some (stage, flag)) :
    Turn registries screen call stage flag := by
  cases hstage : call.stage with
  | check =>
    simp only [next?, hstage] at h
    split at h
    · rename_i hi
      cases h
      exact .turnBack hstage (.inl ⟨by simpa using hi, rfl⟩)
    · split at h
      · rename_i hl
        cases h
        exact .turnBack hstage (.inr ⟨hl, rfl⟩)
      · rename_i hl
        cases h
        exact .take hstage (by simpa using hl)
  | wait =>
    simp only [next?, hstage] at h
    split at h
    · rename_i hr
      cases h
      exact .wake hstage hr
    · cases h
  | expired =>
    simp only [next?, hstage] at h
    cases h
    exact .giveBack (.inl ⟨hstage, rfl⟩)
  | lookUp =>
    simp only [next?, hstage] at h
    split at h
    · rename_i g hv
      cases h
      exact .find hstage hv
    · rename_i hv
      cases h
      exact .miss hstage hv
  | resolve g =>
    simp only [next?, hstage] at h
    split at h
    · rename_i params hp
      cases h
      exact .win hstage hp
    · rename_i hp
      cases h
      exact .lose hstage hp
  | unavailable =>
    simp only [next?, hstage] at h
    cases h
    exact .giveBack (.inr ⟨hstage, rfl⟩)
  | returned =>
    simp only [next?, hstage] at h
    cases h
  | _ =>
    have hpassed : call.stage.passed = true := by rw [hstage]; rfl
    rw [next?_of_passed hpassed] at h
    cases h
    exact .push hpassed

end LoadCall

namespace App

/-! ## What a run completes -/

/-- The stage of loading a screen that a move completes, from the making of the layout parameters on,
and the call that was at it. -/
def completed? (a : App) (i : ScreenId) : Move → Option (CallId × LoadStage)
  | .resume c =>
    if c.screen = i then
      match a.calls.get? c with
      | some ⟨r, .resolve g⟩ =>
        if (a.registries.params.resolve (some r.paramType) r.parent).isSome then some (c, .resolve g) else none
      | some ⟨_, stage⟩ => if stage.passed then some (c, stage) else none
      | none => none
    else none
  | _ => none

/-- What a run completes of loading a screen, in order. -/
def completed (a : App) (i : ScreenId) : List Move → List (CallId × LoadStage)
  | [] => []
  | m :: rest =>
    match a.step? m with
    | some a' => (a.completed? i m).toList ++ a'.completed i rest
    | none => []

theorem completed_concat (i : ScreenId) (m : Move) : ∀ (ms : List Move) {start a : App}, start.steps? ms = some a →
    (a.step? m).isSome = true → start.completed i (ms ++ [m]) = start.completed i ms ++ (a.completed? i m).toList
  | [], start, a, h, hm => by
    cases h
    obtain ⟨a', ha'⟩ := Option.isSome_iff_exists.1 hm
    simp [completed, ha']
  | m' :: ms, start, a, h, hm => by
    obtain ⟨b, hb, hrest⟩ := Option.bind_eq_some_iff.1 h
    simp only [List.cons_append, completed, hb]
    rw [completed_concat i m ms hrest hm, List.append_assoc]

variable {a a' : App} {i : ScreenId}

theorem completed?_of_not_about {m : Move} (h : ∀ c, m.call? = some c → c.screen ≠ i) :
    a.completed? i m = none := by
  cases m with
  | resume c => exact if_neg (h c rfl)
  | _ => rfl

theorem completed?_of_passed {c : CallId} {call : LoadCall} (hc : c.screen = i) (hcall : a.calls.get? c = some call)
    (h : call.stage.passed = true) : a.completed? i (.resume c) = some (c, call.stage) := by
  obtain ⟨request, stage⟩ := call
  simp only [completed?, hc, if_true, hcall]
  cases stage <;> first | rfl | cases h

theorem completed?_of_win {c : CallId} {call : LoadCall} {g : GraphId} {params : Layout.Params} (hc : c.screen = i)
    (hcall : a.calls.get? c = some call) (h : call.stage = .resolve g)
    (hp : a.registries.params.resolve (some call.request.paramType) call.request.parent = some params) :
    a.completed? i (.resume c) = some (c, .resolve g) := by
  obtain ⟨request, stage⟩ := call
  cases h
  simp only [completed?, hc, if_true, hcall]
  rw [if_pos (by rw [hp]; rfl)]

theorem completed?_of_lose {c : CallId} {call : LoadCall} {g : GraphId}
    (hcall : a.calls.get? c = some call) (h : call.stage = .resolve g)
    (hp : a.registries.params.resolve (some call.request.paramType) call.request.parent = none) :
    a.completed? i (.resume c) = none := by
  obtain ⟨request, stage⟩ := call
  cases h
  have hnone : a.registries.params.resolve (some request.paramType) request.parent = none := hp
  simp only [completed?, hcall, hnone]
  split <;> rfl

theorem completed?_of_stage {c : CallId} {call : LoadCall} (hcall : a.calls.get? c = some call)
    (hpassed : call.stage.passed = false) (hresolve : ∀ g, call.stage ≠ .resolve g) :
    a.completed? i (.resume c) = none := by
  obtain ⟨request, stage⟩ := call
  simp only [completed?, hcall]
  split
  · cases stage with
    | resolve g => exact absurd rfl (hresolve g)
    | check | wait | expired | lookUp | unavailable | returned => rfl
    | _ => cases hpassed
  · rfl

/-! ## Who holds a screen -/

/-- A call has taken its screen and may yet give it back. -/
def Holds (a : App) (c : CallId) : Prop := ∃ call, a.calls.get? c = some call ∧ call.stage.holds = true

/-- The calls after one of them was made or has changed. -/
theorem calls_insert_cases {c c' : CallId} {call call' : LoadCall} (h : a'.calls = a.calls.insert c call)
    (hc : a'.calls.get? c' = some call') :
    (c' = c ∧ call' = call) ∨ (c' ≠ c ∧ a.calls.get? c' = some call') := by
  rw [h] at hc
  by_cases he : c' = c
  · subst he
    rw [Table.get?_insert_self] at hc
    exact .inl ⟨rfl, (Option.some.inj hc).symm⟩
  · rw [Table.get?_insert_other _ _ he] at hc
    exact .inr ⟨he, hc⟩

/-- The lock of a screen: its flag is set while a call holds it, at most one call does, and the graph
a call works on is the screen's own. -/
structure Locked (i : ScreenId) (a : App) : Prop where
  taken : ∀ c, c.screen = i → a.Holds c → (a.screen i).calledLoad = true
  single : ∀ c c', c.screen = i → c'.screen = i → a.Holds c → a.Holds c' → c = c'
  graph : ∀ c call, c.screen = i → a.calls.get? c = some call → a.Owns i call.stage.graph?

/-- What was completed of loading a screen: nothing, and no call has layout parameters, or one call's
script up to where it is, while the screen stays taken and no other call holds it. -/
def Recorded (i : ScreenId) (a : App) (done : List (CallId × LoadStage)) : Prop :=
  (done = [] ∧ ∀ c call, c.screen = i → a.calls.get? c = some call → call.stage.passed = false) ∨
    ∃ c call params, c.screen = i ∧ a.calls.get? c = some call ∧ call.Won ∧ (a.screen i).calledLoad = true ∧
      (∀ c', c'.screen = i → a.Holds c' → c' = c) ∧
        done ++ call.remaining.map (c, ·) = (call.request.script (.screen i) params).map (c, ·)

theorem holds_insert {c c' : CallId} {call : LoadCall} (h : a'.calls = a.calls.insert c call) :
    a'.Holds c' ↔ if c' = c then call.stage.holds = true else a.Holds c' := by
  unfold Holds
  rw [h]
  by_cases hc : c' = c
  · subst hc; simp
  · simp [hc, Table.get?_insert_other]

/-- What a call that goes on does to who holds its screen. -/
theorem holds_resume {c : CallId} {call : LoadCall} {stage : LoadStage} {flag : Option Bool}
    (known : a.screens.get? i = some (a.screen i)) (after : a' = { a with
      scene := call.act a.scene
      screens := a.flagged i flag
      calls := a.calls.insert c { call with stage } }) :
    (a'.screen i).calledLoad = flag.getD (a.screen i).calledLoad ∧
      ∀ c', a'.Holds c' ↔ if c' = c then stage.holds = true else a.Holds c' := by
  subst after
  refine ⟨?_, fun c' => holds_insert (show _ = a.calls.insert c { call with stage } from rfl)⟩
  cases flag with
  | none => rfl
  | some b => exact congrArg Screen.calledLoad (screen_modify_self known (fun s => { s with calledLoad := b }) rfl)

/-- A move after which no more calls hold the screen than before, while its flag is the same. -/
theorem Locked.of_fewer (hl : Locked i a) (hflag : (a'.screen i).calledLoad = (a.screen i).calledLoad)
    (hholds : ∀ c, c.screen = i → a'.Holds c → a.Holds c)
    (hgraph : ∀ c call, c.screen = i → a'.calls.get? c = some call → a'.Owns i call.stage.graph?) :
    Locked i a' := by
  refine ⟨fun c hc hh => ?_, fun c c' hc hc' hh hh' => ?_, hgraph⟩
  · rw [hflag]
    exact hl.taken c hc (hholds c hc hh)
  · exact hl.single c c' hc hc' (hholds c hc hh) (hholds c' hc' hh')

/-- The graphs that calls are about after a move that changes one call. -/
theorem Locked.graph_insert (hl : Locked i a) {m : Move} (h : a.step? m = some a') {c : CallId} {call : LoadCall}
    (after : a'.calls = a.calls.insert c call) (hnew : a'.Owns i call.stage.graph?) :
    ∀ c' call', c'.screen = i → a'.calls.get? c' = some call' → a'.Owns i call'.stage.graph? := by
  intro c' call' hc' hcall
  rcases calls_insert_cases after hcall with ⟨rfl, rfl⟩ | ⟨-, hold⟩
  · exact hnew
  · exact (hl.graph c' call' hc' hold).step h

/-- Every move keeps the lock of a screen. -/
theorem Locked.step (hl : Locked i a) (hp : Prepared i a) {m : Move} (h : a.step? m = some a') : Locked i a' := by
  cases callMove_of_step h i with
  | elsewhere about calls flag =>
    refine hl.of_fewer flag (fun c hc hh => ?_) fun c call hc hcall => ?_
    · simpa only [Holds, calls c hc] using hh
    · rw [calls c hc] at hcall
      exact (hl.graph c call hc hcall).step h
  | @load c r about fresh after =>
    have hcalls : a'.calls = a.calls.insert c ⟨r, .check⟩ := by rw [after]
    refine hl.of_fewer (by rw [after]; rfl) (fun c' hc' hh => ?_) (hl.graph_insert h hcalls fun g hg => by cases hg)
    rw [holds_insert hcalls] at hh
    split at hh
    · cases hh
    · exact hh
  | @expire c r about waits after =>
    have hcalls : a'.calls = a.calls.insert c ⟨r, .expired⟩ := by rw [after]
    refine hl.of_fewer (by rw [after]; rfl) (fun c' hc' hh => ?_) (hl.graph_insert h hcalls fun g hg => by cases hg)
    rw [holds_insert hcalls] at hh
    split at hh
    · rename_i he
      subst he
      exact ⟨_, waits, rfl⟩
    · exact hh
  | @resume c call stage flag about before known next after =>
    obtain ⟨hflag, hholds⟩ := holds_resume known after
    have hturn := LoadCall.turn_of_next next
    have hcalls : a'.calls = a.calls.insert c { call with stage } := by rw [after]
    have hgraph := hl.graph_insert h hcalls fun g hg => by
      rcases hturn.graph hg with hold | hview
      · exact (hl.graph c call about before).step h g hold
      · exact hp.view.step h g hview
    cases flag with
    | none =>
      refine hl.of_fewer hflag (fun c' _ hh => ?_) hgraph
      rw [hholds] at hh
      split at hh
      · rename_i he
        subst he
        exact ⟨call, before, hturn.held hh⟩
      · exact hh
    | some b =>
      cases hturn with
      | take at_check free =>
        -- The flag was not set, so no call held the screen.
        have honly : ∀ c', c'.screen = i → a'.Holds c' → c' = c := by
          intro c' hc' hh
          rw [hholds] at hh
          split at hh
          · assumption
          · have htaken := hl.taken c' hc' hh
            rw [free] at htaken
            cases htaken
        refine ⟨fun c' hc' hh => hflag, fun c₁ c₂ hc₁ hc₂ hh₁ hh₂ => ?_, hgraph⟩
        rw [honly c₁ hc₁ hh₁, honly c₂ hc₂ hh₂]
      | giveBack at_end =>
        -- The call was the only one that held the screen.
        have hheld : a.Holds c := by
          refine ⟨call, before, ?_⟩
          rcases at_end with ⟨hstage, -⟩ | ⟨hstage, -⟩
          · rw [hstage]; rfl
          · rw [hstage]; rfl
        have hnone : ∀ c', c'.screen = i → ¬ a'.Holds c' := by
          intro c' hc' hh
          rw [hholds] at hh
          split at hh
          · cases hh
          · rename_i hne
            exact hne (hl.single c' c hc' about hh hheld)
        exact ⟨fun c' hc' hh => absurd hh (hnone c' hc'), fun c₁ c₂ hc₁ _ hh₁ _ => absurd hh₁ (hnone c₁ hc₁), hgraph⟩

/-! ## The record of a run -/

/-- A move that completes nothing: no call becomes a winner, the winner stays where it is, the flag
of the screen stays, and no other call comes to hold the screen. -/
theorem Recorded.keep {done : List (CallId × LoadStage)} (hr : Recorded i a done)
    (hflag : (a'.screen i).calledLoad = (a.screen i).calledLoad)
    (hcalls : ∀ c call, c.screen = i → a.calls.get? c = some call → call.Won → a'.calls.get? c = some call)
    (hholds : ∀ c, c.screen = i → a'.Holds c → a.Holds c)
    (hpassed : ∀ c call, c.screen = i → a'.calls.get? c = some call → call.stage.passed = true →
      ∃ call', a.calls.get? c = some call' ∧ call'.stage.passed = true) : Recorded i a' done := by
  rcases hr with ⟨hnil, hno⟩ | ⟨c, call, params, hc, hcall, hw, hl, honly, hdone⟩
  · refine .inl ⟨hnil, fun c call hc hcall => ?_⟩
    cases hpass : call.stage.passed with
    | false => rfl
    | true =>
      obtain ⟨call', hcall', hpass'⟩ := hpassed c call hc hcall hpass
      rw [hno c call' hc hcall'] at hpass'
      cases hpass'
  · exact .inr ⟨c, call, params, hc, hcalls c call hc hcall hw, hw, by rw [hflag, hl],
      fun c' hc' hh => honly c' hc' (hholds c' hc' hh), hdone⟩

/-- A call that holds its screen before it has layout parameters knows that nobody has any. -/
theorem Recorded.nobody {done : List (CallId × LoadStage)} (hr : Recorded i a done) {c : CallId} {call : LoadCall}
    (hc : c.screen = i) (hcall : a.calls.get? c = some call) (hholds : call.stage.holds = true)
    (hpassed : call.stage.passed = false) :
    done = [] ∧ ∀ c call, c.screen = i → a.calls.get? c = some call → call.stage.passed = false := by
  rcases hr with hnone | ⟨w, call', params, -, hcall', hw, -, honly, -⟩
  · exact hnone
  · obtain rfl := honly c hc ⟨call, hcall, hholds⟩
    rw [hcall] at hcall'
    obtain rfl := Option.some.inj hcall'
    rcases hw with hpass | ⟨g, hret⟩
    · rw [hpassed] at hpass; cases hpass
    · rw [hret] at hholds; cases hholds

theorem nobody_insert {c : CallId} {call : LoadCall} (hcalls : a'.calls = a.calls.insert c call)
    (hno : ∀ c call, c.screen = i → a.calls.get? c = some call → call.stage.passed = false)
    (hnew : call.stage.passed = false) :
    ∀ c call, c.screen = i → a'.calls.get? c = some call → call.stage.passed = false := by
  intro c' call' hc' hcall'
  rcases calls_insert_cases hcalls hcall' with ⟨rfl, rfl⟩ | ⟨-, hold⟩
  · exact hnew
  · exact hno c' call' hc' hold

/-- A call whose stage changes, from one without layout parameters to another, while it holds the
screen or gets hold of it. -/
theorem Recorded.nobody_resume {done : List (CallId × LoadStage)} {c : CallId} {call : LoadCall} {stage : LoadStage}
    (hcalls : a'.calls = a.calls.insert c { call with stage })
    (hcompleted : a.completed? i (.resume c) = none) (hnew : stage.passed = false)
    (hnobody : done = [] ∧ ∀ c call, c.screen = i → a.calls.get? c = some call → call.stage.passed = false) :
    Recorded i a' (done ++ (a.completed? i (.resume c)).toList) := by
  obtain ⟨rfl, hno⟩ := hnobody
  rw [hcompleted]
  exact .inl ⟨rfl, nobody_insert hcalls hno hnew⟩

theorem Recorded.resume {done : List (CallId × LoadStage)} (hr : Recorded i a done) (hl : Locked i a) {c : CallId}
    {call : LoadCall} {stage : LoadStage} {flag : Option Bool} (about : c.screen = i)
    (before : a.calls.get? c = some call) (known : a.screens.get? i = some (a.screen i))
    (turn : LoadCall.Turn a.registries (a.screen i) call stage flag) (after : a' = { a with
      scene := call.act a.scene
      screens := a.flagged i flag
      calls := a.calls.insert c { call with stage } }) :
    Recorded i a' (done ++ (a.completed? i (.resume c)).toList) := by
  obtain ⟨hflag, hholds⟩ := holds_resume known after
  have hcalls : a'.calls = a.calls.insert c { call with stage } := by rw [after]
  have hgraph := hl.graph c call about before
  cases turn with
  | turnBack at_check held =>
    have hnone := completed?_of_stage (i := i) before (by rw [at_check]; rfl) (by rw [at_check]; nofun)
    rw [hnone, Option.toList_none, List.append_nil]
    refine hr.keep hflag (fun c' call' _ hcall' hw => ?_) (fun c' _ hh => ?_) fun c' call' hc' hcall' hpass => ?_
    · rw [hcalls, Table.get?_insert_other, hcall']
      rintro rfl
      rw [before] at hcall'
      cases hcall'
      rcases hw with hpass | ⟨g, hret⟩
      · rw [at_check] at hpass; cases hpass
      · rw [at_check] at hret; cases hret
    · rw [hholds] at hh
      split at hh
      · cases hh
      · exact hh
    · rcases calls_insert_cases hcalls hcall' with ⟨rfl, rfl⟩ | ⟨-, hold⟩
      · cases hpass
      · exact ⟨call', hold, hpass⟩
  | take at_check free =>
    refine .nobody_resume hcalls (completed?_of_stage before (by rw [at_check]; rfl) (by rw [at_check]; nofun)) rfl ?_
    rcases hr with hnobody | ⟨w, call', params, -, -, -, htaken, -⟩
    · exact hnobody
    · rw [free] at htaken
      cases htaken
  | wake hstage | find hstage | miss hstage =>
    exact .nobody_resume hcalls (completed?_of_stage before (by rw [hstage]; rfl) (by rw [hstage]; nofun)) rfl
      (hr.nobody about before (by rw [hstage]; rfl) (by rw [hstage]; rfl))
  | lose hstage made =>
    exact .nobody_resume hcalls (completed?_of_lose before hstage made) rfl
      (hr.nobody about before (by rw [hstage]; rfl) (by rw [hstage]; rfl))
  | giveBack at_end =>
    have hstage : call.stage.holds = true ∧ call.stage.passed = false ∧ ∀ g, call.stage ≠ .resolve g := by
      rcases at_end with ⟨hs, -⟩ | ⟨hs, -⟩
      · rw [hs]; exact ⟨rfl, rfl, nofun⟩
      · rw [hs]; exact ⟨rfl, rfl, nofun⟩
    exact .nobody_resume hcalls (completed?_of_stage before hstage.2.1 hstage.2.2) rfl
      (hr.nobody about before hstage.1 hstage.2.1)
  | @win g params hstage made =>
    -- The call holds the screen, so it is the only one to get layout parameters.
    have hholding : call.stage.holds = true := by rw [hstage]; rfl
    obtain ⟨rfl, -⟩ := hr.nobody about before hholding (by rw [hstage]; rfl)
    obtain ⟨rfl, -⟩ := hgraph g (by rw [hstage]; rfl)
    rw [completed?_of_win about before hstage made]
    refine .inr ⟨c, { call with stage := .bindAnimations (.screen i) params }, params, about, ?_, .inl rfl, ?_, ?_, rfl⟩
    · rw [hcalls, Table.get?_insert_self]
    · rw [hflag]
      exact hl.taken c about ⟨call, before, hholding⟩
    · intro c' hc' hh
      rw [hholds] at hh
      split at hh
      · assumption
      · exact hl.single c' c hc' about hh ⟨call, before, hholding⟩
  | push hpass =>
    rcases hr with ⟨-, hno⟩ | ⟨w, call', params, hw, hcall', -, htaken, honly, hdone⟩
    · rw [hno c call about before] at hpass
      cases hpass
    · obtain rfl := honly c about ⟨call, before, LoadStage.holds_of_passed hpass⟩
      rw [before] at hcall'
      obtain rfl := Option.some.inj hcall'
      rw [completed?_of_passed about before hpass]
      have hwon := LoadCall.won_following hpass
      refine .inr ⟨c, { call with stage := call.following }, params, about, ?_, hwon, ?_, ?_, ?_⟩
      · rw [hcalls, Table.get?_insert_self]
      · rw [hflag]
        exact htaken
      · intro c' hc' hh
        rw [hholds] at hh
        split at hh
        · assumption
        · exact honly c' hc' hh
      · rw [LoadCall.remaining_of_passed hpass] at hdone
        rw [← hdone]
        simp

/-- Every move keeps the record. -/
theorem Recorded.step {done : List (CallId × LoadStage)} (hr : Recorded i a done) (hl : Locked i a) {m : Move}
    (h : a.step? m = some a') : Recorded i a' (done ++ (a.completed? i m).toList) := by
  cases callMove_of_step h i with
  | elsewhere about calls flag =>
    rw [completed?_of_not_about about, Option.toList_none, List.append_nil]
    refine hr.keep flag (fun c call hc hcall _ => by rw [calls c hc, hcall]) (fun c hc hh => ?_)
      fun c call hc hcall hpass => ⟨call, by rw [← calls c hc, hcall], hpass⟩
    simpa only [Holds, calls c hc] using hh
  | @load c r about fresh after =>
    have hcalls : a'.calls = a.calls.insert c ⟨r, .check⟩ := by rw [after]
    have hnone : a.completed? i (.load c r) = none := rfl
    rw [hnone, Option.toList_none, List.append_nil]
    refine hr.keep (by rw [after]; rfl) (fun c' call _ hcall _ => ?_) (fun c' _ hh => ?_)
      fun c' call hc' hcall hpass => ?_
    · rw [hcalls, Table.get?_insert_other, hcall]
      rintro rfl
      rw [fresh] at hcall
      cases hcall
    · rw [holds_insert hcalls] at hh
      split at hh
      · cases hh
      · exact hh
    · rcases calls_insert_cases hcalls hcall with ⟨rfl, rfl⟩ | ⟨-, hold⟩
      · cases hpass
      · exact ⟨call, hold, hpass⟩
  | @expire c r about waits after =>
    have hcalls : a'.calls = a.calls.insert c ⟨r, .expired⟩ := by rw [after]
    have hnone : a.completed? i (.expire c) = none := rfl
    obtain ⟨rfl, hno⟩ := hr.nobody about waits rfl rfl
    rw [hnone]
    exact .inl ⟨rfl, nobody_insert hcalls hno rfl⟩
  | @resume c call stage flag about before known next after =>
    exact hr.resume hl about before known (LoadCall.turn_of_next next) after

/-! ## One loading -/

theorem Fresh.locked (h : a.Fresh) (i : ScreenId) : Locked i a := by
  have hnone : ∀ c, a.calls.get? c = none := fun c => by rw [h.calls]; rfl
  have hholds : ∀ c, ¬ a.Holds c := by
    rintro c ⟨call, hcall, -⟩
    rw [hnone] at hcall
    cases hcall
  refine ⟨fun c _ hh => absurd hh (hholds c), fun c _ _ _ hh _ => absurd hh (hholds c), fun c call _ hcall => ?_⟩
  rw [hnone] at hcall
  cases hcall

theorem Fresh.recorded (h : a.Fresh) (i : ScreenId) : Recorded i a [] := by
  refine .inl ⟨rfl, fun c call _ hcall => ?_⟩
  rw [h.calls] at hcall
  cases hcall

/-- The lock and the record of a screen after any run. -/
theorem recorded_of_run {start : App} (hf : start.Fresh) (i : ScreenId) (ms : List Move) {a : App}
    (h : start.steps? ms = some a) : Locked i a ∧ Recorded i a (start.completed i ms) := by
  refine run_induction (P := fun ms a => Locked i a ∧ Recorded i a (start.completed i ms))
    ⟨hf.locked i, hf.recorded i⟩ (fun ms a m a' hms ih hstep => ?_) ms h
  rw [completed_concat i m ms hms (by rw [hstep]; rfl)]
  exact ⟨ih.1.step (prepared_of_run hf i ms hms) hstep, ih.2.step ih.1 hstep⟩

/-- A move of a call that completes nothing changes nothing in the scene. -/
theorem scene_of_call_move {m : Move} (h : a.step? m = some a') {c : CallId} (hm : m.call? = some c)
    (hc : c.screen = i) (hnone : a.completed? i m = none) : a'.scene = a.scene := by
  cases callMove_of_step h i with
  | elsewhere about => exact absurd hc (about c hm)
  | load _ _ after => rw [after]
  | expire _ _ after => rw [after]
  | @resume c' call stage flag about before known next after =>
    have hpassed : call.stage.passed = false := by
      cases hpass : call.stage.passed with
      | false => rfl
      | true =>
        rw [completed?_of_passed about before hpass] at hnone
        cases hnone
    rw [after]
    exact LoadCall.act_of_not_passed hpassed a.scene

/-- What is completed is completed by a step of the call. -/
theorem completed?_eq_some {m : Move} {c : CallId} {stage : LoadStage} (h : a.completed? i m = some (c, stage)) :
    m = .resume c ∧ c.screen = i ∧ ∃ r, a.calls.get? c = some ⟨r, stage⟩ := by
  cases m with
  | resume c' =>
    simp only [completed?] at h
    split at h
    · rename_i hc
      split at h
      · rename_i r g hcall
        split at h
        · cases h
          exact ⟨rfl, hc, r, hcall⟩
        · cases h
      · rename_i r stage' _ hcall
        split at h
        · cases h
          exact ⟨rfl, hc, r, hcall⟩
        · cases h
      · cases h
    · cases h
  | _ => cases h

/-- A call that was made stays, with what it was made with. -/
theorem request_step {m : Move} (h : a.step? m = some a') {c : CallId} {call : LoadCall}
    (hcall : a.calls.get? c = some call) :
    ∃ call', a'.calls.get? c = some call' ∧ call'.request = call.request := by
  have kept : ∀ {c' call'}, a'.calls = a.calls.insert c' call' → (c' = c → call'.request = call.request) →
      ∃ call', a'.calls.get? c = some call' ∧ call'.request = call.request := by
    intro c' call' hcalls hreq
    rw [hcalls, Table.get?_insert]
    split
    · rename_i he
      exact ⟨call', rfl, hreq he.symm⟩
    · exact ⟨call, hcall, rfl⟩
  cases callMove_of_step h c.screen with
  | elsewhere about calls flag => exact ⟨call, by rw [calls c rfl, hcall], rfl⟩
  | load about fresh after =>
    refine kept (by rw [after]) ?_
    rintro rfl
    rw [fresh] at hcall
    cases hcall
  | expire about waits after =>
    refine kept (by rw [after]) ?_
    rintro rfl
    rw [waits] at hcall
    cases hcall
    rfl
  | resume about before known next after =>
    refine kept (by rw [after]) ?_
    rintro rfl
    rw [before] at hcall
    cases hcall
    rfl

theorem request_of_steps (ms : List Move) {b : App} {c : CallId} {call : LoadCall} (h : a.steps? ms = some b)
    (hcall : a.calls.get? c = some call) : ∃ call', b.calls.get? c = some call' ∧ call'.request = call.request := by
  refine run_induction (P := fun _ b => ∃ call', b.calls.get? c = some call' ∧ call'.request = call.request)
    ⟨call, hcall, rfl⟩ (fun ms b m b' _ ih hstep => ?_) ms h
  obtain ⟨call₁, hcall₁, heq₁⟩ := ih
  obtain ⟨call₂, hcall₂, heq₂⟩ := request_step hstep hcall₁
  exact ⟨call₂, hcall₂, heq₂.trans heq₁⟩

/-- Whatever a run completes of loading a screen is done: the step that completes a stage changes the scene as the
stage of its call says. -/
def CarriedOut (start : App) (ms : List Move) (a : App) (i : ScreenId) : Prop :=
  ∀ before m after b b', ms = before ++ m :: after → start.steps? before = some b → b.step? m = some b' →
    ∀ c stage, b.completed? i m = some (c, stage) →
      ∃ call, a.calls.get? c = some call ∧ b'.scene = LoadCall.act ⟨call.request, stage⟩ b.scene

theorem carriedOut_of_run {start : App} {ms : List Move} (h : start.steps? ms = some a) (i : ScreenId) :
    start.CarriedOut ms a i := by
  intro before m after b b' hms hbefore hstep c stage hdone
  obtain ⟨rfl, -, r, hcall⟩ := completed?_eq_some hdone
  have hafter : b'.steps? after = some a := by
    rw [hms, steps?_append, hbefore, Option.bind_some, steps?, hstep, Option.bind_some] at h
    exact h
  obtain ⟨call, screen, stage', flag, hcall', -, -, rfl⟩ := resume?_eq_some hstep
  obtain rfl : _ = call := Option.some.inj (hcall.symm.trans hcall')
  obtain ⟨last, hlast, hrequest⟩ := request_of_steps after hafter (Table.get?_insert_self ..)
  exact ⟨last, hlast, by rw [hrequest]⟩

/-- **A screen is loaded once.** In every run, whatever the order of the steps of its loadings, of its
initialization and of everything else, what is completed of loading a screen is the beginning of one
call's script on the screen's own graph, and each stage of it has changed the scene as that call asks for.
No other step of a call on the screen changes the scene. -/
theorem loads_once {start : App} (hf : start.Fresh) (i : ScreenId) (ms : List Move) {a : App}
    (h : start.steps? ms = some a) :
    (start.completed i ms = [] ∨ ∃ c call params, c.screen = i ∧ a.calls.get? c = some call ∧
        start.completed i ms <+: (call.request.script (.screen i) params).map (c, ·)) ∧
      start.CarriedOut ms a i ∧
        ∀ before m after b b', ms = before ++ m :: after → start.steps? before = some b → b.step? m = some b' →
          (∃ c, m.call? = some c ∧ c.screen = i) → b.completed? i m = none → b'.scene = b.scene := by
  refine ⟨?_, carriedOut_of_run h i,
    fun before m after b b' _ _ hstep ⟨c, hm, hc⟩ hnone => scene_of_call_move hstep hm hc hnone⟩
  rcases (recorded_of_run hf i ms h).2 with ⟨hnil, -⟩ | ⟨c, call, params, hc, hcall, -, -, -, hdone⟩
  · exact .inl hnil
  · exact .inr ⟨c, call, params, hc, hcall, _, hdone⟩

/-! ## One screen -/

/-- An application that knows one kind of layout parameters, under the empty name, and whose parser
finds one view under the empty name. -/
def oneView : App :=
  .new 1 none { Registries.bare with params := (Layout.Catalog.mk (.new "params") .frame).addName "" .frame }
    (Table.empty.insert "" ⟨false, false, some ⟨.mk ⟨"", none, none, [], .empty, [], none, none⟩ [], [], []⟩, []⟩)

theorem fresh_oneView : oneView.Fresh := ⟨rfl, rfl, rfl, rfl⟩

/-- A screen is made and initialized. -/
def initialized : List Move :=
  [.addScreen, .prepare 0 "" .standard, .take 0] ++ List.replicate 10 (.work 0)

/-- A request that stores one value. -/
def oneValue : LoadRequest := ⟨0, 0, .standard, "", [("text_1", .text "hello")], none⟩

/-- Two calls race for the screen; the first one gets it. -/
def twoCalls : List Move :=
  initialized ++ [.load ⟨0, 0⟩ oneValue, .load ⟨0, 1⟩ oneValue, .resume ⟨0, 0⟩, .resume ⟨0, 1⟩] ++
    List.replicate 12 (.resume ⟨0, 0⟩)

theorem oneView_loads_once : ∃ a, oneView.steps? twoCalls = some a ∧
    (oneView.completed 0 twoCalls).length = 10 ∧ ∃ c call params, c.screen = 0 ∧ a.calls.get? c = some call ∧
      oneView.completed 0 twoCalls <+: (call.request.script (.screen 0) params).map (c, ·) := by
  have hlength : (oneView.completed 0 twoCalls).length = 10 := rfl
  obtain ⟨a, ha⟩ : ∃ a, oneView.steps? twoCalls = some a := Option.isSome_iff_exists.1 rfl
  refine ⟨a, ha, hlength, ?_⟩
  rcases (loads_once fresh_oneView 0 twoCalls ha).1 with hnil | hscript
  · rw [hnil] at hlength
    cases hlength
  · exact hscript

end App

end LiveScreen
