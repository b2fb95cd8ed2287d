/-
What a loading has done that ended well, in order. The parameters, the listener and
the data were in their place when the tasks for data ran; then the tasks for the end
of loading ran, also those that were added meanwhile; then the load hooks that were
registered until then. The call ran nothing else (`loadedInOrder_of_run`).
-/
import LiveScreen.Proofs.Loader.Hooks
import LiveScreen.Proofs.Loader.Storing
import LiveScreen.Proofs.Loader.Succeeding

namespace LiveScreen

/-! ## The script of a loading -/

/-- The stages in which a call runs tasks or load hooks. -/
def LoadStage.loud : LoadStage → Bool
  | .fireData _ | .fireFinish _ | .runHooks _ => true
  | _ => false

theorem LoadStage.passed_of_loud {stage : LoadStage} (h : stage.loud = true) : stage.passed = true := by
  cases stage <;> first | rfl | cases h

theorem storing_eq (g : GraphId) : ∀ data : List (String × Value), ∃ quiet : List LoadStage,
    storing g data = quiet ++ [.fireData g, .fireFinish g, .runHooks g] ∧ ∀ stage ∈ quiet, stage.loud = false
  | [] => ⟨[.store g [], .bindData g, .markLoaded g], rfl, by simp [LoadStage.loud]⟩
  | e :: data => by
    obtain ⟨quiet, heq, hquiet⟩ := storing_eq g data
    exact ⟨.store g (e :: data) :: quiet, by rw [storing, heq]; rfl, by simpa [LoadStage.loud] using hquiet⟩

/-- The stages in which something runs are the last ones of a script. -/
theorem LoadRequest.script_eq (r : LoadRequest) (g : GraphId) (params : Layout.Params) : ∃ quiet : List LoadStage,
    r.script g params = quiet ++ [.fireData g, .fireFinish g, .runHooks g] ∧
      (∀ stage ∈ quiet, stage.loud = false) ∧ .mount g params ∈ quiet := by
  obtain ⟨quiet, heq, hquiet⟩ := storing_eq g r.data
  refine ⟨.resolve g :: .bindAnimations g params :: .mount g params :: quiet, by rw [script, heq]; rfl, ?_, by simp⟩
  simpa [LoadStage.loud] using hquiet

/-- In all other stages nothing runs. -/
theorem LoadCall.unnoticed_act (call : LoadCall) (s : Scene) (h : call.stage.loud = false) :
    Scene.Unnoticed s (call.act s) := by
  have withGraph : ∀ (g : GraphId) {f : Graph → Scene → Scene}, (∀ graph s, Scene.Unnoticed s (f graph s)) →
      Scene.Unnoticed s (App.withGraph g f s) := by
    intro g f hf
    unfold App.withGraph
    split
    · exact hf _ s
    · exact .refl s
  unfold act
  cases hstage : call.stage with
  | fireData | fireFinish | runHooks =>
    rw [hstage] at h
    cases h
  | mount g params => exact ⟨fun _ => rfl, rfl, .modifyGraph s g fun _ => rfl, rfl⟩
  | store g rest =>
    cases rest with
    | nil => exact .refl s
    | cons e rest => exact withGraph g fun graph s => .of_leads (Scene.leads_update s _ _ _ _)
  | bindAnimations g | bindData g | markLoaded g =>
    refine withGraph g fun graph s => ?_
    exact ⟨fun _ => rfl, rfl, .of_graphs rfl, rfl⟩
  | _ => exact .refl s

namespace App

variable {start a a' b b' z : App} {i : ScreenId} {c : CallId}

/-! ## Cutting a run -/

/-- A run that goes through a move. -/
theorem steps?_through {before after : List Move} {m : Move} (hbefore : start.steps? before = some b)
    (hm : b.step? m = some b') (hafter : b'.steps? after = some z) : start.steps? (before ++ m :: after) = some z := by
  simp only [steps?_append, hbefore, Option.bind_some, steps?, hm, hafter]

/-- A run that completes something comes to the move that completes it. -/
theorem completed_split {ys : List (CallId × LoadStage)} {x : CallId × LoadStage} :
    ∀ (ms : List Move) (xs : List (CallId × LoadStage)) {a : App}, a.steps? ms = some z →
      a.completed i ms = xs ++ x :: ys → ∃ before m after b b', ms = before ++ m :: after ∧ a.steps? before = some b ∧
        b.step? m = some b' ∧ b'.steps? after = some z ∧ a.completed i before = xs ∧ b.completed? i m = some x ∧
          b'.completed i after = ys
  | [], xs, a, _, hdone => by simp [completed] at hdone
  | m :: ms, xs, a, h, hdone => by
    obtain ⟨a', hstep, hrest⟩ := Option.bind_eq_some_iff.1 h
    simp only [completed, hstep] at hdone
    -- The move completes what comes first, or nothing, and the run goes on.
    cases hcompleted : a.completed? i m with
    | none =>
      rw [hcompleted, Option.toList_none, List.nil_append] at hdone
      obtain ⟨before, m', after, b, b', rfl, hb, hstep', hafter, hbefore, hx, hys⟩ := completed_split ms xs hrest hdone
      refine ⟨m :: before, m', after, b, b', rfl, ?_, hstep', hafter, ?_, hx, hys⟩
      · simp only [steps?, hstep, Option.bind_some, hb]
      · simp only [completed, hstep, hcompleted, Option.toList_none, List.nil_append, hbefore]
    | some y =>
      rw [hcompleted, Option.toList_some, List.singleton_append] at hdone
      cases xs with
      | nil =>
        obtain ⟨rfl, hys⟩ := List.cons.inj hdone
        exact ⟨[], m, ms, a, a', rfl, rfl, hstep, hrest, rfl, hcompleted, hys⟩
      | cons x' xs =>
        obtain ⟨rfl, hlater⟩ := List.cons.inj hdone
        obtain ⟨before, m', after, b, b', rfl, hb, hstep', hafter, hbefore, hx, hys⟩ :=
          completed_split ms xs hrest hlater
        refine ⟨m :: before, m', after, b, b', rfl, ?_, hstep', hafter, ?_, hx, hys⟩
        · simp only [steps?, hstep, Option.bind_some, hb]
        · simp only [completed, hstep, hcompleted, Option.toList_some, List.singleton_append, hbefore]

theorem completed_append : ∀ (xs ys : List Move) {a : App}, a.steps? xs = some b →
    a.completed i (xs ++ ys) = a.completed i xs ++ b.completed i ys
  | [], _, _, h => by
    cases h
    rfl
  | m :: xs, ys, a, h => by
    obtain ⟨a', hstep, hrest⟩ := Option.bind_eq_some_iff.1 h
    simp only [List.cons_append, completed, hstep]
    rw [completed_append xs ys hrest, List.append_assoc]

/-- A screen that the host has at the end of a run was there for it all along. -/
theorem dropped_of_steps (ms : List Move) (h : a.steps? ms = some b) :
    (b.screen i).dropped = false → (a.screen i).dropped = false :=
  run_induction (P := fun _ b => (b.screen i).dropped = false → (a.screen i).dropped = false) id
    (fun _ _ _ _ _ ih hstep hd => ih (dropped_step hstep hd)) ms h

/-- A screen that is released and shown stays so while the host has it. -/
theorem shown_step (hp : Prepared i a) (he : Established i a) {m : Move} (h : a.step? m = some a')
    (hr : (a.screen i).released = true) (hview : (a.screen i).view ≠ none) (hd : (a'.screen i).dropped = false) :
    (a'.screen i).released = true ∧ (a'.screen i).view ≠ none := by
  refine ⟨(released_step hp h hr).1, ?_⟩
  rcases view_step hp he h hd with hsame | ⟨-, hnone, -⟩
  · rw [hsame]
    exact hview
  · exact absurd hnone hview

/-- While the host has a screen that is released and shown, nothing is taken from it. -/
theorem steady_of_steps (hb : start.Blank) : ∀ (ms : List Move) {before : List Move} {a : App},
    start.steps? before = some a → a.steps? ms = some b → start.Lends (before ++ ms) →
      (a.screen i).released = true → (a.screen i).view ≠ none → (b.screen i).dropped = false →
        Scene.Steady (· ≠ .screen i) a.scene b.scene
  | [], _, a, _, h, _, _, _, _ => by
    cases h
    exact .refl _
  | m :: ms, before, a, hbefore, h, hl, hr, hview, hd => by
    obtain ⟨a', hstep, hrest⟩ := Option.bind_eq_some_iff.1 h
    have hp := fun j => prepared_of_run hb.toFresh j before hbefore
    have he := established_of_run hb before hbefore hl.of_append
    have hd' := dropped_of_steps ms hrest hd
    have hbefore' : start.steps? (before ++ [m]) = some a' := by rw [steps?_concat, hbefore, Option.bind_some, hstep]
    obtain ⟨hr', hview'⟩ := shown_step (hp i) (he i) hstep hr hview hd'
    refine (steady_of_kept hp he hstep hr hview hd').trans ?_
    exact steady_of_steps hb ms hbefore' hrest (by simpa using hl) hr' hview' hd

/-! ## What the steps of a call run -/

/-- What the steps of a call add to a record, along a run. -/
def recordedBy {β : Type} (c : CallId) (f : Scene → List β) : App → List Move → List β :=
  along fun a m a' =>
    match m with
    | .resume c' => if c' = c then (f a'.scene).drop (f a.scene).length else []
    | _ => []

/-- The actions that the steps of a call run on screens, one after the other. -/
def ranBy (c : CallId) : App → List Move → List (TaskCenterId × GraphId × Action) := recordedBy c Scene.ran

/-- The load hooks that the steps of a call run, one after the other. -/
def hooksRanBy (c : CallId) : App → List Move → List (GraphId × String × Bool) := recordedBy c Scene.hooksRan

theorem recordedBy_resume {β : Type} {f : Scene → List β} (new : List β) (h : a.step? (.resume c) = some a')
    (hf : f a'.scene = f a.scene ++ new) (ms : List Move) :
    a.recordedBy c f (.resume c :: ms) = new ++ a'.recordedBy c f ms := by
  simp only [recordedBy, along, h, if_true, hf, List.drop_left]

/-- A call that completes nothing but quiet stages runs nothing. -/
theorem recordedBy_quiet {β : Type} {f : Scene → List β} (hf : ∀ s s', Scene.Unnoticed s s' → f s' = f s) :
    ∀ (ms : List Move) {a : App}, a.steps? ms = some b →
      (∀ stage, (c, stage) ∈ a.completed c.screen ms → stage.loud = false) → a.recordedBy c f ms = []
  | [], _, _, _ => rfl
  | m :: ms, a, h, hquiet => by
    obtain ⟨a', hstep, hrest⟩ := Option.bind_eq_some_iff.1 h
    simp only [completed, hstep] at hquiet
    have hlater : a'.recordedBy c f ms = [] := recordedBy_quiet hf ms hrest fun stage hmem =>
      hquiet stage (List.mem_append_right _ hmem)
    by_cases hm : m = .resume c
    · subst hm
      obtain ⟨call, screen, stage, flag, hcall, -, -, ha'⟩ := resume?_eq_some hstep
      have hloud : call.stage.loud = false := by
        by_contra hloud
        have hpassed := LoadStage.passed_of_loud (by simpa using hloud)
        refine hloud (hquiet call.stage (List.mem_append_left _ ?_))
        rw [completed?_of_passed rfl hcall hpassed]
        exact List.mem_singleton_self _
      have hscene : a'.scene = call.act a.scene := by rw [ha']
      rw [recordedBy_resume [] hstep ?_, hlater]
      · rfl
      · rw [List.append_nil, hscene]
        exact hf _ _ (call.unnoticed_act a.scene hloud)
    · rw [← hlater]
      simp only [recordedBy, along, hstep]
      cases m with
      | resume c' =>
        have hc : c' ≠ c := by
          rintro rfl
          exact hm rfl
        simp only [if_neg hc, List.nil_append]
      | _ => rfl

/-- A step of a call after quiet ones. -/
theorem recordedBy_through {β : Type} {f : Scene → List β} (hf : ∀ s s', Scene.Unnoticed s s' → f s' = f s)
    {before : List Move} (new : List β) (hbefore : a.steps? before = some b)
    (hquiet : ∀ stage, (c, stage) ∈ a.completed c.screen before → stage.loud = false)
    (hstep : b.step? (.resume c) = some b') (hnew : f b'.scene = f b.scene ++ new) (after : List Move) :
    a.recordedBy c f (before ++ .resume c :: after) = new ++ b'.recordedBy c f after := by
  have hsplit : a.recordedBy c f (before ++ .resume c :: after) =
      a.recordedBy c f before ++ b.recordedBy c f (.resume c :: after) := along_append _ before _ hbefore
  rw [hsplit, recordedBy_quiet hf before hbefore hquiet, List.nil_append, recordedBy_resume new hstep hnew]

/-! ## A whole loading -/

/-- The layout parameters that a call goes on with are those that were made for it. -/
theorem params_of_run (hf : start.Fresh) (ms : List Move) (h : start.steps? ms = some a) :
    ∀ c call g p, a.calls.get? c = some call → (call.stage = .bindAnimations g p ∨ call.stage = .mount g p) →
      start.registries.params.resolve (some call.request.paramType) call.request.parent = some p := by
  refine run_induction (P := fun _ a => ∀ c call g p, a.calls.get? c = some call →
    (call.stage = .bindAnimations g p ∨ call.stage = .mount g p) →
      start.registries.params.resolve (some call.request.paramType) call.request.parent = some p) ?_ ?_ ms h
  · intro c call g p hcall
    rw [hf.calls] at hcall
    cases hcall
  · intro ms a m a' ha ih hstep c call g p hcall hstage
    by_cases hm : m = .resume c
    · subst hm
      obtain ⟨call₀, screen, stage, flag, hcall₀, -, hnext, ha'⟩ := resume?_eq_some hstep
      rw [ha', Table.get?_insert_self] at hcall
      cases hcall
      have hturn := LoadCall.turn_of_next hnext
      cases hturn with
      | win hresolve hmade =>
        rw [registries_of_run ms ha] at hmade
        rcases hstage with heq | heq
        · cases heq
          exact hmade
        · cases heq
      | push hpassed =>
        obtain ⟨request, stage₀⟩ := call₀
        cases stage₀ with
        | bindAnimations g' p' =>
          rcases hstage with heq | heq
          · cases heq
          · cases heq
            exact ih c ⟨request, .bindAnimations g p⟩ g p hcall₀ (.inl rfl)
        | store g' rest => cases rest <;> rcases hstage with heq | heq <;> cases heq
        | mount | bindData | markLoaded | fireData | fireFinish | runHooks =>
          rcases hstage with heq | heq <;> cases heq
        | _ => cases hpassed
      | _ => rcases hstage with heq | heq <;> cases heq
    · obtain ⟨request, stage⟩ := call
      rcases entry_of_others hstep hm hcall with hcall₀ | rfl | rfl
      · exact ih c _ g p hcall₀ hstage
      · rcases hstage with heq | heq <;> cases heq
      · rcases hstage with heq | heq <;> cases heq

/-- A call that has got layout parameters completes something with every step. -/
theorem not_mem_of_completed_nil : ∀ {ms : List Move} {a : App}, (∃ call, a.calls.get? c = some call ∧ call.Won) →
    a.steps? ms = some b → a.completed c.screen ms = [] → .resume c ∉ ms
  | [], _, _, _, _ => by simp
  | m :: ms, a, hw, h, hdone => by
    obtain ⟨a', hstep, hrest⟩ := Option.bind_eq_some_iff.1 h
    simp only [completed, hstep, List.append_eq_nil_iff] at hdone
    have hlater := not_mem_of_completed_nil (won_step hstep hw) hrest hdone.2
    rw [List.mem_cons, not_or]
    refine ⟨?_, hlater⟩
    rintro rfl
    obtain ⟨call, hcall, hpassed | ⟨g, hover⟩⟩ := hw
    · rw [completed?_of_passed rfl hcall hpassed] at hdone
      cases hdone.1
    · have hresult : a.result? c = some (.ok g) := by
        refine result?_eq_some.2 ⟨call.request, ?_⟩
        rw [hcall, ← hover]
      have hnone : a.step? (.resume c) = none := resume?_of_result hresult
      rw [hnone] at hstep
      cases hstep

/-- A call takes steps one after the other, each from one application to the next. In between only others
move. -/
def Passes (c : CallId) : App → List Move → List (App × App) → Prop
  | _, _, [] => True
  | a, ms, (b, b') :: rest => ∃ before after, ms = before ++ .resume c :: after ∧ .resume c ∉ before ∧
      a.steps? before = some b ∧ b.step? (.resume c) = some b' ∧ b'.Passes c after rest

/-- What is known of a call at a stage that it completes in a run. -/
theorem entry_of_completed {after : List Move} {r : LoadRequest} {stage last : LoadStage}
    (hm : b.step? (.resume c) = some b') (hafter : b'.steps? after = some a)
    (hcall : a.calls.get? c = some ⟨r, last⟩) (hd : (a.screen c.screen).dropped = false)
    (hx : b.completed? c.screen (.resume c) = some (c, stage)) :
    b.calls.get? c = some ⟨r, stage⟩ ∧ (b.screen c.screen).dropped = false ∧ (b'.screen c.screen).dropped = false := by
  obtain ⟨-, -, r', hentry⟩ := completed?_eq_some hx
  have hrest : b.steps? ([] ++ .resume c :: after) = some a := steps?_through rfl hm hafter
  obtain ⟨call, hlast, hrequest⟩ := request_of_steps _ hrest hentry
  obtain rfl := Option.some.inj (hcall.symm.trans hlast)
  obtain rfl : r = r' := hrequest
  exact ⟨hentry, dropped_of_steps _ hrest hd, dropped_of_steps _ hafter hd⟩

/-- What a call that pushes things into a graph has completed, and what it has still to complete. -/
theorem winner_of_run (hf : start.Fresh) {ms : List Move} (h : start.steps? ms = some a) {call : LoadCall}
    (hcall : a.calls.get? c = some call) (hpassed : call.stage.passed = true) :
    ∃ params, start.completed c.screen ms ++ call.remaining.map (c, ·) =
      (call.request.script (.screen c.screen) params).map (c, ·) := by
  rcases (recorded_of_run hf c.screen ms h).2 with ⟨-, hno⟩ | ⟨w, call', params, -, hw, -, -, honly, hscript⟩
  · rw [hno c call rfl hcall] at hpassed
    cases hpassed
  · obtain rfl := honly c rfl ⟨call, hcall, LoadStage.holds_of_passed hpassed⟩
    obtain rfl : call = call' := Option.some.inj (hcall.symm.trans hw)
    exact ⟨params, hscript⟩

/-- When the tasks for data are to run, everything that a call brings is in its place. -/
structure InPlace (start : App) (ms : List Move) (c : CallId) (r : LoadRequest) (s : Scene) : Prop where
  mounted : ∃ mount params, s.mount? (.screen c.screen) = some mount ∧
    start.registries.params.resolve (some r.paramType) r.parent = some params ∧ mount.params = some params ∧
      mount.listener = r.listener
  fed : ∃ feed, s.feed (.screen c.screen) = some feed ∧ feed.Stores r.data ∧ feed.ui = some r.queue ∧
    feed.loaded = true
  shown : start.Meanwhile ms c SameShown → s.ClearlyBound (.screen c.screen) → s.ShowsAll (.screen c.screen) r.data

theorem inPlace_of_run (hb : start.Blank) {ms : List Move} (h : start.steps? ms = some a) (hl : start.Lends ms)
    (hui : start.OnUiThread ms c) (hfeed : start.Meanwhile ms c SameFeed) (hd : (a.screen c.screen).dropped = false)
    {r : LoadRequest} (hcall : a.calls.get? c = some ⟨r, .fireData (.screen c.screen)⟩)
    (hn : (r.data.map (·.1)).Nodup) : InPlace start ms c r a.scene := by
  obtain ⟨hfed, hpainted⟩ := fed_of_run hb ms h hl hui hfeed hd hcall hn
  refine ⟨?_, hfed, hpainted⟩
  obtain ⟨params, hscript⟩ := winner_of_run hb.toFresh h hcall rfl
  have hmem : (c, .mount (.screen c.screen) params) ∈ start.completed c.screen ms := by
    have hin : (c, .mount (.screen c.screen) params) ∈
        start.completed c.screen ms ++ (LoadCall.remaining ⟨r, .fireData (.screen c.screen)⟩).map (c, ·) := by
      rw [hscript]
      exact List.mem_map_of_mem (mount_mem_script.2 ⟨rfl, rfl⟩)
    rcases List.mem_append.1 hin with hdone | hlater
    · exact hdone
    · simp [LoadCall.remaining, closing] at hlater
  obtain ⟨mount, hmount, hparams, hlistener⟩ :=
    (loading_of_run hb.toFresh c.screen ms h).2.params c _ params hmem hcall
  refine ⟨mount, params, hmount, ?_, hparams, hlistener⟩
  -- The parameters are those that the call has found when it came to mount them.
  obtain ⟨xs, ys, hsplit⟩ := List.append_of_mem hmem
  obtain ⟨before, m, after, b, b', rfl, hk, hm, hafter, -, hx, -⟩ := completed_split ms xs h hsplit
  obtain ⟨rfl, -⟩ := completed?_eq_some hx
  obtain ⟨hentry, -⟩ := entry_of_completed hm hafter hcall hd hx
  exact params_of_run hb.toFresh before hk c ⟨r, .mount (.screen c.screen) params⟩ (.screen c.screen) params hentry
    (.inr rfl)

/-- A step that fires a hook runs the tasks of the screen that match. -/
theorem fired_of_step (hb : start.Blank) {before : List Move} (ha : start.steps? before = some a)
    (hl : start.Lends before) (hd : (a.screen c.screen).dropped = false) {call : LoadCall}
    (hcall : a.calls.get? c = some call) (hstep : a.step? (.resume c) = some a') {g : GraphId} {hook : Hook}
    (hstage : call.stage = .fireData g ∧ hook = .dataInitialize ∨ call.stage = .fireFinish g ∧ hook = .loadFinish) :
    Scene.Fired a.scene a'.scene call.request.thread c.screen hook := by
  have hpassed : call.stage.passed = true := by
    rcases hstage with ⟨heq, -⟩ | ⟨heq, -⟩
    · rw [heq]; rfl
    · rw [heq]; rfl
  have hg : call.stage.graph? = some g := by
    rcases hstage with ⟨heq, -⟩ | ⟨heq, -⟩
    · rw [heq]; rfl
    · rw [heq]; rfl
  obtain ⟨hgraph, hpublished, -⟩ := working_of_run hb before ha hl hd hcall hpassed
  obtain rfl := hgraph g hg
  obtain ⟨graph, hget, htasks, -⟩ := hpublished.made
  obtain ⟨call', screen, stage, flag, hcall', -, -, ha'⟩ := resume?_eq_some hstep
  obtain rfl : call = call' := Option.some.inj (hcall.symm.trans hcall')
  have hscene : a'.scene = (a.scene.notify call.request.thread (.screen c.screen) hook "").2 := by
    rw [ha', ← htasks]
    rcases hstage with ⟨heq, rfl⟩ | ⟨heq, rfl⟩
    · simp only [LoadCall.act, heq, fire, hget]
    · simp only [LoadCall.act, heq, fire, hget]
  rw [hscene]
  exact Scene.fired_notify hpublished call.request.thread hook

/-- The last step of a call runs the load hooks, and they are those that were registered before it. -/
theorem hooksRan_of_step (hb : start.Blank) {before : List Move} (ha : start.steps? before = some a)
    (hl : start.Lends before) (hd : (a.screen c.screen).dropped = false) {r : LoadRequest}
    (hcall : a.calls.get? c = some ⟨r, .runHooks (.screen c.screen)⟩) (hstep : a.step? (.resume c) = some a') :
    Scene.HooksRan a.scene a'.scene (.screen c.screen) ∧ Registered start c.screen before a.scene := by
  obtain ⟨-, hpublished, -⟩ := working_of_run hb before ha hl hd hcall rfl
  obtain ⟨graph, hget, -⟩ := hpublished.made
  obtain ⟨call, screen, stage, flag, hcall', -, -, ha'⟩ := resume?_eq_some hstep
  rw [hcall] at hcall'
  cases hcall'
  refine ⟨by rw [ha']; exact Scene.hooksRan_finishLoad hget r.thread, ?_⟩
  refine hooksAt_of_run hb c.screen before ha hl (fun c' hmem => ?_)
    (.inl (viewed_of_run hb before ha hl c _ _ hcall rfl hd))
  -- Running the load hooks is what the call has still to do, and it does so once.
  obtain ⟨params, hscript⟩ := winner_of_run hb.toFresh ha hcall rfl
  obtain ⟨quiet, hquiet, hloud, -⟩ := r.script_eq (.screen c.screen) params
  have hdone : start.completed c.screen before =
      (quiet ++ [LoadStage.fireData (.screen c.screen), .fireFinish (.screen c.screen)]).map (c, ·) := by
    refine List.append_cancel_right (hscript.trans ?_)
    rw [hquiet]
    simp [LoadCall.remaining, closing]
  rw [hdone] at hmem
  obtain ⟨stage', hin, heq⟩ := List.mem_map.1 hmem
  obtain rfl : stage' = .runHooks (.screen c.screen) := congrArg Prod.snd heq
  rcases List.mem_append.1 hin with hin | hin
  · have hfalse := hloud _ hin
    cases hfalse
  · simp at hin

/-- The stages of a call that has answered with a graph it has loaded. -/
theorem completed_of_returned (hf : start.Fresh) {ms : List Move} (h : start.steps? ms = some a) {r : LoadRequest}
    {g : GraphId} (hcall : a.calls.get? c = some ⟨r, .returned (.ok g)⟩)
    (hdone : ∃ stage, (c, stage) ∈ start.completed c.screen ms) :
    ∃ params, start.completed c.screen ms = (r.script (.screen c.screen) params).map (c, ·) := by
  obtain ⟨stage, hmem⟩ := hdone
  rcases (recorded_of_run hf c.screen ms h).2 with ⟨hnil, -⟩ | ⟨w, call, params, -, hw, -, -, -, hscript⟩
  · rw [hnil] at hmem
    cases hmem
  · have hin : (c, stage) ∈ (call.request.script (.screen c.screen) params).map (w, ·) := by
      rw [← hscript]
      exact List.mem_append_left _ hmem
    obtain ⟨stage', -, heq⟩ := List.mem_map.1 hin
    obtain rfl : w = c := congrArg Prod.fst heq
    rw [hcall] at hw
    cases hw
    exact ⟨params, by simpa [LoadCall.remaining] using hscript⟩

/-- A call has loaded its screen, in three steps after all has been stored. The first fires the hook for data,
the second the hook for the end of loading, and the third runs the load hooks. -/
structure LoadedInOrder (start : App) (ms : List Move) (c : CallId) (r : LoadRequest)
    (b₁ b₁' b₂ b₂' b₃ b₃' : App) : Prop where
  steps : ∃ before after, ms = before ++ after ∧ start.steps? before = some b₁ ∧
    b₁.Passes c after [(b₁, b₁'), (b₂, b₂'), (b₃, b₃')]
  entry : b₁.calls.get? c = some ⟨r, .fireData (.screen c.screen)⟩
  place : InPlace start ms c r b₁.scene
  data : Scene.Fired b₁.scene b₁'.scene r.thread c.screen .dataInitialize
  added : b₁'.scene.tasksAt (.screen c.screen) <+: b₂.scene.tasksAt (.screen c.screen)
  finish : Scene.Fired b₂.scene b₂'.scene r.thread c.screen .loadFinish
  hooks : Scene.HooksRan b₃.scene b₃'.scene (.screen c.screen)
  registered : ∃ before after, ms = before ++ .resume c :: after ∧ start.steps? before = some b₃ ∧
    Registered start c.screen before b₃.scene
  ran : start.ranBy c ms = (b₁.scene.matching c.screen .dataInitialize ++ b₂.scene.matching c.screen .loadFinish).map
    ((Owner.screen c.screen, Owner.screen c.screen, ·))
  hooksRan : start.hooksRanBy c ms = (b₃.scene.hooksAt (.screen c.screen)).map fun hook =>
    (.screen c.screen, hook.tag, true)

theorem loadedInOrder_of_run (hb : start.Blank) {ms : List Move} (hl : start.Lends ms) (h : start.steps? ms = some a)
    {r : LoadRequest} {g : GraphId} (hn : (r.data.map (·.1)).Nodup)
    (hcall : a.calls.get? c = some ⟨r, .returned (.ok g)⟩) (hdone : ∃ stage, (c, stage) ∈ start.completed c.screen ms)
    (hd : (a.screen c.screen).dropped = false) (hui : start.OnUiThread ms c) (hfeed : start.Meanwhile ms c SameFeed) :
    ∃ b₁ b₁' b₂ b₂' b₃ b₃', LoadedInOrder start ms c r b₁ b₁' b₂ b₂' b₃ b₃' := by
  obtain ⟨params, hcompleted⟩ := completed_of_returned hb.toFresh h hcall hdone
  obtain ⟨quiet, hscript, hquiet, hmount⟩ := r.script_eq (.screen c.screen) params
  rw [hscript, List.map_append] at hcompleted
  -- The run is cut at the three stages in which something runs.
  obtain ⟨k₁, m₁, k₁', b₁, b₁', rfl, hk₁, hm₁, hk₁', hdone₁, hx₁, hlater₁⟩ := completed_split ms _ h hcompleted
  obtain ⟨k₂, m₂, k₂', b₂, b₂', rfl, hk₂, hm₂, hk₂', hdone₂, hx₂, hlater₂⟩ :=
    completed_split k₁' [] hk₁' hlater₁
  obtain ⟨k₃, m₃, k₃', b₃, b₃', rfl, hk₃, hm₃, hk₃', hdone₃, hx₃, hlater₃⟩ :=
    completed_split k₂' [] hk₂' hlater₂
  obtain ⟨rfl, -⟩ := completed?_eq_some hx₁
  obtain ⟨rfl, -⟩ := completed?_eq_some hx₂
  obtain ⟨rfl, -⟩ := completed?_eq_some hx₃
  have hp₂ := steps?_through hk₁ hm₁ hk₂
  have hp₃ := steps?_through hk₁ hm₁ (steps?_through hk₂ hm₂ hk₃)
  obtain ⟨hcall₁, hd₁, hd₁'⟩ := entry_of_completed hm₁ hk₁' hcall hd hx₁
  obtain ⟨hcall₂, hd₂, hd₂'⟩ := entry_of_completed hm₂ hk₂' hcall hd hx₂
  obtain ⟨hcall₃, hd₃, hd₃'⟩ := entry_of_completed hm₃ hk₃' hcall hd hx₃
  have hl₁ : start.Lends k₁ := hl.of_append
  have hl₂ : start.Lends ((k₁ ++ .resume c :: k₂) ++ .resume c :: (k₃ ++ .resume c :: k₃')) := by
    simpa only [List.append_assoc, List.cons_append] using hl
  have hl₃ : start.Lends ((k₁ ++ .resume c :: (k₂ ++ .resume c :: k₃)) ++ .resume c :: k₃') := by
    simpa only [List.append_assoc, List.cons_append] using hl
  obtain ⟨-, -, hreleased, hview⟩ := working_of_run hb k₁ hk₁ hl₁ hd₁ hcall₁ rfl
  have hdata := fired_of_step hb hk₁ hl₁ hd₁ hcall₁ hm₁ (.inl ⟨rfl, rfl⟩)
  have hfinish := fired_of_step hb hp₂ hl₂.of_append hd₂ hcall₂ hm₂ (.inr ⟨rfl, rfl⟩)
  obtain ⟨hhooks, hregistered⟩ := hooksRan_of_step hb hp₃ hl₃.of_append hd₃ hcall₃ hm₃
  -- What else the call completes is quiet.
  have hquiet₁ : ∀ stage, (c, stage) ∈ start.completed c.screen k₁ → stage.loud = false := by
    intro stage hmem
    rw [hdone₁] at hmem
    obtain ⟨stage', hin, heq⟩ := List.mem_map.1 hmem
    cases heq
    exact hquiet stage hin
  have nothing : ∀ {done : List (CallId × LoadStage)}, done = [] → ∀ stage, (c, stage) ∈ done → stage.loud = false := by
    rintro _ rfl stage hmem
    cases hmem
  have hwon₁ := won_step hm₁ ⟨_, hcall₁, .inl rfl⟩
  have hwon₂ := won_step hm₂ ⟨_, hcall₂, .inl rfl⟩
  have hothers₂ := not_mem_of_completed_nil hwon₁ hk₂ hdone₂
  have hothers₃ := not_mem_of_completed_nil hwon₂ hk₃ hdone₃
  refine ⟨b₁, b₁', b₂, b₂', b₃, b₃', ?_⟩
  constructor
  case steps =>
    exact ⟨k₁, _, rfl, hk₁, [], _, rfl, List.not_mem_nil, rfl, hm₁, k₂, _, rfl, hothers₂, hk₂, hm₂, k₃, k₃', rfl,
      hothers₃, hk₃, hm₃, trivial⟩
  case entry => exact hcall₁
  case place =>
    have hplace := inPlace_of_run hb hk₁ hl₁ hui.of_append hfeed.of_append hd₁ hcall₁ hn
    exact ⟨hplace.mounted, hplace.fed, fun hshown => hplace.shown hshown.of_append⟩
  case data => exact hdata
  case added =>
    have hbefore : start.steps? (k₁ ++ [.resume c]) = some b₁' := steps?_through hk₁ hm₁ rfl
    obtain ⟨hreleased', hview'⟩ := shown_step (prepared_of_run hb.toFresh c.screen k₁ hk₁)
      (established_of_run hb k₁ hk₁ hl₁ c.screen) hm₁ hreleased hview hd₁'
    exact (steady_of_steps hb k₂ hbefore hk₂ (by simpa using hl₂.of_append) hreleased' hview' hd₂).tasks _ (by simp)
  case finish => exact hfinish
  case hooks => exact hhooks
  case registered =>
    refine ⟨k₁ ++ .resume c :: (k₂ ++ .resume c :: k₃), k₃', ?_, hp₃, hregistered⟩
    simp only [List.append_assoc, List.cons_append]
  case ran =>
    have hran := fun s s' (h : Scene.Unnoticed s s') => h.ran
    rw [ranBy, recordedBy_through hran _ hk₁ hquiet₁ hm₁ hdata.ran,
      recordedBy_through hran _ hk₂ (nothing hdone₂) hm₂ hfinish.ran,
      recordedBy_through hran [] hk₃ (nothing hdone₃) hm₃ (by rw [hhooks.actions, List.append_nil]),
      recordedBy_quiet hran k₃' hk₃' (nothing hlater₃)]
    simp
  case hooksRan =>
    have hran := fun s s' (h : Scene.Unnoticed s s') => h.hooksRan
    rw [hooksRanBy, recordedBy_through hran [] hk₁ hquiet₁ hm₁ (by rw [hdata.hooksRan, List.append_nil]),
      recordedBy_through hran [] hk₂ (nothing hdone₂) hm₂ (by rw [hfinish.hooksRan, List.append_nil]),
      recordedBy_through hran _ hk₃ (nothing hdone₃) hm₃ hhooks.ran, recordedBy_quiet hran k₃' hk₃' (nothing hlater₃)]
    simp

end App

end LiveScreen
