/-
A call that goes on alone. Nobody else writes anything while it stores its data,
and when it was made on the UI thread of the queue that feeds the graph, it stays
there until it binds the binder to a queue of its own (`fedOn_alone`). So all that
is known of a loading that ended well is known of it, and a call for a screen that
is released and shown ends well (`loads_in_order`).
-/
import LiveScreen.Proofs.Loader.InOrder

namespace LiveScreen

/-- The stages in which a call has not yet bound the binder to its queue. -/
def LoadStage.unbound : LoadStage → Bool
  | .markLoaded _ | .fireData _ | .fireFinish _ | .runHooks _ | .returned _ => false
  | _ => true

namespace LoadCall

variable {call : LoadCall} {s : Scene} {i : ScreenId}

/-- A call that has bound the binder does not take that back. -/
theorem Turn.unbound {registries : Registries} {screen : Screen} {stage : LoadStage} {flag : Option Bool}
    (h : Turn registries screen call stage flag) (hs : stage.unbound = true) : call.stage.unbound = true := by
  cases h with
  | turnBack | miss | giveBack => cases hs
  | take hstage | wake hstage | find hstage | win hstage | lose hstage => rw [hstage]; rfl
  | push hpassed =>
    obtain ⟨request, stage⟩ := call
    cases stage with
    | bindAnimations | mount | store => rfl
    | bindData | markLoaded | fireData | fireFinish | runHooks => cases hs
    | _ => cases hpassed

/-- Until it binds the binder, a call does not change which threads a graph is fed on. -/
theorem fedOn_act (hp : s.Published i) (hg : ∀ g, call.stage.graph? = some g → g = .screen i)
    (hpassed : call.stage.passed = true) (hf : call.following.unbound = true)
    (h : s.FedOn (.screen i) call.request.thread) : (call.act s).FedOn (.screen i) call.request.thread := by
  obtain ⟨graph, hgraph, binder, hb, -⟩ := hp.viewed
  have hi : ∀ q, binder.ui = some q → s.isUiThread q call.request.thread = true :=
    fun q hq => h binder.feed q (Scene.feed_eq hgraph hb) hq
  obtain ⟨request, stage⟩ := call
  cases stage with
  | bindAnimations g params =>
    obtain rfl := hg g rfl
    simp only [act, App.withGraph, hgraph]
    exact h.congr rfl fun _ _ => rfl
  | mount g params => exact h.congr (Scene.feed_mountGraph s g params request.listener _) fun _ _ => rfl
  | store g rest =>
    obtain rfl := hg g rfl
    cases rest with
    | nil => exact h
    | cons e rest =>
      simp only [act, App.withGraph, hgraph]
      exact Scene.fedOn_update hb hi hgraph
  | bindData | markLoaded | fireData | fireFinish | runHooks => cases hf
  | _ => cases hpassed

end LoadCall

namespace App

variable {start a a' b b' z : App} {c : CallId} {r : LoadRequest} {stage : LoadStage} {ms : List Move} {k : Nat}

/-! ## Runs that end with steps of one call -/

theorem Lends.alone (hl : start.Lends ms) (c : CallId) (k : Nat) :
    start.Lends (ms ++ List.replicate k (.resume c)) := hl.append (by simp [List.mem_replicate])

/-- A call that has just begun, or just taken its screen, was not further before. -/
theorem not_won_of_begun (hcall : a.calls.get? c = some ⟨r, stage⟩) (hbegun : stage = .check ∨ stage = .wait)
    {after : List Move} (hafter : b.steps? after = some a) {call : LoadCall} (hentry : b.calls.get? c = some call) :
    ¬ call.Won := by
  intro hwon
  have hlater : ∃ call, a.calls.get? c = some call ∧ call.Won :=
    run_induction (P := fun _ b => ∃ call, b.calls.get? c = some call ∧ call.Won) ⟨call, hentry, hwon⟩
      (fun _ _ _ _ _ ih hstep => won_step hstep ih) after hafter
  obtain ⟨call', hcall', hwon'⟩ := hlater
  obtain rfl := Option.some.inj (hcall.symm.trans hcall')
  rcases hbegun with rfl | rfl
  · rcases hwon' with hpassed | ⟨g, hover⟩
    · cases hpassed
    · cases hover
  · rcases hwon' with hpassed | ⟨g, hover⟩
    · cases hpassed
    · cases hover

/-- A step leaves a screen with the host. -/
theorem dropped_resume (h : a.step? (.resume c) = some a') :
    (a'.screen c.screen).dropped = (a.screen c.screen).dropped := by
  obtain ⟨call, screen, stage, flag, -, hs, -, rfl⟩ := resume?_eq_some h
  cases flag with
  | none => rfl
  | some taken => simp only [App.screen, flagged, Store.get?_modify_self, hs, Option.map_some, Option.getD_some]

theorem dropped_alone (h : a.steps? (List.replicate k (.resume c)) = some b) :
    (b.screen c.screen).dropped = (a.screen c.screen).dropped := by
  induction k generalizing a with
  | zero =>
    cases h
    rfl
  | succ k ih =>
    obtain ⟨a', hstep, hrest⟩ := Option.bind_eq_some_iff.1 h
    rw [ih hrest, dropped_resume hstep]

/-- A call that goes on alone takes its steps without anything in between. -/
theorem Passes.alone {rest : List (App × App)} (hp : a.Passes c (List.replicate k (.resume c)) ((b, b') :: rest)) :
    b = a ∧ ∃ k', b'.Passes c (List.replicate k' (.resume c)) rest := by
  obtain ⟨before, after, hms, hnot, hbefore, -, hrest⟩ := hp
  obtain ⟨-, hreplicate, hafter⟩ := List.append_eq_replicate_iff.1 hms.symm
  have hnil : before = [] := by
    refine List.eq_nil_iff_forall_not_mem.2 fun m hm => ?_
    rw [hreplicate] at hm
    obtain rfl := List.eq_of_mem_replicate hm
    rw [← hreplicate] at hm
    exact hnot hm
  subst hnil
  cases hbefore
  rw [List.length_cons, List.replicate_succ] at hafter
  rw [(List.cons.inj hafter).2] at hrest
  exact ⟨rfl, _, hrest⟩

section Alone

variable (hb : start.Blank) (hl : start.Lends ms) (h : start.steps? ms = some a)
  (hcall : a.calls.get? c = some ⟨r, stage⟩) (hbegun : stage = .check ∨ stage = .wait)

include h hcall

include hbegun in
/-- When the call has got layout parameters, it goes on alone. -/
theorem cut_of_won {before after : List Move} (hms : ms ++ List.replicate k (.resume c) = before ++ after)
    (hbefore : start.steps? before = some b) {call : LoadCall} (hentry : b.calls.get? c = some call) (hwon : call.Won) :
    ∃ j l, before = ms ++ List.replicate j (.resume c) ∧ after = List.replicate l (.resume c) := by
  rcases List.append_eq_append_iff.1 hms with ⟨steps, rfl, hsteps⟩ | ⟨more, rfl, -⟩
  · obtain ⟨-, hreplicate, hafter⟩ := List.append_eq_replicate_iff.1 hsteps.symm
    exact ⟨_, _, by rw [hreplicate], hafter⟩
  · rw [steps?_append, hbefore, Option.bind_some] at h
    exact absurd hwon (not_won_of_begun hcall hbegun h hentry)

include hbegun in
/-- Nobody else does anything while a call stores data alone. -/
theorem meanwhile_alone (P : LoadRequest → GraphId → Scene → Scene → Prop) (k : Nat) :
    start.Meanwhile (ms ++ List.replicate k (.resume c)) c P := by
  intro before m after b b' r' stage' g hms hbefore hstep hentry hstoring hm
  have hwon : LoadCall.Won ⟨r', stage'⟩ := .inl (LoadStage.passed_of_storing hstoring)
  obtain ⟨j, l, -, hafter⟩ := cut_of_won h hcall hbegun hms hbefore hentry hwon
  have hmem : m ∈ List.replicate l (.resume c) := by
    rw [← hafter]
    exact List.mem_cons_self ..
  exact absurd (List.eq_of_mem_replicate hmem) hm

include hb hl in
/-- While a call goes on alone and has not bound the binder, it is on a thread that its graph is fed on, if it
was at the beginning. -/
theorem fedOn_alone (hfed : a.scene.FedOn (.screen c.screen) r.thread) (k : Nat) {stage' : LoadStage}
    (hk : start.steps? (ms ++ List.replicate k (.resume c)) = some b) (hd : (b.screen c.screen).dropped = false)
    (hentry : b.calls.get? c = some ⟨r, stage'⟩) (hunbound : stage'.unbound = true) :
    b.scene.FedOn (.screen c.screen) r.thread := by
  induction k generalizing b stage' with
  | zero =>
    rw [List.replicate_zero, List.append_nil, h] at hk
    cases hk
    exact hfed
  | succ k ih =>
    rw [List.replicate_succ', ← List.append_assoc, steps?_concat] at hk
    obtain ⟨b₀, hk₀, hstep⟩ := Option.bind_eq_some_iff.1 hk
    obtain ⟨call, screen, stage₁, flag, hcall₀, -, hnext, hafter⟩ := resume?_eq_some hstep
    rw [hafter, Table.get?_insert_self] at hentry
    cases hentry
    have hd₀ := dropped_step hstep hd
    have hturn := LoadCall.turn_of_next hnext
    have hfed₀ := ih hk₀ hd₀ hcall₀ (hturn.unbound hunbound)
    rw [hafter]
    cases hpassed : call.stage.passed with
    | false =>
      rw [LoadCall.act_of_not_passed hpassed]
      exact hfed₀
    | true =>
      rw [LoadCall.next?_of_passed hpassed] at hnext
      cases hnext
      obtain ⟨hgraph, hpublished, -⟩ := working_of_run hb _ hk₀ (hl.alone c k) hd₀ hcall₀ hpassed
      exact LoadCall.fedOn_act hpublished hgraph hpassed hunbound hfed₀

include hb hl hbegun in
/-- A call that goes on alone stores its data on the UI thread, if it was made there. -/
theorem onUiThread_alone (hfed : a.scene.FedOn (.screen c.screen) r.thread)
    (hk : start.steps? (ms ++ List.replicate k (.resume c)) = some z) (hd : (z.screen c.screen).dropped = false) :
    start.OnUiThread (ms ++ List.replicate k (.resume c)) c := by
  intro before after b r' g rest hms hbefore hentry
  have hafter : b.steps? after = some z := by
    rw [hms, steps?_append, hbefore, Option.bind_some] at hk
    exact hk
  have hd' := dropped_of_steps after hafter hd
  obtain ⟨j, l, rfl, -⟩ := cut_of_won h hcall hbegun hms hbefore hentry (.inl rfl)
  have hrun := hbefore
  rw [steps?_append, h, Option.bind_some] at hrun
  obtain ⟨call, hlast, hrequest⟩ := request_of_steps _ hrun hcall
  rw [hentry] at hlast
  cases hlast
  obtain rfl : r' = r := hrequest
  obtain ⟨hgraph, -⟩ := working_of_run hb _ hbefore (hl.alone c j) hd' hentry rfl
  obtain rfl := hgraph g rfl
  exact fedOn_alone hb hl h hcall hfed _ hbefore hd' hentry rfl

include hbegun in
/-- Nothing happens between the tasks for data, those for the end of loading, and the load hooks. -/
theorem LoadedInOrder.alone {b₁ b₁' b₂ b₂' b₃ b₃' : App}
    (ho : LoadedInOrder start (ms ++ List.replicate k (.resume c)) c r b₁ b₁' b₂ b₂' b₃ b₃') : b₂ = b₁' ∧ b₃ = b₂' := by
  obtain ⟨before, after, hms, hbefore, hpasses⟩ := ho.steps
  obtain ⟨j, l, -, rfl⟩ := cut_of_won h hcall hbegun hms hbefore ho.entry (.inl rfl)
  obtain ⟨-, _, hpasses⟩ := hpasses.alone
  obtain ⟨hfinish, _, hpasses⟩ := hpasses.alone
  exact ⟨hfinish, hpasses.alone.1⟩

include hb hl hbegun in
/-- What the nodes are bound to when the tasks for data run, they were bound to before the call went on. -/
theorem LoadedInOrder.clearlyBound {b₁ b₁' b₂ b₂' b₃ b₃' : App}
    (ho : LoadedInOrder start (ms ++ List.replicate k (.resume c)) c r b₁ b₁' b₂ b₂' b₃ b₃')
    (hreleased : (a.screen c.screen).released = true) (hview : (a.screen c.screen).view ≠ none)
    (hd : (a.screen c.screen).dropped = false) (hclear : a.scene.ClearlyBound (.screen c.screen)) :
    b₁.scene.ClearlyBound (.screen c.screen) := by
  obtain ⟨before, after, hms, hbefore, -⟩ := ho.steps
  obtain ⟨j, l, rfl, -⟩ := cut_of_won h hcall hbegun hms hbefore ho.entry (.inl rfl)
  rw [steps?_append, h, Option.bind_some] at hbefore
  have hd₁ : (b₁.screen c.screen).dropped = false := by rw [dropped_alone hbefore, hd]
  have hsteady := steady_of_steps hb _ h hbefore (hl.alone c j) hreleased hview hd₁
  exact (hsteady.clearlyBound_iff (by simp)).2 hclear

end Alone

/-! ## The loading as a whole -/

/-- Nothing stops a call for a screen that is released and shown, when it is the one that loads it. -/
theorem unhindered_of_begun (hb : start.Blank) (hparams : start.registries.params.Built) (h : start.steps? ms = some a)
    (hcall : a.calls.get? c = some ⟨r, stage⟩) (hdensity : validDensity r.parent.density = true) {g : GraphId}
    (hreleased : (a.screen c.screen).released = true) (hview : (a.screen c.screen).view = some g)
    (hbegun : stage = .check ∧ (a.screen c.screen).calledLoad = false ∨ stage = .wait) :
    Unhindered g a c ⟨r, stage⟩ := by
  have hinit := (prepared_of_run hb.toFresh c.screen ms h).initialized hreleased
  constructor
  case entry => exact hcall
  case known => exact screens_of_initialized hinit
  case initialized => exact hinit
  case released => exact hreleased
  case view => exact hview
  case params =>
    rw [registries_of_run ms h]
    exact hparams.resolve hdensity _
  case stage => exact hbegun.imp_right .inl

/-- **A loading does everything in order.** A call for a screen that is released and shown, made when nobody
else loads the screen, and on the UI thread of the queue that feeds the graph if there is one, answers with the
graph when it goes on alone. Parameters, listener and data are in their place before the first task for data
runs, also in every node that shows them; then exactly the tasks for data run, then exactly those for the end
of loading that are registered by then, then the load hooks. And whatever else goes on meanwhile, a call that has
answered with the graph it has loaded has done so in this order, if nobody else has written the binder while it
stored its data. -/
theorem loads_in_order (hb : start.Blank) (hparams : start.registries.params.Built) (hl : start.Lends ms)
    (h : start.steps? ms = some a) (hcall : a.calls.get? c = some ⟨r, stage⟩)
    (hd : (a.screen c.screen).dropped = false) (hdensity : validDensity r.parent.density = true)
    (hn : (r.data.map (·.1)).Nodup) :
    (∀ g, (a.screen c.screen).released = true → (a.screen c.screen).view = some g →
      (stage = .check ∧ (a.screen c.screen).calledLoad = false ∨ stage = .wait) → a.scene.FedOn g r.thread →
        g = .screen c.screen ∧ ∃ k, start.steps? (ms ++ List.replicate k (.resume c)) = some (a.finishCall c) ∧
          (a.finishCall c).result? c = some (.ok g) ∧ ∃ b₁ b₁' b₂ b₂' b₃ b₃',
            LoadedInOrder start (ms ++ List.replicate k (.resume c)) c r b₁ b₁' b₂ b₂' b₃ b₃' ∧
              (b₂ = b₁' ∧ b₃ = b₂') ∧ (a.scene.ClearlyBound g → b₁.scene.ShowsAll g r.data)) ∧
    ∀ g, stage = .returned (.ok g) → (∃ stage, (c, stage) ∈ start.completed c.screen ms) → start.OnUiThread ms c →
      start.Meanwhile ms c SameFeed → ∃ b₁ b₁' b₂ b₂' b₃ b₃', LoadedInOrder start ms c r b₁ b₁' b₂ b₂' b₃ b₃' := by
  refine ⟨fun g hreleased hview hbegun hfed => ?_, fun g hstage hdone hui hfeed => ?_⟩
  · obtain ⟨hg, -⟩ := (prepared_of_run hb.toFresh c.screen ms h).view g hview
    have hbegun' : stage = .check ∨ stage = .wait := hbegun.imp_left And.left
    have hu := unhindered_of_begun hb hparams h hcall hdensity hreleased hview hbegun
    obtain ⟨k, hsteps, hreturned, hlast⟩ := hu.finishCall hbegun'
    have hrun : start.steps? (ms ++ List.replicate k (.resume c)) = some (a.finishCall c) := by
      rw [steps?_append, h, Option.bind_some, hsteps]
    have hd' : ((a.finishCall c).screen c.screen).dropped = false := by rw [dropped_alone hsteps, hd]
    have hdone : ∃ stage, (c, stage) ∈ start.completed c.screen (ms ++ List.replicate k (.resume c)) := by
      refine ⟨.runHooks g, ?_⟩
      rw [completed_append ms _ h]
      exact List.mem_append_right _ hlast
    subst hg
    have hui := onUiThread_alone hb hl h hcall hbegun' hfed hrun hd'
    obtain ⟨b₁, b₁', b₂, b₂', b₃, b₃', ho⟩ := loadedInOrder_of_run hb (hl.alone c k) hrun hn hreturned hdone hd' hui
      (meanwhile_alone h hcall hbegun' SameFeed k)
    refine ⟨rfl, k, hrun, result?_eq_some.2 ⟨r, hreturned⟩, b₁, b₁', b₂, b₂', b₃, b₃', ho, ho.alone h hcall hbegun',
      fun hclear => ho.place.shown (meanwhile_alone h hcall hbegun' SameShown k) ?_⟩
    exact ho.clearlyBound hb hl h hcall hbegun' hreleased (by rw [hview]; nofun) hd hclear
  · subst hstage
    exact loadedInOrder_of_run hb hl h hn hcall hdone hd hui hfeed

/-! ## One screen -/

/-- A declaration of an action with some attributes. -/
def actionDecl (name : String) (attributes : List (String × Value)) : PluginDecl :=
  .mk name (attributes.foldl (fun d e => d.insert e.1 e.2) .empty) []

/-- An application with a binder of the host that has a queue, and a markup with a label bound to it, a task for
data that adds one for the end of loading, one for the end of loading that adds another one, and a load hook. -/
def busyLabel : App :=
  { App.new 1 none
      ((Registries.bare.add "record" (.action Action.makeRecord)).add "addtask" (.action Action.makeAddTask))
      (Table.empty.insert "" ⟨false, false,
        some ⟨.mk ⟨"", none, none, [], .empty, [⟨"text_1", "text"⟩], none, none⟩ [],
          [⟨.dataInitialize, none, [actionDecl "record" [("tag", .text "data")],
            actionDecl "addtask" [("hook", .text "LoadFinish"), ("tag", .text "added")]]⟩,
          ⟨.loadFinish, none, [actionDecl "addtask" [("hook", .text "LoadFinish"), ("tag", .text "late")]]⟩], []⟩,
        [.mk "ready" none []]⟩) with
    scene := { Scene.empty with
      binders := Table.empty.insert (.host 0) { Binder.new .empty with ui := some 0 }
      queues := Store.empty.add (.new 0) } }

/-- The screen is initialized with the binder of the host, another load hook is registered, and a call for the
screen is made on the thread of the queue. -/
def askedAndCalled : List Move :=
  [.addScreen, .prepare 0 "" { InitOptions.standard with binder := some (.host 0) }] ++
    (.take 0 :: List.replicate 10 (.work 0) ++ [.addLoadHook (.screen 0) (.mk "shown" none [])] ++
      [.load ⟨0, 0⟩ oneValue])

theorem blank_busyLabel : busyLabel.Blank := ⟨⟨rfl, rfl, rfl, rfl⟩, fun _ => rfl, fun _ => rfl⟩

theorem lends_askedAndCalled : busyLabel.Lends askedAndCalled := by
  refine Lends.append ?_ (by simp)
  intro before i markup options after b hms hb x hx
  match before with
  | [] => cases hms
  | [_] =>
    cases hms
    cases hb
    cases hx
    rfl
  | _ :: _ :: _ => simp at hms

theorem busyLabel_loads_in_order : ∃ a k b₁ b₁' b₂ b₂' b₃ b₃', busyLabel.steps? askedAndCalled = some a ∧
    LoadedInOrder busyLabel (askedAndCalled ++ List.replicate k (.resume ⟨0, 0⟩)) ⟨0, 0⟩ oneValue b₁ b₁' b₂ b₂' b₃ b₃' ∧
      b₁.scene.ShowsAll (.screen 0) oneValue.data ∧ (a.finishCall ⟨0, 0⟩).result? ⟨0, 0⟩ = some (.ok (.screen 0)) ∧
        (a.finishCall ⟨0, 0⟩).scene.ran.map (·.2.2.task?.isSome) = [false, true, true, false] ∧
          (a.finishCall ⟨0, 0⟩).scene.hooksRan.map (·.2.1) = ["ready", "shown"] := by
  obtain ⟨a, ha⟩ : ∃ a, busyLabel.steps? askedAndCalled = some a :=
    Option.isSome_iff_exists.1 (by decide +kernel)
  have hseen : (busyLabel.steps? askedAndCalled).map (fun a =>
      ((a.screen 0).released, (a.screen 0).view, (a.screen 0).dropped, (a.screen 0).calledLoad)) =
        some (true, some (.screen 0), false, false) := by decide +kernel
  have hfeed : (busyLabel.steps? askedAndCalled).map (fun a =>
      ((a.scene.feed (.screen 0)).map (·.ui), a.scene.isUiThread 0 0)) = some (some (some 0), true) := by
    decide +kernel
  have hbound : (busyLabel.steps? askedAndCalled).map (fun a =>
      (a.scene.graphs.get? (.screen 0)).map fun graph => graph.nodes.map (·.bindings)) =
        some (some [[⟨"text_1", "text"⟩]]) := by decide +kernel
  -- The third action adds a task for the end of loading while loading ends, which does not run any more.
  have hran : (busyLabel.steps? askedAndCalled).map (fun a =>
      ((a.finishCall ⟨0, 0⟩).scene.ran.map (·.2.2.task?.isSome), (a.finishCall ⟨0, 0⟩).scene.hooksRan.map (·.2.1))) =
        some ([false, true, true, false], ["ready", "shown"]) := by decide +kernel
  rw [ha] at hseen hfeed hbound hran
  simp only [Option.map_some, Option.some.injEq, Prod.mk.injEq] at hseen hfeed hbound hran
  obtain ⟨hreleased, hview, hdropped, hfree⟩ := hseen
  obtain ⟨hqueue, hthread⟩ := hfeed
  have hcall : a.calls.get? ⟨0, 0⟩ = some ⟨oneValue, .check⟩ := by
    rw [askedAndCalled, ← List.append_assoc, steps?_concat] at ha
    obtain ⟨b, -, hload⟩ := Option.bind_eq_some_iff.1 ha
    obtain ⟨-, rfl⟩ := addCall?_eq_some hload
    exact Table.get?_insert_self ..
  have hfed : a.scene.FedOn (.screen 0) 0 := by
    intro feed q hget hq
    rw [hget, Option.map_some, hq] at hqueue
    cases hqueue
    exact hthread
  have hclear : a.scene.ClearlyBound (.screen 0) := by
    intro graph hgraph n hn b hb b' hb' _
    rw [hgraph, Option.map_some, Option.some.injEq] at hbound
    have hmem : n.bindings ∈ [[(⟨"text_1", "text"⟩ : Binding)]] := by
      rw [← hbound]
      exact List.mem_map_of_mem hn
    rw [List.mem_singleton.1 hmem] at hb hb'
    rw [List.mem_singleton.1 hb, List.mem_singleton.1 hb']
  obtain ⟨hload, -⟩ := loads_in_order blank_busyLabel .standard lends_askedAndCalled ha (c := ⟨0, 0⟩) hcall hdropped rfl
    (by decide)
  obtain ⟨-, k, hrun, hresult, b₁, b₁', b₂, b₂', b₃, b₃', ho, -, hshows⟩ :=
    hload _ hreleased hview (.inl ⟨rfl, hfree⟩) hfed
  exact ⟨a, k, b₁, b₁', b₂, b₂', b₃, b₃', ha, ho, hshows hclear, hresult, hran⟩

end App

end LiveScreen
