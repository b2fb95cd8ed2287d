/-
Parts that are closed: a graph of the part has its services there, a binder only
views of the part, and a task center runs its actions on no graph but one of the part
(`Scene.Closed`). What is done with something of a closed part is done in the part:
it leaves of the part what it would lead to without the rest, with the same answer, and
of everything else it leaves all as it was. Using a scene opens no part: no graph gets
other services, no binder more views, and no task center another graph (`Scene.Quiet`).
-/
import LiveScreen.Proofs.Scene.Parts
import LiveScreen.Proofs.Scene.Deeds

namespace LiveScreen

/-- The binder, the task center and the animation center of a graph. -/
def Graph.services (graph : Graph) : BinderId × TaskCenterId × AnimationCenterId :=
  (graph.binder, graph.tasks, graph.animations)

theorem Graph.services_applyAll : ∀ (graph : Graph) (es : List (String × Value)),
    (graph.applyAll es).services = graph.services
  | _, [] => rfl
  | graph, e :: es => services_applyAll (graph.applyData e.1 e.2) es

/-- The line that the callback of a screen's initialization wrote. -/
def Event.done? (i : ScreenId) : Event → Option String
  | .initDone j line => if j = i then some line else none
  | _ => none

namespace Scene

/-- What the callbacks of a screen's initialization wrote, call by call. -/
def dones (s : Scene) (i : ScreenId) : List String := s.events.filterMap (Event.done? i)

theorem dones_emit (s : Scene) (e : Event) (i : ScreenId) : (s.emit e).dones i = s.dones i ++ (e.done? i).toList := by
  simp only [dones, emit, List.filterMap_append, List.filterMap_cons, List.filterMap_nil]
  cases e.done? i <;> rfl

variable {p : Part} {r s s' : Scene} {q : QueueId} {t : Thread} {g : GraphId} {b : BinderId} {c : TaskCenterId}

/-! ## Closed parts -/

/-- What a part refers to belongs to it. -/
structure Closed (p : Part) (s : Scene) : Prop where
  graph : ∀ g graph, p.owns g = true → s.graphs.get? g = some graph →
    p.binds graph.binder = true ∧ p.owns graph.tasks = true ∧ p.owns graph.animations = true
  views : ∀ b binder, p.binds b = true → s.binders.get? b = some binder → ∀ g ∈ binder.views, p.owns g = true
  attached : ∀ c center g, p.owns c = true → s.taskCenters.get? c = some center → center.graph = some g →
    p.owns g = true

/-- Whether a part is closed is seen in what belongs to it. -/
theorem closed_only : (s.only p).Closed p ↔ s.Closed p := by
  constructor
  · intro h
    exact ⟨fun g graph hg hgraph => h.graph g graph hg ((get?_graphs_only hg).trans hgraph),
      fun b binder hb hbinder => h.views b binder hb ((get?_binders_only hb).trans hbinder),
      fun c center g hc hcenter => h.attached c center g hc ((get?_taskCenters_only hc).trans hcenter)⟩
  · intro h
    exact ⟨fun g graph hg hgraph => h.graph g graph hg ((get?_graphs_only hg).symm.trans hgraph),
      fun b binder hb hbinder => h.views b binder hb ((get?_binders_only hb).symm.trans hbinder),
      fun c center g hc hcenter => h.attached c center g hc ((get?_taskCenters_only hc).symm.trans hcenter)⟩

/-- No graph was made or got other services, no binder was made or got more views, no task center was made or got
another graph, and no initialization called back. -/
structure Quiet (s s' : Scene) : Prop where
  graph : ∀ g graph', s'.graphs.get? g = some graph' →
    ∃ graph, s.graphs.get? g = some graph ∧ graph'.services = graph.services
  views : ∀ b binder', s'.binders.get? b = some binder' →
    ∃ binder, s.binders.get? b = some binder ∧ binder'.views ⊆ binder.views
  attached : ∀ c center', s'.taskCenters.get? c = some center' →
    ∃ center, s.taskCenters.get? c = some center ∧ center'.graph = center.graph
  dones : ∀ i, s'.dones i = s.dones i

theorem Closed.quiet (h : s.Closed p) (hq : Quiet s s') : s'.Closed p where
  graph g graph' hg hgraph' := by
    obtain ⟨graph, hgraph, hservices⟩ := hq.graph g graph' hgraph'
    simp only [Graph.services, Prod.mk.injEq] at hservices
    obtain ⟨hbinder, htasks, hanimations⟩ := hservices
    rw [hbinder, htasks, hanimations]
    exact h.graph g graph hg hgraph
  views b binder' hb hbinder' g hg := by
    obtain ⟨binder, hbinder, hsub⟩ := hq.views b binder' hbinder'
    exact h.views b binder hb hbinder g (hsub hg)
  attached c center' g hc hcenter' hg := by
    obtain ⟨center, hcenter, hgraph⟩ := hq.attached c center' hcenter'
    exact h.attached c center g hc hcenter (hgraph ▸ hg)

theorem Closed.emit (h : s.Closed p) (e : Event) : (s.emit e).Closed p := ⟨h.graph, h.views, h.attached⟩

namespace Quiet

theorem refl (s : Scene) : Quiet s s :=
  ⟨fun _ graph h => ⟨graph, h, rfl⟩, fun _ binder h => ⟨binder, h, List.Subset.refl _⟩,
    fun _ center h => ⟨center, h, rfl⟩, fun _ => rfl⟩

theorem trans (h : Quiet r s) (h' : Quiet s s') : Quiet r s' where
  graph g graph'' hgraph'' := by
    obtain ⟨graph', hgraph', hservices'⟩ := h'.graph g graph'' hgraph''
    obtain ⟨graph, hgraph, hservices⟩ := h.graph g graph' hgraph'
    exact ⟨graph, hgraph, hservices'.trans hservices⟩
  views b binder'' hbinder'' := by
    obtain ⟨binder', hbinder', hsub'⟩ := h'.views b binder'' hbinder''
    obtain ⟨binder, hbinder, hsub⟩ := h.views b binder' hbinder'
    exact ⟨binder, hbinder, List.Subset.trans hsub' hsub⟩
  attached c center'' hcenter'' := by
    obtain ⟨center', hcenter', hgraph'⟩ := h'.attached c center'' hcenter''
    obtain ⟨center, hcenter, hgraph⟩ := h.attached c center' hcenter'
    exact ⟨center, hcenter, hgraph'.trans hgraph⟩
  dones i := (h'.dones i).trans (h.dones i)

theorem foldl {α : Type} {f : Scene → α → Scene} (hf : ∀ s x, Quiet s (f s x)) :
    ∀ (l : List α) (s : Scene), Quiet s (l.foldl f s)
  | [], s => .refl s
  | x :: l, s => (hf s x).trans (Quiet.foldl hf l (f s x))

theorem of_parts (hg : s'.graphs = s.graphs) (hb : s'.binders = s.binders) (hc : s'.taskCenters = s.taskCenters)
    (hd : ∀ i, s'.dones i = s.dones i) : Quiet s s' :=
  ⟨fun _ graph h => ⟨graph, hg ▸ h, rfl⟩, fun _ binder h => ⟨binder, hb ▸ h, List.Subset.refl _⟩,
    fun _ center h => ⟨center, hc ▸ h, rfl⟩, hd⟩

theorem emit (s : Scene) {e : Event} (he : ∀ i, e.done? i = none) : Quiet s (s.emit e) :=
  of_parts rfl rfl rfl fun i => by rw [dones_emit, he, Option.toList_none, List.append_nil]

theorem modifyGraph (s : Scene) (g : GraphId) {f : Graph → Graph} (hf : ∀ graph, (f graph).services = graph.services) :
    Quiet s (s.modifyGraph g f) := by
  refine ⟨fun g' graph' h => ?_, (refl s).views, (refl s).attached, fun _ => rfl⟩
  simp only [Scene.modifyGraph, Table.get?_modify] at h
  split at h
  · rename_i hg
    subst hg
    obtain ⟨graph, hgraph, rfl⟩ := Option.map_eq_some_iff.1 h
    exact ⟨graph, hgraph, hf graph⟩
  · exact ⟨graph', h, rfl⟩

theorem modifyBinder (s : Scene) (b : BinderId) {f : Binder → Binder}
    (hf : ∀ binder, s.binders.get? b = some binder → (f binder).views ⊆ binder.views) :
    Quiet s (s.modifyBinder b f) := by
  refine ⟨(refl s).graph, fun b' binder' h => ?_, (refl s).attached, fun _ => rfl⟩
  simp only [Scene.modifyBinder, Table.get?_modify] at h
  split at h
  · rename_i hb
    subst hb
    obtain ⟨binder, hbinder, rfl⟩ := Option.map_eq_some_iff.1 h
    exact ⟨binder, hbinder, hf binder hbinder⟩
  · exact ⟨binder', h, List.Subset.refl _⟩

theorem modifyTasks (s : Scene) (c : TaskCenterId) {f : TaskCenter → TaskCenter}
    (hf : ∀ center, (f center).graph = center.graph) : Quiet s (s.modifyTasks c f) := by
  refine ⟨(refl s).graph, (refl s).views, fun c' center' h => ?_, fun _ => rfl⟩
  simp only [Scene.modifyTasks, Table.get?_modify] at h
  split at h
  · rename_i hc
    subst hc
    obtain ⟨center, hcenter, rfl⟩ := Option.map_eq_some_iff.1 h
    exact ⟨center, hcenter, hf center⟩
  · exact ⟨center', h, rfl⟩

theorem addTask (s : Scene) (c : TaskCenterId) (task : Task) : Quiet s (s.addTask c task) :=
  .modifyTasks s c fun _ => rfl

theorem of_leads (h : Leads s s') : Quiet s s' := by
  induction h with
  | refl => exact .refl s
  | tail _ hc ih =>
    refine ih.trans ?_
    cases hc with
    | @report e hreport =>
      refine .emit _ fun i => ?_
      cases e <;> first | rfl | exact hreport.elim
    | queue => exact .of_parts rfl rfl rfl fun _ => rfl
    | write g key value => exact .modifyGraph _ g fun _ => rfl
    | play g node a => exact .modifyGraph _ g fun _ => rfl
    | @store b binder known key value =>
      refine .modifyBinder _ b fun binder' hbinder' => ?_
      obtain rfl : binder' = binder := Option.some.inj (hbinder'.symm.trans known)
      exact List.filter_sublist.subset

theorem runAction (s : Scene) (t : Thread) (g : GraphId) (action : Action) : Quiet s (s.runAction t g action).2 := by
  cases htask : action.task? with
  | none => exact of_leads (leads_runAction s t g htask)
  | some task =>
    cases hg : s.graphs.get? g with
    | none => rw [runAction_of_no_graph hg]; exact .refl s
    | some graph => rw [runAction_addTask hg htask]; exact .addTask s _ task

theorem runActions (t : Thread) (c : TaskCenterId) (g : GraphId) (actions : List Action) (s : Scene) :
    Quiet s (runActions t c g actions s) :=
  .foldl (fun s a => (Quiet.emit s (e := .ran c g a) fun _ => rfl).trans (.runAction _ t g a)) actions s

theorem notify (s : Scene) (t : Thread) (c : TaskCenterId) (hook : Hook) (value : String) :
    Quiet s (s.notify t c hook value).2 := by
  unfold Scene.notify
  split
  · exact .refl s
  · split
    · exact .refl s
    · exact .foldl (fun s (task : Task) => .runActions t c _ task.actions s) _ s

theorem performAction (s : Scene) (t : Thread) (g : GraphId) (node : NodeId) :
    Quiet s (s.performAction t g node).2 := by
  unfold Scene.performAction
  split
  · exact .runAction s t g _
  · exact .refl s

theorem addLoadHook (s : Scene) (g : GraphId) (hook : LoadHook) : Quiet s (s.addLoadHook g hook) :=
  .modifyGraph s g fun _ => rfl

theorem runHook (t : Thread) (g : GraphId) (s : Scene) (hook : LoadHook) : Quiet s (runHook t g s hook) := by
  obtain ⟨tag, update, nested⟩ := hook
  have hemit : Quiet s (s.emit (.hookRan g tag (s.isLoaded g))) := .emit s fun _ => rfl
  simp only [Scene.runHook]
  refine (hemit.trans ?_).trans (.foldl (fun s hook => .addLoadHook s g hook) nested _)
  split
  · exact of_leads (leads_update _ t _ _ _)
  · exact .refl _

theorem finishLoad (s : Scene) (t : Thread) (g : GraphId) : Quiet s (s.finishLoad t g) := by
  unfold Scene.finishLoad
  split
  · exact .refl s
  · rename_i graph _
    have hmarked : Quiet s (s.modifyGraph g fun graph =>
        { graph with mount := { graph.mount with loaded := true }, hooks := [] }) := .modifyGraph s g fun _ => rfl
    exact hmarked.trans (.foldl (fun s hook => .runHook t g s hook) graph.hooks _)

theorem setBinderUi (s : Scene) (b : BinderId) (q : QueueId) : Quiet s (s.setBinderUi b q) :=
  .modifyBinder s b fun _ _ => List.Subset.refl _

theorem setLoaded (s : Scene) (b : BinderId) : Quiet s (s.setLoaded b) :=
  .modifyBinder s b fun _ _ => List.Subset.refl _

theorem hold (s : Scene) (g : GraphId) (h : Holder) : Quiet s (s.hold g h) := .modifyGraph s g fun _ => rfl

theorem release (s : Scene) (g : GraphId) (h : Holder) : Quiet s (s.release g h) := .modifyGraph s g fun _ => rfl

end Quiet

/-! ## Data -/

theorem only_pushValue (p : Part) (t : Thread) (ui : Option QueueId) (key : String) (value : Value) (s : Scene)
    (g : GraphId) : (pushValue t ui key value s g).only p =
      if p.owns g then pushValue t ui key value (s.only p) g else s.only p := by
  unfold pushValue
  cases ui with
  | some q => exact only_dispatch p s q t _
  | none => exact only_runTask p s 0 t (.applyData g key value)

theorem foldl_pushValue_in (ui : Option QueueId) (key : String) (value : Value) : ∀ (views : List GraphId) (s : Scene),
    (∀ g ∈ views, p.owns g = true) →
      (views.foldl (pushValue t ui key value) s).only p = views.foldl (pushValue t ui key value) (s.only p)
  | [], _, _ => rfl
  | g :: views, s, h => by
    rw [List.foldl_cons, foldl_pushValue_in ui key value views _ fun g' hg' => h g' (List.mem_cons_of_mem g hg'),
      only_pushValue, if_pos (h g (List.mem_cons_self ..))]
    rfl

theorem foldl_pushValue_out (ui : Option QueueId) (key : String) (value : Value) : ∀ (views : List GraphId) (s : Scene),
    (∀ g ∈ views, p.owns g = false) → (views.foldl (pushValue t ui key value) s).only p = s.only p
  | [], _, _ => rfl
  | g :: views, s, h => by
    rw [List.foldl_cons, foldl_pushValue_out ui key value views _ fun g' hg' => h g' (List.mem_cons_of_mem g hg'),
      only_pushValue, if_neg (ne_true_of_eq_false (h g (List.mem_cons_self ..)))]

theorem update_in (h : s.Closed p) (hb : p.binds b = true) (t : Thread) (key : String) (value : Value) :
    (s.only p).update t b key value = (s.update t b key value).only p := by
  unfold update
  rw [get?_binders_only hb]
  cases hbinder : s.binders.get? b with
  | none => rfl
  | some binder =>
    have hviews := h.views b binder hb hbinder
    have halive : binder.views.filter (s.only p).alive = binder.views.filter s.alive :=
      List.filter_congr fun g hg => alive_only (hviews g hg)
    dsimp only
    rw [foldl_pushValue_in _ _ _ _ _ fun g hg => hviews g (List.mem_filter.1 hg).1, only_modifyBinder, if_pos hb,
      halive]

theorem update_out (h : s.Closed p.rest) (hb : p.binds b = false) (t : Thread) (key : String) (value : Value) :
    (s.update t b key value).only p = s.only p := by
  unfold update
  cases hbinder : s.binders.get? b with
  | none => rfl
  | some binder =>
    have hviews : ∀ g ∈ binder.views, p.owns g = false := by
      intro g hg
      have hrest := h.views b binder (by simp [Part.rest, hb]) hbinder g hg
      simpa [Part.rest] using hrest
    dsimp only
    rw [foldl_pushValue_out _ _ _ _ _ fun g hg => hviews g (List.mem_filter.1 hg).1, only_modifyBinder,
      if_neg (ne_true_of_eq_false hb)]

theorem valueOf_only (hb : p.binds b = true) (key : String) : (s.only p).valueOf b key = s.valueOf b key := by
  rw [valueOf, valueOf, get?_binders_only hb]

/-! ## Actions -/

theorem start_in (hc : p.owns c = true) (hg : p.owns g = true) (t : Thread) (node : NodeId) (a : Animation) :
    (s.only p).start t c g node a = Prod.map id (only p) (s.start t c g node a) := by
  unfold start
  rw [get?_graphs_only hg, get?_animationCenters_only hc]
  cases (s.graphs.get? g).bind (·.node? node) with
  | none => rfl
  | some n =>
    cases s.animationCenters.get? c with
    | none => rfl
    | some center =>
      cases hui : center.ui with
      | some q =>
        have hdispatch := only_dispatch p s q t (.animate g node a)
        rw [if_pos (show p.awaits (.animate g node a) = true from hg)] at hdispatch
        simp only [hui, Prod.map, id, hdispatch]
      | none => simp only [hui, Prod.map, id, only_modifyGraph, if_pos hg]

theorem start_out (hg : p.owns g = false) (t : Thread) (c : AnimationCenterId) (node : NodeId) (a : Animation) :
    (s.start t c g node a).2.only p = s.only p := by
  have hno : ¬ p.owns g = true := ne_true_of_eq_false hg
  unfold start
  split
  · split
    · exact (only_dispatch p s _ t _).trans (if_neg hno)
    · exact (only_modifyGraph p s g _).trans (if_neg hno)
  · rfl

theorem startNamed_in {graph : Graph} (hc : p.owns graph.animations = true) (hg : p.owns g = true) (t : Thread)
    (animation : String) (target : Option String) :
    (s.only p).startNamed t g graph animation target =
      Prod.map id (only p) (s.startNamed t g graph animation target) := by
  unfold startNamed
  rw [get?_animationCenters_only hc]
  split
  · rfl
  · split
    · exact start_in hc hg t _ _
    · split
      · exact start_in hc hg t _ _
      · rfl

theorem startNamed_out (hg : p.owns g = false) (t : Thread) (graph : Graph) (animation : String)
    (target : Option String) : (s.startNamed t g graph animation target).2.only p = s.only p := by
  unfold startNamed
  split
  · rfl
  · split
    · exact start_out hg t _ _ _
    · split
      · exact start_out hg t _ _ _
      · rfl

theorem runAction_in (h : s.Closed p) (hg : p.owns g = true) (t : Thread) (action : Action) :
    (s.only p).runAction t g action = Prod.map id (only p) (s.runAction t g action) := by
  unfold runAction
  rw [get?_graphs_only hg]
  cases hgraph : s.graphs.get? g with
  | none => rfl
  | some graph =>
    obtain ⟨hbinder, htasks, hanimations⟩ := h.graph g graph hg hgraph
    cases action with
    | outer key value =>
      dsimp only
      split
      · rename_i listener _
        simp only [Prod.map, id, only_emit, if_pos (show p.sees (.told g listener key value) = true from hg)]
      · rfl
    | updateData key value => simp only [Prod.map, id, update_in h hbinder]
    | startAnimation animation target => exact startNamed_in hanimations hg t animation target
    | record line => simp only [Prod.map, id, only_emit, if_pos (show p.sees (.recorded g line) = true from hg)]
    | probe tag key node attr =>
      simp only [Prod.map, id, only_emit, valueOf_only hbinder]
      rw [if_pos (show p.sees (.probed ..) = true from hg)]
    | addTask hook filter actions => simp only [Prod.map, id, addTask, only_modifyTasks, if_pos htasks]

theorem runAction_out (h : s.Closed p.rest) (hg : p.owns g = false) (t : Thread) (action : Action) :
    (s.runAction t g action).2.only p = s.only p := by
  have hno : ¬ p.owns g = true := ne_true_of_eq_false hg
  unfold runAction
  cases hgraph : s.graphs.get? g with
  | none => rfl
  | some graph =>
    obtain ⟨hbinder, htasks, hanimations⟩ := h.graph g graph (by simp [Part.rest, hg]) hgraph
    simp only [Part.rest, Bool.not_eq_true'] at hbinder htasks hanimations
    cases action with
    | outer key value =>
      dsimp only
      split
      · exact (only_emit p s _).trans (if_neg hno)
      · rfl
    | updateData key value => exact update_out h hbinder t key value
    | startAnimation animation target => exact startNamed_out hg t graph animation target
    | record line => exact (only_emit p s _).trans (if_neg hno)
    | probe tag key node attr => exact (only_emit p s _).trans (if_neg hno)
    | addTask hook filter actions =>
      exact (only_modifyTasks p s _ _).trans (if_neg (ne_true_of_eq_false htasks))

theorem runActions_in (t : Thread) (c : TaskCenterId) (hg : p.owns g = true) : ∀ (actions : List Action) {s : Scene},
    s.Closed p → runActions t c g actions (s.only p) = (runActions t c g actions s).only p
  | [], _, _ => rfl
  | action :: actions, s, h => by
    have hran : p.sees (.ran c g action) = true := hg
    have hemit := h.emit (.ran c g action)
    have haction := congrArg Prod.snd (runAction_in hemit hg t action)
    have honly := only_emit p s (.ran c g action)
    rw [if_pos hran] at honly
    rw [honly] at haction
    rw [runActions_cons, runActions_cons, haction]
    exact runActions_in t c hg actions (hemit.quiet (.runAction _ t g action))

theorem runActions_out (t : Thread) (c : TaskCenterId) (hg : p.owns g = false) : ∀ (actions : List Action) {s : Scene},
    s.Closed p.rest → (runActions t c g actions s).only p = s.only p
  | [], _, _ => rfl
  | action :: actions, s, h => by
    have hran : ¬ p.sees (.ran c g action) = true := ne_true_of_eq_false hg
    have hemit := h.emit (.ran c g action)
    rw [runActions_cons, runActions_out t c hg actions (hemit.quiet (.runAction _ t g action)),
      runAction_out hemit hg t action, only_emit, if_neg hran]

/-! ## Hooks -/

theorem notify_in (h : s.Closed p) (hc : p.owns c = true) (t : Thread) (hook : Hook) (value : String) :
    (s.only p).notify t c hook value = Prod.map id (only p) (s.notify t c hook value) := by
  unfold notify
  rw [get?_taskCenters_only hc]
  cases hcenter : s.taskCenters.get? c with
  | none => rfl
  | some center =>
    have halive : center.graph.filter (s.only p).alive = center.graph.filter s.alive := by
      cases hgraph : center.graph with
      | none => rfl
      | some g => rw [Option.filter_some, Option.filter_some, alive_only (h.attached c center g hc hcenter hgraph)]
    dsimp only
    rw [halive]
    cases hgraph : center.graph.filter s.alive with
    | none => rfl
    | some g =>
      have hg := h.attached c center g hc hcenter (Option.filter_eq_some_iff.1 hgraph).1
      simp only [foldl_runActions, Prod.map, id, runActions_in t c hg _ h]

theorem notify_out (h : s.Closed p.rest) (hc : p.owns c = false) (t : Thread) (hook : Hook) (value : String) :
    (s.notify t c hook value).2.only p = s.only p := by
  unfold notify
  cases hcenter : s.taskCenters.get? c with
  | none => rfl
  | some center =>
    dsimp only
    cases hgraph : center.graph.filter s.alive with
    | none => rfl
    | some g =>
      have hg := h.attached c center g (by simp [Part.rest, hc]) hcenter (Option.filter_eq_some_iff.1 hgraph).1
      dsimp only
      rw [foldl_runActions]
      exact runActions_out t c (by simpa [Part.rest] using hg) _ h

theorem performAction_in (h : s.Closed p) (hg : p.owns g = true) (t : Thread) (node : NodeId) :
    (s.only p).performAction t g node = Prod.map id (only p) (s.performAction t g node) := by
  unfold performAction
  rw [get?_graphs_only hg]
  split
  · exact runAction_in h hg t _
  · rfl

theorem performAction_out (h : s.Closed p.rest) (hg : p.owns g = false) (t : Thread) (node : NodeId) :
    (s.performAction t g node).2.only p = s.only p := by
  unfold performAction
  split
  · exact runAction_out h hg t _
  · rfl

theorem startAnimation_in (h : s.Closed p) (hg : p.owns g = true) (t : Thread) (node : NodeId) :
    (s.only p).startAnimation t g node = Prod.map id (only p) (s.startAnimation t g node) := by
  unfold startAnimation
  rw [get?_graphs_only hg]
  cases hgraph : s.graphs.get? g with
  | none => rfl
  | some graph =>
    dsimp only
    split
    · exact start_in (h.graph g graph hg hgraph).2.2 hg t node _
    · rfl

theorem startAnimation_out (hg : p.owns g = false) (t : Thread) (node : NodeId) :
    (s.startAnimation t g node).2.only p = s.only p := by
  unfold startAnimation
  split
  · rfl
  · split
    · exact start_out hg t _ node _
    · rfl

/-! ## The end of loading -/

theorem isLoaded_only (hg : p.owns g = true) : (s.only p).isLoaded g = s.isLoaded g := by
  rw [isLoaded, isLoaded, get?_graphs_only hg]

theorem only_addLoadHook (p : Part) (s : Scene) (g : GraphId) (hook : LoadHook) :
    (s.addLoadHook g hook).only p = if p.owns g then (s.only p).addLoadHook g hook else s.only p :=
  only_modifyGraph p s g _

theorem runHook_in (h : s.Closed p) (hg : p.owns g = true) (t : Thread) (hook : LoadHook) :
    runHook t g (s.only p) hook = (runHook t g s hook).only p := by
  obtain ⟨tag, update, nested⟩ := hook
  have hemit := h.emit (.hookRan g tag (s.isLoaded g))
  have honly := only_emit p s (.hookRan g tag (s.isLoaded g))
  rw [if_pos (show p.sees (.hookRan g tag (s.isLoaded g)) = true from hg)] at honly
  simp only [runHook]
  rw [only_foldl (fun s hook => only_addLoadHook p s g hook), if_pos hg, isLoaded_only hg, ← honly, get?_graphs_only hg]
  congr 1
  cases update with
  | none => rfl
  | some e =>
    cases hgraph : (s.emit (.hookRan g tag (s.isLoaded g))).graphs.get? g with
    | none => rfl
    | some graph => exact update_in hemit (hemit.graph g graph hg hgraph).1 t e.1 e.2

theorem runHook_out (h : s.Closed p.rest) (hg : p.owns g = false) (t : Thread) (hook : LoadHook) :
    (runHook t g s hook).only p = s.only p := by
  obtain ⟨tag, update, nested⟩ := hook
  have hno : ¬ p.owns g = true := ne_true_of_eq_false hg
  have hemit := h.emit (.hookRan g tag (s.isLoaded g))
  have honly : (s.emit (.hookRan g tag (s.isLoaded g))).only p = s.only p := (only_emit p s _).trans (if_neg hno)
  simp only [runHook]
  rw [only_foldl (fun s hook => only_addLoadHook p s g hook), if_neg hno]
  cases update with
  | none => exact honly
  | some e =>
    cases hgraph : (s.emit (.hookRan g tag (s.isLoaded g))).graphs.get? g with
    | none => exact honly
    | some graph =>
      have hbinder := (hemit.graph g graph (by simp [Part.rest, hg]) hgraph).1
      exact (update_out hemit (by simpa [Part.rest] using hbinder) t e.1 e.2).trans honly

theorem foldl_runHook_in (hg : p.owns g = true) (t : Thread) : ∀ (hooks : List LoadHook) {s : Scene}, s.Closed p →
    hooks.foldl (runHook t g) (s.only p) = (hooks.foldl (runHook t g) s).only p
  | [], _, _ => rfl
  | hook :: hooks, s, h => by
    rw [List.foldl_cons, List.foldl_cons, runHook_in h hg]
    exact foldl_runHook_in hg t hooks (h.quiet (.runHook t g s hook))

theorem foldl_runHook_out (hg : p.owns g = false) (t : Thread) : ∀ (hooks : List LoadHook) {s : Scene},
    s.Closed p.rest → (hooks.foldl (runHook t g) s).only p = s.only p
  | [], _, _ => rfl
  | hook :: hooks, s, h => by
    rw [List.foldl_cons, foldl_runHook_out hg t hooks (h.quiet (.runHook t g s hook)), runHook_out h hg]

/-- A graph that was marked as loaded, without its hooks. -/
def marked (s : Scene) (g : GraphId) : Scene :=
  s.modifyGraph g fun graph => { graph with mount := { graph.mount with loaded := true }, hooks := [] }

theorem Quiet.marked (s : Scene) (g : GraphId) : Quiet s (s.marked g) := .modifyGraph s g fun _ => rfl

theorem finishLoad_in (h : s.Closed p) (hg : p.owns g = true) (t : Thread) :
    (s.only p).finishLoad t g = (s.finishLoad t g).only p := by
  unfold finishLoad
  rw [get?_graphs_only hg]
  cases hgraph : s.graphs.get? g with
  | none => rfl
  | some graph =>
    have honly : (s.marked g).only p = (s.only p).marked g := (only_modifyGraph p s g _).trans (if_pos hg)
    have hhooks := foldl_runHook_in hg t graph.hooks (h.quiet (.marked s g))
    rw [honly] at hhooks
    exact hhooks

theorem finishLoad_out (h : s.Closed p.rest) (hg : p.owns g = false) (t : Thread) :
    (s.finishLoad t g).only p = s.only p := by
  unfold finishLoad
  cases hgraph : s.graphs.get? g with
  | none => rfl
  | some graph =>
    have honly : (s.marked g).only p = s.only p :=
      (only_modifyGraph p s g _).trans (if_neg (ne_true_of_eq_false hg))
    exact (foldl_runHook_out hg t graph.hooks (h.quiet (.marked s g))).trans honly

end Scene

end LiveScreen
