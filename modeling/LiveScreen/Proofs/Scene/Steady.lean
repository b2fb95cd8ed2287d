/-
What stays as it is in a scene while screens are used: the services and holders
of the graphs, what task centers run their actions on, the views of a binder that
somebody holds, and what the parser was called with. Building a screen, holding
and letting go of a graph, attaching it and calling the parser are not among the
things that keep this; they are done for one screen, and `Steady` leaves out what
belongs to it.
-/
import LiveScreen.Proofs.Scene.Changes
import LiveScreen.Proofs.Scene.Flush
import LiveScreen.Markup.Build

namespace LiveScreen

/-- The services of a graph, who holds it, and what its nodes are bound to. -/
def Graph.ties (graph : Graph) : BinderId × TaskCenterId × AnimationCenterId × List Holder × List (List Binding) :=
  (graph.binder, graph.tasks, graph.animations, graph.holders, graph.nodes.map (·.bindings))

@[simp] theorem Graph.ties_applyData (graph : Graph) (key : String) (value : Value) :
    (graph.applyData key value).ties = graph.ties := by
  simp [Graph.ties, Graph.applyData, Function.comp_def]

@[simp] theorem Graph.ties_animate (graph : Graph) (id : NodeId) (a : Animation) :
    (graph.animate id a).ties = graph.ties := by
  simp only [Graph.ties, Graph.animate, Graph.modifyNode, List.map_map, Prod.mk.injEq, true_and]
  refine List.map_congr_left fun n _ => ?_
  simp only [Function.comp_apply]
  split <;> rfl

theorem Graph.ties_applyAll : ∀ (graph : Graph) (es : List (String × Value)), (graph.applyAll es).ties = graph.ties
  | _, [] => rfl
  | graph, e :: es => (ties_applyAll (graph.applyData e.1 e.2) es).trans (ties_applyData graph e.1 e.2)

/-- What the parser was called with for a screen: the markup, and the line it wrote. -/
def Event.parse? (i : ScreenId) : Event → Option (String × String)
  | .parsed j markup line => if j = i then some (markup, line) else none
  | _ => none

namespace Scene

/-- What the parser was called with for a screen, call by call. -/
def parses (s : Scene) (i : ScreenId) : List (String × String) := s.events.filterMap (Event.parse? i)

/-- The tasks of a task center. -/
def tasksAt (s : Scene) (c : TaskCenterId) : List Task :=
  match s.taskCenters.get? c with
  | some center => center.tasks
  | none => []

/-- A graph is among the views of a binder. -/
def Views (s : Scene) (b : BinderId) (g : GraphId) : Prop := ∃ binder, s.binders.get? b = some binder ∧ g ∈ binder.views

/-- What stays as it is, but for what belongs to some owners. -/
structure Steady (off : Owner → Prop) (s s' : Scene) : Prop where
  ties : ∀ g, ¬ off g → (s'.graphs.get? g).map Graph.ties = (s.graphs.get? g).map Graph.ties
  attached : ∀ c, ¬ off c → (s'.taskCenters.get? c).map (·.graph) = (s.taskCenters.get? c).map (·.graph)
  tasks : ∀ c, ¬ off c → s.tasksAt c <+: s'.tasksAt c
  known : ∀ b, (s.binders.get? b).isSome = true → (s'.binders.get? b).isSome = true
  absent : ∀ b, ¬ off b → s.binders.get? b = none → s'.binders.get? b = none
  views : ∀ b g, ¬ off g → s.Held g → s.Views b g → s'.Views b g
  thread : ∀ q t, s'.isUiThread q t = s.isUiThread q t
  parses : ∀ i, ¬ off (.screen i) → s'.parses i = s.parses i

variable {off : Owner → Prop} {r s s' : Scene}

theorem Held.of_ties {g : GraphId} (h : (s'.graphs.get? g).map Graph.ties = (s.graphs.get? g).map Graph.ties)
    (hg : s.Held g) : s'.Held g := by
  obtain ⟨graph, hgraph, hh⟩ := hg
  rw [hgraph, Option.map_some] at h
  obtain ⟨graph', hgraph', hties⟩ := Option.map_eq_some_iff.1 h
  simp only [Graph.ties, Prod.mk.injEq] at hties
  obtain ⟨-, -, -, hholders, -⟩ := hties
  exact ⟨graph', hgraph', by rw [hholders]; exact hh⟩

namespace Steady

theorem refl (s : Scene) : Steady off s s :=
  ⟨fun _ _ => rfl, fun _ _ => rfl, fun _ _ => List.prefix_rfl, fun _ => id, fun _ _ => id, fun _ _ _ _ => id,
    fun _ _ => rfl, fun _ _ => rfl⟩

theorem trans (h : Steady off r s) (h' : Steady off s s') : Steady off r s' where
  ties g hg := (h'.ties g hg).trans (h.ties g hg)
  attached c hc := (h'.attached c hc).trans (h.attached c hc)
  tasks c hc := (h.tasks c hc).trans (h'.tasks c hc)
  known b hb := h'.known b (h.known b hb)
  absent b hb hn := h'.absent b hb (h.absent b hb hn)
  views b g hg hh hv := h'.views b g hg (hh.of_ties (h.ties g hg)) (h.views b g hg hh hv)
  thread q t := (h'.thread q t).trans (h.thread q t)
  parses i hi := (h'.parses i hi).trans (h.parses i hi)

theorem foldl {α : Type} {f : Scene → α → Scene} (hf : ∀ s x, Steady off s (f s x)) :
    ∀ (l : List α) (s : Scene), Steady off s (l.foldl f s)
  | [], s => .refl s
  | x :: l, s => (hf s x).trans (Steady.foldl hf l (f s x))

/-! ## Changes of one part -/

/-- A change of queues, animation centers and what is recorded. -/
theorem of_parts (hg : s'.graphs = s.graphs) (hb : s'.binders = s.binders) (hc : s'.taskCenters = s.taskCenters)
    (hq : ∀ q t, s'.isUiThread q t = s.isUiThread q t)
    (hp : ∀ i, ¬ off (.screen i) → s'.parses i = s.parses i) : Steady off s s' := by
  refine ⟨?_, ?_, ?_, ?_, ?_, ?_, hq, hp⟩
  · intro g _
    rw [hg]
  · intro c _
    rw [hc]
  · intro c _
    simp only [tasksAt, hc]
    exact List.prefix_rfl
  · intro b h
    rw [hb, h]
  · intro b _ h
    rw [hb, h]
  · intro b g _ _ h
    simpa only [Views, hb] using h

theorem emit (s : Scene) {e : Event} (he : ∀ i, ¬ off (.screen i) → e.parse? i = none) : Steady off s (s.emit e) := by
  refine of_parts rfl rfl rfl (fun _ _ => rfl) fun i hi => ?_
  simp only [Scene.parses, Scene.emit, List.filterMap_append, List.filterMap_cons, he i hi, List.filterMap_nil,
    List.append_nil]

theorem modifyGraph (s : Scene) (g : GraphId) {f : Graph → Graph}
    (hf : ¬ off g → ∀ graph, (f graph).ties = graph.ties) : Steady off s (s.modifyGraph g f) := by
  refine ⟨fun g' hg' => ?_, fun _ _ => rfl, fun _ _ => List.prefix_rfl, fun _ => id, fun _ _ => id, fun _ _ _ _ => id,
    fun _ _ => rfl, fun _ _ => rfl⟩
  simp only [Scene.modifyGraph, Table.get?_modify]
  split
  · rename_i h
    subst h
    rw [Option.map_map]
    congr 1
    funext graph
    exact hf hg' graph
  · rfl

theorem modifyBinder (s : Scene) (b : BinderId) {f : Binder → Binder}
    (hf : ∀ binder, s.binders.get? b = some binder → ∀ g ∈ binder.views, s.Held g → g ∈ (f binder).views) :
    Steady off s (s.modifyBinder b f) := by
  have hget : ∀ b', (s.modifyBinder b f).binders.get? b' =
      if b' = b then (s.binders.get? b).map f else s.binders.get? b' := fun b' => Table.get?_modify s.binders b b' f
  refine ⟨fun _ _ => rfl, fun _ _ => rfl, fun _ _ => List.prefix_rfl, fun b' h => ?_, fun b' _ h => ?_,
    fun b' g _ hh hv => ?_, fun _ _ => rfl, fun _ _ => rfl⟩
  · rw [hget]
    split
    · rename_i hb
      subst hb
      rw [Option.isSome_map, h]
    · exact h
  · rw [hget]
    split
    · rename_i hb
      subst hb
      rw [h, Option.map_none]
    · exact h
  · obtain ⟨binder, hbinder, hg⟩ := hv
    by_cases hb : b' = b
    · subst hb
      exact ⟨f binder, by rw [hget, if_pos rfl, hbinder, Option.map_some], hf binder hbinder g hg hh⟩
    · exact ⟨binder, by rw [hget, if_neg hb, hbinder], hg⟩

theorem modifyTasks (s : Scene) (c : TaskCenterId) {f : TaskCenter → TaskCenter}
    (hf : ¬ off c → ∀ center, (f center).graph = center.graph ∧ center.tasks <+: (f center).tasks) :
    Steady off s (s.modifyTasks c f) := by
  have hget : ∀ c', (s.modifyTasks c f).taskCenters.get? c' =
      if c' = c then (s.taskCenters.get? c).map f else s.taskCenters.get? c' :=
    fun c' => Table.get?_modify s.taskCenters c c' f
  refine ⟨fun _ _ => rfl, fun c' hc' => ?_, fun c' hc' => ?_, fun _ => id, fun _ _ => id, fun _ _ _ _ => id,
    fun _ _ => rfl, fun _ _ => rfl⟩
  · rw [hget]
    split
    · rename_i h
      subst h
      rw [Option.map_map]
      congr 1
      funext center
      exact (hf hc' center).1
    · rfl
  · simp only [tasksAt, hget]
    by_cases h : c' = c
    · subst h
      rw [if_pos rfl]
      cases s.taskCenters.get? c' with
      | none => exact List.prefix_rfl
      | some center => exact (hf hc' center).2
    · simp only [if_neg h, List.prefix_rfl]

theorem addTask (s : Scene) (c : TaskCenterId) (task : Task) : Steady off s (s.addTask c task) :=
  modifyTasks s c fun _ _ => ⟨rfl, List.prefix_append ..⟩

theorem insertAnimation (s : Scene) (c : AnimationCenterId) (id : String) (a : Animation) :
    Steady off s (s.insertAnimation c id a) := of_parts rfl rfl rfl (fun _ _ => rfl) fun _ _ => rfl

theorem setAnimationUi (s : Scene) (c : AnimationCenterId) (q : QueueId) : Steady off s (s.setAnimationUi c q) :=
  of_parts rfl rfl rfl (fun _ _ => rfl) fun _ _ => rfl

/-! ## Actions, tasks and hooks -/

/-- Small changes keep what stays. -/
theorem of_change (h : Change s s') : Steady off s s' := by
  cases h with
  | @report e hreport =>
    refine .emit s fun i _ => ?_
    cases e <;> first | rfl | exact hreport.elim
  | queue q same =>
    refine of_parts rfl rfl rfl (fun q' t => ?_) fun _ _ => rfl
    exact isUiThread_modifyQueue s q q' (fun queue => (same queue).1) t
  | write g key value => exact .modifyGraph s g fun _ graph => graph.ties_applyData key value
  | play g node a => exact .modifyGraph s g fun _ graph => graph.ties_animate node a
  | @store b binder known key value =>
    refine .modifyBinder s b fun binder' hbinder' g hg hh => ?_
    obtain rfl : binder' = binder := Option.some.inj (hbinder'.symm.trans known)
    exact List.mem_filter.2 ⟨hg, hh.alive⟩

theorem of_leads (h : Leads s s') : Steady off s s' := by
  induction h with
  | refl => exact .refl s
  | tail _ hc ih => exact ih.trans (of_change hc)

theorem runAction (s : Scene) (t : Thread) (g : GraphId) (action : Action) :
    Steady off s (s.runAction t g action).2 := by
  cases htask : action.task? with
  | none => exact of_leads (leads_runAction s t g htask)
  | some task =>
    cases hg : s.graphs.get? g with
    | none =>
      rw [runAction_of_no_graph hg]
      exact .refl s
    | some graph =>
      rw [runAction_addTask hg htask]
      exact .addTask s _ task

theorem runActions (t : Thread) (c : TaskCenterId) (g : GraphId) (actions : List Action) (s : Scene) :
    Steady off s (runActions t c g actions s) :=
  .foldl (fun s a => (Steady.emit s (e := .ran c g a) fun _ _ => rfl).trans (.runAction _ t g a)) actions s

theorem notify (s : Scene) (t : Thread) (c : TaskCenterId) (hook : Hook) (value : String) :
    Steady off s (s.notify t c hook value).2 := by
  unfold Scene.notify
  split
  · exact .refl s
  · split
    · exact .refl s
    · exact .foldl (fun s (task : Task) => .runActions t c _ task.actions s) _ s

theorem performAction (s : Scene) (t : Thread) (g : GraphId) (node : NodeId) :
    Steady off s (s.performAction t g node).2 := by
  unfold Scene.performAction
  split
  · exact .runAction s t g _
  · exact .refl s

theorem addLoadHook (s : Scene) (g : GraphId) (hook : LoadHook) : Steady off s (s.addLoadHook g hook) :=
  .modifyGraph s g fun _ _ => rfl

theorem runHook (t : Thread) (g : GraphId) (s : Scene) (hook : LoadHook) : Steady off s (runHook t g s hook) := by
  cases hook with
  | mk tag update nested =>
    unfold Scene.runHook
    have hran : Steady off s (s.emit (.hookRan g tag (s.isLoaded g))) := .emit s fun _ _ => rfl
    refine (hran.trans ?_).trans (.foldl (fun s hook => .addLoadHook s g hook) nested _)
    split
    · exact of_leads (leads_update _ t _ _ _)
    · exact .refl _

theorem mountGraph (s : Scene) (g : GraphId) (params : Layout.Params) (listener : Option String) :
    Steady off s (s.mountGraph g params listener) := .modifyGraph s g fun _ _ => rfl

theorem finishLoad (s : Scene) (t : Thread) (g : GraphId) : Steady off s (s.finishLoad t g) := by
  unfold Scene.finishLoad
  split
  · exact .refl s
  · rename_i graph _
    have hmarked : Steady off s (s.modifyGraph g fun graph =>
        { graph with mount := { graph.mount with loaded := true }, hooks := [] }) := .modifyGraph s g fun _ _ => rfl
    exact hmarked.trans (.foldl (fun s hook => .runHook t g s hook) graph.hooks _)

theorem setBinderUi (s : Scene) (b : BinderId) (q : QueueId) : Steady off s (s.setBinderUi b q) :=
  .modifyBinder s b fun _ _ _ hg _ => hg

theorem setLoaded (s : Scene) (b : BinderId) : Steady off s (s.setLoaded b) := .modifyBinder s b fun _ _ _ hg _ => hg

/-! ## Holding and attaching -/

theorem hold (s : Scene) {g : GraphId} (hg : off g) (h : Holder) : Steady off s (s.hold g h) :=
  .modifyGraph s g fun hno => absurd hg hno

theorem release (s : Scene) {g : GraphId} (hg : off g) (h : Holder) : Steady off s (s.release g h) :=
  .modifyGraph s g fun hno => absurd hg hno

theorem attach (s : Scene) {c : TaskCenterId} (hc : off c) (g : GraphId) : Steady off s (s.attach c g) :=
  .modifyTasks s c fun hno => absurd hc hno

theorem addView (s : Scene) (b : BinderId) (g : GraphId) : Steady off s (s.addView b g) := by
  unfold Scene.addView
  split
  · exact .refl s
  · rename_i binder _
    have hviews : Steady off s (s.modifyBinder b fun binder => { binder with views := binder.views ++ [g] }) :=
      .modifyBinder s b fun _ _ _ hg _ => List.mem_append_left _ hg
    exact hviews.trans (.modifyGraph _ g fun _ graph => graph.ties_applyAll binder.values.entries)

/-! ## Building -/

theorem insertGraph (s : Scene) {g : GraphId} (hg : off g) (graph : Graph) :
    Steady off s { s with graphs := s.graphs.insert g graph } := by
  refine ⟨fun g' hg' => ?_, fun _ _ => rfl, fun _ _ => List.prefix_rfl, fun _ => id, fun _ _ => id, fun _ _ _ _ => id,
    fun _ _ => rfl, fun _ _ => rfl⟩
  have hne : g' ≠ g := by
    rintro rfl
    exact hg' hg
  rw [Table.get?_insert_other _ _ hne]

/-- A binder is made where there was none. -/
theorem insertBinder (s : Scene) {b : BinderId} (hb : off b) (hnone : s.binders.get? b = none) (binder : Binder) :
    Steady off s { s with binders := s.binders.insert b binder } := by
  refine ⟨fun _ _ => rfl, fun _ _ => rfl, fun _ _ => List.prefix_rfl, fun b' h => ?_, fun b' hb' h => ?_,
    fun b' g _ _ hv => ?_, fun _ _ => rfl, fun _ _ => rfl⟩
  · rw [Table.get?_insert]
    split
    · rfl
    · exact h
  · have hne : b' ≠ b := by
      rintro rfl
      exact hb' hb
    rw [Table.get?_insert_other _ _ hne, h]
  · obtain ⟨binder', hbinder', hg⟩ := hv
    have hne : b' ≠ b := by
      rintro rfl
      rw [hnone] at hbinder'
      cases hbinder'
    exact ⟨binder', by rw [Table.get?_insert_other _ _ hne, hbinder'], hg⟩

theorem insertTasks (s : Scene) {c : TaskCenterId} (hc : off c) (center : TaskCenter) :
    Steady off s { s with taskCenters := s.taskCenters.insert c center } := by
  have hget : ∀ c', ¬ off c' → (s.taskCenters.insert c center).get? c' = s.taskCenters.get? c' := by
    intro c' hc'
    refine Table.get?_insert_other _ _ ?_
    rintro rfl
    exact hc' hc
  refine ⟨fun _ _ => rfl, fun c' hc' => ?_, fun c' hc' => ?_, fun _ => id, fun _ _ => id, fun _ _ _ _ => id,
    fun _ _ => rfl, fun _ _ => rfl⟩
  · rw [hget c' hc']
  · simp only [tasksAt, hget c' hc']
    exact List.prefix_rfl

theorem build (s : Scene) (r : BuildRequest) {g : GraphId} (hg : off g) (d : GraphDecl) :
    Steady off s (s.build r g d) := by
  unfold Scene.build
  have hgraph : Steady off s { s with graphs := s.graphs.insert g (r.graphOf g d.root) } := .insertGraph s hg _
  refine (hgraph.trans (.foldl (fun s (x : String × Animation) => ?_) _ _)).trans
    (.foldl (fun s task => .addTask s r.tasks task) _ _)
  exact .insertAnimation s r.animations x.1 x.2

theorem mono {off' : Owner → Prop} (h : Steady off s s') (hoff : ∀ o, off o → off' o) : Steady off' s s' where
  ties g hg := h.ties g fun ho => hg (hoff g ho)
  attached c hc := h.attached c fun ho => hc (hoff c ho)
  tasks c hc := h.tasks c fun ho => hc (hoff c ho)
  known := h.known
  absent b hb := h.absent b fun ho => hb (hoff b ho)
  views b g hg := h.views b g fun ho => hg (hoff g ho)
  thread := h.thread
  parses i hi := h.parses i fun ho => hi (hoff _ ho)

end Steady

end Scene

end LiveScreen
