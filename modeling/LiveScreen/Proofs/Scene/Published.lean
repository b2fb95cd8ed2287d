/-
What the graph of a screen is before it becomes the screen's view: it is there
with its services, somebody keeps it alive, its task center runs actions on it,
and its binder has it among its views. None of it is lost while other screens are
used (`Published.steady`): they may share the binder, but a binder forgets only
views that nobody keeps.
-/
import LiveScreen.Proofs.Scene.Steady

namespace LiveScreen

namespace Scene

/-- The graph of a screen is there with its services. -/
def Made (s : Scene) (i : ScreenId) : Prop :=
  ∃ graph, s.graphs.get? (.screen i) = some graph ∧ graph.tasks = .screen i ∧
    (s.binders.get? graph.binder).isSome = true ∧ (s.taskCenters.get? (.screen i)).isSome = true

/-- Somebody keeps the graph of a screen alive. -/
def Kept (s : Scene) (i : ScreenId) (h : Holder) : Prop :=
  ∃ graph, s.graphs.get? (.screen i) = some graph ∧ h ∈ graph.holders

/-- The graph of a screen is the one its task center runs actions on. -/
def Attached (s : Scene) (i : ScreenId) : Prop :=
  (s.taskCenters.get? (.screen i)).map (·.graph) = some (some (.screen i))

/-- The graph of a screen is among the views of its binder. -/
def Viewed (s : Scene) (i : ScreenId) : Prop :=
  ∃ graph, s.graphs.get? (.screen i) = some graph ∧ s.Views graph.binder (.screen i)

/-- The graph of a screen is kept by the screen and attached to its services. -/
structure Published (s : Scene) (i : ScreenId) : Prop where
  made : s.Made i
  kept : s.Kept i (.screen i)
  attached : s.Attached i
  viewed : s.Viewed i

variable {s s' : Scene} {i : ScreenId} {h h' : Holder}

/-! ## What stays -/

theorem Steady.get?_graphs {off : Owner → Prop} (hs : Steady off s s') {g : GraphId} (hg : ¬ off g) {graph : Graph}
    (hgraph : s.graphs.get? g = some graph) : ∃ graph', s'.graphs.get? g = some graph' ∧ graph'.ties = graph.ties := by
  have hties := hs.ties g hg
  rw [hgraph, Option.map_some] at hties
  exact Option.map_eq_some_iff.1 hties

theorem Steady.isSome_taskCenters {off : Owner → Prop} (hs : Steady off s s') {c : TaskCenterId} (hc : ¬ off c) :
    (s'.taskCenters.get? c).isSome = (s.taskCenters.get? c).isSome := by
  rw [← Option.isSome_map (f := TaskCenter.graph), hs.attached c hc, Option.isSome_map]

theorem Made.steady (hs : Steady (· ≠ .screen i) s s') (hm : s.Made i) : s'.Made i := by
  obtain ⟨graph, hgraph, htasks, hbinder, hcenter⟩ := hm
  obtain ⟨graph', hgraph', heq⟩ := hs.get?_graphs (by simp) hgraph
  simp only [Graph.ties, Prod.mk.injEq] at heq
  obtain ⟨hb, ht, -, -⟩ := heq
  exact ⟨graph', hgraph', by rw [ht, htasks], by rw [hb]; exact hs.known _ hbinder,
    by rw [hs.isSome_taskCenters (by simp), hcenter]⟩

theorem Kept.steady (hs : Steady (· ≠ .screen i) s s') (hk : s.Kept i h) : s'.Kept i h := by
  obtain ⟨graph, hgraph, hh⟩ := hk
  obtain ⟨graph', hgraph', heq⟩ := hs.get?_graphs (by simp) hgraph
  simp only [Graph.ties, Prod.mk.injEq] at heq
  obtain ⟨-, -, -, hholders, -⟩ := heq
  exact ⟨graph', hgraph', by rw [hholders]; exact hh⟩

theorem Attached.steady (hs : Steady (· ≠ .screen i) s s') (ha : s.Attached i) : s'.Attached i :=
  (hs.attached (.screen i) (by simp)).trans ha

theorem Kept.held (hk : s.Kept i h) : s.Held (.screen i) := by
  obtain ⟨graph, hgraph, hh⟩ := hk
  exact ⟨graph, hgraph, List.ne_nil_of_mem hh⟩

/-- A view that is kept is not forgotten by its binder. -/
theorem Viewed.steady (hs : Steady (· ≠ .screen i) s s') (hk : s.Kept i h) (hv : s.Viewed i) : s'.Viewed i := by
  obtain ⟨graph, hgraph, hviews⟩ := hv
  obtain ⟨graph', hgraph', heq⟩ := hs.get?_graphs (by simp) hgraph
  have hb : graph'.binder = graph.binder := congrArg Prod.fst heq
  exact ⟨graph', hgraph', by rw [hb]; exact hs.views _ _ (by simp) hk.held hviews⟩

theorem Published.steady (hs : Steady (· ≠ .screen i) s s') (hp : s.Published i) : s'.Published i :=
  ⟨hp.made.steady hs, hp.kept.steady hs, hp.attached.steady hs, hp.viewed.steady hs hp.kept⟩

/-! ## Changes of holders -/

section Holders

variable {f : Graph → Graph}

theorem get?_modifyGraph_self {g : GraphId} {graph : Graph} (hgraph : s.graphs.get? g = some graph) :
    (s.modifyGraph g f).graphs.get? g = some (f graph) := by
  simp only [modifyGraph, Table.get?_modify, if_true, hgraph, Option.map_some]

theorem Made.modifyGraph (hf : ∀ graph, (f graph).tasks = graph.tasks ∧ (f graph).binder = graph.binder)
    (hm : s.Made i) : (s.modifyGraph (.screen i) f).Made i := by
  obtain ⟨graph, hgraph, htasks, hbinder, hcenter⟩ := hm
  exact ⟨f graph, get?_modifyGraph_self hgraph, by rw [(hf graph).1, htasks], by rw [(hf graph).2]; exact hbinder,
    hcenter⟩

theorem Viewed.modifyGraph (hf : ∀ graph, (f graph).binder = graph.binder) (hv : s.Viewed i) :
    (s.modifyGraph (.screen i) f).Viewed i := by
  obtain ⟨graph, hgraph, hviews⟩ := hv
  exact ⟨f graph, get?_modifyGraph_self hgraph, by rw [hf graph]; exact hviews⟩

theorem Made.kept_hold (hm : s.Made i) (h : Holder) : (s.hold (.screen i) h).Kept i h := by
  obtain ⟨graph, hgraph, -⟩ := hm
  exact ⟨_, get?_modifyGraph_self hgraph, List.mem_cons_self ..⟩

theorem Kept.release (hk : s.Kept i h) (hne : h ≠ h') : (s.release (.screen i) h').Kept i h := by
  obtain ⟨graph, hgraph, hh⟩ := hk
  exact ⟨_, get?_modifyGraph_self hgraph, List.mem_filter.2 ⟨hh, by simpa using hne⟩⟩

end Holders

/-! ## How a screen is made -/

/-- A graph that was built is there with the services of its request. -/
theorem made_build {r : BuildRequest} {d : GraphDecl} (htasks : r.tasks = .screen i)
    (hbinder : (s.binders.get? r.binder).isSome = true) (hcenter : (s.taskCenters.get? (.screen i)).isSome = true) :
    (s.build r (.screen i) d).Made i := by
  have hgraph : Made { s with graphs := s.graphs.insert (.screen i) (r.graphOf (.screen i) d.root) } i :=
    ⟨_, Table.get?_insert_self .., htasks, hbinder, hcenter⟩
  refine hgraph.steady (.trans (.foldl (fun s x => ?_) _ _) (.foldl (fun s task => .addTask s r.tasks task) _ _))
  exact .insertAnimation s r.animations x.1 x.2

/-- What neither a new task nor a new animation touches, and no new graph, building leaves alone. -/
theorem build_frame {γ : Type} (p : Scene → γ)
    (hgraph : ∀ s g graph, p { s with graphs := s.graphs.insert g graph } = p s)
    (htask : ∀ s c task, p (s.addTask c task) = p s) (hnamed : ∀ s c id a, p (s.insertAnimation c id a) = p s)
    (s : Scene) (r : BuildRequest) (g : GraphId) (d : GraphDecl) : p (s.build r g d) = p s :=
  (foldl_frame p (fun s task => htask s r.tasks task) _ _).trans
    ((foldl_frame p (fun s (x : String × Animation) => hnamed s r.animations x.1 x.2) _ _).trans (hgraph s g _))

theorem events_build (s : Scene) (r : BuildRequest) (g : GraphId) (d : GraphDecl) : (s.build r g d).events = s.events :=
  build_frame events (fun _ _ _ => rfl) (fun _ _ _ => rfl) (fun _ _ _ _ => rfl) s r g d

theorem queues_build (s : Scene) (r : BuildRequest) (g : GraphId) (d : GraphDecl) : (s.build r g d).queues = s.queues :=
  build_frame queues (fun _ _ _ => rfl) (fun _ _ _ => rfl) (fun _ _ _ _ => rfl) s r g d

theorem attached_attach (hm : s.Made i) : (s.attach (.screen i) (.screen i)).Attached i := by
  obtain ⟨graph, -, -, -, hcenter⟩ := hm
  obtain ⟨center, hc⟩ := Option.isSome_iff_exists.1 hcenter
  simp only [Attached, attach, modifyTasks, Table.get?_modify, if_true, hc, Option.map_some]

theorem Made.attach (hm : s.Made i) (g : GraphId) : (s.attach (.screen i) g).Made i := by
  obtain ⟨graph, hgraph, htasks, hbinder, hcenter⟩ := hm
  refine ⟨graph, hgraph, htasks, hbinder, ?_⟩
  simpa only [Scene.attach, modifyTasks, Table.get?_modify, if_true, Option.isSome_map] using hcenter

theorem viewed_addView {graph : Graph} (hgraph : s.graphs.get? (.screen i) = some graph)
    (hbinder : (s.binders.get? graph.binder).isSome = true) : (s.addView graph.binder (.screen i)).Viewed i := by
  obtain ⟨binder, hb⟩ := Option.isSome_iff_exists.1 hbinder
  have heq : (graph.applyAll binder.values.entries).binder = graph.binder :=
    congrArg Prod.fst (graph.ties_applyAll binder.values.entries)
  rw [addView_eq hb]
  refine ⟨graph.applyAll binder.values.entries, get?_modifyGraph_self hgraph,
    { binder with views := binder.views ++ [.screen i] }, ?_, List.mem_append_right _ (List.mem_singleton_self _)⟩
  rw [heq]
  simp only [modifyGraph, modifyBinder, Table.get?_modify, if_true, hb, Option.map_some]

end Scene

end LiveScreen
