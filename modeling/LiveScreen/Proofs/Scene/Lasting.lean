/-
What lasts of a graph while its screen is used. Values are shown in it, animations
are played on it, and it is held and let go of; whatever of a graph none of these
change (`Graph.Lasting`) is the same after all that a scene can do (`Scene.Same`),
but for loading the graph, registering load hooks in it, and building it anew.
-/
import LiveScreen.Proofs.Scene.Changes
import LiveScreen.Markup.Build

namespace LiveScreen

/-- Something of a graph that showing values, playing animations and holding the graph leave alone. -/
structure Graph.Lasting {β : Type} (p : Graph → β) : Prop where
  applyData : ∀ graph key value, p (graph.applyData key value) = p graph
  animate : ∀ graph node a, p (graph.animate node a) = p graph
  holders : ∀ graph holders, p { graph with holders } = p graph

namespace Graph

theorem lasting_mount : Lasting (·.mount) := ⟨fun _ _ _ => rfl, fun _ _ _ => rfl, fun _ _ => rfl⟩

theorem lasting_hooks : Lasting (·.hooks) := ⟨fun _ _ _ => rfl, fun _ _ _ => rfl, fun _ _ => rfl⟩

theorem Lasting.applyAll {β : Type} {p : Graph → β} (hp : Lasting p) :
    ∀ (es : List (String × Value)) (graph : Graph), p (graph.applyAll es) = p graph
  | [], _ => rfl
  | e :: es, graph => (hp.applyAll es (graph.applyData e.1 e.2)).trans (hp.applyData graph e.1 e.2)

end Graph

namespace Scene

/-- The graphs of two scenes are the same in some respect. -/
def Same {β : Type} (p : Graph → β) (s s' : Scene) : Prop :=
  ∀ g, (s'.graphs.get? g).map p = (s.graphs.get? g).map p

namespace Same

variable {β : Type} {p : Graph → β} {r s s' : Scene}

theorem refl (s : Scene) : Same p s s := fun _ => rfl

theorem trans (h : Same p r s) (h' : Same p s s') : Same p r s' := fun g => (h' g).trans (h g)

theorem of_graphs (h : s'.graphs = s.graphs) : Same p s s' := by
  intro g
  rw [h]

theorem foldl {α : Type} {f : Scene → α → Scene} (hf : ∀ s x, Same p s (f s x)) :
    ∀ (l : List α) (s : Scene), Same p s (l.foldl f s)
  | [], s => .refl s
  | x :: l, s => (hf s x).trans (Same.foldl hf l (f s x))

theorem modifyGraph (s : Scene) (g : GraphId) {f : Graph → Graph} (hf : ∀ graph, p (f graph) = p graph) :
    Same p s (s.modifyGraph g f) := by
  intro g'
  simp only [Scene.modifyGraph, Table.get?_modify]
  split
  · rename_i hg
    subst hg
    rw [Option.map_map]
    congr 1
    exact funext hf
  · rfl

variable (hp : Graph.Lasting p)

include hp

theorem of_change (h : Change s s') : Same p s s' := by
  cases h with
  | write g key value => exact .modifyGraph s g fun graph => hp.applyData graph key value
  | play g node a => exact .modifyGraph s g fun graph => hp.animate graph node a
  | report | queue | store => exact .of_graphs rfl

theorem of_leads (h : Leads s s') : Same p s s' := by
  induction h with
  | refl => exact .refl s
  | tail _ hc ih => exact ih.trans (of_change hp hc)

theorem runAction (s : Scene) (t : Thread) (g : GraphId) (action : Action) : Same p s (s.runAction t g action).2 := by
  cases htask : action.task? with
  | none => exact of_leads hp (leads_runAction s t g htask)
  | some task =>
    cases hg : s.graphs.get? g with
    | none =>
      rw [runAction_of_no_graph hg]
      exact .refl s
    | some graph =>
      rw [runAction_addTask hg htask]
      exact .of_graphs rfl

theorem notify (s : Scene) (t : Thread) (c : TaskCenterId) (hook : Hook) (value : String) :
    Same p s (s.notify t c hook value).2 := by
  unfold Scene.notify
  split
  · exact .refl s
  · split
    · exact .refl s
    · refine .foldl (fun s (task : Task) => .foldl (fun s a => ?_) task.actions s) _ s
      exact Same.trans (s := s.emit _) (.refl s) (runAction hp _ t _ a)

theorem performAction (s : Scene) (t : Thread) (g : GraphId) (node : NodeId) :
    Same p s (s.performAction t g node).2 := by
  unfold Scene.performAction
  split
  · exact runAction hp s t g _
  · exact .refl s

theorem addView (s : Scene) (b : BinderId) (g : GraphId) : Same p s (s.addView b g) := by
  unfold Scene.addView
  split
  · exact .refl s
  · rename_i binder _
    exact Same.trans (s := s.modifyBinder b _) (.refl s) (.modifyGraph _ g (hp.applyAll binder.values.entries))

theorem hold (s : Scene) (g : GraphId) (h : Holder) : Same p s (s.hold g h) :=
  .modifyGraph s g fun graph => hp.holders graph _

theorem release (s : Scene) (g : GraphId) (h : Holder) : Same p s (s.release g h) :=
  .modifyGraph s g fun graph => hp.holders graph _

end Same

/-- Building a graph puts it in its place. -/
theorem graphs_build (s : Scene) (r : BuildRequest) (g : GraphId) (d : GraphDecl) :
    (s.build r g d).graphs = s.graphs.insert g (r.graphOf g d.root) := by
  unfold build
  dsimp only
  rw [foldl_frame (f := fun s task => s.addTask r.tasks task) graphs fun _ _ => rfl,
    foldl_frame (f := fun s (x : String × Animation) => s.insertAnimation r.animations x.1 x.2) graphs fun _ _ => rfl]

end Scene

end LiveScreen
