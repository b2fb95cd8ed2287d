/-
Making graphs and services in a part, and loading them. Like every small change, each of
these happens in one part of a scene and is not seen from the others. A part stays closed
if what is made in it gets its services there, and if what is attached there belongs to it.
-/
import LiveScreen.Proofs.Scene.Closed
import LiveScreen.Markup.Build

namespace LiveScreen.Scene

variable {p : Part} {s : Scene} {g : GraphId} {b : BinderId} {c : TaskCenterId}

/-! ## Loading -/

theorem only_hold (p : Part) (s : Scene) (g : GraphId) (h : Holder) :
    (s.hold g h).only p = if p.owns g then (s.only p).hold g h else s.only p := only_modifyGraph p s g _

theorem only_release (p : Part) (s : Scene) (g : GraphId) (h : Holder) :
    (s.release g h).only p = if p.owns g then (s.only p).release g h else s.only p := only_modifyGraph p s g _

theorem only_mountGraph (p : Part) (s : Scene) (g : GraphId) (params : Layout.Params) (listener : Option String) :
    (s.mountGraph g params listener).only p =
      if p.owns g then (s.only p).mountGraph g params listener else s.only p := only_modifyGraph p s g _

theorem only_setAnimationUi (p : Part) (s : Scene) (c : AnimationCenterId) (q : QueueId) :
    (s.setAnimationUi c q).only p = if p.owns c then (s.only p).setAnimationUi c q else s.only p :=
  only_modifyAnimations p s c _

theorem only_setBinderUi (p : Part) (s : Scene) (b : BinderId) (q : QueueId) :
    (s.setBinderUi b q).only p = if p.binds b then (s.only p).setBinderUi b q else s.only p := only_modifyBinder p s b _

theorem only_setLoaded (p : Part) (s : Scene) (b : BinderId) :
    (s.setLoaded b).only p = if p.binds b then (s.only p).setLoaded b else s.only p := only_modifyBinder p s b _

namespace Quiet

theorem mountGraph (s : Scene) (g : GraphId) (params : Layout.Params) (listener : Option String) :
    Quiet s (s.mountGraph g params listener) := .modifyGraph s g fun _ => rfl

theorem setAnimationUi (s : Scene) (c : AnimationCenterId) (q : QueueId) : Quiet s (s.setAnimationUi c q) :=
  .of_parts rfl rfl rfl fun _ => rfl

theorem insertAnimation (s : Scene) (c : AnimationCenterId) (id : String) (a : Animation) :
    Quiet s (s.insertAnimation c id a) := .of_parts rfl rfl rfl fun _ => rfl

end Quiet

/-! ## Attaching -/

theorem only_attach (p : Part) (s : Scene) (c : TaskCenterId) (g : GraphId) :
    (s.attach c g).only p = if p.owns c then (s.only p).attach c g else s.only p := only_modifyTasks p s c _

theorem addView_in (hb : p.binds b = true) (hg : p.owns g = true) :
    (s.only p).addView b g = (s.addView b g).only p := by
  unfold addView
  rw [get?_binders_only hb]
  cases s.binders.get? b with
  | none => rfl
  | some binder =>
    dsimp only
    rw [only_modifyGraph, if_pos hg, only_modifyBinder, if_pos hb]

theorem addView_out (hb : p.binds b = false) (hg : p.owns g = false) : (s.addView b g).only p = s.only p := by
  unfold addView
  cases s.binders.get? b with
  | none => rfl
  | some binder =>
    dsimp only
    rw [only_modifyGraph, if_neg (ne_true_of_eq_false hg), only_modifyBinder,
      if_neg (ne_true_of_eq_false hb)]

theorem Closed.attach (h : s.Closed p) (hcg : p.owns c = true → p.owns g = true) : (s.attach c g).Closed p := by
  refine ⟨h.graph, h.views, fun c' center g' hc' hcenter hg' => ?_⟩
  simp only [Scene.attach, modifyTasks, Table.get?_modify] at hcenter
  split at hcenter
  · rename_i he
    subst he
    obtain ⟨old, -, rfl⟩ := Option.map_eq_some_iff.1 hcenter
    obtain rfl := Option.some.inj hg'
    exact hcg hc'
  · exact h.attached c' center g' hc' hcenter hg'

theorem Closed.addView (h : s.Closed p) (hbg : p.binds b = true → p.owns g = true) : (s.addView b g).Closed p := by
  unfold Scene.addView
  cases hbinder : s.binders.get? b with
  | none => exact h
  | some binder =>
    have hviews : (s.modifyBinder b fun binder => { binder with views := binder.views ++ [g] }).Closed p := by
      refine ⟨h.graph, fun b' binder' hb' hbinder' g' hg' => ?_, h.attached⟩
      simp only [modifyBinder, Table.get?_modify] at hbinder'
      split at hbinder'
      · rename_i he
        subst he
        rw [hbinder] at hbinder'
        cases hbinder'
        rcases List.mem_append.1 hg' with hold | hnew
        · exact h.views b' binder hb' hbinder g' hold
        · obtain rfl := List.mem_singleton.1 hnew
          exact hbg hb'
      · exact h.views b' binder' hb' hbinder' g' hg'
    exact hviews.quiet (.modifyGraph _ g fun graph => Graph.services_applyAll graph binder.values.entries)

/-! ## Making -/

/-- A scene with a new graph. -/
def withNew (s : Scene) (g : GraphId) (graph : Graph) : Scene := { s with graphs := s.graphs.insert g graph }

/-- A scene with a new binder. -/
def withBinder (s : Scene) (b : BinderId) (binder : Binder) : Scene := { s with binders := s.binders.insert b binder }

/-- A scene with a new task center and a new animation center of one owner. -/
def withCenters (s : Scene) (o : Owner) (tasks : TaskCenter) (animations : AnimationCenter) : Scene :=
  { s with
    taskCenters := s.taskCenters.insert o tasks
    animationCenters := s.animationCenters.insert o animations }

theorem only_withNew (p : Part) (s : Scene) (g : GraphId) (graph : Graph) :
    (s.withNew g graph).only p = if p.owns g then (s.only p).withNew g graph else s.only p := by
  cases hp : p.owns g <;> simp [only, withNew, Table.only_insert, hp]

theorem only_withBinder (p : Part) (s : Scene) (b : BinderId) (binder : Binder) :
    (s.withBinder b binder).only p = if p.binds b then (s.only p).withBinder b binder else s.only p := by
  cases hp : p.binds b <;> simp [only, withBinder, Table.only_insert, hp]

theorem only_withCenters (p : Part) (s : Scene) (o : Owner) (tasks : TaskCenter) (animations : AnimationCenter) :
    (s.withCenters o tasks animations).only p =
      if p.owns o then (s.only p).withCenters o tasks animations else s.only p := by
  cases hp : p.owns o <;> simp [only, withCenters, Table.only_insert, hp]

theorem Closed.withNew {graph : Graph} (h : s.Closed p)
    (hgraph : p.owns g = true →
      p.binds graph.binder = true ∧ p.owns graph.tasks = true ∧ p.owns graph.animations = true) :
    (s.withNew g graph).Closed p := by
  refine ⟨fun g' graph' hg' hgraph' => ?_, h.views, h.attached⟩
  simp only [Scene.withNew, Table.get?_insert] at hgraph'
  split at hgraph'
  · rename_i he
    subst he
    cases hgraph'
    exact hgraph hg'
  · exact h.graph g' graph' hg' hgraph'

theorem Closed.withBinder {binder : Binder} (h : s.Closed p) (hviews : binder.views = []) :
    (s.withBinder b binder).Closed p := by
  refine ⟨h.graph, fun b' binder' hb' hbinder' g hg => ?_, h.attached⟩
  simp only [Scene.withBinder, Table.get?_insert] at hbinder'
  split at hbinder'
  · cases hbinder'
    rw [hviews] at hg
    cases hg
  · exact h.views b' binder' hb' hbinder' g hg

theorem Closed.withCenters {o : Owner} {tasks : TaskCenter} {animations : AnimationCenter} (h : s.Closed p)
    (hgraph : tasks.graph = none) : (s.withCenters o tasks animations).Closed p := by
  refine ⟨h.graph, h.views, fun c center g hc hcenter hg => ?_⟩
  simp only [Scene.withCenters, Table.get?_insert] at hcenter
  split at hcenter
  · cases hcenter
    rw [hgraph] at hg
    cases hg
  · exact h.attached c center g hc hcenter hg

/-- Building a graph for services of one owner happens where the owner is. -/
theorem only_build (p : Part) (s : Scene) (r : BuildRequest) (g : GraphId) (d : GraphDecl)
    (htasks : p.owns r.tasks = p.owns g) (hanimations : p.owns r.animations = p.owns g) :
    (s.build r g d).only p = if p.owns g then (s.only p).build r g d else s.only p := by
  have hnamed := only_foldl (k := p.owns r.animations)
    (f := fun s (a : String × Animation) => s.insertAnimation r.animations a.1 a.2)
    (fun s a => only_modifyAnimations p s r.animations _) (r.namedOf d.animations)
  have hadded := only_foldl (k := p.owns r.tasks) (f := fun s task => s.addTask r.tasks task)
    (fun s task => only_modifyTasks p s r.tasks _) (d.tasks.map r.taskOf)
  rw [hanimations] at hnamed
  rw [htasks] at hadded
  show ((d.tasks.map r.taskOf).foldl (fun s task => s.addTask r.tasks task) ((r.namedOf d.animations).foldl
    (fun s a => s.insertAnimation r.animations a.1 a.2) (s.withNew g (r.graphOf g d.root)))).only p = _
  rw [hadded, hnamed, only_withNew]
  split <;> rfl

theorem Closed.build {r : BuildRequest} {d : GraphDecl} (h : s.Closed p)
    (hr : p.owns g = true → p.binds r.binder = true ∧ p.owns r.tasks = true ∧ p.owns r.animations = true) :
    (s.build r g d).Closed p := by
  have hgraph : (s.withNew g (r.graphOf g d.root)).Closed p := h.withNew hr
  have hnamed : Quiet _ ((r.namedOf d.animations).foldl (fun s (a : String × Animation) =>
    s.insertAnimation r.animations a.1 a.2) (s.withNew g (r.graphOf g d.root))) :=
    .foldl (fun s (a : String × Animation) => .insertAnimation s _ a.1 a.2) _ _
  exact (hgraph.quiet hnamed).quiet (.foldl (fun s task => .addTask s _ task) _ _)

end LiveScreen.Scene
