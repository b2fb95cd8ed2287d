/-
Work that is deferred through a UI queue does what it would have done at once.
What is asked of graphs comes down to an errand each (`serve_eq_run`): to tell the
listener, to store a value or to play an animation. What an errand is does not
depend on attributes (`errand_congr`), which are all that waiting tasks will
change; so each errand is the same before the queue is flushed and after it, and
flushing the deferred scene is the scene in which nothing was deferred
(`flush_serveAll`).
-/
import Mathlib.Algebra.GroupWithZero.Nat
import LiveScreen.Proofs.Scene.Flush
import LiveScreen.Scene.Tasks

namespace LiveScreen

/-- An action of those that are built in. -/
def Action.Builtin : Action → Prop
  | .outer .. | .updateData .. | .startAnimation .. => True
  | .record .. | .probe .. | .addTask .. => False

namespace Scene

/-! ## Requests -/

/-- What can be asked on any thread. -/
inductive Request where
  /-- A value is stored in a binder. -/
  | update (binder : BinderId) (key : String) (value : Value)
  /-- The animation of a node is started, if it has one. -/
  | animate (graph : GraphId) (node : NodeId)
  /-- The action of a node is run, if it has one. -/
  | perform (graph : GraphId) (node : NodeId)

/-- Serves a request on a thread. A value can always be stored. -/
def serve (t : Thread) (s : Scene) : Request → Bool × Scene
  | .update b key value => (true, s.update t b key value)
  | .animate g node => s.startAnimation t g node
  | .perform g node => s.performAction t g node

/-- Serves requests one after the other, each on its thread. -/
def serveAll : List (Thread × Request) → Scene → List Bool × Scene
  | [], s => ([], s)
  | (t, r) :: requests, s =>
    ((s.serve t r).1 :: (serveAll requests (s.serve t r).2).1, (serveAll requests (s.serve t r).2).2)

/-- The views of a binder that are alive, as often as they were attached. -/
def liveViews (s : Scene) (b : BinderId) : List GraphId :=
  match s.binders.get? b with
  | some binder => binder.views.filter s.alive
  | none => []

/-- Graphs that are held, with the binders and animation centers they use, which all use one queue
that takes tasks. -/
structure Wired (q : QueueId) (graphs : List GraphId) (s : Scene) : Prop where
  takes : s.Open q
  graph : ∀ g ∈ graphs, ∃ graph binder center, s.graphs.get? g = some graph ∧ graph.holders ≠ [] ∧
    s.binders.get? graph.binder = some binder ∧ binder.ui = some q ∧
      s.animationCenters.get? graph.animations = some center ∧ center.ui = some q

/-- What is asked concerns one of some graphs, and takes a builtin action at most. -/
def Request.Concerns (graphs : List GraphId) (s : Scene) : Request → Prop
  | .update b _ _ => ∃ g ∈ graphs, ∃ graph, s.graphs.get? g = some graph ∧ graph.binder = b
  | .animate g _ => g ∈ graphs
  | .perform g node => g ∈ graphs ∧ ∀ graph n action, s.graphs.get? g = some graph →
      graph.node? node = some n → n.action = some action → action.Builtin

/-- How many tasks an action of a graph leads to: one for each living view if it stores a value, and
one if it started an animation. -/
def actionTasks (s : Scene) (graph : Graph) (started : Bool) : Action → Nat
  | .updateData _ _ => (s.liveViews graph.binder).length
  | .startAnimation _ _ => started.toNat
  | _ => 0

/-- How many tasks a request leads to that got an answer. -/
def tasksFor (s : Scene) : Request → Bool → Nat
  | .update b _ _, _ => (s.liveViews b).length
  | .animate _ _, started => started.toNat
  | .perform g node, started =>
    match s.graphs.get? g with
    | none => 0
    | some graph => ((graph.node? node).bind (·.action)).elim 0 (s.actionTasks graph started)

/-! ## Errands -/

/-- What a request comes down to. -/
inductive Errand where
  /-- There is nothing to do. -/
  | refuse
  /-- The listener is told something. -/
  | tell (event : Event)
  | store (binder : BinderId) (key : String) (value : Value)
  | play (graph : GraphId) (node : NodeId) (animation : Animation)

namespace Errand

/-- Whether there is something to do. -/
def answer : Errand → Bool
  | .refuse => false
  | _ => true

/-- What is done at once whichever thread it is done on. -/
def begun (s : Scene) : Errand → Scene
  | .tell event => s.emit event
  | .store b key value => s.modifyBinder b fun binder =>
      { binder with values := binder.values.insert key value, views := s.liveViews b }
  | .refuse | .play .. => s

/-- The tasks it takes. -/
def tasks (s : Scene) : Errand → List UiTask
  | .store b key value => (s.liveViews b).map fun g => .applyData g key value
  | .play g node a => [.animate g node a]
  | .refuse | .tell _ => []

/-- Does it on a thread. -/
def run (q : QueueId) (t : Thread) (s : Scene) : Errand → Scene
  | .refuse => s
  | .tell event => s.emit event
  | .store b key value => s.update t b key value
  | .play g node a => s.dispatch q t (.animate g node a)

/-- It goes through a queue, and what it plays on is held. -/
def Fits (q : QueueId) (s : Scene) : Errand → Prop
  | .refuse | .tell _ => True
  | .store b _ _ => ∃ binder, s.binders.get? b = some binder ∧ binder.ui = some q
  | .play g _ _ => s.Held g

end Errand

/-- Playing an animation on a node of a graph, if there is such a node. -/
def playing (graph : Graph) (g : GraphId) (node : NodeId) (a : Animation) : Errand :=
  if (graph.node? node).isSome then .play g node a else .refuse

/-- What an action of a graph comes down to. Only builtin actions matter. -/
def actionErrand (s : Scene) (g : GraphId) (graph : Graph) : Action → Errand
  | .outer key value =>
    match graph.mount.listener with
    | some listener => .tell (.told g listener key value)
    | none => .refuse
  | .updateData key value => .store graph.binder key value
  | .startAnimation animation target =>
    match (s.animationCenters.get? graph.animations).bind (·.named.get? animation) with
    | none => .refuse
    | some a =>
      match target with
      | none => playing graph g graph.root a
      | some name =>
        match graph.find? name with
        | some node => playing graph g node.id a
        | none => .refuse
  | .record .. | .probe .. | .addTask .. => .refuse

/-- What a request comes down to. Attributes do not matter. -/
def errand (s : Scene) : Request → Errand
  | .update b key value => .store b key value
  | .animate g node =>
    match (s.graphs.get? g).map Graph.bare with
    | none => .refuse
    | some graph =>
      match (graph.node? node).bind (·.animation) with
      | some a => playing graph g node a
      | none => .refuse
  | .perform g node =>
    match (s.graphs.get? g).map Graph.bare with
    | none => .refuse
    | some graph =>
      match (graph.node? node).bind (·.action) with
      | some action => s.actionErrand g graph action
      | none => .refuse

theorem errand_congr {s s' : Scene} (h : SameShape s s') (hc : s'.animationCenters = s.animationCenters)
    (r : Request) : s'.errand r = s.errand r := by
  have hact : ∀ g graph action, s'.actionErrand g graph action = s.actionErrand g graph action := by
    intro g graph action
    cases action <;> simp only [actionErrand, hc]
  cases r with
  | update => rfl
  | animate g node => simp only [errand, h g]
  | perform g node => simp only [errand, h g, hact]

section Wired

variable {q : QueueId} {graphs : List GraphId} {s : Scene} {t : Thread} {g : GraphId} {graph : Graph}

theorem bare_node?_bind {α : Type} {f : Node → Option α} (hf : ∀ n : Node, f n.bare = f n) (node : NodeId) :
    (graph.bare.node? node).bind f = (graph.node? node).bind f := by
  rw [Graph.node?_bare, Option.bind_map]
  exact congrArg (Option.bind _) (funext hf)

/-- Starting an animation is playing it. -/
theorem start_eq_run (h : s.Wired q graphs) (hg : g ∈ graphs) (hgraph : s.graphs.get? g = some graph)
    (node : NodeId) (a : Animation) :
    s.start t graph.animations g node a =
      ((playing graph.bare g node a).answer, (playing graph.bare g node a).run q t s) := by
  obtain ⟨graph', -, center, hgraph', -, -, -, hcenter, hui⟩ := h.graph g hg
  obtain rfl : graph' = graph := Option.some.inj (hgraph'.symm.trans hgraph)
  have hbare : (graph'.bare.node? node).isSome = (graph'.node? node).isSome := by
    rw [Graph.node?_bare, Option.isSome_map]
  cases hn : graph'.node? node with
  | none => simp [start, hgraph, hn, playing, hbare, Errand.answer, Errand.run]
  | some n => simp [start, hgraph, hn, hcenter, hui, playing, hbare, Errand.answer, Errand.run]

/-- Running a builtin action is doing its errand. -/
theorem runAction_eq_run (h : s.Wired q graphs) (hg : g ∈ graphs) (hgraph : s.graphs.get? g = some graph)
    {action : Action} (hb : action.Builtin) :
    s.runAction t g action =
      ((s.actionErrand g graph.bare action).answer, (s.actionErrand g graph.bare action).run q t s) := by
  cases action with
  | outer key value =>
    simp only [runAction, hgraph, actionErrand, Graph.bare]
    cases graph.mount.listener <;> rfl
  | updateData key value => simp only [runAction, hgraph]; rfl
  | startAnimation animation target =>
    simp only [runAction, hgraph, startNamed, actionErrand]
    have hanim : graph.bare.animations = graph.animations := rfl
    rw [hanim]
    cases (s.animationCenters.get? graph.animations).bind (·.named.get? animation) with
    | none => rfl
    | some a =>
      cases target with
      | none => exact start_eq_run h hg hgraph graph.root a
      | some name =>
        simp only [Graph.find?_bare]
        cases graph.find? name with
        | none => rfl
        | some node => exact start_eq_run h hg hgraph node.id a
  | record | probe | addTask => exact hb.elim

/-- **Serving a request is doing its errand.** -/
theorem serve_eq_run (h : s.Wired q graphs) {r : Request} (hr : r.Concerns graphs s) :
    s.serve t r = ((s.errand r).answer, (s.errand r).run q t s) := by
  cases r with
  | update b key value => rfl
  | animate g node =>
    obtain ⟨graph, -, -, hgraph, -⟩ := h.graph g hr
    have hbind : (graph.bare.node? node).bind (·.animation) = (graph.node? node).bind (·.animation) :=
      bare_node?_bind (fun _ => rfl) node
    simp only [serve, startAnimation, errand, hgraph, Option.map_some, hbind]
    cases (graph.node? node).bind (·.animation) with
    | none => rfl
    | some a => exact start_eq_run h hr hgraph node a
  | perform g node =>
    obtain ⟨hg, hbuiltin⟩ := hr
    obtain ⟨graph, -, -, hgraph, -⟩ := h.graph g hg
    have hbind : (graph.bare.node? node).bind (·.action) = (graph.node? node).bind (·.action) :=
      bare_node?_bind (fun _ => rfl) node
    simp only [serve, performAction, errand, hgraph, Option.map_some, Option.bind_some, hbind]
    cases hact : (graph.node? node).bind (·.action) with
    | none => rfl
    | some action =>
      obtain ⟨n, hn, ha⟩ := Option.bind_eq_some_iff.1 hact
      exact runAction_eq_run h hg hgraph (hbuiltin graph n action hgraph hn ha)

end Wired

/-! ## Errands at once and later -/

/-- The queue a binder uses and its living views. -/
def wiring (s : Scene) (b : BinderId) : Option (Option QueueId × List GraphId) :=
  (s.binders.get? b).map fun binder => (binder.ui, binder.views.filter s.alive)

theorem liveViews_congr {s s' : Scene} {b : BinderId} (h : s'.wiring b = s.wiring b) :
    s'.liveViews b = s.liveViews b := by
  have hviews : ∀ s : Scene, s.liveViews b = ((s.wiring b).map (·.2)).getD [] := by
    intro s
    simp only [liveViews, wiring]
    cases s.binders.get? b <;> rfl
  rw [hviews, hviews, h]

theorem wiring_congr {s s' : Scene} (hb : s'.binders = s.binders) (ha : ∀ g, s'.alive g = s.alive g) (b : BinderId) :
    s'.wiring b = s.wiring b := by
  simp only [wiring, hb, funext ha]

namespace Errand

variable {q : QueueId} {t : Thread} {s : Scene} {e : Errand}

/-- What is begun at once changes no graph and no queue. -/
theorem begun_frame (e : Errand) (s : Scene) : (e.begun s).graphs = s.graphs ∧
    (e.begun s).animationCenters = s.animationCenters ∧ (e.begun s).queues = s.queues := by
  cases e <;> exact ⟨rfl, rfl, rfl⟩

theorem alive_begun (e : Errand) (s : Scene) (g : GraphId) : (e.begun s).alive g = s.alive g := by
  obtain ⟨hg, -, hq⟩ := begun_frame e s
  simp only [alive, hg, hq]

theorem wiring_begun (e : Errand) (s : Scene) (b : BinderId) : (e.begun s).wiring b = s.wiring b := by
  cases e with
  | store b' key value =>
    have ha : (begun s (.store b' key value)).alive = s.alive := funext (alive_begun _ s)
    have hget : (begun s (.store b' key value)).binders.get? b =
        if b = b' then (s.binders.get? b').map fun binder =>
          { binder with values := binder.values.insert key value, views := s.liveViews b' }
        else s.binders.get? b := Table.get?_modify s.binders b' b _
    simp only [wiring, ha, hget]
    by_cases hb : b = b'
    · subst hb
      cases hbinder : s.binders.get? b with
      | none => simp
      | some binder => simp [liveViews, hbinder]
    · rw [if_neg hb]
  | refuse | tell | play => rfl

/-- On the UI thread the tasks are run at once. -/
theorem run_at_once (h : e.Fits q s) (ht : s.isUiThread q t = true) :
    e.run q t s = (e.tasks s).foldl (fun s task => s.runTask q t task) (e.begun s) := by
  cases e with
  | refuse | tell => rfl
  | store b key value =>
    obtain ⟨binder, hb, hu⟩ := h
    have hi : ∀ q', binder.ui = some q' → s.isUiThread q' t = true := by
      intro q' hq'
      obtain rfl : q = q' := Option.some.inj (hu.symm.trans hq')
      exact ht
    have hviews : s.liveViews b = binder.views.filter s.alive := by simp only [liveViews, hb]
    simp only [run, update_inline hb hi, tasks, begun, hviews, List.foldl_map]
    rfl
  | play g node a => simp only [run, dispatch, ht, if_true]; rfl

/-- On another thread they are put behind what waits. -/
theorem run_deferred (h : e.Fits q s) (ho : s.Open q) (ht : s.isUiThread q t = false) :
    e.run q t s = (e.begun s).withPending q (s.pending q ++ e.tasks s) := by
  cases e with
  | refuse => exact (foldl_post_eq_withPending [] ho)
  | tell event => exact (foldl_post_eq_withPending [] (s := s.emit event) ho)
  | store b key value =>
    obtain ⟨binder, hb, hu⟩ := h
    have hviews : s.liveViews b = binder.views.filter s.alive := by simp only [liveViews, hb]
    have hpost := foldl_post_eq_withPending (tasks s (.store b key value)) (s := begun s (.store b key value)) ho
    simp only [tasks, hviews, List.foldl_map, begun] at hpost
    simp only [run, update_queued hb hu ht, tasks, begun, hviews]
    exact hpost
  | play g node a =>
    simp only [run, dispatch, ht, Bool.false_eq_true, if_false, post_eq_withPending ho]
    rfl

theorem begun_flush (e : Errand) (ho : s.Open q) (hs : ∀ task ∈ s.pending q, s.Sound task) :
    flush q t (e.begun s) = e.begun (flush q t s) := by
  cases e with
  | refuse | play => rfl
  | tell event =>
    exact flush_comm (f := fun s => s.emit event) (fun _ _ _ => rfl) (fun _ _ => rfl) (fun _ _ => rfl) rfl hs
  | store b key value =>
    obtain ⟨hb, -, -, -, -, ha⟩ := flush_frame (t := t) ho hs
    simp only [begun, liveViews_congr (wiring_congr hb ha b)]
    exact flush_comm (f := fun s' => s'.modifyBinder b fun binder =>
      { binder with values := binder.values.insert key value, views := s.liveViews b })
      (fun _ _ _ => rfl) (fun _ _ => rfl) (fun _ _ => rfl) rfl hs

theorem tasks_flush (e : Errand) (ho : s.Open q) (hs : ∀ task ∈ s.pending q, s.Sound task) :
    e.tasks (flush q t s) = e.tasks s := by
  obtain ⟨hb, -, -, -, -, ha⟩ := flush_frame (t := t) ho hs
  cases e with
  | store b key value => simp only [tasks, liveViews_congr (wiring_congr hb ha b)]
  | refuse | tell | play => rfl

theorem Fits.flush (h : e.Fits q s) (ho : s.Open q) (hs : ∀ task ∈ s.pending q, s.Sound task) :
    e.Fits q (flush q t s) := by
  obtain ⟨hb, -, -, -, hsame, -⟩ := flush_frame (t := t) ho hs
  cases e with
  | refuse | tell => trivial
  | store b key value =>
    obtain ⟨binder, hbinder, hu⟩ := h
    exact ⟨binder, by rw [hb, hbinder], hu⟩
  | play g node a => exact hsame.held h

/-- **An errand that was deferred does on flushing what it would have done at once.** -/
theorem flush_run {t' : Thread} (h : e.Fits q s) (ho : s.Open q) (hs : ∀ task ∈ s.pending q, s.Sound task)
    (ht : s.isUiThread q t = true) (ht' : s.isUiThread q t' = false) :
    Scene.flush q t (e.run q t' s) = e.run q t (Scene.flush q t s) := by
  obtain ⟨-, -, -, hui, -, -⟩ := flush_frame (t := t) ho hs
  obtain ⟨-, -, hq⟩ := begun_frame e s
  have ho' : (e.begun s).Open q := ho.congr hq
  calc Scene.flush q t (e.run q t' s)
      = Scene.flush q t ((e.begun s).withPending q ((e.begun s).pending q ++ e.tasks s)) := by
        rw [run_deferred h ho ht', pending_congr hq]
    _ = (e.tasks s).foldl (fun s task => s.runTask q t task) (Scene.flush q t (e.begun s)) :=
        flush_withPending_append ho' _
    _ = (e.tasks (Scene.flush q t s)).foldl (fun s task => s.runTask q t task) (e.begun (Scene.flush q t s)) := by
        rw [begun_flush e ho hs, tasks_flush e ho hs]
    _ = e.run q t (Scene.flush q t s) := (run_at_once (h.flush ho hs) (by rw [hui, ht])).symm

end Errand

/-! ## Requests that are deferred -/

/-- What deferring does to a scene: some values are stored, and tasks wait that will write them and
play animations. -/
structure Defers (q : QueueId) (count : Nat) (s s' : Scene) : Prop where
  graphs : s'.graphs = s.graphs
  animations : s'.animationCenters = s.animationCenters
  takes : s'.Open q
  thread : ∀ t, s'.isUiThread q t = s.isUiThread q t
  wiring : ∀ b, s'.wiring b = s.wiring b
  sound : ∀ task ∈ s'.pending q, s'.Sound task
  length : (s'.pending q).length = (s.pending q).length + count

theorem Defers.trans {q : QueueId} {m n : Nat} {r s u : Scene} (h : Defers q m r s) (h' : Defers q n s u) :
    Defers q (m + n) r u where
  graphs := h'.graphs.trans h.graphs
  animations := h'.animations.trans h.animations
  takes := h'.takes
  thread t := (h'.thread t).trans (h.thread t)
  wiring b := (h'.wiring b).trans (h.wiring b)
  sound := h'.sound
  length := by rw [h'.length, h.length, Nat.add_assoc]

theorem sound_congr {s s' : Scene} (h : s'.graphs = s.graphs) {task : UiTask} (hs : s.Sound task) :
    s'.Sound task :=
  SameShape.sound (fun g => by rw [h]) hs

section Requests

variable {q : QueueId} {graphs : List GraphId} {s : Scene} {t t' : Thread} {r : Request}

theorem Errand.defers {e : Errand} (h : e.Fits q s) (ho : s.Open q) (hs : ∀ task ∈ s.pending q, s.Sound task)
    (ht : s.isUiThread q t = false) : Defers q (e.tasks s).length s (e.run q t s) := by
  obtain ⟨hgraphs, hcenters, hqueues⟩ := begun_frame e s
  have ho' : (e.begun s).Open q := ho.congr hqueues
  have htasks : ∀ task ∈ e.tasks s, s.Sound task := by
    intro task htask
    cases e with
    | store b key value =>
      obtain ⟨g, -, rfl⟩ := List.mem_map.1 htask
      trivial
    | play g node a =>
      obtain rfl := List.mem_singleton.1 htask
      exact h
    | refuse | tell => cases htask
  have hall : ∀ task ∈ s.pending q ++ e.tasks s, (e.begun s).Sound task := fun task htask =>
    sound_congr hgraphs ((List.mem_append.1 htask).elim (hs task) (htasks task))
  have hpending : ∀ task ∈ (e.begun s).pending q, (e.begun s).Sound task := by
    rw [pending_congr hqueues]
    exact fun task htask => sound_congr hgraphs (hs task htask)
  rw [run_deferred h ho ht]
  refine ⟨hgraphs, hcenters, ho'.withPending _, fun t'' => ?_, fun b => ?_, fun task htask => ?_, ?_⟩
  · rw [isUiThread_withPending]
    simp only [isUiThread, hqueues]
  · have hw : ((e.begun s).withPending q (s.pending q ++ e.tasks s)).wiring b = (e.begun s).wiring b :=
      wiring_congr (by rfl) (alive_withPending hpending hall) b
    rw [hw, wiring_begun]
  · rw [pending_withPending ho'] at htask
    exact hall task htask
  · rw [pending_withPending ho', List.length_append]

theorem fits_playing {g : GraphId} (h : s.Held g) (graph : Graph) (node : NodeId) (a : Animation) :
    (playing graph g node a).Fits q s := by
  unfold playing
  split
  · exact h
  · trivial

theorem length_tasks_playing (s : Scene) (graph : Graph) (g : GraphId) (node : NodeId) (a : Animation) :
    ((playing graph g node a).tasks s).length = (playing graph g node a).answer.toNat := by
  unfold playing
  split <;> rfl

theorem fits_actionErrand {g : GraphId} {graph : Graph} {binder : Binder} (h : s.Held g)
    (hb : s.binders.get? graph.binder = some binder) (hu : binder.ui = some q) (action : Action) :
    (s.actionErrand g graph action).Fits q s := by
  cases action with
  | outer key value =>
    simp only [actionErrand]
    split <;> trivial
  | updateData key value => exact ⟨binder, hb, hu⟩
  | startAnimation animation target =>
    simp only [actionErrand]
    split
    · trivial
    · split
      · exact fits_playing h ..
      · split
        · exact fits_playing h ..
        · trivial
  | record | probe | addTask => trivial

theorem length_tasks_actionErrand (s : Scene) (g : GraphId) (graph : Graph) (action : Action) :
    ((s.actionErrand g graph action).tasks s).length =
      s.actionTasks graph (s.actionErrand g graph action).answer action := by
  cases action with
  | outer key value =>
    simp only [actionErrand]
    split <;> rfl
  | updateData key value => exact List.length_map _
  | startAnimation animation target =>
    simp only [actionErrand, actionTasks]
    split
    · rfl
    · split
      · exact length_tasks_playing ..
      · split
        · exact length_tasks_playing ..
        · rfl
  | record | probe | addTask => rfl

/-- Requests to graphs that are wired to a queue go through it. -/
theorem Wired.fits (h : s.Wired q graphs) (hr : r.Concerns graphs s) : (s.errand r).Fits q s := by
  cases r with
  | update b key value =>
    obtain ⟨g, hg, graph, hgraph, rfl⟩ := hr
    obtain ⟨graph', binder, -, hgraph', -, hbinder, hu, -⟩ := h.graph g hg
    obtain rfl : graph' = graph := Option.some.inj (hgraph'.symm.trans hgraph)
    exact ⟨binder, hbinder, hu⟩
  | animate g node =>
    obtain ⟨graph, -, -, hgraph, hh, -⟩ := h.graph g hr
    simp only [errand, hgraph, Option.map_some]
    split
    · exact fits_playing ⟨graph, hgraph, hh⟩ ..
    · trivial
  | perform g node =>
    obtain ⟨graph, binder, -, hgraph, hh, hbinder, hu, -⟩ := h.graph g hr.1
    simp only [errand, hgraph, Option.map_some]
    split
    · have hbare : s.binders.get? graph.bare.binder = some binder := hbinder
      exact fits_actionErrand ⟨graph, hgraph, hh⟩ hbare hu _
    · trivial

/-- An errand takes as many tasks as its request and the answer say. -/
theorem length_tasks_errand (s : Scene) (r : Request) :
    ((s.errand r).tasks s).length = s.tasksFor r (s.errand r).answer := by
  cases r with
  | update b key value => exact List.length_map _
  | animate g node =>
    simp only [errand, tasksFor]
    split
    · rfl
    · split
      · exact length_tasks_playing ..
      · rfl
  | perform g node =>
    cases hg : s.graphs.get? g with
    | none => simp [errand, tasksFor, hg, Errand.tasks]
    | some graph =>
      have hbind : (graph.bare.node? node).bind (·.action) = (graph.node? node).bind (·.action) :=
        bare_node?_bind (fun _ => rfl) node
      simp only [errand, tasksFor, hg, Option.map_some, hbind]
      cases (graph.node? node).bind (·.action) with
      | none => rfl
      | some action => exact length_tasks_actionErrand s g graph.bare action

theorem Wired.congr {s' : Scene} (h : s.Wired q graphs) (hsame : SameShape s s')
    (hw : ∀ b, s'.wiring b = s.wiring b) (hc : s'.animationCenters = s.animationCenters) (ho : s'.Open q) :
    s'.Wired q graphs := by
  refine ⟨ho, fun g hg => ?_⟩
  obtain ⟨graph, binder, center, hgraph, hh, hbinder, hu, hcenter, hcu⟩ := h.graph g hg
  obtain ⟨graph', hgraph', hbare⟩ := hsame.graph hgraph
  have hholders : graph'.holders = graph.holders := show graph'.bare.holders = graph.bare.holders by rw [hbare]
  have hb : graph'.binder = graph.binder := show graph'.bare.binder = graph.bare.binder by rw [hbare]
  have ha : graph'.animations = graph.animations :=
    show graph'.bare.animations = graph.bare.animations by rw [hbare]
  have hwb := hw graph.binder
  simp only [wiring, hbinder, Option.map_some] at hwb
  obtain ⟨binder', hbinder', hpair⟩ := Option.map_eq_some_iff.1 hwb
  have hu' : binder'.ui = some q := (congrArg Prod.fst hpair).trans hu
  exact ⟨graph', binder', center, hgraph', by rw [hholders]; exact hh, by rw [hb, hbinder'], hu',
    by rw [hc, ha, hcenter], hcu⟩

theorem Request.Concerns.congr {s' : Scene} (h : r.Concerns graphs s) (hsame : SameShape s s') :
    r.Concerns graphs s' := by
  cases r with
  | update b key value =>
    obtain ⟨g, hg, graph, hgraph, hb⟩ := h
    obtain ⟨graph', hgraph', hbare⟩ := hsame.graph hgraph
    have hb' : graph'.bare.binder = graph.bare.binder := by rw [hbare]
    exact ⟨g, hg, graph', hgraph', hb'.trans hb⟩
  | animate => exact h
  | perform g node =>
    refine ⟨h.1, fun graph' n' action hgraph' hn' haction => ?_⟩
    obtain ⟨graph, hgraph, hbare⟩ := hsame.symm.graph hgraph'
    have hnode : (graph.bare.node? node).map Node.bare = (graph'.bare.node? node).map Node.bare := by rw [hbare]
    simp only [Graph.node?_bare, hn', Option.map_map, Option.map_some] at hnode
    obtain ⟨n, hn, hnbare⟩ := Option.map_eq_some_iff.1 hnode
    have hact : n.action = n'.action := show n.bare.bare.action = n'.bare.bare.action from congrArg Node.action hnbare
    exact h.2 graph n action hgraph hn (hact.trans haction)

theorem Defers.sameShape {n : Nat} {s' : Scene} (hd : Defers q n s s') : SameShape s s' :=
  fun g => by rw [hd.graphs]

theorem Defers.tasksFor {n : Nat} {s' : Scene} (hd : Defers q n s s') (r : Request) :
    s'.tasksFor r = s.tasksFor r := by
  have hlive : ∀ b, s'.liveViews b = s.liveViews b := fun b => liveViews_congr (hd.wiring b)
  have hact : ∀ graph started, s'.actionTasks graph started = s.actionTasks graph started := by
    intro graph started
    funext action
    cases action <;> simp only [actionTasks, hlive]
  funext started
  cases r with
  | update => simp only [Scene.tasksFor, hlive]
  | animate => rfl
  | perform g node => simp only [Scene.tasksFor, hd.graphs, hact]

theorem Defers.refl (ho : s.Open q) (hs : ∀ task ∈ s.pending q, s.Sound task) : Defers q 0 s s :=
  ⟨rfl, rfl, ho, fun _ => rfl, fun _ => rfl, hs, rfl⟩

/-- Requests that are deferred and flushed are served as if nothing was deferred. -/
theorem flush_serveAll : ∀ (requests : List (Thread × Request)) {s : Scene}, s.Wired q graphs →
    (∀ task ∈ s.pending q, s.Sound task) → s.isUiThread q t = true →
      (∀ x ∈ requests, s.isUiThread q x.1 = false ∧ x.2.Concerns graphs s) →
        (serveAll requests s).1 = (serveAll (requests.map fun x => (t, x.2)) (flush q t s)).1 ∧
          flush q t (serveAll requests s).2 = (serveAll (requests.map fun x => (t, x.2)) (flush q t s)).2 ∧
            Defers q ((requests.zip (serveAll requests s).1).map fun x => s.tasksFor x.1.2 x.2).sum s
              (serveAll requests s).2
  | [], s, h, hs, _, _ => ⟨rfl, rfl, .refl h.takes hs⟩
  | (t', r) :: requests, s, h, hs, ht, hr => by
    obtain ⟨ht', hconcerns⟩ := hr (t', r) (List.mem_cons_self ..)
    have hfits := h.fits hconcerns
    have hoff : s.serve t' r = ((s.errand r).answer, (s.errand r).run q t' s) := serve_eq_run h hconcerns
    -- The errand is the same once the queue is flushed.
    obtain ⟨hb, hc, ho, hui, hsame, ha⟩ := flush_frame (t := t) h.takes hs
    have hwired : (flush q t s).Wired q graphs := h.congr hsame (wiring_congr hb ha) hc ho
    have hon : (flush q t s).serve t r = ((s.errand r).answer, (s.errand r).run q t (flush q t s)) := by
      rw [serve_eq_run hwired (hconcerns.congr hsame), errand_congr hsame hc]
    have hflush := Errand.flush_run hfits h.takes hs ht ht'
    have hd := Errand.defers hfits h.takes hs ht'
    generalize (s.errand r).run q t' s = s' at hoff hflush hd
    have hr' : ∀ x ∈ requests, s'.isUiThread q x.1 = false ∧ x.2.Concerns graphs s' := by
      intro x hx
      obtain ⟨htx, hcx⟩ := hr x (List.mem_cons_of_mem _ hx)
      exact ⟨by rw [hd.thread, htx], hcx.congr hd.sameShape⟩
    obtain ⟨hanswers, hscene, hdefers⟩ := flush_serveAll requests
      (h.congr hd.sameShape hd.wiring hd.animations hd.takes) hd.sound (by rw [hd.thread, ht]) hr'
    rw [hflush] at hanswers hscene
    simp only [hd.tasksFor] at hdefers
    simp only [serveAll, List.map_cons, hoff, hon, hanswers, hscene, List.zip_cons_cons, List.sum_cons, true_and]
    rw [← length_tasks_errand, ← hanswers]
    exact hd.trans hdefers

end Requests

/-! ## At once and later -/

/-- **Deferred requests are served as if at once.** Whatever is asked off the UI thread of graphs that
are wired to an empty queue: no graph changes before the queue is polled, and polling it runs the tasks
that the requests and their answers promise. The answers and the scene then are those of serving every
request on the UI thread. -/
theorem poll_deferred_eq_at_once {q : QueueId} {graphs : List GraphId} {s : Scene} (h : s.Wired q graphs)
    (hidle : s.pending q = []) {t : Thread} (ht : s.isUiThread q t = true) {requests : List (Thread × Request)}
    (hr : ∀ x ∈ requests, s.isUiThread q x.1 = false ∧ x.2.Concerns graphs s) :
    (serveAll requests s).1 = (serveAll (requests.map fun x => (t, x.2)) s).1 ∧
      (serveAll requests s).2.graphs = s.graphs ∧
        (serveAll requests s).2.poll q t =
          (((requests.zip (serveAll requests s).1).map fun x => s.tasksFor x.1.2 x.2).sum,
            (serveAll (requests.map fun x => (t, x.2)) s).2) := by
  have hs : ∀ task ∈ s.pending q, s.Sound task := by simp [hidle]
  obtain ⟨hanswers, hscene, hd⟩ := flush_serveAll requests h hs ht hr
  rw [flush_of_pending_eq_nil hidle] at hanswers hscene
  have hlength := hd.length
  rw [hidle, List.length_nil, Nat.zero_add] at hlength
  exact ⟨hanswers, hd.graphs, by rw [poll_eq_flush hd.takes hd.sound, hlength, hscene]⟩

/-! ## A slide show -/

/-- A node that shows the data under `cover` as its background, and has an animation and an action. -/
def slide (index : Nat) (action : Option Action) (animation : Option Animation) : Node where
  id := ⟨.host 0, index⟩
  kind := "ImageView"
  name := none
  parent := none
  children := []
  params := .new .relative
  attributes := .empty
  bindings := [⟨"cover", "background"⟩]
  action := action
  animation := animation

/-- A slide whose animation changes its background, one that stores a cover and one that tells. -/
def slides : Graph where
  root := ⟨.host 0, 0⟩
  nodes := [slide 0 none (some (.frames ⟨["a", "b"], .tenth, true⟩)),
    slide 1 (some (.updateData "cover" (.text "red"))) none, slide 2 (some (.outer "slide" "2")) none]
  binder := .host 0
  tasks := .host 0
  animations := .host 0
  mount := { Mount.none with listener := some "host" }
  hooks := []
  holders := [.host "screen"]

/-- The slides, attached twice, and the queue that their binder and their animations use. -/
def slideShow : Scene where
  graphs := Table.empty.insert (.host 0) slides
  binders := Table.empty.insert (.host 0) ⟨.empty, false, some 0, [.host 0, .host 0]⟩
  taskCenters := .empty
  animationCenters := Table.empty.insert (.host 0) ⟨.standard, some 0, .empty⟩
  queues := Store.empty.add (.new 0)
  events := []

/-- A cover is stored, the first slide and one that does not exist are to be played, and the others
are to act. -/
def showing : List (Thread × Request) :=
  [(1, .update (.host 0) "cover" (.text "blue")), (1, .animate (.host 0) ⟨.host 0, 0⟩),
    (2, .animate (.host 0) ⟨.host 0, 3⟩), (1, .perform (.host 0) ⟨.host 0, 1⟩),
    (2, .perform (.host 0) ⟨.host 0, 2⟩)]

theorem wired_slideShow : slideShow.Wired 0 [.host 0] where
  takes := ⟨.new 0, rfl, rfl⟩
  graph := by
    intro g hg
    obtain rfl := List.mem_singleton.1 hg
    exact ⟨slides, _, _, rfl, by simp [slides], rfl, rfl, rfl, rfl⟩

theorem concerns_showing : ∀ x ∈ showing, slideShow.isUiThread 0 x.1 = false ∧ x.2.Concerns [.host 0] slideShow := by
  have hone : ∀ graph, slideShow.graphs.get? (.host 0) = some graph → graph = slides := by
    rintro graph hgraph
    cases hgraph
    rfl
  intro x hx
  simp only [showing, List.mem_cons, List.not_mem_nil, or_false] at hx
  obtain rfl | rfl | rfl | rfl | rfl := hx
  · exact ⟨rfl, .host 0, List.mem_singleton.2 rfl, slides, rfl, rfl⟩
  · exact ⟨rfl, List.mem_singleton.2 rfl⟩
  · exact ⟨rfl, List.mem_singleton.2 rfl⟩
  · refine ⟨rfl, List.mem_singleton.2 rfl, fun graph n action hgraph hn haction => ?_⟩
    obtain rfl := hone graph hgraph
    cases hn
    cases haction
    trivial
  · refine ⟨rfl, List.mem_singleton.2 rfl, fun graph n action hgraph hn haction => ?_⟩
    obtain rfl := hone graph hgraph
    cases hn
    cases haction
    trivial

theorem slideShow_polled : slideShow.Wired 0 [.host 0] ∧ slideShow.pending 0 = [] ∧
    slideShow.isUiThread 0 0 = true ∧
      (∀ x ∈ showing, slideShow.isUiThread 0 x.1 = false ∧ x.2.Concerns [.host 0] slideShow) ∧
        (serveAll showing slideShow).1 = [true, true, false, true, true] ∧
          (serveAll showing slideShow).2.poll 0 0 =
            (5, (serveAll (showing.map fun x => (0, x.2)) slideShow).2) := by
  refine ⟨wired_slideShow, rfl, rfl, concerns_showing, rfl, ?_⟩
  obtain ⟨-, -, hpoll⟩ := poll_deferred_eq_at_once wired_slideShow rfl (t := 0) rfl concerns_showing
  exact hpoll

end Scene

end LiveScreen
