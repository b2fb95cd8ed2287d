/-
What a queue will have done once everything that waits in it has been run
(`flush`), computed without taking one task after the other off the queue. That
polling does this (`poll_eq_flush`) rests on what the tasks keep alive: an
animation holds its graph only while it waits, so the graph has to be held by
somebody else too for a write behind it to reach it either way (`Sound`).
-/
import LiveScreen.Proofs.Scene.Due

namespace LiveScreen

/-! ## Graphs without their attributes -/

/-- A node without its attributes. -/
def Node.bare (n : Node) : Node := { n with attributes := .empty }

/-- A graph without the attributes of its nodes. -/
def Graph.bare (graph : Graph) : Graph := { graph with nodes := graph.nodes.map Node.bare }

@[simp] theorem Node.bare_applyData (n : Node) (key : String) (value : Value) :
    (n.applyData key value).bare = n.bare := by
  have h : ∀ (bs : List Binding) (n : Node),
      (bs.foldl (fun n b => if b.key = key then n.setAttribute b.attr value else n) n).bare = n.bare := by
    intro bs
    induction bs with
    | nil => intro n; rfl
    | cons b bs ih =>
      intro n
      rw [List.foldl_cons, ih]
      split <;> rfl
  exact h n.bindings n

namespace Graph

@[simp] theorem bare_applyData (graph : Graph) (key : String) (value : Value) :
    (graph.applyData key value).bare = graph.bare := by
  simp [bare, applyData, Function.comp_def]

@[simp] theorem bare_animate (graph : Graph) (id : NodeId) (a : Animation) :
    (graph.animate id a).bare = graph.bare := by
  simp only [bare, animate, modifyNode, List.map_map]
  congr 1
  refine List.map_congr_left fun n _ => ?_
  simp only [Function.comp_apply]
  split <;> rfl

theorem node?_bare (graph : Graph) (id : NodeId) : graph.bare.node? id = (graph.node? id).map Node.bare := by
  simp only [node?, bare, List.find?_map]
  rfl

theorem find?_bare (graph : Graph) (name : String) : graph.bare.find? name = (graph.find? name).map Node.bare := by
  simp only [find?, bare, List.find?_map]
  rfl

end Graph

namespace Scene

/-- A graph is kept alive by somebody, whatever waits in the queues. -/
def Held (s : Scene) (g : GraphId) : Prop := ∃ graph, s.graphs.get? g = some graph ∧ graph.holders ≠ []

/-- A task writes into views, and only into one that is held if it keeps it alive. -/
def Sound (s : Scene) : UiTask → Prop
  | .applyData .. => True
  | .animate g .. => s.Held g
  | .note .. => False

/-- The scene with other tasks waiting in a queue. -/
def withPending (s : Scene) (q : QueueId) (tasks : List UiTask) : Scene :=
  s.modifyQueue q fun queue => { queue with pending := tasks }

/-- What running everything that waits in a queue on a thread leads to. -/
def flush (q : QueueId) (t : Thread) (s : Scene) : Scene :=
  (s.pending q).foldl (fun s task => s.runTask q t task) (s.withPending q [])

/-- Two scenes have the same graphs, up to the attributes of their nodes. -/
def SameShape (s s' : Scene) : Prop :=
  ∀ g, (s'.graphs.get? g).map Graph.bare = (s.graphs.get? g).map Graph.bare

/-! ## Queues that are filled and emptied -/

section WithPending

variable {s : Scene} {q : QueueId} {g : GraphId} {tasks tasks' : List UiTask}

theorem withPending_self (s : Scene) (q : QueueId) : s.withPending q (s.pending q) = s := by
  have h : (s.withPending q (s.pending q)).queues = s.queues := by
    refine Store.ext_get? fun i => ?_
    simp only [withPending, modifyQueue]
    by_cases hi : q = i
    · subst hi
      rw [Store.get?_modify_self]
      cases hq : s.queues.get? q with
      | none => rfl
      | some queue => simp [pending, hq]
    · exact Store.get?_modify_other _ _ hi
  simp only [withPending, modifyQueue] at h ⊢
  rw [h]

theorem withPending_withPending (s : Scene) (q : QueueId) (tasks tasks' : List UiTask) :
    (s.withPending q tasks).withPending q tasks' = s.withPending q tasks' := by
  have h : ((s.withPending q tasks).withPending q tasks').queues = (s.withPending q tasks').queues := by
    refine Store.ext_get? fun i => ?_
    simp only [withPending, modifyQueue]
    by_cases hi : q = i
    · subst hi
      cases hq : s.queues.get? q <;> simp [hq]
    · simp only [Store.get?_modify_other _ _ hi]
  simp only [withPending, modifyQueue, Scene.mk.injEq, and_true, true_and] at h ⊢
  exact h

theorem pending_withPending (ho : s.Open q) (tasks : List UiTask) : (s.withPending q tasks).pending q = tasks := by
  obtain ⟨queue, hq, -⟩ := ho
  simp [pending, withPending, modifyQueue, hq]

theorem Open.withPending (ho : s.Open q) (tasks : List UiTask) : (s.withPending q tasks).Open q :=
  ho.modifyQueue fun _ => rfl

theorem isUiThread_withPending (s : Scene) (q : QueueId) (tasks : List UiTask) (t : Thread) :
    (s.withPending q tasks).isUiThread q t = s.isUiThread q t :=
  isUiThread_modifyQueue s q q (f := fun queue => { queue with pending := tasks }) (fun _ => rfl) t

theorem post_eq_withPending (ho : s.Open q) (task : UiTask) :
    s.post q task = s.withPending q (s.pending q ++ [task]) := by
  obtain ⟨queue, hq, ha⟩ := ho
  have h : (s.post q task).queues = (s.withPending q (s.pending q ++ [task])).queues := by
    refine Store.ext_get? fun i => ?_
    simp only [post, withPending, modifyQueue]
    by_cases hi : q = i
    · subst hi
      simp [hq, ha, pending]
    · simp only [Store.get?_modify_other _ _ hi]
  simp only [post, withPending, modifyQueue, Scene.mk.injEq, and_true, true_and] at h ⊢
  exact h

/-- Tasks that are queued one after the other wait behind the others. -/
theorem foldl_post_eq_withPending : ∀ (tasks : List UiTask) {s : Scene}, s.Open q →
    tasks.foldl (fun s task => s.post q task) s = s.withPending q (s.pending q ++ tasks)
  | [], s, _ => by rw [List.append_nil, withPending_self]; rfl
  | task :: tasks, s, ho => by
    rw [List.foldl_cons, foldl_post_eq_withPending tasks (ho.post task), pending_post ho, post_eq_withPending ho,
      withPending_withPending, List.append_assoc]
    rfl

theorem Held.alive (h : s.Held g) : s.alive g = true := by
  obtain ⟨graph, hg, hh⟩ := h
  simp [Scene.alive, hg, hh]

theorem Held.of_keeps {task : UiTask} (hs : s.Sound task) (hk : keeps g task = true) : s.Held g := by
  cases task with
  | animate g' node a =>
    obtain rfl : g' = g := by simpa [keeps] using hk
    exact hs
  | applyData | note => simp [keeps] at hk

/-- Tasks that keep only held graphs alive make none live or die. -/
theorem alive_withPending (hs : ∀ task ∈ s.pending q, s.Sound task) (ht : ∀ task ∈ tasks, s.Sound task)
    (g : GraphId) : (s.withPending q tasks).alive g = s.alive g := by
  by_cases hg : s.Held g
  · have hg' : (s.withPending q tasks).Held g := hg
    rw [hg.alive, hg'.alive]
  · have hno : ∀ l : List UiTask, (∀ task ∈ l, s.Sound task) → l.any (keeps g) = false := by
      intro l hl
      rw [List.any_eq_false]
      exact fun task htask hk => hg (.of_keeps (hl task htask) hk)
    refine alive_modifyQueue s g fun queue hq => ?_
    have hp : s.pending q = queue.pending := by simp [pending, hq]
    simp only [hno tasks ht, hno queue.pending (hp ▸ hs)]

end WithPending

/-! ## Tasks that run -/

section RunTask

variable {s : Scene} {q q' : QueueId} {t : Thread} {task : UiTask}

theorem SameShape.refl (s : Scene) : SameShape s s := fun _ => rfl

theorem SameShape.trans {r s u : Scene} (h : SameShape r s) (h' : SameShape s u) : SameShape r u :=
  fun g => (h' g).trans (h g)

theorem SameShape.modifyGraph (s : Scene) (g : GraphId) {f : Graph → Graph}
    (hf : ∀ graph, (f graph).bare = graph.bare) : SameShape s (s.modifyGraph g f) := by
  intro g'
  simp only [Scene.modifyGraph, Table.get?_modify]
  split
  · rename_i hg
    subst hg
    simp [Option.map_map, Function.comp_def, hf]
  · rfl

theorem SameShape.symm {s' : Scene} (h : SameShape s s') : SameShape s' s := fun g => (h g).symm

theorem SameShape.graph {s' : Scene} (h : SameShape s s') {g : GraphId} {graph : Graph}
    (hg : s.graphs.get? g = some graph) : ∃ graph', s'.graphs.get? g = some graph' ∧ graph'.bare = graph.bare := by
  have hs := h g
  rw [hg, Option.map_some] at hs
  exact Option.map_eq_some_iff.1 hs

theorem SameShape.held {s' : Scene} (h : SameShape s s') {g : GraphId} (hg : s.Held g) : s'.Held g := by
  obtain ⟨graph, hgraph, hh⟩ := hg
  obtain ⟨graph', hgraph', hb⟩ := h.graph hgraph
  have hholders : graph'.holders = graph.holders := show graph'.bare.holders = graph.bare.holders by rw [hb]
  exact ⟨graph', hgraph', by rw [hholders]; exact hh⟩

theorem SameShape.sound {s' : Scene} (h : SameShape s s') (hs : s.Sound task) : s'.Sound task := by
  cases task with
  | applyData => trivial
  | animate g node a => exact h.held hs
  | note => exact hs

/-- What a task that writes into views changes. -/
theorem runTask_frame (hs : s.Sound task) : (s.runTask q t task).binders = s.binders ∧
    (s.runTask q t task).animationCenters = s.animationCenters ∧ (s.runTask q t task).queues = s.queues ∧
      SameShape s (s.runTask q t task) ∧ ∀ g, (s.runTask q t task).alive g = s.alive g := by
  cases task with
  | applyData g key value =>
    refine ⟨binders_showValue key value s g, ?_, queues_showValue key value s g, ?_, alive_showValue key value s g⟩
    · simp only [runTask]
      split <;> rfl
    · simp only [runTask]
      split
      · exact .modifyGraph s g fun graph => graph.bare_applyData key value
      · exact .refl s
  | animate g node a =>
    exact ⟨rfl, rfl, rfl, .modifyGraph s g fun graph => graph.bare_animate node a,
      alive_modifyGraph s g fun _ => rfl⟩
  | note => exact hs.elim

/-- A change that leaves the graphs and their lives alone can be made before a task or after it. -/
theorem runTask_comm {f : Scene → Scene} (hf : ∀ s g φ, f (s.modifyGraph g φ) = (f s).modifyGraph g φ)
    (ha : ∀ g, (f s).alive g = s.alive g) (hs : s.Sound task) :
    (f s).runTask q t task = f (s.runTask q t task) := by
  cases task with
  | applyData g key value =>
    simp only [runTask, ha]
    split
    · rw [hf]
    · rfl
  | animate g node a => exact (hf s g _).symm
  | note => exact hs.elim

/-- What several tasks change that write into views. -/
theorem foldl_runTask_frame : ∀ (tasks : List UiTask) {s : Scene}, (∀ task ∈ tasks, s.Sound task) →
    let s' := tasks.foldl (fun s task => s.runTask q t task) s
    s'.binders = s.binders ∧ s'.animationCenters = s.animationCenters ∧ s'.queues = s.queues ∧
      SameShape s s' ∧ ∀ g, s'.alive g = s.alive g
  | [], s, _ => ⟨rfl, rfl, rfl, .refl s, fun _ => rfl⟩
  | task :: tasks, s, hs => by
    obtain ⟨hb, hc, hq, hsame, ha⟩ := runTask_frame (q := q) (t := t) (hs task (List.mem_cons_self ..))
    have hs' : ∀ task' ∈ tasks, (s.runTask q t task).Sound task' := fun task' h =>
      hsame.sound (hs task' (List.mem_cons_of_mem _ h))
    obtain ⟨hb', hc', hq', hsame', ha'⟩ := foldl_runTask_frame tasks hs'
    exact ⟨hb'.trans hb, hc'.trans hc, hq'.trans hq, hsame.trans hsame', fun g => (ha' g).trans (ha g)⟩

theorem foldl_runTask_comm {f : Scene → Scene} (hf : ∀ s g φ, f (s.modifyGraph g φ) = (f s).modifyGraph g φ)
    (ha : ∀ s g, (f s).alive g = s.alive g) : ∀ (tasks : List UiTask) {s : Scene}, (∀ task ∈ tasks, s.Sound task) →
      tasks.foldl (fun s task => s.runTask q t task) (f s) = f (tasks.foldl (fun s task => s.runTask q t task) s)
  | [], _, _ => rfl
  | task :: tasks, s, hs => by
    have hsame := (runTask_frame (q := q) (t := t) (hs task (List.mem_cons_self ..))).2.2.2.1
    rw [List.foldl_cons, List.foldl_cons, runTask_comm hf (ha s) (hs task (List.mem_cons_self ..))]
    exact foldl_runTask_comm hf ha tasks fun task' h => hsame.sound (hs task' (List.mem_cons_of_mem _ h))

end RunTask

/-! ## Flushing -/

section Flush

variable {s : Scene} {q : QueueId} {t : Thread}

theorem flush_of_pending_eq_nil (h : s.pending q = []) : flush q t s = s := by
  have hself := withPending_self s q
  rw [h] at hself
  rw [flush, h, List.foldl_nil, hself]

/-- What flushing leaves alone. -/
theorem flush_frame (ho : s.Open q) (hs : ∀ task ∈ s.pending q, s.Sound task) :
    (flush q t s).binders = s.binders ∧ (flush q t s).animationCenters = s.animationCenters ∧
      (flush q t s).Open q ∧ (∀ t', (flush q t s).isUiThread q t' = s.isUiThread q t') ∧
        SameShape s (flush q t s) ∧ ∀ g, (flush q t s).alive g = s.alive g := by
  obtain ⟨hb, hc, hq, hsame, ha⟩ :=
    foldl_runTask_frame (q := q) (t := t) (s := s.withPending q []) (s.pending q) hs
  refine ⟨hb, hc, (ho.withPending []).congr hq, fun t' => ?_, hsame, fun g => ?_⟩
  · rw [← isUiThread_withPending s q []]
    unfold isUiThread flush
    rw [hq]
  · exact (ha g).trans (alive_withPending hs (by simp) g)

/-- A change that leaves graphs, lives and queues alone can be made before flushing or after it. -/
theorem flush_comm {f : Scene → Scene} (hf : ∀ s g φ, f (s.modifyGraph g φ) = (f s).modifyGraph g φ)
    (ha : ∀ s g, (f s).alive g = s.alive g) (hq : ∀ s tasks, f (s.withPending q tasks) = (f s).withPending q tasks)
    (hp : (f s).pending q = s.pending q) (hs : ∀ task ∈ s.pending q, s.Sound task) :
    flush q t (f s) = f (flush q t s) := by
  unfold flush
  rw [hp, ← hq]
  exact foldl_runTask_comm hf ha (s.pending q) hs

/-- What is put behind all that waits runs after it. -/
theorem flush_withPending_append (ho : s.Open q) (tasks : List UiTask) :
    flush q t (s.withPending q (s.pending q ++ tasks)) =
      tasks.foldl (fun s task => s.runTask q t task) (flush q t s) := by
  unfold flush
  rw [pending_withPending ho, withPending_withPending, List.foldl_append]

theorem taskWeight_of_sound {task : UiTask} (h : s.Sound task) : taskWeight task = 1 := by
  cases task with
  | applyData | animate => rfl
  | note => exact h.elim

theorem taskWeights_of_sound : ∀ {tasks : List UiTask}, (∀ task ∈ tasks, s.Sound task) →
    tasks.foldr (fun task n => taskWeight task + n) 0 = tasks.length
  | [], _ => rfl
  | task :: tasks, h => by
    have htasks := taskWeights_of_sound fun task' hmem => h task' (List.mem_cons_of_mem _ hmem)
    rw [List.foldr_cons, htasks, taskWeight_of_sound (h task (List.mem_cons_self ..)), List.length_cons, Nat.add_comm]

/-- Polling runs everything that waits, task by task. -/
theorem pollFor_eq_flush : ∀ (tasks : List UiTask) {s : Scene}, s.Open q → s.pending q = tasks →
    (∀ task ∈ tasks, s.Sound task) → pollFor q t tasks.length s = (tasks.length, flush q t s)
  | [], s, _, hp, _ => by rw [flush_of_pending_eq_nil hp]; rfl
  | task :: tasks, s, ho, hp, hs => by
    have htask : s.Sound task := hs task (List.mem_cons_self ..)
    have htasks : ∀ task' ∈ tasks, s.Sound task' := fun task' h => hs task' (List.mem_cons_of_mem _ h)
    have hnext : s.runNext? q t = some ((s.withPending q tasks).runTask q t task) := by
      simp only [runNext?, hp]
      rfl
    -- The task runs while those behind it wait; that is as if none waited.
    have hcomm : ∀ l, (∀ task' ∈ l, s.Sound task') →
        (s.withPending q l).runTask q t task = (s.runTask q t task).withPending q l := fun l hl =>
      runTask_comm (f := fun s => s.withPending q l) (fun _ _ _ => rfl)
        (alive_withPending (by rw [hp]; exact hs) hl) htask
    obtain ⟨-, -, hq, hsame, -⟩ := runTask_frame (q := q) (t := t) htask
    generalize hs' : (s.withPending q tasks).runTask q t task = s' at hnext
    rw [hcomm tasks htasks] at hs'
    have ho' : (s.runTask q t task).Open q := ho.congr hq
    have hp' : s'.pending q = tasks := by rw [← hs', pending_withPending ho']
    have hsound : ∀ task' ∈ tasks, s'.Sound task' := by
      intro task' h
      rw [← hs']
      exact hsame.sound (htasks task' h)
    have hflush : flush q t s' = flush q t s := by
      unfold flush
      rw [hp', hp, ← hs', withPending_withPending, List.foldl_cons, hcomm [] (by simp)]
    have ih := pollFor_eq_flush tasks (by rw [← hs']; exact ho'.withPending tasks) hp' hsound
    rw [List.length_cons, pollFor, hnext]
    simp only [ih, hflush]

/-- **Polling flushes.** What waits is run, and counted. -/
theorem poll_eq_flush (ho : s.Open q) (hs : ∀ task ∈ s.pending q, s.Sound task) (t : Thread) :
    s.poll q t = ((s.pending q).length, flush q t s) := by
  rw [poll, taskWeights_of_sound hs, pollFor_eq_flush (s.pending q) ho rfl hs]

end Flush

end Scene

end LiveScreen
