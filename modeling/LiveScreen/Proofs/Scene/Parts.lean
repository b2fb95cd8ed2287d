/-
Parts of a scene. A part is made of some owners, with their graphs, task centers
and animation centers, and of some binders; what waits for its graphs in a queue and
what was recorded of them belongs to it too. `Scene.only` leaves of a scene what belongs
to a part. A small change either happens in a part, and then it does to what is left
what it does to the scene, or elsewhere, and then it changes nothing that is left. So
does polling a queue, where the tasks of all parts wait for each other (`only_poll`).
-/
import LiveScreen.Proofs.Scene.Flush
import LiveScreen.Scene.Tasks

namespace LiveScreen

namespace Table

variable {κ α : Type} [DecidableEq κ]

/-- The pairs with chosen keys. -/
def only (p : κ → Bool) (d : Table κ α) : Table κ α :=
  ⟨d.entries.filter fun e => p e.1, d.nodup.sublist (List.filter_sublist.map _)⟩

variable {p : κ → Bool}

omit [DecidableEq κ] in
theorem ext_entries {d d' : Table κ α} (h : d.entries = d'.entries) : d = d' := by
  cases d
  cases d'
  congr

theorem lookup_filter (k : κ) : ∀ es : List (κ × α),
    lookup k (es.filter fun e => p e.1) = if p k then lookup k es else none
  | [] => by simp [lookup]
  | (k', v) :: es => by
    rw [List.filter_cons]
    by_cases hk : k' = k
    · subst hk
      cases hp : p k' with
      | true => simp [lookup]
      | false => simpa [hp] using lookup_filter k' es
    · cases hp : p k' with
      | true => simpa [lookup, hk] using lookup_filter k es
      | false => simpa [lookup, hk] using lookup_filter k es

theorem get?_only (d : Table κ α) (k : κ) : (d.only p).get? k = if p k then d.get? k else none :=
  lookup_filter k d.entries

theorem filter_put (k : κ) (v : α) : ∀ es : List (κ × α),
    (put k v es).filter (fun e => p e.1) =
      if p k then put k v (es.filter fun e => p e.1) else es.filter fun e => p e.1
  | [] => by cases hp : p k <;> simp [put, hp]
  | (k', v') :: es => by
    rw [put]
    by_cases hk : k' = k
    · subst hk
      cases hp : p k' <;> simp [put, hp]
    · have ih := filter_put k v es
      rw [if_neg hk, List.filter_cons, ih, List.filter_cons]
      cases hp : p k <;> cases hp' : p k' <;> simp [put, hk]

theorem only_insert (d : Table κ α) (k : κ) (v : α) :
    (d.insert k v).only p = if p k then (d.only p).insert k v else d.only p := by
  refine ext_entries ((filter_put k v d.entries).trans ?_)
  split <;> rfl

theorem only_modify (d : Table κ α) (k : κ) (f : α → α) :
    (d.modify k f).only p = if p k then (d.only p).modify k f else d.only p := by
  unfold modify
  rw [get?_only]
  cases hp : p k with
  | true =>
    cases d.get? k with
    | none => rfl
    | some v => simp [only_insert, hp]
  | false =>
    cases d.get? k with
    | none => rfl
    | some v => simp [only_insert, hp]

end Table

/-- A part of a scene. -/
structure Part where
  /-- The owners whose graphs, task centers and animation centers belong to it. -/
  owns : Owner → Bool
  /-- The binders that belong to it. -/
  binds : BinderId → Bool
  /-- Whether the notes belong to it. -/
  notes : Bool

namespace Part

/-- What does not belong to a part. -/
def rest (p : Part) : Part := ⟨fun o => !p.owns o, fun b => !p.binds b, !p.notes⟩

/-- A task works for a part. -/
def awaits (p : Part) : UiTask → Bool
  | .applyData g .. | .animate g .. => p.owns g
  | .note .. => p.notes

/-- An event happened in a part. -/
def sees (p : Part) : Event → Bool
  | .note _ => p.notes
  | .recorded g _ | .probed g .. | .told g .. | .hookRan g .. | .ran _ g _ => p.owns g
  | .parsed i .. | .initDone i _ => p.owns (.screen i)

@[simp] theorem rest_rest (p : Part) : p.rest.rest = p := by simp [rest]

end Part

/-- What waits in a queue for a part. -/
def UiQueue.only (p : Part) (queue : UiQueue) : UiQueue := { queue with pending := queue.pending.filter p.awaits }

namespace Scene

/-- What belongs to a part. -/
def only (p : Part) (s : Scene) : Scene where
  graphs := s.graphs.only p.owns
  binders := s.binders.only p.binds
  taskCenters := s.taskCenters.only p.owns
  animationCenters := s.animationCenters.only p.owns
  queues := ⟨s.queues.items.map (·.only p)⟩
  events := s.events.filter p.sees

variable {p : Part} {s : Scene} {q : QueueId} {t : Thread} {g : GraphId}

/-! ## Reading -/

theorem get?_graphs_only (hg : p.owns g = true) : (s.only p).graphs.get? g = s.graphs.get? g :=
  (Table.get?_only s.graphs g).trans (if_pos hg)

theorem get?_binders_only {b : BinderId} (hb : p.binds b = true) : (s.only p).binders.get? b = s.binders.get? b :=
  (Table.get?_only s.binders b).trans (if_pos hb)

theorem get?_taskCenters_only {c : TaskCenterId} (hc : p.owns c = true) :
    (s.only p).taskCenters.get? c = s.taskCenters.get? c :=
  (Table.get?_only s.taskCenters c).trans (if_pos hc)

theorem get?_animationCenters_only {c : AnimationCenterId} (hc : p.owns c = true) :
    (s.only p).animationCenters.get? c = s.animationCenters.get? c :=
  (Table.get?_only s.animationCenters c).trans (if_pos hc)

theorem get?_queues_only (p : Part) (s : Scene) (q : QueueId) :
    (s.only p).queues.get? q = (s.queues.get? q).map (·.only p) := by
  simp only [only, Store.get?, List.getElem?_map]

theorem pending_only (p : Part) (s : Scene) (q : QueueId) : (s.only p).pending q = (s.pending q).filter p.awaits := by
  unfold pending
  rw [get?_queues_only]
  cases s.queues.get? q <;> rfl

theorem isUiThread_only (p : Part) (s : Scene) (q : QueueId) (t : Thread) :
    (s.only p).isUiThread q t = s.isUiThread q t := by
  unfold isUiThread
  rw [get?_queues_only]
  cases s.queues.get? q <;> rfl

/-- Only tasks of its part keep a graph alive. -/
theorem alive_only (hg : p.owns g = true) : (s.only p).alive g = s.alive g := by
  have hkeeps : ∀ task, keeps g task = true → p.awaits task = true := by
    intro task htask
    cases task with
    | animate g' node a =>
      obtain rfl : g' = g := by simpa [keeps] using htask
      exact hg
    | applyData | note => cases htask
  have hqueue : ∀ queue : UiQueue, ((queue.only p).alive && (queue.only p).pending.any (keeps g)) =
      (queue.alive && queue.pending.any (keeps g)) := by
    intro queue
    simp only [UiQueue.only, List.any_filter]
    congr 2
    funext task
    cases hk : keeps g task with
    | false => rw [Bool.and_false]
    | true => rw [hkeeps task hk, Bool.and_true]
  unfold alive
  rw [get?_graphs_only hg]
  congr 1
  simp only [only, List.any_map]
  congr 1
  exact funext hqueue

/-! ## Changes of one part -/

theorem only_emit (p : Part) (s : Scene) (e : Event) :
    (s.emit e).only p = if p.sees e then (s.only p).emit e else s.only p := by
  cases hp : p.sees e <;> simp [only, emit, hp]

theorem only_modifyGraph (p : Part) (s : Scene) (g : GraphId) (f : Graph → Graph) :
    (s.modifyGraph g f).only p = if p.owns g then (s.only p).modifyGraph g f else s.only p := by
  cases hp : p.owns g <;> simp [only, modifyGraph, Table.only_modify, hp]

theorem only_modifyBinder (p : Part) (s : Scene) (b : BinderId) (f : Binder → Binder) :
    (s.modifyBinder b f).only p = if p.binds b then (s.only p).modifyBinder b f else s.only p := by
  cases hp : p.binds b <;> simp [only, modifyBinder, Table.only_modify, hp]

theorem only_modifyTasks (p : Part) (s : Scene) (c : TaskCenterId) (f : TaskCenter → TaskCenter) :
    (s.modifyTasks c f).only p = if p.owns c then (s.only p).modifyTasks c f else s.only p := by
  cases hp : p.owns c <;> simp [only, modifyTasks, Table.only_modify, hp]

theorem only_modifyAnimations (p : Part) (s : Scene) (c : AnimationCenterId) (f : AnimationCenter → AnimationCenter) :
    (s.modifyAnimations c f).only p = if p.owns c then (s.only p).modifyAnimations c f else s.only p := by
  cases hp : p.owns c <;> simp [only, modifyAnimations, Table.only_modify, hp]

/-- A change of a queue does to what waits for a part what another change does to what is left of the queue. -/
theorem only_modifyQueue (s : Scene) (q : QueueId) {f f' : UiQueue → UiQueue}
    (h : ∀ queue, (f queue).only p = f' (queue.only p)) :
    (s.modifyQueue q f).only p = (s.only p).modifyQueue q f' := by
  have hitems : (s.queues.items.modify q f).map (·.only p) = (s.queues.items.map (·.only p)).modify q f' := by
    refine List.ext_getElem? fun i => ?_
    rw [List.getElem?_map, List.getElem?_modify, List.getElem?_modify, List.getElem?_map]
    cases s.queues.items[i]? with
    | none => rfl
    | some queue =>
      simp only [Option.map_some, Option.map_eq_map]
      split
      · rw [h]
      · rfl
  simp only [only, modifyQueue, Store.modify, hitems]

theorem modifyQueue_id (s : Scene) (q : QueueId) : (s.modifyQueue q fun queue => queue) = s := by
  have hitems : (s.queues.items.modify q fun queue => queue) = s.queues.items := List.modify_id ..
  simp only [modifyQueue, Store.modify, hitems]

theorem only_post (p : Part) (s : Scene) (q : QueueId) (task : UiTask) :
    (s.post q task).only p = if p.awaits task then (s.only p).post q task else s.only p := by
  cases hp : p.awaits task with
  | true =>
    refine only_modifyQueue s q fun queue => ?_
    cases ha : queue.alive <;> simp [UiQueue.only, ha, hp]
  | false =>
    have hsame : (s.post q task).only p = (s.only p).modifyQueue q fun queue => queue :=
      only_modifyQueue s q fun queue => by cases ha : queue.alive <;> simp [UiQueue.only, ha, hp]
    rw [hsame, modifyQueue_id, if_neg Bool.false_ne_true]

/-- A list of changes that all happen in a part, or all elsewhere. -/
theorem only_foldl {α : Type} {f : Scene → α → Scene} {k : Bool}
    (hf : ∀ s x, (f s x).only p = if k then f (s.only p) x else s.only p) : ∀ (l : List α) (s : Scene),
      (l.foldl f s).only p = if k then l.foldl f (s.only p) else s.only p
  | [], s => by rw [List.foldl_nil, List.foldl_nil, ite_self]
  | x :: l, s => by
    rw [List.foldl_cons, List.foldl_cons, only_foldl hf l, hf]
    split <;> rfl

/-! ## Tasks -/

mutual

theorem only_followUp (p : Part) (q : QueueId) (t : Thread) : ∀ (f : Followup) (s : Scene),
    (followUp q t f s).only p = if p.notes then followUp q t f (s.only p) else s.only p
  | .mk queued tag next, s => by
    simp only [followUp, isUiThread_only]
    split
    · exact only_post p s q _
    · rw [only_followUps p q t next, only_emit]
      cases hp : p.notes <;> simp [Part.sees, hp]

theorem only_followUps (p : Part) (q : QueueId) (t : Thread) : ∀ (fs : List Followup) (s : Scene),
    (followUps q t fs s).only p = if p.notes then followUps q t fs (s.only p) else s.only p
  | [], s => by simp only [followUps, ite_self]
  | f :: fs, s => by
    simp only [followUps]
    rw [only_followUps p q t fs, only_followUp p q t f]
    split <;> rfl

end

theorem only_runTask (p : Part) (s : Scene) (q : QueueId) (t : Thread) (task : UiTask) :
    (s.runTask q t task).only p = if p.awaits task then (s.only p).runTask q t task else s.only p := by
  cases task with
  | applyData g key value =>
    simp only [runTask]
    by_cases hp : p.awaits (.applyData g key value) = true
    · have hg : p.owns g = true := hp
      rw [if_pos hp, alive_only hg]
      split
      · rw [only_modifyGraph, if_pos hg]
      · rfl
    · have hg : ¬ p.owns g = true := hp
      rw [if_neg hp]
      split
      · rw [only_modifyGraph, if_neg hg]
      · rfl
  | animate g node a => exact only_modifyGraph p s g _
  | note tag next =>
    simp only [runTask]
    rw [only_followUps, only_emit]
    cases hp : p.notes <;> simp [Part.sees, Part.awaits, hp]

theorem only_dispatch (p : Part) (s : Scene) (q : QueueId) (t : Thread) (task : UiTask) :
    (s.dispatch q t task).only p = if p.awaits task then (s.only p).dispatch q t task else s.only p := by
  unfold dispatch
  rw [isUiThread_only]
  split
  · exact only_runTask p s q t task
  · exact only_post p s q task

/-! ## Polling -/

/-- How many tasks can come of what waits in a queue. -/
def toRun (s : Scene) (q : QueueId) : Nat := (s.pending q).foldr (fun task n => taskWeight task + n) 0

theorem one_le_taskWeight (task : UiTask) : 1 ≤ taskWeight task := by
  cases task with
  | applyData | animate => exact Nat.le_refl 1
  | note tag next => exact Nat.le_add_right ..

theorem toRun_post_le (s : Scene) (q : QueueId) (task : UiTask) :
    (s.post q task).toRun q ≤ s.toRun q + taskWeight task := by
  have hsum : ∀ tasks : List UiTask, (tasks ++ [task]).foldr (fun task n => taskWeight task + n) 0 =
      tasks.foldr (fun task n => taskWeight task + n) 0 + taskWeight task := by
    intro tasks
    induction tasks with
    | nil => simp
    | cons task' tasks ih => rw [List.cons_append, List.foldr_cons, List.foldr_cons, ih]; omega
  simp only [toRun, pending, post, modifyQueue, Store.get?_modify_self]
  cases s.queues.get? q with
  | none => exact Nat.zero_le _
  | some queue =>
    simp only [Option.map_some]
    split
    · exact Nat.le_of_eq (hsum queue.pending)
    · exact Nat.le_add_right ..

mutual

theorem toRun_followUp_le (q : QueueId) (t : Thread) : ∀ (f : Followup) (s : Scene),
    (followUp q t f s).toRun q ≤ s.toRun q + weight f
  | .mk queued tag next, s => by
    simp only [followUp, weight]
    split
    · exact toRun_post_le s q _
    · have hnext := toRun_followUps_le q t next (s.emit (.note tag))
      have hemit : (s.emit (.note tag)).toRun q = s.toRun q := rfl
      omega

theorem toRun_followUps_le (q : QueueId) (t : Thread) : ∀ (fs : List Followup) (s : Scene),
    (followUps q t fs s).toRun q ≤ s.toRun q + weights fs
  | [], s => by simp only [followUps, weights]; omega
  | f :: fs, s => by
    have hfirst := toRun_followUp_le q t f s
    have hrest := toRun_followUps_le q t fs (followUp q t f s)
    simp only [followUps, weights]
    omega

end

/-- A task leads only to the tasks that it holds. -/
theorem toRun_runTask_lt (s : Scene) (q : QueueId) (t : Thread) (task : UiTask) :
    (s.runTask q t task).toRun q < s.toRun q + taskWeight task := by
  cases task with
  | applyData g key value =>
    simp only [runTask, taskWeight]
    split <;> exact Nat.lt_succ_self _
  | animate g node a => exact Nat.lt_succ_self _
  | note tag next =>
    have hnext := toRun_followUps_le q t next (s.emit (.note tag))
    have hemit : (s.emit (.note tag)).toRun q = s.toRun q := rfl
    simp only [runTask, taskWeight]
    omega

theorem toRun_of_pending {task : UiTask} {tasks : List UiTask} (h : s.pending q = task :: tasks) :
    s.toRun q = taskWeight task + (s.withPending q tasks).toRun q := by
  have hrest : (s.withPending q tasks).pending q = tasks := pending_modifyQueue h
  rw [toRun, toRun, h, hrest, List.foldr_cons]

theorem pollFor_of_pending_eq_nil (h : s.pending q = []) : ∀ n, pollFor q t n s = (0, s)
  | 0 => rfl
  | n + 1 => by simp only [pollFor, runNext?, h]

theorem pollFor_of_pending {task : UiTask} {tasks : List UiTask} (h : s.pending q = task :: tasks) (n : Nat) :
    (pollFor q t (n + 1) s).2 = (pollFor q t n ((s.withPending q tasks).runTask q t task)).2 := by
  simp only [pollFor, runNext?, h]
  rfl

theorem only_withPending (p : Part) (s : Scene) (q : QueueId) (tasks : List UiTask) :
    (s.withPending q tasks).only p = (s.only p).withPending q (tasks.filter p.awaits) :=
  only_modifyQueue s q fun _ => rfl

/-- Enough polls of a queue leave of a part what enough polls of what is left lead to. -/
theorem only_pollFor (p : Part) (q : QueueId) (t : Thread) : ∀ (n m : Nat) (s : Scene), s.toRun q ≤ n →
    (s.only p).toRun q ≤ m → (pollFor q t n s).2.only p = (pollFor q t m (s.only p)).2
  | n, m, s, hn, hm => by
    cases hp : s.pending q with
    | nil =>
      have hnone : (s.only p).pending q = [] := by rw [pending_only, hp, List.filter_nil]
      rw [pollFor_of_pending_eq_nil hp, pollFor_of_pending_eq_nil hnone]
    | cons task tasks =>
      have hweight := toRun_of_pending hp
      have hpos := one_le_taskWeight task
      have hless := toRun_runTask_lt (s.withPending q tasks) q t task
      obtain ⟨n, rfl⟩ : ∃ n', n = n' + 1 := ⟨n - 1, by omega⟩
      have honly := only_runTask p (s.withPending q tasks) q t task
      rw [only_withPending] at honly
      rw [pollFor_of_pending hp]
      by_cases ha : p.awaits task = true
      · -- The task works for the part: it is the next one on both sides.
        have hp' : (s.only p).pending q = task :: tasks.filter p.awaits := by
          rw [pending_only, hp, List.filter_cons_of_pos ha]
        have hweight' := toRun_of_pending hp'
        have hless' := toRun_runTask_lt ((s.only p).withPending q (tasks.filter p.awaits)) q t task
        obtain ⟨m, rfl⟩ : ∃ m', m = m' + 1 := ⟨m - 1, by omega⟩
        rw [if_pos ha] at honly
        rw [pollFor_of_pending hp', ← honly]
        exact only_pollFor p q t n m _ (by omega) (by rw [honly]; omega)
      · -- It does not: what is left does not see it.
        have hp' : (s.only p).pending q = tasks.filter p.awaits := by
          rw [pending_only, hp, List.filter_cons_of_neg ha]
        rw [if_neg ha, ← hp', withPending_self] at honly
        rw [← honly]
        exact only_pollFor p q t n m _ (by omega) (by rw [honly]; exact hm)

/-- Polling leaves of a part what polling what is left leads to. -/
theorem only_poll (p : Part) (s : Scene) (q : QueueId) (t : Thread) :
    (s.poll q t).2.only p = ((s.only p).poll q t).2 :=
  only_pollFor p q t _ _ s (Nat.le_refl _) (Nat.le_refl _)

end Scene

end LiveScreen
