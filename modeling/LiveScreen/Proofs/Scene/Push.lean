/-
Pushing a value into views, seen from one graph: what it shows, whether it is
alive, and which writes still wait for it in a queue. On the UI thread a push
changes what the graph shows and queues nothing; elsewhere it queues a write and
changes nothing that is shown. Neither makes a graph live or die.
-/
import LiveScreen.Proofs.Scene.Shown

namespace LiveScreen.Scene

/-- What a graph shows for a key; nothing if there is no such graph. -/
def shown (s : Scene) (g : GraphId) (key : String) : List (Option Value) :=
  match s.graphs.get? g with
  | some graph => graph.shown key
  | none => []

/-- No attribute of a node of a graph is bound to two keys. -/
def ClearlyBound (s : Scene) (g : GraphId) : Prop := ∀ graph, s.graphs.get? g = some graph → graph.ClearlyBound

/-- Whether there is a queue that takes tasks. -/
def Open (s : Scene) (q : QueueId) : Prop := ∃ queue, s.queues.get? q = some queue ∧ queue.alive = true

/-- The value a task writes into a graph for a key. -/
def written? (g : GraphId) (key : String) : UiTask → Option Value
  | .applyData g' key' value => if g' = g ∧ key' = key then some value else none
  | _ => none

/-- The values that wait in a queue to be written into a graph for a key, oldest first. -/
def waiting (s : Scene) (q : QueueId) (g : GraphId) (key : String) : List Value :=
  (s.pending q).filterMap (written? g key)

/-! ## Graphs that change -/

@[simp] theorem binders_modifyGraph (s : Scene) (g : GraphId) (f : Graph → Graph) :
    (s.modifyGraph g f).binders = s.binders := rfl

theorem alive_modifyGraph (s : Scene) (g : GraphId) {f : Graph → Graph}
    (hf : ∀ graph, (f graph).holders = graph.holders) (g' : GraphId) :
    (s.modifyGraph g f).alive g' = s.alive g' := by
  simp only [alive, modifyGraph, Table.get?_modify]
  by_cases h : g' = g
  · subst h
    cases s.graphs.get? g' <;> simp [hf]
  · simp [h]

/-- Shows a value in a graph that is alive. -/
def showValue (key : String) (value : Value) (s : Scene) (g : GraphId) : Scene :=
  if s.alive g then s.modifyGraph g (·.applyData key value) else s

section ShowValue

variable (key : String) (value : Value) (s : Scene) (g g' : GraphId)

@[simp] theorem binders_showValue : (s.showValue key value g).binders = s.binders := by
  unfold showValue; split <;> rfl

@[simp] theorem queues_showValue : (s.showValue key value g).queues = s.queues := by
  unfold showValue; split <;> rfl

@[simp] theorem alive_showValue : (s.showValue key value g).alive g' = s.alive g' := by
  unfold showValue
  split
  · exact alive_modifyGraph s g (f := (·.applyData key value)) (fun _ => rfl) g'
  · rfl

theorem get?_graphs_showValue :
    (s.showValue key value g).graphs.get? g' =
      if g' = g ∧ s.alive g = true then (s.graphs.get? g').map (·.applyData key value)
      else s.graphs.get? g' := by
  unfold showValue
  split
  · rename_i h
    simp only [modifyGraph, Table.get?_modify, h, and_true]
    split
    · rename_i hg; subst hg; rfl
    · rfl
  · rename_i h
    simp [h]

end ShowValue

theorem ClearlyBound.showValue {s : Scene} {g' : GraphId} (h : s.ClearlyBound g') (key : String)
    (value : Value) (g : GraphId) : (s.showValue key value g).ClearlyBound g' := by
  intro graph hg
  rw [get?_graphs_showValue] at hg
  split at hg
  · obtain ⟨graph', hg', rfl⟩ := Option.map_eq_some_iff.1 hg
    exact (h graph' hg').applyData key value
  · exact h graph hg

theorem shown_showValue_self {s : Scene} {g : GraphId} (ha : s.alive g = true) (key : String) (value : Value) :
    (s.showValue key value g).shown g key = (s.shown g key).map fun _ => some value := by
  simp only [shown, get?_graphs_showValue, ha, and_true, if_true]
  cases s.graphs.get? g with
  | none => rfl
  | some graph => exact graph.shown_applyData_self key value

theorem shown_showValue_graph {s : Scene} {g g' : GraphId} (key : String) (value : Value) (key' : String)
    (hg : g' ≠ g) : (s.showValue key value g).shown g' key' = s.shown g' key' := by
  simp [shown, get?_graphs_showValue, hg]

theorem shown_showValue_key {s : Scene} {g g' : GraphId} (h : s.ClearlyBound g') {key key' : String}
    (value : Value) (hk : key' ≠ key) : (s.showValue key value g).shown g' key' = s.shown g' key' := by
  simp only [shown, get?_graphs_showValue]
  cases hg : s.graphs.get? g' with
  | none => simp
  | some graph =>
    by_cases hc : g' = g ∧ s.alive g = true
    · simp only [hc, and_self, if_true, Option.map_some]
      exact Graph.shown_applyData_other (h graph hg) value hk
    · simp only [hc, if_false]

/-! ## Values shown in several views -/

section ShowAll

variable (key : String) (value : Value)

/-- What showing a value in one view after the other leaves alone. -/
theorem foldl_showValue_frame : ∀ (views : List GraphId) (s : Scene),
    (views.foldl (showValue key value) s).binders = s.binders ∧
      (views.foldl (showValue key value) s).queues = s.queues ∧
        ∀ g, (views.foldl (showValue key value) s).alive g = s.alive g
  | [], s => ⟨rfl, rfl, fun _ => rfl⟩
  | g :: views, s => by
    obtain ⟨hb, hq, ha⟩ := foldl_showValue_frame views (s.showValue key value g)
    simp only [List.foldl_cons]
    exact ⟨by rw [hb, binders_showValue], by rw [hq, queues_showValue], fun g' => by rw [ha, alive_showValue]⟩

theorem ClearlyBound.foldl_showValue {g : GraphId} : ∀ (views : List GraphId) {s : Scene},
    s.ClearlyBound g → (views.foldl (Scene.showValue key value) s).ClearlyBound g
  | [], _, h => h
  | g' :: views, _, h => ClearlyBound.foldl_showValue views (h.showValue key value g')

theorem shown_foldl_showValue_self {g : GraphId} : ∀ (views : List GraphId) {s : Scene}, s.alive g = true →
    (views.foldl (showValue key value) s).shown g key =
      if g ∈ views then (s.shown g key).map fun _ => some value else s.shown g key
  | [], _, _ => by simp
  | g' :: views, s, ha => by
    rw [List.foldl_cons, shown_foldl_showValue_self views (by simpa using ha)]
    by_cases hg : g = g'
    · subst hg
      simp [shown_showValue_self ha]
    · simp [shown_showValue_graph key value key hg, hg]

theorem shown_foldl_showValue_other {g : GraphId} {key' : String} (hk : key' ≠ key) :
    ∀ (views : List GraphId) {s : Scene}, s.ClearlyBound g →
      (views.foldl (showValue key value) s).shown g key' = s.shown g key'
  | [], _, _ => rfl
  | g' :: views, _, h => by
    rw [List.foldl_cons, shown_foldl_showValue_other hk views (h.showValue key value g'),
      shown_showValue_key h value hk]

end ShowAll

/-! ## Writes that are queued -/

@[simp] theorem isUiThread_modifyQueue (s : Scene) (q q' : QueueId) {f : UiQueue → UiQueue}
    (hf : ∀ queue, (f queue).thread = queue.thread) (t : Thread) :
    (s.modifyQueue q f).isUiThread q' t = s.isUiThread q' t := by
  simp only [isUiThread, modifyQueue]
  by_cases h : q = q'
  · subst h
    rw [Store.get?_modify_self]
    cases s.queues.get? q <;> simp [hf]
  · rw [Store.get?_modify_other _ _ h]

theorem isUiThread_post (s : Scene) (q q' : QueueId) (task : UiTask) (t : Thread) :
    (s.post q task).isUiThread q' t = s.isUiThread q' t :=
  isUiThread_modifyQueue s q q' (fun queue => by split <;> rfl) t

theorem pending_post {s : Scene} {q : QueueId} (h : s.Open q) (task : UiTask) :
    (s.post q task).pending q = s.pending q ++ [task] := by
  obtain ⟨queue, hq, ha⟩ := h
  simp [pending, post, modifyQueue, hq, ha]

theorem Open.post {s : Scene} {q : QueueId} (h : s.Open q) (task : UiTask) : (s.post q task).Open q := by
  obtain ⟨queue, hq, ha⟩ := h
  exact ⟨{ queue with pending := queue.pending ++ [task] }, by simp [Scene.post, modifyQueue, hq, ha], ha⟩

/-- A queue can change without a graph living or dying if it then keeps the graph as before. -/
theorem alive_modifyQueue (s : Scene) {q : QueueId} {f : UiQueue → UiQueue} (g : GraphId)
    (hf : ∀ queue, s.queues.get? q = some queue →
      ((f queue).alive && (f queue).pending.any (keeps g)) = (queue.alive && queue.pending.any (keeps g))) :
    (s.modifyQueue q f).alive g = s.alive g := by
  simp only [alive, modifyQueue, Store.modify, Store.get?] at hf ⊢
  congr 1
  rw [Bool.eq_iff_iff, List.any_eq_true, List.any_eq_true]
  constructor
  · rintro ⟨x, hx, hk⟩
    obtain ⟨i, hi⟩ := List.mem_iff_getElem?.1 hx
    rw [List.getElem?_modify] at hi
    obtain ⟨y, hy, rfl⟩ := Option.map_eq_some_iff.1 hi
    refine ⟨y, List.mem_of_getElem? hy, ?_⟩
    split at hk
    · rename_i h; subst h; rw [← hf y hy]; exact hk
    · exact hk
  · rintro ⟨y, hy, hk⟩
    obtain ⟨i, hi⟩ := List.mem_iff_getElem?.1 hy
    refine ⟨(if q = i then f else id) y, List.mem_iff_getElem?.2 ⟨i, ?_⟩, ?_⟩
    · rw [List.getElem?_modify, hi]
      split <;> rfl
    · split
      · rename_i h; subst h; rw [hf y hi]; exact hk
      · exact hk

theorem alive_post_applyData (s : Scene) (q : QueueId) (g : GraphId) (key : String) (value : Value) (g' : GraphId) :
    (s.post q (.applyData g key value)).alive g' = s.alive g' :=
  alive_modifyQueue s g' fun queue _ => by
    by_cases h : queue.alive = true
    · simp [h, keeps]
    · simp [h]

end LiveScreen.Scene
