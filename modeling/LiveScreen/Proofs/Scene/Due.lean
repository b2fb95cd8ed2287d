/-
What a graph is due to show for a key: what it will show once everything that
waits in a queue has been run. Running what waits does not change it (`due_runNext`);
a write that is queued becomes due (`due_update_queued`); a write made at once
becomes due only if nothing waits for the key (`due_update_inline`).
-/
import LiveScreen.Proofs.Scene.Push

namespace LiveScreen.Scene

/-- The value that was queued last to be written into a graph for a key, while it waits. -/
def lastWaiting (s : Scene) (q : QueueId) (g : GraphId) (key : String) : Option Value :=
  (s.waiting q g key).getLast?

/-- What a graph will show for a key once everything that waits in a queue has been run. -/
def due (s : Scene) (q : QueueId) (g : GraphId) (key : String) : List (Option Value) :=
  (s.shown g key).map fun x => (s.lastWaiting q g key).or x

/-- Only writes of data wait in a queue. -/
def OnlyWrites (s : Scene) (q : QueueId) : Prop :=
  ∀ task ∈ s.pending q, ∃ g key value, task = .applyData g key value

theorem due_eq_shown {s : Scene} {q : QueueId} (h : s.pending q = []) (g : GraphId) (key : String) :
    s.due q g key = s.shown g key := by
  simp [due, lastWaiting, waiting, h]

theorem due_congr {s s' : Scene} {q : QueueId} {g : GraphId} {key : String}
    (hp : s'.lastWaiting q g key = s.lastWaiting q g key) (hs : s'.shown g key = s.shown g key) :
    s'.due q g key = s.due q g key := by
  simp only [due, hp, hs]

/-! ## Running what waits -/

theorem runNext?_applyData {s : Scene} {q : QueueId} {t : Thread} {g : GraphId} {key : String} {value : Value}
    {rest : List UiTask} (h : s.pending q = .applyData g key value :: rest) :
    s.runNext? q t =
      some ((s.modifyQueue q fun queue => { queue with pending := rest }).showValue key value g) := by
  simp only [runNext?, h]
  rfl

theorem pending_modifyQueue {s : Scene} {q : QueueId} {task : UiTask} {rest : List UiTask}
    (h : s.pending q = task :: rest) :
    (s.modifyQueue q fun queue => { queue with pending := rest }).pending q = rest := by
  unfold pending at h ⊢
  cases hq : s.queues.get? q with
  | none => simp [hq] at h
  | some queue => simp [modifyQueue, hq]

theorem alive_dequeue {s : Scene} {q : QueueId} {g : GraphId} {key : String} {value : Value} {rest : List UiTask}
    (h : s.pending q = .applyData g key value :: rest) (g' : GraphId) :
    (s.modifyQueue q fun queue => { queue with pending := rest }).alive g' = s.alive g' := by
  refine alive_modifyQueue s g' fun queue hq => ?_
  simp only [pending, hq] at h
  simp [h, keeps]

theorem Open.modifyQueue {s : Scene} {q : QueueId} (h : s.Open q) {f : UiQueue → UiQueue}
    (hf : ∀ queue, (f queue).alive = queue.alive) : (s.modifyQueue q f).Open q := by
  obtain ⟨queue, hq, ha⟩ := h
  exact ⟨f queue, by simp [Scene.modifyQueue, hq], by rw [hf, ha]⟩

theorem Open.congr {s s' : Scene} {q : QueueId} (h : s.Open q) (hq : s'.queues = s.queues) : s'.Open q := by
  unfold Open at h ⊢; rw [hq]; exact h

theorem pending_congr {s s' : Scene} {q : QueueId} (hq : s'.queues = s.queues) : s'.pending q = s.pending q := by
  unfold pending; rw [hq]

theorem lastWaiting_congr {s s' : Scene} {q : QueueId} (hq : s'.queues = s.queues) (g : GraphId) (key : String) :
    s'.lastWaiting q g key = s.lastWaiting q g key := by
  unfold lastWaiting waiting; rw [pending_congr hq]

theorem shown_congr {s s' : Scene} (hg : s'.graphs = s.graphs) (g : GraphId) (key : String) :
    s'.shown g key = s.shown g key := by
  unfold shown; rw [hg]

/-- Running the first write that waits changes nothing that is due. -/
theorem due_runNext {s : Scene} {q : QueueId} {t : Thread} {g' : GraphId} {key' : String} {value : Value}
    {rest : List UiTask} (h : s.pending q = .applyData g' key' value :: rest) {g : GraphId}
    (ha : s.alive g = true) (hc : s.ClearlyBound g) (key : String) :
    ((s.runNext? q t).getD s).due q g key = s.due q g key := by
  simp only [runNext?_applyData h, Option.getD_some]
  generalize hs₁ : (s.modifyQueue q fun queue => { queue with pending := rest }) = s₁
  have hp : s₁.pending q = rest := hs₁ ▸ pending_modifyQueue h
  have hg : s₁.shown g key = s.shown g key := by rw [← hs₁]; rfl
  have ha₁ : s₁.alive g = true := by rw [← hs₁, alive_dequeue h, ha]
  have hc₁ : s₁.ClearlyBound g := by rw [← hs₁]; exact hc
  have hl : (s₁.showValue key' value g').lastWaiting q g key = (rest.filterMap (written? g key)).getLast? := by
    rw [lastWaiting_congr (queues_showValue ..), lastWaiting, waiting, hp]
  by_cases hgk : g' = g ∧ key' = key
  · obtain ⟨rfl, rfl⟩ := hgk
    have hw : s.waiting q g' key' = value :: rest.filterMap (written? g' key') := by
      simp [waiting, h, written?]
    rw [due, due, hl, shown_showValue_self ha₁, hg, lastWaiting, hw, List.map_map]
    refine List.map_congr_left fun x _ => ?_
    rw [List.getLast?_cons]
    cases (rest.filterMap (written? g' key')).getLast? <;> rfl
  · have hw : s.waiting q g key = rest.filterMap (written? g key) := by
      simp [waiting, h, written?, hgk]
    refine due_congr (by rw [hl, lastWaiting, hw]) ?_
    by_cases hgg : g = g'
    · subst hgg
      rw [shown_showValue_key hc₁ value (fun e => hgk ⟨rfl, e.symm⟩), hg]
    · rw [shown_showValue_graph _ _ _ hgg, hg]

/-! ## Storing a value -/

/-- A binder after a value was stored and the views that are dead were forgotten. -/
def stored (s : Scene) (b : BinderId) (binder : Binder) (key : String) (value : Value) : Scene :=
  s.modifyBinder b fun binder' =>
    { binder' with values := binder'.values.insert key value, views := binder.views.filter s.alive }

theorem update_inline {s : Scene} {b : BinderId} {binder : Binder} (hb : s.binders.get? b = some binder)
    {t : Thread} (hi : ∀ q, binder.ui = some q → s.isUiThread q t = true) (key : String) (value : Value) :
    s.update t b key value =
      (binder.views.filter s.alive).foldl (showValue key value) (s.stored b binder key value) := by
  have push : ∀ (views : List GraphId) (s' : Scene), (∀ q, s'.isUiThread q t = s.isUiThread q t) →
      views.foldl (pushValue t binder.ui key value) s' = views.foldl (showValue key value) s' := by
    intro views
    induction views with
    | nil => intros; rfl
    | cons g views ih =>
      intro s' hs
      have hstep : pushValue t binder.ui key value s' g = s'.showValue key value g := by
        cases hu : binder.ui with
        | none => rfl
        | some q => simp only [pushValue, dispatch, hs q, hi q hu, if_true]; rfl
      rw [List.foldl_cons, List.foldl_cons, hstep]
      refine ih _ fun q => ?_
      rw [← hs q]
      simp only [isUiThread, queues_showValue]
  simp only [update, hb]
  exact push _ _ fun _ => rfl

theorem update_queued {s : Scene} {b : BinderId} {binder : Binder} (hb : s.binders.get? b = some binder)
    {t : Thread} {q : QueueId} (hu : binder.ui = some q) (hn : s.isUiThread q t = false) (key : String)
    (value : Value) :
    s.update t b key value =
      (binder.views.filter s.alive).foldl (fun s g => s.post q (.applyData g key value))
        (s.stored b binder key value) := by
  have push : ∀ (views : List GraphId) (s' : Scene), s'.isUiThread q t = false →
      views.foldl (pushValue t binder.ui key value) s' =
        views.foldl (fun s g => s.post q (.applyData g key value)) s' := by
    intro views
    induction views with
    | nil => intros; rfl
    | cons g views ih =>
      intro s' hs
      rw [List.foldl_cons, List.foldl_cons]
      have hstep : pushValue t binder.ui key value s' g = s'.post q (.applyData g key value) := by
        simp [hu, pushValue, dispatch, hs]
      rw [hstep]
      exact ih _ (by rw [isUiThread_post, hs])
  simp only [update, hb]
  exact push _ _ hn

/-- Queueing a write for one view after the other: the tasks wait behind the others. -/
theorem foldl_post_frame {q : QueueId} (key : String) (value : Value) : ∀ (views : List GraphId) {s : Scene},
    s.Open q →
      let s' := views.foldl (fun s g => s.post q (.applyData g key value)) s
      s'.graphs = s.graphs ∧ s'.binders = s.binders ∧ s'.Open q ∧ (∀ g, s'.alive g = s.alive g) ∧
        (∀ t, s'.isUiThread q t = s.isUiThread q t) ∧
          s'.pending q = s.pending q ++ views.map fun g => .applyData g key value
  | [], s, h => ⟨rfl, rfl, h, fun _ => rfl, fun _ => rfl, by simp⟩
  | g :: views, s, h => by
    obtain ⟨hg, hb, ho, ha, ht, hp⟩ := foldl_post_frame key value views (h.post (.applyData g key value))
    refine ⟨hg, hb, ho, fun g' => ?_, fun t => ?_, ?_⟩
    · rw [List.foldl_cons, ha, alive_post_applyData]
    · rw [List.foldl_cons, ht, isUiThread_post]
    · rw [List.foldl_cons, hp, pending_post h, List.append_assoc]
      rfl

theorem filterMap_written {views : List GraphId} {g : GraphId} {key key' : String} {value : Value} :
    ((views.map fun g => UiTask.applyData g key value).filterMap (written? g key')).getLast? =
      if g ∈ views ∧ key' = key then some value else none := by
  induction views with
  | nil => simp
  | cons g' views ih =>
    simp only [List.map_cons, List.filterMap_cons, written?]
    by_cases h : g' = g ∧ key = key'
    · obtain ⟨rfl, rfl⟩ := h
      simp only [and_self, if_true, List.getLast?_cons, ih]
      by_cases hm : g' ∈ views <;> simp [hm]
    · simp only [h, if_false, ih]
      by_cases hk : key' = key
      · have hg : g ≠ g' := fun e => h ⟨e.symm, hk.symm⟩
        simp [hg]
      · simp [hk]

/-! ## What a store does to what is due -/

section Update

variable {s : Scene} {b : BinderId} {binder : Binder} {q : QueueId} {g : GraphId}

theorem get?_stored (hb : s.binders.get? b = some binder) (key : String) (value : Value) :
    (s.stored b binder key value).binders.get? b =
      some { binder with values := binder.values.insert key value, views := binder.views.filter s.alive } := by
  simp [stored, modifyBinder, hb]

theorem lastWaiting_update_inline (hb : s.binders.get? b = some binder) {t : Thread}
    (hi : ∀ q, binder.ui = some q → s.isUiThread q t = true) (key : String) (value : Value) (key' : String) :
    (s.update t b key value).lastWaiting q g key' = s.lastWaiting q g key' := by
  rw [update_inline hb hi]
  exact lastWaiting_congr (foldl_showValue_frame key value _ _).2.1 g key'

theorem lastWaiting_update_queued (hb : s.binders.get? b = some binder) (ho : s.Open q) {t : Thread}
    (hu : binder.ui = some q) (hn : s.isUiThread q t = false) (key : String) (value : Value) (key' : String) :
    (s.update t b key value).lastWaiting q g key' =
      if g ∈ binder.views.filter s.alive ∧ key' = key then some value else s.lastWaiting q g key' := by
  have hp := (foldl_post_frame key value (binder.views.filter s.alive)
    (s := s.stored b binder key value) (q := q) ho).2.2.2.2.2
  rw [update_queued hb hu hn, lastWaiting, waiting, hp, List.filterMap_append, List.getLast?_append,
    filterMap_written]
  split <;> rfl

/-- A write made at once is due if nothing waits for the key; else what waits stays due. -/
theorem due_update_inline (hb : s.binders.get? b = some binder) {t : Thread}
    (hi : ∀ q, binder.ui = some q → s.isUiThread q t = true) (ha : s.alive g = true)
    (hg : g ∈ binder.views) (key : String) (value : Value) :
    (s.update t b key value).due q g key =
      (s.shown g key).map fun _ => (s.lastWaiting q g key).or (some value) := by
  rw [due, lastWaiting_update_inline hb hi, update_inline hb hi,
    shown_foldl_showValue_self key value _ (by exact ha), if_pos (List.mem_filter.2 ⟨hg, ha⟩), List.map_map]
  rfl

/-- A write that is queued for a view is due. -/
theorem due_update_queued (hb : s.binders.get? b = some binder) (ho : s.Open q) {t : Thread}
    (hu : binder.ui = some q) (hn : s.isUiThread q t = false) (ha : s.alive g = true)
    (hg : g ∈ binder.views) (key : String) (value : Value) :
    (s.update t b key value).due q g key = (s.shown g key).map fun _ => some value := by
  have hs : (s.update t b key value).shown g key = s.shown g key := by
    rw [update_queued hb hu hn]
    exact shown_congr (foldl_post_frame key value _ (s := s.stored b binder key value) ho).1 g key
  rw [due, hs, lastWaiting_update_queued hb ho hu hn, if_pos ⟨List.mem_filter.2 ⟨hg, ha⟩, rfl⟩]
  rfl

/-- A store changes nothing that is due for another key. -/
theorem due_update_other (hb : s.binders.get? b = some binder) (ho : s.Open q)
    (hu : ∀ q', binder.ui = some q' → q' = q) (hc : s.ClearlyBound g) (t : Thread) {key key' : String}
    (value : Value) (hk : key' ≠ key) : (s.update t b key value).due q g key' = s.due q g key' := by
  by_cases hi : ∀ q, binder.ui = some q → s.isUiThread q t = true
  · refine due_congr (lastWaiting_update_inline hb hi key value key') ?_
    rw [update_inline hb hi, shown_foldl_showValue_other key value hk _ (by exact hc)]
    rfl
  · obtain ⟨q', hq', hn⟩ : ∃ q', binder.ui = some q' ∧ s.isUiThread q' t = false := by
      simpa using hi
    obtain rfl := hu q' hq'
    refine due_congr ?_ ?_
    · rw [lastWaiting_update_queued hb ho hq' hn, if_neg fun h => hk h.2]
    · rw [update_queued hb hq' hn]
      exact shown_congr (foldl_post_frame key value _ (s := s.stored b binder key value) ho).1 g key'

end Update

/-! ## Attaching a view -/

section AddView

variable {s : Scene} {b : BinderId} {binder : Binder} {q : QueueId} {g : GraphId}

theorem addView_eq (hb : s.binders.get? b = some binder) (g : GraphId) :
    s.addView b g =
      (s.modifyBinder b fun binder => { binder with views := binder.views ++ [g] }).modifyGraph g
        (·.applyAll binder.values.entries) := by
  simp only [addView, hb]

theorem alive_addView (b : BinderId) (g g' : GraphId) : (s.addView b g).alive g' = s.alive g' := by
  unfold addView
  split
  · rfl
  · rename_i binder hb
    refine (alive_modifyGraph _ g (f := (·.applyAll binder.values.entries)) (fun graph => ?_) g').trans rfl
    exact Graph.holders_applyAll graph binder.values.entries

theorem queues_addView (b : BinderId) (g : GraphId) : (s.addView b g).queues = s.queues := by
  unfold addView
  split <;> rfl

theorem ClearlyBound.addView {g' : GraphId} (h : s.ClearlyBound g') (b : BinderId) (g : GraphId) :
    (s.addView b g).ClearlyBound g' := by
  unfold Scene.addView
  split
  · exact h
  · intro graph hg
    simp only [modifyGraph, Table.get?_modify] at hg
    split at hg
    · rename_i hgg
      subst hgg
      obtain ⟨graph', hg', rfl⟩ := Option.map_eq_some_iff.1 hg
      exact (h graph' hg').applyAll _
    · exact h graph hg

/-- A view that is attached shows what the binder holds. -/
theorem shown_addView_self (hb : s.binders.get? b = some binder) (hc : s.ClearlyBound g) {key : String}
    {value : Value} (hv : binder.values.get? key = some value) :
    (s.addView b g).shown g key = (s.shown g key).map fun _ => some value := by
  simp only [addView_eq hb, shown, modifyGraph, Table.get?_modify_self]
  cases hg : s.graphs.get? g with
  | none => simp [modifyBinder, hg]
  | some graph =>
    have hl : Table.lookup key binder.values.entries = some value := hv
    simp only [modifyBinder, hg, Option.map_some]
    rw [Graph.shown_applyAll key (hc graph hg) _ binder.values.nodup, hl]

theorem shown_addView_other {g' : GraphId} (b : BinderId) (hg : g' ≠ g) (key : String) :
    (s.addView b g).shown g' key = s.shown g' key := by
  unfold addView
  split
  · rfl
  · simp [shown, modifyGraph, Table.get?_modify_other _ _ hg, modifyBinder]

end AddView

end LiveScreen.Scene
