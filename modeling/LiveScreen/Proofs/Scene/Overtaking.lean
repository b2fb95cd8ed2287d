/-
When attached views show what their binder holds, once nothing waits any more.
Values reach a view on two ways: at once on the UI thread, through the queue from
every other. A value stored on the UI thread while another one for its key still
waits is overtaken by it: the older value is written last, and stays
(`oneLabel_overtaken`). A view shows the stored value exactly if that did not happen
since (`shows_stored_iff_not_overtaken`).
-/
import LiveScreen.Proofs.Scene.Due
import Mathlib.Data.List.Induction

namespace LiveScreen.Scene

/-- What is done to a binder, to its views and to the queue they are updated through. -/
inductive BinderMove where
  /-- From now on the binder updates its views through the queue. -/
  | useQueue
  /-- A value is stored. -/
  | update (thread : Thread) (key : String) (value : Value)
  /-- A graph is attached. -/
  | addView (graph : GraphId)
  /-- The first task that waits is run. -/
  | runNext (thread : Thread)
  /-- The queue is polled. -/
  | poll (thread : Thread)

/-- One move at a binder and its queue. -/
def moved (b : BinderId) (q : QueueId) (s : Scene) : BinderMove → Scene
  | .useQueue => s.setBinderUi b q
  | .update t key value => s.update t b key value
  | .addView g => s.addView b g
  | .runNext t => (s.runNext? q t).getD s
  | .poll t => (s.poll q t).2

/-- Moves at a binder and its queue, one after the other. -/
def movedAll (b : BinderId) (q : QueueId) (s : Scene) (moves : List BinderMove) : Scene :=
  moves.foldl (moved b q) s

/-! ## What moves keep -/

/-- A binder, its queue and a living graph as moves keep them: only writes wait, and none for the
graph as long as it is not attached or the binder does not use the queue. -/
structure Tracked (b : BinderId) (q : QueueId) (g : GraphId) (binder : Binder) (s : Scene) : Prop where
  known : s.binders.get? b = some binder
  takes : s.Open q
  writes : s.OnlyWrites q
  alive : s.alive g = true
  bound : s.ClearlyBound g
  ui : binder.ui = some q ∨ binder.ui = none ∧ ∀ key, s.lastWaiting q g key = none
  attached : g ∉ binder.views → ∀ key, s.lastWaiting q g key = none

namespace Tracked

variable {b : BinderId} {q : QueueId} {g : GraphId} {binder : Binder} {s s' : Scene}

theorem ui_eq (h : Tracked b q g binder s) : ∀ q', binder.ui = some q' → q' = q := by
  intro q' hq'
  rcases h.ui with hu | ⟨hu, -⟩
  · rw [hu] at hq'; exact (Option.some.inj hq').symm
  · rw [hu] at hq'; cases hq'

/-- A store is made at once, or it is queued. -/
theorem inline_or_queued (h : Tracked b q g binder s) (t : Thread) :
    (∀ q', binder.ui = some q' → s.isUiThread q' t = true) ∨
      (binder.ui = some q ∧ s.isUiThread q t = false) := by
  rcases h.ui with hu | ⟨hu, -⟩
  · cases ht : s.isUiThread q t with
    | true =>
      left
      intro q' hq'
      rw [h.ui_eq q' hq', ht]
    | false => exact .inr ⟨hu, rfl⟩
  · left
    intro q' hq'
    rw [hu] at hq'
    cases hq'

theorem lastWaiting_of_pending_cons {task : UiTask} {rest : List UiTask} (hp : s.pending q = task :: rest)
    (hp' : s'.pending q = rest) {key : String} (h : s.lastWaiting q g key = none) :
    s'.lastWaiting q g key = none := by
  rw [lastWaiting, waiting, List.getLast?_eq_none_iff] at h ⊢
  rw [hp, List.filterMap_cons] at h
  rw [hp']
  split at h
  · exact h
  · cases h

/-- One task that is run: everything due stays due. -/
theorem runNext (h : Tracked b q g binder s) {t : Thread} (hr : s.runNext? q t = some s') :
    Tracked b q g binder s' ∧ ∀ key, s'.due q g key = s.due q g key := by
  cases hp : s.pending q with
  | nil => simp [runNext?, hp] at hr
  | cons task rest =>
    obtain ⟨g', key', value, rfl⟩ := h.writes task (by simp [hp])
    have hdue := due_runNext (t := t) hp h.alive h.bound
    rw [hr] at hdue
    rw [runNext?_applyData hp] at hr
    have hs' := Option.some.inj hr
    have hp' : s'.pending q = rest := by
      rw [← hs', pending_congr (queues_showValue ..), pending_modifyQueue hp]
    refine ⟨⟨?_, ?_, ?_, ?_, ?_, ?_, ?_⟩, hdue⟩
    · rw [← hs', binders_showValue]
      exact h.known
    · rw [← hs']
      exact (h.takes.modifyQueue (f := fun queue => { queue with pending := rest }) fun _ => rfl).congr
        (queues_showValue ..)
    · intro task ht
      rw [hp'] at ht
      exact h.writes task (by simp [hp, ht])
    · rw [← hs', alive_showValue, alive_dequeue hp, h.alive]
    · rw [← hs']
      exact ClearlyBound.showValue (s := s.modifyQueue q _) h.bound key' value g'
    · exact h.ui.imp_right fun hu => ⟨hu.1, fun key => lastWaiting_of_pending_cons hp hp' (hu.2 key)⟩
    · exact fun hg key => lastWaiting_of_pending_cons hp hp' (h.attached hg key)

/-- A queue that is polled: everything due stays due. -/
theorem pollFor (t : Thread) : ∀ (n : Nat) {s : Scene}, Tracked b q g binder s →
    Tracked b q g binder (s.pollFor q t n).2 ∧ ∀ key, (s.pollFor q t n).2.due q g key = s.due q g key
  | 0, _, h => ⟨h, fun _ => rfl⟩
  | n + 1, s, h => by
    unfold Scene.pollFor
    cases hr : s.runNext? q t with
    | none => exact ⟨h, fun _ => rfl⟩
    | some s' =>
      obtain ⟨h', hd⟩ := h.runNext hr
      obtain ⟨h'', hd'⟩ := pollFor t n h'
      exact ⟨h'', fun key => (hd' key).trans (hd key)⟩

/-- A store keeps what is tracked. -/
theorem update (h : Tracked b q g binder s) (t : Thread) (key : String) (value : Value) :
    Tracked b q g
      { binder with values := binder.values.insert key value, views := binder.views.filter s.alive }
      (s.update t b key value) := by
  have hk := get?_stored h.known key value
  have hgone : g ∉ binder.views.filter s.alive → g ∉ binder.views :=
    fun hg hv => hg (List.mem_filter.2 ⟨hv, h.alive⟩)
  rcases h.inline_or_queued t with hi | ⟨hu, hn⟩
  · have hc := ClearlyBound.foldl_showValue key value (g := g) (binder.views.filter s.alive)
      (s := s.stored b binder key value) h.bound
    obtain ⟨hb, hq, ha⟩ :=
      foldl_showValue_frame key value (binder.views.filter s.alive) (s.stored b binder key value)
    rw [← update_inline h.known hi] at hc hb hq ha
    refine ⟨?_, h.takes.congr hq, ?_, (ha g).trans h.alive, hc, ?_, ?_⟩
    · rw [hb, hk]
    · intro task ht
      rw [pending_congr hq] at ht
      exact h.writes task ht
    · exact h.ui.imp_right fun hu => ⟨hu.1, fun key' => (lastWaiting_congr hq g key').trans (hu.2 key')⟩
    · exact fun hg key' => (lastWaiting_congr hq g key').trans (h.attached (hgone hg) key')
  · have hf := foldl_post_frame (q := q) key value (binder.views.filter s.alive)
      (s := s.stored b binder key value) h.takes
    simp only [← update_queued h.known hu hn] at hf
    obtain ⟨hg, hb, ho, ha, -, hp⟩ := hf
    refine ⟨?_, ho, ?_, (ha g).trans h.alive, fun graph hgraph => h.bound graph ?_, .inl hu, ?_⟩
    · rw [hb, hk]
    · intro task htask
      rw [hp, List.mem_append] at htask
      rcases htask with htask | htask
      · exact h.writes task htask
      · obtain ⟨g', -, rfl⟩ := List.mem_map.1 htask
        exact ⟨g', key, value, rfl⟩
    · rw [hg] at hgraph
      exact hgraph
    · intro hv key'
      rw [lastWaiting_update_queued h.known h.takes hu hn, if_neg fun hm => hv hm.1]
      exact h.attached (hgone hv) key'

/-- Attaching a graph keeps what is tracked. -/
theorem addView (h : Tracked b q g binder s) (g' : GraphId) :
    Tracked b q g { binder with views := binder.views ++ [g'] } (s.addView b g') := by
  have hq := queues_addView (s := s) b g'
  refine ⟨?_, h.takes.congr hq, ?_, ?_, h.bound.addView b g', ?_, ?_⟩
  · simp [addView_eq h.known, modifyBinder, h.known]
  · intro task ht
    rw [pending_congr hq] at ht
    exact h.writes task ht
  · rw [alive_addView, h.alive]
  · exact h.ui.imp_right fun hu => ⟨hu.1, fun key => (lastWaiting_congr hq g key).trans (hu.2 key)⟩
  · intro hv key
    rw [lastWaiting_congr hq]
    exact h.attached (fun hm => hv (List.mem_append_left _ hm)) key

/-- Giving the binder the queue keeps what is tracked. -/
theorem useQueue (h : Tracked b q g binder s) : Tracked b q g { binder with ui := some q } (s.setBinderUi b q) :=
  ⟨by simp [setBinderUi, modifyBinder, h.known], h.takes, h.writes, h.alive, h.bound, .inl rfl, h.attached⟩

end Tracked

/-! ## Overtaking -/

/-- The value stored last for a key was overtaken at a graph: it was stored on the UI thread while
another value still waited to be written, and since then the graph was not attached again with
nothing left to wait for the key. -/
def Overtaken (b : BinderId) (q : QueueId) (s : Scene) (g : GraphId) (key : String)
    (moves : List BinderMove) : Prop :=
  ∃ before t value after older, moves = before ++ .update t key value :: after ∧
    (s.movedAll b q before).isUiThread q t = true ∧
      (s.movedAll b q before).lastWaiting q g key = some older ∧ older ≠ value ∧
        (∀ t' value', .update t' key value' ∉ after) ∧
          ∀ mid rest, after = mid ++ .addView g :: rest →
            (s.movedAll b q (before ++ .update t key value :: mid)).lastWaiting q g key ≠ none

/-- Whether the stored value is overtaken after one more move, made in a scene. -/
def overtakenNext (q : QueueId) (s : Scene) (g : GraphId) (key : String) (overtaken : Prop) : BinderMove → Prop
  | .update t key' value =>
    if key' = key then s.isUiThread q t = true ∧ ∃ older, s.lastWaiting q g key = some older ∧ older ≠ value
    else overtaken
  | .addView g' => overtaken ∧ (g' = g → s.lastWaiting q g key ≠ none)
  | _ => overtaken

section Overtaken

variable {b : BinderId} {q : QueueId} {s : Scene} {g : GraphId} {key : String}

theorem movedAll_concat (moves : List BinderMove) (m : BinderMove) :
    s.movedAll b q (moves ++ [m]) = (s.movedAll b q moves).moved b q m := by
  simp [movedAll]

theorem not_overtaken_nil : ¬ Overtaken b q s g key [] := by
  rintro ⟨before, t, value, after, older, h, -⟩
  cases before <;> cases h

/-- A store of the key decides anew whether its value is overtaken. -/
theorem overtaken_concat_update {moves : List BinderMove} {t : Thread} {value : Value} :
    Overtaken b q s g key (moves ++ [.update t key value]) ↔
      (s.movedAll b q moves).isUiThread q t = true ∧
        ∃ older, (s.movedAll b q moves).lastWaiting q g key = some older ∧ older ≠ value := by
  constructor
  · rintro ⟨before, t', value', after, older, h, ht, hw, hne, hlast, -⟩
    rcases List.eq_nil_or_concat after with rfl | ⟨after, m, rfl⟩
    · obtain ⟨rfl, hm⟩ := List.append_inj' h rfl
      cases hm
      exact ⟨ht, older, hw, hne⟩
    · rw [List.concat_eq_append, ← List.cons_append, ← List.append_assoc] at h
      obtain ⟨-, hm⟩ := List.append_inj' h rfl
      cases hm
      exact absurd (by simp) (hlast t value)
  · rintro ⟨ht, older, hw, hne⟩
    refine ⟨moves, t, value, [], older, rfl, ht, hw, hne, by simp, fun mid rest h => ?_⟩
    cases mid <;> cases h

/-- Any other move keeps a value overtaken, unless it attaches the graph when nothing waits. -/
theorem overtaken_concat_other {moves : List BinderMove} {m : BinderMove}
    (hm : ∀ t value, m ≠ .update t key value) :
    Overtaken b q s g key (moves ++ [m]) ↔
      Overtaken b q s g key moves ∧ (m = .addView g → (s.movedAll b q moves).lastWaiting q g key ≠ none) := by
  constructor
  · rintro ⟨before, t, value, after, older, h, ht, hw, hne, hlast, hadd⟩
    rcases List.eq_nil_or_concat after with rfl | ⟨after, m', rfl⟩
    · obtain ⟨-, hm'⟩ := List.append_inj' h rfl
      exact absurd (List.cons.inj hm').1 (hm t value)
    · rw [List.concat_eq_append] at h hlast hadd
      rw [← List.cons_append, ← List.append_assoc] at h
      obtain ⟨hmoves, hm'⟩ := List.append_inj' h rfl
      cases hm'
      refine ⟨⟨before, t, value, after, older, hmoves, ht, hw, hne, fun t' value' hmem =>
        hlast t' value' (List.mem_append_left _ hmem), fun mid rest hmid => ?_⟩, fun hmg => ?_⟩
      · exact hadd mid (rest ++ [m]) (by simp [hmid])
      · subst hmg
        rw [hmoves]
        exact hadd after [] rfl
  · rintro ⟨⟨before, t, value, after, older, rfl, ht, hw, hne, hlast, hadd⟩, hmg⟩
    refine ⟨before, t, value, after ++ [m], older, by simp, ht, hw, hne, fun t' value' hmem => ?_,
      fun mid rest hmid => ?_⟩
    · rcases List.mem_append.1 hmem with hmem | hmem
      · exact hlast t' value' hmem
      · exact hm t' value' (List.mem_singleton.1 hmem).symm
    · rcases List.eq_nil_or_concat rest with rfl | ⟨rest, m', rfl⟩
      · obtain ⟨rfl, hm'⟩ := List.append_inj' hmid rfl
        exact hmg (List.cons.inj hm').1
      · rw [List.concat_eq_append, ← List.cons_append, ← List.append_assoc] at hmid
        exact hadd mid rest (List.append_inj' hmid rfl).1

/-- Whether a value is overtaken, move by move. -/
theorem overtaken_concat (moves : List BinderMove) (m : BinderMove) :
    Overtaken b q s g key (moves ++ [m]) ↔
      overtakenNext q (s.movedAll b q moves) g key (Overtaken b q s g key moves) m := by
  cases m with
  | update t key' value =>
    by_cases hk : key' = key
    · subst hk
      rw [overtaken_concat_update, overtakenNext, if_pos rfl]
    · rw [overtaken_concat_other (by intro _ _ he; cases he; exact hk rfl), overtakenNext, if_neg hk]
      exact and_iff_left nofun
  | addView g' =>
    rw [overtaken_concat_other (by intro _ _ he; cases he), overtakenNext, BinderMove.addView.injEq]
  | useQueue | runNext | poll =>
    rw [overtaken_concat_other (by intro _ _ he; cases he)]
    exact and_iff_left nofun

end Overtaken

/-! ## What is due -/

/-- What a graph is due to show once it is among the views of a binder: what is stored, unless it is
overtaken. -/
def Accounted (q : QueueId) (g : GraphId) (binder : Binder) (s : Scene) (overtaken : String → Prop) : Prop :=
  g ∈ binder.views → ∀ key value, binder.values.get? key = some value →
    ∀ x ∈ s.due q g key, (x = some value ↔ ¬ overtaken key)

section Accounted

variable {b : BinderId} {q : QueueId} {g : GraphId} {binder : Binder} {s : Scene} {overtaken : String → Prop}

theorem Accounted.congr (h : Accounted q g binder s overtaken) {s' : Scene} {binder' : Binder}
    (hg : g ∈ binder'.views → g ∈ binder.views) (hv : binder'.values = binder.values)
    (hd : ∀ key, s'.due q g key = s.due q g key) : Accounted q g binder' s' overtaken := by
  intro hmem key value hvalue x hx
  rw [hv] at hvalue
  rw [hd] at hx
  exact h (hg hmem) key value hvalue x hx

/-- A value stored at once is due unless an older one waits; a value that is queued is due. -/
theorem Accounted.update (h : Accounted q g binder s overtaken) (ht : Tracked b q g binder s)
    (t : Thread) (key : String) (value : Value) :
    Accounted q g
      { binder with values := binder.values.insert key value, views := binder.views.filter s.alive }
      (s.update t b key value) fun k => overtakenNext q s g k (overtaken k) (.update t key value) := by
  intro hg k v hv x hx
  have hg' : g ∈ binder.views := (List.mem_filter.1 hg).1
  by_cases hk : k = key
  · subst hk
    obtain rfl : value = v := by simpa using hv
    simp only [overtakenNext, if_true]
    rcases ht.inline_or_queued t with hi | ⟨hu, hn⟩
    · rw [due_update_inline ht.known hi ht.alive hg', List.mem_map] at hx
      obtain ⟨-, -, rfl⟩ := hx
      cases hw : s.lastWaiting q g k with
      | none => simp
      | some older =>
        have huse : binder.ui = some q := by
          rcases ht.ui with hu | ⟨-, hnone⟩
          · exact hu
          · rw [hnone] at hw; cases hw
        simp [hi q huse]
    · rw [due_update_queued ht.known ht.takes hu hn ht.alive hg', List.mem_map] at hx
      obtain ⟨-, -, rfl⟩ := hx
      simp [hn]
  · rw [due_update_other ht.known ht.takes ht.ui_eq ht.bound t value hk] at hx
    simp only [Table.get?_insert_other _ _ hk] at hv
    simp only [overtakenNext, if_neg (Ne.symm hk)]
    exact h hg' k v hv x hx

/-- A graph that is attached shows what is stored, until what waits for it is written. -/
theorem Accounted.addView (h : Accounted q g binder s overtaken) (ht : Tracked b q g binder s) (g' : GraphId) :
    Accounted q g { binder with views := binder.views ++ [g'] } (s.addView b g')
      fun k => overtakenNext q s g k (overtaken k) (.addView g') := by
  have hw : ∀ k, (s.addView b g').lastWaiting q g k = s.lastWaiting q g k :=
    fun k => lastWaiting_congr (queues_addView b g') g k
  intro hg k v hv x hx
  simp only [overtakenNext]
  by_cases hgg : g' = g
  · subst hgg
    rw [due, shown_addView_self ht.known ht.bound hv, List.map_map, List.mem_map] at hx
    obtain ⟨y, hy, rfl⟩ := hx
    simp only [Function.comp_apply, hw]
    cases hl : s.lastWaiting q g' k with
    | none => simp
    | some older =>
      have hmem : g' ∈ binder.views := by
        refine Decidable.byContradiction fun hn => ?_
        rw [ht.attached hn] at hl
        cases hl
      have hdue : some older ∈ s.due q g' k := List.mem_map.2 ⟨y, hy, by rw [hl]; rfl⟩
      simpa using h hmem k v hv _ hdue
  · have hmem : g ∈ binder.views := by
      rcases List.mem_append.1 hg with hmem | hmem
      · exact hmem
      · exact absurd (List.mem_singleton.1 hmem).symm hgg
    rw [due_congr (hw k) (shown_addView_other b (Ne.symm hgg) k)] at hx
    simpa [hgg] using h hmem k v hv x hx

/-- One move: the binder stays tracked, and the graph accounted for. -/
theorem Accounted.moved (h : Accounted q g binder s overtaken) (ht : Tracked b q g binder s) (m : BinderMove) :
    ∃ binder', Tracked b q g binder' (s.moved b q m) ∧
      Accounted q g binder' (s.moved b q m) fun k => overtakenNext q s g k (overtaken k) m := by
  cases m with
  | useQueue => exact ⟨_, ht.useQueue, h.congr id rfl fun _ => rfl⟩
  | update t key value => exact ⟨_, ht.update t key value, h.update ht t key value⟩
  | addView g' => exact ⟨_, ht.addView g', h.addView ht g'⟩
  | runNext t =>
    cases hr : s.runNext? q t with
    | none => exact ⟨binder, by simpa [Scene.moved, hr] using ⟨ht, h⟩⟩
    | some s' =>
      obtain ⟨ht', hd⟩ := ht.runNext hr
      simp only [Scene.moved, hr]
      exact ⟨binder, ht', h.congr id rfl hd⟩
  | poll t =>
    obtain ⟨ht', hd⟩ := ht.pollFor t _
    exact ⟨binder, ht', h.congr id rfl hd⟩

/-- Moves in any order: a value is due exactly if it was not overtaken. -/
theorem Accounted.movedAll (h : Accounted q g binder s fun _ => False) (ht : Tracked b q g binder s)
    (moves : List BinderMove) :
    ∃ binder', Tracked b q g binder' (s.movedAll b q moves) ∧
      Accounted q g binder' (s.movedAll b q moves) fun k => Overtaken b q s g k moves := by
  induction moves using List.reverseRecOn with
  | nil =>
    simp only [not_overtaken_nil]
    exact ⟨binder, ht, h⟩
  | append_singleton moves m ih =>
    obtain ⟨binder', ht', hacc⟩ := ih
    rw [movedAll_concat]
    simp only [overtaken_concat]
    exact hacc.moved ht' m

end Accounted

/-! ## What is shown -/

/-- A living graph before anything waits for it: the queue takes tasks, only writes to other graphs
wait in it, the binder uses it or none yet, and if the graph is attached it shows what is stored. -/
structure AtRest (b : BinderId) (q : QueueId) (g : GraphId) (binder : Binder) (s : Scene) : Prop where
  known : s.binders.get? b = some binder
  ui : binder.ui = some q ∨ binder.ui = none
  takes : s.Open q
  writes : s.OnlyWrites q
  alive : s.alive g = true
  bound : s.ClearlyBound g
  idle : ∀ key, s.lastWaiting q g key = none
  shows : g ∈ binder.views → ∀ key value, binder.values.get? key = some value →
    ∀ x ∈ s.shown g key, x = some value

section AtRest

variable {b : BinderId} {q : QueueId} {g : GraphId} {binder : Binder} {s : Scene}

theorem AtRest.tracked (h : AtRest b q g binder s) : Tracked b q g binder s :=
  ⟨h.known, h.takes, h.writes, h.alive, h.bound, h.ui.imp_right fun hu => ⟨hu, h.idle⟩, fun _ => h.idle⟩

theorem AtRest.accounted (h : AtRest b q g binder s) : Accounted q g binder s fun _ => False := by
  intro hg key value hv x hx
  simp only [due, h.idle, Option.none_or, List.map_id'] at hx
  simpa using h.shows hg key value hv x hx

/-- **When bound attributes show what is stored.** After any moves at a binder and its queue that
leave nothing waiting, every attribute of an attached living graph that is bound to a stored key
shows the stored value exactly if that value was not overtaken. -/
theorem shows_stored_iff_not_overtaken (h : AtRest b q g binder s) (moves : List BinderMove)
    (hidle : (s.movedAll b q moves).pending q = []) {binder' : Binder}
    (hb : (s.movedAll b q moves).binders.get? b = some binder') (hg : g ∈ binder'.views) {graph : Graph}
    (hgraph : (s.movedAll b q moves).graphs.get? g = some graph) {node : Node} (hn : node ∈ graph.nodes)
    {binding : Binding} (hbinding : binding ∈ node.bindings) {value : Value}
    (hv : binder'.values.get? binding.key = some value) :
    node.attributes.get? binding.attr = some value ↔ ¬ Overtaken b q s g binding.key moves := by
  obtain ⟨binder'', ht, hacc⟩ := h.accounted.movedAll h.tracked moves
  obtain rfl : binder'' = binder' := Option.some.inj (ht.known.symm.trans hb)
  refine hacc hg binding.key value hv _ ?_
  rw [due_eq_shown hidle, Scene.shown, hgraph]
  exact Graph.mem_shown hn hbinding

end AtRest

/-! ## One label -/

/-- A label that shows the data under `text_1`. -/
def label : Node where
  id := ⟨.host 0, 0⟩
  kind := "TextView"
  name := some "text"
  parent := none
  children := []
  params := .new .relative
  attributes := .empty
  bindings := [⟨"text_1", "text"⟩]
  action := none
  animation := none

/-- A scene of one graph with one label, a binder without views, and the queue the binder uses. -/
def oneLabel : Scene where
  graphs := Table.empty.insert (.host 0)
    ⟨label.id, [label], .host 0, .host 0, .host 0, .none, [], [.host "screen"]⟩
  binders := Table.empty.insert (.host 0) ⟨.empty, false, some 0, []⟩
  taskCenters := .empty
  animationCenters := .empty
  queues := Store.empty.add (.new 0)
  events := []

theorem atRest_oneLabel : AtRest (.host 0) 0 (.host 0) ⟨.empty, false, some 0, []⟩ oneLabel where
  known := rfl
  ui := .inl rfl
  takes := ⟨.new 0, rfl, rfl⟩
  writes := nofun
  alive := rfl
  bound := by
    rintro graph hg node hn b hb b' hb' -
    cases hg
    obtain rfl : node = label := by simpa using hn
    simp only [label, List.mem_singleton] at hb hb'
    rw [hb, hb']
  idle _ := rfl
  shows := nofun

/-- A value stored on another thread, and polled before a second one is stored on the UI thread. -/
def inTurn : List BinderMove :=
  [.addView (.host 0), .update 1 "text_1" (.text "old"), .poll 0, .update 0 "text_1" (.text "new")]

theorem oneLabel_shows_in_turn :
    AtRest (.host 0) 0 (.host 0) ⟨.empty, false, some 0, []⟩ oneLabel ∧
      (oneLabel.movedAll (.host 0) 0 inTurn).pending 0 = [] ∧
        ¬ Overtaken (.host 0) 0 oneLabel (.host 0) "text_1" inTurn := by
  refine ⟨atRest_oneLabel, rfl, ?_⟩
  have hshown : some (Value.text "new") = some (.text "new") ↔ _ :=
    shows_stored_iff_not_overtaken atRest_oneLabel inTurn rfl rfl (List.mem_singleton.2 rfl) rfl
      (List.mem_singleton.2 rfl) (List.mem_singleton.2 rfl) rfl
  exact hshown.1 rfl

/-- The same, but the second value is stored before the poll. -/
def outOfTurn : List BinderMove :=
  [.addView (.host 0), .update 1 "text_1" (.text "old"), .update 0 "text_1" (.text "new"), .poll 0]

/-- The label is left with the older value although nothing waits any more. -/
theorem oneLabel_overtaken :
    AtRest (.host 0) 0 (.host 0) ⟨.empty, false, some 0, []⟩ oneLabel ∧
      (oneLabel.movedAll (.host 0) 0 outOfTurn).pending 0 = [] ∧
        (oneLabel.movedAll (.host 0) 0 outOfTurn).valueOf (.host 0) "text_1" = some (.text "new") ∧
          ((oneLabel.movedAll (.host 0) 0 outOfTurn).graphs.get? (.host 0)).map
              (·.nodes.map (·.attributes.get? "text")) = some [some (.text "old")] :=
  ⟨atRest_oneLabel, rfl, rfl, rfl⟩

end LiveScreen.Scene
