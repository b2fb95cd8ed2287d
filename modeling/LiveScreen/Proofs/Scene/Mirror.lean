/-
A binder without a UI queue writes every value into its views at once, so that its
views mirror it: each bound attribute has the stored value of its key, or what the
node declared while there is none, and no other attribute changes
(`attached_views_mirror`). It does not matter when a view was attached, how often,
or in which order the stored values were replayed into it then: replaying is a look-up
in the stored values (`Graph.Shows.applyAll`), and a look-up in a list with distinct keys
does not see their order (`Table.lookup_perm`).
-/
import LiveScreen.Proofs.Scene.Due
import Mathlib.Logic.Function.Basic

namespace LiveScreen

/-! ## Look-ups -/

theorem Table.lookup_perm {κ α : Type} [DecidableEq κ] {order : List (κ × α)} {d : Table κ α}
    (h : order.Perm d.entries) (k : κ) : Table.lookup k order = d.get? k := by
  have hn : (order.map (·.1)).Nodup := (h.map (·.1)).nodup_iff.2 d.nodup
  have hmem : ∀ v, Table.lookup k order = some v ↔ d.get? k = some v := by
    intro v
    rw [← Table.mem_iff_lookup k v order hn, ← Table.mem_entries_iff, h.mem_iff]
  exact Option.ext hmem

theorem Table.get?_insert_eq_update {κ α : Type} [DecidableEq κ] (d : Table κ α) (k : κ) (v : α) :
    (d.insert k v).get? = Function.update d.get? k (some v) := by
  funext k'
  rw [Table.get?_insert, Function.update_apply]

/-! ## What a node shows -/

/-- A node shows data that are looked up by key: of the node as it was declared only attributes have
changed, those bound to a key with a value have this value, and the others are as declared. -/
structure Node.Shows (n : Node) (data : String → Option Value) (declared : Node) : Prop where
  rest : n = { declared with attributes := n.attributes }
  bound : ∀ b ∈ declared.bindings,
    n.attributes.get? b.attr = (data b.key).or (declared.attributes.get? b.attr)
  unbound : ∀ attr, (∀ b ∈ declared.bindings, b.attr ≠ attr) →
    n.attributes.get? attr = declared.attributes.get? attr

/-- Two nodes differ at most in the order of their attributes. -/
structure Node.Alike (n n' : Node) : Prop where
  rest : n = { n' with attributes := n.attributes }
  attributes : ∀ attr, n.attributes.get? attr = n'.attributes.get? attr

namespace Node

theorem foldl_setAttribute_rest (key : String) (value : Value) : ∀ (bs : List Binding) (n : Node),
    bs.foldl (fun n b => if b.key = key then n.setAttribute b.attr value else n) n =
      { n with attributes :=
          (bs.foldl (fun n b => if b.key = key then n.setAttribute b.attr value else n) n).attributes }
  | [], _ => rfl
  | b :: bs, n => by
    rw [List.foldl_cons, foldl_setAttribute_rest key value bs]
    split <;> rfl

theorem applyData_rest (n : Node) (key : String) (value : Value) :
    n.applyData key value = { n with attributes := (n.applyData key value).attributes } :=
  foldl_setAttribute_rest key value n.bindings n

variable {data : String → Option Value} {declared n n' : Node}

theorem Shows.untouched (d : Node) : d.Shows (fun _ => none) d :=
  ⟨rfl, fun _ _ => by simp, fun _ _ => rfl⟩

theorem Shows.bindings (h : n.Shows data declared) : n.bindings = declared.bindings := by
  rw [h.rest]

/-- A value that is written for a key is looked up for it from then on. -/
theorem Shows.applyData (h : n.Shows data declared) (hc : declared.ClearlyBound) (key : String) (value : Value) :
    (n.applyData key value).Shows (Function.update data key (some value)) declared := by
  have hbs := h.bindings
  refine ⟨?_, fun b hb => ?_, fun attr hattr => ?_⟩
  · rw [applyData_rest, h.rest]
  · rw [get?_applyData, hbs]
    by_cases hk : b.key = key
    · have hex : ∃ b' ∈ declared.bindings, b'.key = key ∧ b'.attr = b.attr := ⟨b, hb, hk, rfl⟩
      rw [if_pos hex, hk, Function.update_self, Option.some_or]
    · have hno : ¬ ∃ b' ∈ declared.bindings, b'.key = key ∧ b'.attr = b.attr := by
        rintro ⟨b', hb', hkey, hat⟩
        exact hk ((hc b hb b' hb' hat.symm).trans hkey)
      rw [if_neg hno, Function.update_of_ne hk, h.bound b hb]
  · have hno : ¬ ∃ b' ∈ declared.bindings, b'.key = key ∧ b'.attr = attr := by
      rintro ⟨b', hb', -, hat⟩
      exact hattr b' hb' hat
    rw [get?_applyData, hbs, if_neg hno, h.unbound attr hattr]

/-- What a node shows is determined by the data and by what was declared. -/
theorem Shows.alike (h : n.Shows data declared) (h' : n'.Shows data declared) : n.Alike n' := by
  refine ⟨?_, fun attr => ?_⟩
  · rw [h.rest, h'.rest]
  · by_cases hattr : ∃ b ∈ declared.bindings, b.attr = attr
    · obtain ⟨b, hb, rfl⟩ := hattr
      rw [h.bound b hb, h'.bound b hb]
    · have hno : ∀ b ∈ declared.bindings, b.attr ≠ attr := fun b hb he => hattr ⟨b, hb, he⟩
      rw [h.unbound attr hno, h'.unbound attr hno]

end Node

/-! ## What a graph shows -/

/-- Every node of a graph shows the data. -/
structure Graph.Shows (graph : Graph) (data : String → Option Value) (declared : Graph) : Prop where
  size : graph.nodes.length = declared.nodes.length
  node : ∀ (i : Nat) (d n : Node), declared.nodes[i]? = some d → graph.nodes[i]? = some n → n.Shows data d

/-- Two graphs have the same nodes, up to the order of attributes. -/
structure Graph.Alike (graph graph' : Graph) : Prop where
  size : graph.nodes.length = graph'.nodes.length
  node : ∀ (i : Nat) (n n' : Node), graph.nodes[i]? = some n → graph'.nodes[i]? = some n' → n.Alike n'

namespace Graph

variable {data : String → Option Value} {declared graph graph' : Graph}

theorem Shows.untouched (d : Graph) : d.Shows (fun _ => none) d := by
  refine ⟨rfl, fun i n n' hn hn' => ?_⟩
  rw [hn] at hn'
  cases hn'
  exact .untouched n

theorem Shows.congr (h : graph.Shows data declared) (hn : graph'.nodes = graph.nodes) :
    graph'.Shows data declared :=
  ⟨by rw [hn, h.size], by rw [hn]; exact h.node⟩

theorem Shows.applyData (h : graph.Shows data declared) (hc : declared.ClearlyBound) (key : String)
    (value : Value) : (graph.applyData key value).Shows (Function.update data key (some value)) declared := by
  refine ⟨?_, fun i d n hd hn => ?_⟩
  · simp only [Graph.applyData, List.length_map, h.size]
  · simp only [Graph.applyData, List.getElem?_map] at hn
    obtain ⟨m, hm, rfl⟩ := Option.map_eq_some_iff.1 hn
    exact (h.node i d m hd hm).applyData (hc d (List.mem_of_getElem? hd)) key value

/-- Replaying values shows them: those that are not among them are looked up as before. -/
theorem Shows.applyAll (hc : declared.ClearlyBound) : ∀ {data : String → Option Value} {graph : Graph}
    (order : List (String × Value)), graph.Shows data declared → (order.map (·.1)).Nodup →
      (graph.applyAll order).Shows (fun k => (Table.lookup k order).or (data k)) declared
  | _, _, [], h, _ => h
  | data, graph, (key, value) :: order, h, hn => by
    rw [List.map_cons, List.nodup_cons] at hn
    have ih := Shows.applyAll hc order (h.applyData hc key value) hn.2
    have hdata : (fun k => (Table.lookup k order).or (Function.update data key (some value) k)) =
        fun k => (Table.lookup k ((key, value) :: order)).or (data k) := by
      funext k
      by_cases hk : key = k
      · subst hk
        have hnone : Table.lookup key order = none := by
          cases hl : Table.lookup key order with
          | none => rfl
          | some v =>
            have hmem := (Table.mem_iff_lookup key v order hn.2).2 hl
            exact absurd (List.mem_map_of_mem (f := (·.1)) hmem) hn.1
        simp [Table.lookup, hnone]
      · simp [Table.lookup, hk, Function.update_of_ne (Ne.symm hk)]
    rw [hdata] at ih
    exact ih

theorem Shows.alike (h : graph.Shows data declared) (h' : graph'.Shows data declared) : graph.Alike graph' := by
  refine ⟨by rw [h.size, h'.size], fun i n n' hn hn' => ?_⟩
  have hlt : i < declared.nodes.length := by
    rw [← h.size]
    exact (List.getElem?_eq_some_iff.1 hn).1
  have hd := List.getElem?_eq_getElem hlt
  exact (h.node i _ n hd hn).alike (h'.node i _ n' hd hn')

end Graph

namespace Scene

/-! ## Moves at a binder and its views -/

/-- What is done to a binder and to its views. -/
inductive ViewMove where
  /-- A value is stored. -/
  | update (thread : Thread) (key : String) (value : Value)
  /-- A graph is attached, and the stored values are replayed into it in some order. -/
  | attach (graph : GraphId) (order : List (String × Value))
  /-- Somebody lets go of a graph. -/
  | release (graph : GraphId) (holder : Holder)

/-- What a move stores. -/
def ViewMove.stored? : ViewMove → Option (String × Value)
  | .update _ key value => some (key, value)
  | _ => none

/-- Attaches a view to a binder and replays values into it in a given order. -/
def attachIn (s : Scene) (b : BinderId) (g : GraphId) (order : List (String × Value)) : Scene :=
  (s.modifyBinder b fun binder => { binder with views := binder.views ++ [g] }).modifyGraph g (·.applyAll order)

/-- One move at a binder and its views. The order of what is replayed is left open. -/
inductive ViewStep (b : BinderId) : Scene → ViewMove → Scene → Prop
  | update (s : Scene) (t : Thread) (key : String) (value : Value) :
      ViewStep b s (.update t key value) (s.update t b key value)
  | attach {s : Scene} {binder : Binder} (g : GraphId) {order : List (String × Value)}
      (known : s.binders.get? b = some binder) (same : order.Perm binder.values.entries) :
      ViewStep b s (.attach g order) (s.attachIn b g order)
  | release (s : Scene) (g : GraphId) (holder : Holder) :
      ViewStep b s (.release g holder) (s.release g holder)

/-- Moves at a binder and its views, one after the other. -/
inductive ViewRun (b : BinderId) : Scene → List ViewMove → Scene → Prop
  | nil (s : Scene) : ViewRun b s [] s
  | cons {s s' s'' : Scene} {m : ViewMove} {moves : List ViewMove} (first : ViewStep b s m s')
      (later : ViewRun b s' moves s'') : ViewRun b s (m :: moves) s''

/-- `addView` replays in the order of the table. -/
theorem viewStep_addView {s : Scene} {b : BinderId} {binder : Binder} (hb : s.binders.get? b = some binder)
    (g : GraphId) : ViewStep b s (.attach g binder.values.entries) (s.addView b g) := by
  rw [addView_eq hb]
  exact .attach g hb (.refl _)

/-! ## One move -/

/-- The values that a graph shows: those of the binder once it is attached. -/
def dataFor (binder : Binder) (g : GraphId) : String → Option Value :=
  if g ∈ binder.views then binder.values.get? else fun _ => none

/-- A binder without a queue, and a graph that shows what it is to show as long as it is alive. -/
structure Follows (b : BinderId) (g : GraphId) (declared : Graph) (binder : Binder) (s : Scene) : Prop where
  known : s.binders.get? b = some binder
  inline : binder.ui = none
  shows : s.alive g = true →
    ∃ graph, s.graphs.get? g = some graph ∧ graph.Shows (dataFor binder g) declared

section Follows

variable {b : BinderId} {g : GraphId} {declared : Graph} {binder : Binder} {s : Scene}

theorem dataFor_of_mem (h : g ∈ binder.views) : dataFor binder g = binder.values.get? := if_pos h

theorem dataFor_of_not_mem (h : g ∉ binder.views) : dataFor binder g = fun _ => none := if_neg h

/-- Showing a value in one view after the other: however often the graph is among them, its attributes
are then looked up with the new value. -/
theorem shows_foldl_showValue (hc : declared.ClearlyBound) (key : String) (value : Value) :
    ∀ (views : List GraphId) {s : Scene} {data : String → Option Value} {graph : Graph}, s.alive g = true →
      s.graphs.get? g = some graph → graph.Shows data declared →
        ∃ graph', (views.foldl (showValue key value) s).graphs.get? g = some graph' ∧
          graph'.Shows (if g ∈ views then Function.update data key (some value) else data) declared
  | [], _, _, graph, _, hg, h => ⟨graph, hg, by simpa using h⟩
  | g' :: views, s, data, graph, ha, hg, h => by
    have ha' : (s.showValue key value g').alive g = true := by rw [alive_showValue, ha]
    rw [List.foldl_cons]
    by_cases hgg : g = g'
    · subst hgg
      have hg' : (s.showValue key value g).graphs.get? g = some (graph.applyData key value) := by
        rw [get?_graphs_showValue, if_pos ⟨rfl, ha⟩, hg, Option.map_some]
      obtain ⟨graph', hget, hshows⟩ := shows_foldl_showValue hc key value views ha' hg' (h.applyData hc key value)
      refine ⟨graph', hget, ?_⟩
      rw [Function.update_idem, ite_self] at hshows
      rwa [if_pos (List.mem_cons_self ..)]
    · have hg' : (s.showValue key value g').graphs.get? g = some graph := by
        rw [get?_graphs_showValue, if_neg fun hand => hgg hand.1, hg]
      obtain ⟨graph', hget, hshows⟩ := shows_foldl_showValue hc key value views ha' hg' h
      exact ⟨graph', hget, by simpa [hgg] using hshows⟩

/-- A value is stored: the graph is written if it is attached. -/
theorem Follows.update (h : Follows b g declared binder s) (hc : declared.ClearlyBound) (t : Thread) (key : String)
    (value : Value) :
    Follows b g declared
      { binder with values := binder.values.insert key value, views := binder.views.filter s.alive }
      (s.update t b key value) := by
  have hi : ∀ q, binder.ui = some q → s.isUiThread q t = true := by simp [h.inline]
  obtain ⟨hb, -, ha⟩ :=
    foldl_showValue_frame key value (binder.views.filter s.alive) (s.stored b binder key value)
  rw [← update_inline h.known hi] at hb ha
  refine ⟨by rw [hb, get?_stored h.known], h.inline, fun halive => ?_⟩
  have ha₀ : s.alive g = true := by
    rw [ha] at halive
    exact halive
  obtain ⟨graph, hg, hshows⟩ := h.shows ha₀
  obtain ⟨graph', hg', hshows'⟩ := shows_foldl_showValue hc key value (binder.views.filter s.alive)
    (s := s.stored b binder key value) ha₀ hg hshows
  rw [← update_inline h.known hi] at hg'
  refine ⟨graph', hg', ?_⟩
  by_cases hv : g ∈ binder.views
  · have hv' : g ∈ binder.views.filter s.alive := List.mem_filter.2 ⟨hv, ha₀⟩
    rw [if_pos hv', dataFor_of_mem hv, ← Table.get?_insert_eq_update] at hshows'
    rwa [dataFor_of_mem (by exact hv')]
  · have hv' : g ∉ binder.views.filter s.alive := fun hm => hv (List.mem_filter.1 hm).1
    rw [if_neg hv', dataFor_of_not_mem hv] at hshows'
    rwa [dataFor_of_not_mem (by exact hv')]

/-- A graph is attached: what is replayed is what is stored. -/
theorem Follows.attach (h : Follows b g declared binder s) (hc : declared.ClearlyBound) (g' : GraphId)
    {order : List (String × Value)} (ho : order.Perm binder.values.entries) :
    Follows b g declared { binder with views := binder.views ++ [g'] } (s.attachIn b g' order) := by
  have ha : (s.attachIn b g' order).alive g = s.alive g :=
    alive_modifyGraph (s.modifyBinder b _) g' (fun graph => Graph.holders_applyAll graph order) g
  refine ⟨by simp [attachIn, modifyBinder, h.known], h.inline, fun halive => ?_⟩
  rw [ha] at halive
  obtain ⟨graph, hg, hshows⟩ := h.shows halive
  have hget : (s.attachIn b g' order).graphs.get? g =
      if g = g' then (s.graphs.get? g').map (·.applyAll order) else s.graphs.get? g :=
    Table.get?_modify s.graphs g' g _
  by_cases hgg : g = g'
  · subst hgg
    refine ⟨graph.applyAll order, by rw [hget, if_pos rfl, hg, Option.map_some], ?_⟩
    have hn : (order.map (·.1)).Nodup := (ho.map (·.1)).nodup_iff.2 binder.values.nodup
    have hall := Graph.Shows.applyAll hc order hshows hn
    have hdata : (fun k => (Table.lookup k order).or (dataFor binder g k)) = binder.values.get? := by
      funext k
      rw [Table.lookup_perm ho]
      by_cases hv : g ∈ binder.views
      · rw [dataFor_of_mem hv, Option.or_self]
      · rw [dataFor_of_not_mem hv, Option.or_none]
    rw [hdata] at hall
    rwa [dataFor_of_mem (by simp)]
  · refine ⟨graph, by rw [hget, if_neg hgg, hg], ?_⟩
    have hdata : dataFor { binder with views := binder.views ++ [g'] } g = dataFor binder g := by
      simp [dataFor, hgg]
    rwa [hdata]

theorem alive_of_release {g' : GraphId} {holder : Holder} (h : (s.release g' holder).alive g = true) :
    s.alive g = true := by
  simp only [alive, release, modifyGraph, Table.get?_modify, Bool.or_eq_true] at h ⊢
  refine h.imp_left fun hheld => ?_
  by_cases hg : g = g'
  · subst hg
    cases hgraph : s.graphs.get? g with
    | none => simp [hgraph] at hheld
    | some graph =>
      simp only [hgraph, if_true, Option.map_some] at hheld ⊢
      cases hh : graph.holders with
      | nil => simp [hh] at hheld
      | cons => rfl
  · simpa [hg] using hheld

/-- Somebody lets go of a graph: those that stay alive show what they did. -/
theorem Follows.release (h : Follows b g declared binder s) (g' : GraphId) (holder : Holder) :
    Follows b g declared binder (s.release g' holder) := by
  refine ⟨h.known, h.inline, fun halive => ?_⟩
  obtain ⟨graph, hg, hshows⟩ := h.shows (alive_of_release halive)
  have hget : (s.release g' holder).graphs.get? g =
      if g = g' then (s.graphs.get? g').map fun graph =>
        { graph with holders := graph.holders.filter (· ≠ holder) } else s.graphs.get? g :=
    Table.get?_modify s.graphs g' g _
  by_cases hgg : g = g'
  · subst hgg
    exact ⟨{ graph with holders := graph.holders.filter (· ≠ holder) },
      by rw [hget, if_pos rfl, hg, Option.map_some], hshows.congr rfl⟩
  · exact ⟨graph, by rw [hget, if_neg hgg, hg], hshows⟩

/-- One move. A graph that stays alive is among the views if it was, or if the move attaches it. -/
theorem Follows.step (h : Follows b g declared binder s) (hc : declared.ClearlyBound) {m : ViewMove} {s' : Scene}
    (hs : ViewStep b s m s') : ∃ binder', Follows b g declared binder' s' ∧
      binder'.values = binder.values.insertAll m.stored?.toList ∧ (s'.alive g = true → s.alive g = true ∧
        (g ∈ binder'.views ↔ g ∈ binder.views ∨ ∃ order, m = .attach g order)) := by
  cases hs with
  | update t key value =>
    have ha : (s.update t b key value).alive g = s.alive g := by
      have hi : ∀ q, binder.ui = some q → s.isUiThread q t = true := by simp [h.inline]
      rw [update_inline h.known hi]
      exact (foldl_showValue_frame key value _ _).2.2 g
    refine ⟨_, h.update hc t key value, rfl, fun halive => ?_⟩
    rw [ha] at halive
    exact ⟨halive, by simp [halive]⟩
  | @attach binder₀ g' order known same =>
    obtain rfl : binder₀ = binder := Option.some.inj (known.symm.trans h.known)
    have ha : (s.attachIn b g' order).alive g = s.alive g :=
      alive_modifyGraph (s.modifyBinder b _) g' (fun graph => Graph.holders_applyAll graph order) g
    refine ⟨_, h.attach hc g' same, rfl, fun halive => ?_⟩
    rw [ha] at halive
    exact ⟨halive, by simp [eq_comm]⟩
  | release g' holder =>
    exact ⟨binder, h.release g' holder, rfl, fun halive => ⟨alive_of_release halive, by simp⟩⟩

/-- A run of moves. -/
theorem Follows.run (hc : declared.ClearlyBound) {moves : List ViewMove} {s' : Scene} (hr : ViewRun b s moves s') :
    ∀ {binder : Binder}, Follows b g declared binder s → ∃ binder', Follows b g declared binder' s' ∧
      binder'.values = binder.values.insertAll (moves.filterMap ViewMove.stored?) ∧
        (s'.alive g = true → s.alive g = true ∧
          (g ∈ binder'.views ↔ g ∈ binder.views ∨ ∃ order, ViewMove.attach g order ∈ moves)) := by
  induction hr with
  | nil s => exact fun h => ⟨_, h, rfl, fun halive => ⟨halive, by simp⟩⟩
  | @cons s s₁ s₂ m moves first later ih =>
    intro binder h
    obtain ⟨binder₁, h₁, hvalues₁, hviews₁⟩ := h.step hc first
    obtain ⟨binder₂, h₂, hvalues₂, hviews₂⟩ := ih h₁
    refine ⟨binder₂, h₂, ?_, fun halive => ?_⟩
    · rw [hvalues₂, hvalues₁]
      cases hm : m.stored? <;> simp [Table.insertAll, hm]
    · obtain ⟨halive₁, hmem₂⟩ := hviews₂ halive
      obtain ⟨halive₀, hmem₁⟩ := hviews₁ halive₁
      refine ⟨halive₀, ?_⟩
      rw [hmem₂, hmem₁]
      simp only [List.mem_cons, exists_or, or_assoc, eq_comm]

end Follows

/-! ## What is shown -/

/-- **Attached views mirror their binder.** Whatever is stored, attached and let go of at a binder
without a UI queue: the binder holds the values in the order in which they were stored, and every graph
that was attached and is alive shows them. Another run that stores the same, and attaches the graph at
other places, leaves it alike. -/
theorem attached_views_mirror {s s' : Scene} {b : BinderId} {binder : Binder}
    (hb : s.binders.get? b = some binder) (hui : binder.ui = none) (hnew : binder.views = [])
    {moves : List ViewMove} (hr : ViewRun b s moves s') {g : GraphId} {declared : Graph}
    (hg : s.graphs.get? g = some declared) (hc : declared.ClearlyBound) (ha : s'.alive g = true)
    {order : List (String × Value)} (hm : .attach g order ∈ moves) :
    ∃ binder' graph, s'.binders.get? b = some binder' ∧ s'.graphs.get? g = some graph ∧ g ∈ binder'.views ∧
      binder'.values = binder.values.insertAll (moves.filterMap ViewMove.stored?) ∧
        graph.Shows binder'.values.get? declared ∧
          ∀ moves' s'', ViewRun b s moves' s'' → s''.alive g = true → (∃ order, .attach g order ∈ moves') →
            moves'.filterMap ViewMove.stored? = moves.filterMap ViewMove.stored? →
              ∃ graph', s''.graphs.get? g = some graph' ∧ graph'.Alike graph := by
  have hstart : Follows b g declared binder s := by
    refine ⟨hb, hui, fun _ => ⟨declared, hg, ?_⟩⟩
    rw [dataFor_of_not_mem (by simp [hnew])]
    exact .untouched declared
  -- What a run leaves of a graph that it attaches.
  have hend : ∀ {moves s'}, ViewRun b s moves s' → s'.alive g = true → (∃ order, .attach g order ∈ moves) →
      ∃ binder' graph, s'.binders.get? b = some binder' ∧ s'.graphs.get? g = some graph ∧ g ∈ binder'.views ∧
        binder'.values = binder.values.insertAll (moves.filterMap ViewMove.stored?) ∧
          graph.Shows binder'.values.get? declared := by
    intro moves s' hr ha hm
    obtain ⟨binder', h', hvalues, hviews⟩ := hstart.run hc hr
    have hmem : g ∈ binder'.views := (hviews ha).2.2 (.inr hm)
    obtain ⟨graph, hgraph, hshows⟩ := h'.shows ha
    rw [dataFor_of_mem hmem] at hshows
    exact ⟨binder', graph, h'.known, hgraph, hmem, hvalues, hshows⟩
  obtain ⟨binder', graph, hb', hgraph, hmem, hvalues, hshows⟩ := hend hr ha ⟨order, hm⟩
  refine ⟨binder', graph, hb', hgraph, hmem, hvalues, hshows, fun moves' s'' hr' ha' hm' hsame => ?_⟩
  obtain ⟨binder'', graph', -, hgraph', -, hvalues', hshows'⟩ := hend hr' ha' hm'
  rw [hvalues', hsame, ← hvalues] at hshows'
  exact ⟨graph', hgraph', hshows'.alike hshows⟩

/-! ## One heading -/

/-- A heading that shows the data under `title` and is red. -/
def heading : Node where
  id := ⟨.host 0, 0⟩
  kind := "TextView"
  name := none
  parent := none
  children := []
  params := .new .relative
  attributes := (Table.empty.insert "text" (.text "untitled")).insert "color" (.text "red")
  bindings := [⟨"title", "text"⟩, ⟨"hint", "tooltip"⟩]
  action := none
  animation := none

/-- A graph of the heading. -/
def headings : Graph := ⟨heading.id, [heading], .host 0, .host 0, .host 0, .none, [], [.host "screen"]⟩

/-- The heading, and a binder without a queue and without views. -/
def oneHeading : Scene where
  graphs := Table.empty.insert (.host 0) headings
  binders := Table.empty.insert (.host 0) (.new .empty)
  taskCenters := .empty
  animationCenters := .empty
  queues := .empty
  events := []

/-- The heading was attached after a title was stored. -/
def titled : Scene := (oneHeading.update 1 (.host 0) "title" (.text "old")).addView (.host 0) (.host 0)

/-- It was attached again after another title was stored on a second thread. -/
def retitled : Scene := (titled.update 2 (.host 0) "title" (.text "new")).addView (.host 0) (.host 0)

def retitling : List ViewMove :=
  [.update 1 "title" (.text "old"), .attach (.host 0) [("title", .text "old")],
    .update 2 "title" (.text "new"), .attach (.host 0) [("title", .text "new")]]

theorem clearlyBound_headings : headings.ClearlyBound := by
  intro n hn b hb b' hb' he
  obtain rfl : n = heading := by simpa [headings] using hn
  simp only [heading, List.mem_cons, List.not_mem_nil, or_false] at hb hb'
  obtain rfl | rfl := hb <;> obtain rfl | rfl := hb' <;> simp at he ⊢

theorem retitled_mirrors : ViewRun (.host 0) oneHeading retitling retitled ∧ headings.ClearlyBound ∧
    retitled.alive (.host 0) = true ∧ ∃ graph, retitled.graphs.get? (.host 0) = some graph ∧
      ∀ n, graph.nodes[0]? = some n → n.attributes.get? "text" = some (.text "new") ∧
        n.attributes.get? "tooltip" = none ∧ n.attributes.get? "color" = some (.text "red") := by
  have hfirst : ViewStep (.host 0) _ (.attach (.host 0) [("title", .text "old")]) titled :=
    viewStep_addView (show _ = some ⟨Table.empty.insert "title" (.text "old"), false, none, []⟩ from rfl) _
  have hsecond : ViewStep (.host 0) _ (.attach (.host 0) [("title", .text "new")]) retitled :=
    viewStep_addView
      (show _ = some ⟨Table.empty.insert "title" (.text "new"), false, none, [.host 0]⟩ from rfl) _
  have hrun : ViewRun (.host 0) oneHeading retitling retitled :=
    .cons (.update ..) (.cons hfirst (.cons (.update ..) (.cons hsecond (.nil _))))
  have halive : retitled.alive (.host 0) = true := by decide
  refine ⟨hrun, clearlyBound_headings, halive, ?_⟩
  obtain ⟨binder, graph, hb, hgraph, -, -, hshows, -⟩ :=
    attached_views_mirror rfl rfl rfl hrun rfl clearlyBound_headings halive
      (List.mem_cons_of_mem _ (List.mem_cons_self ..))
  refine ⟨graph, hgraph, fun n hn => ?_⟩
  have hnode := hshows.node 0 heading n rfl hn
  have htitle : binder.values.get? "title" = some (.text "new") := by cases hb; rfl
  have hhint : binder.values.get? "hint" = none := by cases hb; rfl
  refine ⟨?_, ?_, ?_⟩
  · rw [hnode.bound ⟨"title", "text"⟩ (by simp [heading]), htitle]
    rfl
  · rw [hnode.bound ⟨"hint", "tooltip"⟩ (by simp [heading]), hhint]
    rfl
  · exact hnode.unbound "color" (by simp [heading])

end Scene

end LiveScreen
