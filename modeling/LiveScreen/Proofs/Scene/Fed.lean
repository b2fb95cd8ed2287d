/-
What feeds a graph: the values its binder stores, whether they are marked as
those of a load, and the queue they go through (`Scene.feed`). A value that is
stored on the UI thread of that queue is shown at once, and what is stored and
shown for other keys stays as it is (`feed_update`, `shown_update_other`).
-/
import LiveScreen.Proofs.Scene.Published

namespace LiveScreen

/-- What a binder feeds its views from. -/
structure Feed where
  values : Dict Value
  loaded : Bool
  ui : Option QueueId

/-- What a binder feeds its views from. -/
def Binder.feed (binder : Binder) : Feed := ⟨binder.values, binder.loaded, binder.ui⟩

/-- Data are stored, every value under its key. -/
def Feed.Stores (feed : Feed) (data : List (String × Value)) : Prop := ∀ e ∈ data, feed.values.get? e.1 = some e.2

theorem Feed.Stores.concat {feed : Feed} {data : List (String × Value)} (h : feed.Stores data) {key : String}
    {value : Value} (hk : key ∉ data.map (·.1)) :
    Feed.Stores { feed with values := feed.values.insert key value } (data ++ [(key, value)]) := by
  intro e he
  rcases List.mem_append.1 he with hold | hnew
  · have hne : e.1 ≠ key := by
      rintro rfl
      exact hk (List.mem_map_of_mem hold)
    simp only [Table.get?_insert_other _ _ hne, h e hold]
  · obtain rfl := List.mem_singleton.1 hnew
    simp only [Table.get?_insert_self]

/-- Whether attributes are bound to two keys is a matter of the bindings. -/
theorem Graph.ClearlyBound.of_bindings {graph graph' : Graph} (h : graph.ClearlyBound)
    (hb : graph'.nodes.map (·.bindings) = graph.nodes.map (·.bindings)) : graph'.ClearlyBound := by
  intro n' hn'
  have hmem : n'.bindings ∈ graph.nodes.map (·.bindings) := by
    rw [← hb]
    exact List.mem_map_of_mem hn'
  obtain ⟨n, hn, heq⟩ := List.mem_map.1 hmem
  have hclear := h n hn
  unfold Node.ClearlyBound at hclear ⊢
  rw [← heq]
  exact hclear

namespace Scene

/-- What a graph is fed from. -/
def feed (s : Scene) (g : GraphId) : Option Feed :=
  (s.graphs.get? g).bind fun graph => (s.binders.get? graph.binder).map Binder.feed

/-- A thread is the UI thread of the queue that a graph is fed through, if there is one. -/
def FedOn (s : Scene) (g : GraphId) (t : Thread) : Prop :=
  ∀ feed q, s.feed g = some feed → feed.ui = some q → s.isUiThread q t = true

/-- A graph shows data, wherever it shows their keys. -/
def ShowsAll (s : Scene) (g : GraphId) (data : List (String × Value)) : Prop :=
  ∀ e ∈ data, ∀ x ∈ s.shown g e.1, x = some e.2

variable {s s' : Scene} {g : GraphId} {graph : Graph} {binder : Binder} {t : Thread} {key : String} {value : Value}

theorem feed_eq (hgraph : s.graphs.get? g = some graph) (hbinder : s.binders.get? graph.binder = some binder) :
    s.feed g = some binder.feed := by
  simp only [feed, hgraph, hbinder, Option.bind_some, Option.map_some]

theorem feed_modifyBinder (hgraph : s.graphs.get? g = some graph) (hbinder : s.binders.get? graph.binder = some binder)
    (f : Binder → Binder) : (s.modifyBinder graph.binder f).feed g = some (f binder).feed := by
  refine feed_eq hgraph ?_
  simp only [modifyBinder, Table.get?_modify, if_true, hbinder, Option.map_some]

/-- What is fed to a graph does not depend on how the graph is mounted. -/
theorem feed_mountGraph (s : Scene) (g : GraphId) (params : Layout.Params) (listener : Option String) (g' : GraphId) :
    (s.mountGraph g params listener).feed g' = s.feed g' := by
  simp only [feed, mountGraph, modifyGraph, Table.get?_modify]
  split
  · rename_i h
    subst h
    cases s.graphs.get? g' <;> rfl
  · rfl

theorem FedOn.congr (h : s.FedOn g t) (hfeed : s'.feed g = s.feed g)
    (hthread : ∀ q t, s'.isUiThread q t = s.isUiThread q t) : s'.FedOn g t := by
  intro feed q hget hq
  rw [hfeed] at hget
  rw [hthread]
  exact h feed q hget hq

theorem clearlyBound_of_ties (h : (s'.graphs.get? g).map Graph.ties = (s.graphs.get? g).map Graph.ties)
    (hc : s.ClearlyBound g) : s'.ClearlyBound g := by
  intro graph' hgraph'
  rw [hgraph', Option.map_some] at h
  obtain ⟨graph, hgraph, heq⟩ := Option.map_eq_some_iff.1 h.symm
  simp only [Graph.ties, Prod.mk.injEq] at heq
  exact (hc graph hgraph).of_bindings heq.2.2.2.2.symm

theorem Steady.clearlyBound_iff {off : Owner → Prop} (hs : Steady off s s') (hg : ¬ off g) :
    s'.ClearlyBound g ↔ s.ClearlyBound g :=
  ⟨clearlyBound_of_ties (hs.ties g hg).symm, clearlyBound_of_ties (hs.ties g hg)⟩

/-! ## Storing on the UI thread -/

section Update

variable (hbinder : s.binders.get? graph.binder = some binder) (hi : ∀ q, binder.ui = some q → s.isUiThread q t = true)

include hbinder hi

theorem feed_update (hgraph : s.graphs.get? g = some graph) : (s.update t graph.binder key value).feed g =
    some { binder.feed with values := binder.values.insert key value } := by
  have hs : Steady (fun _ => False) s (s.update t graph.binder key value) :=
    .of_leads (leads_update s t graph.binder key value)
  obtain ⟨graph', hgraph', heq⟩ := hs.get?_graphs id hgraph
  have hb : graph'.binder = graph.binder := congrArg Prod.fst heq
  obtain ⟨hbinders, -, -⟩ :=
    foldl_showValue_frame key value (binder.views.filter s.alive) (s.stored graph.binder binder key value)
  have hget : (s.update t graph.binder key value).binders.get? graph'.binder = some { binder with
      values := binder.values.insert key value, views := binder.views.filter s.alive } := by
    rw [hb, update_inline hbinder hi, hbinders, get?_stored hbinder]
  rw [feed_eq hgraph' hget]
  rfl

/-- The graph is fed on the same threads as before. -/
theorem fedOn_update (hgraph : s.graphs.get? g = some graph) : (s.update t graph.binder key value).FedOn g t := by
  intro feed q hget hq
  rw [feed_update hbinder hi hgraph] at hget
  cases hget
  have hs : Steady (fun _ => False) s (s.update t graph.binder key value) :=
    .of_leads (leads_update s t graph.binder key value)
  rw [hs.thread]
  exact hi q hq

theorem shown_update_self (hview : g ∈ binder.views) (ha : s.alive g = true) :
    ∀ x ∈ (s.update t graph.binder key value).shown g key, x = some value := by
  have ha' : (s.stored graph.binder binder key value).alive g = true := ha
  have hmem : g ∈ binder.views.filter s.alive := List.mem_filter.2 ⟨hview, ha⟩
  intro x hx
  rw [update_inline hbinder hi, shown_foldl_showValue_self key value _ ha', if_pos hmem] at hx
  obtain ⟨y, -, rfl⟩ := List.mem_map.1 hx
  rfl

theorem shown_update_other (hc : s.ClearlyBound g) {key' : String} (hk : key' ≠ key) :
    (s.update t graph.binder key value).shown g key' = s.shown g key' := by
  have hc' : (s.stored graph.binder binder key value).ClearlyBound g := hc
  rw [update_inline hbinder hi, shown_foldl_showValue_other key value hk _ hc']
  rfl

/-- One more value is stored and shown. -/
theorem ShowsAll.update {data : List (String × Value)} (h : s.ShowsAll g data) (hc : s.ClearlyBound g)
    (hview : g ∈ binder.views) (ha : s.alive g = true) (hk : key ∉ data.map (·.1)) :
    (s.update t graph.binder key value).ShowsAll g (data ++ [(key, value)]) := by
  intro e he x hx
  rcases List.mem_append.1 he with hold | hnew
  · have hne : e.1 ≠ key := by
      rintro rfl
      exact hk (List.mem_map_of_mem hold)
    rw [shown_update_other hbinder hi hc hne] at hx
    exact h e hold x hx
  · obtain rfl := List.mem_singleton.1 hnew
    exact shown_update_self hbinder hi hview ha x hx

end Update

end Scene

end LiveScreen
