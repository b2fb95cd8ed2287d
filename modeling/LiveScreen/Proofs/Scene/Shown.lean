/-
What a graph shows for a key of the data: the values of all attributes bound to
it. Writing a value for a key puts it into all of them (`Graph.shown_applyData_self`)
and leaves those of every other key alone where no attribute of a node is bound
to two keys (`Graph.shown_applyData_other`).
-/
import LiveScreen.Scene.Data

namespace LiveScreen

/-! ## Nodes -/

namespace Node

/-- The values of the attributes bound to a key. -/
def shown (n : Node) (key : String) : List (Option Value) :=
  (n.bindings.filter (·.key = key)).map fun b => n.attributes.get? b.attr

/-- No attribute of a node is bound to two keys. -/
def ClearlyBound (n : Node) : Prop :=
  ∀ b ∈ n.bindings, ∀ b' ∈ n.bindings, b.attr = b'.attr → b.key = b'.key

/-- The attributes after a value was written into those that some of the bindings bind to a key. -/
theorem get?_foldl_setAttribute (key : String) (value : Value) (a : String) :
    ∀ (bs : List Binding) (n : Node),
      (bs.foldl (fun n b => if b.key = key then n.setAttribute b.attr value else n) n).attributes.get? a =
        if ∃ b ∈ bs, b.key = key ∧ b.attr = a then some value else n.attributes.get? a
  | [], n => by simp
  | b :: bs, n => by
    rw [List.foldl_cons, get?_foldl_setAttribute key value a bs]
    by_cases hbs : ∃ b ∈ bs, b.key = key ∧ b.attr = a
    · simp [hbs]
    · by_cases hk : b.key = key
      · by_cases ha : b.attr = a
        · subst ha; simp [hbs, hk, setAttribute]
        · simp [hbs, hk, ha, setAttribute, Table.get?_insert_other _ _ (Ne.symm ha)]
      · simp [hbs, hk]

theorem bindings_foldl_setAttribute (key : String) (value : Value) :
    ∀ (bs : List Binding) (n : Node),
      (bs.foldl (fun n b => if b.key = key then n.setAttribute b.attr value else n) n).bindings = n.bindings
  | [], _ => rfl
  | b :: bs, n => by
    rw [List.foldl_cons, bindings_foldl_setAttribute key value bs]
    split <;> rfl

@[simp] theorem bindings_applyData (n : Node) (key : String) (value : Value) :
    (n.applyData key value).bindings = n.bindings := bindings_foldl_setAttribute key value n.bindings n

/-- Writing a value for a key changes the attributes bound to it and no other. -/
theorem get?_applyData (n : Node) (key : String) (value : Value) (a : String) :
    (n.applyData key value).attributes.get? a =
      if ∃ b ∈ n.bindings, b.key = key ∧ b.attr = a then some value else n.attributes.get? a :=
  get?_foldl_setAttribute key value a n.bindings n

theorem ClearlyBound.applyData {n : Node} (h : n.ClearlyBound) (key : String) (value : Value) :
    (n.applyData key value).ClearlyBound := by
  simpa [ClearlyBound] using h

theorem shown_applyData_self (n : Node) (key : String) (value : Value) :
    (n.applyData key value).shown key = (n.shown key).map fun _ => some value := by
  simp only [shown, bindings_applyData, List.map_map]
  refine List.map_congr_left fun b hb => ?_
  simp only [List.mem_filter, decide_eq_true_eq] at hb
  simp only [get?_applyData, Function.comp_apply]
  exact if_pos ⟨b, hb.1, hb.2, rfl⟩

theorem shown_applyData_other {n : Node} (h : n.ClearlyBound) {key key' : String} (value : Value)
    (hk : key' ≠ key) : (n.applyData key value).shown key' = n.shown key' := by
  simp only [shown, bindings_applyData]
  refine List.map_congr_left fun b hb => ?_
  simp only [List.mem_filter, decide_eq_true_eq] at hb
  rw [get?_applyData, if_neg]
  rintro ⟨b', hb', hkey, hattr⟩
  exact hk (hb.2 ▸ hkey ▸ h b hb.1 b' hb' hattr.symm)

theorem mem_shown {n : Node} {b : Binding} (hb : b ∈ n.bindings) : n.attributes.get? b.attr ∈ n.shown b.key :=
  List.mem_map_of_mem (by simp [hb])

end Node

/-! ## Graphs -/

namespace Graph

/-- The values of all attributes bound to a key, node by node. -/
def shown (g : Graph) (key : String) : List (Option Value) := g.nodes.flatMap (·.shown key)

/-- No attribute of any node is bound to two keys. -/
def ClearlyBound (g : Graph) : Prop := ∀ n ∈ g.nodes, n.ClearlyBound

theorem ClearlyBound.applyData {g : Graph} (h : g.ClearlyBound) (key : String) (value : Value) :
    (g.applyData key value).ClearlyBound := by
  intro n hn
  simp only [Graph.applyData, List.mem_map] at hn
  obtain ⟨m, hm, rfl⟩ := hn
  exact (h m hm).applyData key value

theorem shown_applyData_self (g : Graph) (key : String) (value : Value) :
    (g.applyData key value).shown key = (g.shown key).map fun _ => some value := by
  simp [shown, applyData, List.flatMap_map, List.map_flatMap, Node.shown_applyData_self]

theorem shown_applyData_other {g : Graph} (h : g.ClearlyBound) {key key' : String} (value : Value)
    (hk : key' ≠ key) : (g.applyData key value).shown key' = g.shown key' := by
  simp only [shown, applyData, List.flatMap_def, List.map_map]
  congr 1
  exact List.map_congr_left fun n hn => Node.shown_applyData_other (h n hn) value hk

theorem ClearlyBound.applyAll : ∀ {g : Graph} (_ : g.ClearlyBound) (es : List (String × Value)),
    (g.applyAll es).ClearlyBound
  | _, h, [] => h
  | _, h, e :: es => ClearlyBound.applyAll (h.applyData e.1 e.2) es

/-- Writing all pairs of a table shows for each of its keys the value stored for it. -/
theorem shown_applyAll (key : String) : ∀ {g : Graph} (_ : g.ClearlyBound) (es : List (String × Value)),
    (es.map (·.1)).Nodup →
      (g.applyAll es).shown key =
        match Table.lookup key es with
        | some v => (g.shown key).map fun _ => some v
        | none => g.shown key
  | _, _, [], _ => rfl
  | g, h, (k, v) :: es, hn => by
    rw [List.map_cons, List.nodup_cons] at hn
    have ih := shown_applyAll key (h.applyData k v) es hn.2
    simp only [applyAll, List.foldl_cons] at ih ⊢
    rw [ih]
    by_cases hk : k = key
    · subst hk
      have hnone : Table.lookup k es = none := by
        rw [← Option.not_isSome_iff_eq_none, Option.isSome_iff_exists]
        rintro ⟨w, hw⟩
        exact hn.1 (List.mem_map_of_mem (f := (·.1)) ((Table.mem_iff_lookup k w es hn.2).2 hw))
      simp [Table.lookup, hnone, shown_applyData_self]
    · simp only [Table.lookup, hk, if_false, shown_applyData_other h v (Ne.symm hk)]

@[simp] theorem holders_applyAll : ∀ (g : Graph) (es : List (String × Value)),
    (g.applyAll es).holders = g.holders
  | _, [] => rfl
  | g, e :: es => holders_applyAll (g.applyData e.1 e.2) es

theorem mem_shown {g : Graph} {n : Node} (hn : n ∈ g.nodes) {b : Binding} (hb : b ∈ n.bindings) :
    n.attributes.get? b.attr ∈ g.shown b.key :=
  List.mem_flatMap.2 ⟨n, hn, Node.mem_shown hb⟩

end Graph

end LiveScreen
