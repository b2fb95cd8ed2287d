/-
Tables: each key has at most one value, and pairs keep the order in which their
keys first arrived. `get?` is the view: `get?_insert`, `get?_insertAll`,
`get?_erase_self`, `get?_erase_other` and `get?_modify` say what each operation does to it, and
`mem_entries_iff` that the pairs say the same.
-/
namespace LiveScreen

/-- Values by key. -/
structure Table (κ α : Type) where
  entries : List (κ × α)
  /-- No key occurs twice. -/
  nodup : (entries.map (·.1)).Nodup

namespace Table

variable {κ α : Type}

/-- The table without entries. -/
def empty : Table κ α := ⟨[], List.nodup_nil⟩

instance : Inhabited (Table κ α) := ⟨empty⟩

/-- The keys in the order in which they arrived. -/
def keys (d : Table κ α) : List κ := d.entries.map (·.1)

/-- The number of pairs. -/
def size (d : Table κ α) : Nat := d.entries.length

variable [DecidableEq κ]

/-- The value in the first pair with a key. -/
def lookup (k : κ) : List (κ × α) → Option α
  | [] => none
  | (k', v) :: rest => if k' = k then some v else lookup k rest

/-- The value stored for a key. -/
def get? (d : Table κ α) (k : κ) : Option α := lookup k d.entries

/-- Stores a value in the first pair with a key, or in a new pair at the end. -/
def put (k : κ) (v : α) : List (κ × α) → List (κ × α)
  | [] => [(k, v)]
  | (k', v') :: rest => if k' = k then (k, v) :: rest else (k', v') :: put k v rest

theorem mem_keys_put (k k' : κ) (v : α) :
    ∀ es : List (κ × α), k' ∈ (put k v es).map (·.1) ↔ k' = k ∨ k' ∈ es.map (·.1)
  | [] => by simp [put]
  | (k'', v'') :: rest => by
    have ih := mem_keys_put k k' v rest
    by_cases h : k'' = k
    · subst h; simp [put]
    · simp only [put, h, if_false, List.map_cons, List.mem_cons, ih]
      constructor
      · rintro (h | h | h) <;> simp [h]
      · rintro (h | h | h) <;> simp [h]

theorem nodup_put (k : κ) (v : α) :
    ∀ es : List (κ × α), (es.map (·.1)).Nodup → ((put k v es).map (·.1)).Nodup
  | [], _ => by simp [put]
  | (k', v') :: rest, h => by
    rw [List.map_cons, List.nodup_cons] at h
    by_cases hk : k' = k
    · subst hk; simpa [put] using h
    · simp only [put, hk, if_false, List.map_cons, List.nodup_cons, mem_keys_put, false_or]
      exact ⟨h.1, nodup_put k v rest h.2⟩

/-- Stores a value for a key. A key that is present keeps its place. -/
def insert (d : Table κ α) (k : κ) (v : α) : Table κ α := ⟨put k v d.entries, nodup_put k v _ d.nodup⟩

/-- Forgets a key. -/
def erase (d : Table κ α) (k : κ) : Table κ α :=
  ⟨d.entries.filter fun e => e.1 ≠ k, d.nodup.sublist (List.filter_sublist.map _)⟩

/-- Whether a key is present. -/
def contains (d : Table κ α) (k : κ) : Bool := (d.get? k).isSome

/-- Changes the value of a key that is present. -/
def modify (d : Table κ α) (k : κ) (f : α → α) : Table κ α :=
  match d.get? k with
  | some v => d.insert k (f v)
  | none => d

/-- Stores pairs one after the other. -/
def insertAll (d : Table κ α) (pairs : List (κ × α)) : Table κ α :=
  pairs.foldl (fun d p => d.insert p.1 p.2) d

/-- The table of a list of pairs; of two pairs with one key the later counts. -/
def ofList (pairs : List (κ × α)) : Table κ α := empty.insertAll pairs

@[simp] theorem get?_empty (k : κ) : (empty : Table κ α).get? k = none := rfl

theorem lookup_put_self (k : κ) (v : α) : ∀ es, lookup k (put k v es) = some v
  | [] => by simp [put, lookup]
  | (k', v') :: rest => by
    by_cases h : k' = k
    · simp [put, lookup, h]
    · simp [put, lookup, h, lookup_put_self k v rest]

theorem lookup_put_other {k k' : κ} (v : α) (h : k' ≠ k) :
    ∀ es, lookup k' (put k v es) = lookup k' es
  | [] => by simp [put, lookup, Ne.symm h]
  | (k'', v'') :: rest => by
    by_cases h' : k'' = k
    · subst h'; simp [put, lookup, Ne.symm h]
    · by_cases h'' : k'' = k'
      · subst h''; simp [put, lookup, h]
      · simp [put, lookup, h', h'', lookup_put_other v h rest]

@[simp] theorem get?_insert_self (d : Table κ α) (k : κ) (v : α) : (d.insert k v).get? k = some v :=
  lookup_put_self k v d.entries

theorem get?_insert_other (d : Table κ α) {k k' : κ} (v : α) (h : k' ≠ k) :
    (d.insert k v).get? k' = d.get? k' :=
  lookup_put_other v h d.entries

theorem get?_insert (d : Table κ α) (k k' : κ) (v : α) :
    (d.insert k v).get? k' = if k' = k then some v else d.get? k' := by
  by_cases h : k' = k
  · subst h; simp
  · simp [h, get?_insert_other]

/-- Of the pairs stored one after the other, the last with a key counts. -/
theorem get?_insertAll (k : κ) : ∀ (pairs : List (κ × α)) (d : Table κ α),
    (d.insertAll pairs).get? k = ((pairs.reverse.find? fun p => p.1 = k).map (·.2)).or (d.get? k)
  | [], _ => rfl
  | p :: pairs, d => by
    have hfirst : (d.insert p.1 p.2).get? k = (([p].find? fun p => p.1 = k).map (·.2)).or (d.get? k) := by
      rw [get?_insert, List.find?_singleton]
      by_cases h : k = p.1
      · simp [h]
      · simp [h, Ne.symm h]
    rw [insertAll, List.foldl_cons, ← insertAll, get?_insertAll k pairs, hfirst, List.reverse_cons,
      List.find?_append, Option.map_or, Option.or_assoc]

theorem lookup_filter_self (k : κ) :
    ∀ es : List (κ × α), lookup k (es.filter fun e => e.1 ≠ k) = none
  | [] => rfl
  | (k', v') :: rest => by
    by_cases h : k' = k
    · simpa [h] using lookup_filter_self k rest
    · simpa [h, lookup] using lookup_filter_self k rest

theorem lookup_filter_other {k k' : κ} (h : k' ≠ k) :
    ∀ es : List (κ × α), lookup k' (es.filter fun e => e.1 ≠ k) = lookup k' es
  | [] => rfl
  | (k'', v'') :: rest => by
    have ih := lookup_filter_other h rest
    by_cases h' : k'' = k
    · subst h'; simpa [lookup, Ne.symm h] using ih
    · by_cases h'' : k'' = k'
      · subst h''; simp [lookup, h]
      · simpa [lookup, h', h''] using ih

@[simp] theorem get?_erase_self (d : Table κ α) (k : κ) : (d.erase k).get? k = none :=
  lookup_filter_self k d.entries

theorem get?_erase_other (d : Table κ α) {k k' : κ} (h : k' ≠ k) : (d.erase k).get? k' = d.get? k' :=
  lookup_filter_other h d.entries

@[simp] theorem get?_modify_self (d : Table κ α) (k : κ) (f : α → α) :
    (d.modify k f).get? k = (d.get? k).map f := by
  unfold modify
  split
  · rename_i v h; simp [h]
  · rename_i h; simp [h]

theorem get?_modify_other (d : Table κ α) {k k' : κ} (f : α → α) (h : k' ≠ k) :
    (d.modify k f).get? k' = d.get? k' := by
  unfold modify
  split
  · exact get?_insert_other d _ h
  · rfl

theorem get?_modify (d : Table κ α) (k k' : κ) (f : α → α) :
    (d.modify k f).get? k' = if k' = k then (d.get? k).map f else d.get? k' := by
  by_cases h : k' = k
  · subst h; simp
  · simp [h, get?_modify_other]

theorem mem_iff_lookup (k : κ) (v : α) :
    ∀ es : List (κ × α), (es.map (·.1)).Nodup → ((k, v) ∈ es ↔ lookup k es = some v)
  | [], _ => by simp [lookup]
  | (k', v') :: rest, h => by
    rw [List.map_cons, List.nodup_cons] at h
    have ih := mem_iff_lookup k v rest h.2
    by_cases hk : k' = k
    · subst hk
      have hn : (k', v) ∉ rest := fun hm => h.1 (List.mem_map.2 ⟨(k', v), hm, rfl⟩)
      simp [lookup, hn, eq_comm]
    · simp [lookup, hk, Ne.symm hk, ih]

/-- The pairs of a table are what looking up finds. -/
theorem mem_entries_iff (d : Table κ α) {k : κ} {v : α} : (k, v) ∈ d.entries ↔ d.get? k = some v :=
  mem_iff_lookup k v d.entries d.nodup

theorem mem_keys (d : Table κ α) (k : κ) : k ∈ d.keys ↔ ∃ v, d.get? k = some v := by
  simp [keys, mem_entries_iff]

end Table

/-- Values by name. -/
abbrev Dict (α : Type) := Table String α

end LiveScreen
