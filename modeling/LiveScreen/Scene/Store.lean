/-
Stores of numbered things. A thing gets the next free number when it is added
and keeps it; `get?_add` and `get?_modify` say what each operation does to the
view `get?`, and stores with the same view are equal (`ext_get?`).
-/
namespace LiveScreen

/-- Things by number. -/
structure Store (α : Type) where
  items : List α

namespace Store

variable {α : Type}

/-- The store without things. -/
def empty : Store α := ⟨[]⟩

/-- The thing with a number. -/
def get? (s : Store α) (i : Nat) : Option α := s.items[i]?

/-- The number the next thing gets. -/
def next (s : Store α) : Nat := s.items.length

/-- Adds a thing. -/
def add (s : Store α) (a : α) : Store α := ⟨s.items ++ [a]⟩

/-- Changes the thing with a number. -/
def modify (s : Store α) (i : Nat) (f : α → α) : Store α := ⟨s.items.modify i f⟩

@[simp] theorem get?_add_next (s : Store α) (a : α) : (s.add a).get? s.next = some a := by
  simp [add, get?, next]

theorem get?_add_old (s : Store α) (a : α) {i : Nat} (h : i < s.next) : (s.add a).get? i = s.get? i := by
  simp only [add, get?, next] at *
  exact List.getElem?_append_left h

theorem get?_eq_none_of_next_le (s : Store α) {i : Nat} (h : s.next ≤ i) : s.get? i = none := by
  simpa [get?, next] using h

@[simp] theorem next_add (s : Store α) (a : α) : (s.add a).next = s.next + 1 := by simp [add, next]

@[simp] theorem next_modify (s : Store α) (i : Nat) (f : α → α) : (s.modify i f).next = s.next := by
  simp [modify, next]

@[simp] theorem get?_modify_self (s : Store α) (i : Nat) (f : α → α) :
    (s.modify i f).get? i = (s.get? i).map f := by
  simp [modify, get?]

theorem get?_modify_other (s : Store α) {i j : Nat} (f : α → α) (h : i ≠ j) :
    (s.modify i f).get? j = s.get? j := by
  simp [modify, get?, h]

theorem ext_get? {s s' : Store α} (h : ∀ i, s'.get? i = s.get? i) : s' = s := by
  obtain ⟨items⟩ := s
  obtain ⟨items'⟩ := s'
  congr 1
  exact List.ext_getElem? h

theorem get?_add (s : Store α) (a : α) (i : Nat) : (s.add a).get? i = if i = s.next then some a else s.get? i := by
  rcases Nat.lt_trichotomy i s.next with h | h | h
  · rw [get?_add_old _ _ h, if_neg (by omega)]
  · rw [if_pos h, h, get?_add_next]
  · have hadd : (s.add a).next ≤ i := by rw [next_add]; omega
    rw [if_neg (by omega), get?_eq_none_of_next_le _ hadd, get?_eq_none_of_next_le _ (Nat.le_of_lt h)]

theorem get?_modify (s : Store α) (i j : Nat) (f : α → α) :
    (s.modify i f).get? j = if j = i then (s.get? j).map f else s.get? j := by
  by_cases h : j = i
  · subst h
    rw [get?_modify_self, if_pos rfl]
  · rw [get?_modify_other _ _ (Ne.symm h), if_neg h]

theorem modify_eq_const {s : Store α} {i : Nat} {a : α} (h : s.get? i = some a) (f : α → α) :
    s.modify i f = s.modify i fun _ => f a := by
  refine ext_get? fun j => ?_
  rw [get?_modify, get?_modify]
  split
  · rename_i hj
    rw [hj, h, Option.map_some, Option.map_some]
  · rfl

theorem modify_self {s : Store α} {i : Nat} {a : α} (h : s.get? i = some a) : (s.modify i fun _ => a) = s := by
  refine ext_get? fun j => ?_
  rw [get?_modify]
  split
  · rename_i hj
    rw [hj, h, Option.map_some]
  · rfl

theorem modify_modify (s : Store α) (i : Nat) (f g : α → α) : (s.modify i f).modify i g = s.modify i (g ∘ f) := by
  refine ext_get? fun j => ?_
  simp only [get?_modify]
  split
  · rw [Option.map_map]
  · rfl

/-- A thing that a change leaves alone can be added after it. -/
theorem modify_add (s : Store α) (i : Nat) {f : α → α} {a : α} (h : f a = a) :
    (s.add a).modify i f = (s.modify i f).add a := by
  refine ext_get? fun j => ?_
  rw [get?_modify, get?_add, get?_add, get?_modify, next_modify]
  by_cases hj : j = s.next
  · simp only [if_pos hj, Option.map_some, h, ite_self]
  · simp only [if_neg hj]

/-- Two changes that commute where they meet can be made in any order. -/
theorem modify_comm (s : Store α) (i j : Nat) {f g : α → α} (h : i = j → ∀ a, g (f a) = f (g a)) :
    (s.modify i f).modify j g = (s.modify j g).modify i f := by
  refine ext_get? fun k => ?_
  simp only [get?_modify]
  by_cases hi : k = i
  · by_cases hj : k = j
    · simp only [if_pos hi, if_pos hj, Option.map_map]
      congr 1
      exact funext (h (hi.symm.trans hj))
    · simp only [if_pos hi, if_neg hj]
  · simp only [if_neg hi]

end Store

end LiveScreen
