/-
Where the views of a declaration stand. A view is found by the path of child
numbers that leads to it from the outermost one (`NodeDecl.at?`), so equal
declarations at two places are two declared views (`NodeDecl.Position`). Every place
but the outermost is the child of one other (`Position.eq_root_or_child`,
`Position.child_inj`).
-/
import LiveScreen.Markup.Decl
import Mathlib.Data.List.FinRange
import Mathlib.Data.List.Induction

namespace LiveScreen.NodeDecl

/-- What a declaration says about its outermost view. -/
def view : NodeDecl → ViewDecl
  | .mk view _ => view

/-- The declarations directly in a declaration. -/
def children : NodeDecl → List NodeDecl
  | .mk _ children => children

/-- The declaration that a path of child numbers leads to. -/
def at? (d : NodeDecl) : List Nat → Option NodeDecl
  | [] => some d
  | i :: path => d.children[i]?.bind (·.at? path)

mutual

/-- All declarations in a declaration with the paths that lead to them, itself first. -/
def declared : NodeDecl → List (List Nat × NodeDecl)
  | .mk view children => ([], .mk view children) :: declaredFrom 0 children

/-- All declarations in the children of a declaration from a number on. -/
def declaredFrom (i : Nat) : List NodeDecl → List (List Nat × NodeDecl)
  | [] => []
  | d :: rest => d.declared.map (fun e => (i :: e.1, e.2)) ++ declaredFrom (i + 1) rest

end

@[simp] theorem at?_nil (d : NodeDecl) : d.at? [] = some d := rfl

@[simp] theorem at?_cons (d : NodeDecl) (i : Nat) (path : List Nat) :
    d.at? (i :: path) = d.children[i]?.bind (·.at? path) := rfl

theorem at?_append (d : NodeDecl) (path path' : List Nat) :
    d.at? (path ++ path') = (d.at? path).bind (·.at? path') := by
  induction path generalizing d with
  | nil => rfl
  | cons i path ih =>
    rw [List.cons_append, at?_cons, at?_cons, Option.bind_assoc]
    exact Option.bind_congr fun child _ => ih child

mutual

/-- The declarations in a declaration are those that paths lead to. -/
theorem mem_declared_iff {path : List Nat} {e : NodeDecl} :
    ∀ {d : NodeDecl}, (path, e) ∈ d.declared ↔ d.at? path = some e
  | .mk view children => by
    rw [declared, List.mem_cons, mem_declaredFrom_iff]
    cases path with
    | nil => simp [eq_comm]
    | cons i path => simp [NodeDecl.children]

theorem mem_declaredFrom_iff {i : Nat} {path : List Nat} {e : NodeDecl} :
    ∀ {ds : List NodeDecl}, (path, e) ∈ declaredFrom i ds ↔
      ∃ j path', path = (i + j) :: path' ∧ ds[j]?.bind (·.at? path') = some e
  | [] => by simp [declaredFrom]
  | d :: rest => by
    rw [declaredFrom, List.mem_append, List.mem_map, mem_declaredFrom_iff]
    constructor
    · rintro (⟨⟨path', e'⟩, hmem, heq⟩ | ⟨j, path', rfl, hj⟩)
      · obtain ⟨rfl, rfl⟩ := Prod.mk.inj heq
        exact ⟨0, path', rfl, mem_declared_iff.1 hmem⟩
      · exact ⟨j + 1, path', by rw [Nat.add_right_comm, Nat.add_assoc], hj⟩
    · rintro ⟨_ | j, path', rfl, hj⟩
      · exact .inl ⟨(path', e), mem_declared_iff.2 hj, rfl⟩
      · exact .inr ⟨j, path', by rw [Nat.add_right_comm, Nat.add_assoc], hj⟩

end

mutual

theorem length_declared : ∀ d : NodeDecl, d.declared.length = d.size
  | .mk view children => by rw [declared, List.length_cons, length_declaredFrom 0 children, size, Nat.add_comm]

theorem length_declaredFrom (i : Nat) : ∀ ds : List NodeDecl, (declaredFrom i ds).length = sizeAll ds
  | [] => rfl
  | d :: rest => by
    rw [declaredFrom, List.length_append, List.length_map, length_declared d, length_declaredFrom (i + 1) rest, sizeAll]

end

/-! ## Positions -/

/-- A place at which a declaration declares a view. -/
def Position (d : NodeDecl) : Type := { path : List Nat // (d.at? path).isSome = true }

namespace Position

variable {d : NodeDecl}

/-- The place of the outermost view. -/
def root (d : NodeDecl) : d.Position := ⟨[], rfl⟩

/-- What is declared at a place. -/
def decl (p : d.Position) : NodeDecl := (d.at? p.1).get p.2

theorem at?_path (p : d.Position) : d.at? p.1 = some p.decl := (Option.some_get p.2).symm

/-- The place of a view directly in another one. -/
def child (p : d.Position) (i : Fin p.decl.children.length) : d.Position :=
  ⟨p.1 ++ [i.1], by
    rw [at?_append, p.at?_path, Option.bind_some, at?_cons, List.getElem?_eq_getElem i.2]
    rfl⟩

/-- The places of the views directly in another one, in order. -/
def children (p : d.Position) : List d.Position := List.ofFn p.child

theorem mem_children {p c : d.Position} : c ∈ p.children ↔ ∃ i, p.child i = c := List.mem_ofFn

/-- Every place but that of the outermost view is in another one. -/
theorem eq_root_or_child (p : d.Position) : p = root d ∨ ∃ q : d.Position, p ∈ q.children := by
  obtain ⟨path, h⟩ := p
  induction path using List.reverseRecOn with
  | nil => exact .inl rfl
  | append_singleton path i _ =>
    obtain ⟨leaf, hleaf⟩ := Option.isSome_iff_exists.1 h
    rw [at?_append, Option.bind_eq_some_iff] at hleaf
    obtain ⟨e, he, hchild⟩ := hleaf
    obtain ⟨child, hi, -⟩ := Option.bind_eq_some_iff.1 hchild
    let q : d.Position := ⟨path, Option.isSome_iff_exists.2 ⟨e, he⟩⟩
    have hq : q.decl = e := Option.some.inj (q.at?_path.symm.trans he)
    have hlt : i < q.decl.children.length := by
      rw [hq]
      exact (List.getElem?_eq_some_iff.1 hi).1
    exact .inr ⟨q, mem_children.2 ⟨⟨i, hlt⟩, rfl⟩⟩

/-- What holds of the outermost place, and of every place in one of which it holds, holds of all. -/
theorem induction {motive : d.Position → Prop} (outer : motive (root d))
    (inner : ∀ p, motive p → ∀ c ∈ p.children, motive c) (p : d.Position) : motive p := by
  induction h : p.1.length using Nat.strongRecOn generalizing p with
  | ind n ih =>
    rcases p.eq_root_or_child with rfl | ⟨q, hq⟩
    · exact outer
    · refine inner q (ih q.1.length ?_ q rfl) p hq
      obtain ⟨i, rfl⟩ := mem_children.1 hq
      rw [← h, child, List.length_append]
      exact Nat.lt_succ_self _

/-- The place of a view tells the view it is in, and its number there. -/
theorem child_inj {p q : d.Position} {i : Fin p.decl.children.length} {j : Fin q.decl.children.length}
    (h : p.child i = q.child j) : p = q ∧ i.1 = j.1 := by
  have hpath : p.1 ++ [i.1] = q.1 ++ [j.1] := congrArg Subtype.val h
  obtain ⟨hp, hi⟩ := List.append_inj' hpath rfl
  exact ⟨Subtype.ext hp, List.singleton_inj.1 hi⟩

theorem nodup_children (p : d.Position) : p.children.Nodup :=
  List.nodup_ofFn.2 fun _ _ h => Fin.ext (child_inj h).2

end Position

end LiveScreen.NodeDecl
