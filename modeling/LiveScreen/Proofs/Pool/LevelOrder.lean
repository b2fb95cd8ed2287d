/-
The jobs that a forest comes to, level by level: the roots, then what the roots
queue, and so on (`PoolJob.levelOrder`). It is the only list that is made of the
roots and of what its own members queue, in this order (`eq_levelOrder`) or in any
(`perm_levelOrder`): of a pool only that equation has to be shown.
-/
import LiveScreen.Loader.Forest

namespace LiveScreen.PoolJob

/-- A job that queues something holds a reference to the pool. -/
theorem keepsPool_of_queued {j : PoolJob} (h : j.queued ≠ []) : j.keepsPool = true := by
  cases hkeeps : j.keepsPool with
  | true => rfl
  | false =>
    rw [queued, hkeeps, Bool.not_false, Bool.or_true, if_pos rfl] at h
    exact absurd rfl h

/-- What some jobs queue, in order. -/
def queuedBy (js : List PoolJob) : List PoolJob := js.flatMap queued

@[simp] theorem queuedBy_nil : queuedBy [] = [] := rfl

@[simp] theorem queuedBy_append (js js' : List PoolJob) : queuedBy (js ++ js') = queuedBy js ++ queuedBy js' :=
  List.flatMap_append

@[simp] theorem queuedBy_singleton (j : PoolJob) : queuedBy [j] = j.queued := List.flatMap_singleton ..

theorem queuedBy_perm {js js' : List PoolJob} (h : js.Perm js') : (queuedBy js).Perm (queuedBy js') :=
  h.flatMap_right queued

/-- Jobs queue the children of those that do not panic and hold a reference to the pool. -/
theorem queuedBy_eq (js : List PoolJob) :
    queuedBy js = (js.filter fun j => !j.panics && j.keepsPool).flatMap children := by
  induction js with
  | nil => rfl
  | cons j js ih =>
    have hqueued : j.queued = if !j.panics && j.keepsPool then j.children else [] := by
      rw [queued]
      cases j.panics <;> cases j.keepsPool <;> rfl
    rw [queuedBy, List.flatMap_cons, ← queuedBy, ih, hqueued, List.filter_cons]
    split <;> rfl

/-! ## Sizes -/

theorem sizeAll_append : ∀ js js' : List PoolJob, sizeAll (js ++ js') = sizeAll js + sizeAll js'
  | [], js' => by rw [List.nil_append, sizeAll, Nat.zero_add]
  | j :: js, js' => by rw [List.cons_append, sizeAll, sizeAll, sizeAll_append js js', Nat.add_assoc]

theorem sizeAll_perm {js js' : List PoolJob} (h : js.Perm js') : sizeAll js = sizeAll js' := by
  induction h with
  | nil => rfl
  | cons j _ ih => rw [sizeAll, sizeAll, ih]
  | swap j j' js => simp only [sizeAll, Nat.add_left_comm]
  | trans _ _ ih ih' => exact ih.trans ih'

/-- What jobs queue is smaller than they are, by at least one for each of them. -/
theorem sizeAll_queuedBy : ∀ js : List PoolJob, sizeAll (queuedBy js) + js.length ≤ sizeAll js
  | [] => Nat.le_refl 0
  | .mk tag panics named keepsPool children :: js => by
    have ih := sizeAll_queuedBy js
    have hqueued : sizeAll (queued (.mk tag panics named keepsPool children)) ≤ sizeAll children := by
      rw [queued]
      split
      · exact Nat.zero_le _
      · exact Nat.le_refl _
    rw [queuedBy, List.flatMap_cons, sizeAll_append, List.length_cons, sizeAll, size]
    rw [queuedBy] at ih
    omega

/-- Nothing but the empty list is made of what its own members queue. -/
theorem eq_nil_of_perm_queuedBy {js : List PoolJob} (h : js.Perm (queuedBy js)) : js = [] := by
  have hsize := sizeAll_perm h
  have hless := sizeAll_queuedBy js
  exact List.eq_nil_of_length_eq_zero (by omega)

/-! ## Levels -/

/-- The jobs that some jobs come to, level by level. -/
def levelOrder : List PoolJob → List PoolJob
  | [] => []
  | j :: js => j :: js ++ levelOrder (queuedBy (j :: js))
termination_by js => sizeAll js
decreasing_by
  have hless := sizeAll_queuedBy (j :: js)
  rw [List.length_cons] at hless
  omega

/-- First come the jobs themselves, then what they queue. -/
theorem levelOrder_eq : ∀ js : List PoolJob, levelOrder js = js ++ levelOrder (queuedBy js)
  | [] => by rw [queuedBy_nil, levelOrder, List.append_nil]
  | j :: js => by rw [levelOrder]

/-- Whatever is in the level order was there from the start or is queued by something in it. -/
theorem levelOrder_eq_queuedBy (js : List PoolJob) : levelOrder js = js ++ queuedBy (levelOrder js) := by
  induction js using levelOrder.induct with
  | case1 => rw [levelOrder]; rfl
  | case2 j js ih =>
    have hnext : queuedBy (levelOrder (j :: js)) = levelOrder (queuedBy (j :: js)) := by
      rw [levelOrder_eq (j :: js), queuedBy_append]
      exact ih.symm
    rw [hnext]
    exact levelOrder_eq _

/-- A list of the jobs and of what its own members queue, in some order, is their level order up to order. -/
theorem perm_levelOrder {js xs : List PoolJob} (h : xs.Perm (js ++ queuedBy xs)) : xs.Perm (levelOrder js) := by
  induction js using levelOrder.induct generalizing xs with
  | case1 => rw [eq_nil_of_perm_queuedBy h, levelOrder]
  | case2 j js ih =>
    -- what comes after the roots solves the same equation for the jobs they queue
    have hnext : (queuedBy xs).Perm (queuedBy (j :: js) ++ queuedBy (queuedBy xs)) := by
      rw [← queuedBy_append]
      exact queuedBy_perm h
    rw [levelOrder_eq]
    exact h.trans ((ih hnext).append_left _)

/-- A list of the jobs and of what its own members queue, in this order, is their level order. -/
theorem eq_levelOrder {js xs : List PoolJob} (h : xs = js ++ queuedBy xs) : xs = levelOrder js := by
  induction js using levelOrder.induct generalizing xs with
  | case1 => rw [eq_nil_of_perm_queuedBy (.of_eq h), levelOrder]
  | case2 j js ih =>
    have hnext : queuedBy xs = queuedBy (j :: js) ++ queuedBy (queuedBy xs) := by
      rw [← queuedBy_append, ← h]
    rw [levelOrder_eq, ← ih hnext]
    exact h

/-- A forest comes to no more jobs than it has. -/
theorem length_levelOrder_le (js : List PoolJob) : (levelOrder js).length ≤ sizeAll js := by
  have hless := sizeAll_queuedBy (levelOrder js)
  have hsize := congrArg sizeAll (levelOrder_eq_queuedBy js)
  rw [sizeAll_append] at hsize
  omega

/-- What jobs come to is what they come to one by one, whatever becomes of the others. -/
theorem levelOrder_append_perm (js js' : List PoolJob) :
    (levelOrder (js ++ js')).Perm (levelOrder js ++ levelOrder js') := by
  have hjs := levelOrder_eq_queuedBy js
  have hjs' := levelOrder_eq_queuedBy js'
  refine (perm_levelOrder ?_).symm
  calc levelOrder js ++ levelOrder js'
      = js ++ (queuedBy (levelOrder js) ++ (js' ++ queuedBy (levelOrder js'))) := by
        rw [← hjs', ← List.append_assoc, ← hjs]
    List.Perm _ (js ++ (js' ++ (queuedBy (levelOrder js) ++ queuedBy (levelOrder js')))) :=
        (List.perm_append_comm_assoc ..).append_left js
    _ = js ++ js' ++ queuedBy (levelOrder js ++ levelOrder js') := by
        rw [queuedBy_append, List.append_assoc]

/-- A job comes to itself and what comes of the jobs it queues. -/
theorem levelOrder_perm_flatMap : ∀ js : List PoolJob,
    (levelOrder js).Perm (js.flatMap fun j => j :: levelOrder j.queued)
  | [] => by rw [levelOrder]; rfl
  | j :: js => by
    have hfirst : levelOrder [j] = j :: levelOrder j.queued := by
      rw [levelOrder_eq, queuedBy_singleton, List.singleton_append]
    have happend := levelOrder_append_perm [j] js
    rw [hfirst] at happend
    exact happend.trans ((levelOrder_perm_flatMap js).append_left _)

end LiveScreen.PoolJob
