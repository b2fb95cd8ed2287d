/-
A pool runs every job exactly once, whatever its workers do, whenever the owner
queues a job and wherever the last reference to the pool is dropped
(`Forest.serves`). It rests on two equations that each move keeps: what was
started and what waits is what was queued, in this order (`Accounted.inTurn`),
and what was queued and what running jobs have still to queue is what the owner
queued and what was started queues (`Accounted.once`). Nothing is queued once the
queue is closed, since a job that has still to queue another one holds the pool
(`Accounted.held`).

A single worker keeps the order in which the jobs were queued. That is the level
order if the owner was done before a job queued another one (`RootsFirst`), and
need not be otherwise (`lateRoot_not_in_level_order`).
-/
import LiveScreen.Proofs.Pool.LevelOrder

namespace LiveScreen.Forest

open PoolJob (queuedBy levelOrder)

/-- Moves one after the other; a move that is not possible ends them without a result. -/
def steps? (f : Forest) : List Move → Option Forest
  | [] => some f
  | m :: rest => (f.step? m).bind fun f => f.steps? rest

theorem steps?_append : ∀ (ms ms' : List Move) (f : Forest),
    f.steps? (ms ++ ms') = (f.steps? ms).bind fun f => f.steps? ms'
  | [], ms', f => rfl
  | m :: ms, ms', f => by
    rw [List.cons_append, steps?, steps?, Option.bind_assoc]
    congr 1
    funext f
    exact steps?_append ms ms' f

/-- The job that the owner queues in a move. -/
def Move.root? : Move → Option PoolJob
  | .execute job => some job
  | .take | .advance _ | .disown => none

/-- The jobs that the owner queues in some moves, in order. -/
def roots (ms : List Move) : List PoolJob := ms.filterMap Move.root?

@[simp] theorem roots_append (ms ms' : List Move) : roots (ms ++ ms') = roots ms ++ roots ms' :=
  List.filterMap_append

theorem roots_execute (js : List PoolJob) : roots (js.map .execute) = js := by
  rw [roots, List.filterMap_map]
  exact List.filterMap_some

/-- The owner is done before a job queues another one: whenever it queues a job, only jobs of its own
have been queued. -/
def RootsFirst (threads : Nat) (ms : List Move) : Prop :=
  ∀ before job after f, ms = before ++ .execute job :: after → (new threads).steps? before = some f →
    f.submitted = roots before

/-- The jobs that those that run have still to queue. -/
def left (f : Forest) : List PoolJob := f.workers.busy.flatMap (·.left)

/-- The jobs that wait, and those that running jobs have still to queue. -/
def coming (f : Forest) : List PoolJob := f.workers.waiting.map (·.job) ++ f.left

/-- Whether a worker that asks for a job is told that there will be none any more: nothing waits
and nobody holds the pool. That is when a worker stops. -/
def isDrained (f : Forest) : Bool := f.workers.waiting.isEmpty && !f.isOpen

/-! ## Moves -/

/-- What a move does. -/
inductive Turn (f : Forest) : Move → Forest → Prop
  | execute {job} (owned : f.owned = true) : Turn f (.execute job) (f.submit job)
  | take {task rest} (free : f.workers.busy.length < f.workers.threads) (waiting : f.workers.waiting = task :: rest) :
    Turn f .take
      { f with
        workers := ⟨f.workers.threads, rest, f.workers.busy ++ [task]⟩
        started := f.started ++ [task.job] }
  | queue {before job child left after} (busy : f.workers.busy = before ++ ⟨job, child :: left⟩ :: after) :
    Turn f (.advance before.length)
      { f with
        workers :=
          ⟨f.workers.threads, f.workers.waiting ++ [⟨child, child.queued⟩], before ++ ⟨job, left⟩ :: after⟩
        submitted := f.submitted ++ [child] }
  | finish {before job after} (busy : f.workers.busy = before ++ ⟨job, []⟩ :: after) :
    Turn f (.advance before.length)
      { f with workers := ⟨f.workers.threads, f.workers.waiting, before ++ after⟩ }
  | disown (owned : f.owned = true) : Turn f .disown { f with owned := false }

variable {f f' : Forest} {m : Move}

/-- The jobs before and after the one on a thread. -/
theorem busy_eq_append {i : Nat} {task : PoolTask} (h : f.workers.busy[i]? = some task) :
    ∃ before after, f.workers.busy = before ++ task :: after ∧ before.length = i := by
  obtain ⟨hlt, hget⟩ := List.getElem?_eq_some_iff.1 h
  refine ⟨f.workers.busy.take i, f.workers.busy.drop (i + 1), ?_, List.length_take_of_le (Nat.le_of_lt hlt)⟩
  rw [← hget, List.getElem_cons_drop, List.take_append_drop]

theorem turn_of_step (h : f.step? m = some f') : f.Turn m f' := by
  cases m with
  | execute job =>
    rw [step?] at h
    cases howned : f.owned with
    | false => simp [howned] at h
    | true =>
      simp only [howned, if_true, Option.some.injEq] at h
      subst h
      exact .execute howned
  | take =>
    rw [step?, Workers.take?] at h
    by_cases hfree : f.workers.busy.length < f.workers.threads
    · rw [if_pos hfree] at h
      cases hwaiting : f.workers.waiting with
      | nil => simp [hwaiting] at h
      | cons task rest =>
        simp only [hwaiting, Option.some.injEq] at h
        subst h
        exact .take hfree hwaiting
    · simp [if_neg hfree] at h
  | advance i =>
    rw [step?] at h
    cases htask : f.workers.busy[i]? with
    | none => simp [htask] at h
    | some task =>
      obtain ⟨before, after, hbusy, rfl⟩ := busy_eq_append htask
      obtain ⟨job, left⟩ := task
      cases left with
      | nil =>
        have hretire : f.workers.retire before.length = { f.workers with busy := before ++ after } := by
          rw [Workers.retire, hbusy, List.eraseIdx_append_of_length_le (Nat.le_refl _), Nat.sub_self,
            List.eraseIdx_cons_zero]
        simp only [htask, hretire, Option.some.injEq] at h
        subst h
        exact .finish hbusy
      | cons child left =>
        have hupdate : f.workers.update before.length ⟨job, left⟩ =
            { f.workers with busy := before ++ ⟨job, left⟩ :: after } := by
          rw [Workers.update, hbusy, List.set_append_right _ _ (Nat.le_refl _), Nat.sub_self, List.set_cons_zero]
        simp only [htask, hupdate, submit, Workers.submit, Option.some.injEq] at h
        subst h
        exact .queue hbusy
  | disown =>
    rw [step?] at h
    cases howned : f.owned with
    | false => simp [howned] at h
    | true =>
      simp only [howned, if_true, Option.some.injEq] at h
      subst h
      exact .disown howned

theorem isStopped_iff : f.isStopped = true ↔ f.workers.waiting = [] ∧ f.workers.busy = [] ∧ f.owned = false := by
  rw [isStopped, Workers.isIdle, isOpen]
  constructor
  · intro h
    simp only [Bool.and_eq_true, List.isEmpty_iff, Bool.not_eq_true', Bool.or_eq_false_iff] at h
    exact ⟨h.1.1, h.1.2, h.2.1.1⟩
  · rintro ⟨hwaiting, hbusy, howned⟩
    rw [hwaiting, hbusy, howned]
    rfl

theorem isDrained_iff : f.isDrained = true ↔
    f.workers.waiting = [] ∧ f.owned = false ∧ ∀ task ∈ f.workers.busy, task.job.keepsPool = false := by
  rw [isDrained, isOpen]
  constructor
  · intro h
    simp only [Bool.and_eq_true, List.isEmpty_iff, Bool.not_eq_true', Bool.or_eq_false_iff, List.any_eq_false,
      Bool.not_eq_true] at h
    exact ⟨h.1, h.2.1.1, h.2.2⟩
  · rintro ⟨hwaiting, howned, hbusy⟩
    rw [hwaiting, howned]
    simpa using hbusy

/-- As long as a pool has not stopped, the move of a single worker is possible. -/
theorem isSome_step?_serial (hthreads : 1 ≤ f.workers.threads) (h : f.isStopped = false) :
    (f.step? f.serial).isSome = true := by
  cases hbusy : f.workers.busy with
  | cons task busy =>
    obtain ⟨job, left⟩ := task
    cases left <;> simp [serial, step?, hbusy]
  | nil =>
    cases hwaiting : f.workers.waiting with
    | cons task rest =>
      have hfree : 0 < f.workers.threads := hthreads
      simp [serial, step?, Workers.take?, hbusy, hwaiting, hfree]
    | nil =>
      have howned : f.owned = true := by
        cases howned : f.owned with
        | true => rfl
        | false =>
          rw [isStopped_iff.2 ⟨hwaiting, hbusy, howned⟩] at h
          cases h
      simp [serial, step?, hbusy, hwaiting, howned]

/-- A pool that has stopped does nothing any more. -/
theorem step?_of_isStopped (h : f.isStopped = true) (m : Move) : f.step? m = none := by
  obtain ⟨hwaiting, hbusy, howned⟩ := isStopped_iff.1 h
  cases m with
  | execute job => simp [step?, howned]
  | take => simp [step?, Workers.take?, hwaiting]
  | advance i => simp [step?, hbusy]
  | disown => simp [step?, howned]

/-- What every move keeps, moves one after the other keep. -/
theorem steps_induction {p : List Move → Forest → Prop}
    (hp : ∀ {ms f m f'}, p ms f → f.step? m = some f' → p (ms ++ [m]) f') :
    ∀ {ms ms' : List Move} {f f' : Forest}, p ms f → f.steps? ms' = some f' → p (ms ++ ms') f'
  | ms, [], f, f', hf, h => by
    cases h
    rwa [List.append_nil]
  | ms, m :: ms', f, f', hf, h => by
    obtain ⟨g, hstep, hrest⟩ := Option.bind_eq_some_iff.1 h
    have hend := steps_induction hp (hp hf hstep) hrest
    rwa [List.append_assoc] at hend

theorem run_induction {threads : Nat} {p : List Move → Forest → Prop} (hnew : p [] (new threads))
    (hp : ∀ {ms f m f'}, (new threads).steps? ms = some f → p ms f → f.step? m = some f' → p (ms ++ [m]) f')
    {ms : List Move} (h : (new threads).steps? ms = some f) : p ms f := by
  have hstart : (new threads).steps? [] = some (new threads) ∧ p [] (new threads) := ⟨rfl, hnew⟩
  refine (steps_induction (p := fun ms g => (new threads).steps? ms = some g ∧ p ms g) ?_ hstart h).2
  rintro ms g m g' ⟨hsteps, hg⟩ hstep
  refine ⟨?_, hp hsteps hg hstep⟩
  rw [steps?_append, hsteps, Option.bind_some, steps?, hstep]
  rfl

/-! ## What every move keeps -/

/-- What has become of the jobs after some moves. -/
structure Accounted (threads : Nat) (ms : List Move) (f : Forest) : Prop where
  threads : f.workers.threads = max threads 1
  /-- No more jobs run than there are threads. -/
  busy : f.workers.busy.length ≤ f.workers.threads
  /-- A job that waits has not queued anything yet. -/
  waits : ∀ task ∈ f.workers.waiting, task.left = task.job.queued
  /-- A job that has still to queue another one holds the pool. -/
  held : ∀ task ∈ f.workers.busy, task.left ≠ [] → task.job.keepsPool = true
  /-- What was started and what waits is what was queued. -/
  inTurn : f.started ++ f.workers.waiting.map (·.job) = f.submitted
  /-- What was and will be queued is what the owner queued and what was started queues. -/
  once : (f.submitted ++ f.left).Perm (roots ms ++ queuedBy f.started)
  /-- The owner's jobs were queued in the order of its moves. -/
  rootsInOrder : (roots ms).Sublist f.submitted
  /-- Each job is queued and taken and ends. -/
  moves : ms.length + f.workers.busy.length + f.owned.toNat =
    3 * f.started.length + f.workers.waiting.length + 1

theorem Accounted.new (threads : Nat) : Accounted threads [] (new threads) where
  threads := rfl
  busy := Nat.zero_le _
  waits := fun _ htask => nomatch htask
  held := fun _ htask => nomatch htask
  inTurn := rfl
  once := .refl _
  rootsInOrder := .refl _
  moves := rfl

/-- What the owner queues in a move goes behind all that was queued. -/
theorem Turn.submitted_prefix (h : f.Turn m f') : f.submitted ++ m.root?.toList <+: f'.submitted := by
  cases h <;> simp [submit, Move.root?]

/-- What the owner queues in a move is queued before, and what a job that is started queues behind all that
running jobs have still to queue. -/
theorem Turn.balance (h : f.Turn m f') (waits : ∀ task ∈ f.workers.waiting, task.left = task.job.queued) :
    ∃ more, queuedBy f'.started = queuedBy f.started ++ more ∧
      (f'.submitted ++ f'.left).Perm (f.submitted ++ m.root?.toList ++ (f.left ++ more)) ∧
      (f'.workers.busy.length ≤ 1 →
        f'.submitted ++ f'.left = f.submitted ++ m.root?.toList ++ (f.left ++ more)) := by
  cases h with
  | @execute job owned =>
    have heq : f.submitted ++ [job] ++ f.left = f.submitted ++ [job] ++ (f.left ++ []) := by rw [List.append_nil f.left]
    exact ⟨[], (List.append_nil _).symm, .of_eq heq, fun _ => heq⟩
  | @take task rest free waiting =>
    have heq : f.submitted ++ (f.workers.busy ++ [task]).flatMap (·.left) =
        f.submitted ++ [] ++ (f.left ++ task.job.queued) := by
      rw [← waits task (by rw [waiting]; exact List.mem_cons_self), List.flatMap_append, List.flatMap_singleton,
        List.append_nil, left]
    exact ⟨task.job.queued, by simp, .of_eq heq, fun _ => heq⟩
  | @queue before job child left after busy =>
    have hleft : f.left = before.flatMap (·.left) ++ child :: (left ++ after.flatMap (·.left)) := by
      rw [Forest.left, busy]
      simp
    have hqueued : f.submitted ++ [child] ++ (before ++ ⟨job, left⟩ :: after).flatMap (·.left) =
        f.submitted ++ child :: (before.flatMap (·.left) ++ (left ++ after.flatMap (·.left))) := by
      simp
    -- the child goes past what the threads before this one have still to queue
    refine ⟨[], (List.append_nil _).symm, ?_, fun hone => ?_⟩
    · rw [hleft, Move.root?, Option.toList_none, List.append_nil, List.append_nil]
      exact (List.Perm.of_eq hqueued).trans (List.perm_middle.symm.append_left _)
    · have hbefore : before = [] := by
        rw [List.length_append, List.length_cons] at hone
        exact List.eq_nil_of_length_eq_zero (by omega)
      rw [hleft, hbefore]
      simp [Forest.left, Move.root?]
  | @finish before job after busy =>
    have heq : f.submitted ++ (before ++ after).flatMap (·.left) = f.submitted ++ [] ++ (f.left ++ []) := by
      rw [left, busy]
      simp
    exact ⟨[], (List.append_nil _).symm, .of_eq heq, fun _ => heq⟩
  | disown =>
    have heq : f.submitted ++ f.left = f.submitted ++ [] ++ (f.left ++ []) := by simp
    exact ⟨[], (List.append_nil _).symm, .of_eq heq, fun _ => heq⟩

@[simp] theorem roots_singleton (m : Move) : roots [m] = m.root?.toList := by
  cases m <;> rfl

theorem Accounted.turn {threads : Nat} {ms : List Move} (ha : Accounted threads ms f) (h : f.Turn m f') :
    Accounted threads (ms ++ [m]) f' where
  threads := by
    cases h <;> exact ha.threads
  busy := by
    have hbusy := ha.busy
    cases h with
    | execute owned => exact hbusy
    | take free waiting => rwa [List.length_append, List.length_singleton]
    | queue busy => simpa [busy] using hbusy
    | finish busy =>
      simp only [busy, List.length_append, List.length_cons] at hbusy
      simp only [List.length_append]
      omega
    | disown owned => exact hbusy
  waits := by
    intro task htask
    cases h with
    | execute owned =>
      obtain hbefore | hnew := List.mem_append.1 htask
      · exact ha.waits task hbefore
      · rw [List.mem_singleton.1 hnew]
    | take free waiting => exact ha.waits task (by rw [waiting]; exact List.mem_cons_of_mem _ htask)
    | queue busy =>
      obtain hbefore | hnew := List.mem_append.1 htask
      · exact ha.waits task hbefore
      · rw [List.mem_singleton.1 hnew]
    | finish busy => exact ha.waits task htask
    | disown owned => exact ha.waits task htask
  held := by
    intro task htask hleft
    cases h with
    | execute owned => exact ha.held task htask hleft
    | @take first rest free waiting =>
      obtain hbusy | hnew := List.mem_append.1 htask
      · exact ha.held task hbusy hleft
      · rw [List.mem_singleton.1 hnew] at hleft ⊢
        rw [ha.waits first (by rw [waiting]; exact List.mem_cons_self)] at hleft
        exact PoolJob.keepsPool_of_queued hleft
    | @queue before job child left after busy =>
      have hjob : job.keepsPool = true := ha.held ⟨job, child :: left⟩ (by simp [busy]) (List.cons_ne_nil child left)
      obtain hbefore | hafter := List.mem_append.1 htask
      · exact ha.held task (by rw [busy]; exact List.mem_append_left _ hbefore) hleft
      · obtain rfl | hafter := List.mem_cons.1 hafter
        · exact hjob
        · exact ha.held task (by simp [busy, hafter]) hleft
    | @finish before job after busy =>
      refine ha.held task ?_ hleft
      rw [busy]
      exact (List.Sublist.append_left (List.sublist_cons_self ..) before).subset htask
    | disown owned => exact ha.held task htask hleft
  inTurn := by
    have hturn := ha.inTurn
    cases h with
    | execute owned => simp [submit, ← hturn]
    | take free waiting => simpa [waiting] using hturn
    | queue busy => simp [← hturn]
    | finish busy => exact hturn
    | disown owned => exact hturn
  once := by
    obtain ⟨more, hqueued, hperm, -⟩ := h.balance ha.waits
    rw [roots_append, roots_singleton, hqueued]
    calc (f'.submitted ++ f'.left).Perm (f.submitted ++ m.root?.toList ++ (f.left ++ more)) := hperm
      _ = f.submitted ++ (m.root?.toList ++ f.left) ++ more := by simp only [List.append_assoc]
      List.Perm _ (m.root?.toList ++ (f.submitted ++ f.left) ++ more) :=
        (List.perm_append_comm_assoc ..).append_right more
      List.Perm _ (m.root?.toList ++ (roots ms ++ queuedBy f.started) ++ more) :=
        (ha.once.append_left _).append_right more
      List.Perm _ (roots ms ++ (m.root?.toList ++ queuedBy f.started) ++ more) :=
        (List.perm_append_comm_assoc ..).append_right more
      _ = roots ms ++ m.root?.toList ++ (queuedBy f.started ++ more) := by simp only [List.append_assoc]
  rootsInOrder := by
    rw [roots_append, roots_singleton]
    exact (ha.rootsInOrder.append_right _).trans h.submitted_prefix.sublist
  moves := by
    have hmoves := ha.moves
    rw [List.length_append, List.length_singleton]
    cases h with
    | execute owned =>
      simp only [submit, Workers.submit, List.length_append, List.length_singleton]
      omega
    | take free waiting =>
      simp only [waiting, List.length_append, List.length_cons] at hmoves ⊢
      simp only [List.length_nil]
      omega
    | queue busy =>
      simp only [busy, List.length_append, List.length_cons] at hmoves ⊢
      simp only [List.length_nil]
      omega
    | finish busy =>
      simp only [busy, List.length_append, List.length_cons] at hmoves ⊢
      omega
    | disown howned =>
      simp only [howned, Bool.toNat_true, Bool.toNat_false] at hmoves ⊢
      omega

section Accounted

variable {threads : Nat} {ms : List Move}

theorem Accounted.step (ha : Accounted threads ms f) (h : f.step? m = some f') : Accounted threads (ms ++ [m]) f' :=
  ha.turn (turn_of_step h)

theorem Accounted.steps {ms' : List Move} (ha : Accounted threads ms f) (h : f.steps? ms' = some f') :
    Accounted threads (ms ++ ms') f' :=
  steps_induction Accounted.step ha h

theorem accounted_of_steps (h : (new threads).steps? ms = some f) : Accounted threads ms f :=
  (Accounted.new threads).steps h

theorem Accounted.one_le_threads (ha : Accounted threads ms f) : 1 ≤ f.workers.threads := by
  rw [ha.threads]
  exact Nat.le_max_right threads 1

theorem Accounted.started_append_coming (ha : Accounted threads ms f) :
    f.started ++ f.coming = f.submitted ++ f.left := by
  rw [coming, ← List.append_assoc, ha.inTurn]

/-- What was started and what all the rest will come to are the jobs that the roots come to. -/
theorem Accounted.perm_levelOrder (ha : Accounted threads ms f) :
    (f.started ++ levelOrder f.coming).Perm (levelOrder (roots ms)) := by
  refine PoolJob.perm_levelOrder ?_
  have hcoming := PoolJob.levelOrder_eq_queuedBy f.coming
  calc f.started ++ levelOrder f.coming
      = f.submitted ++ f.left ++ queuedBy (levelOrder f.coming) := by
        rw [← ha.started_append_coming, List.append_assoc, ← hcoming]
    List.Perm _ (roots ms ++ queuedBy f.started ++ queuedBy (levelOrder f.coming)) := ha.once.append_right _
    _ = roots ms ++ queuedBy (f.started ++ levelOrder f.coming) := by rw [List.append_assoc, PoolJob.queuedBy_append]

/-- A job that has still to queue another one finds the queue open. -/
theorem Accounted.isOpen_of_left (ha : Accounted threads ms f) {task : PoolTask}
    (htask : task ∈ f.workers.busy) (hleft : task.left ≠ []) : f.isOpen = true := by
  have hbusy : f.workers.busy.any (·.job.keepsPool) = true := List.any_eq_true.2 ⟨task, htask, ha.held task htask hleft⟩
  rw [isOpen, hbusy, Bool.or_true]

/-- A worker that has stopped misses nothing. -/
theorem Accounted.drained_turn (ha : Accounted threads ms f) (hd : f.isDrained = true)
    (h : f.Turn m f') : f'.isDrained = true ∧ f'.started = f.started := by
  obtain ⟨hwaiting, howned, hbusy⟩ := isDrained_iff.1 hd
  cases h with
  | execute owned => rw [howned] at owned; cases owned
  | take free waiting => rw [hwaiting] at waiting; cases waiting
  | @queue before job child left after busy =>
    have hmem : ⟨job, child :: left⟩ ∈ f.workers.busy := by simp [busy]
    have hheld := ha.held _ hmem (List.cons_ne_nil child left)
    rw [hbusy _ hmem] at hheld
    cases hheld
  | @finish before job after busy =>
    refine ⟨isDrained_iff.2 ⟨hwaiting, howned, fun task htask => hbusy task ?_⟩, rfl⟩
    rw [busy]
    exact (List.Sublist.append_left (List.sublist_cons_self ..) before).subset htask
  | disown owned => rw [howned] at owned; cases owned

theorem Accounted.drained_steps {ms' : List Move} (ha : Accounted threads ms f)
    (hd : f.isDrained = true) (h : f.steps? ms' = some f') : f'.isDrained = true ∧ f'.started = f.started := by
  refine (steps_induction (p := fun ms g => Accounted threads ms g ∧ g.isDrained = true ∧ g.started = f.started)
    ?_ ⟨ha, hd, rfl⟩ h).2
  rintro ms g m g' ⟨hg, hdrained, hstarted⟩ hstep
  obtain ⟨hdrained', hstarted'⟩ := hg.drained_turn hdrained (turn_of_step hstep)
  exact ⟨hg.step hstep, hdrained', hstarted'.trans hstarted⟩

/-- Each job is queued, taken and ended at most once, and the owner lets go of the pool at most once. -/
theorem Accounted.length_le (ha : Accounted threads ms f) : ms.length ≤ 3 * (levelOrder (roots ms)).length + 1 := by
  have hmoves := ha.moves
  have hlength := ha.perm_levelOrder.length_eq
  rw [PoolJob.levelOrder_eq, coming, List.length_append, List.length_append, List.length_append, List.length_map]
    at hlength
  omega

/-- When all workers have stopped, everything that was queued has been started. -/
theorem Accounted.started_eq (ha : Accounted threads ms f) (h : f.isStopped = true) :
    f.started = f.submitted ++ f.left ∧ f.started = f.submitted := by
  obtain ⟨hwaiting, hbusy, -⟩ := isStopped_iff.1 h
  have hall := ha.started_append_coming
  rw [coming, left, hwaiting, hbusy] at hall
  rw [left, hbusy]
  simpa using hall

/-- What was started is closed under queueing then. -/
theorem Accounted.started_perm_queuedBy (ha : Accounted threads ms f) (h : f.isStopped = true) :
    f.started.Perm (roots ms ++ queuedBy f.started) := by
  have honce := ha.once
  rwa [← (ha.started_eq h).1] at honce

/-- All jobs that the roots come to have been started then. -/
theorem Accounted.started_perm (ha : Accounted threads ms f) (h : f.isStopped = true) :
    f.started.Perm (levelOrder (roots ms)) :=
  PoolJob.perm_levelOrder (ha.started_perm_queuedBy h)

theorem Accounted.length_eq (ha : Accounted threads ms f) (h : f.isStopped = true) :
    ms.length = 3 * (levelOrder (roots ms)).length + 1 := by
  have hmoves := ha.moves
  have hlength := (ha.started_perm h).length_eq
  obtain ⟨hwaiting, hbusy, howned⟩ := isStopped_iff.1 h
  rw [hwaiting, hbusy, howned, List.length_nil, Bool.toNat_false] at hmoves
  omega

/-- All workers have stopped if a single one cannot move. -/
theorem Accounted.isStopped_of_serial (ha : Accounted threads ms f) (h : f.step? f.serial = none) :
    f.isStopped = true := by
  cases hs : f.isStopped with
  | true => rfl
  | false =>
    have hserial := isSome_step?_serial ha.one_le_threads hs
    rw [h] at hserial
    cases hserial

/-! ## One job at a time -/

/-- The jobs that were queued and those that are still to be queued stand in level order. -/
def InLine (js : List PoolJob) (f : Forest) : Prop := f.submitted ++ f.left = js ++ queuedBy f.started

/-- With one job at a time, the jobs stay in line as long as the owner only queues one if no job has queued another. -/
theorem Accounted.inLine_step {js : List PoolJob} (ha : Accounted threads ms f) (hline : f.InLine js)
    (h : f.step? m = some f') (hone : f'.workers.busy.length ≤ 1) (hfirst : m.root? ≠ none → f.submitted = js) :
    f'.InLine (js ++ m.root?.toList) := by
  obtain ⟨more, hqueued, -, heq⟩ := (turn_of_step h).balance ha.waits
  rw [InLine, heq hone, hqueued]
  rw [InLine] at hline
  cases hroot : m.root? with
  | none =>
    rw [Option.toList_none, List.append_nil, List.append_nil, ← List.append_assoc, hline, List.append_assoc]
  | some job =>
    have hjs := hfirst (by rw [hroot]; exact Option.some_ne_none job)
    rw [hjs] at hline ⊢
    rw [List.append_cancel_left hline]

/-- One worker has no more than one job at a time. -/
theorem Accounted.busy_le_one (ha : Accounted threads ms f) (hthreads : threads ≤ 1) : f.workers.busy.length ≤ 1 := by
  have hbusy := ha.busy
  rw [ha.threads] at hbusy
  omega

theorem RootsFirst.of_append {ms' : List Move} (h : RootsFirst threads (ms ++ ms')) : RootsFirst threads ms := by
  intro before job after f hms hf
  exact h before job (after ++ ms') f (by rw [hms, List.append_assoc, List.cons_append]) hf

/-- The one worker keeps the jobs in line if the owner queues all of its own first. -/
theorem inLine_of_rootsFirst (hthreads : threads ≤ 1) (h : (new threads).steps? ms = some f)
    (hfirst : RootsFirst threads ms) : f.InLine (roots ms) := by
  refine run_induction (p := fun ms g => RootsFirst threads ms → g.InLine (roots ms)) (fun _ => rfl) ?_ h hfirst
  intro ms g m g' hsteps hline hstep hfirst
  have hg := accounted_of_steps hsteps
  rw [roots_append, roots_singleton]
  refine hg.inLine_step (hline hfirst.of_append) hstep ((hg.step hstep).busy_le_one hthreads) fun hroot => ?_
  cases m with
  | execute job => exact hfirst ms job [] g rfl hsteps
  | take => cases hroot rfl
  | advance i => cases hroot rfl
  | disown => cases hroot rfl

/-- With one worker, what the jobs queue is queued in the order in which they were started. -/
theorem queuedBy_sublist (hthreads : threads ≤ 1) (h : (new threads).steps? ms = some f) :
    (queuedBy f.started).Sublist (f.submitted ++ f.left) := by
  refine run_induction (p := fun _ g => (queuedBy g.started).Sublist (g.submitted ++ g.left)) (.refl _) ?_ h
  intro ms g m g' hsteps hsub hstep
  have hg := accounted_of_steps hsteps
  obtain ⟨more, hqueued, -, heq⟩ := (turn_of_step hstep).balance hg.waits
  rw [hqueued, heq ((hg.step hstep).busy_le_one hthreads), ← List.append_assoc]
  exact (hsub.trans ((List.sublist_append_left ..).append_right _)).append_right more

theorem Accounted.eq_levelOrder {js : List PoolJob} (ha : Accounted threads ms f) (hline : f.InLine js)
    (h : f.isStopped = true) : f.started = levelOrder js := by
  rw [InLine, ← (ha.started_eq h).1] at hline
  exact PoolJob.eq_levelOrder hline

end Accounted

/-- How a pool serves the jobs that it is given in some moves. -/
structure Serves (threads : Nat) (ms : List Move) (f : Forest) : Prop where
  /-- There is at least one worker, and no more jobs run than there are workers. -/
  workers : f.workers.threads = max threads 1 ∧ f.workers.busy.length ≤ f.workers.threads
  /-- No job has been started that is not due, and none twice. -/
  atMostOnce : ∃ later, (f.started ++ later).Perm (levelOrder (roots ms))
  /-- A job that has still to queue another one finds the queue open. -/
  opened : ∀ task ∈ f.workers.busy, task.left ≠ [] → f.isOpen = true
  /-- Once a worker stops, nothing is queued or started any more. -/
  drained : f.isDrained = true → ∀ ms f', f.steps? ms = some f' → f'.isDrained = true ∧ f'.started = f.started
  /-- Nothing can move exactly if all workers have stopped. -/
  progress : f.isStopped = true ↔ ∀ m, f.step? m = none
  /-- When all workers have stopped, all jobs that are due have been started. -/
  complete : f.isStopped = true → f.started.Perm (levelOrder (roots ms))
  /-- Those are the roots and the children of every job that was started, did not panic and held the pool. -/
  closed : f.isStopped = true →
    f.started.Perm (roots ms ++ (f.started.filter fun j => !j.panics && j.keepsPool).flatMap PoolJob.children)
  /-- What a root comes to does not depend on the others. -/
  apart : f.isStopped = true → f.started.Perm ((roots ms).flatMap fun j => j :: levelOrder j.queued)
  /-- Jobs start in the order in which they were queued, and the roots were queued in the order of the moves. -/
  inTurn : f.started ++ f.workers.waiting.map (·.job) = f.submitted ∧ (roots ms).Sublist f.submitted
  /-- A single worker runs the children of earlier jobs earlier. -/
  childrenInTurn : threads ≤ 1 → f.isStopped = true →
    ((f.started.filter fun j => !j.panics && j.keepsPool).flatMap PoolJob.children).Sublist f.started
  /-- It runs the jobs level by level if the owner is done before a job queues another one. -/
  inOrder : threads ≤ 1 → RootsFirst threads ms → f.isStopped = true → f.started = levelOrder (roots ms)

/-- **A pool runs every job exactly once**, whatever its workers do, whenever a job is queued and wherever the
last reference is dropped, after a number of moves that only depends on the jobs. -/
theorem serves (threads : Nat) {ms : List Move} {f : Forest} (h : (new threads).steps? ms = some f) :
    f.Serves threads ms ∧ ms.length ≤ 3 * (levelOrder (roots ms)).length + 1 ∧
      (f.isStopped = true → ms.length = 3 * (levelOrder (roots ms)).length + 1) := by
  have ha := accounted_of_steps h
  refine ⟨?_, ha.length_le, ha.length_eq⟩
  exact
    { workers := ⟨ha.threads, ha.busy⟩
      atMostOnce := ⟨_, ha.perm_levelOrder⟩
      opened := fun task htask => ha.isOpen_of_left htask
      drained := fun hd ms f' => ha.drained_steps hd
      progress := ⟨step?_of_isStopped, fun hnone => ha.isStopped_of_serial (hnone _)⟩
      complete := ha.started_perm
      closed := fun hs => PoolJob.queuedBy_eq f.started ▸ ha.started_perm_queuedBy hs
      apart := fun hs => (ha.started_perm hs).trans (PoolJob.levelOrder_perm_flatMap (roots ms))
      inTurn := ⟨ha.inTurn, ha.rootsInOrder⟩
      childrenInTurn := fun hone hs => by
        rw [← PoolJob.queuedBy_eq]
        have hsub := queuedBy_sublist hone h
        rwa [← (ha.started_eq hs).1] at hsub
      inOrder := fun hone hfirst hs => ha.eq_levelOrder (inLine_of_rootsFirst hone h hfirst) hs }

/-- A job that panics, one that queues two others, and one that cannot reach the pool. -/
def mixedJobs : List PoolJob :=
  [.mk "a" true false true [.mk "lost" false false false []],
    .mk "b" false false true [.mk "c" false false true [.mk "e" false false false []], .mk "d" false false false []],
    .mk "x" false false false [.mk "lost" false false false []]]

/-- The owner queues two jobs, and another one while they run, and lets go of the pool; while `b` queues its
jobs, the other worker runs the first of them. -/
def mixedMoves : List Move :=
  (mixedJobs.take 2).map .execute ++ [.take, .advance 0, .take] ++ (mixedJobs.drop 2).map .execute ++
    [.disown, .take, .advance 1, .advance 0, .take, .advance 1, .advance 0, .advance 1, .advance 0, .take, .take,
      .advance 0, .advance 0]

theorem mixedJobs_served : ∃ f, (new 2).steps? mixedMoves = some f ∧ f.isStopped = true ∧
    f.started.map (·.tag) = ["a", "b", "x", "c", "e", "d"] ∧ f.Serves 2 mixedMoves := by
  have hrun : ((new 2).steps? mixedMoves).any
      (fun f => f.isStopped && f.started.map (·.tag) = ["a", "b", "x", "c", "e", "d"]) = true := by decide
  obtain ⟨f, hf, hend⟩ := (Option.any_eq_true ..).1 hrun
  rw [Bool.and_eq_true, decide_eq_true_eq] at hend
  exact ⟨f, hf, hend.1, hend.2, (serves 2 hf).1⟩

/-- The owner queues its second job when the first has already queued another. -/
def lateMoves : List Move :=
  [.execute (.mk "first" false false true [.mk "child" false false false []]), .take, .advance 0, .advance 0,
    .execute (.mk "second" false false false []), .disown, .take, .advance 0, .take, .advance 0]

/-- A single worker need not run the jobs level by level. -/
theorem lateRoot_not_in_level_order : ¬ ∀ (threads : Nat) (ms : List Move) (f : Forest), threads ≤ 1 →
    (new threads).steps? ms = some f → f.isStopped = true → f.started = levelOrder (roots ms) := by
  intro hall
  have hrun : ((new 1).steps? lateMoves).any
      (fun f => f.isStopped && f.started.map (·.tag) = ["first", "child", "second"]) = true := by decide
  obtain ⟨f, hf, hend⟩ := (Option.any_eq_true ..).1 hrun
  rw [Bool.and_eq_true, decide_eq_true_eq] at hend
  have hlevels : levelOrder (roots lateMoves) =
      [.mk "first" false false true [.mk "child" false false false []], .mk "second" false false false [],
        .mk "child" false false false []] := (PoolJob.eq_levelOrder rfl).symm
  have htags := hend.2
  rw [hall 1 lateMoves f (Nat.le_refl 1) hf hend.1, hlevels] at htags
  exact absurd htags (by decide)

/-! ## One worker that does everything -/

/-- A single worker takes a job only if it has none. -/
theorem Turn.one_busy (h : f.Turn f.serial f') (hone : f.workers.busy.length ≤ 1) : f'.workers.busy.length ≤ 1 := by
  generalize hm : f.serial = m at h
  cases h with
  | execute owned => exact hone
  | take free waiting =>
    have hbusy : f.workers.busy = [] := by
      rw [serial] at hm
      split at hm
      · rename_i hempty
        exact List.isEmpty_iff.1 hempty
      · cases hm
    simp [hbusy]
  | queue busy => simpa [busy] using hone
  | finish busy =>
    simp only [busy, List.length_append, List.length_cons] at hone
    simp only [List.length_append]
    omega
  | disown owned => exact hone

theorem root?_serial (f : Forest) : f.serial.root? = none := by
  rw [serial]
  split
  · split <;> rfl
  · rfl

/-- The serial moves are possible ones, so many as were asked for or until all workers have stopped. -/
theorem runFor_spec {threads : Nat} {js : List PoolJob} : ∀ (n : Nat) {f : Forest} {ms : List Move},
    Accounted threads ms f → f.InLine js → f.workers.busy.length ≤ 1 →
      ∃ ms', Accounted threads (ms ++ ms') (runFor n f) ∧ roots ms' = [] ∧ (runFor n f).InLine js ∧
        (ms'.length = n ∨ (runFor n f).isStopped = true)
  | 0, f, ms, ha, hline, hone => ⟨[], by rwa [List.append_nil], rfl, hline, .inl rfl⟩
  | n + 1, f, ms, ha, hline, hone => by
    rw [runFor]
    cases hstep : f.step? f.serial with
    | none => exact ⟨[], by rwa [List.append_nil], rfl, hline, .inr (ha.isStopped_of_serial hstep)⟩
    | some f' =>
      have hone' := (turn_of_step hstep).one_busy hone
      have hline' := ha.inLine_step hline hstep hone' fun hroot => absurd (root?_serial f) hroot
      rw [root?_serial, Option.toList_none, List.append_nil] at hline'
      obtain ⟨ms', ha', hroots, hend, hlength⟩ := runFor_spec n (ha.step hstep) hline' hone'
      refine ⟨f.serial :: ms', ?_, ?_, hend, hlength.imp_left fun h => by rw [List.length_cons, h]⟩
      · rwa [List.append_assoc] at ha'
      · rw [roots, List.filterMap_cons_none (root?_serial f)]
        exact hroots

/-- After as many moves as there can be, all workers have stopped. -/
theorem Accounted.isStopped_of_length {threads : Nat} {ms : List Move} (ha : Accounted threads ms f)
    (hlength : 3 * (levelOrder (roots ms)).length + 1 ≤ ms.length) : f.isStopped = true := by
  cases hstep : f.step? f.serial with
  | none => exact ha.isStopped_of_serial hstep
  | some f' =>
    have hserial : roots [f.serial] = [] := by rw [roots_singleton, root?_serial, Option.toList_none]
    have hbound := (ha.step hstep).length_le
    rw [roots_append, hserial, List.append_nil, List.length_append, List.length_singleton] at hbound
    omega

theorem steps?_execute : ∀ (js : List PoolJob) (f : Forest), f.owned = true →
    f.steps? (js.map .execute) = some (js.foldl submit f)
  | [], f, howned => rfl
  | j :: js, f, howned => by
    rw [List.map_cons, steps?, step?, if_pos howned, Option.bind_some, List.foldl_cons]
    exact steps?_execute js (f.submit j) howned

theorem foldl_submit_eq : ∀ (js : List PoolJob) (f : Forest), js.foldl submit f =
    { f with
      workers := { f.workers with waiting := f.workers.waiting ++ js.map fun j => ⟨j, j.queued⟩ }
      submitted := f.submitted ++ js }
  | [], f => by rw [List.foldl_nil, List.map_nil, List.append_nil, List.append_nil]
  | j :: js, f => by
    rw [List.foldl_cons, foldl_submit_eq js, submit, Workers.submit]
    simp only [List.append_assoc, List.map_cons, List.singleton_append]

theorem given_eq (threads : Nat) (js : List PoolJob) (owned : Bool) :
    given threads js owned = ⟨⟨max threads 1, js.map fun j => ⟨j, j.queued⟩, []⟩, owned, js, []⟩ := by
  rw [given, foldl_submit_eq, new, Workers.new, List.nil_append, List.nil_append]

/-- A pool that was given its jobs has only seen moves of its owner. -/
theorem given_accounted (threads : Nat) (js : List PoolJob) (owned : Bool) :
    ∃ ms, roots ms = js ∧ Accounted threads ms (given threads js owned) := by
  have hnew : (new threads).owned = true := rfl
  have ha := accounted_of_steps (steps?_execute js (new threads) hnew)
  have howned : (js.foldl submit (new threads)).owned = true := by rw [foldl_submit_eq, hnew]
  cases owned with
  | true =>
    have hgiven : given threads js true = js.foldl submit (new threads) := by rw [given, ← howned]
    exact ⟨js.map .execute, roots_execute js, hgiven ▸ ha⟩
  | false =>
    refine ⟨js.map .execute ++ [.disown], ?_, ha.turn (.disown howned)⟩
    rw [roots_append, roots_execute, roots_singleton]
    exact List.append_nil js

/-- One worker that does everything gets to the end, and runs the jobs level by level. -/
theorem run_spec (threads : Nat) (js : List PoolJob) (owned : Bool) :
    ((given threads js owned).run js).isStopped = true ∧
      ((given threads js owned).run js).started = levelOrder js ∧
      ((given threads js owned).run js).workers.threads = max threads 1 := by
  obtain ⟨ms, hroots, hgiven⟩ := given_accounted threads js owned
  have hline : (given threads js owned).InLine js := by rw [given_eq]; rfl
  have hone : (given threads js owned).workers.busy.length ≤ 1 := by rw [given_eq]; exact Nat.zero_le 1
  obtain ⟨ms', ha, hnone, hline, hend⟩ := runFor_spec (3 * PoolJob.sizeAll js + 1) hgiven hline hone
  rw [← run] at ha hline hend
  have hstopped : ((given threads js owned).run js).isStopped = true := by
    obtain hlength | hstopped := hend
    · refine ha.isStopped_of_length ?_
      rw [roots_append, hroots, hnone, List.append_nil, List.length_append]
      have hsize := PoolJob.length_levelOrder_le js
      omega
    · exact hstopped
  exact ⟨hstopped, ha.eq_levelOrder hline hstopped, ha.threads⟩

/-- What the jobs of a pool write, in level order if it has one thread and sorted if it has more. -/
theorem log_eq (threads : Nat) (name : String) (js : List PoolJob) (owned : Bool) :
    log threads name js owned =
      if threads ≤ 1 then (levelOrder js).map fun j => j.line (name ++ "-0")
      else Text.sorted ((levelOrder js).map fun j => j.line (name ++ "-0")) := by
  obtain ⟨-, hstarted, hthreads⟩ := run_spec threads js owned
  have hone : max threads 1 = 1 ↔ threads ≤ 1 := by omega
  simp only [log, hstarted, hthreads, hone]

example : log 1 "pool" mixedJobs false = ["a!", "b", "x", "c", "d", "e"] := by decide

end LiveScreen.Forest
