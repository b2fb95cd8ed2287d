/-
Firing a hook runs a snapshot of the tasks. The tasks of a task center are those
it was given, in the order in which it was given them, by the host or by actions
(`tasksAt_after`); none is ever taken away. A hook that fires runs those of them that
match and were there when it fired, each of their actions once, and answers how many
they are (`notify_serves`). What these actions add comes after all others: it is left
for the hooks that fire later, so that firing a hook ends although every action may
add a task that matches it again.
-/
import LiveScreen.Proofs.Scene.Deeds

namespace LiveScreen

/-- A task has to run when a hook fires with a value: it is hooked to it, and if it has a filter, that is
the value. -/
def Task.Matches (hook : Hook) (value : String) (task : Task) : Prop :=
  task.hook = hook ∧ (task.filter = none ∨ task.filter = some value)

instance (hook : Hook) (value : String) : DecidablePred (Task.Matches hook value) :=
  fun task => inferInstanceAs (Decidable (task.hook = hook ∧ (task.filter = none ∨ task.filter = some value)))

theorem Task.fires_eq_matches (task : Task) (hook : Hook) (value : String) :
    task.fires hook value = decide (task.Matches hook value) := by
  obtain ⟨hooked, filter, actions⟩ := task
  rw [Bool.eq_iff_iff]
  cases filter <;> simp [fires, Matches]

/-- The actions that a hook has to run, task by task, given the tasks there are. -/
def Hook.actions (hook : Hook) (value : String) (tasks : List Task) : List Action :=
  (tasks.filter fun task => task.Matches hook value).flatMap (·.actions)

namespace Scene

/-- The graph that was attached to a task center. -/
def attachedTo (s : Scene) (c : TaskCenterId) : Option GraphId := (s.taskCenters.get? c).bind (·.graph)

/-- The graph that a task center runs its actions on: the one attached, while it is alive. -/
def target (s : Scene) (c : TaskCenterId) : Option GraphId := (s.attachedTo c).filter s.alive

/-- The tasks that a deed adds to a task center: a task of the host, or those of the actions it runs. -/
def added (c : TaskCenterId) (s : Scene) : Deed → List Task
  | .addTask c' task => if c' = c then [task] else []
  | .notify _ c' hook value =>
    match s.target c' with
    | some g => s.addedBy c g (hook.actions value (s.tasksAt c'))
    | none => []
  | .perform _ g node => s.addedBy c g (((s.graphs.get? g).bind (·.node? node)).bind (·.action)).toList
  | _ => []

/-- The tasks a task center was given up to the end of a run, in the order in which it was given them. -/
def given (s : Scene) (c : TaskCenterId) (ds : List Deed) : List Task := s.tasksAt c ++ s.along (added c) ds

/-- The graph that deeds attach to a task center last, if they attach any. -/
def attachedLast (c : TaskCenterId) : List Deed → Option GraphId
  | [] => none
  | .attach c' g :: ds => (attachedLast c ds).or (if c' = c then some g else none)
  | _ :: ds => attachedLast c ds

variable {s s' : Scene} {c : TaskCenterId}

/-! ## Firing a hook -/

theorem notify_of_no_target (h : s.target c = none) (t : Thread) (hook : Hook) (value : String) :
    s.notify t c hook value = (0, s) := by
  unfold notify
  unfold target attachedTo at h
  cases hc : s.taskCenters.get? c with
  | none => rfl
  | some center =>
    rw [hc, Option.bind_some] at h
    simp only [h]

theorem notify_of_target {g : GraphId} (h : s.target c = some g) (t : Thread) (hook : Hook) (value : String) :
    s.notify t c hook value =
      (((s.tasksAt c).filter fun task => task.Matches hook value).length,
        runActions t c g (hook.actions value (s.tasksAt c)) s) := by
  unfold notify Hook.actions
  unfold target attachedTo at h
  cases hc : s.taskCenters.get? c with
  | none => rw [hc] at h; cases h
  | some center =>
    rw [hc, Option.bind_some] at h
    simp only [h, foldl_runActions, Task.fires_eq_matches, tasksAt, hc]

/-- The tasks that actions add when a hook fires come after all others. -/
theorem tasksAt_notify (hc : (s.taskCenters.get? c).isSome = true) (t : Thread) (c' : TaskCenterId) (hook : Hook)
    (value : String) :
    (s.notify t c' hook value).2.tasksAt c = s.tasksAt c ++ s.added c (.notify t c' hook value) := by
  cases h : s.target c' with
  | none => simp only [notify_of_no_target h, added, h, List.append_nil]
  | some g =>
    simp only [notify_of_target h, added, h]
    exact tasksAt_runActions t c' g _ hc

/-! ## Runs -/

theorem tasksAt_of_taskCenters (h : s'.taskCenters = s.taskCenters) (c : TaskCenterId) :
    s'.tasksAt c = s.tasksAt c ∧ s'.taskCenters.get? c = s.taskCenters.get? c := by
  simp only [tasksAt, h, and_self]

theorem get?_attach (s : Scene) (c c' : TaskCenterId) (g : GraphId) : (s.attach c' g).taskCenters.get? c =
    if c = c' then (s.taskCenters.get? c').map fun center => { center with graph := some g }
    else s.taskCenters.get? c := Table.get?_modify s.taskCenters c' c _

theorem tasksAt_attach (s : Scene) (c c' : TaskCenterId) (g : GraphId) : (s.attach c' g).tasksAt c = s.tasksAt c := by
  unfold tasksAt
  rw [get?_attach]
  by_cases h : c = c'
  · subst h
    rw [if_pos rfl]
    cases s.taskCenters.get? c <;> rfl
  · rw [if_neg h]

/-- A deed leaves a task center with its tasks and those it adds, and attached to the graph it was attached to,
unless it attaches another. -/
structure Keeps (s s' : Scene) (c : TaskCenterId) (d : Deed) : Prop where
  there : (s'.taskCenters.get? c).isSome = true
  tasks : s'.tasksAt c = s.tasksAt c ++ s.added c d
  attached : s'.attachedTo c = (attachedLast c [d]).or (s.attachedTo c)

namespace Keeps

/-- A deed that adds no tasks, attaches no graph and changes no task center. -/
theorem of_taskCenters {d : Deed} (hc : (s.taskCenters.get? c).isSome = true)
    (h : s'.taskCenters = s.taskCenters) (hadds : s.added c d = []) (hattaches : attachedLast c [d] = none) :
    Keeps s s' c d where
  there := by rw [h, hc]
  tasks := by rw [(tasksAt_of_taskCenters h c).1, hadds, List.append_nil]
  attached := by rw [hattaches, Option.none_or, attachedTo, attachedTo, h]

/-- A deed that attaches no graph. -/
theorem of_steady {d : Deed} (hc : (s.taskCenters.get? c).isSome = true) (h : Steady (fun _ => False) s s')
    (htasks : s'.tasksAt c = s.tasksAt c ++ s.added c d) (hattaches : attachedLast c [d] = none) :
    Keeps s s' c d where
  there := (h.isSome_taskCenters id).trans hc
  tasks := htasks
  attached := by
    have hgraph := congrArg (Option.bind · id) (h.attached c id)
    rw [hattaches, Option.none_or]
    simpa only [attachedTo, Option.bind_map, Function.id_comp] using hgraph

theorem carryOut (hc : (s.taskCenters.get? c).isSome = true) (d : Deed) : Keeps s (s.carryOut d) c d := by
  cases d with
  | addTask c' task => exact of_steady hc (.addTask s c' task) (tasksAt_addTask hc c' task) rfl
  | attach c' g =>
    refine ⟨?_, ?_, ?_⟩
    · simp only [Scene.carryOut, get?_attach]
      split
      · rename_i h
        rw [Option.isSome_map, ← h, hc]
      · exact hc
    · simp only [Scene.carryOut, tasksAt_attach, added, List.append_nil]
    · obtain ⟨center, hcenter⟩ := Option.isSome_iff_exists.1 hc
      simp only [Scene.carryOut, attachedTo, get?_attach, attachedLast, Option.none_or]
      by_cases h : c = c'
      · simp [← h, hcenter]
      · simp [h, Ne.symm h]
  | notify t c' hook value => exact of_steady hc (.notify s t c' hook value) (tasksAt_notify hc t c' hook value) rfl
  | perform t g node =>
    refine of_steady hc (.performAction s t g node) ?_ rfl
    simp only [Scene.carryOut, performAction, added]
    cases ((s.graphs.get? g).bind (·.node? node)).bind (·.action) with
    | none => simp [addedBy]
    | some action => exact tasksAt_runAction hc t g action
  | finishLoad t g => exact of_taskCenters hc (taskCenters_finishLoad s t g) rfl rfl
  | addView b g => exact of_taskCenters hc (taskCenters_addView s b g) rfl rfl
  | update t b key value => exact of_taskCenters hc (taskCenters_of_leads (leads_update s t b key value)) rfl rfl
  | animate t g node => exact of_taskCenters hc (taskCenters_of_leads (leads_startAnimation s t g node)) rfl rfl
  | poll q t => exact of_taskCenters hc (taskCenters_of_leads (leads_poll s q t)) rfl rfl
  | addLoadHook | mount | hold | release | bindData | bindAnimations | dropQueue =>
    exact of_taskCenters hc rfl rfl rfl

end Keeps

theorem isSome_after : ∀ (ds : List Deed) {s : Scene}, (s.taskCenters.get? c).isSome = true →
    ((s.after ds).taskCenters.get? c).isSome = true
  | [], _, hc => hc
  | d :: ds, _, hc => isSome_after ds (Keeps.carryOut hc d).there

/-- The tasks of a task center are those it was given, in this order. -/
theorem tasksAt_after : ∀ (ds : List Deed) {s : Scene}, (s.taskCenters.get? c).isSome = true →
    (s.after ds).tasksAt c = s.given c ds
  | [], s, _ => (List.append_nil (s.tasksAt c)).symm
  | d :: ds, s, hc => by
    have hd := Keeps.carryOut hc d
    rw [after_cons, tasksAt_after ds hd.there, given, hd.tasks, given, along, List.append_assoc]

theorem attachedTo_after : ∀ (ds : List Deed) {s : Scene}, (s.taskCenters.get? c).isSome = true →
    (s.after ds).attachedTo c = (attachedLast c ds).or (s.attachedTo c)
  | [], _, _ => rfl
  | d :: ds, s, hc => by
    have hd := Keeps.carryOut hc d
    have hcons : attachedLast c (d :: ds) = (attachedLast c ds).or (attachedLast c [d]) := by
      cases d <;> simp [attachedLast]
    rw [after_cons, attachedTo_after ds hd.there, hd.attached, hcons, Option.or_assoc]

theorem given_append (s : Scene) (c : TaskCenterId) (ds ds' : List Deed) :
    s.given c (ds ++ ds') = s.given c ds ++ (s.after ds).along (added c) ds' := by
  rw [given, given, along_append, List.append_assoc]

/-- A hook that fires after a run is served by the task center that it fires at: it runs the tasks that the
center was given by then and that match, on the graph that was attached last, and nothing if there is none or it is
not alive any more. -/
structure Serves (s : Scene) (c : TaskCenterId) (before : List Deed) (t : Thread) (hook : Hook) (value : String) :
    Prop where
  /-- Without a living graph nothing happens. -/
  idle : ((attachedLast c before).or (s.attachedTo c)).filter (s.after before).alive = none →
    (s.after before).notify t c hook value = (0, s.after before)
  /-- The answer is how many tasks match. -/
  count : ∀ g, ((attachedLast c before).or (s.attachedTo c)).filter (s.after before).alive = some g →
    ((s.after before).notify t c hook value).1 =
      ((s.given c before).filter fun task => task.Matches hook value).length
  /-- Their actions run on the graph, task by task, and this is all that happens. -/
  scene : ∀ g, ((attachedLast c before).or (s.attachedTo c)).filter (s.after before).alive = some g →
    ((s.after before).notify t c hook value).2 =
      runActions t c g (hook.actions value (s.given c before)) (s.after before)
  /-- They are recorded as what ran. -/
  ran : ∀ g, ((attachedLast c before).or (s.attachedTo c)).filter (s.after before).alive = some g →
    ((s.after before).notify t c hook value).2.ran =
      (s.after before).ran ++ (hook.actions value (s.given c before)).map ((c, g, ·))
  /-- What they add to the center follows all others, which keep their places. -/
  tasks : ∀ g, ((attachedLast c before).or (s.attachedTo c)).filter (s.after before).alive = some g →
    ((s.after before).notify t c hook value).2.tasksAt c =
      s.given c before ++ (s.after before).addedBy c g (hook.actions value (s.given c before))
  /-- What is there then stays, in its order, and is among the tasks of every hook that fires later. -/
  later : ∀ after, ((s.after before).notify t c hook value).2.tasksAt c <+:
    s.given c (before ++ .notify t c hook value :: after)

/-- Whenever a hook fires in a run, it is served. -/
theorem notify_serves (hc : (s.taskCenters.get? c).isSome = true) (before : List Deed) (t : Thread) (hook : Hook)
    (value : String) : s.Serves c before t hook value := by
  have htasks := tasksAt_after before hc
  have htarget : (s.after before).target c =
      ((attachedLast c before).or (s.attachedTo c)).filter (s.after before).alive := by
    rw [target, attachedTo_after before hc]
  have hthere := isSome_after before hc
  refine ⟨fun h => notify_of_no_target (htarget.trans h) t hook value, fun g h => ?_, fun g h => ?_, fun g h => ?_,
    fun g h => ?_, fun after => ?_⟩
  · rw [notify_of_target (htarget.trans h), htasks]
  · rw [notify_of_target (htarget.trans h), htasks]
  · rw [notify_of_target (htarget.trans h), htasks]
    exact (runActions_recorded t c g _ _).1
  · rw [notify_of_target (htarget.trans h), htasks]
    exact htasks ▸ tasksAt_runActions t c g _ hthere
  · have hsplit : before ++ .notify t c hook value :: after = (before ++ [.notify t c hook value]) ++ after := by simp
    rw [hsplit, given_append, given_append, tasksAt_notify hthere, htasks, along, along, List.append_nil]
    exact List.prefix_append _ _

/-- An empty graph that is held, and its task center, which has no tasks yet. -/
def oneCenter : Scene where
  graphs := Table.empty.insert (.host 0) ⟨⟨.host 0, 0⟩, [], .host 0, .host 0, .host 0, .none, [], [.host "screen"]⟩
  binders := .empty
  taskCenters := Table.empty.insert (.host 0) (.new false)
  animationCenters := .empty
  queues := .empty
  events := []

/-- A task that adds one for the hook it runs at. -/
def echo : Task := ⟨.viewShow, some "tab", [.addTask .viewShow (some "tab") [.record "again"]]⟩

/-- The task and one for another tab are added; then the tab is shown. -/
def shownOnce : List Deed :=
  [.addTask (.host 0) echo, .addTask (.host 0) ⟨.viewShow, some "other", [.record "other"]⟩,
    .attach (.host 0) (.host 0), .notify 0 (.host 0) .viewShow "tab"]

/-- When the tab is shown again, the task runs and the one that it has added before. -/
theorem oneCenter_serves : (oneCenter.taskCenters.get? (.host 0)).isSome = true ∧
    ((oneCenter.after shownOnce).notify 0 (.host 0) .viewShow "tab").1 = 2 ∧
      ((oneCenter.after shownOnce).notify 0 (.host 0) .viewShow "tab").2.ran =
        [(.host 0, .host 0, .addTask .viewShow (some "tab") [.record "again"]),
          (.host 0, .host 0, .addTask .viewShow (some "tab") [.record "again"]),
          (.host 0, .host 0, .record "again")] := by
  have hserves := notify_serves (c := .host 0) (s := oneCenter) rfl shownOnce 0 .viewShow "tab"
  exact ⟨rfl, hserves.count (.host 0) rfl, hserves.ran (.host 0) rfl⟩

end Scene

end LiveScreen
