/-
What a screen runs when a hook is fired and when loading ends: the actions of the
tasks that match, in the order in which the tasks were registered, and no others
(`Fired`); then the load hooks that are registered, each of them once
(`HooksRan`). Tasks and load hooks that are registered while this goes on are
kept, but do not run any more.
-/
import LiveScreen.Proofs.Scene.Mounts
import LiveScreen.Proofs.Scene.Published

namespace LiveScreen

/-- That a task center ran an action. -/
def Event.ran? : Event → Option (TaskCenterId × GraphId × Action)
  | .ran c g action => some (c, g, action)
  | _ => none

/-- That a load hook ran, and whether its graph was loaded. -/
def Event.hookRan? : Event → Option (GraphId × String × Bool)
  | .hookRan g tag loaded => some (g, tag, loaded)
  | _ => none

/-- The line that a load hook writes. -/
def LoadHook.tag : LoadHook → String
  | .mk tag _ _ => tag

/-- The load hooks that a load hook registers. -/
def LoadHook.nested : LoadHook → List LoadHook
  | .mk _ _ nested => nested

namespace Scene

/-- The actions that task centers ran, one after the other. -/
def ran (s : Scene) : List (TaskCenterId × GraphId × Action) := s.events.filterMap Event.ran?

/-- The load hooks that ran, one after the other. -/
def hooksRan (s : Scene) : List (GraphId × String × Bool) := s.events.filterMap Event.hookRan?

/-- The load hooks that are registered in a graph. -/
def hooksAt (s : Scene) (g : GraphId) : List LoadHook := ((s.graphs.get? g).map (·.hooks)).getD []

/-- The actions that a hook runs on a screen: those of the tasks that match, task by task. -/
def matching (s : Scene) (i : ScreenId) (hook : Hook) : List Action :=
  ((s.tasksAt (.screen i)).filter (·.fires hook "")).flatMap (·.actions)

variable {r s s' : Scene} {i : ScreenId} {g : GraphId} {t : Thread}

/-! ## What small changes do not touch -/

theorem hooksAt_eq {graph : Graph} (hgraph : s.graphs.get? g = some graph) : s.hooksAt g = graph.hooks := by
  simp only [hooksAt, hgraph, Option.map_some, Option.getD_some]

theorem Same.hooksAt (h : Same (·.hooks) s s') (g : GraphId) : s'.hooksAt g = s.hooksAt g :=
  congrArg (Option.getD · []) (h g)

/-- Neither tasks and load hooks nor the record of what ran were changed. -/
structure Unnoticed (s s' : Scene) : Prop where
  tasks : ∀ c, s'.tasksAt c = s.tasksAt c
  ran : s'.ran = s.ran
  hooks : Same (·.hooks) s s'
  hooksRan : s'.hooksRan = s.hooksRan

namespace Unnoticed

theorem refl (s : Scene) : Unnoticed s s := ⟨fun _ => rfl, rfl, .refl s, rfl⟩

theorem trans (h : Unnoticed r s) (h' : Unnoticed s s') : Unnoticed r s' :=
  ⟨fun c => (h'.tasks c).trans (h.tasks c), h'.ran.trans h.ran, h.hooks.trans h'.hooks, h'.hooksRan.trans h.hooksRan⟩

theorem of_change (h : Change s s') : Unnoticed s s' := by
  have hooks := Same.of_change Graph.lasting_hooks h
  cases h with
  | @report e hreport =>
    have hran : e.ran? = none := by cases e <;> first | rfl | exact hreport.elim
    have hhook : e.hookRan? = none := by cases e <;> first | rfl | exact hreport.elim
    refine ⟨fun _ => rfl, ?_, hooks, ?_⟩
    · simp [Scene.ran, emit, hran]
    · simp [Scene.hooksRan, emit, hhook]
  | write | play | queue | store => exact ⟨fun _ => rfl, rfl, hooks, rfl⟩

theorem of_leads (h : Leads s s') : Unnoticed s s' := by
  induction h with
  | refl => exact .refl s
  | tail _ hc ih => exact ih.trans (of_change hc)

end Unnoticed

/-! ## Actions -/

/-- The task center of a graph. -/
def centerOf (s : Scene) (g : GraphId) : Option TaskCenterId := (s.graphs.get? g).map (·.tasks)

/-- The tasks that actions of a graph add to a task center. They add them to the graph's own. -/
def addedBy (s : Scene) (c : TaskCenterId) (g : GraphId) (actions : List Action) : List Task :=
  if s.centerOf g = some c then actions.filterMap Action.task? else []

theorem Steady.centerOf (h : Steady (fun _ => False) s s') (g : GraphId) : s'.centerOf g = s.centerOf g := by
  have hties := congrArg (Option.map fun ties => ties.2.1) (h.ties g id)
  simp only [Option.map_map] at hties
  exact hties

theorem addedBy_cons (s : Scene) (c : TaskCenterId) (g : GraphId) (action : Action) (actions : List Action) :
    s.addedBy c g (action :: actions) = s.addedBy c g [action] ++ s.addedBy c g actions := by
  unfold addedBy
  split
  · cases h : action.task? <;> simp [h]
  · rfl

theorem tasksAt_addTask {c : TaskCenterId} (hc : (s.taskCenters.get? c).isSome = true) (c' : TaskCenterId)
    (task : Task) : (s.addTask c' task).tasksAt c = s.tasksAt c ++ if c' = c then [task] else [] := by
  obtain ⟨center, hcenter⟩ := Option.isSome_iff_exists.1 hc
  simp only [tasksAt, addTask, modifyTasks, Table.get?_modify]
  by_cases h : c = c'
  · simp [← h, hcenter]
  · simp [h, Ne.symm h]

/-- An action does not record what ran. -/
theorem runAction_recorded (s : Scene) (t : Thread) (g : GraphId) (action : Action) :
    (s.runAction t g action).2.ran = s.ran ∧ (s.runAction t g action).2.hooksRan = s.hooksRan := by
  cases htask : action.task? with
  | none =>
    have h := Unnoticed.of_leads (leads_runAction s t g htask)
    exact ⟨h.ran, h.hooksRan⟩
  | some task =>
    cases hg : s.graphs.get? g with
    | none => rw [runAction_of_no_graph hg]; exact ⟨rfl, rfl⟩
    | some graph => rw [runAction_addTask hg htask]; exact ⟨rfl, rfl⟩

/-- What an action leaves to be seen: the task that it adds. -/
theorem tasksAt_runAction {c : TaskCenterId} (hc : (s.taskCenters.get? c).isSome = true) (t : Thread) (g : GraphId)
    (action : Action) : (s.runAction t g action).2.tasksAt c = s.tasksAt c ++ s.addedBy c g [action] := by
  cases htask : action.task? with
  | none =>
    have hnone : s.addedBy c g [action] = [] := by simp [addedBy, htask]
    rw [(Unnoticed.of_leads (leads_runAction s t g htask)).tasks, hnone, List.append_nil]
  | some task =>
    cases hg : s.graphs.get? g with
    | none =>
      have hnone : s.addedBy c g [action] = [] := by simp [addedBy, centerOf, hg]
      rw [runAction_of_no_graph hg, hnone, List.append_nil]
    | some graph =>
      rw [runAction_addTask hg htask, tasksAt_addTask hc]
      simp [addedBy, centerOf, hg, htask]

theorem runActions_cons (t : Thread) (c : TaskCenterId) (g : GraphId) (action : Action) (actions : List Action)
    (s : Scene) : runActions t c g (action :: actions) s =
      runActions t c g actions ((s.emit (.ran c g action)).runAction t g action).2 := rfl

theorem runActions_append (t : Thread) (c : TaskCenterId) (g : GraphId) (l l' : List Action) (s : Scene) :
    runActions t c g (l ++ l') s = runActions t c g l' (runActions t c g l s) := List.foldl_append

theorem foldl_runActions (t : Thread) (c : TaskCenterId) (g : GraphId) : ∀ (tasks : List Task) (s : Scene),
    tasks.foldl (fun s task => runActions t c g task.actions s) s = runActions t c g (tasks.flatMap (·.actions)) s
  | [], _ => rfl
  | task :: tasks, s => by
    rw [List.foldl_cons, foldl_runActions t c g tasks, List.flatMap_cons, runActions_append]

/-- Running actions records them. It runs no load hooks. -/
theorem runActions_recorded (t : Thread) (c : TaskCenterId) (g : GraphId) : ∀ (actions : List Action) (s : Scene),
    (runActions t c g actions s).ran = s.ran ++ actions.map ((c, g, ·)) ∧
      (runActions t c g actions s).hooksRan = s.hooksRan
  | [], s => by simp [runActions]
  | action :: actions, s => by
    have hran : (s.emit (.ran c g action)).ran = s.ran ++ [(c, g, action)] := by simp [Scene.ran, emit, Event.ran?]
    have hhooks : (s.emit (.ran c g action)).hooksRan = s.hooksRan := by simp [Scene.hooksRan, emit, Event.hookRan?]
    obtain ⟨hran', hhooks'⟩ := runAction_recorded (s.emit (.ran c g action)) t g action
    obtain ⟨hran'', hhooks''⟩ := runActions_recorded t c g actions ((s.emit (.ran c g action)).runAction t g action).2
    rw [runActions_cons, hran'', hhooks'', hran', hhooks', hran, hhooks]
    simp

/-- Running actions adds the tasks that they add. -/
theorem tasksAt_runActions {c : TaskCenterId} (t : Thread) (c' : TaskCenterId) (g : GraphId) :
    ∀ (actions : List Action) {s : Scene}, (s.taskCenters.get? c).isSome = true →
      (runActions t c' g actions s).tasksAt c = s.tasksAt c ++ s.addedBy c g actions
  | [], s, _ => by simp [runActions, addedBy]
  | action :: actions, s, hc => by
    obtain ⟨s₁, hs₁⟩ : ∃ s₁, s₁ = ((s.emit (.ran c' g action)).runAction t g action).2 := ⟨_, rfl⟩
    have hsteady : Steady (fun _ => False) s s₁ := by
      rw [hs₁]
      exact (Steady.emit s (e := .ran c' g action) fun _ _ => rfl).trans (.runAction _ t g action)
    have htasks : s₁.tasksAt c = s.tasksAt c ++ s.addedBy c g [action] := by
      rw [hs₁]
      exact tasksAt_runAction (s := s.emit (.ran c' g action)) hc t g action
    have hadded : s₁.addedBy c g actions = s.addedBy c g actions := by simp only [addedBy, hsteady.centerOf]
    rw [runActions_cons, ← hs₁, tasksAt_runActions t c' g actions ((hsteady.isSome_taskCenters id).trans hc), htasks,
      hadded, List.append_assoc, ← addedBy_cons]

/-- The actions of a screen add their tasks to its task center. -/
theorem runActions_of_made (t : Thread) (actions : List Action) {s : Scene} (hm : s.Made i) :
    (runActions t (.screen i) (.screen i) actions s).ran =
        s.ran ++ actions.map ((Owner.screen i, Owner.screen i, ·)) ∧
      (runActions t (.screen i) (.screen i) actions s).tasksAt (.screen i) =
        s.tasksAt (.screen i) ++ actions.filterMap Action.task? ∧
      (runActions t (.screen i) (.screen i) actions s).hooksRan = s.hooksRan := by
  obtain ⟨graph, hgraph, htasks, -, hcenter⟩ := hm
  have hadded : s.addedBy (.screen i) (.screen i) actions = actions.filterMap Action.task? := by
    rw [addedBy, centerOf, hgraph, Option.map_some, htasks, if_pos rfl]
  obtain ⟨hran, hhooks⟩ := runActions_recorded t (.screen i) (.screen i) actions s
  exact ⟨hran, hadded ▸ tasksAt_runActions t (.screen i) (.screen i) actions hcenter, hhooks⟩

/-- A hook was fired at the tasks of a screen: the actions of those that match ran, one after the other,
and no others, and no load hooks; afterwards there are the tasks that were there, and those that these actions
add. -/
structure Fired (s s' : Scene) (t : Thread) (i : ScreenId) (hook : Hook) : Prop where
  scene : s' = runActions t (.screen i) (.screen i) (s.matching i hook) s
  ran : s'.ran = s.ran ++ (s.matching i hook).map ((Owner.screen i, Owner.screen i, ·))
  tasks : s'.tasksAt (.screen i) = s.tasksAt (.screen i) ++ (s.matching i hook).filterMap Action.task?
  hooksRan : s'.hooksRan = s.hooksRan

/-- The tasks of a graph that is attached and kept alive run. -/
theorem fired_notify (hp : s.Published i) (t : Thread) (hook : Hook) :
    Fired s (s.notify t (.screen i) hook "").2 t i hook := by
  obtain ⟨graph, hgraph, -, -, hcenter⟩ := hp.made
  obtain ⟨center, hc⟩ := Option.isSome_iff_exists.1 hcenter
  have hattached : center.graph = some (.screen i) := by
    have h := hp.attached
    simp only [Attached, hc, Option.map_some, Option.some.injEq] at h
    exact h
  have hfilter : center.graph.filter s.alive = some (.screen i) := by
    rw [hattached, Option.filter_some, if_pos hp.kept.held.alive]
  have hscene : (s.notify t (.screen i) hook "").2 = runActions t (.screen i) (.screen i) (s.matching i hook) s := by
    simp only [Scene.notify, hc, hfilter, foldl_runActions, matching, tasksAt]
  obtain ⟨hran, htasks, hhooks⟩ := runActions_of_made t (s.matching i hook) hp.made
  exact ⟨hscene, by rw [hscene, hran], by rw [hscene, htasks], by rw [hscene, hhooks]⟩

/-! ## Load hooks -/

theorem isLoaded_eq (s : Scene) (g : GraphId) : s.isLoaded g = ((s.mount? g).map (·.loaded)).getD false := by
  simp only [isLoaded, mount?]
  cases s.graphs.get? g <;> rfl

theorem SameMounts.isLoaded (h : SameMounts s s') (g : GraphId) : s'.isLoaded g = s.isLoaded g := by
  rw [isLoaded_eq, isLoaded_eq, h g]

/-- Registering load hooks in a graph that is there. -/
theorem foldl_addLoadHook : ∀ (hooks : List LoadHook) {s : Scene}, (s.graphs.get? g).isSome = true →
    (hooks.foldl (fun s hook => s.addLoadHook g hook) s).hooksAt g = s.hooksAt g ++ hooks ∧
      (hooks.foldl (fun s hook => s.addLoadHook g hook) s).hooksRan = s.hooksRan ∧
        (hooks.foldl (fun s hook => s.addLoadHook g hook) s).ran = s.ran
  | [], _, _ => by simp
  | hook :: hooks, s, hg => by
    obtain ⟨graph, hgraph⟩ := Option.isSome_iff_exists.1 hg
    have hget : (s.addLoadHook g hook).graphs.get? g = some { graph with hooks := graph.hooks ++ [hook] } := by
      simp only [addLoadHook, modifyGraph, Table.get?_modify, if_true, hgraph, Option.map_some]
    obtain ⟨hat, hhooks, hran⟩ := foldl_addLoadHook hooks (s := s.addLoadHook g hook) (by rw [hget]; rfl)
    rw [List.foldl_cons, hat, hhooks, hran]
    refine ⟨?_, rfl, rfl⟩
    simp only [hooksAt_eq hget, hooksAt_eq hgraph, List.append_assoc, List.singleton_append]

/-- A load hook of a loaded graph is recorded as such, and registers further ones. -/
theorem runHook_of_loaded (hl : s.isLoaded g = true) (t : Thread) (hook : LoadHook) :
    (runHook t g s hook).hooksRan = s.hooksRan ++ [(g, hook.tag, true)] ∧
      (runHook t g s hook).hooksAt g = s.hooksAt g ++ hook.nested ∧ (runHook t g s hook).isLoaded g = true ∧
        (runHook t g s hook).ran = s.ran := by
  obtain ⟨tag, update, nested⟩ := hook
  obtain ⟨s₁, hs₁⟩ : ∃ s₁, s₁ = s.emit (.hookRan g tag (s.isLoaded g)) := ⟨_, rfl⟩
  have hran : s₁.hooksRan = s.hooksRan ++ [(g, tag, true)] := by
    simp [hs₁, hooksRan, emit, Event.hookRan?, hl]
  have hat : s₁.hooksAt g = s.hooksAt g := by rw [hs₁]; rfl
  have hactions : s₁.ran = s.ran := by simp [hs₁, Scene.ran, emit, Event.ran?]
  have hl₁ : s₁.isLoaded g = true := by rw [hs₁]; exact hl
  -- The hook may store a value, which leaves all hooks alone.
  obtain ⟨s₂, hrun, hnoticed, hmounts⟩ : ∃ s₂, runHook t g s (.mk tag update nested) =
      nested.foldl (fun s hook => s.addLoadHook g hook) s₂ ∧ Unnoticed s₁ s₂ ∧ SameMounts s₁ s₂ := by
    subst hs₁
    refine ⟨_, rfl, ?_⟩
    split
    · exact ⟨.of_leads (leads_update _ t _ _ _), sameMounts_update _ t _ _ _⟩
    · exact ⟨.refl _, .refl _⟩
  have hsome : (s₂.graphs.get? g).isSome = true := by
    cases hg : s₂.graphs.get? g with
    | some graph => rfl
    | none =>
      have hnone : s₂.isLoaded g = false := by simp only [isLoaded, hg]
      rw [hmounts.isLoaded, hl₁] at hnone
      cases hnone
  obtain ⟨hat', hlater, hactions'⟩ := foldl_addLoadHook nested hsome
  refine ⟨?_, ?_, ?_, ?_⟩
  · rw [hrun, hlater, hnoticed.hooksRan, hran]
    rfl
  · rw [hrun, hat', hnoticed.hooks.hooksAt, hat]
    rfl
  · rw [(sameMounts_runHook t g s _).isLoaded, hl]
  · rw [hrun, hactions', hnoticed.ran, hactions]

/-- Loading ends: the load hooks that were registered ran, one after the other, and found the graph loaded,
and no actions; afterwards those are registered that they have registered. -/
structure HooksRan (s s' : Scene) (g : GraphId) : Prop where
  ran : s'.hooksRan = s.hooksRan ++ (s.hooksAt g).map fun hook => (g, hook.tag, true)
  hooks : s'.hooksAt g = (s.hooksAt g).flatMap (·.nested)
  loaded : s'.isLoaded g = true
  actions : s'.ran = s.ran

theorem runHooks_of_loaded (t : Thread) : ∀ (hooks : List LoadHook) {s : Scene}, s.isLoaded g = true →
    (hooks.foldl (runHook t g) s).hooksRan = s.hooksRan ++ hooks.map (fun hook => (g, hook.tag, true)) ∧
      (hooks.foldl (runHook t g) s).hooksAt g = s.hooksAt g ++ hooks.flatMap (·.nested) ∧
        (hooks.foldl (runHook t g) s).isLoaded g = true ∧ (hooks.foldl (runHook t g) s).ran = s.ran
  | [], s, hl => by simp [hl]
  | hook :: hooks, s, hl => by
    obtain ⟨hran, hat, hloaded, hactions⟩ := runHook_of_loaded hl t hook
    obtain ⟨hran', hat', hloaded', hactions'⟩ := runHooks_of_loaded t hooks hloaded
    rw [List.foldl_cons, hran', hat', hactions', hran, hat, hactions]
    exact ⟨by simp, by simp, hloaded', rfl⟩

theorem hooksRan_finishLoad {graph : Graph} (hgraph : s.graphs.get? g = some graph) (t : Thread) :
    HooksRan s (s.finishLoad t g) g := by
  obtain ⟨s₁, hs₁⟩ : ∃ s₁, s₁ = s.modifyGraph g fun graph =>
      { graph with mount := { graph.mount with loaded := true }, hooks := [] } := ⟨_, rfl⟩
  have hget : s₁.graphs.get? g = some { graph with mount := { graph.mount with loaded := true }, hooks := [] } := by
    rw [hs₁]
    exact get?_modifyGraph_self hgraph
  have hloaded : s₁.isLoaded g = true := by simp only [isLoaded, hget]
  have hnone : s₁.hooksAt g = [] := hooksAt_eq hget
  have hran : s₁.hooksRan = s.hooksRan := by rw [hs₁]; rfl
  have hat := hooksAt_eq hgraph
  have hfinish : s.finishLoad t g = graph.hooks.foldl (runHook t g) s₁ := by
    simp only [Scene.finishLoad, hgraph, hs₁]
  have hactions : s₁.ran = s.ran := by rw [hs₁]; rfl
  obtain ⟨hran', hat', hloaded', hactions'⟩ := runHooks_of_loaded t graph.hooks hloaded
  refine ⟨?_, ?_, by rw [hfinish, hloaded'], by rw [hfinish, hactions', hactions]⟩
  · rw [hfinish, hran', hran, hat]
  · rw [hfinish, hat', hnone, hat, List.nil_append]

end Scene

end LiveScreen
