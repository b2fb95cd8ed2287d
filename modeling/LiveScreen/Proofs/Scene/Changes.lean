/-
What actions and UI tasks do to a scene, in small steps: they write attributes,
store values, post tasks and record what they did (`Change`). All that an action
does but adding tasks comes down to such steps (`leads_runAction`), and so does
polling (`leads_poll`). A property of scenes has so to be looked at once for each
kind of step, not for each operation.
-/
import LiveScreen.Proofs.Scene.Due
import LiveScreen.Scene.Tasks
import Mathlib.Logic.Relation

namespace LiveScreen

/-- What an action or a UI task records. -/
def Event.IsReport : Event → Prop
  | .note _ | .recorded .. | .probed .. | .told .. => True
  | .hookRan .. | .ran .. | .parsed .. | .initDone .. => False

/-- The task an action adds. -/
def Action.task? : Action → Option Task
  | .addTask hook filter actions => some ⟨hook, filter, actions⟩
  | _ => none

namespace Scene

/-- One small change. -/
inductive Change : Scene → Scene → Prop
  | report (s : Scene) {e : Event} (report : e.IsReport) : Change s (s.emit e)
  | queue (s : Scene) (q : QueueId) {f : UiQueue → UiQueue}
      (same : ∀ queue, (f queue).thread = queue.thread ∧ (f queue).alive = queue.alive) :
      Change s (s.modifyQueue q f)
  | write (s : Scene) (g : GraphId) (key : String) (value : Value) :
      Change s (s.modifyGraph g (·.applyData key value))
  | play (s : Scene) (g : GraphId) (node : NodeId) (a : Animation) : Change s (s.modifyGraph g (·.animate node a))
  | store {s : Scene} {b : BinderId} {binder : Binder} (known : s.binders.get? b = some binder) (key : String)
      (value : Value) : Change s (s.stored b binder key value)

/-- Small changes lead from one scene to another. -/
abbrev Leads : Scene → Scene → Prop := Relation.ReflTransGen Change

variable {s : Scene} {q : QueueId} {t : Thread} {g : GraphId}

theorem Change.leads {s s' : Scene} (h : Change s s') : Leads s s' := .single h

theorem leads_foldl {α : Type} {f : Scene → α → Scene} (hf : ∀ s x, Leads s (f s x)) :
    ∀ (l : List α) (s : Scene), Leads s (l.foldl f s)
  | [], _ => .refl
  | x :: l, s => (hf s x).trans (leads_foldl hf l (f s x))

/-- What none of several changes touches, all of them leave alone. -/
theorem foldl_frame {α γ : Type} (p : Scene → γ) {f : Scene → α → Scene} (hf : ∀ s x, p (f s x) = p s) :
    ∀ (l : List α) (s : Scene), p (l.foldl f s) = p s
  | [], _ => rfl
  | x :: l, s => (foldl_frame p hf l (f s x)).trans (hf s x)

/-! ## Tasks and queues -/

theorem change_post (s : Scene) (q : QueueId) (task : UiTask) : Change s (s.post q task) :=
  .queue s q fun queue => by split <;> exact ⟨rfl, rfl⟩

mutual

theorem leads_followUp (q : QueueId) (t : Thread) : ∀ (f : Followup) (s : Scene), Leads s (followUp q t f s)
  | .mk queued tag next, s => by
    unfold followUp
    split
    · exact (change_post s q _).leads
    · have hnote : Leads s (s.emit (.note tag)) := (Change.report s (e := .note tag) trivial).leads
      exact hnote.trans (leads_followUps q t next _)

theorem leads_followUps (q : QueueId) (t : Thread) : ∀ (fs : List Followup) (s : Scene), Leads s (followUps q t fs s)
  | [], _ => by unfold followUps; exact .refl
  | f :: rest, s => by
    unfold followUps
    exact (leads_followUp q t f s).trans (leads_followUps q t rest _)

end

theorem leads_runTask (s : Scene) (q : QueueId) (t : Thread) (task : UiTask) : Leads s (s.runTask q t task) := by
  cases task with
  | applyData g key value =>
    simp only [runTask]
    split
    · exact (Change.write s g key value).leads
    · exact .refl
  | animate g node a => exact (Change.play s g node a).leads
  | note tag next =>
    have hnote : Leads s (s.emit (.note tag)) := (Change.report s (e := .note tag) trivial).leads
    exact hnote.trans (leads_followUps q t next _)

theorem leads_dispatch (s : Scene) (q : QueueId) (t : Thread) (task : UiTask) : Leads s (s.dispatch q t task) := by
  unfold dispatch
  split
  · exact leads_runTask s q t task
  · exact (change_post s q task).leads

theorem leads_runNext? {s' : Scene} (h : s.runNext? q t = some s') : Leads s s' := by
  unfold runNext? at h
  split at h
  · cases h
  · rename_i task rest _
    cases h
    have hdequeue : Change s (s.modifyQueue q fun queue => { queue with pending := rest }) :=
      .queue s q fun _ => ⟨rfl, rfl⟩
    exact hdequeue.leads.trans (leads_runTask _ q t task)

theorem leads_pollFor (q : QueueId) (t : Thread) : ∀ (n : Nat) (s : Scene), Leads s (pollFor q t n s).2
  | 0, _ => .refl
  | n + 1, s => by
    unfold pollFor
    cases hr : s.runNext? q t with
    | none => exact .refl
    | some s' => exact (leads_runNext? hr).trans (leads_pollFor q t n s')

theorem leads_poll (s : Scene) (q : QueueId) (t : Thread) : Leads s (s.poll q t).2 := leads_pollFor q t _ s

/-! ## Data -/

theorem leads_update (s : Scene) (t : Thread) (b : BinderId) (key : String) (value : Value) :
    Leads s (s.update t b key value) := by
  unfold update
  split
  · exact .refl
  · rename_i binder hb
    have hstore : Leads s (s.stored b binder key value) := (Change.store hb key value).leads
    refine hstore.trans (leads_foldl (fun s g => ?_) _ _)
    unfold pushValue
    split
    · exact leads_dispatch s _ t _
    · split
      · exact (Change.write s g key value).leads
      · exact .refl

/-! ## Actions -/

theorem leads_start (s : Scene) (t : Thread) (c : AnimationCenterId) (g : GraphId) (node : NodeId) (a : Animation) :
    Leads s (s.start t c g node a).2 := by
  unfold start
  split
  · split
    · exact leads_dispatch s _ t _
    · exact (Change.play s g node a).leads
  · exact .refl

theorem leads_startNamed (s : Scene) (t : Thread) (g : GraphId) (graph : Graph) (animation : String)
    (target : Option String) : Leads s (s.startNamed t g graph animation target).2 := by
  unfold startNamed
  split
  · exact .refl
  · split
    · exact leads_start s t _ g _ _
    · split
      · exact leads_start s t _ g _ _
      · exact .refl

theorem leads_startAnimation (s : Scene) (t : Thread) (g : GraphId) (node : NodeId) :
    Leads s (s.startAnimation t g node).2 := by
  unfold startAnimation
  split
  · exact .refl
  · split
    · exact leads_start s t _ g node _
    · exact .refl

/-- An action that adds no task does nothing but small changes. -/
theorem leads_runAction (s : Scene) (t : Thread) (g : GraphId) {action : Action} (h : action.task? = none) :
    Leads s (s.runAction t g action).2 := by
  unfold runAction
  split
  · exact .refl
  · rename_i graph _
    cases action with
    | outer key value =>
      dsimp only
      split
      · exact (Change.report s (e := .told ..) trivial).leads
      · exact .refl
    | updateData key value => exact leads_update s t graph.binder key value
    | startAnimation animation target => exact leads_startNamed s t g graph animation target
    | record line => exact (Change.report s (e := .recorded ..) trivial).leads
    | probe tag key node attr => exact (Change.report s (e := .probed ..) trivial).leads
    | addTask => cases h

/-- An action that adds a task does nothing else. -/
theorem runAction_addTask {graph : Graph} (hg : s.graphs.get? g = some graph) {action : Action} {task : Task}
    (h : action.task? = some task) : (s.runAction t g action).2 = s.addTask graph.tasks task := by
  cases action with
  | addTask hook filter actions =>
    cases h
    simp only [runAction, hg]
  | _ => cases h

theorem runAction_of_no_graph (hg : s.graphs.get? g = none) (action : Action) :
    (s.runAction t g action).2 = s := by
  simp only [runAction, hg]

end Scene

end LiveScreen
