/-
What a host can do with graphs and services that are there (`Deed`), and runs of
it: any deeds, one after the other. A law about runs is stated by what a run leaves
in the scene and by what it collects on its way (`along`), deed by deed.
-/
import LiveScreen.Proofs.Scene.Firing

namespace LiveScreen

/-- What a host does with graphs and services. -/
inductive Deed where
  | addTask (center : TaskCenterId) (task : Task)
  | attach (center : TaskCenterId) (graph : GraphId)
  | notify (thread : Thread) (center : TaskCenterId) (hook : Hook) (value : String)
  | addLoadHook (graph : GraphId) (hook : LoadHook)
  | finishLoad (thread : Thread) (graph : GraphId)
  | mount (graph : GraphId) (params : Layout.Params) (listener : Option String)
  | hold (graph : GraphId) (holder : Holder)
  | release (graph : GraphId) (holder : Holder)
  | addView (binder : BinderId) (graph : GraphId)
  | update (thread : Thread) (binder : BinderId) (key : String) (value : Value)
  | perform (thread : Thread) (graph : GraphId) (node : NodeId)
  | animate (thread : Thread) (graph : GraphId) (node : NodeId)
  | bindData (binder : BinderId) (queue : QueueId)
  | bindAnimations (center : AnimationCenterId) (queue : QueueId)
  | poll (queue : QueueId) (thread : Thread)
  /-- A UI queue ends; what waits in it is lost. -/
  | dropQueue (queue : QueueId)

namespace Scene

/-- Does a deed. -/
def carryOut (s : Scene) : Deed → Scene
  | .addTask c task => s.addTask c task
  | .attach c g => s.attach c g
  | .notify t c hook value => (s.notify t c hook value).2
  | .addLoadHook g hook => s.addLoadHook g hook
  | .finishLoad t g => s.finishLoad t g
  | .mount g params listener => s.mountGraph g params listener
  | .hold g h => s.hold g h
  | .release g h => s.release g h
  | .addView b g => s.addView b g
  | .update t b key value => s.update t b key value
  | .perform t g node => (s.performAction t g node).2
  | .animate t g node => (s.startAnimation t g node).2
  | .bindData b q => s.setBinderUi b q
  | .bindAnimations c q => s.setAnimationUi c q
  | .poll q t => (s.poll q t).2
  | .dropQueue q => s.dropQueue q

/-- The scene after deeds. -/
def after (s : Scene) (ds : List Deed) : Scene := ds.foldl carryOut s

/-- What is collected while deeds are done, deed by deed. -/
def along {α : Type} (f : Scene → Deed → List α) (s : Scene) : List Deed → List α
  | [] => []
  | d :: ds => f s d ++ along f (s.carryOut d) ds

variable {s s' : Scene}

theorem after_cons (s : Scene) (d : Deed) (ds : List Deed) : s.after (d :: ds) = (s.carryOut d).after ds := rfl

theorem after_append (s : Scene) (ds ds' : List Deed) : s.after (ds ++ ds') = (s.after ds).after ds' :=
  List.foldl_append

theorem along_append {α : Type} (f : Scene → Deed → List α) : ∀ (s : Scene) (ds ds' : List Deed),
    s.along f (ds ++ ds') = s.along f ds ++ (s.after ds).along f ds'
  | _, [], _ => rfl
  | s, d :: ds, ds' => by
    simp only [List.cons_append, along, after_cons, along_append f _ ds ds', List.append_assoc]

/-! ## What deeds leave alone -/

theorem taskCenters_of_leads (h : Leads s s') : s'.taskCenters = s.taskCenters := by
  induction h with
  | refl => rfl
  | tail _ hc ih => cases hc <;> exact ih

theorem taskCenters_addView (s : Scene) (b : BinderId) (g : GraphId) :
    (s.addView b g).taskCenters = s.taskCenters := by
  unfold addView
  split <;> rfl

theorem taskCenters_runHook (t : Thread) (g : GraphId) (s : Scene) (hook : LoadHook) :
    (runHook t g s hook).taskCenters = s.taskCenters := by
  obtain ⟨tag, update, nested⟩ := hook
  have hemit : (s.emit (.hookRan g tag (s.isLoaded g))).taskCenters = s.taskCenters := rfl
  simp only [runHook]
  rw [foldl_frame (f := fun s hook => s.addLoadHook g hook) taskCenters fun _ _ => rfl, ← hemit]
  split
  · exact taskCenters_of_leads (leads_update _ t _ _ _)
  · rfl

theorem taskCenters_finishLoad (s : Scene) (t : Thread) (g : GraphId) :
    (s.finishLoad t g).taskCenters = s.taskCenters := by
  unfold finishLoad
  split
  · rfl
  · exact foldl_frame taskCenters (taskCenters_runHook t g) _ _

end Scene

end LiveScreen
