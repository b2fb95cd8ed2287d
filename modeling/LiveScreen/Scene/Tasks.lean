/-
What screens do: animations are started, actions are run, tasks fire at their
hooks and load hooks run once loading has ended.
-/
import LiveScreen.Scene.Data

namespace LiveScreen.Scene

/-- From now on an animation center plays its animations through a queue. -/
def setAnimationUi (s : Scene) (c : AnimationCenterId) (q : QueueId) : Scene :=
  s.modifyAnimations c fun center => { center with ui := some q }

/-- Declares an animation by name. -/
def insertAnimation (s : Scene) (c : AnimationCenterId) (id : String) (a : Animation) : Scene :=
  s.modifyAnimations c (·.insert id a)

/-- Plays an animation on a node of a graph, through the UI queue if the center has one. There is
nothing to play if the graph has no such node. -/
def start (s : Scene) (t : Thread) (c : AnimationCenterId) (g : GraphId) (node : NodeId) (a : Animation) :
    Bool × Scene :=
  match (s.graphs.get? g).bind (·.node? node), s.animationCenters.get? c with
  | some _, some center =>
    match center.ui with
    | some q => (true, s.dispatch q t (.animate g node a))
    | none => (true, s.modifyGraph g (·.animate node a))
  | _, _ => (false, s)

/-- Adds a task. -/
def addTask (s : Scene) (c : TaskCenterId) (task : Task) : Scene :=
  s.modifyTasks c fun center => { center with tasks := center.tasks ++ [task] }

/-- Makes a graph the one the actions of a task center are run on. -/
def attach (s : Scene) (c : TaskCenterId) (g : GraphId) : Scene :=
  s.modifyTasks c fun center => { center with graph := some g }

/-- Starts a named animation on a named node, or on the root. -/
def startNamed (s : Scene) (t : Thread) (g : GraphId) (graph : Graph) (animation : String)
    (target : Option String) : Bool × Scene :=
  match (s.animationCenters.get? graph.animations).bind (·.named.get? animation) with
  | none => (false, s)
  | some a =>
    match target with
    | none => s.start t graph.animations g graph.root a
    | some name =>
      match graph.find? name with
      | some node => s.start t graph.animations g node.id a
      | none => (false, s)

/-- Runs an action on a graph. The flag says whether it could do anything. -/
def runAction (s : Scene) (t : Thread) (g : GraphId) (action : Action) : Bool × Scene :=
  match s.graphs.get? g with
  | none => (false, s)
  | some graph =>
    match action with
    | .outer key value =>
      match graph.mount.listener with
      | some listener => (true, s.emit (.told g listener key value))
      | none => (false, s)
    | .updateData key value => (true, s.update t graph.binder key value)
    | .startAnimation animation target => s.startNamed t g graph animation target
    | .record line => (true, s.emit (.recorded g line))
    | .probe tag key node attr =>
      (true, s.emit (.probed g tag (s.valueOf graph.binder key)
        ((graph.find? node).bind (·.attributes.get? attr))))
    | .addTask hook filter actions => (true, s.addTask graph.tasks ⟨hook, filter, actions⟩)

/-- Runs the actions of a task one after the other. -/
def runActions (t : Thread) (c : TaskCenterId) (g : GraphId) (actions : List Action) (s : Scene) : Scene :=
  actions.foldl (fun s a => ((s.emit (.ran c g a)).runAction t g a).2) s

/-- Fires a hook with a value: the tasks that were there when it fired and match run in order.
Answers how many they are. Nothing runs while no living graph is attached. -/
def notify (s : Scene) (t : Thread) (c : TaskCenterId) (hook : Hook) (value : String) : Nat × Scene :=
  match s.taskCenters.get? c with
  | none => (0, s)
  | some center =>
    match center.graph.filter s.alive with
    | none => (0, s)
    | some g =>
      let tasks := center.tasks.filter (·.fires hook value)
      (tasks.length, tasks.foldl (fun s task => runActions t c g task.actions s) s)

/-- Runs the action of a node. -/
def performAction (s : Scene) (t : Thread) (g : GraphId) (node : NodeId) : Bool × Scene :=
  match ((s.graphs.get? g).bind (·.node? node)).bind (·.action) with
  | some action => s.runAction t g action
  | none => (false, s)

/-- Plays the animation of a node. -/
def startAnimation (s : Scene) (t : Thread) (g : GraphId) (node : NodeId) : Bool × Scene :=
  match s.graphs.get? g with
  | none => (false, s)
  | some graph =>
    match (graph.node? node).bind (·.animation) with
    | some a => s.start t graph.animations g node a
    | none => (false, s)

/-- Pushes the container's parameters and the listener into a graph. -/
def mountGraph (s : Scene) (g : GraphId) (params : Layout.Params) (listener : Option String) : Scene :=
  s.modifyGraph g (·.mounted params listener)

/-- Registers a hook that runs when loading ends. Hooks registered later than that never run. -/
def addLoadHook (s : Scene) (g : GraphId) (hook : LoadHook) : Scene :=
  s.modifyGraph g fun graph => { graph with hooks := graph.hooks ++ [hook] }

/-- Whether a graph is loaded. -/
def isLoaded (s : Scene) (g : GraphId) : Bool :=
  match s.graphs.get? g with
  | some graph => graph.mount.loaded
  | none => false

/-- Runs a load hook: it is logged, it changes the data, it registers further hooks. -/
def runHook (t : Thread) (g : GraphId) (s : Scene) : LoadHook → Scene
  | .mk tag update nested =>
    let s := s.emit (.hookRan g tag (s.isLoaded g))
    let s := match update, s.graphs.get? g with
      | some (key, value), some graph => s.update t graph.binder key value
      | _, _ => s
    nested.foldl (fun s hook => s.addLoadHook g hook) s

/-- Marks a graph as loaded and runs the hooks registered so far, which are forgotten before the
first of them runs. -/
def finishLoad (s : Scene) (t : Thread) (g : GraphId) : Scene :=
  match s.graphs.get? g with
  | none => s
  | some graph =>
    let s := s.modifyGraph g fun graph =>
      { graph with mount := { graph.mount with loaded := true }, hooks := [] }
    graph.hooks.foldl (runHook t g) s

end LiveScreen.Scene
