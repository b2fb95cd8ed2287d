/-
Actions and the lifecycle hooks they are run at. An action is what markup
attaches to a node or to a task: a piece of data that says what to do to the
screen it belongs to.
-/
import LiveScreen.Value
import LiveScreen.Failure
import LiveScreen.Registry
import LiveScreen.Text.Record

namespace LiveScreen

/-- The points of a screen's life that tasks can be hooked to. -/
inductive Hook where
  /-- The data a screen is loaded with has been stored. -/
  | dataInitialize
  /-- Loading has ended; follows the former. -/
  | loadFinish
  /-- The screen was put on display. -/
  | viewShow
  deriving DecidableEq

namespace Hook

/-- The hook with a markup name, in any case and with white space around it. -/
def ofName? (name : String) : Option Hook :=
  let key := normalize name
  if key = "datainitialize" then some .dataInitialize
  else if key = "loadfinish" then some .loadFinish
  else if key = "viewshow" then some .viewShow
  else none

/-- The name of a hook in descriptions. -/
def describe : Hook → String
  | .dataInitialize => "DataInitialize"
  | .loadFinish => "LoadFinish"
  | .viewShow => "ViewShow"

end Hook

/-- An action. -/
inductive Action where
  /-- Hands a key and a value to whoever listens to the screen. -/
  | outer (key value : String)
  /-- Stores a value among the screen's data. -/
  | updateData (key : String) (value : Value)
  /-- Starts an animation declared by name, on a named node or on the root. -/
  | startAnimation (animation : String) (target : Option String)
  /-- Writes a line into the log. -/
  | record (line : String)
  /-- Writes into the log what the screen's data hold for a key and what a named node has for an
  attribute. -/
  | probe (tag key node attr : String)
  /-- Adds a task to the screen's tasks. -/
  | addTask (hook : Hook) (filter : Option String) (actions : List Action)

/-- A list of actions to run when a hook fires. -/
structure Task where
  hook : Hook
  /-- If there is one, the task runs only for this value. -/
  filter : Option String
  actions : List Action

/-- Whether a task runs when a hook fires with a value. -/
def Task.fires (t : Task) (hook : Hook) (value : String) : Bool :=
  t.hook = hook && t.filter.all (· == value)

/-- The markup element an action is made from. -/
structure ActionElement where
  attributes : Attributes
  /-- What the parser substituted into the markup. -/
  env : Dict String

/-- The attribute with exactly this key, else one whose key differs in the case of ASCII letters. -/
def ActionElement.attribute? (e : ActionElement) (key : String) : Option Value :=
  match e.attributes.get? key with
  | some value => some value
  | none => e.attributes.getAnyCase? key

/-- The text of an attribute, empty if it is absent. -/
def ActionElement.textOf (e : ActionElement) (key : String) : String :=
  ((e.attribute? key).map Value.asText).getD ""

/-- The text of an attribute that has to be there. -/
def ActionElement.required (e : ActionElement) (key : String) : Except FactoryError String :=
  match e.attribute? key with
  | some value => .ok value.asText
  | none => .error (.missingAttribute key)

/-- Actions are made from markup elements. -/
abbrev ActionRegistry := Registry ActionElement Action

namespace Action

/-- Makes the action that tells the listener. -/
def makeOuter : Factory ActionElement Action := fun e => .ok (.outer (e.textOf "key") (e.textOf "value"))

/-- Makes the action that stores a value; it needs a key. -/
def makeUpdateData : Factory ActionElement Action := fun e =>
  (e.required "key").map fun key => .updateData key ((e.attribute? "value").getD .none)

/-- Makes the action that starts an animation; it needs the animation's name. -/
def makeStartAnimation : Factory ActionElement Action := fun e =>
  (e.required "animation").map fun animation =>
    .startAnimation animation ((e.attribute? "target").map Value.asText)

/-- Makes the action that writes its tag into the log; it needs the tag. -/
def makeRecord : Factory ActionElement Action := fun e => (e.required "tag").map .record

/-- Makes the action that writes data and attributes into the log. -/
def makeProbe : Factory ActionElement Action := fun e =>
  .ok (.probe (e.textOf "tag") (e.textOf "key") (e.textOf "node") (e.textOf "attr"))

/-- Makes the action that adds a task which writes a tag into the log; it needs the name of a hook. -/
def makeAddTask : Factory ActionElement Action := fun e =>
  match Hook.ofName? (e.textOf "hook") with
  | some hook => .ok (.addTask hook none [.record (e.textOf "tag")])
  | none => .error (.invalidAttribute "hook" (e.textOf "hook"))

/-- Makes the action that writes an entry of the parser's environment into the log, or a dash. -/
def makeEnv : Factory ActionElement Action := fun e => .ok (.record ((e.env.get? (e.textOf "tag")).getD "-"))

/-- Registers the builtin actions. -/
def registerBuiltins (r : ActionRegistry) : ActionRegistry :=
  ((r.register "outeraction" makeOuter).register "updatedata" makeUpdateData).register
    "animationaction" makeStartAnimation

/-- The description of an optional text. -/
def describeText? (s : Option String) : String := Text.Record.optional (s.map Text.quote)

mutual

/-- The description of an action: its kind and its attributes. -/
def describe : Action → String
  | .outer key value => Text.Record.fields "Outer" [("key", Text.quote key), ("value", Text.quote value)]
  | .updateData key value =>
    Text.Record.fields "UpdateData" [("key", Text.quote key), ("value", value.describe)]
  | .startAnimation animation target =>
    Text.Record.fields "StartAnimation"
      [("animation", Text.quote animation), ("target", describeText? target)]
  | .record line => Text.Record.fields "Record" [("tag", Text.quote line)]
  | .probe tag key node attr =>
    Text.Record.fields "Probe"
      [("tag", Text.quote tag), ("key", Text.quote key), ("node", Text.quote node),
        ("attr", Text.quote attr)]
  | .addTask hook filter actions =>
    Text.Record.fields "AddTask"
      [("hook", hook.describe), ("filter", describeText? filter),
        ("actions", Text.Record.list (describeAll actions))]

/-- The descriptions of actions. -/
def describeAll : List Action → List String
  | [] => []
  | a :: rest => a.describe :: describeAll rest

end

end Action

/-- The description of a task. -/
def Task.describe (t : Task) : String :=
  Text.Record.fields "Task"
    [("hook", t.hook.describe), ("value", Action.describeText? t.filter),
      ("actions", Text.Record.list (Action.describeAll t.actions))]

end LiveScreen
