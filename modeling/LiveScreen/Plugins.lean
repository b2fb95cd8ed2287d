/-
All plugins that markup is parsed against: actions, animations and layout
parameters.
-/
import LiveScreen.Action
import LiveScreen.Animation.Builtin
import LiveScreen.Layout.Catalog

namespace LiveScreen

/-- The three families of plugins. -/
structure Registries where
  actions : ActionRegistry
  animations : AnimationRegistry
  params : Layout.Catalog

/-- A plugin that can be registered by itself. -/
inductive Plugin where
  | action (factory : Factory ActionElement Action)
  | animation (factory : Factory AnimationCenter Animation)

namespace Plugin

/-- The plugins that can be asked for by a short name. Two of them always fail. -/
def ofName? (name : String) : Option Plugin :=
  match name with
  | "probe" => some (.action Action.makeProbe)
  | "addtask" => some (.action Action.makeAddTask)
  | "env" => some (.action Action.makeEnv)
  | "outer" => some (.action Action.makeOuter)
  | "fail_action" => some (.action fun _ => .error (.missingAttribute ""))
  | "alpha" => some (.animation Animation.makeAlpha)
  | "set" => some (.animation Animation.makeSet)
  | "translate" => some (.animation Animation.makeTranslate)
  | "fail_animation" => some (.animation fun _ => .error (.missingAttribute ""))
  | _ => none

end Plugin

namespace Registries

/-- All kinds of layout parameters, no action and no animation. -/
def bare : Registries := ⟨.new "action", .new "animation", .standard⟩

/-- The builtin plugins. -/
def builtin : Registries :=
  ⟨Action.registerBuiltins (.new "action"), Animation.registerBuiltins (.new "animation"), .standard⟩

/-- Registers a plugin in its family. -/
def add (r : Registries) (key : String) : Plugin → Registries
  | .action factory => { r with actions := r.actions.register key factory }
  | .animation factory => { r with animations := r.animations.register key factory }

/-- Registers an action that writes its tag into the log and a fade. -/
def withProbes (r : Registries) : Registries :=
  (r.add "record" (.action Action.makeRecord)).add "fade" (.animation Animation.makeFade)

/-- The description of all plugins. -/
def describe (r : Registries) : String :=
  Text.Record.fields "Registries"
    [("actions", r.actions.describe), ("animations", r.animations.describe), ("params", r.params.describe)]

end Registries

end LiveScreen
