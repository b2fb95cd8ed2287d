/-
The description of screens, of what they are initialized with and of the whole
application.
-/
import LiveScreen.Loader.App
import LiveScreen.Scene.Describe

namespace LiveScreen

open Text

/-- The description of a screen. -/
def Screen.describe (s : Screen) : String :=
  Record.fields "Screen"
    [("called_initialize", Record.flag s.calledInitialize), ("called_load", Record.flag s.calledLoad),
      ("initialized", Record.flag s.released), ("view", Record.flag s.view.isSome)]

/-- The description of options: of a shared binder only whether there is one, nothing of the globals
and the callback. -/
def InitOptions.describe (o : InitOptions) : String :=
  Record.fields "InitOptions"
    [("context", o.context.describe), ("instance_id", quote o.instanceId),
      ("restricted", Record.flag o.restricted), ("initial_data", describeValues o.initialData),
      ("binder", Record.flag o.binder.isSome), ("env", describeTexts o.env)]

/-- The description of what the scripts of a screen are given: of the globals only whether there
are any. -/
def InitOptions.describeScript (o : InitOptions) : String :=
  Record.fields "ScriptEnv"
    [("instance_id", quote o.instanceId), ("restricted", Record.flag o.restricted),
      ("globals", Record.optional (o.globals.map fun _ => quote ".."))]

/-- The description of an application with a configuration on a machine. -/
def App.describe (a : App) (config : LoaderConfig) (machine : Nat) : String :=
  Record.fields "Loader"
    [("config", config.describe machine), ("registries", a.registries.describe),
      ("threads", toString a.workers.threads)]

end LiveScreen
