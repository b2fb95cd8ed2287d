/-
What a screen is initialized with, and what the parser finds under the name of
a markup.
-/
import LiveScreen.Markup.Decl
import LiveScreen.Scene.Basic
import LiveScreen.Text.Sorted
import LiveScreen.Text.Record

namespace LiveScreen

/-- What the host hands to the scripts of a screen. -/
inductive Globals where
  | number (n : Int)
  | text (s : String)

/-- What is called once a screen is initialized: it writes a line, and may then panic. -/
structure DoneCallback where
  line : String
  panics : Bool

/-- What a screen is initialized with. -/
structure InitOptions where
  context : Context
  instanceId : String
  globals : Option Globals
  restricted : Bool
  /-- The data the screen's own binder starts with. -/
  initialData : Dict Value
  /-- A binder that belongs to others too, in place of one of its own. -/
  binder : Option BinderId
  /-- What is substituted into markup. -/
  env : Dict String
  onDone : Option DoneCallback

/-- Options where nothing is chosen. -/
def InitOptions.standard : InitOptions :=
  ⟨.standard, "", none, false, .empty, none, .empty, none⟩

/-- What the parser does for a markup: it may wait at a gate, it may panic, and it may build a
screen and register load hooks in it. -/
structure Markup where
  gated : Bool
  panics : Bool
  screen : Option GraphDecl
  hooks : List LoadHook

/-- The markup of a name nobody knows. -/
def Markup.unknown : Markup := ⟨false, false, none, []⟩

/-- The text of a script's globals in the log. -/
def Globals.text? : Option Globals → String
  | none => "none"
  | some (.number n) => "int " ++ toString n
  | some (.text s) => "string " ++ s

/-- The line the parser writes when it is called, given the number of tasks there are already and
the number of values in the binder. What is substituted is shown in the order of the whole texts. -/
def InitOptions.parseLine (o : InitOptions) (markup : String) (tasks values : Nat) : String :=
  let restricted := Text.Record.flag o.restricted
  let substitutions := Text.sorted (o.env.entries.map fun e => e.1 ++ "=" ++ e.2)
  "parse " ++ markup ++ " id=" ++ o.instanceId ++ " restricted=" ++ restricted ++ " script=" ++ o.instanceId
    ++ "/" ++ restricted ++ " globals=" ++ Globals.text? o.globals ++ " tasks=" ++ toString tasks ++ "/"
    ++ restricted ++ " density=" ++ Decimal.Style.value.text o.context.density ++ " root="
    ++ o.context.resourceRoot.getD "-" ++ " env=[" ++ String.intercalate "," substitutions ++ "] data="
    ++ toString values

end LiveScreen
