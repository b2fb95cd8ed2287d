/-
What can go wrong: why a plugin cannot be made from its attributes, and why a
screen cannot be loaded. Each reason has one text.
-/
import LiveScreen.Decimal.Notation

namespace LiveScreen

/-- Why a plugin could not be made or configured. -/
inductive FactoryError where
  | missingAttribute (key : String)
  | invalidAttribute (key value : String)
  | invalidDensity (density : Float)
  deriving DecidableEq

/-- The text of the reason. -/
def FactoryError.message : FactoryError → String
  | .missingAttribute key => "missing attribute `" ++ key ++ "`"
  | .invalidAttribute key value => "invalid value `" ++ value ++ "` for attribute `" ++ key ++ "`"
  | .invalidDensity density => "invalid display density " ++ Decimal.Style.value.text density

/-- Why a screen could not be loaded. -/
inductive LoadError where
  /-- Loading was asked for before initialization. -/
  | notInitialized
  /-- Initialization ended without a view. -/
  | emptyView
  /-- The parent's density admits no layout parameters. -/
  | paramsUnavailable
  /-- Initialization did not end in time; loading may be tried again. -/
  | timedOut
  deriving DecidableEq

/-- The text of the reason. -/
def LoadError.message : LoadError → String
  | .notInitialized => "screen has not been initialized"
  | .emptyView => "screen has no view"
  | .paramsUnavailable => "layout parameters unavailable for the parent container"
  | .timedOut => "timed out waiting for initialization"

end LiveScreen
