/-
The display a screen is made for.
-/
import LiveScreen.Text.Quoted
import LiveScreen.Text.Record
import LiveScreen.Decimal.Notation

namespace LiveScreen

/-- The display a screen is initialized for or shown on. -/
structure Context where
  /-- Physical pixels per density-independent pixel. -/
  density : Float
  /-- Where markup files are looked for. -/
  resourceRoot : Option String

/-- One physical pixel per density-independent pixel, and no place for markup files. -/
def Context.standard : Context := ⟨1, none⟩

instance : Inhabited Context := ⟨.standard⟩

/-- Whether a density can scale sizes: it is finite and positive. -/
def validDensity (density : Float) : Bool := density.isFinite && 0 < density

/-- The description of a context. -/
def Context.describe (c : Context) : String :=
  Text.Record.fields "Context"
    [("density", Decimal.Style.description.text c.density),
      ("resource_root", Text.Record.optional (c.resourceRoot.map Text.quote))]

end LiveScreen
