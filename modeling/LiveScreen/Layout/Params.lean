/-
Layout parameters: the size and place of one view in the terms of its
container. Lengths in markup are density-independent and are stored in physical
pixels.
-/
import LiveScreen.Text.Space
import LiveScreen.Text.Lower
import LiveScreen.Value
import LiveScreen.Context
import LiveScreen.Failure
import LiveScreen.Layout.Kind

namespace LiveScreen

/-- A pair of numbers: a position, an offset, two factors. -/
structure Pair where
  x : Float
  y : Float
  deriving DecidableEq

/-- Two zeros. -/
def Pair.zero : Pair := ⟨0, 0⟩

/-- The description of a pair of a kind. -/
def Pair.describe (kind : String) (p : Pair) : String :=
  kind ++ " [" ++ Decimal.Style.description.text p.x ++ ", " ++ Decimal.Style.description.text p.y ++ "]"

namespace Layout

/-- A width or height. -/
inductive Dimension where
  | matchParent
  | wrapContent
  | pixels (n : Float)
  deriving DecidableEq

/-- Reads a width or height: a keyword, or a number of density-independent pixels that may be
followed by `dp`. A flag is neither. -/
def Dimension.read? (value : Value) (density : Float) : Option Dimension :=
  match value with
  | .number n => some (.pixels (n * density))
  | .flag _ => none
  | .text s =>
    let word := Text.lower (Text.trim s.toList)
    if word = "match_parent".toList ∨ word = "fill_parent".toList then some .matchParent
    else if word = "wrap_content".toList then some .wrapContent
    else (Decimal.read? (Text.stripSuffixes ['d', 'p'] word)).map fun n => .pixels (n * density)

/-- Margins in physical pixels. -/
structure Margins where
  left : Float
  top : Float
  right : Float
  bottom : Float
  deriving DecidableEq

/-- The same margin on all sides. -/
def Margins.uniform (n : Float) : Margins := ⟨n, n, n, n⟩

/-- Layout parameters of one view. -/
structure Params where
  kind : Kind
  density : Float
  width : Dimension
  height : Dimension
  margins : Margins
  /-- The share of the room left over in a linear container. -/
  weight : Float
  /-- Where the view sits in a frame or linear container. -/
  gravity : Option String
  /-- The place in an absolute container, in physical pixels. -/
  position : Pair
  /-- Relations to other views in a relative container, such as `below` with the name of a view. -/
  rules : Dict String

/-- The relations a relative container knows. -/
def relativeRules : List String :=
  ["above", "below", "toleftof", "torightof", "alignleft", "aligntop", "alignright", "alignbottom",
    "alignparentleft", "alignparenttop", "alignparentright", "alignparentbottom"]

namespace Params

/-- Parameters of a kind at a density of one. -/
def new (kind : Kind) : Params where
  kind
  density := 1
  width := .wrapContent
  height := .wrapContent
  margins := .uniform 0
  weight := 0
  gravity := none
  position := .zero
  rules := .empty

/-- Parameters of a kind for a container in a context. -/
def ofContext (kind : Kind) (context : Context) : Except FactoryError Params :=
  if validDensity context.density then .ok { new kind with density := context.density }
  else .error (.invalidDensity context.density)

/-- The parameters after a markup attribute, or nothing if the attribute does not apply to the
kind or its value is no size. The key counts in lower case. -/
def withAttribute? (p : Params) (key : String) (value : Value) : Option Params :=
  let pixels := value.asNumber * p.density
  let key := String.ofList (Text.lower key.toList)
  if key = "width" then (Dimension.read? value p.density).map fun d => { p with width := d }
  else if key = "height" then (Dimension.read? value p.density).map fun d => { p with height := d }
  else if key = "margin" ∧ p.kind.hasMargins then some { p with margins := .uniform pixels }
  else if key = "marginleft" ∧ p.kind.hasMargins then some { p with margins.left := pixels }
  else if key = "margintop" ∧ p.kind.hasMargins then some { p with margins.top := pixels }
  else if key = "marginright" ∧ p.kind.hasMargins then some { p with margins.right := pixels }
  else if key = "marginbottom" ∧ p.kind.hasMargins then some { p with margins.bottom := pixels }
  else if key = "weight" ∧ p.kind = .linear then some { p with weight := value.asNumber }
  else if key = "gravity" ∧ (p.kind = .linear ∨ p.kind = .frame) then
    some { p with gravity := some value.asText }
  else if key = "x" ∧ p.kind = .absolute then some { p with position.x := pixels }
  else if key = "y" ∧ p.kind = .absolute then some { p with position.y := pixels }
  else if key ∈ relativeRules ∧ p.kind = .relative then
    some { p with rules := p.rules.insert key value.asText }
  else none

/-- Applies a markup attribute. An attribute that is refused changes nothing; the flag says
whether it was accepted. -/
def setAttribute (p : Params) (key : String) (value : Value) : Bool × Params :=
  match p.withAttribute? key value with
  | some p' => (true, p')
  | none => (false, p)

/-- Applies markup attributes in order, leaving out those that are refused. -/
def setAttributes (p : Params) (attributes : List (String × Value)) : Params :=
  attributes.foldl (fun p a => (p.setAttribute a.1 a.2).2) p

end Params

end Layout

end LiveScreen
