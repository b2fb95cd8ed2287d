/-
The values that a screen displays and that its markup declares. A value can
always be read as a text, a number or a flag; what has no such reading reads as
zero, or as false.
-/
import LiveScreen.Text.Space
import LiveScreen.Text.Lower
import LiveScreen.Text.Quoted
import LiveScreen.Decimal.Literal
import LiveScreen.Decimal.Notation
import LiveScreen.Table

namespace LiveScreen

/-- A text, a number or a flag. -/
inductive Value where
  | text (s : String)
  | number (x : Float)
  | flag (b : Bool)
  deriving DecidableEq

namespace Value

/-- The value that stands in where none is given. -/
def none : Value := .text ""

instance : Inhabited Value := ⟨none⟩

/-- The value as a text. -/
def asText : Value → String
  | .text s => s
  | .number x => Decimal.Style.value.text x
  | .flag b => if b then "true" else "false"

/-- The value as a number. A text is trimmed and read as a literal; zero if it is none. -/
def asNumber : Value → Float
  | .text s => (Decimal.read? (Text.trim s.toList)).getD 0
  | .number x => x
  | .flag b => if b then 1 else 0

/-- The value as a flag. A text holds if it reads `true`, in any case, or `1`. -/
def asFlag : Value → Bool
  | .text s =>
    let trimmed := String.ofList (Text.trim s.toList)
    Text.sameLetters trimmed "true" || trimmed == "1"
  | .number x => x != 0
  | .flag b => b

/-- The value in the description of an object: its kind and its content. -/
def describe : Value → String
  | .text s => "String(" ++ Text.quote s ++ ")"
  | .number x => "Number(" ++ Decimal.Style.description.text x ++ ")"
  | .flag b => "Bool(" ++ (if b then "true" else "false") ++ ")"

end Value

/-- The attributes declared on an element. -/
abbrev Attributes := Dict Value

/-- The value whose key equals the given one up to the case of ASCII letters. -/
def Dict.getAnyCase? {α : Type} (d : Dict α) (key : String) : Option α :=
  (d.entries.find? fun e => Text.sameLetters e.1 key).map (·.2)

end LiveScreen
