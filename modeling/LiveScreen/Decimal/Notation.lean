/-
How a number is written once its digits are known. Two layouts are in use. The
text of a value never has an exponent and writes whole numbers without a point;
the description of an object always shows that a number may have decimals, and
uses an exponent for very large and very small ones.
-/
import LiveScreen.Decimal.Shortest

namespace LiveScreen.Decimal

/-- The decisions of a layout. -/
structure Style where
  /-- The exponents of the leading digit from the first up to but not including the second are
  written positionally; without bounds all are. -/
  positional : Option (Int × Int)
  /-- Whether a whole number ends in `.0` when written positionally. -/
  pointZero : Bool

/-- Values are written in full, whole numbers without a point. -/
def Style.value : Style := ⟨none, false⟩

/-- Descriptions are positional from 10⁻⁴ up to but not including 10¹⁶, with at least one decimal. -/
def Style.description : Style := ⟨some (-4, 16), true⟩

/-- Whether an exponent of the leading digit is written positionally. -/
def Style.isPositional (l : Style) (leading : Int) : Bool :=
  match l.positional with
  | none => true
  | some (first, bound) => first ≤ leading && leading < bound

/-- The decimal digits of a natural number. -/
def digitsOf (n : Nat) : List Char := Nat.toDigits 10 n

/-- `digits * 10 ^ exponent` with a decimal point and no exponent. -/
def inFull (pointZero : Bool) (d : Dec) : List Char :=
  let ds := digitsOf d.digits
  if 0 ≤ d.exponent then
    ds ++ List.replicate d.exponent.toNat '0' ++ (if pointZero then ['.', '0'] else [])
  else
    let places := (-d.exponent).toNat
    if places < ds.length then ds.take (ds.length - places) ++ ['.'] ++ ds.drop (ds.length - places)
    else ['0', '.'] ++ List.replicate (places - ds.length) '0' ++ ds

/-- `digits * 10 ^ exponent` with one digit before the point and an exponent. -/
def scientific (d : Dec) (leading : Int) : List Char :=
  let ds := digitsOf d.digits
  let exponent := (if leading < 0 then ['-'] else []) ++ digitsOf leading.natAbs
  match ds with
  | [] => []
  | [c] => [c, 'e'] ++ exponent
  | c :: rest => [c, '.'] ++ rest ++ ['e'] ++ exponent

/-- A decimal in a layout. -/
def Style.write (l : Style) (d : Dec) : List Char :=
  let leading := d.exponent + (digitsOf d.digits).length - 1
  if d.digits = 0 ∨ l.isPositional leading then inFull l.pointZero d else scientific d leading

/-- A number in a layout, by the fewest digits that identify it. The sign of a zero is kept. -/
def Style.text (l : Style) (x : Float) : String :=
  if x.isNaN then "NaN"
  else
    let sign := if isNegative x then ['-'] else []
    if x.isInf then String.ofList (sign ++ ['i', 'n', 'f'])
    else String.ofList (sign ++ l.write (Binary.ofFloat x).shortest)

example : Style.value.text 1e21 = "1000000000000000000000" := by decide +kernel
example : Style.value.text (-0.0) = "-0" := by decide +kernel
example : Style.value.text 1.5e-7 = "0.00000015" := by decide +kernel
example : Style.description.text 1e16 = "1e16" := by decide +kernel
example : Style.description.text 1.0 = "1.0" := by decide +kernel
example : Style.description.text 1.25e-5 = "1.25e-5" := by decide +kernel

end LiveScreen.Decimal
