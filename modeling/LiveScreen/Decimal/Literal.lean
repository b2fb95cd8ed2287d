/-
Reading a number. A literal is an optional sign before digits with an optional
point, where a point needs a digit on at least one side, and an optional
exponent; or one of the words `inf`, `infinity` and `nan` in any case. Blanks,
separators and other bases are not accepted. The value is rounded correctly;
what is too large reads as infinity.
-/
import LiveScreen.Text.Lower
import LiveScreen.Decimal.Shortest

namespace LiveScreen.Decimal

/-- Whether a character is one of the ten ASCII digits. -/
def isDigit (c : Char) : Bool := '0' ≤ c && c ≤ '9'

/-- The digits a text begins with, and the rest. -/
def spanDigits (s : List Char) : List Char × List Char := (s.takeWhile isDigit, s.dropWhile isDigit)

/-- The number that digits stand for. -/
def digitsValue (ds : List Char) : Nat := ds.foldl (fun n c => 10 * n + (c.toNat - 48)) 0

/-- The double nearest to `digits * 10 ^ exponent`. What lies far outside the range of doubles is
settled by its magnitude, so that no huge power is ever computed. -/
def nearest (digits : Nat) (exponent : Int) : Float :=
  let magnitude := digitCount digits + exponent
  if digits = 0 ∨ magnitude < -400 then 0
  else if 400 < magnitude then 1 / 0
  else Float.ofScientific digits (exponent < 0) exponent.natAbs

/-- An exponent with its mark, or nothing at all. -/
def readExponent? : List Char → Option Int
  | [] => some 0
  | c :: s =>
    if c = 'e' ∨ c = 'E' then
      let (negative, ds) := match s with
        | '-' :: t => (true, t)
        | '+' :: t => (false, t)
        | t => (false, t)
      if ds ≠ [] ∧ ds.all isDigit then
        some (if negative then -(digitsValue ds : Int) else digitsValue ds)
      else none
    else none

/-- The decimals after a point, and the rest; without a point there are none. -/
def spanDecimals : List Char → List Char × List Char
  | '.' :: s => spanDigits s
  | s => ([], s)

/-- A literal in digits, without a sign. -/
def readDigits? (s : List Char) : Option Float :=
  let (whole, s₁) := spanDigits s
  let (decimals, s₂) := spanDecimals s₁
  if whole = [] ∧ decimals = [] then none
  else (readExponent? s₂).map fun e => nearest (digitsValue (whole ++ decimals)) (e - decimals.length)

/-- A literal without a sign. -/
def readUnsigned? (s : List Char) : Option Float :=
  let word := String.ofList (s.map Text.asciiLower)
  if word = "inf" ∨ word = "infinity" then some (1 / 0)
  else if word = "nan" then some (0 / 0)
  else readDigits? s

/-- The number a literal stands for, or nothing if the text is no literal. -/
def read? : List Char → Option Float
  | '-' :: s => (readUnsigned? s).map fun x => -x
  | '+' :: s => readUnsigned? s
  | s => readUnsigned? s

example : (read? ['-', '.', '5', 'e', '1']).map Float.toBits = some (-5.0 : Float).toBits := by decide +kernel
example : (read? ['.']).isNone := by decide +kernel
example : (read? ['1', 'e']).isNone := by decide +kernel

end LiveScreen.Decimal
