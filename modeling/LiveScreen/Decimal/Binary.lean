/-
The exact value of a double: a natural number times a power of two, decoded
from its bits. All exact arithmetic on doubles starts from this form.
-/
namespace LiveScreen.Decimal

/-- A finite non-negative double, `mantissa * 2 ^ exponent`. -/
structure Binary where
  mantissa : Nat
  exponent : Int
  /-- Whether the next double below is half as far away as the next one above. -/
  narrowBelow : Bool
  deriving DecidableEq

/-- The exact value of the bits of a finite double, its sign left out. -/
def Binary.ofBits (bits : UInt64) : Binary :=
  let field := ((bits >>> 52) &&& 0x7FF).toNat
  let fraction := (bits &&& 0xFFFFFFFFFFFFF).toNat
  if field = 0 then ⟨fraction, -1074, false⟩
  else ⟨Nat.pow 2 52 + fraction, (field : Int) - 1075, fraction = 0 ∧ 1 < field⟩

/-- The exact value of a finite double, its sign left out. -/
def Binary.ofFloat (x : Float) : Binary := Binary.ofBits x.toBits

/-- The exact value as a fraction with a positive denominator. -/
def Binary.toFraction (x : Binary) : Nat × Nat :=
  (x.mantissa * Nat.pow 2 x.exponent.toNat, Nat.pow 2 (-x.exponent).toNat)

/-- Whether the sign bit of a double is set, also that of a negative zero. -/
def isNegative (x : Float) : Bool := x.toBits >>> 63 = 1

/-- Rounds a quotient to the nearest natural number, a tie to the even one. -/
def roundQuotient (num den : Nat) : Nat :=
  let q := num / den
  let r := num % den
  if 2 * r < den then q
  else if den < 2 * r then q + 1
  else q + q % 2

example : Binary.ofFloat 1.0 = ⟨2 ^ 52, -52, true⟩ := by decide +kernel
example : (roundQuotient 5 2, roundQuotient 7 2, roundQuotient 8 3) = (2, 4, 3) := by decide

end LiveScreen.Decimal
