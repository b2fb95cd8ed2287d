/-
The fewest decimal digits that identify a double.

A double stands for all real numbers that round to it: an interval whose ends
lie halfway to its neighbours, and belong to it when the mantissa is even. The
decimals of one, two, three, … digits are tried in turn, and of each length the
two that enclose the exact value. The first length with a decimal inside the
interval wins, there the nearer of the two, and of two equally near the larger.
-/
import LiveScreen.Decimal.Binary

namespace LiveScreen.Decimal

/-- The number `digits * 10 ^ exponent`. -/
structure Dec where
  digits : Nat
  exponent : Int
  deriving DecidableEq

/-- Compares `a * 10 ^ i` with `n * 2 ^ j`. -/
def compareScaled (a : Nat) (i : Int) (n : Nat) (j : Int) : Ordering :=
  compare (a * Nat.pow 10 i.toNat * Nat.pow 2 (-j).toNat) (n * Nat.pow 2 j.toNat * Nat.pow 10 (-i).toNat)

/-- Whether a decimal lies among the numbers that round to a double. -/
def Binary.readsBack (x : Binary) (d : Dec) : Bool :=
  let low := if x.narrowBelow then 4 * x.mantissa - 1 else 4 * x.mantissa - 2
  let high := 4 * x.mantissa + 2
  let closed := x.mantissa % 2 = 0
  let atLow := compareScaled d.digits d.exponent low (x.exponent - 2)
  let atHigh := compareScaled d.digits d.exponent high (x.exponent - 2)
  (atLow = .gt || (closed && atLow = .eq)) && (atHigh = .lt || (closed && atHigh = .eq))

/-- How many decimal digits a natural number has; zero has none. -/
def digitCount (n : Nat) : Nat := if n = 0 then 0 else (Nat.toDigits 10 n).length

/-- The least number of places, at most `fuel`, by which a fraction below one is shifted to reach one. -/
def placesToOne (num den : Nat) : Nat → Nat
  | 0 => 0
  | fuel + 1 => if den ≤ num then 0 else placesToOne (num * 10) den fuel + 1

/-- The least `k` with the value below `10 ^ k`, for a double other than zero. -/
def Binary.magnitude (x : Binary) : Int :=
  let (num, den) := x.toFraction
  if den ≤ num then digitCount (num / den) else 1 - (placesToOne num den 400 : Nat)

/-- The value rounded down to a multiple of `10 ^ exponent`, as the factor. -/
def Binary.floorAt (x : Binary) (exponent : Int) : Nat :=
  let (num, den) := x.toFraction
  num * Nat.pow 10 (-exponent).toNat / (den * Nat.pow 10 exponent.toNat)

/-- The better of the two decimals that enclose the value on one grid, if one of them reads back. -/
def Binary.onGrid? (x : Binary) (exponent : Int) : Option Dec :=
  let low : Dec := ⟨x.floorAt exponent, exponent⟩
  let high : Dec := ⟨low.digits + 1, exponent⟩
  match x.readsBack low, x.readsBack high with
  | false, false => none
  | true, false => some low
  | false, true => some high
  | true, true =>
    if compareScaled (low.digits + high.digits) exponent (2 * x.mantissa) x.exponent = .gt then some low
    else some high

/-- Moves the zeros that end the digits into the exponent. -/
def Dec.trimZeros (d : Dec) : Dec := go d.digits d d.digits
where
  /-- The same with a bound on the number of steps. -/
  go : Nat → Dec → Nat → Dec
    | 0, d, _ => d
    | fuel + 1, d, n => if n ≠ 0 ∧ n % 10 = 0 then go fuel ⟨n / 10, d.exponent + 1⟩ (n / 10) else d

/-- The exact value of a double as a decimal. -/
def Binary.exact (x : Binary) : Dec :=
  ⟨x.mantissa * Nat.pow 2 x.exponent.toNat * Nat.pow 5 (-x.exponent).toNat, min x.exponent 0⟩

/-- The shortest decimal that reads back, nearest to the value among the shortest. -/
def Binary.shortest (x : Binary) : Dec :=
  if x.mantissa = 0 then ⟨0, 0⟩
  else
    let k := x.magnitude
    match (List.range 17).findSome? fun n => x.onGrid? (k - (n + 1 : Nat)) with
    | some d => d.trimZeros
    | none => x.exact.trimZeros

example : (Binary.ofFloat 0.1).shortest = ⟨1, -1⟩ := by decide +kernel
example : (Binary.ofFloat (0.1 + 0.2)).shortest = ⟨30000000000000004, -17⟩ := by decide +kernel
example : (Binary.ofBits 1).shortest = ⟨5, -324⟩ := by decide +kernel
example : (Binary.ofFloat 2.98023223876953125e-8).shortest = ⟨29802322387695313, -24⟩ := by decide +kernel

end LiveScreen.Decimal
