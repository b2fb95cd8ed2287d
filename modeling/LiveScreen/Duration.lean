/-
Lengths of time: whole seconds below 2⁶⁴ and nanoseconds below 10⁹. Arithmetic
carries between the two parts and reports what does not fit; the number of
nanoseconds is the view all of it is stated in.
-/
import LiveScreen.Decimal.Notation

namespace LiveScreen

/-- A length of time. -/
structure Duration where
  seconds : Nat
  nanos : Nat
  seconds_lt : seconds < UInt64.size := by decide
  nanos_lt : nanos < 1_000_000_000 := by decide

namespace Duration

/-- The length in nanoseconds. -/
def toNanos (d : Duration) : Nat := d.seconds * 1_000_000_000 + d.nanos

theorem ext_toNanos {a b : Duration} (h : a.toNanos = b.toNanos) : a = b := by
  obtain ⟨s, n, hs, hn⟩ := a
  obtain ⟨t, m, ht, hm⟩ := b
  simp only [toNanos] at h
  have : s = t := by omega
  have : n = m := by omega
  subst_vars; rfl

instance : DecidableEq Duration := fun a b =>
  if h : a.toNanos = b.toNanos then isTrue (ext_toNanos h) else isFalse fun e => h (e ▸ rfl)

/-- No time at all. -/
def zero : Duration where
  seconds := 0
  nanos := 0

/-- The longest time there is. -/
def longest : Duration where
  seconds := UInt64.size - 1
  nanos := 1_000_000_000 - 1

/-- The length of so many nanoseconds, if the seconds fit. -/
def ofNanos? (n : Nat) : Option Duration :=
  if h : n / 1_000_000_000 < UInt64.size then
    some ⟨n / 1_000_000_000, n % 1_000_000_000, h, Nat.mod_lt _ (by decide)⟩
  else none

/-- The length of so many milliseconds, if the seconds fit. -/
def ofMillis? (n : Nat) : Option Duration := ofNanos? (n * 1_000_000)

/-- The length of a tenth of a second, the time a frame is shown unless another is given. -/
def tenth : Duration where
  seconds := 0
  nanos := 100_000_000

/-- A multiple: the nanoseconds are multiplied first and their carry is added to the seconds. -/
def times? (d : Duration) (n : Nat) : Option Duration :=
  let nanos := d.nanos * n
  let seconds := d.seconds * n + nanos / 1_000_000_000
  if h : seconds < UInt64.size then some ⟨seconds, nanos % 1_000_000_000, h, Nat.mod_lt _ (by decide)⟩ else none

/-- Whether one length is at most another: by the seconds, then by the nanoseconds. -/
def atMost (a b : Duration) : Bool :=
  a.seconds < b.seconds || (a.seconds = b.seconds && a.nanos ≤ b.nanos)

/-- The longer of two lengths. -/
def longer (a b : Duration) : Duration := if a.atMost b then b else a

/-- The longest of several lengths, no time at all if there are none. -/
def longestOf (ds : List Duration) : Duration := ds.foldl longer zero

/-- The length of a number of seconds, to the nearest nanosecond with ties to even. Negative
numbers, numbers that do not fit and what is no number have none. -/
def ofSeconds? (x : Float) : Option Duration :=
  if x.isNaN || x.isInf || x < 0 then none
  else
    let (num, den) := (Decimal.Binary.ofFloat x).toFraction
    ofNanos? (Decimal.roundQuotient (num * 1_000_000_000) den)

/-- A number with decimals, `whole + part / 10 ^ places`, without zeros at the end. -/
def fractionText (whole part places : Nat) : String :=
  let ds := Decimal.digitsOf part
  let padded := List.replicate (places - ds.length) '0' ++ ds
  let decimals := (padded.reverse.dropWhile (· == '0')).reverse
  String.ofList (Decimal.digitsOf whole ++ (if decimals = [] then [] else '.' :: decimals))

/-- The length in the largest unit of which it holds at least one: seconds, milliseconds,
microseconds or nanoseconds. -/
def text (d : Duration) : String :=
  if 0 < d.seconds then fractionText d.seconds d.nanos 9 ++ "s"
  else if 1_000_000 ≤ d.nanos then fractionText (d.nanos / 1_000_000) (d.nanos % 1_000_000) 6 ++ "ms"
  else if 1_000 ≤ d.nanos then fractionText (d.nanos / 1_000) (d.nanos % 1_000) 3 ++ "µs"
  else fractionText d.nanos 0 0 ++ "ns"

example : (ofSeconds? 1.5).map text = some "1.5s" := by decide +kernel
example : zero.text = "0ns" := by decide +kernel
example : (ofNanos? 500000).map text = some "500µs" := by decide +kernel

end Duration

end LiveScreen
