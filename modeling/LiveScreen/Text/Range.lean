/-
Sets of characters given as closed ranges of code points, the form in which a
character property is written down. A table module holds the ranges of one
property; this module looks a character up in them.
-/
namespace LiveScreen.Text

/-- Whether a code point lies in one of the closed ranges. -/
def inRanges (ranges : List (Nat × Nat)) (n : Nat) : Bool :=
  ranges.any fun r => r.1 ≤ n && n ≤ r.2

end LiveScreen.Text
