/-
White space and trimming. White space is the Unicode property White_Space: 25
characters, with the no-break space, the next-line character and the
ideographic space among them, and without the zero-width space and the four
information separators.
-/
import LiveScreen.Text.Range

namespace LiveScreen.Text

/-- The code points with the property White_Space. -/
def spaceRanges : List (Nat × Nat) :=
  [(0x09, 0x0D), (0x20, 0x20), (0x85, 0x85), (0xA0, 0xA0), (0x1680, 0x1680), (0x2000, 0x200A),
   (0x2028, 0x2029), (0x202F, 0x202F), (0x205F, 0x205F), (0x3000, 0x3000)]

/-- Whether a character is white space. -/
def isSpace (c : Char) : Bool := inRanges spaceRanges c.toNat

/-- Drops the white space a text begins with. -/
def trimStart (s : List Char) : List Char := s.dropWhile isSpace

/-- Drops the white space a text ends with. -/
def trimEnd (s : List Char) : List Char := (s.reverse.dropWhile isSpace).reverse

/-- Drops the white space at both ends of a text. -/
def trim (s : List Char) : List Char := trimEnd (trimStart s)

/-- Removes a suffix as often as the text ends with it. The suffix `[]` removes nothing. -/
def stripSuffixes (suffix s : List Char) : List Char :=
  (go suffix.reverse s.length s.reverse).reverse
where
  /-- The same at the front of the reversed text, with the length as a bound on the repetitions. -/
  go (front : List Char) : Nat → List Char → List Char
    | 0, s => s
    | n + 1, s => if front ≠ [] ∧ front.isPrefixOf s then go front n (s.drop front.length) else s

/-- Cuts a text at every occurrence of a separator; `n` separators give `n + 1` pieces. -/
def splitOn (separator : Char) : List Char → List (List Char)
  | [] => [[]]
  | c :: s =>
    if c = separator then [] :: splitOn separator s
    else match splitOn separator s with
      | [] => [[c]]
      | piece :: pieces => (c :: piece) :: pieces

example : trim ['\t', 'a', ' ', 'b', '\u3000'] = ['a', ' ', 'b'] := by decide
example : trim ['\u200b', 'a'] = ['\u200b', 'a'] := by decide
example : stripSuffixes ['d', 'p'] ['1', 'd', 'p', 'd', 'p'] = ['1'] := by decide
example : splitOn ',' ['a', ',', ',', 'b'] = [['a'], [], ['b']] := by decide

end LiveScreen.Text
