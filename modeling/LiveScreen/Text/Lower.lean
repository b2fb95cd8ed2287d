/-
Lower-casing of whole texts, and the comparison that ignores the case of ASCII
letters only.

Two characters need more than a table of single characters. The capital I with
a dot becomes two characters, and a capital sigma is written differently at the
end of a word, so its lower-case form depends on the letters around it.
-/
import LiveScreen.Text.LowerTable

namespace LiveScreen.Text

/-- The image of a code point under the first run that holds it. -/
def lowerIn : List (Nat × Nat × Nat × Nat) → Nat → Nat
  | [], n => n
  | (first, last, step, image) :: runs, n =>
    if first ≤ n ∧ n ≤ last ∧ (n - first) % step = 0 then image + (n - first) else lowerIn runs n

/-- The lower-case form of one character out of context. -/
def lowerChar (c : Char) : List Char :=
  if c = '\u0130' then ['i', '\u0307'] else [Char.ofNat (lowerIn lowerRuns c.toNat)]

/-- Whether a character is a letter with case. -/
def isCased (c : Char) : Bool := inRanges casedRanges c.toNat

/-- Whether a character is passed over when the neighbours of a letter are looked at. -/
def isCaseIgnorable (c : Char) : Bool := inRanges caseIgnorableRanges c.toNat

/-- Whether the first character that counts is a letter with case. -/
def casedNext (s : List Char) : Bool :=
  match s.dropWhile isCaseIgnorable with
  | [] => false
  | c :: _ => isCased c

/-- Lower-cases a text whose preceding characters, nearest first, are given. -/
def lowerAfter (before : List Char) : List Char → List Char
  | [] => []
  | c :: s =>
    (if c = '\u03A3' then [if casedNext before && !casedNext s then '\u03C2' else '\u03C3']
      else lowerChar c) ++ lowerAfter (c :: before) s

/-- The lower-case form of a text. -/
def lower (s : List Char) : List Char := lowerAfter [] s

/-- The lower-case form of an ASCII capital; every other character stands for itself. -/
def asciiLower (c : Char) : Char :=
  if 'A' ≤ c ∧ c ≤ 'Z' then Char.ofNat (c.toNat + 32) else c

/-- Whether two texts are equal up to the case of ASCII letters. -/
def sameLetters (a b : String) : Bool := a.toList.map asciiLower == b.toList.map asciiLower

theorem sameLetters_iff (a b : String) :
    sameLetters a b = true ↔ a.toList.map asciiLower = b.toList.map asciiLower := by
  simp [sameLetters]

theorem sameLetters_comm (a b : String) : sameLetters a b = sameLetters b a := by
  simp only [sameLetters, Bool.beq_comm]

example : lower ['O', 'Δ', 'Ό', 'Σ'] = ['o', 'δ', 'ό', 'ς'] := by decide +kernel
example : lower ['Σ', '\u212A', 'ẞ', 'İ'] = ['σ', 'k', 'ß', 'i', '\u0307'] := by decide +kernel

end LiveScreen.Text
