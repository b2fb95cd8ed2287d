/-
Quoted texts, as they stand in the descriptions of objects. Quotes, backslashes
and the four common control characters are escaped by a letter, all else that
cannot be shown by its code point in hexadecimal digits.
-/
import LiveScreen.Text.PrintableTable

namespace LiveScreen.Text

/-- Whether a character is shown as itself: it can be printed, it is seen, and it is not a mark on
the character before it. -/
def isShown (c : Char) : Bool :=
  !inRanges extendingMarkRanges c.toNat && !inRanges unprintableRanges c.toNat &&
    !inRanges defaultIgnorableRanges c.toNat

/-- One character of a quoted text. -/
def quoteChar (c : Char) : List Char :=
  if c = '\x00' then ['\\', '0']
  else if c = '\t' then ['\\', 't']
  else if c = '\r' then ['\\', 'r']
  else if c = '\n' then ['\\', 'n']
  else if c = '"' then ['\\', '"']
  else if c = '\\' then ['\\', '\\']
  else if isShown c then [c]
  else ['\\', 'u', '\x7b'] ++ Nat.toDigits 16 c.toNat ++ ['\x7d']

/-- A text between double quotes. -/
def quote (s : String) : String := String.ofList (['"'] ++ s.toList.flatMap quoteChar ++ ['"'])

example : quote "a\"b" = "\"a\\\"b\"" := by decide +kernel
example : quote "e\u0301\uFF76\uFF9E" = "\"e\\u\x7b301\x7d\uFF76\uFF9E\"" := by decide +kernel
example : quote "\u00AD'" = "\"\\u\x7bad\x7d'\"" := by decide +kernel

end LiveScreen.Text
