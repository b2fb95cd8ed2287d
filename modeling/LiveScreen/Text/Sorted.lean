/-
Texts in ascending order, by code points, which is also the order of their
UTF-8 bytes.
-/
namespace LiveScreen.Text

/-- Inserts a text into an ascending list, behind the texts that are not after it. -/
def insertSorted (k : String) : List String → List String
  | [] => [k]
  | k' :: rest => if k < k' then k :: k' :: rest else k' :: insertSorted k rest

/-- Texts in ascending order. -/
def sorted : List String → List String
  | [] => []
  | k :: rest => insertSorted k (sorted rest)

end LiveScreen.Text
