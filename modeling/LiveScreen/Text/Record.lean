/-
The layout of described objects: a name with labelled fields between braces, a
list between brackets, a table of pairs between braces, an optional thing.
-/
namespace LiveScreen.Text.Record

/-- A named object with labelled fields. -/
def fields (name : String) (fs : List (String × String)) : String :=
  name ++ " \x7b " ++ String.intercalate ", " (fs.map fun f => f.1 ++ ": " ++ f.2) ++ " \x7d"

/-- A list of objects. -/
def list (items : List String) : String := "[" ++ String.intercalate ", " items ++ "]"

/-- A table from described keys to described values. -/
def table (rows : List (String × String)) : String :=
  "\x7b" ++ String.intercalate ", " (rows.map fun r => r.1 ++ ": " ++ r.2) ++ "\x7d"

/-- A thing that may be missing. -/
def optional : Option String → String
  | none => "None"
  | some text => "Some(" ++ text ++ ")"

/-- A truth value. -/
def flag (b : Bool) : String := if b then "true" else "false"

end LiveScreen.Text.Record
