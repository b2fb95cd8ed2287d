/-
Layout parameters by name. Unlike other plugins they never miss: a name nobody
knows stands for the fallback kind.
-/
import LiveScreen.Registry
import LiveScreen.Layout.Params

namespace LiveScreen.Layout

/-- The kinds of layout parameters by name. -/
structure Catalog where
  kinds : Registry Context Params
  fallback : Kind

namespace Catalog

/-- Adds a name for a kind. -/
def addName (c : Catalog) (name : String) (kind : Kind) : Catalog :=
  { c with kinds := c.kinds.register name (Params.ofContext kind) }

/-- The catalog of all kinds under their markup names. -/
def standard : Catalog :=
  Kind.all.foldl (fun c kind => c.addName kind.name kind) ⟨.new "params", .fallback⟩

/-- The kind a name stands for, the fallback kind if there is no name or nobody knows it. -/
def kindFor (c : Catalog) (name : Option String) : Kind :=
  match name.bind fun n => c.kinds.resolve n .standard with
  | some params => params.kind
  | none => c.fallback

/-- Parameters for a name in a context, of the fallback kind if there is no name or nobody knows
it. Only a context whose density scales nothing gives none. -/
def resolve (c : Catalog) (name : Option String) (context : Context) : Option Params :=
  match name with
  | some n =>
    if c.kinds.contains n then c.kinds.resolve n context else c.kinds.resolve c.fallback.name context
  | none => c.kinds.resolve c.fallback.name context

/-- The description of a catalog. -/
def describe (c : Catalog) : String :=
  Text.Record.fields "ParamsRegistry" [("kinds", c.kinds.describe), ("default", c.fallback.describe)]

end Catalog

end LiveScreen.Layout
