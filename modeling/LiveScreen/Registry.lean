/-
Plugins by name. A registry maps keys to factories; a key counts without the
white space around it and in lower case, so markup may write it in any way. A
factory that fails, like a key that is not registered, resolves to nothing.
-/
import LiveScreen.Text.Space
import LiveScreen.Text.Lower
import LiveScreen.Text.Quoted
import LiveScreen.Text.Record
import LiveScreen.Text.Sorted
import LiveScreen.Table
import LiveScreen.Failure

namespace LiveScreen

/-- Makes an instance from what it is made for, or says why it cannot. -/
abbrev Factory (ι α : Type) := ι → Except FactoryError α

/-- The form in which a key is stored. -/
def normalize (key : String) : String := String.ofList (Text.lower (Text.trim key.toList))

/-- Factories by normalized key. -/
structure Registry (ι α : Type) where
  /-- What the plugins are, for descriptions. -/
  family : String
  entries : Dict (Factory ι α)

namespace Registry

variable {ι α : Type}

/-- The registry of a family without entries. -/
def new (family : String) : Registry ι α := ⟨family, .empty⟩

/-- Registers a factory in place of any earlier one with the same key. -/
def register (r : Registry ι α) (key : String) (factory : Factory ι α) : Registry ι α :=
  { r with entries := r.entries.insert (normalize key) factory }

/-- Registers a factory that has itself to be made first. If that fails nothing changes; the flag
says whether it succeeded. -/
def tryRegister (r : Registry ι α) (key : String) (build : Except FactoryError (Factory ι α)) :
    Bool × Registry ι α :=
  match build with
  | .ok factory => (true, r.register key factory)
  | .error _ => (false, r)

/-- Makes an instance of the plugin with a key. -/
def resolve (r : Registry ι α) (key : String) (input : ι) : Option α :=
  match r.entries.get? (normalize key) with
  | some factory => (factory input).toOption
  | none => none

/-- Whether a key is registered. -/
def contains (r : Registry ι α) (key : String) : Bool := r.entries.contains (normalize key)

/-- The registered keys in ascending order. -/
def keys (r : Registry ι α) : List String := Text.sorted r.entries.keys

/-- The number of registered keys. -/
def size (r : Registry ι α) : Nat := r.entries.size

/-- Whether no key is registered. -/
def isEmpty (r : Registry ι α) : Bool := r.entries.entries.isEmpty

/-- The description of a registry: its family and its keys. -/
def describe (r : Registry ι α) : String :=
  Text.Record.fields "Registry"
    [("family", Text.quote r.family), ("keys", Text.Record.list (r.keys.map Text.quote))]

end Registry

end LiveScreen
