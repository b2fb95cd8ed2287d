/-
How a plugin reads its attributes. A plugin states the attributes it knows as a
list of readings, each of which looks at the attributes and answers with a
change of the plugin's state or with the reason why there is none. The readings
are done in order, and the first that fails ends them; what the earlier ones
changed stays changed.
-/
import LiveScreen.Value
import LiveScreen.Duration
import LiveScreen.Failure

namespace LiveScreen

/-- The finite number a value holds. A text is trimmed and may end in `%` and then in `dp`, each
any number of times; a flag holds none. -/
def Value.finite? : Value → Option Float
  | .number x => if x.isFinite then some x else Option.none
  | .text s =>
    let literal := Text.stripSuffixes ['%'] (Text.stripSuffixes ['d', 'p'] (Text.trim s.toList))
    (Decimal.read? literal).filter Float.isFinite
  | .flag _ => Option.none

/-- What one attribute does to a state, or why it is refused. -/
abbrev Reading (σ : Type) := Attributes → Except FactoryError (σ → σ)

namespace Reading

variable {σ : Type}

/-- An attribute that may be absent, and then changes nothing. -/
def optional (key : String) (read : Value → Except FactoryError (σ → σ)) : Reading σ := fun attributes =>
  match attributes.getAnyCase? key with
  | none => .ok id
  | some value => read value

/-- A finite number. -/
def number (key : String) (set : Float → σ → σ) : Reading σ := optional key fun value =>
  match value.finite? with
  | some n => .ok (set n)
  | none => .error (.invalidAttribute key value.asText)

/-- The time a value gives in milliseconds. -/
def timeOf (key : String) (value : Value) : Except FactoryError Duration :=
  match value.finite? with
  | none => .error (.invalidAttribute key value.asText)
  | some ms =>
    match if ms < 0 then none else Duration.ofSeconds? (ms / 1000) with
    | some d => .ok d
    | none => .error (.invalidAttribute key (Decimal.Style.value.text ms))

/-- A time in milliseconds. -/
def time (key : String) (set : Duration → σ → σ) : Reading σ := optional key fun value =>
  (timeOf key value).map set

/-- A time in milliseconds that is unset where the attribute is absent. -/
def timeOrUnset (key : String) (set : Option Duration → σ → σ) : Reading σ := fun attributes =>
  match attributes.getAnyCase? key with
  | none => .ok (set none)
  | some value => (timeOf key value).map fun d => set (some d)

/-- Does readings in order up to the first that fails. -/
def run (attributes : Attributes) : List (Reading σ) → σ → Except FactoryError Unit × σ
  | [], s => (.ok (), s)
  | r :: rs, s =>
    match r attributes with
    | .ok change => run attributes rs (change s)
    | .error e => (.error e, s)

@[simp] theorem run_nil (attributes : Attributes) (s : σ) : run attributes [] s = (.ok (), s) := rfl

theorem run_cons_ok {attributes : Attributes} {r : Reading σ} {change : σ → σ}
    (h : r attributes = .ok change) (rs : List (Reading σ)) (s : σ) :
    run attributes (r :: rs) s = run attributes rs (change s) := by
  simp [run, h]

theorem run_cons_error {attributes : Attributes} {r : Reading σ} {e : FactoryError}
    (h : r attributes = .error e) (rs : List (Reading σ)) (s : σ) :
    run attributes (r :: rs) s = (.error e, s) := by
  simp [run, h]

end Reading

end LiveScreen
