/-
Spellings of a key. The letters of ASCII may change their case and white space may stand
around a key, and a registry takes it for the same key (`same_in_any_spelling`).

Lowering a text is not done letter by letter, since the form of a capital sigma hangs on
what stands around it. What carries the result is that the letters of ASCII count as
neighbours in both cases alike, so that a key is lowered as if those in it were small and
the white space around it were gone (`normalize_eq_lower_folded`). One change of the
spelling keeps that form (`Respelled.folded_eq`), and so does any number of them.
-/
import Mathlib.Logic.Relation
import LiveScreen.Proofs.Registry.Calls

namespace LiveScreen

/-! ## Spellings -/

/-- One change of the spelling of a key. -/
inductive Respelled (key key' : String) : Prop
  /-- Letters of ASCII change their case. -/
  | letters (h : Text.sameLetters key key' = true)
  /-- White space is added at the ends. -/
  | padded {before after : List Char} (hbefore : Text.IsBlank before) (hafter : Text.IsBlank after)
      (h : key'.toList = before ++ key.toList ++ after)
  /-- White space is removed at the ends. -/
  | stripped {before after : List Char} (hbefore : Text.IsBlank before) (hafter : Text.IsBlank after)
      (h : key.toList = before ++ key'.toList ++ after)

/-- Whether changes of the spelling, any number of them, lead from one key to another. -/
def SameKey : String → String → Prop := Relation.ReflTransGen Respelled

/-- A key without the white space around it and with small letters for those of ASCII. -/
def folded (key : String) : List Char := (Text.trim key.toList).map Text.asciiLower

/-- The letters of ASCII may be lowered before the others. -/
theorem normalize_eq_lower_folded (key : String) : normalize key = String.ofList (Text.lower (folded key)) := by
  rw [folded, Text.lower_map_asciiLower, normalize]

section Spellings

variable {key key' : String}

theorem Respelled.folded_eq (h : Respelled key key') : folded key' = folded key := by
  cases h with
  | letters h =>
    have hletters := (Text.sameLetters_iff key key').1 h
    rw [folded, folded, ← Text.trim_map_asciiLower, ← Text.trim_map_asciiLower, hletters]
  | padded hbefore hafter h => rw [folded, folded, h, Text.trim_append hbefore hafter]
  | stripped hbefore hafter h => rw [folded, folded, h, Text.trim_append hbefore hafter]

theorem SameKey.folded_eq (h : SameKey key key') : folded key' = folded key := by
  induction h with
  | refl => rfl
  | tail _ step ih => rw [step.folded_eq, ih]

/-- Keys are spellings of each other if nothing is left of the difference without white space and in small
letters. -/
theorem sameKey_iff : SameKey key key' ↔ folded key' = folded key := by
  refine ⟨SameKey.folded_eq, fun h => ?_⟩
  obtain ⟨before, after, hbefore, hafter, hkey⟩ := Text.exists_padding key.toList
  obtain ⟨before', after', hbefore', hafter', hkey'⟩ := Text.exists_padding key'.toList
  have hstripped : Respelled key (String.ofList (Text.trim key.toList)) :=
    .stripped hbefore hafter (by rwa [String.toList_ofList])
  have hletters : Respelled (String.ofList (Text.trim key.toList)) (String.ofList (Text.trim key'.toList)) :=
    .letters ((Text.sameLetters_iff _ _).2 (by rw [String.toList_ofList, String.toList_ofList]; exact h.symm))
  have hpadded : Respelled (String.ofList (Text.trim key'.toList)) key' :=
    .padded hbefore' hafter' (by rwa [String.toList_ofList])
  exact ((Relation.ReflTransGen.single hstripped).tail hletters).tail hpadded

instance : Decidable (SameKey key key') := decidable_of_iff _ sameKey_iff.symm

theorem SameKey.normalize_eq (h : SameKey key key') : normalize key' = normalize key := by
  rw [normalize_eq_lower_folded, h.folded_eq, ← normalize_eq_lower_folded]

theorem normalize_of_ascii (h : ∀ c ∈ key.toList, c.toNat < 128) : normalize key = String.ofList (folded key) := by
  obtain ⟨before, after, -, -, hkey⟩ := Text.exists_padding key.toList
  have htrim : ∀ c ∈ Text.trim key.toList, c.toNat < 128 := fun c hc => h c (by rw [hkey]; simp [hc])
  rw [normalize, Text.lower_of_ascii htrim, folded]

/-- Keys in ASCII are stored as one key only if they are spellings of each other. -/
theorem normalize_eq_iff_sameKey (h : ∀ c ∈ key.toList, c.toNat < 128) (h' : ∀ c ∈ key'.toList, c.toNat < 128) :
    normalize key' = normalize key ↔ SameKey key key' := by
  rw [normalize_of_ascii h, normalize_of_ascii h', String.ofList_inj, sameKey_iff]

end Spellings

/-! ## Registries -/

namespace Registry

variable {ι α : Type}

/-- The same call with its key in any spelling. -/
inductive Call.Respelled : Call ι α → Call ι α → Prop
  | register {key key' : String} (h : SameKey key key') (factory : Factory ι α) :
    Call.Respelled (.register key factory) (.register key' factory)
  | tryRegister {key key' : String} (h : SameKey key key') (build : Except FactoryError (Factory ι α)) :
    Call.Respelled (.tryRegister key build) (.tryRegister key' build)
  | resolve {key key' : String} (h : SameKey key key') (input : ι) :
    Call.Respelled (.resolve key input) (.resolve key' input)
  | contains {key key' : String} (h : SameKey key key') : Call.Respelled (.contains key) (.contains key')
  | keys : Call.Respelled .keys .keys

section Spellings

variable {key key' : String}

theorem register_sameKey (h : SameKey key key') (r : Registry ι α) (factory : Factory ι α) :
    r.register key' factory = r.register key factory := by
  rw [register, h.normalize_eq, register]

theorem tryRegister_sameKey (h : SameKey key key') (r : Registry ι α) (build : Except FactoryError (Factory ι α)) :
    r.tryRegister key' build = r.tryRegister key build := by
  cases build with
  | ok factory => rw [tryRegister, register_sameKey h, tryRegister]
  | error e => rfl

theorem resolve_sameKey (h : SameKey key key') (r : Registry ι α) (input : ι) :
    r.resolve key' input = r.resolve key input := by
  rw [resolve, h.normalize_eq, resolve]

theorem contains_sameKey (h : SameKey key key') (r : Registry ι α) : r.contains key' = r.contains key := by
  rw [contains, h.normalize_eq, contains]

/-- What is registered under a key is there in any spelling of it. -/
theorem resolve_register_sameKey (h : SameKey key key') (r : Registry ι α) (factory : Factory ι α) (input : ι) :
    (r.register key factory).resolve key' input = (factory input).toOption := by
  rw [resolve_sameKey h, resolve, register, Table.get?_insert_self]

theorem contains_register_sameKey (h : SameKey key key') (r : Registry ι α) (factory : Factory ι α) :
    (r.register key factory).contains key' = true := by
  rw [contains_sameKey h, contains, register, Table.contains, Table.get?_insert_self, Option.isSome_some]

end Spellings

theorem carryOut_respelled {call call' : Call ι α} (h : call.Respelled call') (r : Registry ι α) :
    r.carryOut call' = r.carryOut call := by
  cases h with
  | register h factory => exact register_sameKey h r factory
  | tryRegister h build => exact congrArg Prod.snd (tryRegister_sameKey h r build)
  | resolve | contains | keys => rfl

theorem foldl_carryOut_respelled {calls calls' : List (Call ι α)} (h : List.Forall₂ Call.Respelled calls calls')
    (r : Registry ι α) : calls'.foldl carryOut r = calls.foldl carryOut r := by
  induction h generalizing r with
  | nil => rfl
  | cons h _ ih => rw [List.foldl_cons, List.foldl_cons, carryOut_respelled h, ih]

/-- **A key in any spelling.** However the case of ASCII letters in a key is changed and white space is added or
removed at its ends, it has the same normal form, whatever other letters it has. So each call of a registry does the
same and answers the same, what is registered under one spelling is there under another, and a registry is the same
after calls whose keys are spelled in any way. Keys in ASCII that are not spellings of each other are told apart. -/
theorem same_in_any_spelling :
    (∀ key key', SameKey key key' → normalize key' = normalize key ∧
      ∀ (ι α : Type) (r : Registry ι α),
        (∀ factory, r.register key' factory = r.register key factory) ∧
        (∀ build, r.tryRegister key' build = r.tryRegister key build) ∧
        (∀ input, r.resolve key' input = r.resolve key input) ∧ r.contains key' = r.contains key ∧
        ∀ factory, (r.register key factory).contains key' = true ∧
          ∀ input, (r.register key factory).resolve key' input = (factory input).toOption) ∧
    (∀ (ι α : Type) (family : String) (calls calls' : List (Call ι α)), List.Forall₂ Call.Respelled calls calls' →
      after family calls' = after family calls) ∧
    ∀ key key', (∀ c ∈ key.toList, c.toNat < 128) → (∀ c ∈ key'.toList, c.toNat < 128) →
      (normalize key' = normalize key ↔ SameKey key key') := by
  refine ⟨fun key key' h => ⟨h.normalize_eq, fun ι α r => ?_⟩,
    fun ι α family calls calls' h => foldl_carryOut_respelled h (.new family),
    fun key key' hkey hkey' => normalize_eq_iff_sameKey hkey hkey'⟩
  exact ⟨register_sameKey h r, tryRegister_sameKey h r, resolve_sameKey h r, contains_sameKey h r,
    fun factory => ⟨contains_register_sameKey h r factory, resolve_register_sameKey h r factory⟩⟩

/-- A capital sigma with letters around it that change their case, one that ends a word after such a letter, and two
keys in ASCII that differ in a letter. -/
theorem sigma_in_any_spelling :
    let key := "\u3000xΣ.B "
    let key' := "XΣ.b\u2028"
    let calls : List (Call Nat Nat) := [.register key .ok, .tryRegister "ΟΔOΣ" (.ok .ok)]
    let calls' : List (Call Nat Nat) := [.register key' .ok, .tryRegister "ΟΔoΣ\t" (.ok .ok)]
    SameKey key key' ∧ normalize key = "xσ.b" ∧ normalize key' = "xσ.b" ∧
      normalize "ΟΔoΣ\t" = normalize "ΟΔOΣ" ∧ normalize "ΟΔOΣ" = "οδoς" ∧
      after "plugins" calls' = after "plugins" calls ∧
      ((new "plugins" : Registry Nat Nat).register key .ok).resolve key' 3 = some 3 ∧
      normalize "Fade " ≠ normalize "fate" := by
  intro key key' calls calls'
  obtain ⟨hspelled, hcalls, hascii⟩ := same_in_any_spelling
  have hkey : SameKey key key' := by decide
  have hroad : SameKey "ΟΔOΣ" "ΟΔoΣ\t" := by decide
  have hnormal : normalize key = "xσ.b" := normalize_eq_iff.2 (by decide +kernel)
  have hrespelled : List.Forall₂ Call.Respelled calls calls' :=
    .cons (.register hkey .ok) (.cons (.tryRegister hroad _) .nil)
  have hother : ¬ SameKey "fate" "Fade " := by decide
  obtain ⟨hsame, hregistry⟩ := hspelled key key' hkey
  obtain ⟨-, -, -, -, hregistered⟩ := hregistry Nat Nat (.new "plugins")
  refine ⟨hkey, hnormal, hsame.trans hnormal, (hspelled _ _ hroad).1, normalize_eq_iff.2 (by decide +kernel),
    hcalls Nat Nat "plugins" calls calls' hrespelled, (hregistered .ok).2 3, fun h => hother ?_⟩
  have hfate : ∀ c ∈ "fate".toList, c.toNat < 128 := List.all_iff_forall_prop.1 (by decide)
  have hfade : ∀ c ∈ "Fade ".toList, c.toNat < 128 := List.all_iff_forall_prop.1 (by decide)
  exact (hascii _ _ hfate hfade).1 h

end Registry

end LiveScreen
