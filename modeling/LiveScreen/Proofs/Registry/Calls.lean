/-
A registry is a map from normal keys to factories. What it holds after any calls is told by
the registrations among them that succeeded: under a key it makes what the last of those
makes that was done under a key with the same normal form (`serves_last_registered`). The
other calls leave it alone. Its keys are listed in their normal form, which is their own, so
each is found as it is listed.
-/
import LiveScreen.Registry
import LiveScreen.Proofs.Text.Normal
import LiveScreen.Proofs.Text.Order

namespace LiveScreen.Registry

variable {ι α : Type}

/-- A call of a registry. -/
inductive Call (ι α : Type) where
  | register (key : String) (factory : Factory ι α)
  | tryRegister (key : String) (build : Except FactoryError (Factory ι α))
  | resolve (key : String) (input : ι)
  | contains (key : String)
  | keys

/-- What a call leaves. -/
def carryOut (r : Registry ι α) : Call ι α → Registry ι α
  | .register key factory => r.register key factory
  | .tryRegister key build => (r.tryRegister key build).2
  | .resolve .. | .contains _ | .keys => r

/-- The registry of a family after calls. -/
def after (family : String) (calls : List (Call ι α)) : Registry ι α :=
  calls.foldl carryOut (.new family)

/-- The key and the factory of a registration that succeeds. -/
def Call.added? : Call ι α → Option (String × Factory ι α)
  | .register key factory => some (key, factory)
  | .tryRegister key build => build.toOption.map (key, ·)
  | .resolve .. | .contains _ | .keys => none

/-- The registrations among calls that succeed. -/
def added (calls : List (Call ι α)) : List (String × Factory ι α) := calls.filterMap Call.added?

/-- The factory that the last of them gave under a key. -/
def given? (calls : List (Call ι α)) (key : String) : Option (Factory ι α) :=
  ((added calls).reverse.find? fun e => normalize e.1 = normalize key).map (·.2)

/-! ## What calls leave -/

theorem carryOut_of_added? {call : Call ι α} {e : String × Factory ι α} (h : call.added? = some e) (r : Registry ι α) :
    r.carryOut call = r.register e.1 e.2 := by
  cases call with
  | register key factory =>
    cases h
    rfl
  | tryRegister key build =>
    cases build with
    | ok factory =>
      cases h
      rfl
    | error e => cases h
  | _ => cases h

theorem carryOut_of_not_added? {call : Call ι α} (h : call.added? = none) (r : Registry ι α) : r.carryOut call = r := by
  cases call with
  | register key factory => cases h
  | tryRegister key build =>
    cases build with
    | ok factory => cases h
    | error e => rfl
  | _ => rfl

theorem foldl_carryOut : ∀ (calls : List (Call ι α)) (r : Registry ι α),
    calls.foldl carryOut r = (added calls).foldl (fun r e => r.register e.1 e.2) r
  | [], _ => rfl
  | call :: calls, r => by
    rw [List.foldl_cons, foldl_carryOut calls]
    cases h : call.added? with
    | none => rw [carryOut_of_not_added? h, added, added, List.filterMap_cons_none h]
    | some e => rw [carryOut_of_added? h, added, added, List.filterMap_cons_some h, List.foldl_cons]

theorem entries_foldl_register : ∀ (es : List (String × Factory ι α)) (r : Registry ι α),
    (es.foldl (fun r e => r.register e.1 e.2) r).entries = r.entries.insertAll (es.map fun e => (normalize e.1, e.2))
  | [], _ => rfl
  | _ :: es, _ => entries_foldl_register es _

/-- Under a key there is what the last registration gave that has it as its normal key. -/
theorem get?_after (family : String) (calls : List (Call ι α)) (key : String) :
    (after family calls).entries.get? key =
      ((added calls).reverse.find? fun e => normalize e.1 = key).map (·.2) := by
  have hnew : (new family : Registry ι α).entries.get? key = none := Table.get?_empty key
  rw [after, foldl_carryOut, entries_foldl_register, Table.get?_insertAll, ← List.map_reverse, List.find?_map,
    Option.map_map, hnew, Option.or_none]
  simp only [Function.comp_def]

theorem get?_after_normalize (family : String) (calls : List (Call ι α)) (key : String) :
    (after family calls).entries.get? (normalize key) = given? calls key := get?_after family calls (normalize key)

/-- The calls that register nothing might as well not have been made. -/
theorem after_filter (family : String) (calls : List (Call ι α)) :
    after family (calls.filter fun call => call.added?.isSome) = after family calls := by
  have hadded : added (calls.filter fun call => call.added?.isSome) = added calls := by
    rw [added, List.filterMap_filter, added]
    refine List.filterMap_congr fun call _ => ?_
    cases call.added? <;> rfl
  rw [after, after, foldl_carryOut, foldl_carryOut, hadded]

theorem mem_added {calls : List (Call ι α)} {e : String × Factory ι α} :
    e ∈ added calls ↔ ∃ call ∈ calls, call.added? = some e := List.mem_filterMap

theorem given?_isSome {calls : List (Call ι α)} {key : String} :
    (given? calls key).isSome = true ↔ ∃ call ∈ calls, ∃ e, call.added? = some e ∧ normalize e.1 = normalize key := by
  rw [given?, Option.isSome_map, List.find?_isSome]
  simp only [List.mem_reverse, mem_added, decide_eq_true_eq]
  constructor
  · rintro ⟨e, ⟨call, hcall, he⟩, hkey⟩
    exact ⟨call, hcall, e, he, hkey⟩
  · rintro ⟨call, hcall, e, he, hkey⟩
    exact ⟨e, ⟨call, hcall, he⟩, hkey⟩

/-- The last registration under a key is found there. -/
theorem given?_of_last {before later : List (Call ι α)} {call : Call ι α} {e : String × Factory ι α}
    (he : call.added? = some e) (hlast : ∀ c ∈ later, ∀ e', c.added? = some e' → normalize e'.1 ≠ normalize e.1)
    {key : String} (hkey : normalize key = normalize e.1) : given? (before ++ call :: later) key = some e.2 := by
  have hnone : ((added later).reverse.find? fun e' => normalize e'.1 = normalize key) = none := by
    refine List.find?_eq_none.2 fun e' he' => ?_
    obtain ⟨c, hc, he'⟩ := mem_added.1 (List.mem_reverse.1 he')
    simpa [hkey] using hlast c hc e' he'
  rw [given?, added, List.filterMap_append, List.filterMap_cons_some he, List.reverse_append, List.reverse_cons,
    List.append_assoc, List.find?_append, ← added, hnone, Option.none_or, List.singleton_append,
    List.find?_cons_of_pos (by simpa using hkey.symm), Option.map_some]

/-! ## What is listed -/

theorem mem_keys (r : Registry ι α) (key : String) : key ∈ r.keys ↔ ∃ factory, r.entries.get? key = some factory := by
  rw [keys, (Text.sorted_perm _).mem_iff, Table.mem_keys]

theorem length_keys (r : Registry ι α) : r.keys.length = r.size := by
  rw [keys, (Text.sorted_perm _).length_eq, Table.keys, List.length_map]
  rfl

theorem keys_eq_nil (r : Registry ι α) : r.keys = [] ↔ r.isEmpty = true := by
  rw [← List.length_eq_zero_iff, length_keys, isEmpty, List.isEmpty_iff, ← List.length_eq_zero_iff]
  rfl

/-- Keys are listed in the order of their bytes. -/
theorem pairwise_keys (r : Registry ι α) : r.keys.Pairwise fun a b => Text.bytes a < Text.bytes b :=
  (Text.pairwise_sorted r.entries.nodup).imp Text.bytes_lt

/-! ## Registries after calls -/

section After

variable {family : String} {calls : List (Call ι α)}

theorem contains_after (key : String) : (after family calls).contains key = (given? calls key).isSome := by
  rw [contains, Table.contains, get?_after_normalize]

theorem resolve_after (key : String) (input : ι) :
    (after family calls).resolve key input = (given? calls key).bind fun factory => (factory input).toOption := by
  rw [resolve, get?_after_normalize]
  cases given? calls key <;> rfl

/-- Only normal keys are stored. -/
theorem normalize_of_get? {key : String} {factory : Factory ι α}
    (h : (after family calls).entries.get? key = some factory) : normalize key = key := by
  rw [get?_after] at h
  obtain ⟨e, he, -⟩ := Option.map_eq_some_iff.1 h
  have hkey : normalize e.1 = key := by simpa using List.find?_some he
  rw [← hkey, normalize_normalize]

theorem mem_keys_after (key : String) :
    key ∈ (after family calls).keys ↔ ∃ call ∈ calls, ∃ e, call.added? = some e ∧ normalize e.1 = key := by
  rw [mem_keys]
  constructor
  · rintro ⟨factory, hget⟩
    have hnormal := normalize_of_get? hget
    rw [← hnormal, get?_after_normalize] at hget
    rw [← hnormal]
    exact given?_isSome.1 (Option.isSome_of_eq_some hget)
  · rintro ⟨call, hcall, e, he, rfl⟩
    rw [get?_after_normalize, ← Option.isSome_iff_exists]
    exact given?_isSome.2 ⟨call, hcall, e, he, rfl⟩

end After

/-- **A registry after any calls.** It contains the keys that some registration was done under that succeeded,
up to white space around them and case. Under such a key it makes what the factory of the last of these
registrations makes, and nothing if that fails or the key is not contained. Registrations that fail and calls that
only ask might as well not have been made. The keys are listed by the order of their UTF-8 bytes, each once; a
listed key is contained as it is listed and stands for its own entry and for no other. -/
theorem serves_last_registered (family : String) (calls : List (Call ι α)) :
    let r := after family calls
    (∀ key, r.contains key = true ↔
      ∃ call ∈ calls, ∃ e, call.added? = some e ∧ normalize e.1 = normalize key) ∧
    (∀ before call later e, calls = before ++ call :: later → call.added? = some e →
      (∀ c ∈ later, ∀ e', c.added? = some e' → normalize e'.1 ≠ normalize e.1) →
      ∀ key, normalize key = normalize e.1 → ∀ input, r.resolve key input = (e.2 input).toOption) ∧
    (∀ key, r.contains key = false → ∀ input, r.resolve key input = none) ∧
    after family (calls.filter fun call => call.added?.isSome) = r ∧
    (∀ key, key ∈ r.keys ↔ ∃ call ∈ calls, ∃ e, call.added? = some e ∧ normalize e.1 = key) ∧
    (r.keys.Pairwise fun a b => Text.bytes a < Text.bytes b) ∧ r.size = r.keys.length ∧
    (r.isEmpty = true ↔ r.keys = []) ∧
    ∀ key ∈ r.keys, r.contains key = true ∧
      (∃ factory, r.entries.get? key = some factory ∧ ∀ input, r.resolve key input = (factory input).toOption) ∧
      ∀ other ∈ r.keys, normalize other = normalize key → other = key := by
  intro r
  refine ⟨fun key => ?_, fun before call later e hsplit he hlast key hkey input => ?_, fun key hnot input => ?_,
    after_filter family calls, mem_keys_after, r.pairwise_keys, r.length_keys.symm, r.keys_eq_nil.symm,
    fun key hkey => ?_⟩
  · rw [contains_after, given?_isSome]
  · subst hsplit
    rw [resolve_after, given?_of_last he hlast hkey, Option.bind_some]
  · rw [contains_after, Option.isSome_eq_false_iff, Option.isNone_iff_eq_none] at hnot
    rw [resolve_after, hnot, Option.bind_none]
  · obtain ⟨factory, hget⟩ := (r.mem_keys key).1 hkey
    have hnormal := normalize_of_get? hget
    refine ⟨?_, ⟨factory, hget, fun input => ?_⟩, fun other hother heq => ?_⟩
    · rw [contains, Table.contains, hnormal, hget, Option.isSome_some]
    · rw [resolve, hnormal, hget]
    · obtain ⟨factory', hget'⟩ := (r.mem_keys other).1 hother
      rw [← normalize_of_get? hget', heq, hnormal]

/-- A key that is written in three ways and whose second registration fails, and one that ends in a sigma and whose
factory fails. -/
theorem twoKeys_serves :
    let calls : List (Call Nat Nat) :=
      [.register " Fade" .ok, .tryRegister "FADE\u3000" (.error (.missingAttribute "to")), .resolve "fade" 1,
        .tryRegister "ΟΔΟΣ" (.ok fun _ => .error (.missingAttribute "to")), .register "fAde" fun n => .ok (n + 1)]
    let r := after "numbers" calls
    r.resolve "\tFADE " 2 = some 3 ∧ "fade" ∈ r.keys ∧ "οδος" ∈ r.keys ∧ r.contains "οδος" = true ∧
      r.resolve "οδος" 2 = none ∧ r.contains "οδοσ" = false ∧ r.resolve "οδοσ" 2 = none := by
  intro calls r
  obtain ⟨hcontains, hresolve, hmissing, -, hkeys, -, -, -, hlisted⟩ := serves_last_registered "numbers" calls
  let last : Call Nat Nat := .register "fAde" fun n => .ok (n + 1)
  let failing : Call Nat Nat := .tryRegister "ΟΔΟΣ" (.ok fun _ => .error (.missingAttribute "to"))
  have hfade : normalize "fAde" = "fade" := normalize_eq_iff.2 (by decide +kernel)
  have hspaced : normalize "\tFADE " = "fade" := normalize_eq_iff.2 (by decide +kernel)
  have hroad : normalize "ΟΔΟΣ" = "οδος" := normalize_eq_iff.2 (by decide +kernel)
  have hlisted' : "οδος" ∈ r.keys := (hkeys _).2 ⟨failing, by simp [calls, failing], _, rfl, hroad⟩
  have hother : r.contains "οδοσ" = false := by
    have hsigma : normalize "οδοσ" = "οδοσ" := normalize_eq_iff.2 (by decide +kernel)
    have hfirst : normalize " Fade" = "fade" := normalize_eq_iff.2 (by decide +kernel)
    rw [Bool.eq_false_iff, ne_eq, hcontains, hsigma]
    simp [calls, Call.added?, Except.toOption, hfirst, hroad, hfade]
  refine ⟨?_, (hkeys _).2 ⟨last, by simp [calls, last], _, rfl, hfade⟩, hlisted', (hlisted _ hlisted').1, ?_, hother,
    hmissing _ hother 2⟩
  · exact hresolve (calls.take 4) last [] _ rfl rfl (by simp) _ (hspaced.trans hfade.symm) 2
  · refine hresolve (calls.take 3) failing (calls.drop 4) _ rfl rfl ?_ _ ?_ 2
    · simp [calls, Call.added?, hfade, hroad]
    · exact (normalize_eq_iff.2 (by decide +kernel)).trans hroad.symm

end LiveScreen.Registry
