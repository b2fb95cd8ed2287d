/-
What configuring does to an animation. A type of animations is described by its
attributes in reading order (`Animation.attributes`), each with what it refuses
(`Attribute.fault?`) and what it makes of its field (`Attribute.settle`). Configuring
fails with the first fault in that order; the attributes up to it have settled their
fields, and the others have not been looked at (`configure_reads`). The code reads a
list of `Reading`s. A slot pairs an attribute with the readings that carry it out, and
is proved sound once for each way of reading.
-/
import LiveScreen.Animation.Basic
import Mathlib.Data.List.Nodup

namespace LiveScreen

/-! ## Attributes and their values -/

/-- Whether no two keys differ in the case of ASCII letters only. -/
def Dict.Distinct {α : Type} (d : Dict α) : Prop :=
  ∀ k₁ ∈ d.keys, ∀ k₂ ∈ d.keys, Text.sameLetters k₁ k₂ = true → k₁ = k₂

/-- Whether a value is stored under a key in some case of its ASCII letters. -/
def Dict.Gives {α : Type} (d : Dict α) (key : String) (v : α) : Prop :=
  ∃ k, Text.sameLetters k key = true ∧ d.get? k = some v

theorem sameLetters_trans {a b c : String} (hab : Text.sameLetters a b = true) (hbc : Text.sameLetters b c = true) :
    Text.sameLetters a c = true := by
  rw [Text.sameLetters_iff] at *
  exact hab.trans hbc

/-- Where no two keys differ in case only, looking up in any case finds what is stored. -/
theorem Dict.Distinct.getAnyCase?_eq_some {α : Type} {d : Dict α} (hd : d.Distinct) {key : String} {v : α} :
    d.getAnyCase? key = some v ↔ d.Gives key v := by
  constructor
  · intro h
    obtain ⟨⟨k, w⟩, hfound, rfl⟩ := Option.map_eq_some_iff.1 h
    exact ⟨k, by simpa using List.find?_some hfound, (Table.mem_entries_iff d).1 (List.mem_of_find?_eq_some hfound)⟩
  · rintro ⟨k, hk, hget⟩
    have hmem := (Table.mem_entries_iff d).2 hget
    rw [Dict.getAnyCase?]
    cases hfound : d.entries.find? fun e => Text.sameLetters e.1 key with
    | none => exact absurd hk (by simpa using List.find?_eq_none.1 hfound _ hmem)
    | some e =>
      have he := List.mem_of_find?_eq_some hfound
      have hsame : e.1 = k := by
        refine hd _ (List.mem_map_of_mem he) _ (List.mem_map_of_mem hmem) ?_
        have hkey : Text.sameLetters e.1 key = true := by simpa using List.find?_some hfound
        exact sameLetters_trans hkey (by rw [Text.sameLetters_comm]; exact hk)
      have hvalue : d.get? e.1 = some e.2 := (Table.mem_entries_iff d).1 he
      rw [hsame, hget] at hvalue
      rw [Option.map_some, ← hvalue]

namespace Animation

/-- What a field of an animation holds. A time may be unset. -/
inductive Content where
  | number (n : Float)
  | time (d : Option Duration)
  | frames (fs : List String)
  | flag (b : Bool)

/-- How an attribute is read. -/
inductive Way where
  /-- A finite number, converted to the unit of the field. -/
  | number (unit : Float → Float)
  /-- A number of milliseconds. -/
  | time
  /-- A number of milliseconds, unset where it is absent. -/
  | override
  /-- A text that lists frames. It has to be there and to list at least one. -/
  | frames
  /-- Anything, as a flag. -/
  | flag

/-- An attribute of a type of animations. -/
structure Attribute where
  key : String
  way : Way

/-- The time a value gives in milliseconds, if it is a number that is not negative and fits. -/
def millis? (value : Value) : Option Duration :=
  value.finite?.bind fun ms => if ms < 0 then none else Duration.ofSeconds? (ms / 1000)

namespace Attribute

/-- Why an attribute is refused. A time that is a number is shown as a number. -/
def fault? (t : Attribute) (given : Option Value) : Option FactoryError :=
  match t.way, given with
  | .number _, some v => if v.finite?.isSome then none else some (.invalidAttribute t.key v.asText)
  | .time, some v | .override, some v =>
    if (millis? v).isSome then none
    else some (.invalidAttribute t.key ((v.finite?.map Decimal.Style.value.text).getD v.asText))
  | .frames, some v => if FrameList.framesOf v.asText = [] then some (.invalidAttribute t.key v.asText) else none
  | .frames, none => some (.missingAttribute t.key)
  | _, _ => none

/-- Whether an attribute is accepted: a number has to be finite, a time a finite number that is not negative
and fits, and frames have to be there with an entry that is not blank. -/
def Valid (t : Attribute) (given : Option Value) : Prop :=
  match t.way with
  | .number _ => ∀ v, given = some v → ∃ n, v.finite? = some n
  | .time | .override =>
    ∀ v, given = some v → ∃ ms d, v.finite? = some ms ∧ ¬ ms < 0 ∧ Duration.ofSeconds? (ms / 1000) = some d
  | .frames => ∃ v, given = some v ∧ ∃ entry ∈ Text.splitOn ',' v.asText.toList, Text.trim entry ≠ []
  | .flag => True

/-- What an attribute leaves in its field, from what was there before. A value that is refused leaves
it alone, but a text without frames empties the list of frames. -/
def settle (t : Attribute) (given : Option Value) (before : Content) : Content :=
  match t.way, given with
  | .number unit, some v => (v.finite?.map fun n => .number (unit n)).getD before
  | .time, some v | .override, some v => ((millis? v).map fun d => .time (some d)).getD before
  | .override, none => .time none
  | .frames, some v => .frames (FrameList.framesOf v.asText)
  | .flag, some v => .flag v.asFlag
  | _, none => before

theorem millis?_isSome (v : Value) :
    (millis? v).isSome ↔ ∃ ms d, v.finite? = some ms ∧ ¬ ms < 0 ∧ Duration.ofSeconds? (ms / 1000) = some d := by
  rw [millis?]
  cases v.finite? with
  | none => simp
  | some ms => by_cases hms : ms < 0 <;> simp [hms, Option.isSome_iff_exists]

theorem framesOf_ne_nil {text : String} :
    FrameList.framesOf text ≠ [] ↔ ∃ entry ∈ Text.splitOn ',' text.toList, Text.trim entry ≠ [] := by
  simp [FrameList.framesOf]

theorem fault?_eq_none {t : Attribute} {given : Option Value} : t.fault? given = none ↔ t.Valid given := by
  obtain ⟨key, way⟩ := t
  cases given with
  | none => cases way <;> simp [fault?, Valid]
  | some v =>
    cases way with
    | number unit => simp [fault?, Valid, ← Option.isSome_iff_exists, Option.ne_none_iff_isSome]
    | time => simp [fault?, Valid, ← millis?_isSome, -exists_and_left, Option.ne_none_iff_isSome]
    | override => simp [fault?, Valid, ← millis?_isSome, -exists_and_left, Option.ne_none_iff_isSome]
    | frames => simp [fault?, Valid, ← framesOf_ne_nil, -ne_eq]
    | flag => simp [fault?, Valid]

end Attribute

/-- The attributes of an animation, in the order in which they are read. -/
def attributes : Animation → List Attribute
  | .alpha _ => [⟨"fromalpha", .number clampUnit⟩, ⟨"toalpha", .number clampUnit⟩, ⟨"duration", .time⟩]
  | .rotate _ =>
    [⟨"fromdegrees", .number id⟩, ⟨"todegrees", .number id⟩, ⟨"pivotx", .number id⟩, ⟨"pivoty", .number id⟩,
      ⟨"duration", .time⟩]
  | .scale _ =>
    [⟨"fromxscale", .number id⟩, ⟨"fromyscale", .number id⟩, ⟨"toxscale", .number id⟩, ⟨"toyscale", .number id⟩,
      ⟨"pivotx", .number id⟩, ⟨"pivoty", .number id⟩, ⟨"duration", .time⟩]
  | .translate t =>
    [⟨"fromxdelta", .number (· * t.density)⟩, ⟨"fromydelta", .number (· * t.density)⟩,
      ⟨"toxdelta", .number (· * t.density)⟩, ⟨"toydelta", .number (· * t.density)⟩, ⟨"duration", .time⟩]
  | .set _ _ => [⟨"duration", .override⟩]
  | .frames _ => [⟨"frames", .frames⟩, ⟨"duration", .time⟩, ⟨"oneshot", .flag⟩]
  | .fade _ => []

/-- The fields that attributes set, under their keys. -/
def fields : Animation → List (String × Content)
  | .alpha a =>
    [("fromalpha", .number a.start), ("toalpha", .number a.finish), ("duration", .time (some a.duration))]
  | .rotate r =>
    [("fromdegrees", .number r.start), ("todegrees", .number r.finish), ("pivotx", .number r.pivot.x),
      ("pivoty", .number r.pivot.y), ("duration", .time (some r.duration))]
  | .scale s =>
    [("fromxscale", .number s.start.x), ("fromyscale", .number s.start.y), ("toxscale", .number s.finish.x),
      ("toyscale", .number s.finish.y), ("pivotx", .number s.pivot.x), ("pivoty", .number s.pivot.y),
      ("duration", .time (some s.duration))]
  | .translate t =>
    [("fromxdelta", .number t.start.x), ("fromydelta", .number t.start.y), ("toxdelta", .number t.finish.x),
      ("toydelta", .number t.finish.y), ("duration", .time (some t.duration))]
  | .set _ declared => [("duration", .time declared)]
  | .frames f =>
    [("frames", .frames f.frames), ("duration", .time (some f.frameDuration)), ("oneshot", .flag f.oneShot)]
  | .fade _ => []

/-- What an animation holds in the field of an attribute. -/
def field? (a : Animation) (key : String) : Option Content := a.fields.lookup key

/-- What no attribute sets: the type, the density of a move and the children of a set. -/
def fixed (a : Animation) : String × Option Float × List Animation :=
  match a with
  | .translate t => (a.name, some t.density, [])
  | .set children _ => (a.name, none, children)
  | _ => (a.name, none, [])

/-- Whether an animation is of a type whose attributes are read in order. -/
def Ordered : Animation → Prop
  | .fade _ => False
  | _ => True

end Animation

/-! ## Slots -/

open Animation

theorem Reading.run_append {σ : Type} (attributes : LiveScreen.Attributes) (rs₂ : List (Reading σ)) :
    ∀ (rs₁ : List (Reading σ)) (s : σ), run attributes (rs₁ ++ rs₂) s =
      match run attributes rs₁ s with
      | (.ok (), s') => run attributes rs₂ s'
      | (.error e, s') => (.error e, s')
  | [], s => rfl
  | r :: rs₁, s => by
    cases h : r attributes with
    | ok change => rw [List.cons_append, run_cons_ok h, run_cons_ok h, run_append attributes rs₂ rs₁]
    | error e => rw [List.cons_append, run_cons_error h, run_cons_error h]

/-- An attribute with the readings that carry it out. -/
structure Slot (σ : Type) where
  target : Attribute
  readings : List (Reading σ)

namespace Animation

/-- The fields after one attribute. -/
def Attribute.settleIn (t : Attribute) (given : Option Value) (fields : List (String × Content)) :
    List (String × Content) :=
  fields.map fun e => if e.1 = t.key then (e.1, t.settle given e.2) else e

/-- The first fault in reading order. -/
def faultOf? (given : String → Option Value) (ts : List Attribute) : Option FactoryError :=
  ts.findSome? fun t => t.fault? (given t.key)

/-- The fields after attributes up to the first fault. -/
def settled (given : String → Option Value) : List Attribute → List (String × Content) → List (String × Content)
  | [], fields => fields
  | t :: ts, fields =>
    if t.fault? (given t.key) = none then settled given ts (t.settleIn (given t.key) fields)
    else t.settleIn (given t.key) fields

/-- The result that stands for an optional error. -/
def verdict : Option FactoryError → Except FactoryError Unit
  | none => .ok ()
  | some e => .error e

end Animation

/-- The readings of a slot do what its attribute says, to states whose animations share what no attribute
sets. -/
structure Slot.Sound {σ : Type} (slot : Slot σ) (wrap : σ → Animation)
    (shared : String × Option Float × List Animation) : Prop where
  run : ∀ (attributes : Attributes) (s : σ), (wrap s).fixed = shared →
    ∃ s', Reading.run attributes slot.readings s =
        (verdict (slot.target.fault? (attributes.getAnyCase? slot.target.key)), s') ∧
      (wrap s').fixed = shared ∧
      (wrap s').fields = slot.target.settleIn (attributes.getAnyCase? slot.target.key) (wrap s).fields
  own : ∀ {attributes attributes' : Attributes},
    attributes.getAnyCase? slot.target.key = attributes'.getAnyCase? slot.target.key →
    ∀ r ∈ slot.readings, r attributes = r attributes'

section Slots

variable {σ : Type} {wrap : σ → Animation} {shared : String × Option Float × List Animation}

/-- A change of a state settles the field of an attribute and nothing else. -/
def Settles (wrap : σ → Animation) (shared : String × Option Float × List Animation) (t : Attribute)
    (given : Option Value) (change : σ → σ) : Prop :=
  ∀ s, (wrap s).fixed = shared →
    (wrap (change s)).fixed = shared ∧ (wrap (change s)).fields = t.settleIn given (wrap s).fields

/-- What a reading answers is what the attribute says: a change that settles its field, or its fault. -/
inductive Answers (wrap : σ → Animation) (shared : String × Option Float × List Animation) (t : Attribute)
    (given : Option Value) : Except FactoryError (σ → σ) → Prop
  | ok {change : σ → σ} (fine : t.fault? given = none) (settles : Settles wrap shared t given change) :
    Answers wrap shared t given (.ok change)
  | error {e : FactoryError} (fault : t.fault? given = some e) (keeps : ∀ before, t.settle given before = before) :
    Answers wrap shared t given (.error e)

theorem settleIn_of_keeps {t : Attribute} {given : Option Value} (h : ∀ before, t.settle given before = before)
    (fields : List (String × Content)) : t.settleIn given fields = fields := by
  simp only [Attribute.settleIn, h]
  exact List.map_id'' (by rintro ⟨k, c⟩; split <;> rfl) fields

theorem settles_id {t : Attribute} {given : Option Value} (h : ∀ before, t.settle given before = before) :
    Settles wrap shared t given id :=
  fun s hs => ⟨hs, (settleIn_of_keeps h (wrap s).fields).symm⟩

/-- A change of a state puts a content into one field of its animation. -/
def Puts (wrap : σ → Animation) (shared : String × Option Float × List Animation) (key : String) (c : Content)
    (change : σ → σ) : Prop :=
  ∀ s, (wrap s).fixed = shared → (wrap (change s)).fixed = shared ∧
    (wrap (change s)).fields = (wrap s).fields.map fun e => if e.1 = key then (e.1, c) else e

theorem Puts.settles {t : Attribute} {given : Option Value} {c : Content} {change : σ → σ}
    (puts : Puts wrap shared t.key c change) (h : ∀ before, t.settle given before = c) :
    Settles wrap shared t given change := by
  intro s hs
  simp only [Attribute.settleIn, h]
  exact puts s hs

/-- A single reading that looks at what is given under the key of its attribute, and at nothing else. -/
theorem sound_reading {t : Attribute} {r : Reading σ}
    (answers : ∀ attributes, Answers wrap shared t (attributes.getAnyCase? t.key) (r attributes))
    (own : ∀ {attributes attributes' : Attributes},
      attributes.getAnyCase? t.key = attributes'.getAnyCase? t.key → r attributes = r attributes') :
    Slot.Sound ⟨t, [r]⟩ wrap shared where
  run attributes s hs := by
    have hanswers := answers attributes
    cases hread : r attributes with
    | ok change =>
      rw [hread] at hanswers
      cases hanswers with
      | ok fine settles =>
        refine ⟨change s, ?_, settles s hs⟩
        rw [Reading.run_cons_ok hread, Reading.run_nil, fine]
        rfl
    | error e =>
      rw [hread] at hanswers
      cases hanswers with
      | error fault keeps =>
        refine ⟨s, ?_, hs, (settleIn_of_keeps keeps _).symm⟩
        rw [Reading.run_cons_error hread, fault]
        rfl
  own h r' hr := by
    rw [List.mem_singleton.1 hr]
    exact own h

theorem sound_number {key : String} {unit : Float → Float} {set : Float → σ → σ}
    (puts : ∀ n, Puts wrap shared key (.number (unit n)) (set n)) :
    Slot.Sound ⟨⟨key, .number unit⟩, [.number key set]⟩ wrap shared := by
  refine sound_reading (fun attributes => ?_) fun h => by simp only [Reading.number, Reading.optional, h]
  simp only [Reading.number, Reading.optional]
  cases attributes.getAnyCase? key with
  | none => exact .ok rfl (settles_id fun _ => rfl)
  | some v =>
    dsimp only
    cases hread : v.finite? with
    | none => exact .error (by simp [Attribute.fault?, hread]) fun _ => by simp [Attribute.settle, hread]
    | some n =>
      refine .ok (by simp [Attribute.fault?, hread]) ((puts n).settles fun _ => ?_)
      simp [Attribute.settle, hread]

theorem timeOf_eq (key : String) (v : Value) :
    Reading.timeOf key v = match millis? v with
      | some d => .ok d
      | none => .error (.invalidAttribute key ((v.finite?.map Decimal.Style.value.text).getD v.asText)) := by
  rw [Reading.timeOf, millis?]
  cases v.finite? with
  | none => rfl
  | some ms => rfl

theorem sound_time {key : String} {set : Duration → σ → σ} (puts : ∀ d, Puts wrap shared key (.time (some d)) (set d)) :
    Slot.Sound ⟨⟨key, .time⟩, [.time key set]⟩ wrap shared := by
  refine sound_reading (fun attributes => ?_) fun h => by simp only [Reading.time, Reading.optional, h]
  simp only [Reading.time, Reading.optional, timeOf_eq]
  cases attributes.getAnyCase? key with
  | none => exact .ok rfl (settles_id fun _ => rfl)
  | some v =>
    dsimp only
    cases hread : millis? v with
    | none => exact .error (by simp [Attribute.fault?, hread]) fun _ => by simp [Attribute.settle, hread]
    | some d =>
      refine .ok (by simp [Attribute.fault?, hread]) ((puts d).settles fun _ => ?_)
      simp [Attribute.settle, hread]

theorem sound_override {key : String} {set : Option Duration → σ → σ}
    (puts : ∀ d, Puts wrap shared key (.time d) (set d)) :
    Slot.Sound ⟨⟨key, .override⟩, [.timeOrUnset key set]⟩ wrap shared := by
  refine sound_reading (fun attributes => ?_) fun h => by simp only [Reading.timeOrUnset, h]
  simp only [Reading.timeOrUnset, timeOf_eq]
  cases attributes.getAnyCase? key with
  | none => exact .ok rfl ((puts none).settles fun _ => rfl)
  | some v =>
    dsimp only
    cases hread : millis? v with
    | none => exact .error (by simp [Attribute.fault?, hread]) fun _ => by simp [Attribute.settle, hread]
    | some d =>
      exact .ok (by simp [Attribute.fault?, hread]) ((puts (some d)).settles fun _ => by simp [Attribute.settle, hread])

theorem sound_flag {key : String} {set : Bool → σ → σ} (puts : ∀ b, Puts wrap shared key (.flag b) (set b)) :
    Slot.Sound ⟨⟨key, .flag⟩, [.optional key fun value => .ok (set value.asFlag)]⟩ wrap shared := by
  refine sound_reading (fun attributes => ?_) fun h => by simp only [Reading.optional, h]
  simp only [Reading.optional]
  cases attributes.getAnyCase? key with
  | none => exact .ok rfl (settles_id fun _ => rfl)
  | some v => exact .ok rfl ((puts v.asFlag).settles fun _ => rfl)

/-! ## A list of slots -/

theorem run_slots (attributes : Attributes) : ∀ {slots : List (Slot σ)}, (∀ slot ∈ slots, slot.Sound wrap shared) →
    ∀ s, (wrap s).fixed = shared →
      ∃ s', Reading.run attributes (slots.flatMap (·.readings)) s =
          (verdict (faultOf? attributes.getAnyCase? (slots.map (·.target))), s') ∧
        (wrap s').fixed = shared ∧
        (wrap s').fields = settled attributes.getAnyCase? (slots.map (·.target)) (wrap s).fields
  | [], _, s, hs => ⟨s, rfl, hs, rfl⟩
  | slot :: slots, sound, s, hs => by
    obtain ⟨s₁, hrun, hs₁, hfields⟩ := (sound slot List.mem_cons_self).run attributes s hs
    rw [List.flatMap_cons, Reading.run_append, hrun, List.map_cons]
    cases hfault : slot.target.fault? (attributes.getAnyCase? slot.target.key) with
    | some e =>
      refine ⟨s₁, ?_, hs₁, ?_⟩
      · simp only [verdict, faultOf?, List.findSome?_cons, hfault]
      · rw [settled, hfault, if_neg (Option.some_ne_none e), hfields]
    | none =>
      have hsound : ∀ slot ∈ slots, slot.Sound wrap shared := fun slot h => sound slot (List.mem_cons_of_mem _ h)
      obtain ⟨s₂, hrun₂, hs₂, hfields₂⟩ := run_slots attributes hsound s₁ hs₁
      refine ⟨s₂, ?_, hs₂, ?_⟩
      · simp only [verdict, faultOf?, List.findSome?_cons, hfault, hrun₂]
      · rw [settled, hfault, if_pos rfl, hfields₂, hfields]

theorem Reading.run_congr {attributes attributes' : Attributes} : ∀ {rs : List (Reading σ)},
    (∀ r ∈ rs, r attributes = r attributes') → ∀ s, Reading.run attributes rs s = Reading.run attributes' rs s
  | [], _, _ => rfl
  | r :: rs, h, s => by
    have hr : r attributes = r attributes' := h r List.mem_cons_self
    have hrs : ∀ r ∈ rs, r attributes = r attributes' := fun r hr => h r (List.mem_cons_of_mem _ hr)
    cases hread : r attributes with
    | ok change => rw [Reading.run_cons_ok hread, Reading.run_cons_ok (hr ▸ hread), Reading.run_congr hrs]
    | error e => rw [Reading.run_cons_error hread, Reading.run_cons_error (hr ▸ hread)]

theorem run_slots_congr {attributes attributes' : Attributes} {slots : List (Slot σ)}
    (sound : ∀ slot ∈ slots, slot.Sound wrap shared)
    (h : ∀ slot ∈ slots, attributes.getAnyCase? slot.target.key = attributes'.getAnyCase? slot.target.key) (s : σ) :
    Reading.run attributes (slots.flatMap (·.readings)) s = Reading.run attributes' (slots.flatMap (·.readings)) s := by
  refine Reading.run_congr (fun r hr => ?_) s
  obtain ⟨slot, hslot, hmem⟩ := List.mem_flatMap.1 hr
  exact (sound slot hslot).own (h slot hslot) r hmem

/-- What configuring an animation does, in terms of its attributes. -/
structure Configures (a : Animation) : Prop where
  run : ∀ attributes, ∃ a', a.configure attributes = (verdict (faultOf? attributes.getAnyCase? a.attributes), a') ∧
    a'.fixed = a.fixed ∧ a'.fields = settled attributes.getAnyCase? a.attributes a.fields
  own : ∀ {attributes attributes' : Attributes},
    (∀ t ∈ a.attributes, attributes.getAnyCase? t.key = attributes'.getAnyCase? t.key) →
    a.configure attributes = a.configure attributes'

theorem configures_of_slots (wrap : σ → Animation) {s : σ} (rs : List (Reading σ)) (slots : List (Slot σ))
    (configure : ∀ attributes, (wrap s).configure attributes = (Reading.run attributes rs s).map id wrap)
    (readings : rs = slots.flatMap (·.readings)) (targets : (wrap s).attributes = slots.map (·.target))
    (sound : ∀ slot ∈ slots, slot.Sound wrap (wrap s).fixed) : Configures (wrap s) where
  run attributes := by
    obtain ⟨s', hrun, hfixed, hfields⟩ := run_slots attributes sound s rfl
    refine ⟨wrap s', ?_, hfixed, ?_⟩
    · rw [configure, readings, hrun, targets]
      rfl
    · rw [hfields, targets]
  own h := by
    rw [configure, configure, readings, run_slots_congr sound fun slot hslot => h _ ?_]
    rw [targets]
    exact List.mem_map_of_mem hslot

end Slots

/-! ## The types of animations -/

theorem configures_alpha (a : Alpha) : Configures (.alpha a) := by
  refine configures_of_slots .alpha Alpha.readings
    [⟨⟨"fromalpha", .number clampUnit⟩, [.number "fromalpha" fun n a => { a with start := clampUnit n }]⟩,
      ⟨⟨"toalpha", .number clampUnit⟩, [.number "toalpha" fun n a => { a with finish := clampUnit n }]⟩,
      ⟨⟨"duration", .time⟩, [.time "duration" fun d a => { a with duration := d }]⟩] (fun _ => rfl) rfl rfl ?_
  simp only [List.forall_mem_cons, List.not_mem_nil, false_imp_iff, implies_true, and_true]
  refine ⟨sound_number fun n => ?_, sound_number fun n => ?_, sound_time fun d => ?_⟩
  all_goals exact fun s hs => ⟨hs, by simp [fields]⟩

theorem configures_rotate (r : Rotate) : Configures (.rotate r) := by
  refine configures_of_slots .rotate Rotate.readings
    [⟨⟨"fromdegrees", .number id⟩, [.number "fromdegrees" fun n r => { r with start := n }]⟩,
      ⟨⟨"todegrees", .number id⟩, [.number "todegrees" fun n r => { r with finish := n }]⟩,
      ⟨⟨"pivotx", .number id⟩, [.number "pivotx" fun n r => { r with pivot.x := n }]⟩,
      ⟨⟨"pivoty", .number id⟩, [.number "pivoty" fun n r => { r with pivot.y := n }]⟩,
      ⟨⟨"duration", .time⟩, [.time "duration" fun d r => { r with duration := d }]⟩] (fun _ => rfl) rfl rfl ?_
  simp only [List.forall_mem_cons, List.not_mem_nil, false_imp_iff, implies_true, and_true]
  refine ⟨sound_number fun n => ?_, sound_number fun n => ?_, sound_number fun n => ?_, sound_number fun n => ?_,
    sound_time fun d => ?_⟩
  all_goals exact fun s hs => ⟨hs, by simp [fields]⟩

theorem configures_scale (s : Scale) : Configures (.scale s) := by
  refine configures_of_slots Animation.scale Scale.readings
    [⟨⟨"fromxscale", .number id⟩, [.number "fromxscale" fun n s => { s with start.x := n }]⟩,
      ⟨⟨"fromyscale", .number id⟩, [.number "fromyscale" fun n s => { s with start.y := n }]⟩,
      ⟨⟨"toxscale", .number id⟩, [.number "toxscale" fun n s => { s with finish.x := n }]⟩,
      ⟨⟨"toyscale", .number id⟩, [.number "toyscale" fun n s => { s with finish.y := n }]⟩,
      ⟨⟨"pivotx", .number id⟩, [.number "pivotx" fun n s => { s with pivot.x := n }]⟩,
      ⟨⟨"pivoty", .number id⟩, [.number "pivoty" fun n s => { s with pivot.y := n }]⟩,
      ⟨⟨"duration", .time⟩, [.time "duration" fun d s => { s with duration := d }]⟩] (fun _ => rfl) rfl rfl ?_
  simp only [List.forall_mem_cons, List.not_mem_nil, false_imp_iff, implies_true, and_true]
  refine ⟨sound_number fun n => ?_, sound_number fun n => ?_, sound_number fun n => ?_, sound_number fun n => ?_,
    sound_number fun n => ?_, sound_number fun n => ?_, sound_time fun d => ?_⟩
  all_goals exact fun s hs => ⟨hs, by simp [fields]⟩

/-- The states of a move that configuring goes through all have its density, so that what scales a number is
the same in each. -/
theorem configures_translate (t : Translate) : Configures (.translate t) := by
  refine configures_of_slots .translate Translate.readings
    [⟨⟨"fromxdelta", .number (· * t.density)⟩,
        [.number "fromxdelta" fun n t => { t with start.x := n * t.density }]⟩,
      ⟨⟨"fromydelta", .number (· * t.density)⟩,
        [.number "fromydelta" fun n t => { t with start.y := n * t.density }]⟩,
      ⟨⟨"toxdelta", .number (· * t.density)⟩,
        [.number "toxdelta" fun n t => { t with finish.x := n * t.density }]⟩,
      ⟨⟨"toydelta", .number (· * t.density)⟩,
        [.number "toydelta" fun n t => { t with finish.y := n * t.density }]⟩,
      ⟨⟨"duration", .time⟩, [.time "duration" fun d t => { t with duration := d }]⟩] (fun _ => rfl) rfl rfl ?_
  simp only [List.forall_mem_cons, List.not_mem_nil, false_imp_iff, implies_true, and_true]
  have density : ∀ s : Translate, (Animation.translate s).fixed = (Animation.translate t).fixed →
      s.density = t.density := by
    intro s hs
    simpa [fixed, name] using hs
  refine ⟨sound_number fun n => ?_, sound_number fun n => ?_, sound_number fun n => ?_, sound_number fun n => ?_,
    sound_time fun d => ?_⟩
  all_goals exact fun s hs => ⟨hs, by simp [fields, density s hs]⟩

theorem configures_set (children : List Animation) (declared : Option Duration) :
    Configures (.set children declared) := by
  refine configures_of_slots (.set children) [.timeOrUnset "duration" fun d _ => d]
    [⟨⟨"duration", .override⟩, [.timeOrUnset "duration" fun d _ => d]⟩] (fun _ => rfl) rfl rfl ?_
  simp only [List.forall_mem_cons, List.not_mem_nil, false_imp_iff, implies_true, and_true]
  exact sound_override fun d s hs => ⟨hs, by simp [fields]⟩

/-- The frames are replaced by one reading and refused by the next, so that a text without frames leaves none. -/
theorem sound_frames (shared : String × Option Float × List Animation) :
    Slot.Sound ⟨⟨"frames", .frames⟩, FrameList.readings.take 2⟩ Animation.frames shared where
  run attributes f hf := by
    simp only [FrameList.readings, List.take, Attribute.fault?]
    cases hget : attributes.getAnyCase? "frames" with
    | none =>
      refine ⟨f, ?_, hf, (settleIn_of_keeps (fun _ => rfl) _).symm⟩
      rw [Reading.run_cons_error (by rw [hget])]
      rfl
    | some v =>
      refine ⟨{ f with frames := FrameList.framesOf v.asText }, ?_, hf,
        by simp [Attribute.settleIn, fields, Attribute.settle]⟩
      rw [Reading.run_cons_ok (by rw [hget])]
      by_cases hnone : FrameList.framesOf v.asText = []
      · simp only [Reading.run, Reading.optional, hget, hnone, if_true, verdict]
      · simp only [Reading.run, Reading.optional, hget, hnone, if_false, verdict, id]
  own h r hr := by
    simp only [FrameList.readings, List.take, List.mem_cons, List.not_mem_nil, or_false] at hr
    obtain rfl | rfl := hr
    · simp only [h]
    · simp only [Reading.optional, h]

theorem configures_frames (f : FrameList) : Configures (.frames f) := by
  refine configures_of_slots Animation.frames FrameList.readings
    [⟨⟨"frames", .frames⟩, FrameList.readings.take 2⟩,
      ⟨⟨"duration", .time⟩, [.time "duration" fun d f => { f with frameDuration := d }]⟩,
      ⟨⟨"oneshot", .flag⟩, [.optional "oneshot" fun value => .ok fun f => { f with oneShot := value.asFlag }]⟩]
    (fun _ => rfl) rfl rfl ?_
  simp only [List.forall_mem_cons, List.not_mem_nil, false_imp_iff, implies_true, and_true]
  have puts : ∀ b, Puts Animation.frames (Animation.frames f).fixed "oneshot" (.flag b)
      fun f => { f with oneShot := b } := fun b s hs => ⟨hs, by simp [fields]⟩
  exact ⟨sound_frames _, sound_time fun d s hs => ⟨hs, by simp [fields]⟩, sound_flag puts⟩

theorem configures_of_ordered : ∀ {a : Animation}, a.Ordered → Configures a
  | .alpha a, _ => configures_alpha a
  | .rotate r, _ => configures_rotate r
  | .scale s, _ => configures_scale s
  | .translate t, _ => configures_translate t
  | .frames f, _ => configures_frames f
  | .set children declared, _ => configures_set children declared

/-! ## What configuring reads -/

namespace Animation

variable {given : String → Option Value}

theorem faultOf?_eq_none {ts : List Attribute} :
    faultOf? given ts = none ↔ ∀ t ∈ ts, t.Valid (given t.key) := by
  simp only [faultOf?, List.findSome?_eq_none_iff, Attribute.fault?_eq_none]

theorem faultOf?_eq_some {ts : List Attribute} {e : FactoryError} :
    faultOf? given ts = some e ↔ ∃ before t after, ts = before ++ t :: after ∧
      (∀ u ∈ before, u.Valid (given u.key)) ∧ t.fault? (given t.key) = some e := by
  rw [faultOf?, List.findSome?_eq_some_iff]
  constructor
  · rintro ⟨before, t, after, h, fault, fine⟩
    exact ⟨before, t, after, h, fun u hu => Attribute.fault?_eq_none.1 (fine u hu), fault⟩
  · rintro ⟨before, t, after, h, fine, fault⟩
    exact ⟨before, t, after, h, fault, fun u hu => Attribute.fault?_eq_none.2 (fine u hu)⟩

theorem lookup_settleIn (t : Attribute) (v : Option Value) (key : String) : ∀ fields : List (String × Content),
    (t.settleIn v fields).lookup key =
      if key = t.key then (fields.lookup key).map (t.settle v) else fields.lookup key
  | [] => by simp [Attribute.settleIn]
  | (k, c) :: fields => by
    have ih := lookup_settleIn t v key fields
    rw [Attribute.settleIn] at ih ⊢
    rw [List.map_cons]
    by_cases hk : key = k
    · subst hk
      by_cases ht : key = t.key <;> simp only [ht, if_true, if_false, List.lookup_cons_self, Option.map_some]
    · have hne : (key == k) = false := beq_eq_false_iff_ne.2 hk
      by_cases ht : k = t.key
      · rw [if_pos ht, List.lookup_cons, List.lookup_cons, hne, ih]
      · rw [if_neg ht, List.lookup_cons, List.lookup_cons, hne, ih]

/-- Attributes with other keys leave a field alone. -/
theorem lookup_settled_of_notMem {key : String} : ∀ {ts : List Attribute} (fields : List (String × Content)),
    key ∉ ts.map (·.key) → (settled given ts fields).lookup key = fields.lookup key
  | [], _, _ => rfl
  | t :: ts, fields, h => by
    rw [List.map_cons, List.mem_cons, not_or] at h
    rw [settled]
    split
    · rw [lookup_settled_of_notMem _ h.2, lookup_settleIn, if_neg h.1]
    · rw [lookup_settleIn, if_neg h.1]

variable (given) in
/-- A field is what its own attribute makes of it, if that is reached. -/
theorem lookup_settled {t : Attribute} {after : List Attribute} : ∀ {before : List Attribute}
    (fields : List (String × Content)), ((before ++ t :: after).map (·.key)).Nodup →
      ((∀ u ∈ before, u.Valid (given u.key)) → (settled given (before ++ t :: after) fields).lookup t.key =
        (fields.lookup t.key).map (t.settle (given t.key))) ∧
      ((∃ u ∈ before, ¬ u.Valid (given u.key)) →
        (settled given (before ++ t :: after) fields).lookup t.key = fields.lookup t.key)
  | [], fields, h => by
    rw [List.nil_append, List.map_cons, List.nodup_cons] at h
    refine ⟨fun _ => ?_, by simp⟩
    rw [List.nil_append, settled]
    split
    · rw [lookup_settled_of_notMem _ h.1, lookup_settleIn, if_pos rfl]
    · rw [lookup_settleIn, if_pos rfl]
  | u :: before, fields, h => by
    rw [List.cons_append, List.map_cons, List.nodup_cons] at h
    have hne : t.key ≠ u.key := by
      rintro hkey
      exact h.1 (hkey ▸ List.mem_map_of_mem (List.mem_append_right _ List.mem_cons_self))
    obtain ⟨reached, passed⟩ := lookup_settled (u.settleIn (given u.key) fields) h.2
    rw [lookup_settleIn, if_neg hne] at reached passed
    rw [List.cons_append, settled, List.forall_mem_cons, List.exists_mem_cons_iff]
    by_cases hu : u.Valid (given u.key)
    · rw [if_pos (Attribute.fault?_eq_none.2 hu)]
      exact ⟨fun hall => reached hall.2, fun hsome => passed (hsome.resolve_left (not_not_intro hu))⟩
    · rw [if_neg fun hfine => hu (Attribute.fault?_eq_none.1 hfine), lookup_settleIn, if_neg hne]
      exact ⟨fun hall => absurd hall.1 hu, fun _ => rfl⟩

theorem keys_nodup (a : Animation) : (a.attributes.map (·.key)).Nodup := by
  cases a <;> simp [attributes]

theorem ordered_of_fixed {a b : Animation} (ha : a.Ordered) (h : a.fixed = b.fixed) : b.Ordered := by
  cases b with
  | fade finish => cases a <;> simp_all [fixed, name, Ordered]
  | _ => trivial

theorem attributes_of_fixed {a b : Animation} (h : a.fixed = b.fixed) : a.attributes = b.attributes := by
  cases a <;> cases b <;> simp_all [fixed, name, attributes]

theorem pair_eq_iff {p q : Pair} : p = q ↔ p.x = q.x ∧ p.y = q.y := by
  cases p
  cases q
  simp

/-- Nothing is left of an animation beside its fields and what no attribute sets. -/
theorem eq_of_field? {a b : Animation} (ha : a.Ordered) (hfixed : a.fixed = b.fixed)
    (hfields : ∀ t ∈ a.attributes, a.field? t.key = b.field? t.key) : a = b := by
  have hb := ordered_of_fixed ha hfixed
  cases a with
  | fade finish => exact ha.elim
  | set children declared => cases b <;> simp_all [fixed, name, attributes, field?, fields]
  | alpha x | rotate x | scale x | translate x | frames x =>
    cases b <;> simp [fixed, name] at hfixed
    rename_i y
    simp [attributes, field?, fields, List.lookup_cons] at hfields
    cases x
    cases y
    simp_all [pair_eq_iff]

/-- Configuring reads the attributes of its type in order, each in any case of its letters. It succeeds if
all of them are valid, and otherwise fails for the first that is not. A field is what its own attribute makes
of it, if all attributes before it are valid, and is as it was otherwise. There is nothing to an animation
beside its fields that attributes change, and nothing else about the attributes that are given has an
influence. -/
theorem configure_reads {a : Animation} (ha : a.Ordered) {A : Attributes} (hA : A.Distinct) :
    ∃ given : String → Option Value, (∀ key v, given key = some v ↔ A.Gives key v) ∧
      ((a.configure A).1 = .ok () ↔ ∀ t ∈ a.attributes, t.Valid (given t.key)) ∧
      (∀ e, (a.configure A).1 = .error e ↔ ∃ before t after, a.attributes = before ++ t :: after ∧
        (∀ u ∈ before, u.Valid (given u.key)) ∧ t.fault? (given t.key) = some e) ∧
      (a.configure A).2.fixed = a.fixed ∧
      (∀ before t after, a.attributes = before ++ t :: after →
        ((∀ u ∈ before, u.Valid (given u.key)) →
          (a.configure A).2.field? t.key = (a.field? t.key).map (t.settle (given t.key))) ∧
        ((∃ u ∈ before, ¬ u.Valid (given u.key)) → (a.configure A).2.field? t.key = a.field? t.key)) ∧
      (∀ b : Animation, b.fixed = a.fixed →
        (∀ t ∈ a.attributes, b.field? t.key = (a.configure A).2.field? t.key) → b = (a.configure A).2) ∧
      ∀ A' : Attributes, A'.Distinct → (∀ t ∈ a.attributes, ∀ v, A'.Gives t.key v ↔ A.Gives t.key v) →
        a.configure A' = a.configure A := by
  have configures := configures_of_ordered ha
  obtain ⟨a', hrun, hfixed, hfields⟩ := configures.run A
  refine ⟨A.getAnyCase?, fun key v => hA.getAnyCase?_eq_some, ?_, fun e => ?_, ?_, fun before t after h => ?_,
    fun b hb hbfields => ?_, fun A' hA' hsame => configures.own fun t ht => Option.ext fun v => ?_⟩
  · rw [hrun, ← faultOf?_eq_none]
    cases faultOf? A.getAnyCase? a.attributes <;> simp [verdict]
  · rw [hrun, ← faultOf?_eq_some]
    cases faultOf? A.getAnyCase? a.attributes <;> simp [verdict]
  · rw [hrun]
    exact hfixed
  · rw [hrun, field?, hfields, h]
    exact lookup_settled _ _ (h ▸ keys_nodup a)
  · have hattributes : b.attributes = a.attributes := attributes_of_fixed hb
    refine eq_of_field? (ordered_of_fixed ha hb.symm) ?_ (hattributes.symm ▸ hbfields)
    rw [hrun, hb]
    exact hfixed.symm
  · rw [hA'.getAnyCase?_eq_some, hA.getAnyCase?_eq_some]
    exact hsame t ht v

/-- A text without frames is refused and empties the list, and the time after it is not looked at. -/
theorem blank_frames_reads :
    let a : Animation := .frames ⟨["a"], .tenth, false⟩
    let A : Attributes := .ofList [("Duration", .number 5), ("FRAMES", .text " , ")]
    a.Ordered ∧ A.Distinct ∧ (a.configure A).1 = .error (.invalidAttribute "frames" " , ") ∧
      (a.configure A).2.field? "frames" = some (.frames []) ∧
      (a.configure A).2.field? "duration" = some (.time (some .tenth)) := by
  intro a A
  have distinct : A.Distinct := by
    unfold Dict.Distinct
    decide
  obtain ⟨given, hgiven, -, herror, -, hfield, -⟩ := configure_reads (a := a) trivial distinct
  have hframes : given "frames" = some (.text " , ") := (hgiven _ _).2 ⟨"FRAMES", by decide, rfl⟩
  have hinvalid : ¬ Attribute.Valid ⟨"frames", .frames⟩ (given "frames") := by
    rw [← Attribute.fault?_eq_none, hframes]
    decide
  refine ⟨trivial, distinct, (herror _).2 ⟨[], ⟨"frames", .frames⟩, _, rfl, by simp, ?_⟩, ?_, ?_⟩
  · rw [hframes]
    decide
  · rw [(hfield [] ⟨"frames", .frames⟩ _ rfl).1 (by simp), hframes]
    rfl
  · rw [(hfield [_] ⟨"duration", .time⟩ _ rfl).2 ⟨_, List.mem_singleton_self _, hinvalid⟩]
    rfl

end Animation

end LiveScreen
