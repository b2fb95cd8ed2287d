/-
How long animations take. In nanoseconds the comparison of two lengths is that of
numbers, and a multiple of a length is exact up to the longest length there is and that
length above it (`toNanos_times?`). It is computed in machine words: of its operations only
two on the seconds can leave 64 bits, and those are checked (`timesInWords?_eq`). A set
that is not declared to take a time takes the longest of the times that are found in it
on the way down to what has a time of its own (`takes_exact_time`).
-/
import LiveScreen.Animation.Basic
import Mathlib.Data.List.Induction
import Mathlib.Tactic.Ring

namespace LiveScreen

namespace Duration

/-! ## Comparing -/

theorem atMost_iff {a b : Duration} : a.atMost b = true ↔ a.toNanos ≤ b.toNanos := by
  have ha := a.nanos_lt
  have hb := b.nanos_lt
  simp only [atMost, toNanos, Bool.or_eq_true, Bool.and_eq_true, decide_eq_true_eq]
  omega

theorem toNanos_longer (a b : Duration) : (a.longer b).toNanos = max a.toNanos b.toNanos := by
  rw [longer]
  split
  · next h => rw [Nat.max_eq_right (atMost_iff.1 h)]
  · next h =>
    rw [atMost_iff, Nat.not_le] at h
    rw [Nat.max_eq_left h.le]

theorem longestOf_concat (ds : List Duration) (d : Duration) :
    longestOf (ds ++ [d]) = (longestOf ds).longer d := by
  rw [longestOf, List.foldl_append, List.foldl_cons, List.foldl_nil, longestOf]

theorem le_longestOf (ds : List Duration) : ∀ d ∈ ds, d.toNanos ≤ (longestOf ds).toNanos := by
  induction ds using List.reverseRecOn with
  | nil => simp
  | append_singleton ds d ih =>
    intro c hc
    rw [longestOf_concat, toNanos_longer]
    obtain hc | hc := List.mem_append.1 hc
    · exact (ih c hc).trans (Nat.le_max_left ..)
    · rw [List.mem_singleton.1 hc]
      exact Nat.le_max_right ..

theorem longestOf_mem {ds : List Duration} (h : ds ≠ []) : longestOf ds ∈ ds := by
  induction ds using List.reverseRecOn with
  | nil => exact absurd rfl h
  | append_singleton ds d ih =>
    rw [longestOf_concat, longer, List.mem_append, List.mem_singleton]
    split
    · exact .inr rfl
    · next hlonger =>
      refine .inl (ih ?_)
      rintro rfl
      exact hlonger (atMost_iff.2 (Nat.zero_le _))

/-! ## Multiples -/

/-- A multiple is exact, and there is one exactly if it is at most the longest length. -/
theorem times?_cases (d : Duration) (n : ℕ) :
    (n * d.toNanos ≤ longest.toNanos ∧ ∃ t, d.times? n = some t ∧ t.toNanos = n * d.toNanos) ∨
      (longest.toNanos < n * d.toNanos ∧ d.times? n = none) := by
  have hsplit : n * d.toNanos = d.seconds * n * 1_000_000_000 + d.nanos * n := by
    rw [toNanos]
    ring
  have hlongest : longest.toNanos = (UInt64.size - 1) * 1_000_000_000 + 999_999_999 := rfl
  have hsize : UInt64.size = 2 ^ 64 := rfl
  rw [hsplit, hlongest]
  by_cases hfits : d.seconds * n + d.nanos * n / 1_000_000_000 < UInt64.size
  · refine .inl ⟨by omega, _, dif_pos hfits, ?_⟩
    simp only [toNanos]
    omega
  · exact .inr ⟨by omega, dif_neg hfits⟩

theorem toNanos_times? (d : Duration) (n : ℕ) :
    ((d.times? n).getD longest).toNanos = min (n * d.toNanos) longest.toNanos := by
  obtain ⟨hle, t, ht, hnanos⟩ | ⟨hlt, hnone⟩ := d.times?_cases n
  · rw [ht, Option.getD_some, hnanos, Nat.min_eq_left hle]
  · rw [hnone, Option.getD_none, Nat.min_eq_right hlt.le]

/-! ## Multiples in machine words -/

/-- The product of two words, if a word holds it. -/
def productWord? (a b : UInt64) : Option UInt64 := if a.toNat * b.toNat < UInt64.size then some (a * b) else none

/-- The sum of two words, if a word holds it. -/
def sumWord? (a b : UInt64) : Option UInt64 := if a.toNat + b.toNat < UInt64.size then some (a + b) else none

/-- A length as words: its seconds and its nanoseconds. -/
def words (d : Duration) : UInt64 × UInt64 := (.ofNat d.seconds, .ofNat d.nanos)

/-- A multiple in words, whose arithmetic wraps. The product of the seconds and the sum with the carry
are checked; the product of the nanoseconds is not. -/
def timesInWords? (d : Duration) (n : UInt32) : Option (UInt64 × UInt64) :=
  let nanos := d.words.2 * n.toUInt64
  (productWord? d.words.1 n.toUInt64).bind fun seconds =>
    (sumWord? seconds (nanos / 1_000_000_000)).map fun seconds => (seconds, nanos % 1_000_000_000)

/-- The product of the nanoseconds, which are below a second, with a factor of 32 bits fits in a word. -/
theorem toNat_nanos_mul (d : Duration) (n : UInt32) : (d.words.2 * n.toUInt64).toNat = d.nanos * n.toNat := by
  have hd := d.nanos_lt
  have hn := n.toNat_lt
  have hnanos : d.words.2.toNat = d.nanos := UInt64.toNat_ofNat_of_lt' (hd.trans (by decide))
  have hlt : d.nanos * n.toNat < 1_000_000_000 * 2 ^ 32 := Nat.mul_lt_mul'' hd hn
  rw [UInt64.toNat_mul, hnanos, UInt32.toNat_toUInt64, Nat.mod_eq_of_lt (hlt.trans (by decide))]

theorem productWord?_eq (a b : UInt64) :
    productWord? a b = if a.toNat * b.toNat < UInt64.size then some (.ofNat (a.toNat * b.toNat)) else none := by
  rw [productWord?, UInt64.ofNat_mul, UInt64.ofNat_toNat, UInt64.ofNat_toNat]

theorem sumWord?_eq (a b : UInt64) :
    sumWord? a b = if a.toNat + b.toNat < UInt64.size then some (.ofNat (a.toNat + b.toNat)) else none := by
  rw [sumWord?, UInt64.ofNat_add, UInt64.ofNat_toNat, UInt64.ofNat_toNat]

/-- In words a multiple is what it is in numbers: nothing that is not checked wraps. -/
theorem timesInWords?_eq (d : Duration) (n : UInt32) : d.timesInWords? n = (d.times? n.toNat).map words := by
  have hseconds : d.words.1.toNat = d.seconds := UInt64.toNat_ofNat_of_lt' d.seconds_lt
  have hcarry : (d.words.2 * n.toUInt64 / 1_000_000_000).toNat = d.nanos * n.toNat / 1_000_000_000 := by
    rw [UInt64.toNat_div, d.toNat_nanos_mul]
    rfl
  have hrest : d.words.2 * n.toUInt64 % 1_000_000_000 = .ofNat (d.nanos * n.toNat % 1_000_000_000) := by
    rw [← UInt64.toNat_inj, UInt64.toNat_mod, d.toNat_nanos_mul]
    exact (UInt64.toNat_ofNat_of_lt' ((Nat.mod_lt _ (by decide)).trans (by decide))).symm
  rw [timesInWords?]
  simp only [productWord?_eq, sumWord?_eq, hseconds, UInt32.toNat_toUInt64, hcarry, hrest]
  by_cases hproduct : d.seconds * n.toNat < UInt64.size
  · rw [if_pos hproduct, Option.bind_some, UInt64.toNat_ofNat_of_lt' hproduct]
    by_cases hsum : d.seconds * n.toNat + d.nanos * n.toNat / 1_000_000_000 < UInt64.size
    · have htimes : d.times? n.toNat = some ⟨_, _, hsum, Nat.mod_lt _ (by decide)⟩ := dif_pos hsum
      rw [if_pos hsum, htimes]
      rfl
    · have htimes : d.times? n.toNat = none := dif_neg hsum
      rw [if_neg hsum, htimes]
      rfl
  · have htimes : d.times? n.toNat = none := dif_neg fun hsum => hproduct ((Nat.le_add_right ..).trans_lt hsum)
    rw [if_neg hproduct, htimes]
    rfl

end Duration

/-! ## Animations -/

namespace Animation

theorem durations_eq (children : List Animation) : durations children = children.map duration := by
  induction children with
  | nil => rw [durations, List.map_nil]
  | cons a rest ih => rw [durations, ih, List.map_cons]

theorem duration_set (children : List Animation) :
    (set children none).duration = .longestOf (children.map duration) := by
  rw [duration, Option.getD_none, durations_eq]

/-- The time that an animation takes whatever is in it. Sets have none, unless one is declared. -/
def ownTime? : Animation → Option Duration
  | .set _ declared => declared
  | a => some a.duration

/-- The animations found in one, itself among them, without looking into a set that is declared to take
a time. -/
inductive Reaches : Animation → Animation → Prop
  | self (a : Animation) : Reaches a a
  | nested {children : List Animation} {child a : Animation} (mem : child ∈ children) (reaches : Reaches child a) :
    Reaches (.set children none) a

theorem duration_of_ownTime? {a : Animation} {d : Duration} (h : a.ownTime? = some d) : a.duration = d := by
  cases a with
  | set children declared =>
    have hdeclared : declared = some d := h
    rw [duration, hdeclared, Option.getD_some]
  | _ => exact Option.some.inj h

theorem duration_le_set {children : List Animation} {child : Animation} (h : child ∈ children) :
    child.duration.toNanos ≤ (set children none).duration.toNanos := by
  rw [duration_set]
  exact Duration.le_longestOf _ _ (List.mem_map_of_mem h)

theorem exists_duration_eq_set {children : List Animation} (h : children ≠ []) :
    ∃ child ∈ children, child.duration = (set children none).duration := by
  rw [duration_set]
  exact List.mem_map.1 (Duration.longestOf_mem (mt List.map_eq_nil_iff.1 h))

/-- Nothing that is found takes longer. -/
theorem Reaches.duration_le {a b : Animation} (h : Reaches a b) : b.duration.toNanos ≤ a.duration.toNanos := by
  induction h with
  | self a => exact Nat.le_refl _
  | nested mem _ ih => exact ih.trans (duration_le_set mem)

mutual

/-- What takes time takes that of something found in it. -/
theorem exists_reached : ∀ a : Animation, a.duration = .zero ∨ ∃ b, Reaches a b ∧ b.ownTime? = some a.duration
  | .alpha a => .inr ⟨_, .self _, rfl⟩
  | .rotate a => .inr ⟨_, .self _, rfl⟩
  | .scale a => .inr ⟨_, .self _, rfl⟩
  | .translate a => .inr ⟨_, .self _, rfl⟩
  | .frames a => .inr ⟨_, .self _, rfl⟩
  | .fade a => .inr ⟨_, .self _, rfl⟩
  | .set children (some d) => by
    refine .inr ⟨_, .self _, ?_⟩
    rw [duration, Option.getD_some]
    rfl
  | .set children none => by
    by_cases hne : children = []
    · subst hne
      exact .inl (duration_set [])
    · obtain ⟨child, hchild, heq⟩ := exists_duration_eq_set hne
      rw [← heq]
      obtain hzero | ⟨b, hb, hown⟩ := exists_reached_all children child hchild
      · exact .inl hzero
      · exact .inr ⟨b, .nested hchild hb, hown⟩

theorem exists_reached_all : ∀ children : List Animation, ∀ child ∈ children,
    child.duration = .zero ∨ ∃ b, Reaches child b ∧ b.ownTime? = some child.duration
  | a :: rest, child, h => by
    cases h with
    | head => exact exists_reached a
    | tail _ h => exact exists_reached_all rest child h

end

theorem duration_addChild (children : List Animation) (child : Animation) :
    ((set children none).addChild child).2.duration.toNanos =
      max (set children none).duration.toNanos child.duration.toNanos := by
  rw [addChild, duration_set, duration_set, List.map_append, List.map_singleton, Duration.longestOf_concat,
    Duration.toNanos_longer]

/-- **The time of an animation.** A frame list whose frames can be counted in 32 bits takes as many times the
time of a frame as it has frames, the longest time there is if that is more, and computed in machine words it is
the same. A set takes the time it is declared to take. Any other set takes the longest of the times of its children, no
time at all without any, and no less with another child. So an animation takes the longest of the times of their own
that are found without looking into a set that is declared to take one. -/
theorem takes_exact_time :
    (∀ f : FrameList, f.frames.length < UInt32.size →
      (frames f).duration.toNanos = min (f.frames.length * f.frameDuration.toNanos) Duration.longest.toNanos ∧
      (f.frameDuration.timesInWords? (.ofNat f.frames.length)).getD Duration.longest.words =
        (frames f).duration.words) ∧
    (∀ children d, (set children (some d)).duration = d) ∧
    (∀ children,
      (children = [] → (set children none).duration = .zero) ∧
      (children ≠ [] → ∃ child ∈ children, child.duration = (set children none).duration) ∧
      (∀ child ∈ children, child.duration.toNanos ≤ (set children none).duration.toNanos) ∧
      ∀ child, ((set children none).addChild child).1 = true ∧
        ((set children none).addChild child).2.duration.toNanos =
          max (set children none).duration.toNanos child.duration.toNanos) ∧
    ∀ a, (∀ b d, Reaches a b → b.ownTime? = some d → d.toNanos ≤ a.duration.toNanos) ∧
      ((∃ b, Reaches a b ∧ b.ownTime? = some a.duration) ∨
        a.duration = .zero ∧ ∀ b, Reaches a b → b.ownTime? = none) := by
  refine ⟨fun f hcount => ?_, fun children d => ?_, fun children => ⟨?_, exists_duration_eq_set,
    fun child => duration_le_set, fun child => ⟨rfl, duration_addChild children child⟩⟩,
    fun a => ⟨fun b d hb hd => ?_, ?_⟩⟩
  · have hduration : (frames f).duration = (f.frameDuration.times? f.frames.length).getD .longest := by
      rw [duration, framesDuration, if_pos hcount]
    have hwords : (UInt32.ofNat f.frames.length).toNat = f.frames.length := UInt32.toNat_ofNat_of_lt' hcount
    rw [hduration]
    refine ⟨f.frameDuration.toNanos_times? _, ?_⟩
    rw [Duration.timesInWords?_eq, hwords, Option.getD_map]
  · rw [duration, Option.getD_some]
  · rintro rfl
    exact duration_set []
  · rw [← duration_of_ownTime? hd]
    exact hb.duration_le
  · obtain hzero | hreached := exists_reached a
    · by_cases hsome : ∃ b d, Reaches a b ∧ b.ownTime? = some d
      · obtain ⟨b, d, hb, hd⟩ := hsome
        have hle := hb.duration_le
        rw [hzero, duration_of_ownTime? hd] at hle
        have hd' : d = a.duration := by
          rw [hzero]
          exact Duration.ext_toNanos (Nat.le_zero.1 hle)
        exact .inl ⟨b, hb, hd'.symm ▸ hd⟩
      · refine .inr ⟨hzero, fun b hb => Option.eq_none_iff_forall_ne_some.2 fun d hd => hsome ⟨b, d, hb, hd⟩⟩
    · exact .inl hreached

/-- Three frames for the third part of the longest time there is, with a carry of two seconds, and three for a
nanosecond more than it. The second are in a set that is declared to take no time. -/
theorem slowShow_takes_exact_time :
    let slow : FrameList := ⟨["a", "b", "c"], { seconds := 6148914691236517204, nanos := 999_999_999 }, false⟩
    let slower : FrameList := ⟨["a", "b", "c"], { seconds := 6148914691236517205, nanos := 333_333_334 }, false⟩
    slow.frames.length < UInt32.size ∧ slower.frames.length < UInt32.size ∧
      (frames slow).duration.toNanos = 3 * slow.frameDuration.toNanos ∧
      (frames slow).duration.words = (18446744073709551614, 999_999_997) ∧
      Duration.longest.toNanos + 3 = 3 * slower.frameDuration.toNanos ∧
      (frames slower).duration = .longest ∧
      (set [frames slow, set [frames slower] (some .zero)] none).duration = (frames slow).duration := by
  intro slow slower
  obtain ⟨hframes, hdeclared, hset, -⟩ := takes_exact_time
  have hslow : slow.frames.length < UInt32.size := by decide
  have hslower : slower.frames.length < UInt32.size := by decide
  obtain ⟨hexact, hwords⟩ := hframes slow hslow
  obtain ⟨-, hsome, hle, -⟩ := hset [frames slow, set [frames slower] (some .zero)]
  refine ⟨hslow, hslower, hexact.trans (by decide), hwords.symm.trans (by decide), by decide,
    Duration.ext_toNanos ((hframes slower hslower).1.trans (by decide)), ?_⟩
  obtain ⟨child, hchild, heq⟩ := hsome (by simp)
  rw [← heq]
  simp only [List.mem_cons, List.not_mem_nil, or_false] at hchild
  obtain rfl | rfl := hchild
  · rfl
  · have hzero := hle (frames slow) (by simp)
    rw [← heq, hdeclared, hexact] at hzero
    exact absurd hzero (by decide)

end Animation

end LiveScreen
