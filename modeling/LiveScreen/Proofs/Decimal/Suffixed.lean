/-
Literals with suffixes, as they stand at the end of a text. Removing a suffix as often as it stands there undoes
writing it some number of times (`exists_stripSuffixes`, `stripSuffixes_append`). No character of a suffix is in a
literal, so that a text is a literal with suffixes in one way at most (`Suffixed.unique`), and what is left without the
suffixes is the literal (`read?_strip_percents`, `read?_strip_dps`).
-/
import LiveScreen.Text.Space
import LiveScreen.Proofs.Decimal.Literals

namespace LiveScreen

/-! ## Suffixes -/

namespace Text

/-- A text some number of times after itself. -/
def times (k : ℕ) (s : List Char) : List Char := (List.replicate k s).flatten

theorem reverse_times (k : ℕ) (s : List Char) : (times k s).reverse = times k s.reverse := by
  rw [times, List.reverse_flatten, List.map_replicate, List.reverse_replicate, times]

theorem times_zero (s : List Char) : times 0 s = [] := rfl

theorem times_succ (k : ℕ) (s : List Char) : times (k + 1) s = s ++ times k s := by
  rw [times, List.replicate_succ, List.flatten_cons, times]

theorem length_times (k : ℕ) (s : List Char) : (times k s).length = k * s.length := by
  rw [times, List.length_flatten, List.map_replicate, List.sum_replicate_nat]

theorem times_inj {k l : ℕ} {s : List Char} (hne : s ≠ []) (h : times k s = times l s) : k = l := by
  have hlength := congrArg List.length h
  rw [length_times, length_times] at hlength
  exact Nat.eq_of_mul_eq_mul_right (List.length_pos_iff.2 hne) hlength

theorem mem_times {c : Char} {k : ℕ} {s : List Char} (h : c ∈ times k s) : c ∈ s := by
  obtain ⟨l, hl, hc⟩ := List.mem_flatten.1 h
  rwa [(List.mem_replicate.1 hl).2] at hc

section Suffixes

variable {front suffix : List Char}

/-- What is dropped at the front is the text to be dropped, some number of times. -/
theorem exists_go (front : List Char) : ∀ n s, ∃ k, s = times k front ++ stripSuffixes.go front n s
  | 0, s => ⟨0, rfl⟩
  | n + 1, s => by
    rw [stripSuffixes.go]
    split
    · next h =>
      obtain ⟨rest, rfl⟩ := List.isPrefixOf_iff_prefix.1 h.2
      obtain ⟨k, hk⟩ := exists_go front n rest
      refine ⟨k + 1, ?_⟩
      rw [List.drop_left, times_succ, List.append_assoc, ← hk]
    · exact ⟨0, rfl⟩

theorem go_times (hne : front ≠ []) {s : List Char} (hs : ¬ front <+: s) : ∀ {k n : ℕ}, k ≤ n →
    stripSuffixes.go front n (times k front ++ s) = s
  | 0, 0, _ => rfl
  | 0, n + 1, _ => if_neg fun h => hs (List.isPrefixOf_iff_prefix.1 h.2)
  | k + 1, n + 1, hk => by
    have hprefix : front.isPrefixOf (front ++ (times k front ++ s)) = true :=
      List.isPrefixOf_iff_prefix.2 (List.prefix_append ..)
    rw [times_succ, List.append_assoc, stripSuffixes.go, if_pos ⟨hne, hprefix⟩, List.drop_left]
    exact go_times hne hs (Nat.le_of_succ_le_succ hk)

theorem exists_stripSuffixes (suffix s : List Char) : ∃ k, s = stripSuffixes suffix s ++ times k suffix := by
  obtain ⟨k, hk⟩ := exists_go suffix.reverse s.length s.reverse
  refine ⟨k, ?_⟩
  rw [stripSuffixes, ← List.reverse_inj, List.reverse_append, List.reverse_reverse, reverse_times]
  exact hk

/-- All of the suffixes are removed. -/
theorem stripSuffixes_append (hne : suffix ≠ []) {s : List Char} (hs : ¬ suffix <:+ s) (k : ℕ) :
    stripSuffixes suffix (s ++ times k suffix) = s := by
  have hlength : k ≤ (s ++ times k suffix).length := by
    have hpos : 0 < suffix.length := List.length_pos_iff.2 hne
    have hle : k * 1 ≤ k * suffix.length := Nat.mul_le_mul_left k hpos
    rw [List.length_append, length_times]
    omega
  rw [stripSuffixes, List.reverse_append, reverse_times, go_times (by simpa using hne) (by simpa using hs) hlength,
    List.reverse_reverse]

end Suffixes

end Text

/-! ## The form -/

/-- A text that is a literal, then some percent signs and then some `dp`s. -/
structure Suffixed (s literal : List Char) (percents dps : ℕ) (x : Float) : Prop where
  isLiteral : Decimal.Literal literal x
  text : s = literal ++ Text.times percents ['%'] ++ Text.times dps ['d', 'p']

theorem suffixed_zero {s literal : List Char} {dps : ℕ} {x : Float} :
    Suffixed s literal 0 dps x ↔ Decimal.Literal literal x ∧ s = literal ++ Text.times dps ['d', 'p'] := by
  constructor
  · intro h
    refine ⟨h.isLiteral, h.text.trans ?_⟩
    rw [Text.times_zero, List.append_nil]
  · rintro ⟨h, rfl⟩
    exact ⟨h, by rw [Text.times_zero, List.append_nil]⟩

theorem not_inLiteral_percent : ¬ Decimal.InLiteral '%' := by
  rw [Decimal.InLiteral]
  decide

namespace Suffixed

variable {s literal : List Char} {percents dps : ℕ} {x : Float}

theorem strip_dps (h : Suffixed s literal percents dps x) :
    Text.stripSuffixes ['d', 'p'] s = literal ++ Text.times percents ['%'] := by
  rw [h.text]
  refine Text.stripSuffixes_append (by decide) (fun hsuffix => ?_) dps
  obtain hmem | hmem := List.mem_append.1 (hsuffix.mem (a := 'p') (by decide))
  · exact (h.isLiteral.inLiteral 'p' hmem).plain.2 rfl
  · exact absurd (Text.mem_times hmem) (by decide)

theorem strip_percents (h : Suffixed s literal percents dps x) :
    Text.stripSuffixes ['%'] (Text.stripSuffixes ['d', 'p'] s) = literal := by
  rw [h.strip_dps]
  refine Text.stripSuffixes_append (by decide) (fun hsuffix => ?_) percents
  exact not_inLiteral_percent (h.isLiteral.inLiteral '%' (hsuffix.mem (by decide)))

/-- A text is a literal with suffixes in one way at most. -/
theorem unique {literal' : List Char} {percents' dps' : ℕ} {x' : Float} (h : Suffixed s literal percents dps x)
    (h' : Suffixed s literal' percents' dps' x') : literal = literal' ∧ percents = percents' ∧ dps = dps' ∧ x = x' := by
  obtain rfl : literal = literal' := h.strip_percents.symm.trans h'.strip_percents
  obtain rfl : percents = percents' :=
    Text.times_inj (by decide) (List.append_cancel_left (h.strip_dps.symm.trans h'.strip_dps))
  have hdps : dps = dps' := Text.times_inj (by decide) (List.append_cancel_left (h.text.symm.trans h'.text))
  have hread := Decimal.read?_eq_some.2 h.isLiteral
  rw [Decimal.read?_eq_some.2 h'.isLiteral] at hread
  exact ⟨rfl, rfl, hdps, (Option.some.inj hread).symm⟩

theorem not_word (h : Suffixed s literal percents dps x) : '_' ∉ s := by
  have hunderscore : ¬ Decimal.InLiteral '_' := by
    rw [Decimal.InLiteral]
    decide
  rw [h.text, List.mem_append, List.mem_append]
  rintro ((hmem | hmem) | hmem)
  · exact hunderscore (h.isLiteral.inLiteral '_' hmem)
  · exact absurd (Text.mem_times hmem) (by decide)
  · exact absurd (Text.mem_times hmem) (by decide)

end Suffixed

theorem read?_strip_percents {s : List Char} {x : Float} :
    Decimal.read? (Text.stripSuffixes ['%'] (Text.stripSuffixes ['d', 'p'] s)) = some x ↔
      ∃ literal percents dps, Suffixed s literal percents dps x := by
  constructor
  · intro h
    obtain ⟨dps, hdps⟩ := Text.exists_stripSuffixes ['d', 'p'] s
    obtain ⟨percents, hpercents⟩ := Text.exists_stripSuffixes ['%'] (Text.stripSuffixes ['d', 'p'] s)
    exact ⟨_, percents, dps, Decimal.read?_eq_some.1 h, by rw [← hpercents, ← hdps]⟩
  · rintro ⟨literal, percents, dps, h⟩
    rw [h.strip_percents]
    exact Decimal.read?_eq_some.2 h.isLiteral

theorem read?_strip_dps {s : List Char} {x : Float} :
    Decimal.read? (Text.stripSuffixes ['d', 'p'] s) = some x ↔ ∃ literal dps, Suffixed s literal 0 dps x := by
  constructor
  · intro h
    obtain ⟨dps, hdps⟩ := Text.exists_stripSuffixes ['d', 'p'] s
    exact ⟨_, dps, suffixed_zero.2 ⟨Decimal.read?_eq_some.1 h, hdps⟩⟩
  · rintro ⟨literal, dps, h⟩
    have hstrip := h.strip_dps
    rw [Text.times_zero, List.append_nil] at hstrip
    rw [hstrip]
    exact Decimal.read?_eq_some.2 h.isLiteral

end LiveScreen
