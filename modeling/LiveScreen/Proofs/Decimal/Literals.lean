/-
The grammar of literals. A literal is an optional sign before one of the words for
infinity and what is no number, or before digits with at most one point and at most one
exponent (`Literal`). Reading accepts exactly the literals, and gives each the double
nearest to the decimal it is written as (`read?_eq_some`).
-/
import Mathlib.Data.List.TakeWhile
import Mathlib.Data.Int.Notation
import Mathlib.Data.Nat.Notation
import LiveScreen.Decimal.Literal
import LiveScreen.Text.Space
import LiveScreen.Proofs.Text.Lower

namespace LiveScreen.Decimal

/-! ## The grammar -/

/-- Whether a text consists of digits. -/
def AllDigits (s : List Char) : Prop := ∀ c ∈ s, isDigit c = true

/-- An exponent with its mark and its value, or nothing at all. -/
inductive ExponentText : List Char → ℤ → Prop
  | absent : ExponentText [] 0
  | plain {mark : Char} {ds : List Char} (hmark : mark = 'e' ∨ mark = 'E') (hne : ds ≠ []) (hds : AllDigits ds) :
    ExponentText (mark :: ds) (digitsValue ds)
  | plus {mark : Char} {ds : List Char} (hmark : mark = 'e' ∨ mark = 'E') (hne : ds ≠ []) (hds : AllDigits ds) :
    ExponentText (mark :: '+' :: ds) (digitsValue ds)
  | minus {mark : Char} {ds : List Char} (hmark : mark = 'e' ∨ mark = 'E') (hne : ds ≠ []) (hds : AllDigits ds) :
    ExponentText (mark :: '-' :: ds) (-digitsValue ds)

/-- Digits with at most one point and an exponent, and the decimal `n * 10 ^ e` that they are. -/
inductive DecimalText : List Char → ℕ → ℤ → Prop
  | whole {ds exponent : List Char} {e : ℤ} (hne : ds ≠ []) (hds : AllDigits ds) (he : ExponentText exponent e) :
    DecimalText (ds ++ exponent) (digitsValue ds) e
  | point {ds decimals exponent : List Char} {e : ℤ} (hne : ds ≠ [] ∨ decimals ≠ []) (hds : AllDigits ds)
    (hdecimals : AllDigits decimals) (he : ExponentText exponent e) :
    DecimalText (ds ++ '.' :: decimals ++ exponent) (digitsValue (ds ++ decimals)) (e - decimals.length)

/-- A literal without a sign, and the double it stands for. -/
inductive Unsigned : List Char → Float → Prop
  | infinity {s : List Char} (h : s.map Text.asciiLower = "inf".toList ∨ s.map Text.asciiLower = "infinity".toList) :
    Unsigned s (1 / 0)
  | nan {s : List Char} (h : s.map Text.asciiLower = "nan".toList) : Unsigned s (0 / 0)
  | decimal {s : List Char} {n : ℕ} {e : ℤ} (h : DecimalText s n e) : Unsigned s (nearest n e)

/-- A literal, and the double it stands for. -/
inductive Literal : List Char → Float → Prop
  | plain {s : List Char} {x : Float} (h : Unsigned s x) : Literal s x
  | plus {s : List Char} {x : Float} (h : Unsigned s x) : Literal ('+' :: s) x
  | minus {s : List Char} {x : Float} (h : Unsigned s x) : Literal ('-' :: s) (-x)

/-! ## Reading -/

theorem spanDigits_append {ds rest : List Char} (hds : AllDigits ds) (h : ∀ c ∈ rest.head?, isDigit c = false) :
    spanDigits (ds ++ rest) = (ds, rest) := by
  rw [spanDigits, List.takeWhile_append_of_pos hds, List.dropWhile_append_of_pos hds]
  cases rest with
  | nil => simp
  | cons c rest => simp [h c rfl]

theorem spanDigits_spec (s : List Char) :
    s = (spanDigits s).1 ++ (spanDigits s).2 ∧ AllDigits (spanDigits s).1 ∧
      ∀ c ∈ (spanDigits s).2.head?, isDigit c = false := by
  refine ⟨(List.takeWhile_append_dropWhile ..).symm, fun c hc => List.mem_takeWhile_imp hc, fun c hc => ?_⟩
  have := List.head?_dropWhile_not isDigit s
  rw [spanDigits] at hc
  simp_all

theorem isDigit_ne {c d : Char} (hc : isDigit c = true) (hd : isDigit d = false) : c ≠ d := by
  rintro rfl
  rw [hc] at hd
  cases hd

theorem allDigits_iff {s : List Char} : AllDigits s ↔ s.all isDigit = true := List.all_eq_true.symm

section Exponent

variable {mark : Char} (hmark : mark = 'e' ∨ mark = 'E') (ds : List Char)
include hmark

theorem readExponent?_minus : readExponent? (mark :: '-' :: ds) =
    if ds ≠ [] ∧ ds.all isDigit then some (-(digitsValue ds : ℤ)) else none := by
  rw [readExponent?, if_pos hmark]
  rfl

theorem readExponent?_plus : readExponent? (mark :: '+' :: ds) =
    if ds ≠ [] ∧ ds.all isDigit then some (digitsValue ds : ℤ) else none := by
  rw [readExponent?, if_pos hmark]
  rfl

theorem readExponent?_plain (hminus : ds.head? ≠ some '-') (hplus : ds.head? ≠ some '+') :
    readExponent? (mark :: ds) = if ds ≠ [] ∧ ds.all isDigit then some (digitsValue ds : ℤ) else none := by
  rw [readExponent?, if_pos hmark]
  · rfl
  · rintro t rfl
    exact hminus rfl
  · rintro t rfl
    exact hplus rfl

end Exponent

theorem readExponent?_eq_some {s : List Char} {e : ℤ} : readExponent? s = some e ↔ ExponentText s e := by
  constructor
  · intro h
    cases s with
    | nil =>
      cases h
      exact .absent
    | cons mark s =>
      by_cases hmark : mark = 'e' ∨ mark = 'E'
      · by_cases hminus : s.head? = some '-'
        · obtain ⟨ds, rfl⟩ := List.head?_eq_some_iff.1 hminus
          rw [readExponent?_minus hmark, Option.ite_none_right_eq_some] at h
          obtain ⟨⟨hne, hds⟩, ⟨⟩⟩ := h
          exact .minus hmark hne (allDigits_iff.2 hds)
        by_cases hplus : s.head? = some '+'
        · obtain ⟨ds, rfl⟩ := List.head?_eq_some_iff.1 hplus
          rw [readExponent?_plus hmark, Option.ite_none_right_eq_some] at h
          obtain ⟨⟨hne, hds⟩, ⟨⟩⟩ := h
          exact .plus hmark hne (allDigits_iff.2 hds)
        rw [readExponent?_plain hmark s hminus hplus, Option.ite_none_right_eq_some] at h
        obtain ⟨⟨hne, hds⟩, ⟨⟩⟩ := h
        exact .plain hmark hne (allDigits_iff.2 hds)
      · have hnone : readExponent? (mark :: s) = none := if_neg hmark
        rw [hnone] at h
        cases h
  · intro h
    cases h with
    | absent => rfl
    | @plain mark ds hmark hne hds =>
      obtain ⟨c, ds, rfl⟩ := List.exists_cons_of_ne_nil hne
      have hc := hds c List.mem_cons_self
      rw [readExponent?_plain hmark, if_pos ⟨hne, allDigits_iff.1 hds⟩]
      · exact fun h => isDigit_ne hc (by decide) (Option.some.inj h)
      · exact fun h => isDigit_ne hc (by decide) (Option.some.inj h)
    | plus hmark hne hds => rw [readExponent?_plus hmark, if_pos ⟨hne, allDigits_iff.1 hds⟩]
    | minus hmark hne hds => rw [readExponent?_minus hmark, if_pos ⟨hne, allDigits_iff.1 hds⟩]

theorem ExponentText.head_not_digit {s : List Char} {e : ℤ} (h : ExponentText s e) :
    ∀ c ∈ s.head?, isDigit c = false ∧ c ≠ '.' := by
  intro c hc
  cases h with
  | absent => cases hc
  | plain hmark | plus hmark | minus hmark =>
    cases hc
    obtain rfl | rfl := hmark <;> decide

theorem spanDecimals_other {s : List Char} (h : s.head? ≠ some '.') : spanDecimals s = ([], s) := by
  rw [spanDecimals]
  rintro t rfl
  exact h rfl

/-- Reading digits, once it is known where they are cut. -/
theorem readDigits?_of_spans {s ds decimals rest rest' : List Char} (hs : spanDigits s = (ds, rest))
    (hrest : spanDecimals rest = (decimals, rest')) :
    readDigits? s = if ds = [] ∧ decimals = [] then none
      else (readExponent? rest').map fun e => nearest (digitsValue (ds ++ decimals)) (e - decimals.length) := by
  rw [readDigits?, hs]
  dsimp only
  rw [hrest]

theorem readDigits?_eq_some {s : List Char} {x : Float} :
    readDigits? s = some x ↔ ∃ n e, DecimalText s n e ∧ x = nearest n e := by
  constructor
  · intro h
    obtain ⟨hsplit, hds, -⟩ := spanDigits_spec s
    generalize hspan : spanDigits s = spans at hsplit hds
    obtain ⟨ds, rest⟩ := spans
    subst hsplit
    by_cases hpoint : rest.head? = some '.'
    · obtain ⟨t, rfl⟩ := List.head?_eq_some_iff.1 hpoint
      obtain ⟨hsplit, hdecimals, -⟩ := spanDigits_spec t
      generalize hspan' : spanDigits t = spans at hsplit hdecimals
      obtain ⟨decimals, exponent⟩ := spans
      subst hsplit
      rw [readDigits?_of_spans hspan hspan', Option.ite_none_left_eq_some] at h
      obtain ⟨hne, h⟩ := h
      obtain ⟨e, he, rfl⟩ := Option.map_eq_some_iff.1 h
      refine ⟨_, _, ?_, rfl⟩
      rw [← List.cons_append, ← List.append_assoc]
      exact .point (by rwa [← not_and_or]) hds hdecimals (readExponent?_eq_some.1 he)
    · rw [readDigits?_of_spans hspan (spanDecimals_other hpoint), Option.ite_none_left_eq_some] at h
      obtain ⟨hne, h⟩ := h
      obtain ⟨e, he, rfl⟩ := Option.map_eq_some_iff.1 h
      have hlength : e - (([] : List Char).length : ℤ) = e := Int.sub_zero e
      rw [List.append_nil, hlength]
      exact ⟨_, _, .whole (fun hnil => hne ⟨hnil, rfl⟩) hds (readExponent?_eq_some.1 he), rfl⟩
  · rintro ⟨n, e, h, rfl⟩
    cases h with
    | @whole ds exponent e hne hds he =>
      have hspan := spanDigits_append hds fun c hc => (he.head_not_digit c hc).1
      have hdecimals := spanDecimals_other fun hc => (he.head_not_digit _ hc).2 rfl
      rw [readDigits?_of_spans hspan hdecimals, if_neg fun h => hne h.1, readExponent?_eq_some.2 he]
      simp
    | @point ds decimals exponent e hne hds hdecimals he =>
      have hspan : spanDigits (ds ++ '.' :: decimals ++ exponent) = (ds, '.' :: decimals ++ exponent) := by
        rw [List.append_assoc]
        exact spanDigits_append hds fun c hc => by cases hc; decide
      have hdecimals' : spanDecimals ('.' :: decimals ++ exponent) = (decimals, exponent) :=
        spanDigits_append hdecimals fun c hc => (he.head_not_digit c hc).1
      rw [readDigits?_of_spans hspan hdecimals', if_neg (by rwa [not_and_or]), readExponent?_eq_some.2 he]
      rfl

theorem DecimalText.exists_cons {s : List Char} {n : ℕ} {e : ℤ} (h : DecimalText s n e) :
    ∃ c t, s = c :: t ∧ (isDigit c = true ∨ c = '.') := by
  cases h with
  | @whole ds exponent e hne hds he =>
    obtain ⟨c, ds, rfl⟩ := List.exists_cons_of_ne_nil hne
    exact ⟨c, _, rfl, .inl (hds c List.mem_cons_self)⟩
  | @point ds decimals exponent e hne hds hdecimals he =>
    cases ds with
    | nil => exact ⟨'.', _, rfl, .inr rfl⟩
    | cons c ds => exact ⟨c, _, rfl, .inl (hds c List.mem_cons_self)⟩

theorem asciiLower_of_isDigit {c : Char} (h : isDigit c = true) : Text.asciiLower c = c := by
  refine if_neg fun hletter => ?_
  have hle : c ≤ '9' := by
    rw [isDigit, Bool.and_eq_true, decide_eq_true_iff, decide_eq_true_iff] at h
    exact h.2
  exact absurd (Char.le_trans hletter.1 hle) (by decide)

theorem ofList_eq_iff {l : List Char} {s : String} : String.ofList l = s ↔ l = s.toList :=
  ⟨fun h => by rw [← h, String.toList_ofList], fun h => by rw [h, String.ofList_toList]⟩

/-- Words begin with a letter. -/
theorem exists_cons_of_word {s : List Char} (h : s.map Text.asciiLower = "inf".toList ∨
    s.map Text.asciiLower = "infinity".toList ∨ s.map Text.asciiLower = "nan".toList) :
    ∃ c t, s = c :: t ∧ (Text.asciiLower c = 'i' ∨ Text.asciiLower c = 'n') := by
  cases s with
  | nil => simp at h
  | cons c t =>
    refine ⟨c, t, rfl, ?_⟩
    obtain h | h | h := h
    all_goals
      rw [List.map_cons] at h
      have hhead := congrArg List.head? h
      rw [List.head?_cons] at hhead
    · exact .inl (Option.some.inj hhead)
    · exact .inl (Option.some.inj hhead)
    · exact .inr (Option.some.inj hhead)

/-- Digits are no word. -/
theorem DecimalText.not_word {s : List Char} {n : ℕ} {e : ℤ} (h : DecimalText s n e) :
    ¬ (s.map Text.asciiLower = "inf".toList ∨ s.map Text.asciiLower = "infinity".toList ∨
      s.map Text.asciiLower = "nan".toList) := by
  intro hword
  obtain ⟨c, t, rfl, hc⟩ := exists_cons_of_word hword
  obtain ⟨d, u, heq, hd⟩ := h.exists_cons
  cases heq
  obtain hd | rfl := hd
  · rw [asciiLower_of_isDigit hd] at hc
    obtain rfl | rfl := hc <;> exact absurd hd (by decide)
  · exact absurd hc (by decide)

theorem readUnsigned?_eq_some {s : List Char} {x : Float} : readUnsigned? s = some x ↔ Unsigned s x := by
  rw [readUnsigned?]
  simp only [ofList_eq_iff]
  constructor
  · intro h
    split at h
    · next hword =>
      cases h
      exact .infinity hword
    · split at h
      · next hword =>
        cases h
        exact .nan hword
      · obtain ⟨n, e, htext, rfl⟩ := readDigits?_eq_some.1 h
        exact .decimal htext
  · intro h
    cases h with
    | infinity h => rw [if_pos h]
    | nan h =>
      rw [if_neg, if_pos h]
      rw [h]
      decide
    | decimal h =>
      have hword := h.not_word
      rw [← or_assoc, not_or] at hword
      rw [if_neg hword.1, if_neg hword.2, readDigits?_eq_some.2 ⟨_, _, h, rfl⟩]

theorem Unsigned.exists_cons {s : List Char} {x : Float} (h : Unsigned s x) :
    ∃ c t, s = c :: t ∧ c ≠ '-' ∧ c ≠ '+' := by
  have hword : ∀ c, Text.asciiLower c = 'i' ∨ Text.asciiLower c = 'n' → c ≠ '-' ∧ c ≠ '+' := by
    rintro c hc
    constructor <;> rintro rfl <;> exact absurd hc (by decide)
  cases h with
  | infinity h =>
    obtain ⟨c, t, rfl, hc⟩ := exists_cons_of_word (h.imp_right .inl)
    exact ⟨c, t, rfl, hword c hc⟩
  | nan h =>
    obtain ⟨c, t, rfl, hc⟩ := exists_cons_of_word (.inr (.inr h))
    exact ⟨c, t, rfl, hword c hc⟩
  | decimal h =>
    obtain ⟨c, t, rfl, hc⟩ := h.exists_cons
    refine ⟨c, t, rfl, ?_⟩
    constructor <;> rintro rfl <;> exact absurd hc (by decide)

/-- What reads, and as what. -/
theorem read?_eq_some {s : List Char} {x : Float} : read? s = some x ↔ Literal s x := by
  constructor
  · intro h
    unfold read? at h
    split at h
    · obtain ⟨y, hy, rfl⟩ := Option.map_eq_some_iff.1 h
      exact .minus (readUnsigned?_eq_some.1 hy)
    · exact .plus (readUnsigned?_eq_some.1 h)
    · exact .plain (readUnsigned?_eq_some.1 h)
  · intro h
    cases h with
    | plain h =>
      obtain ⟨c, t, rfl, hminus, hplus⟩ := h.exists_cons
      unfold read?
      split
      · next heq => exact absurd (List.cons.inj heq).1 hminus
      · next heq => exact absurd (List.cons.inj heq).1 hplus
      · exact readUnsigned?_eq_some.2 h
    | plus h => exact readUnsigned?_eq_some.2 h
    | minus h =>
      rw [read?, readUnsigned?_eq_some.2 h]
      rfl

/-! ## The characters of literals -/

/-- Whether a character is one of those that literals are made of, in either case. -/
def InLiteral (c : Char) : Prop := Text.asciiLower c ∈ "0123456789.+-einftya".toList

instance (c : Char) : Decidable (InLiteral c) := inferInstanceAs (Decidable (_ ∈ _))

theorem inLiteral_of_isDigit {c : Char} (h : isDigit c = true) : InLiteral c := by
  have hall : ∀ n < 128, isDigit (Char.ofNat n) = true → InLiteral (Char.ofNat n) := by decide
  have hlt : c.toNat < 128 := by
    rw [isDigit, Bool.and_eq_true, decide_eq_true_iff, decide_eq_true_iff] at h
    exact Nat.lt_of_le_of_lt (show c.toNat ≤ '9'.toNat from h.2) (by decide)
  simpa using hall c.toNat hlt (by simpa using h)

theorem InLiteral.toNat_lt {c : Char} (h : InLiteral c) : c.toNat < 128 := by
  have hall : ∀ d ∈ "0123456789.+-einftya".toList, d.toNat < 128 := List.all_iff_forall_prop.1 (by decide)
  exact Text.asciiLower_lt.1 (hall _ h)

/-- Literals have no white space in them, and no `p` in either case. -/
theorem InLiteral.plain {c : Char} (h : InLiteral c) : Text.isSpace c = false ∧ Text.asciiLower c ≠ 'p' := by
  have hall : ∀ n < 128, InLiteral (Char.ofNat n) →
      Text.isSpace (Char.ofNat n) = false ∧ Text.asciiLower (Char.ofNat n) ≠ 'p' := by decide +kernel
  simpa using hall c.toNat h.toNat_lt (by simpa using h)

theorem ExponentText.inLiteral {s : List Char} {e : ℤ} (h : ExponentText s e) : ∀ c ∈ s, InLiteral c := by
  have hmark : ∀ mark, mark = 'e' ∨ mark = 'E' → InLiteral mark := by
    rintro mark (rfl | rfl) <;> decide
  cases h with
  | absent => simp
  | plain hm hne hds =>
    simp only [List.forall_mem_cons]
    exact ⟨hmark _ hm, fun c hc => inLiteral_of_isDigit (hds c hc)⟩
  | plus hm hne hds | minus hm hne hds =>
    simp only [List.forall_mem_cons]
    exact ⟨hmark _ hm, by decide, fun c hc => inLiteral_of_isDigit (hds c hc)⟩

theorem DecimalText.inLiteral {s : List Char} {n : ℕ} {e : ℤ} (h : DecimalText s n e) : ∀ c ∈ s, InLiteral c := by
  cases h with
  | whole hne hds he =>
    simp only [List.forall_mem_append]
    exact ⟨fun c hc => inLiteral_of_isDigit (hds c hc), he.inLiteral⟩
  | point hne hds hdecimals he =>
    simp only [List.forall_mem_append, List.forall_mem_cons]
    exact ⟨⟨fun c hc => inLiteral_of_isDigit (hds c hc), by decide,
      fun c hc => inLiteral_of_isDigit (hdecimals c hc)⟩, he.inLiteral⟩

theorem Unsigned.inLiteral {s : List Char} {x : Float} (h : Unsigned s x) : ∀ c ∈ s, InLiteral c := by
  have hword : ∀ word : List Char, (∀ d ∈ word, d ∈ "0123456789.+-einftya".toList) → s.map Text.asciiLower = word →
      ∀ c ∈ s, InLiteral c := by
    rintro word hall rfl c hc
    exact hall _ (List.mem_map_of_mem hc)
  cases h with
  | infinity h =>
    obtain h | h := h
    · exact hword _ (List.all_iff_forall_prop.1 (by decide)) h
    · exact hword _ (List.all_iff_forall_prop.1 (by decide)) h
  | nan h => exact hword _ (List.all_iff_forall_prop.1 (by decide)) h
  | decimal h => exact h.inLiteral

theorem Literal.inLiteral {s : List Char} {x : Float} (h : Literal s x) : ∀ c ∈ s, InLiteral c := by
  cases h with
  | plain h => exact h.inLiteral
  | plus h | minus h =>
    simp only [List.forall_mem_cons]
    exact ⟨by decide, h.inLiteral⟩

/-! ## The case of letters -/

theorem AllDigits.map_asciiLower {ds : List Char} (h : AllDigits ds) : ds.map Text.asciiLower = ds := by
  calc ds.map Text.asciiLower
    _ = ds.map id := List.map_congr_left fun c hc => asciiLower_of_isDigit (h c hc)
    _ = ds := List.map_id ds

theorem ExponentText.map_asciiLower {s : List Char} {e : ℤ} (h : ExponentText s e) :
    ExponentText (s.map Text.asciiLower) e := by
  have hmark : ∀ mark, mark = 'e' ∨ mark = 'E' → Text.asciiLower mark = 'e' := by
    rintro mark (rfl | rfl) <;> decide
  cases h with
  | absent => exact .absent
  | plain hm hne hds =>
    rw [List.map_cons, hmark _ hm, hds.map_asciiLower]
    exact .plain (.inl rfl) hne hds
  | plus hm hne hds =>
    rw [List.map_cons, List.map_cons, hmark _ hm, hds.map_asciiLower]
    exact .plus (.inl rfl) hne hds
  | minus hm hne hds =>
    rw [List.map_cons, List.map_cons, hmark _ hm, hds.map_asciiLower]
    exact .minus (.inl rfl) hne hds

theorem DecimalText.map_asciiLower {s : List Char} {n : ℕ} {e : ℤ} (h : DecimalText s n e) :
    DecimalText (s.map Text.asciiLower) n e := by
  cases h with
  | whole hne hds he =>
    rw [List.map_append, hds.map_asciiLower]
    exact .whole hne hds he.map_asciiLower
  | point hne hds hdecimals he =>
    rw [List.map_append, List.map_append, List.map_cons, hds.map_asciiLower, hdecimals.map_asciiLower]
    exact .point hne hds hdecimals he.map_asciiLower

theorem Unsigned.map_asciiLower {s : List Char} {x : Float} (h : Unsigned s x) :
    Unsigned (s.map Text.asciiLower) x := by
  have hmap : (s.map Text.asciiLower).map Text.asciiLower = s.map Text.asciiLower := by
    simp only [List.map_map, Function.comp_def, Text.asciiLower_asciiLower]
  cases h with
  | infinity h => exact .infinity (by rwa [hmap])
  | nan h => exact .nan (by rwa [hmap])
  | decimal h => exact .decimal h.map_asciiLower

/-- The case of its letters does not matter to a literal. -/
theorem Literal.map_asciiLower {s : List Char} {x : Float} (h : Literal s x) : Literal (s.map Text.asciiLower) x := by
  cases h with
  | plain h => exact .plain h.map_asciiLower
  | plus h => exact .plus h.map_asciiLower
  | minus h => exact .minus h.map_asciiLower

end LiveScreen.Decimal
