/-
What texts are worth as lengths. A size reads a text as a keyword or as a literal that
may be followed by `dp`, and refuses any other (`Dimension.read?_text`). The forms are
those of the text that is compared, trimmed and in lower case (`SizeForm`); in the text
as it was given, capitals are allowed in their place (`SizeText`, `sizeText_iff`). The
other attributes that hold numbers never refuse a text: they read a literal without
`dp`, and zero where there is none. So the text of a number and the same text with `dp`
after it are the same size, but not the same margin (`takes_texts`).
-/
import LiveScreen.Proofs.Layout.Fields
import LiveScreen.Proofs.Text.Normal
import LiveScreen.Proofs.Decimal.ReadBack
import LiveScreen.Proofs.Decimal.Suffixed

namespace LiveScreen

/-! ## Trimming -/

theorem Text.trim_of_no_space {s : List Char} (h : ∀ c ∈ s, isSpace c = false) : trim s = s :=
  trim_of_isTrimmed ⟨fun c hc => h c (List.mem_of_head? hc), fun c hc => h c (List.mem_of_getLast? hc)⟩

namespace Layout

/-! ## Sizes -/

/-- The texts of sizes, without the white space around them and in lower case. -/
inductive SizeForm (density : Float) (s : String) : Dimension → Prop
  | matchParent (h : Text.lower (Text.trim s.toList) = "match_parent".toList ∨
      Text.lower (Text.trim s.toList) = "fill_parent".toList) : SizeForm density s .matchParent
  | wrapContent (h : Text.lower (Text.trim s.toList) = "wrap_content".toList) : SizeForm density s .wrapContent
  | pixels {literal : List Char} {dps : ℕ} {x : Float}
      (h : Suffixed (Text.lower (Text.trim s.toList)) literal 0 dps x) : SizeForm density s (.pixels (x * density))

/-- What sizes read. -/
theorem Dimension.read?_text {density : Float} {s : String} {d : Dimension} :
    read? (.text s) density = some d ↔ SizeForm density s d := by
  rw [read?]
  constructor
  · intro h
    split at h
    · next hword =>
      cases h
      exact .matchParent hword
    · split at h
      · next hword =>
        cases h
        exact .wrapContent hword
      · obtain ⟨x, hx, rfl⟩ := Option.map_eq_some_iff.1 h
        obtain ⟨literal, dps, hx⟩ := read?_strip_dps.1 hx
        exact .pixels hx
  · intro h
    cases h with
    | matchParent h => rw [if_pos h]
    | wrapContent h =>
      have hother : ¬ ("wrap_content".toList = "match_parent".toList ∨
          "wrap_content".toList = "fill_parent".toList) := by decide
      rw [h, if_neg hother, if_pos rfl]
    | pixels h =>
      have hword : ∀ word : String, '_' ∈ word.toList → Text.lower (Text.trim s.toList) ≠ word.toList :=
        fun word hmem heq => h.not_word (heq ▸ hmem)
      simp only [hword "match_parent" (by decide), hword "fill_parent" (by decide), hword "wrap_content" (by decide),
        or_self, if_false, read?_strip_dps.2 ⟨_, _, h⟩, Option.map_some]

/-! ## Sizes as they are given -/

/-- Whether a text is a word, in any case and with white space around it. -/
def IsWord (s word : String) : Prop := Text.sameLetters (String.ofList (Text.trim s.toList)) word = true

instance (s word : String) : Decidable (IsWord s word) := inferInstanceAs (Decidable (_ = true))

/-- Whether a text is a literal, with white space around it. -/
def IsNumber (s : String) (x : Float) : Prop := Decimal.Literal (Text.trim s.toList) x

/-- Whether a text is a literal with `dp` after it, any number of times and in any case, and white space around it
all. -/
def IsLength (s : String) (x : Float) : Prop :=
  ∃ literal k, Decimal.Literal literal x ∧
    (Text.trim s.toList).map Text.asciiLower = literal.map Text.asciiLower ++ Text.times k ['d', 'p']

/-- The texts of sizes. -/
inductive SizeText (density : Float) (s : String) : Dimension → Prop
  | matchParent (h : IsWord s "match_parent" ∨ IsWord s "fill_parent") : SizeText density s .matchParent
  | wrapContent (h : IsWord s "wrap_content") : SizeText density s .wrapContent
  | pixels {x : Float} (h : IsLength s x) : SizeText density s (.pixels (x * density))

theorem isWord_iff (s : String) {word : String} (h : ∀ c ∈ word.toList, Text.IsPlain c) :
    Text.lower (Text.trim s.toList) = word.toList ↔ IsWord s word := by
  rw [IsWord, Text.sameLetters_iff, String.toList_ofList, Text.map_asciiLower_of_plain h, Text.lower_eq_iff h]

theorem plain_of_inLiteral {c : Char} (h : Decimal.InLiteral c) : Text.IsPlain (Text.asciiLower c) := by
  have hall : ∀ d ∈ "0123456789.+-einftya".toList, Text.IsPlain d := List.all_iff_forall_prop.1 (by decide)
  exact hall _ h

theorem plain_literal {literal : List Char} {x : Float} (h : Decimal.Literal literal x) (k : ℕ) :
    ∀ c ∈ literal.map Text.asciiLower ++ Text.times k ['d', 'p'], Text.IsPlain c := by
  have hsuffix : ∀ c ∈ ['d', 'p'], Text.IsPlain c := List.all_iff_forall_prop.1 (by decide)
  simp only [List.forall_mem_append, List.forall_mem_map]
  exact ⟨fun c hc => plain_of_inLiteral (h.inLiteral c hc), fun c hc => hsuffix c (Text.mem_times hc)⟩

/-- A length in lower case is a literal with `dp`s. -/
theorem isLength_iff {s : String} {x : Float} :
    IsLength s x ↔ ∃ literal dps, Suffixed (Text.lower (Text.trim s.toList)) literal 0 dps x := by
  simp only [suffixed_zero]
  constructor
  · rintro ⟨literal, k, h, hs⟩
    exact ⟨_, k, h.map_asciiLower, (Text.lower_eq_iff (plain_literal h k)).2 hs⟩
  · rintro ⟨literal, k, h, hs⟩
    have hlower := Text.map_asciiLower_lower (Text.trim s.toList)
    have hcase : literal.map Text.asciiLower = literal := by
      rw [hs, List.map_append] at hlower
      exact (List.append_inj hlower (List.length_map _)).1
    refine ⟨literal, k, h, Text.map_asciiLower_of_lower ?_ (plain_literal h k)⟩
    rw [hcase, hs]

theorem sizeText_iff {density : Float} {s : String} {d : Dimension} : SizeText density s d ↔ SizeForm density s d := by
  have hmatch := @isWord_iff s "match_parent" (List.all_iff_forall_prop.1 (by decide))
  have hfill := @isWord_iff s "fill_parent" (List.all_iff_forall_prop.1 (by decide))
  have hwrap := @isWord_iff s "wrap_content" (List.all_iff_forall_prop.1 (by decide))
  constructor
  · intro h
    cases h with
    | matchParent h => exact .matchParent (by rwa [hmatch, hfill])
    | wrapContent h => exact .wrapContent (hwrap.2 h)
    | pixels h =>
      obtain ⟨literal, dps, h⟩ := isLength_iff.1 h
      exact .pixels h
  · intro h
    cases h with
    | matchParent h => exact .matchParent (by rwa [← hmatch, ← hfill])
    | wrapContent h => exact .wrapContent (hwrap.1 h)
    | pixels h => exact .pixels (isLength_iff.2 ⟨_, _, h⟩)

/-! ## Other numbers -/

theorem asNumber_of_isNumber {s : String} {x : Float} (h : IsNumber s x) : (Value.text s).asNumber = x := by
  rw [Value.asNumber, Decimal.read?_eq_some.2 h, Option.getD_some]

theorem asNumber_of_not_isNumber {s : String} (h : ∀ x, ¬ IsNumber s x) : (Value.text s).asNumber = 0 := by
  have hnone : Decimal.read? (Text.trim s.toList) = none :=
    Option.eq_none_iff_forall_ne_some.2 fun x hx => h x (Decimal.read?_eq_some.1 hx)
  rw [Value.asNumber, hnone, Option.getD_none]

theorem trim_of_inLiteral {s : List Char} (h : ∀ c ∈ s, Decimal.InLiteral c) : Text.trim s = s :=
  Text.trim_of_no_space fun c hc => (h c hc).plain.1

/-! ## Texts of numbers -/

section Forms

variable {x : Float} (hx : x.isFinite = true)
include hx

theorem isNumber_text : IsNumber (Decimal.Style.value.text x) x := by
  have hliteral := Decimal.read?_eq_some.1 (Decimal.read?_text hx)
  rwa [IsNumber, trim_of_inLiteral hliteral.inLiteral]

theorem isLength_text : IsLength (Decimal.Style.value.text x) x := by
  have hliteral := Decimal.read?_eq_some.1 (Decimal.read?_text hx)
  refine ⟨_, 0, hliteral, ?_⟩
  rw [trim_of_inLiteral hliteral.inLiteral]
  exact (List.append_nil _).symm

theorem trim_text_dp : Text.trim (Decimal.Style.value.text x ++ "dp").toList =
    (Decimal.Style.value.text x).toList ++ ['d', 'p'] := by
  have hliteral := Decimal.read?_eq_some.1 (Decimal.read?_text hx)
  have hsuffix : ∀ c ∈ ['d', 'p'], Text.isSpace c = false := List.all_iff_forall_prop.1 (by decide)
  rw [String.toList_append]
  exact Text.trim_of_no_space (List.forall_mem_append.2 ⟨fun c hc => (hliteral.inLiteral c hc).plain.1, hsuffix⟩)

theorem isLength_text_dp : IsLength (Decimal.Style.value.text x ++ "dp") x := by
  refine ⟨_, 1, Decimal.read?_eq_some.1 (Decimal.read?_text hx), ?_⟩
  rw [trim_text_dp hx, List.map_append]
  rfl

theorem not_isNumber_text_dp (y : Float) : ¬ IsNumber (Decimal.Style.value.text x ++ "dp") y := by
  rw [IsNumber, trim_text_dp hx]
  intro hliteral
  exact (hliteral.inLiteral 'p' (by simp)).plain.2 rfl

end Forms

/-! ## What is set -/

/-- Every attribute sets something. -/
theorem exists_field {kind : Kind} {a : Attribute} (ha : a ∈ kind.attributes) : ∃ f, f ∈ a.fields := by
  have hall : ∀ a ∈ kind.attributes, a.fields ≠ [] := by cases kind <;> decide
  exact List.exists_mem_of_ne_nil _ (hall a ha)

namespace Params

/-- A call is accepted, puts one thing into all fields of an attribute and leaves the others alone. -/
structure Puts (p : Params) (key : String) (value : Value) (a : Attribute) (c : Content) : Prop where
  accepted : (p.setAttribute key value).1 = true
  named : ∀ f ∈ a.fields, (p.setAttribute key value).2.get f = c
  other : ∀ f ∉ a.fields, (p.setAttribute key value).2.get f = p.get f

theorem puts_of_read {p : Params} {key : String} {value : Value} {a : Attribute} {c : Content}
    (h : p.kind.attribute? key = some a) (hread : ∀ f ∈ a.fields, f.read? p.density value = some c) :
    p.Puts key value a c := by
  have hreads : a.reads p.density value = true := List.all_eq_true.2 fun f hf => by rw [hread f hf]; rfl
  obtain ⟨b, hb, -, hflag, hsets⟩ | ⟨hnone, -⟩ := p.setAttribute_cases key value
  · rw [h, Option.some.injEq] at hb
    subst hb
    exact ⟨hflag, fun f hf => Option.some.inj ((hsets.named f hf).symm.trans (hread f hf)), hsets.other⟩
  · rw [hnone a h] at hreads
    cases hreads

theorem refused_of_read {p : Params} {key : String} {value : Value} {a : Attribute}
    (h : p.kind.attribute? key = some a) (hread : ∀ f ∈ a.fields, f.read? p.density value = none) :
    p.setAttribute key value = (false, p) := by
  obtain ⟨b, hb, hreads, -, hsets⟩ | ⟨-, hsame⟩ := p.setAttribute_cases key value
  · rw [h, Option.some.injEq] at hb
    subst hb
    obtain ⟨f, hf⟩ := exists_field (attribute?_eq_some.1 h).1
    have hnone := hread f hf
    rw [hsets.named f hf] at hnone
    cases hnone
  · exact hsame

end Params

/-- The attributes that are sizes. -/
def sizeNames : List String := ["width", "height"]

/-- The other attributes that are lengths in pixels. -/
def pixelNames : List String := ["margin", "marginleft", "margintop", "marginright", "marginbottom", "x", "y"]

theorem read?_of_size {kind : Kind} {a : Attribute} (ha : a ∈ kind.attributes) (hname : a.name ∈ sizeNames)
    {f : Field} (hf : f ∈ a.fields) (density : Float) (value : Value) :
    f.read? density value = (Dimension.read? value density).map .size := by
  have hall : ∀ a ∈ kind.attributes, a.name ∈ sizeNames → ∀ f ∈ a.fields, f = .width ∨ f = .height := by
    cases kind <;> decide
  obtain rfl | rfl := hall a ha hname f hf <;> rfl

theorem read?_of_pixel {kind : Kind} {a : Attribute} (ha : a ∈ kind.attributes) (hname : a.name ∈ pixelNames)
    {f : Field} (hf : f ∈ a.fields) (density : Float) (value : Value) :
    f.read? density value = some (.number (value.asNumber * density)) := by
  have hall : ∀ a ∈ kind.attributes, a.name ∈ pixelNames → ∀ f ∈ a.fields,
      f ∈ [Field.left, .top, .right, .bottom, .x, .y] := by
    cases kind <;> decide
  have hmem := hall a ha hname f hf
  simp only [List.mem_cons, List.not_mem_nil, or_false] at hmem
  obtain rfl | rfl | rfl | rfl | rfl | rfl := hmem <;> rfl

theorem read?_of_weight {kind : Kind} {a : Attribute} (ha : a ∈ kind.attributes) (hname : a.name = "weight")
    {f : Field} (hf : f ∈ a.fields) (density : Float) (value : Value) :
    f.read? density value = some (.number value.asNumber) := by
  have hall : ∀ a ∈ kind.attributes, a.name = "weight" → ∀ f ∈ a.fields, f = .weight := by
    cases kind <;> decide
  rw [hall a ha hname f hf]
  rfl

namespace Params

/-- **Texts for numbers.** Of the attributes of a kind that hold numbers, in any case of their ASCII letters:
width and height take the texts of sizes, and refuse any other text and change nothing. Margins, places and weights take
every text: a literal for its number and any other text for zero, so that they refuse none. The text of a finite
number is read back as that number; with `dp` after it it is the same number to a width or height, and zero
to a margin or place. -/
theorem takes_texts (p : Params) {a : Attribute} (mem : a ∈ p.kind.attributes) {key : String}
    (named : Text.sameLetters key a.name = true) :
    (a.name ∈ sizeNames → ∀ s,
      (∀ d, SizeText p.density s d → p.Puts key (.text s) a (.size d)) ∧
      ((∀ d, ¬ SizeText p.density s d) → p.setAttribute key (.text s) = (false, p))) ∧
    (a.name ∈ pixelNames → ∀ s,
      (∀ x, IsNumber s x → p.Puts key (.text s) a (.number (x * p.density))) ∧
      ((∀ x, ¬ IsNumber s x) → p.Puts key (.text s) a (.number (0 * p.density)))) ∧
    (a.name = "weight" → ∀ s,
      (∀ x, IsNumber s x → p.Puts key (.text s) a (.number x)) ∧
      ((∀ x, ¬ IsNumber s x) → p.Puts key (.text s) a (.number 0))) ∧
    ∀ n : Float, n.isFinite = true →
      (a.name ∈ sizeNames →
        p.Puts key (.text (Decimal.Style.value.text n)) a (.size (.pixels (n * p.density))) ∧
        p.Puts key (.text (Decimal.Style.value.text n ++ "dp")) a (.size (.pixels (n * p.density)))) ∧
      (a.name ∈ pixelNames →
        p.Puts key (.text (Decimal.Style.value.text n)) a (.number (n * p.density)) ∧
        p.Puts key (.text (Decimal.Style.value.text n ++ "dp")) a (.number (0 * p.density))) := by
  have h := attribute?_eq_some.2 ⟨mem, named⟩
  have hsize : a.name ∈ sizeNames → ∀ s d, SizeText p.density s d → p.Puts key (.text s) a (.size d) :=
    fun hname s d hd => puts_of_read h fun f hf => by
      rw [read?_of_size mem hname hf, Dimension.read?_text.2 (sizeText_iff.1 hd), Option.map_some]
  have hrefused : a.name ∈ sizeNames → ∀ s, (∀ d, ¬ SizeText p.density s d) →
      p.setAttribute key (.text s) = (false, p) := fun hname s hnone => refused_of_read h fun f hf => by
    have hread : Dimension.read? (.text s) p.density = none :=
      Option.eq_none_iff_forall_ne_some.2 fun d hd => hnone d (sizeText_iff.2 (Dimension.read?_text.1 hd))
    rw [read?_of_size mem hname hf, hread, Option.map_none]
  have hpixels : a.name ∈ pixelNames → ∀ s, p.Puts key (.text s) a (.number ((Value.text s).asNumber * p.density)) :=
    fun hname s => puts_of_read h fun f hf => read?_of_pixel mem hname hf ..
  have hweight : a.name = "weight" → ∀ s, p.Puts key (.text s) a (.number (Value.text s).asNumber) :=
    fun hname s => puts_of_read h fun f hf => read?_of_weight mem hname hf ..
  refine ⟨fun hname s => ⟨hsize hname s, hrefused hname s⟩, fun hname s => ⟨fun x hx => ?_, fun hnone => ?_⟩,
    fun hname s => ⟨fun x hx => ?_, fun hnone => ?_⟩, fun n hn => ⟨fun hname => ⟨?_, ?_⟩, fun hname => ⟨?_, ?_⟩⟩⟩
  · rw [← asNumber_of_isNumber hx]
    exact hpixels hname s
  · rw [← asNumber_of_not_isNumber hnone]
    exact hpixels hname s
  · rw [← asNumber_of_isNumber hx]
    exact hweight hname s
  · rw [← asNumber_of_not_isNumber hnone]
    exact hweight hname s
  · exact hsize hname _ _ (.pixels (isLength_text hn))
  · exact hsize hname _ _ (.pixels (isLength_text_dp hn))
  · have hput := hpixels hname (Decimal.Style.value.text n)
    rwa [asNumber_of_isNumber (isNumber_text hn)] at hput
  · have hput := hpixels hname (Decimal.Style.value.text n ++ "dp")
    rwa [asNumber_of_not_isNumber (not_isNumber_text_dp hn)] at hput

/-- At a density of two `4` is a margin of eight pixels and `4dp` a margin of none, like a word. -/
theorem linear_takes_texts :
    let p : Params := { new .linear with density := 2 }
    let width : Attribute := ⟨"width", [.width]⟩
    let margin : Attribute := ⟨"margin", [.left, .top, .right, .bottom]⟩
    width ∈ p.kind.attributes ∧ Text.sameLetters "Width" width.name = true ∧ margin ∈ p.kind.attributes ∧
      Text.sameLetters "MARGIN" margin.name = true ∧ Float.isFinite 4 = true ∧
      p.Puts "Width" (.text " 24DP ") width (.size (.pixels (24 * 2))) ∧
      p.setAttribute "Width" (.text "wide") = (false, p) ∧
      p.Puts "MARGIN" (.text "wide") margin (.number (0 * 2)) ∧
      p.Puts "Width" (.text (Decimal.Style.value.text 4 ++ "dp")) width (.size (.pixels (4 * 2))) ∧
      p.Puts "MARGIN" (.text (Decimal.Style.value.text 4)) margin (.number (4 * 2)) ∧
      p.Puts "MARGIN" (.text (Decimal.Style.value.text 4 ++ "dp")) margin (.number (0 * 2)) := by
  intro p width margin
  have hwidth : width ∈ p.kind.attributes := by simp [p, width, Kind.attributes]
  have hmargin : margin ∈ p.kind.attributes := by simp [p, margin, Kind.attributes, new, Kind.hasMargins]
  have hfinite : Float.isFinite 4 = true := by decide +kernel
  have hsize : SizeText p.density " 24DP " (.pixels (24 * 2)) :=
    sizeText_iff.2 (Dimension.read?_text.1 (by decide +kernel))
  have hword : ∀ d, ¬ SizeText p.density "wide" d := fun d hd => by
    have hread := Dimension.read?_text.2 (sizeText_iff.1 hd)
    rw [show Dimension.read? (.text "wide") p.density = none by decide +kernel] at hread
    cases hread
  have hnumber : ∀ x, ¬ IsNumber "wide" x := fun x hx => by
    have hread := Decimal.read?_eq_some.2 hx
    rw [show Decimal.read? (Text.trim "wide".toList) = none by decide +kernel] at hread
    cases hread
  have hwidthKey : Text.sameLetters "Width" width.name = true := by decide
  have hmarginKey : Text.sameLetters "MARGIN" margin.name = true := by decide
  obtain ⟨hsizes, -, -, hwidths⟩ := takes_texts p hwidth hwidthKey
  obtain ⟨-, hpixels, -, hmargins⟩ := takes_texts p hmargin hmarginKey
  exact ⟨hwidth, hwidthKey, hmargin, hmarginKey, hfinite, (hsizes (by decide) _).1 _ hsize,
    (hsizes (by decide) _).2 hword, (hpixels (by decide) _).2 hnumber, ((hwidths 4 hfinite).1 (by decide)).2,
    ((hmargins 4 hfinite).2 (by decide)).1, ((hmargins 4 hfinite).2 (by decide)).2⟩

/-- A word that is no number takes a margin away, and so does a length with `dp`. -/
theorem word_taken_as_margin :
    let p : Params := { new .linear with density := 2, margins := .uniform 6 }
    (∀ x, ¬ IsLength "wide" x) ∧ (p.setAttribute "margin" (.text "wide")).1 = true ∧
      (p.setAttribute "margin" (.text "wide")).2.get .left = .number 0 ∧ IsLength "4dp" 4 ∧
      (p.setAttribute "marginleft" (.text "4dp")).1 = true ∧
      (p.setAttribute "marginleft" (.text "4dp")).2.get .left = .number 0 ∧
      (p.setAttribute "marginleft" (.text "4")).2.get .left = .number 8 := by
  have hword : ∀ x, ¬ IsLength "wide" x := fun x hx => by
    have hread := read?_strip_dps.2 (isLength_iff.1 hx)
    rw [show Decimal.read? (Text.stripSuffixes ['d', 'p'] (Text.lower (Text.trim "wide".toList))) = none by
      decide +kernel] at hread
    cases hread
  have hlength : IsLength "4dp" 4 := isLength_iff.2 (read?_strip_dps.1 (by decide +kernel))
  exact ⟨hword, by decide +kernel, by decide +kernel, hlength, by decide +kernel, by decide +kernel, by decide +kernel⟩

end Params

end Layout

end LiveScreen
