/-
Two readers take a literal that is followed by `dp`. Animations read a number that may be followed by any number of
`%` and then of `dp`, and that has to be finite (`NumberText`). Sizes read a word or a literal that may be followed by
any number of `dp`, all of it in any case (`Layout.SizeForm`). Each takes exactly the texts of its form and gives them
the value of their literal (`reads_suffixed`), and a text has such a form in one way at most.
-/
import LiveScreen.Proofs.Layout.Lengths
import LiveScreen.Proofs.Animation.Configured

namespace LiveScreen

/-! ## Numbers of animations -/

/-- Whether a text is a finite literal with percent signs and `dp`s after it, and white space around it all. -/
def NumberText (s : String) (x : Float) : Prop :=
  (∃ literal percents dps, Suffixed (Text.trim s.toList) literal percents dps x) ∧ x.isFinite = true

theorem finite?_text {s : String} {x : Float} : (Value.text s).finite? = some x ↔ NumberText s x := by
  rw [Value.finite?, Option.filter_eq_some_iff, read?_strip_percents, NumberText]

theorem finite?_text_eq_none {s : String} : (Value.text s).finite? = none ↔ ∀ x, ¬ NumberText s x := by
  simp only [Option.eq_none_iff_forall_ne_some, ne_eq, finite?_text]

/-- A text that is a number is read like the number. -/
theorem finite?_number {s : String} {x : Float} (h : NumberText s x) :
    (Value.number x).finite? = (Value.text s).finite? := by
  rw [finite?_text.2 h, Value.finite?, if_pos h.2]

namespace Reading

theorem number_text {σ : Type} {key s : String} {A : Attributes} (hA : A.getAnyCase? key = some (.text s))
    (set : Float → σ → σ) {x : Float} (h : NumberText s x) : number key set A = .ok (set x) := by
  simp only [number, optional, hA, finite?_text.2 h]

theorem number_text_error {σ : Type} {key s : String} {A : Attributes} (hA : A.getAnyCase? key = some (.text s))
    (set : Float → σ → σ) (h : ∀ x, ¬ NumberText s x) : number key set A = .error (.invalidAttribute key s) := by
  simp only [number, optional, hA, finite?_text_eq_none.2 h]
  rfl

theorem timeOf_text (key : String) {s : String} {x : Float} (h : NumberText s x) :
    timeOf key (.text s) = timeOf key (.number x) := by
  simp only [timeOf, finite?_number h, finite?_text.2 h]

theorem timeOf_text_error (key : String) {s : String} (h : ∀ x, ¬ NumberText s x) :
    timeOf key (.text s) = .error (.invalidAttribute key s) := by
  simp only [timeOf, finite?_text_eq_none.2 h]
  rfl

end Reading

namespace Animation

/-- Whether an attribute is read as a number, of milliseconds too. -/
def Way.Numeric : Way → Prop
  | .number _ | .time | .override => True
  | .frames | .flag => False

theorem exists_field? {a : Animation} {t : Attribute} (ht : t ∈ a.attributes) : ∃ c, a.field? t.key = some c := by
  have hall : ∀ t ∈ a.attributes, ∃ c, a.field? t.key = some c := by
    cases a <;> simp [attributes, field?, fields, List.lookup_cons]
  exact hall t ht

/-- A fault of an attribute that is given names its key. -/
theorem Attribute.key_of_fault? {t : Attribute} {given : Option Value} {key v : String}
    (h : t.fault? given = some (.invalidAttribute key v)) : key = t.key := by
  obtain ⟨key', way⟩ := t
  cases way <;> cases given <;> simp [fault?] at h
  all_goals exact h.2.1.symm

section Configure

variable {a : Animation} {A : Attributes} {before after : List Attribute} {t : Attribute} {s : String}

/-- A numeric attribute that is reached is refused if its text is no number, and its field is left alone. -/
theorem configure_text_error (ha : a.Ordered) (hsplit : a.attributes = before ++ t :: after)
    (hbefore : ∀ u ∈ before, u.Valid (A.getAnyCase? u.key)) (hA : A.getAnyCase? t.key = some (.text s))
    (hway : t.way.Numeric) (h : ∀ x, ¬ NumberText s x) :
    (a.configure A).1 = .error (.invalidAttribute t.key s) ∧ (a.configure A).2.field? t.key = a.field? t.key := by
  have hnone := finite?_text_eq_none.2 h
  have hfault : t.fault? (some (.text s)) = some (.invalidAttribute t.key s) := by
    obtain ⟨key, way⟩ := t
    cases way <;> simp_all [Attribute.fault?, millis?, Value.asText, Way.Numeric]
  have hsettle : ∀ c, t.settle (some (.text s)) c = c := by
    obtain ⟨key, way⟩ := t
    cases way <;> simp_all [Attribute.settle, millis?, Way.Numeric]
  obtain ⟨a', hrun, -, hfields⟩ := (configures_of_ordered ha).run A
  have hfirst : faultOf? A.getAnyCase? a.attributes = some (.invalidAttribute t.key s) :=
    faultOf?_eq_some.2 ⟨before, t, after, hsplit, hbefore, hA ▸ hfault⟩
  rw [hrun, hfirst]
  refine ⟨rfl, ?_⟩
  rw [field?, hfields, hsplit, (lookup_settled _ _ (hsplit ▸ keys_nodup a)).1 hbefore, hA, ← field?]
  cases a.field? t.key with
  | none => rfl
  | some c => rw [Option.map_some, hsettle]

/-- A number that is reached is accepted and put into its field. -/
theorem configure_text (ha : a.Ordered) (hsplit : a.attributes = before ++ t :: after)
    (hbefore : ∀ u ∈ before, u.Valid (A.getAnyCase? u.key)) (hA : A.getAnyCase? t.key = some (.text s))
    {unit : Float → Float} (hway : t.way = .number unit) {x : Float} (h : NumberText s x) :
    (a.configure A).2.field? t.key = some (.number (unit x)) ∧
      ∀ v, (a.configure A).1 ≠ .error (.invalidAttribute t.key v) := by
  have hread := finite?_text.2 h
  have hfine : t.fault? (some (.text s)) = none := by
    obtain ⟨key, way⟩ := t
    cases hway
    simp [Attribute.fault?, hread]
  have hsettle : ∀ c, t.settle (some (.text s)) c = .number (unit x) := by
    obtain ⟨key, way⟩ := t
    cases hway
    simp [Attribute.settle, hread]
  obtain ⟨a', hrun, -, hfields⟩ := (configures_of_ordered ha).run A
  rw [hrun]
  constructor
  · obtain ⟨c, hc⟩ := exists_field? (hsplit ▸ List.mem_append_right before List.mem_cons_self : t ∈ a.attributes)
    rw [field?, hfields, hsplit, (lookup_settled _ _ (hsplit ▸ keys_nodup a)).1 hbefore, hA, ← field?, hc,
      Option.map_some, hsettle]
  · intro v hv
    cases hfault : faultOf? A.getAnyCase? a.attributes with
    | none =>
      rw [hfault] at hv
      cases hv
    | some e =>
      rw [hfault] at hv
      cases hv
      obtain ⟨u, hu, hfault⟩ := List.exists_of_findSome?_eq_some hfault
      have hkey := Attribute.key_of_fault? hfault
      obtain rfl : t = u :=
        List.inj_on_of_nodup_map (keys_nodup a) (hsplit ▸ List.mem_append_right before List.mem_cons_self) hu hkey
      rw [hA, hfine] at hfault
      cases hfault

end Configure

end Animation

/-! ## Sizes -/

namespace Layout

theorem SizeForm.unique {density : Float} {s : String} {d d' : Dimension} (h : SizeForm density s d)
    (h' : SizeForm density s d') : d = d' := by
  have hread := Dimension.read?_text.2 h
  rw [Dimension.read?_text.2 h'] at hread
  exact (Option.some.inj hread).symm

theorem setAttribute_sizes (p : Params) (value : Value) :
    p.setAttribute "width" value =
      ((Dimension.read? value p.density).map fun d => (true, { p with width := d })).getD (false, p) ∧
    p.setAttribute "height" value =
      ((Dimension.read? value p.density).map fun d => (true, { p with height := d })).getD (false, p) := by
  have hwidth : String.ofList (Text.lower "width".toList) = "width" := by decide +kernel
  have hheight : String.ofList (Text.lower "height".toList) = "height" := by decide +kernel
  simp only [Params.setAttribute, Params.withAttribute?, hwidth, hheight]
  cases Dimension.read? value p.density <;> simp

end Layout

/-! ## What is read -/

open Animation in
/-- **Literals with suffixes.** An attribute that is read as a number takes exactly the texts that are
numbers, and a time is then that of the number. So configuring an animation refuses the first attribute to be
a number whose text is none, and puts any other number into its field in the unit of the field. A width and a height
take exactly the texts of sizes, and any other text changes nothing. A text is a literal with suffixes in one way and
a size in one way at most. -/
theorem reads_suffixed :
    (∀ (key s : String) (A : Attributes), A.getAnyCase? key = some (.text s) →
      (∀ x, NumberText s x →
        (∀ (σ : Type) (set : Float → σ → σ), Reading.number key set A = .ok (set x)) ∧
        Reading.timeOf key (.text s) = Reading.timeOf key (.number x)) ∧
      ((∀ x, ¬ NumberText s x) →
        (∀ (σ : Type) (set : Float → σ → σ), Reading.number key set A = .error (.invalidAttribute key s)) ∧
        Reading.timeOf key (.text s) = .error (.invalidAttribute key s))) ∧
    (∀ (a : Animation) (A : Attributes) (before : List Attribute) (t : Attribute) (after : List Attribute) (s : String),
      a.Ordered → a.attributes = before ++ t :: after → (∀ u ∈ before, u.Valid (A.getAnyCase? u.key)) →
      A.getAnyCase? t.key = some (.text s) →
      (∀ unit x, t.way = .number unit → NumberText s x →
        (a.configure A).2.field? t.key = some (.number (unit x)) ∧
        ∀ v, (a.configure A).1 ≠ .error (.invalidAttribute t.key v)) ∧
      (t.way.Numeric → (∀ x, ¬ NumberText s x) →
        (a.configure A).1 = .error (.invalidAttribute t.key s) ∧
        (a.configure A).2.field? t.key = a.field? t.key)) ∧
    (∀ (p : Layout.Params) (s : String),
      (∀ d, Layout.SizeForm p.density s d →
        p.setAttribute "width" (.text s) = (true, { p with width := d }) ∧
        p.setAttribute "height" (.text s) = (true, { p with height := d })) ∧
      ((∀ d, ¬ Layout.SizeForm p.density s d) →
        p.setAttribute "width" (.text s) = (false, p) ∧ p.setAttribute "height" (.text s) = (false, p))) ∧
    (∀ s literal literal' percents percents' dps dps' x x', Suffixed s literal percents dps x →
      Suffixed s literal' percents' dps' x' →
      literal = literal' ∧ percents = percents' ∧ dps = dps' ∧ x = x') ∧
    ∀ density s d d', Layout.SizeForm density s d → Layout.SizeForm density s d' → d = d' := by
  refine ⟨fun key s A hA => ⟨fun x hx => ⟨fun σ set => Reading.number_text hA set hx, Reading.timeOf_text key hx⟩,
      fun h => ⟨fun σ set => Reading.number_text_error hA set h, Reading.timeOf_text_error key h⟩⟩,
    fun a A before t after s ha hsplit hbefore hA => ⟨fun unit x hway hx => configure_text ha hsplit hbefore hA hway hx,
      fun hway h => configure_text_error ha hsplit hbefore hA hway h⟩,
    fun p s => ⟨fun d hd => ?_, fun h => ?_⟩,
    fun s literal literal' percents percents' dps dps' x x' h h' => h.unique h', fun density s d d' h h' => h.unique h'⟩
  · obtain ⟨hwidth, hheight⟩ := Layout.setAttribute_sizes p (.text s)
    rw [hwidth, hheight, Layout.Dimension.read?_text.2 hd]
    exact ⟨rfl, rfl⟩
  · obtain ⟨hwidth, hheight⟩ := Layout.setAttribute_sizes p (.text s)
    have hnone : Layout.Dimension.read? (.text s) p.density = none :=
      Option.eq_none_iff_forall_ne_some.2 fun d hd => h d (Layout.Dimension.read?_text.1 hd)
    rw [hwidth, hheight, hnone]
    exact ⟨rfl, rfl⟩

open Animation in
/-- Suffixes in the wrong order, in capitals or after a blank are none, infinity is a width but no number, and a percent
sign is part of a number but not of a width. -/
theorem nearMisses_read :
    let A : Attributes := .ofList [("ToAlpha", .text " .5%%dpdp\u3000"), ("FromAlpha", .text "1e-1")]
    let B : Attributes := .ofList [("toalpha", .text "5dp%")]
    let p : Layout.Params := { Layout.Params.new .frame with density := 2 }
    let infinity : Float := 1 / 0
    ((Animation.alpha .new).configure A).2.field? "toalpha" = some (.number (clampUnit 0.5)) ∧
      (∀ v, ((Animation.alpha .new).configure A).1 ≠ .error (.invalidAttribute "toalpha" v)) ∧
      ((Animation.alpha .new).configure B).1 = .error (.invalidAttribute "toalpha" "5dp%") ∧
      (∀ x, ¬ NumberText "5DP" x) ∧
      p.setAttribute "width" (.text " 5DPdp\n") = (true, { p with width := .pixels (5 * 2) }) ∧
      (∀ x, ¬ NumberText "inf" x) ∧
      p.setAttribute "height" (.text "Inf") = (true, { p with height := .pixels (infinity * 2) }) ∧
      NumberText "5%" 5 ∧ p.setAttribute "width" (.text "5%") = (false, p) ∧
      p.setAttribute "width" (.text "1e5 dp") = (false, p) ∧
      p.setAttribute "height" (.text "\u00a0Fill_Parent ") = (true, { p with height := .matchParent }) := by
  intro A B p infinity
  obtain ⟨-, hconfigure, hsizes, -⟩ := reads_suffixed
  have hhalf : NumberText " .5%%dpdp\u3000" 0.5 := finite?_text.1 (by decide +kernel)
  have hrefused : ∀ s, (Value.text s).finite? = none → ∀ x, ¬ NumberText s x := fun s => finite?_text_eq_none.1
  have hnoSize : ∀ s, Layout.Dimension.read? (.text s) p.density = none → ∀ d, ¬ Layout.SizeForm p.density s d :=
    fun s hs d hd => by
      rw [Layout.Dimension.read?_text.2 hd] at hs
      cases hs
  have hfirst : ∀ u ∈ [(⟨"fromalpha", .number clampUnit⟩ : Attribute)], u.Valid (A.getAnyCase? u.key) := by
    intro u hu
    rw [List.mem_singleton.1 hu, ← Attribute.fault?_eq_none]
    decide +kernel
  have hfirst' : ∀ u ∈ [(⟨"fromalpha", .number clampUnit⟩ : Attribute)], u.Valid (B.getAnyCase? u.key) := by
    intro u hu
    rw [List.mem_singleton.1 hu, ← Attribute.fault?_eq_none]
    decide +kernel
  obtain ⟨hfield, hfine⟩ := (hconfigure (.alpha .new) A [_] ⟨"toalpha", .number clampUnit⟩ _ _ trivial rfl hfirst
    (by decide +kernel)).1 clampUnit _ rfl hhalf
  refine ⟨hfield, hfine, ?_, hrefused _ (by decide +kernel), ?_, hrefused _ (by decide +kernel), ?_,
    finite?_text.1 (by decide +kernel), ?_, ?_, ?_⟩
  · exact ((hconfigure (.alpha .new) B [_] ⟨"toalpha", .number clampUnit⟩ _ _ trivial rfl hfirst' (by decide +kernel)).2
      trivial (hrefused _ (by decide +kernel))).1
  · exact ((hsizes p _).1 _ (Layout.Dimension.read?_text.1 (by decide +kernel))).1
  · exact ((hsizes p _).1 _ (Layout.Dimension.read?_text.1 (by decide +kernel))).2
  · exact ((hsizes p _).2 (hnoSize _ (by decide +kernel))).1
  · exact ((hsizes p _).2 (hnoSize _ (by decide +kernel))).1
  · exact ((hsizes p _).1 _ (Layout.Dimension.read?_text.1 (by decide +kernel))).2

end LiveScreen
