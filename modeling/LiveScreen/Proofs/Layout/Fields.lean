/-
What attributes do to layout parameters. The parameters are looked at field by field
(`Params.get`), and a kind of parameters is described by the attributes it has and the
fields each of them sets (`Kind.attributes`). An attribute is accepted if its kind has
it, in any case of its ASCII letters, and its value can be read; it then sets its own
fields and leaves the others alone. So a field holds what the last accepted attribute
that names it gave it (`holds_last_given`), and the fields that no attribute of the
kind names stay as they were made.
-/
import Mathlib.Data.List.Nodup
import LiveScreen.Layout.Params
import LiveScreen.Proofs.Text.Lower

namespace LiveScreen.Layout

/-! ## Fields and attributes -/

/-- One thing layout parameters say. A rule counts by its name. -/
inductive Field where
  | width
  | height
  | left
  | top
  | right
  | bottom
  | weight
  | gravity
  | x
  | y
  | rule (name : String)
  deriving DecidableEq

/-- What a field holds. -/
inductive Content where
  | size (d : Dimension)
  | number (n : Float)
  | text (s : Option String)
  deriving DecidableEq

/-- What a field makes of a value, or nothing if it cannot be read. Only sizes refuse values. -/
def Field.read? (density : Float) (value : Value) : Field → Option Content
  | .width | .height => (Dimension.read? value density).map .size
  | .left | .top | .right | .bottom | .x | .y => some (.number (value.asNumber * density))
  | .weight => some (.number value.asNumber)
  | .gravity | .rule _ => some (.text (some value.asText))

/-- An attribute of layout parameters, and the fields it sets. -/
structure Attribute where
  name : String
  fields : List Field

/-- Whether an attribute can read a value. -/
def Attribute.reads (a : Attribute) (density : Float) (value : Value) : Bool :=
  a.fields.all fun f => (f.read? density value).isSome

namespace Kind

/-- The attributes that parameters of a kind have. -/
def attributes (kind : Kind) : List Attribute :=
  [⟨"width", [.width]⟩, ⟨"height", [.height]⟩] ++
    (if kind.hasMargins then
      [⟨"margin", [.left, .top, .right, .bottom]⟩, ⟨"marginleft", [.left]⟩, ⟨"margintop", [.top]⟩,
        ⟨"marginright", [.right]⟩, ⟨"marginbottom", [.bottom]⟩]
    else []) ++
    (if kind = .linear then [⟨"weight", [.weight]⟩] else []) ++
    (if kind = .linear ∨ kind = .frame then [⟨"gravity", [.gravity]⟩] else []) ++
    (if kind = .absolute then [⟨"x", [.x]⟩, ⟨"y", [.y]⟩] else []) ++
    (if kind = .relative then relativeRules.map fun r => ⟨r, [.rule r]⟩ else [])

/-- The attribute of a kind that a key stands for, in any case of its ASCII letters. -/
def attribute? (kind : Kind) (key : String) : Option Attribute :=
  kind.attributes.find? fun a => Text.sameLetters key a.name

/-- What a key with a value gives to a field: something only if the key stands for an attribute that
names the field and can read the value. -/
def given? (kind : Kind) (density : Float) (call : String × Value) (f : Field) : Option Content :=
  ((kind.attribute? call.1).filter fun a => a.reads density call.2 && f ∈ a.fields).bind fun _ =>
    f.read? density call.2

end Kind

namespace Params

/-- What a field of parameters holds. -/
def get (p : Params) : Field → Content
  | .width => .size p.width
  | .height => .size p.height
  | .left => .number p.margins.left
  | .top => .number p.margins.top
  | .right => .number p.margins.right
  | .bottom => .number p.margins.bottom
  | .weight => .number p.weight
  | .gravity => .text p.gravity
  | .x => .number p.position.x
  | .y => .number p.position.y
  | .rule name => .text (p.rules.get? name)

/-- Parameters with something else in one field. -/
def put (p : Params) : Field → Content → Params
  | .width, .size d => { p with width := d }
  | .height, .size d => { p with height := d }
  | .left, .number n => { p with margins.left := n }
  | .top, .number n => { p with margins.top := n }
  | .right, .number n => { p with margins.right := n }
  | .bottom, .number n => { p with margins.bottom := n }
  | .weight, .number n => { p with weight := n }
  | .gravity, .text s => { p with gravity := s }
  | .x, .number n => { p with position.x := n }
  | .y, .number n => { p with position.y := n }
  | .rule name, .text (some s) => { p with rules := p.rules.insert name s }
  | _, _ => p

theorem get_put_self {f : Field} {c : Content} {density : Float} {value : Value} (p : Params)
    (h : f.read? density value = some c) : (p.put f c).get f = c := by
  cases f <;> simp only [Field.read?, Option.map_eq_some_iff, Option.some.injEq] at h
  case width | height =>
    obtain ⟨d, -, rfl⟩ := h
    rfl
  case rule name =>
    subst h
    exact congrArg _ (Table.get?_insert_self _ _ _)
  all_goals
    subst h
    rfl

theorem get_put_other {f g : Field} (p : Params) (c : Content) (h : g ≠ f) : (p.put f c).get g = p.get g := by
  unfold put
  split
  case h_11 name s =>
    cases g
    case rule other => exact congrArg _ (Table.get?_insert_other _ _ fun he => h (by rw [he]))
    all_goals rfl
  case h_12 => rfl
  all_goals cases g <;> first | rfl | exact absurd rfl h

@[simp] theorem kind_put (p : Params) (f : Field) (c : Content) : (p.put f c).kind = p.kind := by
  unfold put
  split <;> rfl

@[simp] theorem density_put (p : Params) (f : Field) (c : Content) : (p.put f c).density = p.density := by
  unfold put
  split <;> rfl

end Params

/-! ## The names of attributes -/

theorem plain_name {kind : Kind} : ∀ a ∈ kind.attributes, ∀ c ∈ a.name.toList, Text.IsPlain c := by
  have hall : ∀ a ∈ kind.attributes, a.name.toList.all fun c => Text.IsPlain c := by cases kind <;> decide
  exact fun a ha => List.all_iff_forall_prop.1 (hall a ha)

theorem nodup_names (kind : Kind) : (kind.attributes.map (·.name)).Nodup := by
  cases kind <;> decide

/-- An attribute goes by the lower-case form of its key, which is to say by the key in any case of its
ASCII letters. -/
theorem lower_eq_name_iff {kind : Kind} {a : Attribute} (ha : a ∈ kind.attributes) (key : String) :
    String.ofList (Text.lower key.toList) = a.name ↔ Text.sameLetters key a.name = true := by
  have hplain := plain_name a ha
  rw [Text.sameLetters_iff, Text.map_asciiLower_of_plain hplain, ← Text.lower_eq_iff hplain,
    ← String.toList_inj, String.toList_ofList]

/-- A key stands for at most one attribute. -/
theorem attribute?_eq_some {kind : Kind} {key : String} {a : Attribute} :
    kind.attribute? key = some a ↔ a ∈ kind.attributes ∧ Text.sameLetters key a.name = true := by
  constructor
  · intro h
    exact ⟨List.mem_of_find?_eq_some h, by simpa using List.find?_some h⟩
  · rintro ⟨ha, hkey⟩
    cases hfound : kind.attribute? key with
    | none => exact absurd hkey (List.find?_eq_none.1 hfound a ha)
    | some b =>
      have hb : b ∈ kind.attributes := List.mem_of_find?_eq_some hfound
      have hname : b.name = a.name :=
        ((lower_eq_name_iff hb key).2 (by simpa using List.find?_some hfound)).symm.trans
          ((lower_eq_name_iff ha key).2 hkey)
      rw [List.inj_on_of_nodup_map (nodup_names kind) hb ha hname]

/-! ## One attribute -/

/-- What an attribute that reads its value makes of parameters. -/
structure Params.Sets (p p' : Params) (a : Attribute) (value : Value) : Prop where
  kind : p'.kind = p.kind
  density : p'.density = p.density
  /-- Its own fields get what they make of the value. -/
  named : ∀ f ∈ a.fields, f.read? p.density value = some (p'.get f)
  /-- All others stay. -/
  other : ∀ f ∉ a.fields, p'.get f = p.get f

/-- What comes of a value under a key in lower case: an attribute of the kind sets its fields, or it
cannot read the value, or the kind has no such attribute. -/
inductive Params.Outcome (p : Params) (name : String) (value : Value) : Option Params → Prop
  | accepted {p' : Params} {a : Attribute} (mem : a ∈ p.kind.attributes) (named : name = a.name)
      (sets : p.Sets p' a value) : p.Outcome name value (some p')
  | unreadable {a : Attribute} (mem : a ∈ p.kind.attributes) (named : name = a.name)
      (reads : a.reads p.density value = false) : p.Outcome name value none
  | foreign (unknown : ∀ a ∈ p.kind.attributes, name ≠ a.name) : p.Outcome name value none

theorem Params.Outcome.single {p : Params} {name : String} {value : Value} {f : Field} {c : Content}
    (mem : ⟨name, [f]⟩ ∈ p.kind.attributes) (h : f.read? p.density value = some c) :
    p.Outcome name value (some (p.put f c)) := by
  refine .accepted mem rfl ⟨p.kind_put f c, p.density_put f c, ?_, ?_⟩
  · intro g hg
    rw [List.mem_singleton.1 hg, h, p.get_put_self h]
  · intro g hg
    exact p.get_put_other c fun he => hg (List.mem_singleton.2 he)

theorem Params.Outcome.size {p : Params} {name : String} {value : Value} {f : Field}
    (mem : ⟨name, [f]⟩ ∈ p.kind.attributes)
    (h : f.read? p.density value = (Dimension.read? value p.density).map .size) :
    p.Outcome name value ((Dimension.read? value p.density).map fun d => p.put f (.size d)) := by
  cases hread : Dimension.read? value p.density with
  | none =>
    rw [hread] at h
    exact .unreadable mem rfl (by simp only [Attribute.reads, List.all_cons, h, Option.map_none]; rfl)
  | some d =>
    rw [hread] at h
    exact .single mem h

theorem withAttribute?_outcome (p : Params) (key : String) (value : Value) :
    p.Outcome (String.ofList (Text.lower key.toList)) value (p.withAttribute? key value) := by
  unfold Params.withAttribute?
  generalize String.ofList (Text.lower key.toList) = name
  dsimp only
  by_cases hwidth : name = "width"
  · rw [if_pos hwidth, hwidth]
    exact .size (f := .width) (by simp [Kind.attributes]) rfl
  rw [if_neg hwidth]
  by_cases hheight : name = "height"
  · rw [if_pos hheight, hheight]
    exact .size (f := .height) (by simp [Kind.attributes]) rfl
  rw [if_neg hheight]
  by_cases hmargin : name = "margin" ∧ p.kind.hasMargins
  · rw [if_pos hmargin]
    refine .accepted (a := ⟨"margin", [.left, .top, .right, .bottom]⟩) (by simp [Kind.attributes, hmargin.2])
      hmargin.1 ⟨rfl, rfl, by simp [Field.read?, Params.get, Margins.uniform], ?_⟩
    rintro ⟨⟩ hf <;> simp [Params.get] at hf ⊢
  rw [if_neg hmargin]
  by_cases hleft : name = "marginleft" ∧ p.kind.hasMargins
  · rw [if_pos hleft, hleft.1]
    exact .single (f := .left) (by simp [Kind.attributes, hleft.2]) rfl
  rw [if_neg hleft]
  by_cases htop : name = "margintop" ∧ p.kind.hasMargins
  · rw [if_pos htop, htop.1]
    exact .single (f := .top) (by simp [Kind.attributes, htop.2]) rfl
  rw [if_neg htop]
  by_cases hright : name = "marginright" ∧ p.kind.hasMargins
  · rw [if_pos hright, hright.1]
    exact .single (f := .right) (by simp [Kind.attributes, hright.2]) rfl
  rw [if_neg hright]
  by_cases hbottom : name = "marginbottom" ∧ p.kind.hasMargins
  · rw [if_pos hbottom, hbottom.1]
    exact .single (f := .bottom) (by simp [Kind.attributes, hbottom.2]) rfl
  rw [if_neg hbottom]
  by_cases hweight : name = "weight" ∧ p.kind = .linear
  · rw [if_pos hweight, hweight.1]
    exact .single (f := .weight) (by simp [Kind.attributes, hweight.2]) rfl
  rw [if_neg hweight]
  by_cases hgravity : name = "gravity" ∧ (p.kind = .linear ∨ p.kind = .frame)
  · rw [if_pos hgravity, hgravity.1]
    exact .single (f := .gravity) (by simp [Kind.attributes, hgravity.2]) rfl
  rw [if_neg hgravity]
  by_cases hx : name = "x" ∧ p.kind = .absolute
  · rw [if_pos hx, hx.1]
    exact .single (f := .x) (by simp [Kind.attributes, hx.2]) rfl
  rw [if_neg hx]
  by_cases hy : name = "y" ∧ p.kind = .absolute
  · rw [if_pos hy, hy.1]
    exact .single (f := .y) (by simp [Kind.attributes, hy.2]) rfl
  rw [if_neg hy]
  by_cases hrule : name ∈ relativeRules ∧ p.kind = .relative
  · rw [if_pos hrule]
    exact .single (f := .rule name) (by simp [Kind.attributes, hrule]) rfl
  rw [if_neg hrule]
  refine .foreign fun a ha hname => ?_
  subst hname
  simp only [Kind.attributes, List.mem_append, List.mem_ite_nil_right, List.mem_cons, List.not_mem_nil, or_false,
    List.mem_map] at ha
  grind

namespace Params

/-- A call either sets the fields of the attribute its key stands for, or it is refused and changes
nothing. -/
theorem setAttribute_cases (p : Params) (key : String) (value : Value) :
    (∃ a, p.kind.attribute? key = some a ∧ a.reads p.density value = true ∧
      (p.setAttribute key value).1 = true ∧ p.Sets (p.setAttribute key value).2 a value) ∨
    ((∀ a, p.kind.attribute? key = some a → a.reads p.density value = false) ∧
      p.setAttribute key value = (false, p)) := by
  have houtcome := withAttribute?_outcome p key value
  unfold setAttribute
  generalize p.withAttribute? key value = result at houtcome
  cases houtcome with
  | @accepted p' a mem named sets =>
    have hkey := attribute?_eq_some.2 ⟨mem, (lower_eq_name_iff mem key).1 named⟩
    have hreads : a.reads p.density value = true :=
      List.all_eq_true.2 fun f hf => by rw [sets.named f hf]; rfl
    exact .inl ⟨a, hkey, hreads, rfl, sets⟩
  | @unreadable a mem named reads =>
    have hkey := attribute?_eq_some.2 ⟨mem, (lower_eq_name_iff mem key).1 named⟩
    refine .inr ⟨fun b hb => ?_, rfl⟩
    rw [hkey, Option.some.injEq] at hb
    rw [← hb, reads]
  | foreign unknown =>
    refine .inr ⟨fun b hb => ?_, rfl⟩
    obtain ⟨mem, named⟩ := attribute?_eq_some.1 hb
    exact absurd ((lower_eq_name_iff mem key).2 named) (unknown b mem)

theorem setAttribute_accepts_iff (p : Params) (key : String) (value : Value) :
    (p.setAttribute key value).1 = true ↔
      ∃ a ∈ p.kind.attributes, Text.sameLetters key a.name = true ∧ a.reads p.density value = true := by
  obtain ⟨a, hkey, hreads, hflag, -⟩ | ⟨hnone, hsame⟩ := p.setAttribute_cases key value
  · obtain ⟨mem, named⟩ := attribute?_eq_some.1 hkey
    exact iff_of_true hflag ⟨a, mem, named, hreads⟩
  · refine iff_of_false (by rw [hsame]; exact Bool.false_ne_true) ?_
    rintro ⟨a, mem, named, hreads⟩
    rw [hnone a (attribute?_eq_some.2 ⟨mem, named⟩)] at hreads
    exact absurd hreads (by decide)

theorem kind_setAttribute (p : Params) (key : String) (value : Value) : (p.setAttribute key value).2.kind = p.kind := by
  obtain ⟨a, -, -, -, hsets⟩ | ⟨-, hsame⟩ := p.setAttribute_cases key value
  · exact hsets.kind
  · rw [hsame]

theorem density_setAttribute (p : Params) (key : String) (value : Value) :
    (p.setAttribute key value).2.density = p.density := by
  obtain ⟨a, -, -, -, hsets⟩ | ⟨-, hsame⟩ := p.setAttribute_cases key value
  · exact hsets.density
  · rw [hsame]

/-- A call gives its fields what they make of its value, and leaves the others what they were. -/
theorem get_setAttribute (p : Params) (key : String) (value : Value) (f : Field) :
    (p.setAttribute key value).2.get f = (p.kind.given? p.density (key, value) f).getD (p.get f) := by
  obtain ⟨a, hkey, hreads, -, hsets⟩ | ⟨hnone, hsame⟩ := p.setAttribute_cases key value
  · simp only [Kind.given?, hkey, Option.filter_some, hreads, Bool.true_and, decide_eq_true_eq]
    by_cases hf : f ∈ a.fields
    · rw [if_pos hf, Option.bind_some, hsets.named f hf, Option.getD_some]
    · rw [if_neg hf, Option.bind_none, hsets.other f hf, Option.getD_none]
  · have hrefused : (p.kind.attribute? key).filter (fun a => a.reads p.density value && f ∈ a.fields) = none := by
      refine Option.filter_eq_none_iff.2 fun a ha => ?_
      rw [hnone a ha, Bool.false_and]
      decide
    rw [hsame, Kind.given?, hrefused]
    rfl

/-! ## A run of calls -/

theorem setAttributes_cons (p : Params) (call : String × Value) (calls : List (String × Value)) :
    p.setAttributes (call :: calls) = (p.setAttribute call.1 call.2).2.setAttributes calls := rfl

theorem kind_setAttributes : ∀ (calls : List (String × Value)) (p : Params), (p.setAttributes calls).kind = p.kind
  | [], _ => rfl
  | call :: calls, p => by rw [setAttributes_cons, kind_setAttributes calls, kind_setAttribute]

theorem density_setAttributes :
    ∀ (calls : List (String × Value)) (p : Params), (p.setAttributes calls).density = p.density
  | [], _ => rfl
  | call :: calls, p => by rw [setAttributes_cons, density_setAttributes calls, density_setAttribute]

/-- After any calls a field holds what the last call that gave it anything gave it. -/
theorem get_setAttributes (f : Field) : ∀ (calls : List (String × Value)) (p : Params),
    (p.setAttributes calls).get f =
      (calls.reverse.findSome? fun call => p.kind.given? p.density call f).getD (p.get f)
  | [], _ => rfl
  | call :: calls, p => by
    have hrest := get_setAttributes f calls (p.setAttribute call.1 call.2).2
    rw [kind_setAttribute, density_setAttribute, get_setAttribute] at hrest
    rw [setAttributes_cons, hrest, List.reverse_cons, List.findSome?_append, List.findSome?_singleton]
    cases calls.reverse.findSome? fun call => p.kind.given? p.density call f <;> rfl

/-! ## What a kind keeps out -/

/-- A field that no attribute of the kind names stays what it was. -/
theorem get_setAttributes_unnamed {p : Params} {f : Field} (h : ∀ a ∈ p.kind.attributes, f ∉ a.fields)
    (calls : List (String × Value)) : (p.setAttributes calls).get f = p.get f := by
  have hnone : (calls.reverse.findSome? fun call => p.kind.given? p.density call f) = none := by
    refine List.findSome?_eq_none_iff.2 fun call _ => ?_
    rw [Kind.given?, Option.filter_eq_none_iff.2, Option.bind_none]
    intro a ha
    simp [h a (attribute?_eq_some.1 ha).1]
  rw [get_setAttributes, hnone, Option.getD_none]

/-- Parameters say nothing that their kind does not know. -/
structure KeepsToKind (p : Params) : Prop where
  margins : p.kind.hasMargins = false → p.margins = .uniform 0
  weight : p.kind ≠ .linear → p.weight = 0
  gravity : p.kind ≠ .linear → p.kind ≠ .frame → p.gravity = none
  position : p.kind ≠ .absolute → p.position = .zero
  rules : p.kind ≠ .relative → p.rules.entries = []
  names : ∀ name ∈ p.rules.keys, name ∈ relativeRules

/-- Parameters as they are made, at a density of one or for a context. -/
def Fresh (p : Params) (kind : Kind) : Prop := p = .new kind ∨ ∃ context, ofContext kind context = .ok p

theorem Fresh.eq {p : Params} {kind : Kind} (h : p.Fresh kind) : p = { new kind with density := p.density } := by
  obtain rfl | ⟨context, h⟩ := h
  · rfl
  · rw [ofContext] at h
    split at h
    · rw [← Except.ok.inj h]
    · cases h

theorem Fresh.get {p : Params} {kind : Kind} (h : p.Fresh kind) (f : Field) : p.get f = (new kind).get f := by
  rw [h.eq]
  cases f <;> rfl

/-- Parameters keep to their kind if the fields that no attribute of it names are as they were made. -/
theorem keepsToKind_of_get {p : Params}
    (h : ∀ f, (∀ a ∈ p.kind.attributes, f ∉ a.fields) → p.get f = (new p.kind).get f) : p.KeepsToKind := by
  have hrule : ∀ name, name ∉ relativeRules ∨ p.kind ≠ .relative → p.rules.get? name = none := by
    intro name hname
    refine Content.text.inj (h (.rule name) ?_)
    revert hname
    cases p.kind <;> simp +contextual [Kind.attributes, Kind.hasMargins]
    rintro hname _ hmem rfl
    exact hname hmem
  have hkeys : ∀ name ∈ p.rules.keys, name ∈ relativeRules ∧ p.kind = .relative := by
    intro name hname
    obtain ⟨⟨name, value⟩, hmem, rfl⟩ := List.mem_map.1 hname
    by_contra hout
    have hmissing := hrule name (not_and_or.1 hout)
    rw [(Table.mem_entries_iff _).1 hmem] at hmissing
    cases hmissing
  refine ⟨fun hk => ?_, fun hk => ?_, fun hl hf => ?_, fun hk => ?_, fun hk => ?_,
    fun name hname => (hkeys name hname).1⟩
  · have hunnamed : ∀ f ∈ [Field.left, .top, .right, .bottom], ∀ a ∈ p.kind.attributes, f ∉ a.fields := by
      revert hk
      cases p.kind <;> decide
    have hleft := Content.number.inj (h .left (hunnamed _ (by decide)))
    have htop := Content.number.inj (h .top (hunnamed _ (by decide)))
    have hright := Content.number.inj (h .right (hunnamed _ (by decide)))
    have hbottom := Content.number.inj (h .bottom (hunnamed _ (by decide)))
    show Margins.mk p.margins.left p.margins.top p.margins.right p.margins.bottom = .uniform 0
    rw [hleft, htop, hright, hbottom]
    rfl
  · refine Content.number.inj (h .weight ?_)
    revert hk
    cases p.kind <;> decide
  · refine Content.text.inj (h .gravity ?_)
    revert hl hf
    cases p.kind <;> decide
  · have hunnamed : ∀ f ∈ [Field.x, .y], ∀ a ∈ p.kind.attributes, f ∉ a.fields := by
      revert hk
      cases p.kind <;> decide
    have hx := Content.number.inj (h .x (hunnamed _ (by decide)))
    have hy := Content.number.inj (h .y (hunnamed _ (by decide)))
    show Pair.mk p.position.x p.position.y = .zero
    rw [hx, hy]
    rfl
  · refine List.eq_nil_iff_forall_not_mem.2 fun e he => hk (hkeys e.1 (List.mem_map_of_mem he)).2

theorem Fresh.keepsToKind {p : Params} {kind : Kind} (h : p.Fresh kind) (calls : List (String × Value)) :
    (p.setAttributes calls).KeepsToKind := by
  have hkind : p.kind = kind := by rw [h.eq]; rfl
  refine keepsToKind_of_get fun f hf => ?_
  rw [kind_setAttributes, hkind] at hf ⊢
  rw [get_setAttributes_unnamed (hkind ▸ hf), h.get]

/-- **Attributes and fields.** Parameters of a kind, whatever attributes they are given, keep their kind and
density and say nothing that the kind does not know. A call with a key that the kind has no attribute for,
in any case of its ASCII letters, or with a value that cannot be read, is refused and changes nothing; any
other is accepted and sets the fields of its attribute only. So each field holds what the last accepted
call that names it gave it, and what it was made with if there is none. -/
theorem holds_last_given {kind : Kind} {p₀ : Params} (fresh : p₀.Fresh kind) (calls : List (String × Value)) :
    let p := p₀.setAttributes calls
    p.kind = kind ∧ p.density = p₀.density ∧ p.KeepsToKind ∧
      (∀ key value,
        ((p.setAttribute key value).1 = true ↔
          ∃ a ∈ kind.attributes, Text.sameLetters key a.name = true ∧ a.reads p₀.density value = true) ∧
        ((p.setAttribute key value).1 = false → (p.setAttribute key value).2 = p) ∧
        ((p.setAttribute key value).1 = true → ∃ a ∈ kind.attributes, Text.sameLetters key a.name = true ∧
          p.Sets (p.setAttribute key value).2 a value)) ∧
      ∀ f, p.get f = (calls.reverse.findSome? fun call => kind.given? p₀.density call f).getD ((new kind).get f) := by
  have hkind : p₀.kind = kind := by rw [fresh.eq]; rfl
  refine ⟨(kind_setAttributes calls p₀).trans hkind, density_setAttributes calls p₀, fresh.keepsToKind calls,
    fun key value => ⟨?_, fun hrefused => ?_, fun haccepted => ?_⟩, fun f => ?_⟩
  · rw [setAttribute_accepts_iff, kind_setAttributes, density_setAttributes, hkind]
  · obtain ⟨a, -, -, htrue, -⟩ | ⟨-, hsame⟩ := (p₀.setAttributes calls).setAttribute_cases key value
    · rw [htrue] at hrefused
      cases hrefused
    · rw [hsame]
  · obtain ⟨a, hkey, -, -, hsets⟩ | ⟨-, hsame⟩ := (p₀.setAttributes calls).setAttribute_cases key value
    · rw [kind_setAttributes, hkind] at hkey
      exact ⟨a, (attribute?_eq_some.1 hkey).1, (attribute?_eq_some.1 hkey).2, hsets⟩
    · rw [hsame] at haccepted
      cases haccepted
  · rw [get_setAttributes, hkind, fresh.get]

/-- Of two attributes that name the left margin the later counts, and an attribute of another kind
changes nothing. -/
theorem linear_holds_last_given :
    Fresh { new .linear with density := 2 } .linear ∧
      let p := ({ new .linear with density := 2 } : Params).setAttributes
        [("WIDTH", .text " Match_Parent"), ("marginLeft", .number 1), ("Margin", .number 4),
          ("marginTop", .text "3"), ("below", .text "title"), ("height", .flag true)]
      p.kind = .linear ∧ p.density = 2 ∧ p.KeepsToKind ∧ p.get .width = .size .matchParent ∧
        p.get .left = .number 8 ∧ p.get .top = .number 6 ∧ p.get .height = .size .wrapContent ∧
        p.get (.rule "below") = .text none ∧ (p.setAttribute "x" (.number 5)).2 = p := by
  have hdensity : validDensity 2 = true := by decide +kernel
  have fresh : Fresh { new .linear with density := 2 } .linear := .inr ⟨⟨2, none⟩, if_pos hdensity⟩
  obtain ⟨hkind, hdensity, hkeeps, hcalls, hget⟩ := holds_last_given fresh
    [("WIDTH", .text " Match_Parent"), ("marginLeft", .number 1), ("Margin", .number 4),
      ("marginTop", .text "3"), ("below", .text "title"), ("height", .flag true)]
  refine ⟨fresh, hkind, hdensity, hkeeps, ?_, ?_, ?_, ?_, ?_, (hcalls "x" (.number 5)).2.1 ?_⟩
  · rw [hget]; decide +kernel
  · rw [hget]; decide +kernel
  · rw [hget]; decide +kernel
  · rw [hget]; decide +kernel
  · rw [hget]; decide +kernel
  · rw [Bool.eq_false_iff, ne_eq, (hcalls "x" (.number 5)).1]
    decide

end Params

end LiveScreen.Layout
