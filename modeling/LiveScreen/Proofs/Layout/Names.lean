/-
What the names of layout parameters stand for. A catalog is asked in two ways, for
the kind of a name (`kindFor`) and for parameters (`resolve`). Both go by the kind
the name was given last (`Catalog.given?`). They part where a name was never given:
the first falls back to the fallback kind, the second to whatever the name of the
fallback kind was given last, which need not be the same kind (`agree_iff`).
-/
import LiveScreen.Layout.Catalog

namespace LiveScreen.Layout.Catalog

/-- The catalogs that can be made: the standard one, and those with further names. -/
inductive Built : Catalog → Prop
  | standard : Built .standard
  | addName {c : Catalog} (built : Built c) (name : String) (kind : Kind) : Built (c.addName name kind)

/-- Adds names for kinds, one after the other. -/
def addNames (c : Catalog) (names : List (String × Kind)) : Catalog := names.foldl (fun c n => c.addName n.1 n.2) c

/-- The kind that a name was given last: by one of the further names, else as the markup name of a kind. -/
def given? (names : List (String × Kind)) (name : String) : Option Kind :=
  ((names.reverse.find? fun n => normalize n.1 = normalize name).map (·.2)).or (Kind.ofName? (normalize name))

/-! ## What a catalog holds -/

theorem fallback_addNames : ∀ (names : List (String × Kind)) (c : Catalog), (c.addNames names).fallback = c.fallback
  | [], _ => rfl
  | _ :: names, _ => fallback_addNames names _

theorem entries_addNames : ∀ (names : List (String × Kind)) (c : Catalog),
    (c.addNames names).kinds.entries =
      c.kinds.entries.insertAll (names.map fun n => (normalize n.1, Params.ofContext n.2))
  | [], _ => rfl
  | _ :: names, _ => entries_addNames names _

/-- A name makes parameters of the kind it was added for last. -/
theorem get?_addNames (key : String) (names : List (String × Kind)) (c : Catalog) :
    (c.addNames names).kinds.entries.get? key =
      ((names.reverse.find? fun n => normalize n.1 = key).map fun n => Params.ofContext n.2).or
        (c.kinds.entries.get? key) := by
  rw [entries_addNames, Table.get?_insertAll, ← List.map_reverse, List.find?_map, Option.map_map]
  simp only [Function.comp_def]

/-- A markup name is stored as it is. -/
theorem normalize_name (kind : Kind) : normalize kind.name = kind.name := by cases kind <;> decide +kernel

theorem ofName?_eq_some {kind : Kind} : ∀ {key : String}, Kind.ofName? key = some kind ↔ kind.name = key := by
  intro key
  constructor
  · intro h
    simpa using List.find?_some h
  · rintro rfl
    cases kind <;> decide

/-- The standard catalog makes parameters of the kinds under their markup names. -/
theorem get?_standard (key : String) :
    (Catalog.standard.kinds.entries.get? key) = (Kind.ofName? key).map Params.ofContext := by
  have hstandard : Catalog.standard =
      (⟨.new "params", .fallback⟩ : Catalog).addNames (Kind.all.map fun kind => (kind.name, kind)) := by
    simp only [standard, addNames, List.foldl_map]
  rw [hstandard, get?_addNames, ← List.map_reverse, List.find?_map, Option.map_map]
  simp only [Function.comp_def, normalize_name]
  rw [show (⟨.new "params", .fallback⟩ : Catalog).kinds.entries.get? key = none from rfl, Option.or_none]
  congr 1
  cases h : Kind.all.reverse.find? fun kind => kind.name = key with
  | some kind => exact (ofName?_eq_some.2 (by simpa using List.find?_some h)).symm
  | none =>
    refine (List.find?_eq_none.2 fun kind hkind => ?_).symm
    simpa using List.find?_eq_none.1 h kind (List.mem_reverse.2 hkind)

/-- A catalog with further names makes parameters of the kind a name was given last. -/
theorem get?_names (names : List (String × Kind)) (name : String) :
    (Catalog.standard.addNames names).kinds.entries.get? (normalize name) =
      (given? names name).map Params.ofContext := by
  rw [get?_addNames, get?_standard, given?, Option.map_or, Option.map_map]
  rfl

/-- The catalogs that can be made are the standard one with further names. -/
theorem Built.names {c : Catalog} (h : c.Built) : ∃ names, c = Catalog.standard.addNames names := by
  induction h with
  | standard => exact ⟨[], by rw [addNames, List.foldl_nil]⟩
  | addName _ name kind ih =>
    obtain ⟨names, rfl⟩ := ih
    exact ⟨names ++ [(name, kind)], by simp only [addNames, List.foldl_append, List.foldl_cons, List.foldl_nil]⟩

/-! ## What it is asked for -/

section Names

variable {names : List (String × Kind)} {context : Context}

theorem contains_names (name : String) :
    (Catalog.standard.addNames names).kinds.contains name = (given? names name).isSome := by
  rw [Registry.contains, Table.contains, get?_names, Option.isSome_map]

theorem resolve_kinds (name : String) (context : Context) :
    (Catalog.standard.addNames names).kinds.resolve name context =
      (given? names name).bind fun kind => (Params.ofContext kind context).toOption := by
  rw [Registry.resolve, get?_names]
  cases given? names name <;> rfl

/-- Parameters of a kind for a context whose density scales something. -/
theorem ofContext_eq (kind : Kind) (hd : validDensity context.density = true) :
    (Params.ofContext kind context).toOption = some { Params.new kind with density := context.density } := by
  simp only [Params.ofContext, hd, if_true, Except.toOption]

/-- Every further name apart, the markup name of the fallback kind stands for something. -/
theorem given?_fallback (names : List (String × Kind)) : ∃ kind, given? names Kind.fallback.name = some kind := by
  rw [← Option.isSome_iff_exists, given?, normalize_name, ofName?_eq_some.2 rfl, Option.isSome_or, Option.isSome_some,
    Bool.or_true]

/-- The kind of a name is the one it was given last, the fallback kind if it was never given. -/
theorem kindFor_names (name : Option String) :
    (Catalog.standard.addNames names).kindFor name = (name.bind (given? names)).getD .fallback := by
  have hd : validDensity Context.standard.density = true := by decide +kernel
  have hfallback : (Catalog.standard.addNames names).fallback = .fallback := fallback_addNames names _
  cases name with
  | none => exact hfallback
  | some n =>
    simp only [kindFor, Option.bind_some, resolve_kinds, ofContext_eq _ hd, hfallback]
    cases given? names n <;> rfl

/-- Parameters are made for the kind a name was given last, for the one the name of the fallback kind
was given last if it was never given. -/
theorem resolve_names (name : Option String) (context : Context) :
    (Catalog.standard.addNames names).resolve name context =
      ((name.bind (given? names)).or (given? names Kind.fallback.name)).bind fun kind =>
        (Params.ofContext kind context).toOption := by
  have hfallback : (Catalog.standard.addNames names).fallback = .fallback := fallback_addNames names _
  cases name with
  | none => simp only [resolve, hfallback, resolve_kinds, Option.bind_none, Option.none_or]
  | some n =>
    simp only [resolve, hfallback, resolve_kinds, contains_names, Option.bind_some]
    cases given? names n <;> rfl

end Names

/-- In a context whose density scales something there are parameters, whatever they are asked for by. -/
theorem Built.resolve {c : Catalog} (h : c.Built) {context : Context} (hd : validDensity context.density = true)
    (name : Option String) : ∃ params, c.resolve name context = some params := by
  obtain ⟨names, rfl⟩ := h.names
  obtain ⟨kind, hkind⟩ := given?_fallback names
  rw [resolve_names, hkind]
  cases name.bind (given? names) with
  | none => exact ⟨_, ofContext_eq _ hd⟩
  | some kind' => exact ⟨_, ofContext_eq _ hd⟩

/-- In a context whose density scales nothing there are none. -/
theorem Built.resolve_eq_none {c : Catalog} (h : c.Built) {context : Context}
    (hd : validDensity context.density = false) (name : Option String) : c.resolve name context = none := by
  obtain ⟨names, rfl⟩ := h.names
  rw [resolve_names, Option.bind_eq_none_iff]
  intro kind _
  simp only [Params.ofContext, hd, Bool.false_eq_true, if_false, Except.toOption]

/-- **When the two answers agree.** In a context whose density scales something there are parameters for
every name, at that density. They are of the kind of the name exactly if the name was ever given, or if
the fallback kind still goes by its own name. -/
theorem agree_iff (names : List (String × Kind)) (name : Option String) {context : Context}
    (hd : validDensity context.density = true) :
    ∃ params, (Catalog.standard.addNames names).resolve name context = some params ∧
      params.density = context.density ∧
      some params.kind = (name.bind (given? names)).or (given? names Kind.relative.name) ∧
      (Catalog.standard.addNames names).kindFor name = (name.bind (given? names)).getD .relative ∧
      (params.kind = (Catalog.standard.addNames names).kindFor name ↔
        (name.bind (given? names)).isSome = true ∨ given? names Kind.relative.name = some .relative) := by
  obtain ⟨kind, hkind⟩ := given?_fallback names
  rw [show Kind.fallback = .relative from rfl] at hkind
  rw [resolve_names, kindFor_names, show Kind.fallback = .relative from rfl, hkind]
  cases name.bind (given? names) with
  | none => exact ⟨_, ofContext_eq kind hd, rfl, rfl, rfl, by simp [Params.new]⟩
  | some kind' => exact ⟨_, ofContext_eq kind' hd, rfl, rfl, rfl, by simp [Params.new]⟩

/-- A further name counts in any case and with white space around it. -/
theorem gridLayout_agrees :
    validDensity 2 = true ∧ given? [("GridLayoutParams", .margin)] " gridlayoutPARAMS" = some .margin ∧
      ∃ params,
        (Catalog.standard.addNames [("GridLayoutParams", .margin)]).resolve (some " gridlayoutPARAMS") ⟨2, none⟩ =
            some params ∧
          params.density = 2 ∧ params.kind = .margin ∧
          (Catalog.standard.addNames [("GridLayoutParams", .margin)]).kindFor (some " gridlayoutPARAMS") =
            .margin := by
  have hd : validDensity (Context.density ⟨2, none⟩) = true := by decide +kernel
  have hadded : normalize "GridLayoutParams" = "gridlayoutparams" := by decide +kernel
  have hasked : normalize " gridlayoutPARAMS" = "gridlayoutparams" := by decide +kernel
  have hgiven : given? [("GridLayoutParams", .margin)] " gridlayoutPARAMS" = some .margin := by
    simp [given?, hadded, hasked]
  obtain ⟨params, hresolve, hdensity, hkind, hfor, -⟩ :=
    agree_iff [("GridLayoutParams", .margin)] (some " gridlayoutPARAMS") hd
  rw [Option.bind_some, hgiven] at hkind hfor
  exact ⟨hd, hgiven, params, hresolve, hdensity, Option.some.inj hkind, hfor⟩

/-- Once the name of the fallback kind was given to another kind, views without a name for their
parameters have the fallback kind, but get parameters of the other. -/
theorem renamedFallback_disagrees :
    validDensity Context.standard.density = true ∧
      (Catalog.standard.addNames [("relativelayoutparams", .frame)]).kindFor none = .relative ∧
      ((Catalog.standard.addNames [("relativelayoutparams", .frame)]).resolve none .standard).map (·.kind) =
        some .frame := by
  have hd : validDensity Context.standard.density = true := by decide +kernel
  have hstored : normalize "relativelayoutparams" = "relativelayoutparams" := normalize_name .relative
  have hgiven : given? [("relativelayoutparams", .frame)] Kind.fallback.name = some .frame := by
    simp [given?, hstored, Kind.fallback, Kind.name]
  refine ⟨hd, kindFor_names none, ?_⟩
  rw [resolve_names, Option.bind_none, Option.none_or, hgiven, Option.bind_some, ofContext_eq _ hd]
  rfl

end LiveScreen.Layout.Catalog
