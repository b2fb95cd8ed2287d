/-
What a tree of animations leaves on a node. The plugins of a tree are walked depth first
and from left to right (`PluginDecl.walk`). A leaf is a usable animation other than a set
that is nested in nothing but usable sets; whatever else is declared leaves no trace. An
animation that is built of a tree does to a node what its leaves do one after the other, and
done once more it changes nothing (`BuildRequest.plays_leaves`).
-/
import LiveScreen.Proofs.Scene.Parts
import LiveScreen.Proofs.Markup.Erasure
import LiveScreen.Proofs.Animation.Written
import LiveScreen.Proofs.Text.Normal

namespace LiveScreen

/-! ## Pairs that are stored again -/

namespace Table

variable {κ α : Type} [DecidableEq κ]

theorem entries_eq (d : Table κ α) : d.entries = d.keys.filterMap fun k => (d.get? k).map (k, ·) := by
  rw [keys, List.filterMap_map]
  refine (List.filterMap_some.symm.trans (List.filterMap_congr fun e he => ?_))
  rw [Function.comp, d.mem_entries_iff.1 he, Option.map_some]

/-- A table is known by its keys in their order and by what it holds. -/
theorem ext_get? {d d' : Table κ α} (hkeys : d.keys = d'.keys) (hget : ∀ k, d.get? k = d'.get? k) : d = d' := by
  refine ext_entries ?_
  rw [entries_eq d, entries_eq d', hkeys]
  exact List.filterMap_congr fun k _ => by rw [hget]

theorem map_put_of_mem {k : κ} (v : α) : ∀ {es : List (κ × α)}, k ∈ es.map (·.1) →
    (put k v es).map (·.1) = es.map (·.1)
  | (k', v') :: rest, h => by
    rw [put]
    split
    · next heq => rw [List.map_cons, List.map_cons, heq]
    · next hne => rw [List.map_cons, List.map_cons, map_put_of_mem v ((List.mem_cons.1 h).resolve_left (Ne.symm hne))]

/-- Keys that are present keep their places. -/
theorem keys_insertAll_of_mem : ∀ {pairs : List (κ × α)} {d : Table κ α}, (∀ p ∈ pairs, p.1 ∈ d.keys) →
    (d.insertAll pairs).keys = d.keys
  | [], _, _ => rfl
  | p :: pairs, d, h => by
    have hkeys : (d.insert p.1 p.2).keys = d.keys := map_put_of_mem p.2 (h p List.mem_cons_self)
    rw [insertAll, List.foldl_cons, ← insertAll, keys_insertAll_of_mem, hkeys]
    exact fun q hq => hkeys ▸ h q (List.mem_cons_of_mem p hq)

theorem insertAll_append (d : Table κ α) (pairs more : List (κ × α)) :
    d.insertAll (pairs ++ more) = (d.insertAll pairs).insertAll more := List.foldl_append

theorem insertAll_flatMap {β : Type} (f : β → List (κ × α)) (bs : List β) (d : Table κ α) :
    d.insertAll (bs.flatMap f) = bs.foldl (fun d b => d.insertAll (f b)) d := by
  induction bs generalizing d with
  | nil => rfl
  | cons b bs ih => rw [List.flatMap_cons, insertAll_append, ih, List.foldl_cons]

theorem get?_insertAll_of_notMem {d : Table κ α} {pairs : List (κ × α)} {k : κ} (h : k ∉ pairs.map (·.1)) :
    (d.insertAll pairs).get? k = d.get? k := by
  have hnone : (pairs.reverse.find? fun p => p.1 = k) = none :=
    List.find?_eq_none.2 fun p hp heq => h (List.mem_map.2 ⟨p, List.mem_reverse.1 hp, by simpa using heq⟩)
  rw [get?_insertAll, hnone, Option.map_none, Option.none_or]

/-- Where no key is stored twice each gets its value. -/
theorem get?_insertAll_of_mem {d : Table κ α} {pairs : List (κ × α)} (hnodup : (pairs.map (·.1)).Nodup) {k : κ} {v : α}
    (h : (k, v) ∈ pairs) : (d.insertAll pairs).get? k = some v := by
  obtain ⟨before, after, rfl⟩ := List.append_of_mem h
  have hafter : k ∉ after.map (·.1) := by
    rw [List.map_append, List.map_cons] at hnodup
    exact (List.nodup_cons.1 hnodup.of_append_right).1
  rw [← List.singleton_append, ← List.append_assoc, insertAll_append, get?_insertAll_of_notMem hafter, insertAll_append]
  exact get?_insert_self ..

/-- Storing the same pairs once more changes nothing. -/
theorem insertAll_insertAll (d : Table κ α) (pairs : List (κ × α)) :
    (d.insertAll pairs).insertAll pairs = d.insertAll pairs := by
  refine ext_get? (keys_insertAll_of_mem fun p hp => (mem_keys _ _).2 ?_) fun k => ?_
  · have hsome : (pairs.reverse.find? fun q => q.1 = p.1).isSome :=
      List.find?_isSome.2 ⟨p, List.mem_reverse.2 hp, by simp⟩
    obtain ⟨q, hq⟩ := Option.isSome_iff_exists.1 hsome
    exact ⟨q.2, by rw [get?_insertAll, hq]; rfl⟩
  · rw [get?_insertAll, get?_insertAll, ← Option.or_assoc, Option.or_self]

end Table

/-! ## Sets are made empty -/

theorem Registry.resolve_register {ι α : Type} (r : Registry ι α) (key key' : String) (factory : Factory ι α)
    (input : ι) : (r.register key factory).resolve key' input =
      if normalize key' = normalize key then (factory input).toOption else r.resolve key' input := by
  rw [resolve, register, Table.get?_insert]
  by_cases h : normalize key' = normalize key
  · simp only [if_pos h]
  · simp only [if_neg h, resolve]

/-- The sets that are made have nothing in them. -/
def MakesEmptySets (r : AnimationRegistry) : Prop :=
  ∀ key center children declared, r.resolve key center = some (.set children declared) → children = []

/-- What the builtin animations and the fade are made as. -/
theorem resolve_builtin (key : String) (center : AnimationCenter) :
    (Registries.builtin.withProbes).animations.resolve key center =
      if normalize key = "fade" then some (.fade 0)
      else if normalize key = "animationlist" then some (.frames .new)
      else if normalize key = "translateanimation" then ((Translate.new center.context.density).map .translate).toOption
      else if normalize key = "scaleanimation" then some (.scale .new)
      else if normalize key = "rotateanimation" then some (.rotate .new)
      else if normalize key = "animationset" then some (.set [] none)
      else if normalize key = "alphaanimation" then some (.alpha .new) else none := by
  have hfade : normalize "fade" = "fade" := normalize_eq_iff.2 (by decide +kernel)
  have hframes : normalize "animationlist" = "animationlist" := normalize_eq_iff.2 (by decide +kernel)
  have htranslate : normalize "translateanimation" = "translateanimation" := normalize_eq_iff.2 (by decide +kernel)
  have hscale : normalize "scaleanimation" = "scaleanimation" := normalize_eq_iff.2 (by decide +kernel)
  have hrotate : normalize "rotateanimation" = "rotateanimation" := normalize_eq_iff.2 (by decide +kernel)
  have hset : normalize "animationset" = "animationset" := normalize_eq_iff.2 (by decide +kernel)
  have halpha : normalize "alphaanimation" = "alphaanimation" := normalize_eq_iff.2 (by decide +kernel)
  simp only [Registries.withProbes, Registries.add, Registries.builtin, Animation.registerBuiltins,
    Registry.resolve_register, hfade, hframes, htranslate, hscale, hrotate, hset, halpha]
  rfl

theorem makesEmptySets_builtin : MakesEmptySets (Registries.builtin.withProbes).animations := by
  intro key center children declared h
  have htranslate : ((Translate.new center.context.density).map Animation.translate).toOption ≠
      some (.set children declared) := by
    cases Translate.new center.context.density <;> simp [Except.map, Except.toOption]
  rw [resolve_builtin] at h
  split_ifs at h <;> simp_all

/-! ## The leaves of a tree -/

namespace PluginDecl

mutual

/-- A plugin and those nested in it, depth first and from left to right, each with those it is nested in, the
innermost first. -/
def walk (outer : List PluginDecl) : PluginDecl → List (List PluginDecl × PluginDecl)
  | .mk name attributes children =>
    (outer, .mk name attributes children) :: walkAll (.mk name attributes children :: outer) children

/-- Several plugins next to each other and those nested in them. -/
def walkAll (outer : List PluginDecl) : List PluginDecl → List (List PluginDecl × PluginDecl)
  | [] => []
  | d :: rest => walk outer d ++ walkAll outer rest

end

mutual

/-- What a plugin is nested in, all those nested in it are. -/
theorem suffix_of_mem_walk {outer : List PluginDecl} :
    ∀ {d : PluginDecl} {e : List PluginDecl × PluginDecl}, e ∈ d.walk outer → outer <:+ e.1
  | .mk name attributes children, e, h => by
    rw [walk] at h
    cases h with
    | head => exact List.suffix_refl outer
    | tail _ h => exact (List.suffix_cons _ outer).trans (suffix_of_mem_walkAll h)

theorem suffix_of_mem_walkAll {outer : List PluginDecl} :
    ∀ {ds : List PluginDecl} {e : List PluginDecl × PluginDecl}, e ∈ walkAll outer ds → outer <:+ e.1
  | [], e, h => by
    rw [walkAll] at h
    cases h
  | d :: rest, e, h => by
    rw [walkAll] at h
    obtain h | h := List.mem_append.1 h
    · exact suffix_of_mem_walk h
    · exact suffix_of_mem_walkAll h

end

end PluginDecl

namespace BuildRequest

variable (r : BuildRequest)

/-- Whether a plugin is a usable set. -/
def isSet (d : PluginDecl) : Bool := (r.bareAnimation? d.name d.attributes).any Animation.takesChildren

/-- The animation of a usable plugin other than a set. What is nested in it is left out. -/
def single? (d : PluginDecl) : Option Animation :=
  (r.bareAnimation? d.name d.attributes).filter fun a => !a.takesChildren

/-- The animation of a plugin that is a leaf where it is nested. -/
def leaf? (e : List PluginDecl × PluginDecl) : Option Animation :=
  if e.1.all r.isSet then r.single? e.2 else none

/-- The leaves of a tree in the order of the walk. -/
def leaves (d : PluginDecl) : List Animation := (d.walk []).filterMap r.leaf?

variable {r}

theorem takesChildren_of_mem_leaves {d : PluginDecl} {leaf : Animation} (h : leaf ∈ r.leaves d) :
    leaf.takesChildren = false := by
  obtain ⟨e, -, he⟩ := List.mem_filterMap.1 h
  rw [leaf?] at he
  split at he
  · rw [single?, Option.filter_eq_some_iff] at he
    simpa using he.2
  · cases he

/-- Nothing that is nested in something else than usable sets is a leaf. -/
theorem filterMap_leaf?_of_blocked {outer : List PluginDecl} {es : List (List PluginDecl × PluginDecl)}
    (hall : outer.all r.isSet = false) (hsuffix : ∀ e ∈ es, outer <:+ e.1) : es.filterMap r.leaf? = [] := by
  rw [List.filterMap_eq_nil_iff]
  intro e he
  obtain ⟨inner, hinner⟩ := hsuffix e he
  rw [leaf?, ← hinner, List.all_append, hall, Bool.and_false, if_neg Bool.false_ne_true]

theorem animation?_mk (name : String) (attributes : Attributes) (children : List PluginDecl) :
    r.animation? (.mk name attributes children) = (r.bareAnimation? name attributes).map (r.nest children) := by
  rw [animation?]
  cases r.bareAnimation? name attributes <;> rfl

theorem nest_set (children : List Animation) (declared : Option Duration) (ds : List PluginDecl) :
    r.nest ds (.set children declared) = .set (children ++ ds.filterMap r.animation?) declared := by
  induction ds generalizing children with
  | nil => rw [nest, List.filterMap_nil, List.append_nil]
  | cons d rest ih =>
    rw [nest]
    cases h : r.animation? d with
    | none =>
      rw [List.filterMap_cons_none h]
      exact ih children
    | some child =>
      rw [List.filterMap_cons_some h, List.append_cons]
      exact ih (children ++ [child])

theorem bareAnimation?_eq_bind (name : String) (attributes : Attributes) :
    r.bareAnimation? name attributes = (r.registries.animations.resolve name r.center).bind fun a =>
      (a.configure attributes).1.toOption.map fun _ => (a.configure attributes).2 := by
  rw [bareAnimation?]
  cases r.registries.animations.resolve name r.center with
  | none => rfl
  | some a =>
    simp only [Option.bind_some]
    obtain ⟨result, a'⟩ := a.configure attributes
    cases result <;> rfl

theorem children_of_bareAnimation? (hempty : MakesEmptySets r.registries.animations) {name : String}
    {attributes : Attributes} {children : List Animation} {declared : Option Duration}
    (h : r.bareAnimation? name attributes = some (.set children declared)) : children = [] := by
  rw [bareAnimation?_eq_bind, Option.bind_eq_some_iff] at h
  obtain ⟨a, hresolve, hconfigure⟩ := h
  obtain ⟨-, -, hset⟩ := Option.map_eq_some_iff.1 hconfigure
  cases a with
  | set children' declared' =>
    obtain rfl := hempty name r.center children' declared' hresolve
    rw [Animation.configure, Prod.map_snd] at hset
    cases hset
    rfl
  | _ =>
    rw [Animation.configure] at hset
    cases hset

mutual

/-- Nested in usable sets only, an animation leaves what its leaves leave. -/
theorem flatMap_endState_walk (hempty : MakesEmptySets r.registries.animations) {outer : List PluginDecl}
    (houter : outer.all r.isSet = true) : ∀ d : PluginDecl,
    ((d.walk outer).filterMap r.leaf?).flatMap Animation.endState = (r.animation? d).toList.flatMap Animation.endState
  | .mk name attributes children => by
    have hleaf : r.leaf? (outer, .mk name attributes children) =
        (r.bareAnimation? name attributes).filter fun a => !a.takesChildren := by
      rw [leaf?, if_pos houter]
      rfl
    have hset : (PluginDecl.mk name attributes children :: outer).all r.isSet =
        (r.bareAnimation? name attributes).any Animation.takesChildren := by
      rw [List.all_cons, houter, Bool.and_true]
      rfl
    -- an unusable plugin and an animation that takes no others both block what is nested in them
    have hblocked : (PluginDecl.mk name attributes children :: outer).all r.isSet = false →
        (PluginDecl.walkAll (.mk name attributes children :: outer) children).filterMap r.leaf? = [] :=
      fun hall => filterMap_leaf?_of_blocked hall fun e => PluginDecl.suffix_of_mem_walkAll
    rw [PluginDecl.walk, animation?_mk]
    cases hbare : r.bareAnimation? name attributes with
    | none =>
      rw [hbare] at hleaf hset
      rw [List.filterMap_cons_none hleaf, hblocked hset]
      rfl
    | some a =>
      rw [hbare, Option.filter_some] at hleaf
      rw [hbare, Option.any_some] at hset
      cases htakes : a.takesChildren with
      | false =>
        rw [htakes] at hleaf hset
        rw [List.filterMap_cons_some hleaf, hblocked hset, Option.map_some, r.nest_of_refusing htakes]
        rfl
      | true =>
        rw [htakes] at hleaf hset
        cases a with
        | set nested declared =>
          obtain rfl := children_of_bareAnimation? hempty hbare
          rw [List.filterMap_cons_none hleaf, flatMap_endState_walkAll hempty hset children, Option.map_some, nest_set,
            Option.toList_some, List.flatMap_singleton, Animation.endState, Animation.endStates_eq, List.nil_append]
        | _ => cases htakes

theorem flatMap_endState_walkAll (hempty : MakesEmptySets r.registries.animations) {outer : List PluginDecl}
    (houter : outer.all r.isSet = true) : ∀ ds : List PluginDecl,
    ((PluginDecl.walkAll outer ds).filterMap r.leaf?).flatMap Animation.endState =
      (ds.filterMap r.animation?).flatMap Animation.endState
  | [] => by rw [PluginDecl.walkAll, List.filterMap_nil, List.filterMap_nil]
  | d :: rest => by
    rw [PluginDecl.walkAll, List.filterMap_append, List.flatMap_append, flatMap_endState_walk hempty houter d,
      flatMap_endState_walkAll hempty houter rest]
    cases h : r.animation? d with
    | none => rw [List.filterMap_cons_none h, Option.toList_none, List.flatMap_nil, List.nil_append]
    | some a => rw [List.filterMap_cons_some h, Option.toList_some, List.flatMap_singleton, List.flatMap_cons]

end

end BuildRequest

/-! ## What it leaves on a node -/

/-- An animation other than a set writes no attribute twice. -/
theorem Animation.nodup_endState {a : Animation} (h : a.takesChildren = false) : (a.endState.map (·.1)).Nodup := by
  cases a with
  | set children declared => cases h
  | frames f =>
    rw [endState]
    split <;> simp
  | _ => simp [endState]

namespace BuildRequest

/-- **A tree of animations plays its leaves.** -/
theorem plays_leaves (r : BuildRequest) (hempty : MakesEmptySets r.registries.animations) {d : PluginDecl}
    {a : Animation} (hbuilt : r.animation? d = some a) (node : Attributes) :
    a.apply node = (r.leaves d).foldl (fun node leaf => leaf.apply node) node ∧
    (∀ before leaf later key v, r.leaves d = before ++ leaf :: later → (key, v) ∈ leaf.endState →
      (∀ other ∈ later, key ∉ other.endState.map (·.1)) → (a.apply node).get? key = some v) ∧
    (∀ key, (∀ leaf ∈ r.leaves d, key ∉ leaf.endState.map (·.1)) → (a.apply node).get? key = node.get? key) ∧
    a.apply (a.apply node) = a.apply node := by
  have hstate : a.endState = (r.leaves d).flatMap Animation.endState := by
    rw [leaves, flatMap_endState_walk hempty rfl d, hbuilt, Option.toList_some, List.flatMap_singleton]
  refine ⟨?_, fun before leaf later key v hsplit hmem hlast => ?_, fun key hnone => ?_,
    Table.insertAll_insertAll node _⟩
  · rw [Animation.apply, hstate, Table.insertAll_flatMap]
    rfl
  · have hleaf : leaf ∈ r.leaves d := by simp [hsplit]
    have hlater : key ∉ (later.flatMap Animation.endState).map (·.1) := by
      rw [List.map_flatMap, List.mem_flatMap]
      rintro ⟨other, hother, hkey⟩
      exact hlast other hother hkey
    rw [Animation.apply, hstate, hsplit, List.flatMap_append, List.flatMap_cons, Table.insertAll_append,
      Table.insertAll_append, Table.get?_insertAll_of_notMem hlater]
    exact Table.get?_insertAll_of_mem (Animation.nodup_endState (takesChildren_of_mem_leaves hleaf)) hmem
  · rw [Animation.apply, hstate]
    refine Table.get?_insertAll_of_notMem ?_
    rw [List.map_flatMap, List.mem_flatMap]
    rintro ⟨leaf, hleaf, hkey⟩
    exact hnone leaf hleaf hkey

/-- A request with the builtin animations and the fade. -/
def showRequest : BuildRequest where
  registries := Registries.builtin.withProbes
  context := .standard
  env := .empty
  binder := .host 0
  tasks := .host 0
  animations := .host 0
  center := .new .standard

/-- A set of a fade, a set and a change of size. In the inner set are a turn, a plugin that nobody knows and a set
whose time is refused, each with a change of opacity in it. -/
def lightShow : PluginDecl :=
  .mk "AnimationSet" .empty
    [.mk "fade" (.ofList [("to", .number 0.25)]) [],
      .mk "AnimationSet" .empty
        [.mk "RotateAnimation" (.ofList [("pivotX", .number 1)]) [.mk "AlphaAnimation" .empty []],
          .mk "wobble" .empty [.mk "AlphaAnimation" .empty []],
          .mk "AnimationSet" (.ofList [("duration", .flag true)]) [.mk "AlphaAnimation" .empty []]],
      .mk "ScaleAnimation" (.ofList [("pivotX", .number 3)]) []]

theorem bareAnimation?_lightShow :
    showRequest.bareAnimation? "AnimationSet" .empty = some (.set [] none) ∧
    showRequest.bareAnimation? "fade" (.ofList [("to", .number 0.25)]) = some (.fade 0.25) ∧
    showRequest.bareAnimation? "RotateAnimation" (.ofList [("pivotX", .number 1)]) =
      some (.rotate { Rotate.new with pivot := ⟨1, 0⟩ }) ∧
    showRequest.bareAnimation? "wobble" .empty = none ∧
    showRequest.bareAnimation? "AnimationSet" (.ofList [("duration", .flag true)]) = none ∧
    showRequest.bareAnimation? "ScaleAnimation" (.ofList [("pivotX", .number 3)]) =
      some (.scale { Scale.new with pivot := ⟨3, 0⟩ }) := by
  have hset : normalize "AnimationSet" = "animationset" := normalize_eq_iff.2 (by decide +kernel)
  have hfade : normalize "fade" = "fade" := normalize_eq_iff.2 (by decide +kernel)
  have hrotate : normalize "RotateAnimation" = "rotateanimation" := normalize_eq_iff.2 (by decide +kernel)
  have hwobble : normalize "wobble" = "wobble" := normalize_eq_iff.2 (by decide +kernel)
  have hscale : normalize "ScaleAnimation" = "scaleanimation" := normalize_eq_iff.2 (by decide +kernel)
  have hto : Table.get? (.ofList [("to", .number 0.25)] : Attributes) "to" = some (.number 0.25) := by decide +kernel
  have hunset : Dict.getAnyCase? (.empty : Attributes) "duration" = none := by decide +kernel
  have hflag : Dict.getAnyCase? (.ofList [("duration", .flag true)] : Attributes) "duration" = some (.flag true) := by
    decide +kernel
  have hpivot : ∀ x : Float, x = 1 ∨ x = 3 →
      Dict.getAnyCase? (.ofList [("pivotX", .number x)] : Attributes) "pivotx" = some (.number x) ∧
      x.isFinite = true ∧
      ∀ key ∈ ["fromdegrees", "todegrees", "fromxscale", "fromyscale", "toxscale", "toyscale", "pivoty", "duration"],
        Dict.getAnyCase? (.ofList [("pivotX", .number x)] : Attributes) key = none := by
    rintro x (rfl | rfl) <;> decide +kernel
  have hmade (name : String) : showRequest.registries.animations.resolve name showRequest.center = _ :=
    resolve_builtin name _
  simp [bareAnimation?_eq_bind, hmade, hset, hfade, hrotate, hwobble, hscale, hto, hunset, hflag, hpivot,
    Animation.configure, Reading.run, Rotate.readings, Scale.readings, Reading.number, Reading.time,
    Reading.timeOrUnset, Reading.optional, Reading.timeOf, Value.finite?, Value.asNumber, Except.map,
    Except.toOption, Rotate.new, Scale.new, Pair.zero]

theorem leaves_lightShow : showRequest.leaves lightShow =
    [.fade 0.25, .rotate { Rotate.new with pivot := ⟨1, 0⟩ }, .scale { Scale.new with pivot := ⟨3, 0⟩ }] := by
  obtain ⟨hset, hfade, hrotate, hwobble, hrefused, hscale⟩ := bareAnimation?_lightShow
  have htakes : (Animation.set [] none).takesChildren = true := rfl
  have hturns : (Animation.rotate { Rotate.new with pivot := ⟨1, 0⟩ }).takesChildren = false := rfl
  have hfades : (Animation.fade 0.25).takesChildren = false := rfl
  have hscales : (Animation.scale { Scale.new with pivot := ⟨3, 0⟩ }).takesChildren = false := rfl
  simp [leaves, lightShow, PluginDecl.walk, PluginDecl.walkAll, leaf?, isSet, single?, PluginDecl.name,
    PluginDecl.attributes, hset, hfade, hrotate, hwobble, hrefused, hscale, Option.filter_some, htakes, hturns, hfades,
    hscales]

/-- The changes of opacity that are nested in the wrong places leave no trace, and of the two pivots the later stays. -/
theorem lightShow_plays_leaves :
    MakesEmptySets showRequest.registries.animations ∧ ∃ a, showRequest.animation? lightShow = some a ∧
      ∀ node : Attributes, (a.apply node).get? "alpha" = some (.number 0.25) ∧
        (a.apply node).get? "pivot_x" = some (.number 3) ∧ (a.apply node).get? "rotation" = some (.number 0) ∧
        (a.apply node).get? "text" = node.get? "text" ∧ a.apply (a.apply node) = a.apply node := by
  obtain ⟨hset, -⟩ := bareAnimation?_lightShow
  have hbuilt : ∃ a, showRequest.animation? lightShow = some a := by
    rw [lightShow, animation?_mk, hset]
    exact ⟨_, rfl⟩
  obtain ⟨a, hbuilt⟩ := hbuilt
  refine ⟨makesEmptySets_builtin, a, hbuilt, fun node => ?_⟩
  obtain ⟨-, hlast, hkept, htwice⟩ := plays_leaves showRequest makesEmptySets_builtin hbuilt node
  rw [leaves_lightShow] at hlast hkept
  refine ⟨?_, ?_, ?_, ?_, htwice⟩
  · exact hlast [] _ _ "alpha" (.number 0.25) rfl (by simp [Animation.endState]) (by simp [Animation.endState])
  · exact hlast [_, _] _ [] "pivot_x" (.number 3) rfl (by simp [Animation.endState]) (by simp)
  · exact hlast [_] _ [_] "rotation" (.number 0) rfl (by simp [Animation.endState, Rotate.new])
      (by simp [Animation.endState])
  · exact hkept "text" (by simp [Animation.endState])

end BuildRequest

end LiveScreen
