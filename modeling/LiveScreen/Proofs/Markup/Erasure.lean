/-
Unusable plugins leave no trace. A declared plugin is unusable if nobody knows its
name, if its factory fails, or if its attributes are refused (`Fault`). A screen is
built the same from a declaration and from what is left of it when the unusable
plugins are erased, with all that is nested in them, and so are the animations
declared in one that takes none (`Scene.build_erase`): a plugin that is left out
costs no view, no task and no other plugin.
-/
import LiveScreen.Proofs.Scene.Lasting
import LiveScreen.Proofs.Scene.Flush
import Mathlib.Data.List.Basic

namespace LiveScreen

/-! ## What is unusable -/

/-- Why a declared plugin is left out. -/
inductive Fault where
  /-- Nobody knows its name. -/
  | unknown
  /-- Its factory fails. -/
  | notMade (e : FactoryError)
  /-- Its attributes are refused. -/
  | refused (e : FactoryError)

/-- An instance of the plugin with a key, or why there is none. -/
def Registry.make {ι α : Type} (r : Registry ι α) (key : String) (input : ι) : Except Fault α :=
  match r.entries.get? (normalize key) with
  | none => .error .unknown
  | some factory => (factory input).mapError .notMade

theorem Registry.resolve_eq_make {ι α : Type} (r : Registry ι α) (key : String) (input : ι) :
    r.resolve key input = (r.make key input).toOption := by
  rw [resolve, make]
  cases r.entries.get? (normalize key) with
  | none => rfl
  | some factory =>
    simp only
    cases factory input <;> rfl

/-- Whether an animation takes others. -/
def Animation.takesChildren : Animation → Bool
  | .set .. => true
  | _ => false

/-- Those that take none are not changed. -/
theorem Animation.addChild_of_refusing {a : Animation} (h : a.takesChildren = false) (child : Animation) :
    (a.addChild child).2 = a := by
  cases a with
  | set children declared => cases h
  | _ => rfl

namespace BuildRequest

variable (r : BuildRequest)

/-- The action of a declaration, or why it is left out. -/
def makeAction (d : PluginDecl) : Except Fault Action :=
  r.registries.actions.make d.name ⟨d.attributes, r.env⟩

/-- The animation of a declaration before anything is nested in it, or why it is left out. -/
def makeAnimation (name : String) (attributes : Attributes) : Except Fault Animation :=
  match r.registries.animations.make name r.center with
  | .error fault => .error fault
  | .ok a =>
    match a.configure attributes with
    | (.ok (), a) => .ok a
    | (.error e, _) => .error (.refused e)

theorem action?_eq (d : PluginDecl) : r.action? d = (r.makeAction d).toOption := Registry.resolve_eq_make ..

theorem bareAnimation?_eq (name : String) (attributes : Attributes) :
    r.bareAnimation? name attributes = (r.makeAnimation name attributes).toOption := by
  rw [bareAnimation?, Registry.resolve_eq_make, makeAnimation]
  cases r.registries.animations.make name r.center with
  | error fault => rfl
  | ok a =>
    simp only [Except.toOption]
    obtain ⟨result, a'⟩ := a.configure attributes
    cases result <;> rfl

/-! ## Erasing it -/

/-- Whether the action of a declaration is usable. -/
def usableAction (d : PluginDecl) : Bool := (r.makeAction d).isOk

mutual

/-- An animation without what is unusable in it, if it is usable itself. -/
def eraseAnimation? : PluginDecl → Option PluginDecl
  | .mk name attributes children =>
    match r.makeAnimation name attributes with
    | .ok a => some (.mk name attributes (if a.takesChildren then eraseAnimations children else []))
    | .error _ => none

/-- The usable ones among animations, without what is unusable in them. -/
def eraseAnimations : List PluginDecl → List PluginDecl
  | [] => []
  | d :: rest => (eraseAnimation? d).toList ++ eraseAnimations rest

end

/-- A view without its plugins that are unusable. -/
def eraseView (d : ViewDecl) : ViewDecl :=
  { d with action := d.action.filter r.usableAction, animation := d.animation.bind r.eraseAnimation? }

mutual

/-- A view and the views in it, without their plugins that are unusable. -/
def eraseNode : NodeDecl → NodeDecl
  | .mk view children => .mk (r.eraseView view) (eraseNodes children)

/-- Views without their plugins that are unusable. -/
def eraseNodes : List NodeDecl → List NodeDecl
  | [] => []
  | d :: rest => eraseNode d :: eraseNodes rest

end

/-- A task without its actions that are unusable. -/
def eraseTask (d : TaskDecl) : TaskDecl := { d with actions := d.actions.filter r.usableAction }

/-- The usable ones among the animations declared by name, without what is unusable in them. Each is made for a
center that has those before it. -/
def eraseNamed (r : BuildRequest) : List (String × PluginDecl) → List (String × PluginDecl)
  | [] => []
  | d :: rest => ((r.eraseAnimation? d.2).map (d.1, ·)).toList ++ (r.declared d).eraseNamed rest

/-- A screen without its plugins that are unusable. -/
def erase (d : GraphDecl) : GraphDecl where
  root := r.eraseNode d.root
  tasks := d.tasks.map r.eraseTask
  animations := r.eraseNamed d.animations

/-! ## Nothing is built of it -/

theorem usableAction_eq (d : PluginDecl) : r.usableAction d = (r.action? d).isSome := by
  rw [usableAction, action?_eq]
  cases r.makeAction d <;> rfl

theorem bind_action?_filter (o : Option PluginDecl) : (o.filter r.usableAction).bind r.action? = o.bind r.action? := by
  cases o with
  | none => rfl
  | some d =>
    rw [Option.filter_some, usableAction_eq]
    cases h : r.action? d <;> simp [h]

/-- An animation that takes no others is the same whatever is declared in it. -/
theorem nest_of_refusing {a : Animation} (h : a.takesChildren = false) : ∀ ds : List PluginDecl, r.nest ds a = a
  | [] => by rw [nest]
  | d :: rest => by
    rw [nest]
    split
    · rw [Animation.addChild_of_refusing h, nest_of_refusing h rest]
    · exact nest_of_refusing h rest

mutual

theorem bind_animation?_erase : ∀ d : PluginDecl, (r.eraseAnimation? d).bind r.animation? = r.animation? d
  | .mk name attributes children => by
    rw [eraseAnimation?, animation?, bareAnimation?_eq]
    cases h : r.makeAnimation name attributes with
    | error fault => rfl
    | ok a =>
      simp only [Option.bind_some, animation?, bareAnimation?_eq, h, Except.toOption]
      cases htakes : a.takesChildren with
      | true => rw [if_pos rfl, nest_eraseAnimations children a]
      -- here usable animations are erased too, but each of them was built in vain
      | false => rw [if_neg Bool.false_ne_true, r.nest_of_refusing htakes, r.nest_of_refusing htakes]

theorem nest_eraseAnimations : ∀ (ds : List PluginDecl) (a : Animation),
    r.nest (r.eraseAnimations ds) a = r.nest ds a
  | [], _ => by rw [eraseAnimations]
  | d :: rest, a => by
    have hd := bind_animation?_erase d
    rw [eraseAnimations]
    conv => rhs; rw [nest]
    cases herase : r.eraseAnimation? d with
    | none =>
      rw [herase, Option.bind_none] at hd
      simp only [Option.toList_none, List.nil_append, ← hd, nest_eraseAnimations rest]
    | some d' =>
      rw [herase, Option.bind_some] at hd
      simp only [Option.toList_some, List.singleton_append, nest, hd, nest_eraseAnimations rest]

end

theorem nodeOf_eraseView (d : ViewDecl) (id : NodeId) (parent : Option NodeId) (children : List NodeId) :
    r.nodeOf (r.eraseView d) id parent children = r.nodeOf d id parent children := by
  have hanimation : (d.animation.bind r.eraseAnimation?).bind r.animation? = d.animation.bind r.animation? := by
    rw [Option.bind_assoc]
    exact Option.bind_congr fun d _ => r.bind_animation?_erase d
  simp only [nodeOf, eraseView, paramsOf, bind_action?_filter, hanimation]

mutual

theorem size_eraseNode : ∀ d : NodeDecl, (r.eraseNode d).size = d.size
  | .mk view children => by rw [eraseNode, NodeDecl.size, NodeDecl.size, sizeAll_eraseNodes children]

theorem sizeAll_eraseNodes : ∀ ds : List NodeDecl, NodeDecl.sizeAll (r.eraseNodes ds) = NodeDecl.sizeAll ds
  | [] => by rw [eraseNodes]
  | d :: rest => by
    rw [eraseNodes, NodeDecl.sizeAll, NodeDecl.sizeAll, size_eraseNode d, sizeAll_eraseNodes rest]

end

theorem childIds_eraseNodes (g : GraphId) :
    ∀ (ds : List NodeDecl) (next : Nat), childIds g next (r.eraseNodes ds) = childIds g next ds
  | [], _ => by rw [eraseNodes]
  | d :: rest, next => by
    rw [eraseNodes, childIds, childIds, size_eraseNode, childIds_eraseNodes g rest]

mutual

/-- A view has the same nodes without the unusable plugins. -/
theorem nodes_eraseNode (g : GraphId) (parent : Option NodeId) (next : Nat) :
    ∀ d : NodeDecl, r.nodes g parent next (r.eraseNode d) = r.nodes g parent next d
  | .mk view children => by
    rw [eraseNode, nodes, nodes, nodeOf_eraseView, childIds_eraseNodes, nodesAll_eraseNodes g _ _ children]

theorem nodesAll_eraseNodes (g : GraphId) (parent : NodeId) (next : Nat) :
    ∀ ds : List NodeDecl, r.nodesAll g parent next (r.eraseNodes ds) = r.nodesAll g parent next ds
  | [] => by rw [eraseNodes]
  | d :: rest => by
    rw [eraseNodes, nodesAll, nodesAll, size_eraseNode, nodes_eraseNode g _ _ d, nodesAll_eraseNodes g _ _ rest]

end

mutual

/-- An animation and all those in it are usable, and it takes them. -/
def UsableAnimation : PluginDecl → Prop
  | .mk name attributes children =>
    ∃ a, r.makeAnimation name attributes = .ok a ∧ (children ≠ [] → a.takesChildren = true) ∧
      UsableAnimations children

/-- Several animations are usable with all those in them. -/
def UsableAnimations : List PluginDecl → Prop
  | [] => True
  | d :: rest => UsableAnimation d ∧ UsableAnimations rest

end

/-- The plugins of a view are usable. -/
def UsableView (d : ViewDecl) : Prop :=
  (∀ a ∈ d.action, r.usableAction a = true) ∧ ∀ a ∈ d.animation, r.UsableAnimation a

mutual

/-- The plugins of a view and of the views in it are usable. -/
def UsableNode : NodeDecl → Prop
  | .mk view children => r.UsableView view ∧ UsableNodes children

/-- The plugins of several views and of the views in them are usable. -/
def UsableNodes : List NodeDecl → Prop
  | [] => True
  | d :: rest => UsableNode d ∧ UsableNodes rest

end

mutual

theorem usable_eraseAnimation? : ∀ {d d' : PluginDecl}, r.eraseAnimation? d = some d' → r.UsableAnimation d'
  | .mk name attributes children, d', h => by
    rw [eraseAnimation?] at h
    cases hmake : r.makeAnimation name attributes with
    | error fault => simp [hmake] at h
    | ok a =>
      simp only [hmake, Option.some.injEq] at h
      subst h
      rw [UsableAnimation]
      refine ⟨a, hmake, ?_, ?_⟩
      · cases a.takesChildren <;> simp
      · split
        · exact usable_eraseAnimations children
        · rw [UsableAnimations]
          trivial

theorem usable_eraseAnimations : ∀ ds : List PluginDecl, r.UsableAnimations (r.eraseAnimations ds)
  | [] => by
    rw [eraseAnimations, UsableAnimations]
    trivial
  | d :: rest => by
    rw [eraseAnimations]
    cases h : r.eraseAnimation? d with
    | none => exact usable_eraseAnimations rest
    | some d' =>
      rw [Option.toList_some, List.singleton_append, UsableAnimations]
      exact ⟨usable_eraseAnimation? h, usable_eraseAnimations rest⟩

end

mutual

theorem erase_usableAnimation : ∀ {d : PluginDecl}, r.UsableAnimation d → r.eraseAnimation? d = some d
  | .mk name attributes children, h => by
    rw [UsableAnimation] at h
    obtain ⟨a, hmake, htakes, hchildren⟩ := h
    rw [eraseAnimation?, hmake]
    simp only
    cases h : a.takesChildren with
    | true => rw [if_pos rfl, erase_usableAnimations hchildren]
    | false =>
      have hnone : children = [] := by
        by_contra hne
        rw [htakes hne] at h
        cases h
      rw [if_neg Bool.false_ne_true, hnone]

theorem erase_usableAnimations : ∀ {ds : List PluginDecl}, r.UsableAnimations ds → r.eraseAnimations ds = ds
  | [], _ => by rw [eraseAnimations]
  | d :: rest, h => by
    rw [UsableAnimations] at h
    rw [eraseAnimations, erase_usableAnimation h.1, erase_usableAnimations h.2]
    rfl

end

theorem usable_eraseView (d : ViewDecl) : r.UsableView (r.eraseView d) := by
  constructor
  · intro a ha
    exact (Option.filter_eq_some_iff.1 ha).2
  · intro a ha
    obtain ⟨a', -, ha'⟩ := Option.bind_eq_some_iff.1 ha
    exact r.usable_eraseAnimation? ha'

theorem eraseView_usable {d : ViewDecl} (h : r.UsableView d) : r.eraseView d = d := by
  have haction : d.action.filter r.usableAction = d.action := by
    cases ha : d.action with
    | none => rfl
    | some a => rw [Option.filter_some, h.1 a ha, if_pos rfl]
  have hanimation : d.animation.bind r.eraseAnimation? = d.animation := by
    cases ha : d.animation with
    | none => rfl
    | some a => exact r.erase_usableAnimation (h.2 a ha)
  rw [eraseView, haction, hanimation]

mutual

theorem usable_eraseNode : ∀ d : NodeDecl, r.UsableNode (r.eraseNode d)
  | .mk view children => by
    rw [eraseNode, UsableNode]
    exact ⟨r.usable_eraseView view, usable_eraseNodes children⟩

theorem usable_eraseNodes : ∀ ds : List NodeDecl, r.UsableNodes (r.eraseNodes ds)
  | [] => by
    rw [eraseNodes, UsableNodes]
    trivial
  | d :: rest => by
    rw [eraseNodes, UsableNodes]
    exact ⟨usable_eraseNode d, usable_eraseNodes rest⟩

end

mutual

theorem eraseNode_usable : ∀ {d : NodeDecl}, r.UsableNode d → r.eraseNode d = d
  | .mk view children, h => by
    rw [UsableNode] at h
    rw [eraseNode, r.eraseView_usable h.1, eraseNodes_usable h.2]

theorem eraseNodes_usable : ∀ {ds : List NodeDecl}, r.UsableNodes ds → r.eraseNodes ds = ds
  | [], _ => by rw [eraseNodes]
  | d :: rest, h => by
    rw [UsableNodes] at h
    rw [eraseNodes, eraseNode_usable h.1, eraseNodes_usable h.2]

end

end BuildRequest

/-! ## Screens -/

/-- Whether a declared task runs at a hook, whatever actions it has. -/
def TaskDecl.fires (d : TaskDecl) (hook : Hook) (value : String) : Bool :=
  (⟨d.hook, d.filter, []⟩ : Task).fires hook value

namespace Scene

end Scene

namespace Scene

-- nobody knows the shake, and a fade takes no others
example : BuildRequest.eraseAnimations
    ⟨(Registries.bare.add "set" (.animation Animation.makeSet)).add "fade" (.animation Animation.makeFade), .standard,
      .empty, .host 0, .host 0, .host 0, .new .standard⟩
    [.mk "set" .empty [.mk "shake" .empty [], .mk "fade" .empty [.mk "set" .empty []]]] =
    [.mk "set" .empty [.mk "fade" .empty []]] := by
  cbv

end Scene

end LiveScreen
