/-
A graph is built exactly as it is declared (`build_materializes`): there is one
node for each declared view, with what the view declares, under the node of the
view it is declared in. This does not depend on how nodes are numbered, as long
as no two get the same id, nor on the order in which they are kept: all of it is
proved of any graph that holds the declared nodes under distinct ids
(`materializes_of_perm`), and the numbers of a built graph are distinct (`ids_nodes`).
-/
import LiveScreen.Proofs.Layout.Names
import LiveScreen.Proofs.Markup.Positions
import LiveScreen.Proofs.Scene.Lasting

namespace LiveScreen

/-! ## What a graph is built to be -/

namespace Graph

/-- The nodes of a graph hang together as a tree. -/
structure IsTree (graph : Graph) : Prop where
  distinct : (graph.nodes.map (·.id)).Nodup
  root : ∃ n, graph.node? graph.root = some n ∧ n.parent = none
  /-- Every other node has one parent, which lists it once, and no other node lists it. -/
  parent : ∀ n ∈ graph.nodes, n.id ≠ graph.root → ∃ m ∈ graph.nodes, n.parent = some m.id ∧
    m.children.count n.id = 1 ∧ ∀ m' ∈ graph.nodes, n.id ∈ m'.children → m' = m
  known : ∀ n ∈ graph.nodes, ∀ c ∈ n.children, ∃ m, graph.node? c = some m
  reachable : ∀ n ∈ graph.nodes,
    Relation.ReflTransGen (fun a b => ∃ m, graph.node? a = some m ∧ b ∈ m.children) graph.root n.id

/-- The nodes of a graph are the declared views, one at each place. -/
structure Pictures (graph : Graph) (r : BuildRequest) (d : NodeDecl)
    (place : d.Position → { n : Node // n ∈ graph.nodes }) : Prop where
  bijective : Function.Bijective place
  root : (place (.root d)).1.id = graph.root
  kind : ∀ p, (place p).1.kind = p.decl.view.kind
  name : ∀ p, (place p).1.name = p.decl.view.name
  attributes : ∀ p, (place p).1.attributes = p.decl.view.attributes
  bindings : ∀ p, (place p).1.bindings = p.decl.view.bindings
  /-- The layout parameters are those of the declared name, at a density of one if that of the display
  scales nothing, with the layout attributes applied in order. -/
  params : ∀ p, ∃ params, (place p).1.params = params.setAttributes p.decl.view.layout ∧
    if validDensity r.context.density then
      r.registries.params.resolve p.decl.view.params r.context = some params
    else params = .new (r.registries.params.kindFor p.decl.view.params)
  children : ∀ p, (place p).1.children = p.children.map fun c => (place c).1.id
  outermost : (place (.root d)).1.parent = none
  parent : ∀ p, ∀ c ∈ p.children, (place c).1.parent = some (place p).1.id

/-- A graph is what a declaration declares. -/
structure Materializes (graph : Graph) (r : BuildRequest) (d : NodeDecl) : Prop where
  pictures : ∃ place, graph.Pictures r d place
  tree : graph.IsTree
  size : graph.size = d.size
  found : ∀ name, (∃ n, graph.find? name = some n) ↔ ∃ p : d.Position, p.decl.view.name = some name
  named : ∀ name n, graph.find? name = some n → n ∈ graph.nodes ∧ n.name = some name

/-! ## Looking nodes up -/

variable {graph : Graph} {r : BuildRequest} {d : NodeDecl}

theorem node?_of_mem (h : (graph.nodes.map (·.id)).Nodup) {n : Node} (hn : n ∈ graph.nodes) :
    graph.node? n.id = some n := by
  cases hfound : graph.node? n.id with
  | none => simpa using List.find?_eq_none.1 hfound n hn
  | some m =>
    have hid : m.id = n.id := by simpa using List.find?_some hfound
    exact congrArg some (List.inj_on_of_nodup_map h (List.mem_of_find?_eq_some hfound) hn hid)

theorem find?_named {name : String} {n : Node} (h : graph.find? name = some n) :
    n ∈ graph.nodes ∧ n.name = some name :=
  ⟨List.mem_of_find?_eq_some h, by simpa using List.find?_some h⟩

theorem find?_isSome_iff {name : String} :
    (∃ n, graph.find? name = some n) ↔ ∃ n ∈ graph.nodes, n.name = some name := by
  rw [← Option.isSome_iff_exists, find?, List.find?_isSome]
  simp only [decide_eq_true_eq]

/-! ## The tree of a picture -/

namespace Pictures

variable {place : d.Position → { n : Node // n ∈ graph.nodes }}

theorem id_inj (h : graph.Pictures r d place) (hids : (graph.nodes.map (·.id)).Nodup) {p q : d.Position}
    (hid : (place p).1.id = (place q).1.id) : p = q :=
  h.bijective.1 (Subtype.ext (List.inj_on_of_nodup_map hids (place p).2 (place q).2 hid))

theorem mem_children (h : graph.Pictures r d place) (hids : (graph.nodes.map (·.id)).Nodup) {p q : d.Position} :
    (place q).1.id ∈ (place p).1.children ↔ q ∈ p.children := by
  rw [h.children, List.mem_map]
  constructor
  · rintro ⟨c, hc, hid⟩
    rwa [← h.id_inj hids hid]
  · exact fun hq => ⟨q, hq, rfl⟩

/-- There is a node with a name where a view was declared with it. -/
theorem exists_named (h : graph.Pictures r d place) {name : String} :
    (∃ n ∈ graph.nodes, n.name = some name) ↔ ∃ p : d.Position, p.decl.view.name = some name := by
  constructor
  · rintro ⟨n, hn, hname⟩
    obtain ⟨p, hp⟩ := h.bijective.2 ⟨n, hn⟩
    obtain rfl : (place p).1 = n := congrArg Subtype.val hp
    exact ⟨p, (h.name p).symm.trans hname⟩
  · rintro ⟨p, hname⟩
    exact ⟨place p, (place p).2, (h.name p).trans hname⟩

/-- Pictured nodes with distinct ids hang together as a tree. -/
theorem isTree (h : graph.Pictures r d place) (hids : (graph.nodes.map (·.id)).Nodup) : graph.IsTree where
  distinct := hids
  root := by
    refine ⟨place (.root d), ?_, h.outermost⟩
    rw [← h.root]
    exact node?_of_mem hids (place (.root d)).2
  parent n hn hroot := by
    obtain ⟨p, hp⟩ := h.bijective.2 ⟨n, hn⟩
    obtain rfl : (place p).1 = n := congrArg Subtype.val hp
    rcases p.eq_root_or_child with rfl | ⟨q, hq⟩
    · exact absurd h.root hroot
    refine ⟨place q, (place q).2, h.parent q p hq, ?_, fun m hm hmem => ?_⟩
    · have hnodup : ((place q).1.children).Nodup := by
        rw [h.children]
        exact (q.nodup_children).map_on fun _ _ _ _ hid => h.id_inj hids hid
      exact List.count_eq_one_of_mem hnodup ((h.mem_children hids).2 hq)
    · obtain ⟨q', hq'⟩ := h.bijective.2 ⟨m, hm⟩
      obtain rfl : (place q').1 = m := congrArg Subtype.val hq'
      obtain ⟨i, hi⟩ := NodeDecl.Position.mem_children.1 hq
      obtain ⟨j, hj⟩ := NodeDecl.Position.mem_children.1 ((h.mem_children hids).1 hmem)
      rw [(NodeDecl.Position.child_inj (hj.trans hi.symm)).1]
  known n hn c hc := by
    obtain ⟨p, hp⟩ := h.bijective.2 ⟨n, hn⟩
    obtain rfl : (place p).1 = n := congrArg Subtype.val hp
    rw [h.children, List.mem_map] at hc
    obtain ⟨q, -, rfl⟩ := hc
    exact ⟨_, node?_of_mem hids (place q).2⟩
  reachable n hn := by
    obtain ⟨p, hp⟩ := h.bijective.2 ⟨n, hn⟩
    obtain rfl : (place p).1 = n := congrArg Subtype.val hp
    induction p using NodeDecl.Position.induction with
    | outer =>
      rw [h.root]
    | inner q ih c hc =>
      exact (ih (place q).2 rfl).tail ⟨place q, node?_of_mem hids (place q).2, (h.mem_children hids).2 hc⟩

end Pictures

end Graph

/-! ## The declared nodes under given ids -/

namespace BuildRequest

/-- What the layout parameters of a node are. -/
theorem paramsOf_eq {r : BuildRequest} (hparams : r.registries.params.Built) (view : ViewDecl) :
    ∃ params, r.paramsOf view = params.setAttributes view.layout ∧
      if validDensity r.context.density then r.registries.params.resolve view.params r.context = some params
      else params = .new (r.registries.params.kindFor view.params) := by
  cases hd : validDensity r.context.density with
  | true =>
    obtain ⟨params, hresolve⟩ := hparams.resolve hd view.params
    exact ⟨params, by rw [BuildRequest.paramsOf, hresolve], hresolve⟩
  | false => exact ⟨_, by rw [BuildRequest.paramsOf, hparams.resolve_eq_none hd], rfl⟩

variable (r : BuildRequest)

/-- The node of the declaration at the end of a path, where each path has an id and the node at the
empty path has a given parent. -/
def nodeAt (ids : List Nat → NodeId) (outer : Option NodeId) (e : List Nat × NodeDecl) : Node :=
  r.nodeOf e.2.view (ids e.1) (if e.1 = [] then outer else some (ids e.1.dropLast))
    (List.ofFn fun i : Fin e.2.children.length => ids (e.1 ++ [i.1]))

/-- In a child, paths are shorter by the number of the child. -/
theorem nodeAt_cons (ids : List Nat → NodeId) (outer : Option NodeId) (i : Nat) (e : List Nat × NodeDecl) :
    r.nodeAt ids outer (i :: e.1, e.2) = r.nodeAt (fun path => ids (i :: path)) (some (ids [])) e := by
  obtain ⟨path, d⟩ := e
  cases path <;> rfl

end BuildRequest

namespace Graph

variable {graph : Graph} {r : BuildRequest} {d : NodeDecl} {ids : List Nat → NodeId}

/-- Where a graph holds the declared nodes under distinct ids, in any order, there is one for each declared view. -/
theorem pictures_of_perm (hparams : r.registries.params.Built) (hroot : graph.root = ids [])
    (hnodes : graph.nodes.Perm (d.declared.map (r.nodeAt ids none)))
    (hids : (d.declared.map fun e => ids e.1).Nodup) : ∃ place, graph.Pictures r d place := by
  have hdeclared : ∀ p : d.Position, (p.1, p.decl) ∈ d.declared := fun p => NodeDecl.mem_declared_iff.2 p.at?_path
  have hmem : ∀ p : d.Position, r.nodeAt ids none (p.1, p.decl) ∈ graph.nodes := fun p =>
    hnodes.mem_iff.2 (List.mem_map_of_mem (hdeclared p))
  let place : d.Position → { n : Node // n ∈ graph.nodes } := fun p => ⟨r.nodeAt ids none (p.1, p.decl), hmem p⟩
  have hsurjective : Function.Surjective place := by
    rintro ⟨n, hn⟩
    obtain ⟨⟨path, e⟩, he, rfl⟩ := List.mem_map.1 (hnodes.mem_iff.1 hn)
    have hat := NodeDecl.mem_declared_iff.1 he
    let p : d.Position := ⟨path, Option.isSome_iff_exists.2 ⟨e, hat⟩⟩
    have hp : p.decl = e := Option.some.inj (p.at?_path.symm.trans hat)
    exact ⟨p, Subtype.ext (congrArg (fun e => r.nodeAt ids none (path, e)) hp)⟩
  have hinjective : Function.Injective place := by
    intro p q hpq
    have hid : ids p.1 = ids q.1 := congrArg (fun n => n.1.id) hpq
    exact Subtype.ext (congrArg Prod.fst (List.inj_on_of_nodup_map hids (hdeclared p) (hdeclared q) hid))
  exact
    ⟨place,
      { bijective := ⟨hinjective, hsurjective⟩
        root := hroot.symm
        kind := fun _ => rfl
        name := fun _ => rfl
        attributes := fun _ => rfl
        bindings := fun _ => rfl
        params := fun p => BuildRequest.paramsOf_eq hparams p.decl.view
        children := fun p => by
          rw [NodeDecl.Position.children, List.map_ofFn]
          rfl
        outermost := rfl
        parent := fun p c hc => by
          obtain ⟨i, rfl⟩ := NodeDecl.Position.mem_children.1 hc
          simp [place, BuildRequest.nodeAt, BuildRequest.nodeOf, NodeDecl.Position.child] }⟩

/-- A graph that holds the declared nodes under distinct ids, in any order, is what is declared. -/
theorem materializes_of_perm (hparams : r.registries.params.Built) (hroot : graph.root = ids [])
    (hnodes : graph.nodes.Perm (d.declared.map (r.nodeAt ids none)))
    (hids : (d.declared.map fun e => ids e.1).Nodup) : graph.Materializes r d := by
  obtain ⟨place, hpictures⟩ := pictures_of_perm hparams hroot hnodes hids
  have hdistinct : (graph.nodes.map (·.id)).Nodup := by
    rw [(hnodes.map _).nodup_iff, List.map_map]
    exact hids
  exact
    { pictures := ⟨place, hpictures⟩
      tree := hpictures.isTree hdistinct
      size := by rw [size, hnodes.length_eq, List.length_map, NodeDecl.length_declared]
      found := fun name => find?_isSome_iff.trans hpictures.exists_named
      named := fun _ _ => find?_named }

end Graph

/-! ## The numbers of a built graph -/

namespace NodeDecl

/-- How many views are declared before the one that a path leads to. -/
def number (d : NodeDecl) : List Nat → Nat
  | [] => 0
  | i :: path => 1 + sizeAll (d.children.take i) + d.children[i]?.elim 0 (·.number path)

end NodeDecl

namespace BuildRequest

variable (r : BuildRequest) (g : GraphId)

theorem childIds_eq : ∀ (ds : List NodeDecl) (next : Nat),
    childIds g next ds = List.ofFn fun i : Fin ds.length => ⟨g, next + NodeDecl.sizeAll (ds.take i.1)⟩
  | [], _ => rfl
  | d :: rest, next => by
    rw [childIds, childIds_eq rest, List.ofFn_succ]
    simp only [Fin.val_zero, Fin.val_succ, List.take_zero, List.take_succ_cons, NodeDecl.sizeAll, Nat.add_zero,
      Nat.add_assoc]

mutual

/-- The nodes of a declaration are those of the views declared in it, each under its number. -/
theorem nodes_eq {ids : List Nat → NodeId} {outer : Option NodeId} {next : Nat} :
    ∀ {d : NodeDecl}, (∀ path, ids path = ⟨g, next + d.number path⟩) →
      r.nodes g outer next d = d.declared.map (r.nodeAt ids outer)
  | .mk view children, h => by
    have hroot : (⟨g, next⟩ : NodeId) = ids [] := (h []).symm
    have hchildren : childIds g (next + 1) children = List.ofFn fun i : Fin children.length => ids ([] ++ [i.1]) := by
      rw [childIds_eq]
      refine congrArg List.ofFn (funext fun i => ?_)
      rw [List.nil_append, h]
      simp [NodeDecl.number, NodeDecl.children, Nat.add_assoc]
    have hbelow : ∀ j path, ids ((0 + j) :: path) =
        ⟨g, next + 1 + NodeDecl.sizeAll (children.take j) + children[j]?.elim 0 (·.number path)⟩ := by
      intro j path
      rw [Nat.zero_add, h]
      simp only [NodeDecl.number, NodeDecl.children, Nat.add_assoc]
    rw [nodes, NodeDecl.declared, List.map_cons, hchildren, hroot, nodesAll_eq hbelow]
    rfl

theorem nodesAll_eq {ids : List Nat → NodeId} {outer : Option NodeId} {next i : Nat} :
    ∀ {ds : List NodeDecl},
      (∀ j path, ids ((i + j) :: path) =
        ⟨g, next + NodeDecl.sizeAll (ds.take j) + ds[j]?.elim 0 (·.number path)⟩) →
      r.nodesAll g (ids []) next ds = (NodeDecl.declaredFrom i ds).map (r.nodeAt ids outer)
  | [], _ => rfl
  | d :: rest, h => by
    have hfirst : ∀ path, ids (i :: path) = ⟨g, next + d.number path⟩ := fun path => h 0 path
    have hrest : ∀ j path, ids ((i + 1 + j) :: path) =
        ⟨g, next + d.size + NodeDecl.sizeAll (rest.take j) + rest[j]?.elim 0 (·.number path)⟩ := by
      intro j path
      have hnext := h (j + 1) path
      rw [List.take_succ_cons, NodeDecl.sizeAll, List.getElem?_cons_succ] at hnext
      rw [Nat.add_assoc i, Nat.add_comm 1, hnext]
      simp only [Nat.add_assoc]
    rw [nodesAll, NodeDecl.declaredFrom, List.map_append, List.map_map, nodes_eq hfirst, nodesAll_eq hrest]
    congr 1
    exact List.map_congr_left fun e _ => (r.nodeAt_cons ids outer i e).symm

end

mutual

/-- The nodes of a declaration are numbered one after the other. -/
theorem ids_nodes (outer : Option NodeId) (next : Nat) :
    ∀ d : NodeDecl, (r.nodes g outer next d).map (·.id) = (List.range' next d.size).map (NodeId.mk g)
  | .mk view children => by
    rw [nodes, List.map_cons, ids_nodesAll, NodeDecl.size, Nat.add_comm 1, List.range'_succ, List.map_cons]
    rfl

theorem ids_nodesAll (parent : NodeId) (next : Nat) :
    ∀ ds : List NodeDecl,
      (r.nodesAll g parent next ds).map (·.id) = (List.range' next (NodeDecl.sizeAll ds)).map (NodeId.mk g)
  | [] => rfl
  | d :: rest => by
    rw [nodesAll, List.map_append, ids_nodes, ids_nodesAll, NodeDecl.sizeAll, ← List.range'_append_1, List.map_append]

end

end BuildRequest

/-! ## What is built -/

/-- The same node where ids are other ones. -/
def Node.renamed (fresh : NodeId → NodeId) (n : Node) : Node :=
  { n with id := fresh n.id, parent := n.parent.map fresh, children := n.children.map fresh }

theorem BuildRequest.renamed_nodeAt (r : BuildRequest) (fresh : NodeId → NodeId) (ids : List Nat → NodeId)
    (e : List Nat × NodeDecl) : (r.nodeAt ids none e).renamed fresh = r.nodeAt (fresh ∘ ids) none e := by
  obtain ⟨path, d⟩ := e
  cases path with
  | nil => simp [nodeAt, nodeOf, Node.renamed, List.map_ofFn, Function.comp_def]
  | cons i path => simp [nodeAt, nodeOf, Node.renamed, List.map_ofFn, Function.comp_def]

namespace Scene

/-- **A graph is built exactly as it is declared**, and so is every graph whose nodes are the same under
other distinct ids, in whatever order they are kept. -/
theorem build_materializes (s : Scene) (r : BuildRequest) (hparams : r.registries.params.Built) (g : GraphId)
    (d : GraphDecl) :
    ∃ graph, (s.build r g d).graphs.get? g = some graph ∧ graph.Materializes r d.root ∧
      ∀ fresh : NodeId → NodeId, Function.Injective fresh → ∀ other : Graph, other.root = fresh graph.root →
        other.nodes.Perm (graph.nodes.map (·.renamed fresh)) → other.Materializes r d.root := by
  let ids : List Nat → NodeId := fun path => ⟨g, d.root.number path⟩
  have hnodes : (r.graphOf g d.root).nodes = d.root.declared.map (r.nodeAt ids none) :=
    r.nodes_eq g fun path => by rw [Nat.zero_add]
  have hids : (d.root.declared.map fun e => ids e.1).Nodup := by
    have heq : (d.root.declared.map fun e => ids e.1) = (r.graphOf g d.root).nodes.map (·.id) := by
      rw [hnodes, List.map_map]
      rfl
    rw [heq, BuildRequest.graphOf, BuildRequest.ids_nodes]
    exact List.Nodup.map (fun _ _ h => (NodeId.mk.inj h).2) List.nodup_range'
  refine ⟨r.graphOf g d.root, by rw [graphs_build, Table.get?_insert_self], ?_, ?_⟩
  · exact Graph.materializes_of_perm hparams rfl (by rw [hnodes]) hids
  · intro fresh hfresh other hroot hperm
    have hother : other.nodes.Perm (d.root.declared.map (r.nodeAt (fresh ∘ ids) none)) := by
      rw [hnodes, List.map_map] at hperm
      refine hperm.trans (.of_eq (List.map_congr_left fun e _ => ?_))
      exact r.renamed_nodeAt fresh ids e
    have hmap : (d.root.declared.map fun e => (fresh ∘ ids) e.1) =
        (d.root.declared.map fun e => ids e.1).map fresh := by
      rw [List.map_map]
      rfl
    refine Graph.materializes_of_perm hparams hroot hother ?_
    rw [hmap]
    exact hids.map hfresh

/-- A request with the builtin plugins, for a display whose density scales nothing. -/
def toolbarRequest : BuildRequest where
  registries := .builtin
  context := ⟨0, none⟩
  env := .empty
  binder := .host 0
  tasks := .host 0
  animations := .host 0
  center := .new ⟨0, none⟩

/-- A container with a title and an icon in it. -/
def toolbar : GraphDecl where
  root := .mk ⟨"RelativeLayout", some "root", none, [], .empty, [], none, none⟩
    [.mk ⟨"TextView", some "title", none, [("width", .text "match_parent")], .empty, [⟨"title", "text"⟩], none,
        none⟩ [],
      .mk ⟨"ImageView", some "icon", some "LinearLayoutParams", [], .empty, [], none, none⟩ []]
  tasks := []
  animations := []

theorem toolbar_materializes :
    toolbarRequest.registries.params.Built ∧
      ∃ graph, (Scene.empty.build toolbarRequest (.host 0) toolbar).graphs.get? (.host 0) = some graph ∧
        graph.Materializes toolbarRequest toolbar.root ∧ graph.size = 3 ∧ ∃ n, graph.find? "icon" = some n := by
  obtain ⟨graph, hgraph, h, -⟩ := build_materializes .empty toolbarRequest .standard (.host 0) toolbar
  exact ⟨.standard, graph, hgraph, h, h.size, (h.found "icon").2 ⟨⟨[1], rfl⟩, rfl⟩⟩

end Scene

end LiveScreen
