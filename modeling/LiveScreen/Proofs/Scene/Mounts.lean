/-
What is pushed into a graph when it is loaded stays there: nothing a scene can
do changes the mount of a graph but loading it (`mountGraph`, `finishLoad`) and
building it anew.
-/
import LiveScreen.Proofs.Scene.Lasting

namespace LiveScreen.Scene

/-- The mount of a graph, if there is such a graph. -/
def mount? (s : Scene) (g : GraphId) : Option Mount := (s.graphs.get? g).map (·.mount)

/-- The graphs of two scenes have the same mounts. -/
def SameMounts (s s' : Scene) : Prop := ∀ g, s'.mount? g = s.mount? g

theorem SameMounts.refl (s : Scene) : SameMounts s s := fun _ => rfl

theorem SameMounts.trans {r s u : Scene} (h : SameMounts r s) (h' : SameMounts s u) : SameMounts r u :=
  fun g => (h' g).trans (h g)

theorem Same.mounts {s s' : Scene} (h : Same (·.mount) s s') : SameMounts s s' := h

theorem SameMounts.foldl {α : Type} {f : Scene → α → Scene} (hf : ∀ s x, SameMounts s (f s x)) (l : List α)
    (s : Scene) : SameMounts s (l.foldl f s) := (Same.foldl (p := (·.mount)) hf l s).mounts

theorem mount?_modifyGraph (s : Scene) (g : GraphId) (f : Graph → Graph) (g' : GraphId) :
    (s.modifyGraph g f).mount? g' =
      if g' = g then (s.graphs.get? g).map fun graph => (f graph).mount else s.mount? g' := by
  simp only [mount?, modifyGraph, Table.get?_modify]
  split
  · cases s.graphs.get? g <;> rfl
  · rfl

theorem sameMounts_update (s : Scene) (t : Thread) (b : BinderId) (key : String) (value : Value) :
    SameMounts s (s.update t b key value) :=
  (Same.of_leads Graph.lasting_mount (leads_update s t b key value)).mounts

theorem sameMounts_addLoadHook (s : Scene) (g : GraphId) (hook : LoadHook) : SameMounts s (s.addLoadHook g hook) :=
  Same.mounts (Same.modifyGraph s g (f := fun graph => { graph with hooks := graph.hooks ++ [hook] }) fun _ => rfl)

theorem sameMounts_runHook (t : Thread) (g : GraphId) (s : Scene) (hook : LoadHook) :
    SameMounts s (runHook t g s hook) := by
  cases hook with
  | mk tag update nested =>
    unfold runHook
    refine SameMounts.trans ?_ (.foldl (fun s hook => sameMounts_addLoadHook s g hook) nested _)
    split
    · exact (SameMounts.refl s).trans (sameMounts_update (s.emit _) t _ _ _)
    · exact .refl s

theorem mount?_mountGraph (s : Scene) (g : GraphId) (params : Layout.Params) (listener : Option String)
    (g' : GraphId) :
    (s.mountGraph g params listener).mount? g' =
      if g' = g then (s.mount? g).map fun m => { m with params := some params, listener } else s.mount? g' := by
  simp only [mountGraph, mount?_modifyGraph, Graph.mounted]
  split
  · simp only [mount?, Option.map_map]
    rfl
  · rfl

theorem mount?_finishLoad (s : Scene) (t : Thread) (g g' : GraphId) :
    (s.finishLoad t g).mount? g' =
      if g' = g then (s.mount? g).map fun m => { m with loaded := true } else s.mount? g' := by
  unfold finishLoad
  cases hg : s.graphs.get? g with
  | none =>
    dsimp only
    split
    · rename_i h
      subst h
      simp [mount?, hg]
    · rfl
  | some graph =>
    have hhooks := SameMounts.foldl (fun s hook => sameMounts_runHook t g s hook) graph.hooks
    dsimp only
    rw [hhooks _ g', mount?_modifyGraph]
    split
    · simp [mount?, hg]
    · rfl

theorem mount?_build (s : Scene) (r : BuildRequest) (g : GraphId) (d : GraphDecl) (g' : GraphId) :
    (s.build r g d).mount? g' = if g' = g then some .none else s.mount? g' := by
  rw [mount?, graphs_build, Table.get?_insert]
  split <;> rfl

end LiveScreen.Scene
