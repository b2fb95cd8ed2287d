/-
When load hooks run. The end of loading runs the hooks that are registered when it
begins, in the order of their registration, and each of them finds the graph loaded;
what is registered from then on waits. It waits in vain if loading does not end once
more: a second end runs what was registered since the first began, although hooks that
are registered so late are to never run (`oneGraph_late_hook`). So the hooks that have run
after a run are those that were registered when loading ended for the last time, each of
them once, and the late ones are left out exactly if there are none by then
(`load_hooks_ran`).
-/
import LiveScreen.Proofs.Scene.Deeds
import Mathlib.Data.List.Induction

namespace LiveScreen

/-- A deed ends the loading of a graph. -/
def Deed.Finishes (g : GraphId) : Deed → Prop
  | .finishLoad _ g' => g' = g
  | _ => False

/-- What a load hook leaves in the record when it runs on a loaded graph: its line, and that the graph was
loaded. -/
def LoadHook.mark (hook : LoadHook) : String × Bool := (hook.tag, true)

namespace Scene

/-- The load hooks of a graph that have run: the lines they wrote, and whether they found the graph loaded. -/
def hooksRanOf (s : Scene) (g : GraphId) : List (String × Bool) := (s.hooksRan.filter (·.1 = g)).map (·.2)

/-- The load hooks that a deed registers in a graph: one of the host, or those that the running hooks register. -/
def registers (g : GraphId) (s : Scene) : Deed → List LoadHook
  | .addLoadHook g' hook => if g' = g then [hook] else []
  | .finishLoad _ g' => if g' = g then (s.hooksAt g).flatMap (·.nested) else []
  | _ => []

/-- The load hooks that were registered in a graph up to the end of a run, in the order of their registration. -/
def registered (s : Scene) (g : GraphId) (ds : List Deed) : List LoadHook :=
  s.hooksAt g ++ s.along (registers g) ds

variable {s s' : Scene} {g : GraphId}

theorem registered_append (s : Scene) (g : GraphId) (ds ds' : List Deed) :
    s.registered g (ds ++ ds') = s.registered g ds ++ (s.after ds).along (registers g) ds' := by
  rw [registered, registered, along_append, List.append_assoc]

/-! ## What does not concern the hooks of a graph -/

/-- No load hooks of a graph ran, and those that were registered in it still are, with more after them. -/
structure HooksWait (g : GraphId) (more : List LoadHook) (s s' : Scene) : Prop where
  ran : s'.hooksRanOf g = s.hooksRanOf g
  hooks : (s'.graphs.get? g).map (·.hooks) = (s.graphs.get? g).map (·.hooks ++ more)

namespace HooksWait

theorem isSome {more : List LoadHook} (h : HooksWait g more s s') (hg : (s.graphs.get? g).isSome = true) :
    (s'.graphs.get? g).isSome = true := by
  have hsome := congrArg Option.isSome h.hooks
  rwa [Option.isSome_map, Option.isSome_map, hg] at hsome

theorem hooksAt {more : List LoadHook} (h : HooksWait g more s s') (hg : (s.graphs.get? g).isSome = true) :
    s'.hooksAt g = s.hooksAt g ++ more := by
  obtain ⟨graph, hgraph⟩ := Option.isSome_iff_exists.1 hg
  rw [Scene.hooksAt, h.hooks, hooksAt_eq hgraph, hgraph, Option.map_some, Option.getD_some]

theorem of_same (hran : s'.hooksRan = s.hooksRan)
    (hooks : (s'.graphs.get? g).map (·.hooks) = (s.graphs.get? g).map (·.hooks)) : HooksWait g [] s s' :=
  ⟨by rw [hooksRanOf, hooksRanOf, hran], by simpa only [List.append_nil] using hooks⟩

theorem refl (s : Scene) : HooksWait g [] s s := of_same rfl rfl

theorem of_leads (h : Leads s s') : HooksWait g [] s s' :=
  of_same (Unnoticed.of_leads h).hooksRan (Same.of_leads Graph.lasting_hooks h g)

theorem trans {s'' : Scene} (h : HooksWait g [] s s') (h' : HooksWait g [] s' s'') : HooksWait g [] s s'' :=
  ⟨h'.ran.trans h.ran, h'.hooks.trans (by simpa only [List.append_nil] using h.hooks)⟩

theorem foldl {α : Type} {f : Scene → α → Scene} (hf : ∀ s x, HooksWait g [] s (f s x)) :
    ∀ (l : List α) (s : Scene), HooksWait g [] s (l.foldl f s)
  | [], s => .refl s
  | x :: l, s => (hf s x).trans (HooksWait.foldl hf l (f s x))

theorem addLoadHook (s : Scene) (g' : GraphId) (hook : LoadHook) :
    HooksWait g (s.registers g (.addLoadHook g' hook)) s (s.addLoadHook g' hook) := by
  refine ⟨rfl, ?_⟩
  simp only [Scene.addLoadHook, modifyGraph, Table.get?_modify, registers]
  by_cases h : g = g'
  · simp [← h, Function.comp_def]
  · simp [h, Ne.symm h]

theorem addLoadHook_other {g' : GraphId} (h : g' ≠ g) (s : Scene) (hook : LoadHook) :
    HooksWait g [] s (s.addLoadHook g' hook) := by
  simpa only [registers, if_neg h] using HooksWait.addLoadHook (g := g) s g' hook

/-- The hooks of another graph run. -/
theorem runHook_other {g' : GraphId} (h : g' ≠ g) (t : Thread) (s : Scene) (hook : LoadHook) :
    HooksWait g [] s (runHook t g' s hook) := by
  obtain ⟨tag, update, nested⟩ := hook
  have hemit : HooksWait g [] s (s.emit (.hookRan g' tag (s.isLoaded g'))) := by
    refine ⟨?_, by simp [emit]⟩
    simp [hooksRanOf, hooksRan, emit, Event.hookRan?, h]
  simp only [runHook]
  refine (hemit.trans ?_).trans (.foldl (fun s hook => addLoadHook_other h s hook) nested _)
  split
  · exact of_leads (leads_update _ t _ _ _)
  · exact .refl _

theorem finishLoad_other {g' : GraphId} (h : g' ≠ g) (t : Thread) (s : Scene) :
    HooksWait g [] s (s.finishLoad t g') := by
  unfold Scene.finishLoad
  split
  · exact .refl _
  · rename_i graph _
    have hmarked : HooksWait g [] s (s.modifyGraph g' fun graph =>
        { graph with mount := { graph.mount with loaded := true }, hooks := [] }) :=
      of_same rfl (by rw [modifyGraph, Table.get?_modify_other _ _ (Ne.symm h)])
    exact hmarked.trans (.foldl (fun s hook => runHook_other h t s hook) graph.hooks _)

theorem runActions (t : Thread) (c : TaskCenterId) (g' : GraphId) (actions : List Action) (s : Scene) :
    HooksWait g [] s (runActions t c g' actions s) :=
  .foldl (fun s a => of_same (runActions_recorded t c g' [a] s).2
    (Same.runAction Graph.lasting_hooks (s.emit (.ran c g' a)) t g' a g)) actions s

theorem notify (s : Scene) (t : Thread) (c : TaskCenterId) (hook : Hook) (value : String) :
    HooksWait g [] s (s.notify t c hook value).2 := by
  unfold Scene.notify
  split
  · exact .refl _
  · split
    · exact .refl _
    · exact .foldl (fun s (task : Task) => .runActions t c _ task.actions s) _ s

theorem performAction (s : Scene) (t : Thread) (g' : GraphId) (node : NodeId) :
    HooksWait g [] s (s.performAction t g' node).2 := by
  refine of_same ?_ (Same.performAction Graph.lasting_hooks s t g' node g)
  unfold Scene.performAction
  split
  · exact (runAction_recorded s t g' _).2
  · rfl

theorem addView (s : Scene) (b : BinderId) (g' : GraphId) : HooksWait g [] s (s.addView b g') := by
  refine of_same ?_ (Same.addView Graph.lasting_hooks s b g' g)
  unfold Scene.addView
  split <;> rfl

/-- A deed that does not end the loading of a graph runs none of its hooks. -/
theorem carryOut (s : Scene) {d : Deed} (hd : ¬ d.Finishes g) :
    HooksWait g (s.registers g d) s (s.carryOut d) := by
  cases d with
  | addLoadHook g' hook => exact addLoadHook s g' hook
  | finishLoad t g' =>
    have hother : g' ≠ g := hd
    simpa only [registers, if_neg hother] using! finishLoad_other hother t s
  | notify t c hook value => exact notify s t c hook value
  | perform t g' node => exact performAction s t g' node
  | addView b g' => exact addView s b g'
  | update t b key value => exact of_leads (leads_update s t b key value)
  | animate t g' node => exact of_leads (leads_startAnimation s t g' node)
  | poll q t => exact of_leads (leads_poll s q t)
  | mount g' => exact of_same rfl (Same.modifyGraph s g' (f := (·.mounted _ _)) (fun _ => rfl) g)
  | hold g' h => exact of_same rfl (Same.hold Graph.lasting_hooks s g' h g)
  | release g' h => exact of_same rfl (Same.release Graph.lasting_hooks s g' h g)
  | addTask | attach | bindData | bindAnimations | dropQueue => exact of_same rfl rfl

end HooksWait

/-! ## Runs -/

/-- The end of loading runs what is registered, and leaves what this registers. -/
theorem finishLoad_runs (hg : (s.graphs.get? g).isSome = true) (t : Thread) :
    (s.finishLoad t g).hooksRanOf g = s.hooksRanOf g ++ (s.hooksAt g).map LoadHook.mark ∧
      (s.finishLoad t g).hooksAt g = s.registers g (.finishLoad t g) ∧
        ((s.finishLoad t g).graphs.get? g).isSome = true := by
  obtain ⟨graph, hgraph⟩ := Option.isSome_iff_exists.1 hg
  have h := hooksRan_finishLoad hgraph t
  refine ⟨?_, by rw [h.hooks, registers, if_pos rfl], ?_⟩
  · have hall : ((s.hooksAt g).filter fun _ => decide (g = g)) = s.hooksAt g :=
      List.filter_eq_self.2 fun _ _ => decide_eq_true rfl
    rw [hooksRanOf, hooksRanOf, h.ran, List.filter_append, List.map_append, List.filter_map, List.map_map]
    exact congrArg (_ ++ List.map LoadHook.mark ·) hall
  · have hloaded := h.loaded
    unfold isLoaded at hloaded
    split at hloaded
    · rename_i hgraph'
      rw [hgraph']
      rfl
    · cases hloaded

theorem after_concat (s : Scene) (ds : List Deed) (d : Deed) : s.after (ds ++ [d]) = (s.after ds).carryOut d :=
  after_append s ds [d]

theorem registered_concat (s : Scene) (g : GraphId) (ds : List Deed) (d : Deed) :
    s.registered g (ds ++ [d]) = s.registered g ds ++ (s.after ds).registers g d := by
  rw [registered_append, along, along, List.append_nil]

/-- What was registered in a graph by the end of a run has run, in this order, or it waits. -/
theorem ran_or_waits (hg : (s.graphs.get? g).isSome = true) (ds : List Deed) :
    ((s.after ds).graphs.get? g).isSome = true ∧ ∃ done : List LoadHook,
      s.registered g ds = done ++ (s.after ds).hooksAt g ∧
        (s.after ds).hooksRanOf g = s.hooksRanOf g ++ done.map LoadHook.mark := by
  induction ds using List.reverseRecOn with
  | nil => exact ⟨hg, [], by simp [registered, along, after], by simp [after]⟩
  | append_singleton ds d ih =>
    obtain ⟨hthere, done, hregistered, hran⟩ := ih
    rw [after_concat, registered_concat, hregistered]
    by_cases hd : d.Finishes g
    · obtain ⟨t, rfl⟩ : ∃ t, d = .finishLoad t g := by
        cases d with
        | finishLoad t g' => exact ⟨t, by rw [show g' = g from hd]⟩
        | _ => exact hd.elim
      obtain ⟨hran', hooks, hthere'⟩ := finishLoad_runs hthere t
      refine ⟨hthere', done ++ (s.after ds).hooksAt g, ?_, ?_⟩
      · simp only [carryOut, hooks]
      · simp only [carryOut, hran', hran, List.map_append, List.append_assoc]
    · have hwait := HooksWait.carryOut (s.after ds) hd
      refine ⟨hwait.isSome hthere, done, ?_, hwait.ran.trans hran⟩
      rw [hwait.hooksAt hthere, List.append_assoc]

/-- While loading does not end no hooks run. -/
theorem hooks_wait (hg : (s.graphs.get? g).isSome = true) (ds : List Deed) (hds : ∀ d ∈ ds, ¬ d.Finishes g) :
    ((s.after ds).graphs.get? g).isSome = true ∧ (s.after ds).hooksRanOf g = s.hooksRanOf g ∧
      (s.after ds).hooksAt g = s.registered g ds := by
  induction ds using List.reverseRecOn with
  | nil => exact ⟨hg, rfl, by simp [registered, along, after]⟩
  | append_singleton ds d ih =>
    obtain ⟨hthere, hran, hooks⟩ := ih fun d' hd' => hds d' (List.mem_append_left _ hd')
    have hwait := HooksWait.carryOut (s.after ds) (hds d (List.mem_append_right _ (List.mem_singleton_self d)))
    rw [after_concat, registered_concat]
    exact ⟨hwait.isSome hthere, hwait.ran.trans hran, by rw [hwait.hooksAt hthere, hooks]⟩

/-- The end of loading runs whatever of the registered hooks has not run yet. -/
theorem hooksRanOf_finishLoad (hg : (s.graphs.get? g).isSome = true) (ds : List Deed) (t : Thread) :
    ((s.after ds).finishLoad t g).hooksRanOf g = s.hooksRanOf g ++ (s.registered g ds).map LoadHook.mark := by
  obtain ⟨hthere, done, hregistered, hran⟩ := ran_or_waits hg ds
  rw [(finishLoad_runs hthere t).1, hran, hregistered, List.map_append, List.append_assoc]

/-- What the load hooks of a graph do in a run in which loading ends, for the first time after `first`, and for
the last time after `last` and before `rest`. -/
structure HooksRun (s : Scene) (g : GraphId) (first : List Deed) (t : Thread) (last : List Deed) (t' : Thread)
    (rest : List Deed) : Prop where
  /-- Before loading has ended no hook runs. -/
  none_before : (s.after first).hooksRanOf g = s.hooksRanOf g
  /-- When it ends for the first time, the hooks registered by then run: each of them once, in the order of their
  registration, and on a loaded graph. -/
  at_first : (s.after (first ++ [.finishLoad t g])).hooksRanOf g =
    s.hooksRanOf g ++ (s.registered g first).map LoadHook.mark
  /-- In the end those have run that were registered before loading ended for the last time, each of them once and
  on a loaded graph. -/
  at_last : (s.after (last ++ .finishLoad t' g :: rest)).hooksRanOf g =
    s.hooksRanOf g ++ (s.registered g last).map LoadHook.mark
  /-- Those registered since then wait. -/
  waiting : s.registered g (last ++ .finishLoad t' g :: rest) =
    s.registered g last ++ (s.after (last ++ .finishLoad t' g :: rest)).hooksAt g
  /-- No hook that was registered late has run, exactly if none was registered after loading began to end for the
  first time and before it began to end for the last time. -/
  none_late : (s.after (last ++ .finishLoad t' g :: rest)).hooksRanOf g =
      s.hooksRanOf g ++ (s.registered g first).map LoadHook.mark ↔
    s.registered g last = s.registered g first

/-- In every run in which loading ends, the load hooks that have run are those registered before it ended for
the last time, and not only those registered before it ended for the first time. -/
theorem load_hooks_ran (hg : (s.graphs.get? g).isSome = true) {first later last rest : List Deed} {t t' : Thread}
    (hfirst : ∀ d ∈ first, ¬ d.Finishes g) (hrest : ∀ d ∈ rest, ¬ d.Finishes g)
    (hrun : first ++ .finishLoad t g :: later = last ++ .finishLoad t' g :: rest) :
    HooksRun s g first t last t' rest := by
  -- Loading does not end in `first`, so that what is done until the last end starts with it.
  obtain ⟨between, rfl⟩ : first <+: last := by
    obtain ⟨between, hlast, -⟩ | ⟨between, hfirst', hbetween⟩ := List.append_eq_append_iff.1 hrun
    · exact ⟨between, hlast.symm⟩
    · cases between with
      | nil => exact ⟨[], by simp [hfirst']⟩
      | cons d between =>
        rw [List.cons_append, List.cons.injEq] at hbetween
        refine absurd ?_ (hfirst d (by simp [hfirst']))
        rw [← hbetween.1]
        exact rfl
  have hsplit : first ++ between ++ .finishLoad t' g :: rest = (first ++ between ++ [.finishLoad t' g]) ++ rest := by
    simp
  obtain ⟨hthere, -⟩ := ran_or_waits hg (first ++ between)
  obtain ⟨-, hooks, hthere'⟩ := finishLoad_runs hthere t'
  obtain ⟨-, hran, hwaiting⟩ := hooks_wait hthere' rest hrest
  have hlast : (s.after (first ++ between ++ .finishLoad t' g :: rest)).hooksRanOf g =
      s.hooksRanOf g ++ (s.registered g (first ++ between)).map LoadHook.mark := by
    rw [hsplit, after_append, after_concat]
    exact hran.trans (hooksRanOf_finishLoad hg (first ++ between) t')
  refine ⟨(hooks_wait hg first hfirst).2.1, ?_, hlast, ?_, ?_⟩
  · rw [after_concat]
    exact hooksRanOf_finishLoad hg first t
  · rw [hsplit, after_append, after_concat, registered_append, registered_concat, List.append_assoc, after_concat]
    refine congrArg _ (Eq.trans ?_ hwaiting.symm)
    rw [registered, hooks]
    rfl
  · rw [hlast, List.append_cancel_left_eq]
    refine ⟨fun h => ?_, fun h => by rw [h]⟩
    have hlength := congrArg List.length h
    rw [List.length_map, List.length_map] at hlength
    rw [registered_append] at hlength ⊢
    have hnone : ((s.after first).along (registers g) between).length = 0 := by
      rw [List.length_append] at hlength
      omega
    rw [List.length_eq_zero_iff.1 hnone, List.append_nil]

/-- An empty graph that is held. -/
def oneGraph : Scene where
  graphs := Table.empty.insert (.host 0) ⟨⟨.host 0, 0⟩, [], .host 0, .host 0, .host 0, .none, [], [.host "screen"]⟩
  binders := .empty
  taskCenters := .empty
  animationCenters := .empty
  queues := .empty
  events := []

/-- A hook is registered that registers another one when it runs. -/
def inTime : List Deed := [.addLoadHook (.host 0) (.mk "early" none [.mk "nested" none []])]

/-- Loading has ended, and one more hook is registered. -/
def tooLate : List Deed := inTime ++ [.finishLoad 0 (.host 0), .addLoadHook (.host 0) (.mk "late" none [])]

theorem oneGraph_hooks_ran : (oneGraph.graphs.get? (.host 0)).isSome = true ∧
    (∀ d ∈ inTime, ¬ d.Finishes (.host 0)) ∧
      HooksRun oneGraph (.host 0) inTime 0 tooLate 0 [.release (.host 0) (.host "screen")] := by
  have hnone : ∀ d ∈ inTime, ¬ d.Finishes (.host 0) := by
    intro d hd
    obtain rfl := List.mem_singleton.1 hd
    exact id
  have hrest : ∀ d ∈ [Deed.release (.host 0) (.host "screen")], ¬ d.Finishes (.host 0) := by
    intro d hd
    obtain rfl := List.mem_singleton.1 hd
    exact id
  have hrun : inTime ++ .finishLoad 0 (.host 0) :: [.addLoadHook (.host 0) (.mk "late" none []),
      .finishLoad 0 (.host 0), .release (.host 0) (.host "screen")] =
        tooLate ++ .finishLoad 0 (.host 0) :: [.release (.host 0) (.host "screen")] := rfl
  exact ⟨rfl, hnone, load_hooks_ran rfl hnone hrest hrun⟩

/-- A hook that is registered after loading has ended runs when it ends again. -/
theorem oneGraph_late_hook : oneGraph.registered (.host 0) [] = [] ∧
    (oneGraph.after [.finishLoad 0 (.host 0), .addLoadHook (.host 0) (.mk "late" none []),
      .finishLoad 0 (.host 0)]).hooksRanOf (.host 0) = [("late", true)] := ⟨rfl, rfl⟩

end Scene

end LiveScreen
