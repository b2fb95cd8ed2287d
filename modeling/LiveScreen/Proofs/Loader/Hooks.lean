/-
The load hooks of a screen. Until loading ends, those in its graph are the ones
that its parser has registered there and then those that were registered by
others since, whatever else the screens are used for (`hooksAt_of_run`).
-/
import LiveScreen.Proofs.Loader.Initialized
import LiveScreen.Proofs.Loader.InTurn
import LiveScreen.Proofs.Scene.Firing

namespace LiveScreen

/-- The load hook that a move registers in a graph. -/
def Move.hookFor? (g : GraphId) : Move → Option LoadHook
  | .addLoadHook g' hook => if g' = g then some hook else none
  | _ => none

namespace Scene

theorem get?_modifyGraph_other {s : Scene} {g g' : GraphId} (f : Graph → Graph) (h : g' ≠ g) :
    (s.modifyGraph g f).graphs.get? g' = s.graphs.get? g' := Table.get?_modify_other _ _ h

theorem hooksAt_congr {s s' : Scene} {g : GraphId} (h : s'.graphs.get? g = s.graphs.get? g) :
    s'.hooksAt g = s.hooksAt g := by
  simp only [hooksAt, h]

/-- The load hooks of a graph are kept while another one is loaded. -/
theorem hooksAt_finishLoad_other (s : Scene) (t : Thread) {g g' : GraphId} (h : g' ≠ g) :
    (s.finishLoad t g).hooksAt g' = s.hooksAt g' := by
  have hrun : ∀ (s : Scene) (hook : LoadHook), (runHook t g s hook).hooksAt g' = s.hooksAt g' := by
    intro s hook
    obtain ⟨tag, update, nested⟩ := hook
    unfold runHook
    rw [foldl_frame (f := fun s hook => s.addLoadHook g hook) (·.hooksAt g')
      fun s hook => hooksAt_congr (get?_modifyGraph_other _ h)]
    split
    · exact (Same.of_leads Graph.lasting_hooks (leads_update _ t _ _ _)).hooksAt g'
    · rfl
  unfold finishLoad
  split
  · rfl
  · rw [foldl_frame (·.hooksAt g') hrun]
    exact hooksAt_congr (get?_modifyGraph_other _ h)

/-- A step of a call that does not run the load hooks of a graph keeps them. -/
theorem hooksAt_act (call : LoadCall) (s : Scene) {g : GraphId} (h : call.stage ≠ .runHooks g) :
    (call.act s).hooksAt g = s.hooksAt g := by
  cases hstage : call.stage with
  | mount g' params =>
    have hmounted : Same (·.hooks) s (s.mountGraph g' params call.request.listener) := .modifyGraph s g' fun _ => rfl
    simp only [LoadCall.act, hstage]
    exact hmounted.hooksAt g
  | runHooks g' =>
    simp only [LoadCall.act, hstage]
    refine hooksAt_finishLoad_other s _ ?_
    rintro rfl
    exact h hstage
  | _ =>
    have hsame : Same (·.hooks) s (call.act s) := LoadCall.same_act Graph.lasting_hooks call
      (fun _ _ => by simp [hstage]) (fun _ => by simp [hstage]) s
    exact hsame.hooksAt g

end Scene

namespace App

variable {start a a' : App} {i : ScreenId}

/-- The parser of a screen registers the hooks of the markup in the graph that it builds. -/
theorem hooksAt_builtScene (a : App) (job : Job) (b c n : Owner) (decl : GraphDecl) (hooks : List LoadHook) :
    (a.builtScene job b c n decl hooks).hooksAt (.screen job.screen) = hooks := by
  unfold builtScene
  have hbuilt := Scene.graphs_build a.scene (a.request job b c n) (.screen job.screen) decl
  have hget : (a.scene.build (a.request job b c n) (.screen job.screen) decl).graphs.get? (.screen job.screen) =
      some ((a.request job b c n).graphOf (.screen job.screen) decl.root) := by rw [hbuilt, Table.get?_insert_self]
  have hsome : ((a.scene.build (a.request job b c n) (.screen job.screen) decl).graphs.get?
      (.screen job.screen)).isSome = true := by rw [hget]; rfl
  have hheld := Scene.Same.hold Graph.lasting_hooks (hooks.foldl (fun s hook => s.addLoadHook (.screen job.screen) hook)
    (a.scene.build (a.request job b c n) (.screen job.screen) decl)) (.screen job.screen) (.job job.screen)
  rw [Scene.Same.hooksAt hheld, (Scene.foldl_addLoadHook hooks hsome).1, Scene.hooksAt_eq hget]
  rfl

/-- Building a screen leaves the graphs of others alone. -/
theorem get?_builtScene_other (a : App) (job : Job) (b c n : Owner) (decl : GraphDecl) (hooks : List LoadHook)
    {g : GraphId} (h : g ≠ .screen job.screen) :
    (a.builtScene job b c n decl hooks).graphs.get? g = a.scene.graphs.get? g := by
  unfold builtScene
  rw [Scene.hold, Scene.get?_modifyGraph_other _ h,
    Scene.foldl_frame (f := fun s hook => s.addLoadHook (.screen job.screen) hook) (·.graphs.get? g)
      fun s hook => Scene.get?_modifyGraph_other _ h,
    Scene.graphs_build, Table.get?_insert_other _ _ h]

/-- What the parser finds stays the same. -/
theorem markups_step {m : Move} (h : a.step? m = some a') : a'.markups = a.markups := by
  cases m with
  | addScreen | openGate | update | perform | animate | addLoadHook | poll =>
    cases h
    rfl
  | prepare j markup options =>
    cases h
    unfold prepare
    split
    · rfl
    · split <;> rfl
  | load c r =>
    obtain ⟨-, rfl⟩ := addCall?_eq_some h
    rfl
  | resume c =>
    obtain ⟨call, screen, stage, flag, -, -, -, rfl⟩ := resume?_eq_some h
    rfl
  | expire c =>
    obtain ⟨r, -, rfl⟩ := expire?_eq_some h
    rfl
  | take j =>
    obtain ⟨job, rest, -, -, rfl⟩ := takeJob?_eq_some h
    rfl
  | work j =>
    obtain ⟨k, job, screen, e, -, -, -, -, rfl⟩ := work?_eq_some h
    rfl
  | discard j =>
    obtain ⟨-, rfl⟩ := discardJob?_eq_some h
    rfl
  | drop j =>
    cases h
    cases hs : a.screens.get? j with
    | none => simp [dropScreen, hs]
    | some screen => rw [dropScreen_eq hs]
  | present t j value =>
    cases h
    rw [present_eq]

theorem markups_of_run (ms : List Move) (h : start.steps? ms = some a) : a.markups = start.markups :=
  run_induction (P := fun _ a => a.markups = start.markups) rfl
    (fun _ _ _ _ _ ih hstep => (markups_step hstep).trans ih) ms h

/-- A screen or a job only knows a graph that is there. -/
theorem Known.isSome_graph (hk : Known i a) (hp : Prepared i a) : (a.scene.graphs.get? (.screen i)).isSome = true := by
  have hmount : (a.scene.mount? (.screen i)).isSome = true := by
    rcases hk with hview | ⟨job, hmem, hgraph⟩
    · exact (hp.view _ hview).2
    · rcases hp.jobs with hnil | ⟨job', hone, -, howns⟩
      · rw [hnil] at hmem
        cases hmem
      · rw [hone] at hmem
        obtain rfl := List.mem_singleton.1 hmem
        exact (howns _ hgraph).2
  rwa [Scene.mount?, Option.isSome_map] at hmount

/-- The load hooks in the graph of a screen are those of the markup that was asked for first, from the step on in
which the parser registered them, and then those that the moves since have registered. -/
def Registered (start : App) (i : ScreenId) (ms : List Move) (s : Scene) : Prop :=
  ∃ first before after b, ms = before ++ .work i :: after ∧ (start.asked i before).head? = some first ∧
    start.steps? (before ++ [.work i]) = some b ∧ b.scene.hooksAt (.screen i) = (start.markup first.1).hooks ∧
      s.hooksAt (.screen i) = (start.markup first.1).hooks ++ after.filterMap (·.hookFor? (.screen i))

theorem Registered.step {ms : List Move} {m : Move} {s s' : Scene} (hr : Registered start i ms s)
    (h : s'.hooksAt (.screen i) = s.hooksAt (.screen i) ++ (m.hookFor? (.screen i)).toList) :
    Registered start i (ms ++ [m]) s' := by
  obtain ⟨first, before, after, b, rfl, hfirst, hb, hbuilt, hat⟩ := hr
  refine ⟨first, before, after ++ [m], b, by rw [List.append_assoc, List.cons_append], hfirst, hb, hbuilt, ?_⟩
  rw [h, hat, List.filterMap_append, List.append_assoc]
  cases hhook : m.hookFor? (.screen i) <;> simp [hhook]

/-- A move that does not build the graph of a screen and does not end its loading keeps the load hooks in the graph,
and may register one more. -/
theorem hooksAt_step (hk : Known i a) (hp : Prepared i a) {m : Move} (h : a.step? m = some a') (hwork : m ≠ .work i)
    (hrun : ∀ c call, m = .resume c → a.calls.get? c = some call → call.stage ≠ .runHooks (.screen i)) :
    a'.scene.hooksAt (.screen i) = a.scene.hooksAt (.screen i) ++ (m.hookFor? (.screen i)).toList := by
  by_cases hhook : ∃ g hook, m = .addLoadHook g hook
  · obtain ⟨g, hook, rfl⟩ := hhook
    cases h
    by_cases hg : g = .screen i
    · subst hg
      rw [Move.hookFor?, if_pos rfl, Option.toList_some]
      exact (Scene.foldl_addLoadHook [hook] (hk.isSome_graph hp)).1
    · rw [Move.hookFor?, if_neg hg, Option.toList_none, List.append_nil]
      exact Scene.hooksAt_congr (Scene.get?_modifyGraph_other _ (Ne.symm hg))
  · have hnone : m.hookFor? (.screen i) = none := by
      cases m with
      | addLoadHook g hook => exact absurd ⟨g, hook, rfl⟩ hhook
      | _ => rfl
    rw [hnone, Option.toList_none, List.append_nil]
    rcases same_step h with hsame | ⟨job, b, c, n, decl, rfl, -, hbuilt⟩ | ⟨c, call, rfl, hcall, hscene⟩ |
      ⟨g, hook, hm, -⟩
    · exact (hsame Graph.lasting_hooks).hooksAt _
    · rw [hbuilt]
      exact Scene.hooksAt_congr (get?_builtScene_other _ _ _ _ _ _ _ fun he => hwork (by rw [Owner.screen.inj he]))
    · rw [hscene]
      exact Scene.hooksAt_act call a.scene (hrun c call rfl hcall)
    · exact absurd ⟨g, hook, hm⟩ hhook

/-- **Load hooks wait for the end of loading.** As long as nobody has ended the loading of a screen, the load
hooks in its graph are those that the parser has registered there, for the first call that asked for the
screen, and those that were registered since. -/
theorem hooksAt_of_run (hb : start.Blank) (i : ScreenId) (ms : List Move) (h : start.steps? ms = some a)
    (hl : start.Lends ms) (hno : ∀ c, (c, .runHooks (.screen i)) ∉ start.completed i ms) (hk : Known i a) :
    Registered start i ms a.scene := by
  refine run_induction (P := fun ms a => start.Lends ms → (∀ c, (c, .runHooks (.screen i)) ∉ start.completed i ms) →
    Known i a → Registered start i ms a.scene) ?_ ?_ ms h hl hno hk
  · exact fun _ _ hk => absurd hk (hb.not_known i)
  · intro ms a m a' ha ih hstep hl hno hk
    have hp := prepared_of_run hb.toFresh i ms ha
    have hcompleted := completed_concat i m ms ha (by rw [hstep]; rfl)
    have hbefore : Known i a → Registered start i ms a.scene := ih hl.init fun c hmem => by
      refine hno c ?_
      rw [hcompleted]
      exact List.mem_append_left _ hmem
    by_cases hwork : m = .work i
    · subst hwork
      rcases known_of_work hp hstep hk with ⟨job, b, c, n, decl, rfl, hmem, hbuilt⟩ | ⟨hk, hsame⟩
      · have hfirst := (first_of_run hb job.screen ms ha hl.init).jobs job hmem
        have hhooks : a'.scene.hooksAt (.screen job.screen) = (start.markup job.markup).hooks := by
          rw [hbuilt, hooksAt_builtScene]
          simp only [App.markup, markups_of_run ms ha]
        have hrun : start.steps? (ms ++ [.work job.screen]) = some a' := by
          rw [steps?_append, ha, Option.bind_some, steps?, hstep]
          rfl
        exact ⟨_, ms, [], a', rfl, hfirst, hrun, hhooks, by rw [hhooks]; exact (List.append_nil _).symm⟩
      · have hnone : (Move.work i).hookFor? (.screen i) = none := rfl
        refine (hbefore hk).step ?_
        rw [(hsame Graph.lasting_hooks).hooksAt, hnone, Option.toList_none, List.append_nil]
    · have hk := known_of_step hp hstep hwork hk
      refine (hbefore hk).step (hooksAt_step hk hp hstep hwork fun c call hm hcall hstage => ?_)
      subst hm
      -- The call would have run the load hooks of its own screen.
      obtain ⟨he, -⟩ := (recorded_of_run hb.toFresh c.screen ms ha).1.graph c call rfl hcall (.screen i)
        (by rw [hstage]; rfl)
      obtain rfl := Owner.screen.inj he
      refine hno c ?_
      rw [hcompleted, completed?_of_passed rfl hcall (by rw [hstage]; rfl), hstage]
      exact List.mem_append_right _ (List.mem_singleton_self _)

end App

end LiveScreen
