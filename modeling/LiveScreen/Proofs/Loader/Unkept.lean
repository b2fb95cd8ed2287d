/-
Screens whose graph is not kept. The job of a screen looks whether the screen is still
there when the parser has returned; only if it is does the job keep the graph and go on
to attach it. As long as it has not (`Unkept`), the screen has no view, no loading finds
one, the graph is attached to nothing (`Scene.Loose`), the callback is not called, and no
move on the screen does anything to the rest of the application (`Unkept.only_step`).
-/
import LiveScreen.Proofs.Loader.CalledBack
import LiveScreen.Proofs.Loader.Apart

namespace LiveScreen

open Scene

namespace JobStage

/-- The job has found the screen there after the parser returned, and has not called back yet. -/
def keeping : JobStage → Bool
  | .attach _ | .addView _ | .publish _ | .letGo | .callBack => true
  | _ => false

theorem keeping_of_attaching {stage : JobStage} (h : stage.attaching = true) : stage.keeping = true := by
  cases stage <;> first | rfl | cases h

theorem keeping_of_not_built {stage : JobStage} (h : stage.built = false) : stage.keeping = false := by
  cases stage <;> first | rfl | cases h

end JobStage

theorem LoadStage.passed_of_graph?_eq_none {stage : LoadStage} (h : stage.graph? = none) : stage.passed = false := by
  cases stage <;> first | rfl | cases h

/-- What a move uses that a screen may have made: a binder or a graph. -/
def Move.uses? : Move → Option Owner
  | .update _ b .. => some b
  | .perform _ g _ | .animate _ g _ | .addLoadHook g _ => some g
  | _ => none

theorem Move.within_without {i : ScreenId} {m : Move} (h : m.within (Part.without i (.screen i)) = false) :
    m.screen? = some i ∨ m.uses? = some (.screen i) := by
  cases m <;> simp_all [Move.within, Move.screen?, Move.uses?, Part.without]

namespace Scene

variable {a : App} {i : ScreenId} {g g' : GraphId} {s s' : Scene}

/-! ## Graphs that are attached nowhere -/

/-- A graph is among the views of no binder, and no task center runs its actions on it. -/
structure Loose (s : Scene) (g : GraphId) : Prop where
  views : ∀ b binder, s.binders.get? b = some binder → g ∉ binder.views
  attached : ∀ c center, s.taskCenters.get? c = some center → center.graph ≠ some g

theorem Loose.quiet (h : s.Loose g) (hq : Quiet s s') : s'.Loose g where
  views b binder' hbinder' hg := by
    obtain ⟨binder, hbinder, hsub⟩ := hq.views b binder' hbinder'
    exact h.views b binder hbinder (hsub hg)
  attached c center' hcenter' hg := by
    obtain ⟨center, hcenter, hgraph⟩ := hq.attached c center' hcenter'
    exact h.attached c center hcenter (hgraph ▸ hg)

theorem Loose.emit (h : s.Loose g) (e : Event) : (s.emit e).Loose g := ⟨h.views, h.attached⟩

theorem Loose.attach (h : s.Loose g) (hne : g' ≠ g) (c : TaskCenterId) : (s.attach c g').Loose g := by
  refine ⟨h.views, fun c' center hcenter hg => ?_⟩
  simp only [Scene.attach, modifyTasks, Table.get?_modify] at hcenter
  split at hcenter
  · obtain ⟨old, -, rfl⟩ := Option.map_eq_some_iff.1 hcenter
    exact hne (Option.some.inj hg)
  · exact h.attached c' center hcenter hg

theorem Loose.addView (h : s.Loose g) (hne : g' ≠ g) (b : BinderId) : (s.addView b g').Loose g := by
  unfold Scene.addView
  cases hbinder : s.binders.get? b with
  | none => exact h
  | some binder =>
    have hviews : (s.modifyBinder b fun binder => { binder with views := binder.views ++ [g'] }).Loose g := by
      refine ⟨fun b' binder' hbinder' hg => ?_, h.attached⟩
      simp only [modifyBinder, Table.get?_modify] at hbinder'
      split at hbinder'
      · rw [hbinder] at hbinder'
        cases hbinder'
        rcases List.mem_append.1 hg with hold | hnew
        · exact h.views b binder hbinder hold
        · exact hne (List.mem_singleton.1 hnew).symm
      · exact h.views b' binder' hbinder' hg
    exact hviews.quiet (.modifyGraph _ g' fun graph => Graph.services_applyAll graph binder.values.entries)

theorem Loose.serve (h : s.Loose g) (job : Job) : (job.serve s).Loose g := by
  have hbinder : ∀ b values, (s.withBinder b (.new values)).Loose g := by
    refine fun b values => ⟨fun b' binder' hbinder' hg => ?_, h.attached⟩
    simp only [withBinder, Table.get?_insert] at hbinder'
    split at hbinder'
    · cases hbinder'
      cases hg
    · exact h.views b' binder' hbinder' hg
  have hcenters : ∀ {s : Scene} o restricted animations, s.Loose g →
      (s.withCenters o (.new restricted) animations).Loose g := by
    refine fun o restricted animations h => ⟨h.views, fun c center hcenter hg => ?_⟩
    simp only [withCenters, Table.get?_insert] at hcenter
    split at hcenter
    · cases hcenter
      cases hg
    · exact h.attached c center hcenter hg
  unfold Job.serve
  cases job.options.binder with
  | some b => exact hcenters _ _ _ h
  | none => exact hcenters _ _ _ (hbinder _ _)

theorem Loose.builtScene {job : Job} {b c n : Owner} (h : a.scene.Loose g) (decl : GraphDecl) (hooks : List LoadHook) :
    (a.builtScene job b c n decl hooks).Loose g := by
  have hgraph : ∀ graph, (a.scene.withNew (.screen job.screen) graph).Loose g := fun _ => ⟨h.views, h.attached⟩
  have hnamed : ∀ (named : List (String × Animation)) (s : Scene), s.Loose g →
      (named.foldl (fun s x => s.insertAnimation n x.1 x.2) s).Loose g := fun named s hs =>
    hs.quiet (.foldl (fun s x => .insertAnimation s n x.1 x.2) named s)
  have hbuilt : (a.scene.build (a.request job b c n) (.screen job.screen) decl).Loose g :=
    (hnamed _ _ (hgraph _)).quiet (.foldl (fun s task => .addTask s _ task) _ _)
  exact (hbuilt.quiet (.foldl (fun s hook => .addLoadHook s _ hook) hooks _)).quiet (.hold _ _ _)

/-- A step of an initialization attaches only the graph of its screen. -/
theorem Loose.effect {job : Job} {screen : Screen} {e : JobEffect} (h : a.scene.Loose (.screen i))
    (he : job.effect? a screen = some e) (hgraph : ∀ g, job.stage.graph? = some g → g = .screen job.screen)
    (hkeep : job.screen = i → job.stage.keeping = false) : e.scene.Loose (.screen i) := by
  have hother : job.stage.keeping = true → Owner.screen job.screen ≠ .screen i := by
    intro hstage hi
    rw [hkeep (Owner.screen.inj hi)] at hstage
    cases hstage
  cases Job.turn_of_effect he with
  | giveUp | begin | fail | keep | letGo | release => exact h
  | call =>
    rw [App.callParser_eq]
    exact (h.serve job).emit _
  | build decl hooks => exact h.builtScene decl hooks
  | discard | forget => exact h.quiet (.release _ _ _)
  | attach hstage =>
    obtain rfl := hgraph _ (by rw [hstage]; rfl)
    exact h.attach (hother (by rw [hstage]; rfl)) _
  | addView hstage =>
    obtain rfl := hgraph _ (by rw [hstage]; rfl)
    exact h.addView (hother (by rw [hstage]; rfl)) _
  | publish => exact (h.quiet (.hold _ _ _)).quiet (.release _ _ _)
  | callBack _ hcalled =>
    rcases hcalled with rfl | ⟨line, rfl⟩
    · exact h
    · exact h.emit _

end Scene

namespace App

variable {start a a' b : App} {i : ScreenId} {ms : List Move} {m : Move}

/-! ## Initializations that were not kept -/

/-- The screen has no view, its job keeps no graph for it, and no loading has found one. -/
structure Unkept (i : ScreenId) (a : App) : Prop where
  view : (a.screen i).view = none
  jobs : ∀ job ∈ a.jobs i, job.stage.keeping = false
  calls : ∀ c call, c.screen = i → a.calls.get? c = some call → call.stage.graph? = none

theorem Unkept.not_attaching (hu : Unkept i a) {job : Job} (hjob : job ∈ a.jobs i) : job.stage.attaching ≠ true := by
  intro hattach
  have hkeep := JobStage.keeping_of_attaching hattach
  rw [hu.jobs job hjob] at hkeep
  cases hkeep

theorem keeping_effect {job : Job} {screen : Screen} {e : JobEffect} (h : job.effect? a screen = some e)
    (hkeep : e.stage.keeping = true) :
    job.stage.keeping = true ∨ (∃ g, job.stage = .parsed g) ∧ screen.dropped = false := by
  cases Job.turn_of_effect h with
  | giveUp | begin | fail | build | discard | callBack | release => cases hkeep
  | call =>
    rw [callParser_eq] at hkeep
    cases hkeep
  | keep hstage =>
    refine .inr ⟨⟨_, hstage⟩, ?_⟩
    cases hdropped : screen.dropped with
    | false => rfl
    | true =>
      simp only [Job.effect?, hstage, hdropped, if_true] at h
      cases h
  | attach hstage | addView hstage | publish hstage | forget hstage | letGo hstage => exact .inl (by rw [hstage]; rfl)

/-- The view is not set and no loading finds one as long as the job keeps nothing. -/
theorem Unkept.step (hu : Unkept i a) (hp : Prepared i a) (hm : a.step? m = some a')
    (hjobs : ∀ job ∈ a'.jobs i, job.stage.keeping = false) : Unkept i a' := by
  refine ⟨?_, hjobs, fun c call hc hcall => ?_⟩
  · cases hview : (a'.screen i).view with
    | none => rfl
    | some g =>
      by_cases hwork : m = .work i
      · subst hwork
        rcases hp.jobs with hnil | ⟨job, hone, -, -⟩
        · exact absurd hnil (jobs_ne_nil_of_work hm)
        obtain ⟨screen, e, rfl, hs, heff, hscreens, -, -⟩ := jobs_work_self hm hone
        have hmem : job ∈ a.jobs job.screen := by rw [hone]; exact List.mem_singleton_self _
        have hnone := hu.view
        rw [screen_eq hs] at hnone
        rw [screen_modify_self hs _ hscreens] at hview
        cases Job.turn_of_effect heff with
        | publish hstage =>
          have hno := hu.jobs job hmem
          rw [hstage] at hno
          cases hno
        | forget => cases hview
        | _ =>
          rw [← hview]
          exact hnone
      · rw [← view_of_step hm hwork g hview]
        exact hu.view
  · cases callMove_of_step hm i with
    | elsewhere _ calls =>
      rw [calls c hc] at hcall
      exact hu.calls c call hc hcall
    | load _ _ after | expire _ _ after =>
      rcases calls_insert_cases (by rw [after]) hcall with ⟨-, rfl⟩ | ⟨-, hold⟩
      · rfl
      · exact hu.calls c call hc hold
    | @resume c' call' stage flag about before _ next after =>
      rcases calls_insert_cases (by rw [after]) hcall with ⟨rfl, rfl⟩ | ⟨-, hold⟩
      · cases hgraph : stage.graph? with
        | none => rfl
        | some g =>
          rcases (LoadCall.turn_of_next next).graph hgraph with hbefore | hview
          · rw [hu.calls c call' hc before] at hbefore
            cases hbefore
          · rw [hu.view] at hview
            cases hview
      · exact hu.calls c call hc hold

/-- A step of an initialization dispatches nothing. -/
theorem queues_effect {job : Job} {screen : Screen} {e : JobEffect} (h : job.effect? a screen = some e) :
    e.scene.queues = a.scene.queues := by
  cases Job.turn_of_effect h with
  | giveUp | begin | fail | keep | letGo | release | discard | forget | attach | publish => rfl
  | call =>
    rw [callParser_eq]
    unfold Job.serve
    cases job.options.binder <;> rfl
  | build decl hooks =>
    exact (Scene.foldl_frame (f := fun s hook => s.addLoadHook (.screen job.screen) hook) Scene.queues (fun _ _ => rfl)
      hooks _).trans (Scene.queues_build ..)
  | @addView g graph => exact Scene.queues_addView graph.binder g
  | callBack _ hcalled => rcases hcalled with rfl | ⟨line, rfl⟩ <;> rfl

/-- What is done with a screen whose graph is not kept stays with the screen, and dispatches nothing. -/
theorem Unkept.only_step (hu : Unkept i a) (hhome : a.AtHome) (hm : a.step? m = some a') (hi : m.screen? = some i) :
    a'.scene.only (Part.without i (.screen i)) = a.scene.only (Part.without i (.screen i)) ∧
      a'.scene.queues = a.scene.queues := by
  have same : ∀ {s : Scene}, s = a.scene →
      s.only (Part.without i (.screen i)) = a.scene.only (Part.without i (.screen i)) ∧ s.queues = a.scene.queues := by
    rintro s rfl
    exact ⟨rfl, rfl⟩
  cases m with
  | addScreen | openGate | update | perform | animate | addLoadHook | poll => cases hi
  | prepare j markup options =>
    cases hm
    refine same ?_
    unfold App.prepare
    split
    · rfl
    · split <;> rfl
  | load c r =>
    obtain ⟨-, rfl⟩ := addCall?_eq_some hm
    exact same rfl
  | resume c =>
    obtain ⟨call, screen, stage, flag, hcall, -, -, rfl⟩ := resume?_eq_some hm
    have hnone := hu.calls c call (Option.some.inj hi) hcall
    exact same (LoadCall.act_of_not_passed (LoadStage.passed_of_graph?_eq_none hnone) _)
  | expire c =>
    obtain ⟨r, -, rfl⟩ := expire?_eq_some hm
    exact same rfl
  | take j =>
    obtain ⟨job, rest, -, -, rfl⟩ := takeJob?_eq_some hm
    exact same rfl
  | work j =>
    cases hi
    obtain ⟨k, job, screen, e, hk, rfl, hs, he, rfl⟩ := work?_eq_some hm
    have hjob := mem_jobs_of_busy hk
    have hown : (Part.without job.screen (.screen job.screen)).owns (.screen job.screen) = false := by
      simp [Part.without]
    refine ⟨effect_out he hown (hhome.served _ job hjob) (hhome.graph _ job hjob) (fun g hg => ?_) (fun _ => hown)
      fun hattach => absurd hattach (hu.not_attaching hjob), queues_effect he⟩
    exact hhome.view _ g (by rw [screen_eq hs, hg])
  | discard j =>
    obtain ⟨-, rfl⟩ := discardJob?_eq_some hm
    exact same rfl
  | drop j =>
    cases hi
    cases hm
    refine same ?_
    have hview := hu.view
    cases hs : a.screens.get? i with
    | none => simp only [dropScreen, hs]
    | some screen =>
      rw [screen_eq hs] at hview
      rw [dropScreen_eq hs]
      dsimp only
      rw [hview]
      split
      · rename_i hg
        cases hg
      · rfl
  | present t j value =>
    cases hi
    cases hm
    refine same ?_
    rw [present_eq_display, hu.view]
    rfl

end App

end LiveScreen
