/-
What the job of a screen has established when it comes to a stage: the services
of the screen, the graph with somebody who keeps it, the graph attached to the
task center, and to the binder (`JobStage.Ready`). The view of a screen is set
after all of this, and stays established while it is the view
(`Established.step`).
-/
import LiveScreen.Proofs.Loader.Ownership
import LiveScreen.Proofs.Scene.Published

namespace LiveScreen

/-! ## Stages -/

namespace JobStage

/-- The parser was not called yet. -/
def early : JobStage → Bool
  | .start | .parse => true
  | _ => false

/-- The view was not set yet. -/
def unpublished : JobStage → Bool
  | .start | .parse | .parsing .. | .parsed _ | .attach _ | .addView _ | .publish _ => true
  | _ => false

/-- What the job of a screen has established when it comes to a stage. -/
def Ready (i : ScreenId) (s : Scene) : JobStage → Prop
  | .parsing b c _ => (s.binders.get? b).isSome = true ∧ c = .screen i ∧ (s.taskCenters.get? (.screen i)).isSome = true
  | .parsed _ | .attach _ => s.Made i ∧ s.Kept i (.job i)
  | .addView _ => s.Made i ∧ s.Kept i (.job i) ∧ s.Attached i
  | .publish _ => s.Made i ∧ s.Kept i (.job i) ∧ s.Attached i ∧ s.Viewed i
  | _ => True

theorem Ready.steady {i : ScreenId} {s s' : Scene} (hs : Scene.Steady (· ≠ .screen i) s s') {stage : JobStage}
    (h : stage.Ready i s) : stage.Ready i s' := by
  cases stage with
  | parsing b c n =>
    obtain ⟨hb, hc, hcenter⟩ := h
    exact ⟨hs.known b hb, hc, by rw [hs.isSome_taskCenters (by simp), hcenter]⟩
  | parsed g | attach g => exact ⟨h.1.steady hs, h.2.steady hs⟩
  | addView g => exact ⟨h.1.steady hs, h.2.1.steady hs, h.2.2.steady hs⟩
  | publish g =>
    obtain ⟨hm, hk, ha, hv⟩ := h
    exact ⟨hm.steady hs, hk.steady hs, ha.steady hs, hv.steady hs hk⟩
  | _ => trivial

/-- What was established does not rest on the screen holding its graph. -/
theorem Ready.release {i : ScreenId} {s : Scene} {stage : JobStage} (h : stage.Ready i s) :
    stage.Ready i (s.release (.screen i) (.screen i)) := by
  have hmade : s.Made i → (s.release (.screen i) (.screen i)).Made i := .modifyGraph fun _ => ⟨rfl, rfl⟩
  have hkept : s.Kept i (.job i) → (s.release (.screen i) (.screen i)).Kept i (.job i) := (·.release nofun)
  cases stage with
  | parsed g | attach g => exact ⟨hmade h.1, hkept h.2⟩
  | addView g => exact ⟨hmade h.1, hkept h.2.1, h.2.2⟩
  | publish g => exact ⟨hmade h.1, hkept h.2.1, h.2.2.1, h.2.2.2.modifyGraph fun _ => rfl⟩
  | _ => exact h

end JobStage

namespace App

variable {a a' : App} {i j : ScreenId}

/-- What was established for a screen, and what was not begun. -/
structure Established (i : ScreenId) (a : App) : Prop where
  unparsed : (a.screen i).calledInitialize = false ∨ (∃ job ∈ a.jobs i, job.stage.early = true) →
    a.scene.binders.get? (.screen i) = none ∧ a.scene.parses i = []
  lent : ∀ job ∈ a.jobs i, job.stage.early = true → ∀ b, job.options.binder = some b →
    (a.scene.binders.get? b).isSome = true
  stage : ∀ job ∈ a.jobs i, job.stage.Ready i a.scene
  unpublished : (a.screen i).calledInitialize = false ∨ (∃ job ∈ a.jobs i, job.stage.unpublished = true) →
    (a.screen i).view = none
  view : ∀ g, (a.screen i).view = some g → a.scene.Published i
  ended : (a.screen i).calledInitialize = true → a.jobs i = [] → (a.screen i).released = true

/-! ## What stays -/

theorem steady_act {off : Owner → Prop} (call : LoadCall) (s : Scene) : Scene.Steady off s (call.act s) := by
  have with_graph : ∀ (g : GraphId) (f : Graph → Scene → Scene), (∀ graph s, Scene.Steady off s (f graph s)) →
      Scene.Steady off s (withGraph g f s) := by
    intro g f hf
    unfold withGraph
    split
    · exact hf _ s
    · exact .refl s
  have fired : ∀ (g : GraphId) (hook : Hook), Scene.Steady off s (fire call.request.thread g hook s) := by
    intro g hook
    unfold fire
    split
    · exact .notify s _ _ hook ""
    · exact .refl s
  unfold LoadCall.act
  cases call.stage with
  | bindAnimations g params => exact with_graph g _ fun graph s => .setAnimationUi s graph.animations _
  | mount g params => exact .mountGraph s g params _
  | store g rest =>
    cases rest with
    | nil => exact .refl s
    | cons e rest => exact with_graph g _ fun graph s => .of_leads (Scene.leads_update s _ graph.binder e.1 e.2)
  | bindData g => exact with_graph g _ fun graph s => .setBinderUi s graph.binder _
  | markLoaded g => exact with_graph g _ fun graph s => .setLoaded s graph.binder
  | fireData g => exact fired g .dataInitialize
  | fireFinish g => exact fired g .loadFinish
  | runHooks g => exact .finishLoad s _ g
  | _ => exact .refl s

section Effect

variable {job : Job} {screen : Screen} {e : JobEffect}

/-- Only a screen that was asked for has a job. -/
theorem Prepared.called (hp : Prepared i a) (hmem : job ∈ a.jobs i) : (a.screen i).calledInitialize = true := by
  cases hc : (a.screen i).calledInitialize with
  | true => rfl
  | false =>
    rw [(hp.idle hc).1] at hmem
    cases hmem

theorem Prepared.own (hp : Prepared job.screen a) (hmem : job ∈ a.jobs job.screen) {g : GraphId}
    (hg : job.stage.graph? = some g) : g = .screen job.screen := by
  rcases hp.jobs with hnil | ⟨job', hone, -, ho⟩
  · rw [hnil] at hmem
    cases hmem
  · rw [hone] at hmem
    obtain rfl := List.mem_singleton.1 hmem
    exact (ho g hg).1

/-- A step of an initialization changes nothing that belongs to other screens. -/
theorem steady_effect (h : job.effect? a screen = some e) (hmem : job ∈ a.jobs job.screen)
    (hs : a.screens.get? job.screen = some screen) (hp : Prepared job.screen a) (he : Established job.screen a) :
    Scene.Steady (· = .screen job.screen) a.scene e.scene := by
  have hown : ∀ g, job.stage.graph? = some g → g = .screen job.screen := fun g hg => hp.own hmem hg
  have hheld : ∀ (s : Scene) (holder : Holder), Scene.Steady (· = Owner.screen job.screen) s
      (s.hold (.screen job.screen) holder) := fun s holder => .hold s (by rfl) holder
  have hreleased : ∀ (s : Scene) (holder : Holder), Scene.Steady (· = Owner.screen job.screen) s
      (s.release (.screen job.screen) holder) := fun s holder => .release s (by rfl) holder
  cases Job.turn_of_effect h with
  | giveUp | begin | fail | keep | letGo | release => exact .refl _
  | call hstage =>
    have habsent := (he.unparsed (.inr ⟨job, hmem, by rw [hstage]; rfl⟩)).1
    have hcenters : ∀ s : Scene, Scene.Steady (· = Owner.screen job.screen) s { s with
        taskCenters := s.taskCenters.insert (.screen job.screen) (.new job.options.restricted)
        animationCenters := s.animationCenters.insert (.screen job.screen) (.new job.options.context) } := by
      intro s
      have htasks : Scene.Steady (· = Owner.screen job.screen) s { s with
          taskCenters := s.taskCenters.insert (.screen job.screen) (.new job.options.restricted) } :=
        .insertTasks s (by rfl) _
      exact htasks.trans (.of_parts rfl rfl rfl (fun _ _ => rfl) fun _ _ => rfl)
    have hparsed : ∀ (s : Scene) line, Scene.Steady (· = Owner.screen job.screen) s
        (s.emit (.parsed job.screen job.markup line)) := by
      intro s line
      refine .emit s fun i hi => if_neg ?_
      rintro rfl
      exact hi rfl
    unfold callParser
    cases job.options.binder with
    | some b => exact (hcenters _).trans (hparsed _ _)
    | none =>
      have hbinder : Scene.Steady (· = Owner.screen job.screen) a.scene { a.scene with
          binders := a.scene.binders.insert (.screen job.screen) (.new job.options.initialData) } :=
        .insertBinder a.scene (by rfl) habsent _
      exact (hbinder.trans (hcenters _)).trans (hparsed _ _)
  | build decl hooks =>
    have hbuilt : ∀ r, Scene.Steady (· = Owner.screen job.screen) a.scene
        (a.scene.build r (.screen job.screen) decl) := fun r => .build a.scene r (by rfl) decl
    exact ((hbuilt _).trans (.foldl (fun s hook => .addLoadHook s _ hook) hooks _)).trans (hheld _ _)
  | discard hstage =>
    obtain rfl := hown _ (by rw [hstage]; rfl)
    exact hreleased _ _
  | attach hstage hgraph =>
    obtain rfl := hown _ (by rw [hstage]; rfl)
    have hready := he.stage job hmem
    rw [hstage] at hready
    obtain ⟨⟨graph, hgraph', htasks, -⟩, -⟩ := hready
    obtain rfl := Option.some.inj (hgraph.symm.trans hgraph')
    dsimp only
    rw [htasks]
    exact .attach a.scene (by rfl) _
  | addView => exact .addView _ _ _
  | publish hstage =>
    obtain rfl := hown _ (by rw [hstage]; rfl)
    exact (hheld _ _).trans (hreleased _ _)
  | forget _ _ hview =>
    obtain rfl := (hp.view _ (by rw [screen_eq hs, hview])).1
    exact hreleased _ _
  | callBack hstage hcalled =>
    rcases hcalled with rfl | ⟨line, rfl⟩
    · exact .refl _
    · exact .emit _ fun _ _ => rfl

/-- What the parser was called with, after a step of an initialization. -/
theorem parses_effect (h : job.effect? a screen = some e) :
    ∃ n, e.scene.parses job.screen = a.scene.parses job.screen ++
      if job.stage = .parse then [(job.markup, job.options.parseLine job.markup 0 n)] else [] := by
  have same : ∀ {s : Scene}, job.stage ≠ .parse → s.parses job.screen = a.scene.parses job.screen →
      ∃ n, s.parses job.screen = a.scene.parses job.screen ++
        if job.stage = .parse then [(job.markup, job.options.parseLine job.markup 0 n)] else [] := by
    intro s hstage hs
    exact ⟨0, by rw [hs, if_neg hstage, List.append_nil]⟩
  cases Job.turn_of_effect h with
  | call hstage =>
    unfold callParser
    cases job.options.binder
    all_goals
      apply Exists.intro
      simp only [hstage, if_true, Scene.parses, Scene.emit, List.filterMap_append, List.filterMap_cons,
        List.filterMap_nil, Event.parse?]
      rfl
  | build decl hooks hstage =>
    refine same (by simp [hstage]) (congrArg (List.filterMap _) ?_)
    have hadded := Scene.foldl_frame (f := fun s hook => s.addLoadHook (.screen job.screen) hook) Scene.events
      (fun _ _ => rfl) hooks
    exact (hadded _).trans (Scene.events_build ..)
  | @addView g graph hstage =>
    have hs : Scene.Steady (fun _ => False) a.scene (a.scene.addView graph.binder g) := .addView _ _ _
    exact same (by simp [hstage]) (hs.parses _ id)
  | callBack hstage hcalled =>
    refine same (by simp [hstage]) ?_
    rcases hcalled with rfl | ⟨line, rfl⟩
    · rfl
    · have hs : Scene.Steady (fun _ => False) a.scene (a.scene.emit (.initDone job.screen line)) :=
        .emit _ fun _ _ => rfl
      exact hs.parses _ id
  | giveUp hstage | begin hstage | fail hstage | discard hstage | keep hstage | attach hstage | publish hstage
  | forget hstage | letGo hstage | release hstage => exact same (by simp [hstage]) rfl

/-- What a step of an initialization establishes for its next stage. -/
theorem ready_effect (h : job.effect? a screen = some e) (hmem : job ∈ a.jobs job.screen) (hp : Prepared job.screen a)
    (he : Established job.screen a) : e.stage.Ready job.screen e.scene := by
  have hready := he.stage job hmem
  have hown : ∀ g, job.stage.graph? = some g → g = .screen job.screen := fun g hg => hp.own hmem hg
  cases Job.turn_of_effect h with
  | call hstage =>
    have hcenter : ∀ s : Scene, ((s.taskCenters.insert (.screen job.screen) (.new job.options.restricted)).get?
        (.screen job.screen)).isSome = true := by
      intro s
      rw [Table.get?_insert_self]
      rfl
    have hlent := he.lent job hmem (by rw [hstage]; rfl)
    unfold callParser
    cases hb : job.options.binder with
    | some b => exact ⟨hlent b hb, rfl, hcenter a.scene⟩
    | none =>
      refine ⟨?_, rfl, hcenter a.scene⟩
      show ((a.scene.binders.insert _ _).get? _).isSome = true
      rw [Table.get?_insert_self]
      rfl
  | @build b c n tokens decl hooks hstage =>
    rw [hstage] at hready
    obtain ⟨hbinder, hc, hcenter⟩ := hready
    have hbuilt := Scene.made_build (r := a.request job b c n) (d := decl) hc hbinder hcenter
    have hmade := hbuilt.steady (.foldl (fun s hook => .addLoadHook s (.screen job.screen) hook) hooks _)
    exact ⟨hmade.modifyGraph fun _ => ⟨rfl, rfl⟩, hmade.kept_hold _⟩
  | keep hstage =>
    rw [hstage] at hready
    exact hready
  | attach hstage hgraph =>
    obtain rfl := hown _ (by rw [hstage]; rfl)
    rw [hstage] at hready
    obtain ⟨hmade, hkept⟩ := hready
    obtain ⟨graph, hgraph', htasks, -⟩ := id hmade
    obtain rfl := Option.some.inj (hgraph.symm.trans hgraph')
    dsimp only
    rw [htasks]
    exact ⟨hmade.attach _, hkept, Scene.attached_attach hmade⟩
  | @addView _ graph hstage hgraph =>
    obtain rfl := hown _ (by rw [hstage]; rfl)
    rw [hstage] at hready
    obtain ⟨hmade, hkept, hattached⟩ := hready
    obtain ⟨graph', hgraph', -, hbinder, -⟩ := id hmade
    obtain rfl := Option.some.inj (hgraph.symm.trans hgraph')
    have hs : Scene.Steady (· ≠ .screen job.screen) a.scene (a.scene.addView graph.binder (.screen job.screen)) :=
      .addView _ _ _
    exact ⟨hmade.steady hs, hkept.steady hs, hattached.steady hs, Scene.viewed_addView hgraph hbinder⟩
  | giveUp | begin | fail | discard | publish | forget | letGo | callBack | release => trivial

/-- The parser is called after two steps that change nothing else. -/
theorem early_effect (h : job.effect? a screen = some e) (hearly : e.stage.early = true) :
    job.stage.early = true ∧ e.scene = a.scene := by
  cases Job.turn_of_effect h with
  | begin hstage => exact ⟨by rw [hstage]; rfl, rfl⟩
  | _ => cases hearly

/-- The view is set by one step of an initialization, which leaves it established. -/
theorem view_effect (h : job.effect? a screen = some e) (hmem : job ∈ a.jobs job.screen)
    (hs : a.screens.get? job.screen = some screen) (hp : Prepared job.screen a) (he : Established job.screen a) :
    (e.stage.unpublished = true → e.screen.view = none) ∧
      ∀ g, e.screen.view = some g → e.scene.Published job.screen := by
  have hafter : ∀ g, screen.view = some g → a.scene.Published job.screen := by
    intro g hg
    rw [← screen_eq hs] at hg
    exact he.view g hg
  have hbefore : job.stage.unpublished = true → screen.view = none := by
    intro hstage
    rw [← screen_eq hs]
    exact he.unpublished (.inr ⟨job, hmem, hstage⟩)
  cases Job.turn_of_effect h with
  | giveUp hstage | begin hstage | call hstage | fail hstage | build _ _ hstage | discard hstage | keep hstage
  | attach hstage | addView hstage =>
    have hnone := hbefore (by rw [hstage]; rfl)
    refine ⟨fun _ => hnone, fun g hg => ?_⟩
    rw [hnone] at hg
    cases hg
  | publish hstage =>
    obtain rfl := hp.own hmem (by rw [hstage]; rfl)
    have hready := he.stage job hmem
    rw [hstage] at hready
    obtain ⟨hmade, hkept, hattached, hviewed⟩ := hready
    refine ⟨nofun, fun g hg => ⟨?_, ?_, hattached, ?_⟩⟩
    · exact .modifyGraph (fun _ => ⟨rfl, rfl⟩) (.modifyGraph (fun _ => ⟨rfl, rfl⟩) hmade)
    · exact (hmade.kept_hold _).release nofun
    · exact .modifyGraph (fun _ => rfl) (.modifyGraph (fun _ => rfl) hviewed)
  | forget => exact ⟨nofun, nofun⟩
  | letGo | release => exact ⟨nofun, hafter⟩
  | callBack hstage hcalled =>
    refine ⟨nofun, fun g hg => (hafter g hg).steady ?_⟩
    rcases hcalled with rfl | ⟨line, rfl⟩
    · exact .refl _
    · exact .emit _ fun _ _ => rfl

/-- An initialization ends with waking the calls that wait. -/
theorem released_effect (h : job.effect? a screen = some e) (hend : e.stage = .ended) : e.screen.released = true := by
  cases Job.turn_of_effect h with
  | release => rfl
  | _ => cases hend

end Effect

/-! ## One move -/

/-- Moves of others take nothing away that belongs to a screen. -/
theorem steady_step (hp : ∀ j, Prepared j a) (he : ∀ j, Established j a) {m : Move} (h : a.step? m = some a')
    (hwork : m ≠ .work i) (hdrop : m ≠ .drop i) : Scene.Steady (· ≠ .screen i) a.scene a'.scene := by
  have other : ∀ {j : ScreenId} {s : Scene}, j ≠ i → Scene.Steady (· = .screen j) a.scene s →
      Scene.Steady (· ≠ .screen i) a.scene s := by
    intro j s hj hs
    refine hs.mono fun o ho => ?_
    rw [ho]
    exact fun heq => hj (Owner.screen.inj heq)
  cases m with
  | addScreen | openGate =>
    cases h
    exact .refl _
  | prepare j markup options =>
    cases h
    unfold prepare
    split
    · exact .refl _
    · split <;> exact .refl _
  | load c r =>
    obtain ⟨-, rfl⟩ := addCall?_eq_some h
    exact .refl _
  | resume c =>
    obtain ⟨call, screen, stage, flag, -, -, -, rfl⟩ := resume?_eq_some h
    exact steady_act call _
  | expire c =>
    obtain ⟨r, -, rfl⟩ := expire?_eq_some h
    exact .refl _
  | take j =>
    obtain ⟨job, rest, -, -, rfl⟩ := takeJob?_eq_some h
    exact .refl _
  | work j =>
    have hj : j ≠ i := by
      rintro rfl
      exact hwork rfl
    rcases (hp j).jobs with hnil | ⟨job, hone, -, -⟩
    · exact absurd hnil (jobs_ne_nil_of_work h)
    · obtain ⟨screen, e, rfl, hs, heff, -, hscene, -⟩ := jobs_work_self h hone
      rw [hscene]
      exact other hj (steady_effect heff (by rw [hone]; exact List.mem_singleton_self _) hs (hp _) (he _))
  | discard j =>
    obtain ⟨-, rfl⟩ := discardJob?_eq_some h
    exact .refl _
  | drop j =>
    have hj : j ≠ i := by
      rintro rfl
      exact hdrop rfl
    cases h
    cases hs : a.screens.get? j with
    | none =>
      simp only [dropScreen, hs]
      exact .refl _
    | some screen =>
      rw [dropScreen_eq hs]
      dsimp only
      split
      · rename_i g _ hview
        obtain rfl := ((hp j).view g (by rw [screen_eq hs, hview])).1
        have hreleased : Scene.Steady (· = .screen j) a.scene (a.scene.release (.screen j) (.screen j)) :=
          .release _ (by rfl) _
        exact other hj hreleased
      · exact .refl _
  | present t j value =>
    cases h
    unfold present
    split
    · exact .refl _
    · split
      · exact .refl _
      · split
        · exact .notify a.scene t _ _ _
        · exact .refl _
  | update t b key value =>
    cases h
    exact .of_leads (Scene.leads_update a.scene t b key value)
  | perform t g node =>
    cases h
    exact .performAction a.scene t g node
  | animate t g node =>
    cases h
    exact .of_leads (Scene.leads_startAnimation a.scene t g node)
  | addLoadHook g hook =>
    cases h
    exact .addLoadHook a.scene g hook
  | poll q t =>
    cases h
    exact .of_leads (Scene.leads_poll a.scene q t)

/-- Moves that take nothing from a screen keep what was established. -/
theorem Established.congr (he : Established i a) (hs : Scene.Steady (· ≠ .screen i) a.scene a'.scene)
    (hjobs : (a'.jobs i).Perm (a.jobs i)) (hinit : (a'.screen i).calledInitialize = (a.screen i).calledInitialize)
    (hrel : (a.screen i).released = true → (a'.screen i).released = true)
    (hview : ∀ g, (a'.screen i).view = some g → (a.screen i).view = some g) : Established i a' where
  unparsed hearly := by
    rw [hinit] at hearly
    obtain ⟨hbinder, hparses⟩ := he.unparsed
      (hearly.imp_right fun ⟨job, hjob, hstage⟩ => ⟨job, hjobs.mem_iff.1 hjob, hstage⟩)
    exact ⟨hs.absent _ (by simp) hbinder, by rw [hs.parses i (by simp), hparses]⟩
  lent job hjob hearly b hb := hs.known b (he.lent job (hjobs.mem_iff.1 hjob) hearly b hb)
  stage job hjob := (he.stage job (hjobs.mem_iff.1 hjob)).steady hs
  unpublished hstage := by
    rw [hinit] at hstage
    have hnone := he.unpublished
      (hstage.imp_right fun ⟨job, hjob, hstage⟩ => ⟨job, hjobs.mem_iff.1 hjob, hstage⟩)
    cases hv : (a'.screen i).view with
    | none => rfl
    | some g =>
      rw [hview g hv] at hnone
      cases hnone
  view g hg := (he.view g (hview g hg)).steady hs
  ended hcalled hnil := hrel (he.ended (by rw [← hinit, hcalled]) (List.perm_nil.1 (hnil ▸ hjobs.symm)))

/-- The host lets go of the screen: the graph loses at most the screen as a holder, and then it is no view. -/
theorem Established.drop (hp : Prepared i a) (he : Established i a) : Established i (a.dropScreen i) := by
  cases hs : a.screens.get? i with
  | none => simpa only [dropScreen, hs] using he
  | some screen =>
    have hself := screen_eq hs
    have heq := dropScreen_eq hs
    have hscreen : (a.dropScreen i).screen i =
        { screen with dropped := true, view := if screen.pinned then screen.view else none } :=
      screen_modify_self hs (fun _ => _) (by rw [heq])
    have hjobs : (a.dropScreen i).jobs i = a.jobs i := jobs_congr (by rw [heq]) i
    obtain ⟨unparsed, lent, stage, unpublished, view, ended⟩ := he
    rw [hself] at unparsed unpublished view ended
    have hunpublished : screen.calledInitialize = false ∨ (∃ job ∈ a.jobs i, job.stage.unpublished = true) →
        (if screen.pinned then screen.view else none) = none := by
      intro hstage
      rw [unpublished hstage, ite_self]
    have hcase : (a.dropScreen i).scene = a.scene ∨ screen.pinned = false ∧
        (a.dropScreen i).scene = a.scene.release (.screen i) (.screen i) := by
      rw [heq]
      dsimp only
      split
      · rename_i g hpinned hview
        obtain rfl := (hp.view g (by rw [hself, hview])).1
        exact .inr ⟨hpinned, rfl⟩
      · exact .inl rfl
    rcases hcase with hsame | ⟨hpinned, hreleased⟩
    · constructor
      all_goals simp only [hscreen, hjobs, hsame]
      · exact unparsed
      · exact lent
      · exact stage
      · exact hunpublished
      · intro g hg
        split at hg
        · exact view g hg
        · cases hg
      · exact ended
    · constructor
      all_goals simp only [hscreen, hjobs, hreleased]
      · exact unparsed
      · exact lent
      · exact fun job hjob => (stage job hjob).release
      · exact hunpublished
      · intro g hg
        rw [hpinned] at hg
        cases hg
      · exact ended

/-- The first call of `prepare`: a binder that is handed over is there already. -/
theorem Established.prepare (hp : Prepared i a) (he : Established i a) (markup : String) (options : InitOptions)
    (hlent : ∀ b, options.binder = some b → (a.scene.binders.get? b).isSome = true) {screen : Screen}
    (hs : a.screens.get? i = some screen) (hi : screen.calledInitialize = false) :
    Established i (a.prepare i markup options) := by
  have hself := screen_eq hs
  obtain ⟨hnil, -⟩ := hp.idle (by rw [hself, hi])
  have hjobs := jobs_prepare markup options hs hi hnil
  have heq := prepare_eq hs hi markup options
  have hscreen : (a.prepare i markup options).screen i = { screen with calledInitialize := true } :=
    screen_modify_self hs (fun s => { s with calledInitialize := true }) (by rw [heq])
  have hscene : (a.prepare i markup options).scene = a.scene := by rw [heq]
  have hview : screen.view = none := by
    rw [← hself]
    exact he.unpublished (.inl (by rw [hself, hi]))
  constructor
  all_goals simp only [hscreen, hjobs, hscene, List.mem_singleton, forall_eq]
  · intro _
    exact he.unparsed (.inl (by rw [hself, hi]))
  · exact fun _ => hlent
  · trivial
  · exact fun _ => hview
  · simp [hview]
  · simp

/-- One step of the job of the screen. -/
theorem Established.work (hp : Prepared i a) (he : Established i a) (h : a.work? i = some a') : Established i a' := by
  rcases hp.jobs with hnil | ⟨job, hone, -, -⟩
  · exact absurd hnil (jobs_ne_nil_of_work h)
  obtain ⟨screen, e, rfl, hs, heff, hscreens, hscene, hjobs⟩ := jobs_work_self h hone
  have hself' : a'.screen job.screen = e.screen := screen_modify_self hs _ hscreens
  have hmem : job ∈ a.jobs job.screen := by rw [hone]; exact List.mem_singleton_self _
  have hcalled : e.screen.calledInitialize = true := by
    rw [(record_effect heff).1, ← screen_eq hs]
    exact hp.called hmem
  have hlater : ∀ job' ∈ a'.jobs job.screen, job' = { job with stage := e.stage } := by
    intro job' hjob'
    rw [hjobs] at hjob'
    split at hjob'
    · cases hjob'
    · exact List.mem_singleton.1 hjob'
  obtain ⟨hunpublished, hview⟩ := view_effect heff hmem hs hp he
  constructor
  all_goals simp only [hself', hscene, hcalled, Bool.true_eq_false, false_or]
  · rintro ⟨job', hjob', hearly⟩
    obtain rfl := hlater job' hjob'
    obtain ⟨hearly', hsame⟩ := early_effect heff hearly
    rw [hsame]
    exact he.unparsed (.inr ⟨job, hmem, hearly'⟩)
  · intro job' hjob' hearly
    obtain rfl := hlater job' hjob'
    obtain ⟨hearly', hsame⟩ := early_effect heff hearly
    rw [hsame]
    exact he.lent job hmem hearly'
  · intro job' hjob'
    obtain rfl := hlater job' hjob'
    exact ready_effect heff hmem hp he
  · rintro ⟨job', hjob', hstage⟩
    obtain rfl := hlater job' hjob'
    exact hunpublished hstage
  · exact hview
  · intro _ hnil
    rw [hjobs] at hnil
    split at hnil
    · rename_i hend
      exact released_effect heff hend
    · cases hnil

/-- The job that is dropped while it waits was the only one. -/
theorem Prepared.jobs_discard (hp : Prepared i a) (h : a.discardJob? i = some a') :
    (a.screen i).calledInitialize = true ∧ a'.jobs i = [] := by
  obtain ⟨⟨job, hw, hi⟩, -⟩ := discardJob?_eq_some h
  have hmem : job ∈ a.jobs i := by simp [App.jobs, Workers.all, hw, Job.isFor, hi]
  refine ⟨hp.called hmem, ?_⟩
  rcases hp.jobs with hnil | ⟨job, hone, -, -⟩
  · rw [hnil] at hmem
    cases hmem
  · exact jobs_discard_self h hone

/-- The job of the screen is dropped while it waits. -/
theorem Established.discard (hp : Prepared i a) (he : Established i a) (h : a.discardJob? i = some a') :
    Established i a' := by
  obtain ⟨hcalled, hnil⟩ := hp.jobs_discard h
  obtain ⟨-, ha'⟩ := discardJob?_eq_some h
  have hscreens : a'.screens = a.screens.modify i fun s => { s with released := true } := by rw [ha']
  obtain ⟨screen, hs⟩ : ∃ screen, a.screens.get? i = some screen := by
    cases hs : a.screens.get? i with
    | some screen => exact ⟨screen, rfl⟩
    | none =>
      rw [App.screen, hs] at hcalled
      cases hcalled
  have hscreen := screen_modify_self hs _ hscreens
  rw [screen_eq hs] at hcalled
  have hscene : a'.scene = a.scene := by rw [ha']
  constructor
  case view =>
    intro g hg
    rw [hscreen] at hg
    rw [hscene]
    exact he.view g (by rw [screen_eq hs, hg])
  all_goals simp [hscreen, hnil, hcalled]

/-- Every move keeps what was established for the screens, if a binder that is handed over is there already. -/
theorem Established.step (hp : ∀ j, Prepared j a) (he : ∀ j, Established j a) {m : Move} (h : a.step? m = some a')
    (hlent : ∀ i markup options b, m = .prepare i markup options → options.binder = some b →
      (a.scene.binders.get? b).isSome = true) (i : ScreenId) : Established i a' := by
  by_cases hwork : m = .work i
  · subst hwork
    exact (he i).work (hp i) h
  by_cases hdrop : m = .drop i
  · subst hdrop
    cases h
    exact (he i).drop (hp i)
  by_cases hdiscard : m = .discard i
  · subst hdiscard
    exact (he i).discard (hp i) h
  by_cases hprepare : ∃ markup options, m = .prepare i markup options
  · obtain ⟨markup, options, rfl⟩ := hprepare
    cases h
    cases hs : a.screens.get? i with
    | none => simpa [App.prepare, hs] using he i
    | some screen =>
      cases hi : screen.calledInitialize with
      | true => simpa [App.prepare, hs, hi] using he i
      | false => exact (he i).prepare (hp i) markup options (fun b hb => hlent i markup options b rfl hb) hs hi
  · have hno : ∀ markup options, m ≠ .prepare i markup options := fun _ _ heq => hprepare ⟨_, _, heq⟩
    obtain ⟨-, -, hrel, hinit⟩ := record_step h hwork
    exact (he i).congr (steady_step hp he h hwork hdrop) (jobs_step h hwork hdiscard hno) (hinit hno) hrel
      (view_of_step h hwork)

end App

end LiveScreen
