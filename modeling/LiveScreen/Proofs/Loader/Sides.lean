/-
Moves and the parts of a scene. A step of a loading or of an initialization that is about
a graph of a closed part does to the part what it does to the whole scene; one that is
about a graph of another closed part leaves it alone. So a move that is made outside of a
part changes nothing that belongs to it (`only_step`).
-/
import LiveScreen.Proofs.Loader.Belonging

namespace LiveScreen

open Scene

variable {p : Part} {s : Scene} {g : GraphId} {t : Thread}

/-! ## Loadings -/

namespace App

theorem withGraph_in {f : Graph → Scene → Scene} (hg : p.owns g = true)
    (hf : ∀ graph, s.graphs.get? g = some graph → f graph (s.only p) = (f graph s).only p) :
    withGraph g f (s.only p) = (withGraph g f s).only p := by
  unfold withGraph
  rw [get?_graphs_only hg]
  cases hgraph : s.graphs.get? g with
  | none => rfl
  | some graph => exact hf graph hgraph

theorem withGraph_out {f : Graph → Scene → Scene}
    (hf : ∀ graph, s.graphs.get? g = some graph → (f graph s).only p = s.only p) :
    (withGraph g f s).only p = s.only p := by
  unfold withGraph
  cases hgraph : s.graphs.get? g with
  | none => rfl
  | some graph => exact hf graph hgraph

theorem fire_in (h : s.Closed p) (hg : p.owns g = true) (t : Thread) (hook : Hook) :
    fire t g hook (s.only p) = (fire t g hook s).only p := by
  unfold fire
  rw [get?_graphs_only hg]
  cases hgraph : s.graphs.get? g with
  | none => rfl
  | some graph => exact congrArg Prod.snd (notify_in h (h.graph g graph hg hgraph).2.1 t hook "")

theorem fire_out (h : s.Closed p.rest) (hg : p.owns g = false) (t : Thread) (hook : Hook) :
    (fire t g hook s).only p = s.only p := by
  unfold fire
  cases hgraph : s.graphs.get? g with
  | none => rfl
  | some graph =>
    have htasks := (h.graph g graph (by simp [Part.rest, hg]) hgraph).2.1
    exact notify_out h (by simpa [Part.rest] using htasks) t hook ""

end App

namespace LoadCall

theorem act_in (h : s.Closed p) (call : LoadCall) (hg : ∀ g, call.stage.graph? = some g → p.owns g = true) :
    call.act (s.only p) = (call.act s).only p := by
  unfold act
  cases hstage : call.stage with
  | bindAnimations g params =>
    have hown := hg g (by rw [hstage]; rfl)
    refine App.withGraph_in hown fun graph hgraph => ?_
    exact ((only_setAnimationUi p s _ _).trans (if_pos (h.graph g graph hown hgraph).2.2)).symm
  | mount g params =>
    exact ((only_mountGraph p s g params _).trans (if_pos (hg g (by rw [hstage]; rfl)))).symm
  | store g rest =>
    have hown := hg g (by rw [hstage]; rfl)
    cases rest with
    | nil => rfl
    | cons e rest =>
      exact App.withGraph_in hown fun graph hgraph => update_in h (h.graph g graph hown hgraph).1 _ e.1 e.2
  | bindData g =>
    have hown := hg g (by rw [hstage]; rfl)
    refine App.withGraph_in hown fun graph hgraph => ?_
    exact ((only_setBinderUi p s _ _).trans (if_pos (h.graph g graph hown hgraph).1)).symm
  | markLoaded g =>
    have hown := hg g (by rw [hstage]; rfl)
    refine App.withGraph_in hown fun graph hgraph => ?_
    exact ((only_setLoaded p s _).trans (if_pos (h.graph g graph hown hgraph).1)).symm
  | fireData g => exact App.fire_in h (hg g (by rw [hstage]; rfl)) _ .dataInitialize
  | fireFinish g => exact App.fire_in h (hg g (by rw [hstage]; rfl)) _ .loadFinish
  | runHooks g => exact finishLoad_in h (hg g (by rw [hstage]; rfl)) _
  | _ => rfl

theorem act_out (h : s.Closed p.rest) (call : LoadCall) (hg : ∀ g, call.stage.graph? = some g → p.owns g = false) :
    (call.act s).only p = s.only p := by
  have hservices : ∀ g graph, p.owns g = false → s.graphs.get? g = some graph →
      p.binds graph.binder = false ∧ p.owns graph.animations = false := by
    intro g graph hown hgraph
    obtain ⟨hbinder, -, hanimations⟩ := h.graph g graph (by simp [Part.rest, hown]) hgraph
    exact ⟨by simpa [Part.rest] using hbinder, by simpa [Part.rest] using hanimations⟩
  unfold act
  cases hstage : call.stage with
  | bindAnimations g params =>
    refine App.withGraph_out fun graph hgraph => ?_
    have hanimations := (hservices g graph (hg g (by rw [hstage]; rfl)) hgraph).2
    exact (only_setAnimationUi p s _ _).trans (if_neg (ne_true_of_eq_false hanimations))
  | mount g params =>
    have hown := hg g (by rw [hstage]; rfl)
    exact (only_mountGraph p s g params _).trans (if_neg (ne_true_of_eq_false hown))
  | store g rest =>
    cases rest with
    | nil => rfl
    | cons e rest =>
      exact App.withGraph_out fun graph hgraph =>
        update_out h (hservices g graph (hg g (by rw [hstage]; rfl)) hgraph).1 _ e.1 e.2
  | bindData g =>
    refine App.withGraph_out fun graph hgraph => ?_
    have hbinder := (hservices g graph (hg g (by rw [hstage]; rfl)) hgraph).1
    exact (only_setBinderUi p s _ _).trans (if_neg (ne_true_of_eq_false hbinder))
  | markLoaded g =>
    refine App.withGraph_out fun graph hgraph => ?_
    have hbinder := (hservices g graph (hg g (by rw [hstage]; rfl)) hgraph).1
    exact (only_setLoaded p s _).trans (if_neg (ne_true_of_eq_false hbinder))
  | fireData g => exact App.fire_out h (hg g (by rw [hstage]; rfl)) _ .dataInitialize
  | fireFinish g => exact App.fire_out h (hg g (by rw [hstage]; rfl)) _ .loadFinish
  | runHooks g => exact finishLoad_out h (hg g (by rw [hstage]; rfl)) _
  | _ => rfl

end LoadCall

/-! ## Initializations -/

theorem Job.serve_in {job : Job} (hown : p.owns (.screen job.screen) = true) (hbinder : p.binds job.binder = true) :
    job.serve (s.only p) = (job.serve s).only p := by
  unfold serve
  rw [only_withCenters, if_pos hown]
  cases hb : job.options.binder with
  | some b => rfl
  | none =>
    have hnew : p.binds (.screen job.screen) = true := by simpa [binder, hb] using hbinder
    dsimp only
    rw [only_withBinder, if_pos hnew]

theorem Job.serve_out {job : Job} (hown : p.owns (.screen job.screen) = false)
    (hbinder : job.options.binder = none → p.binds (.screen job.screen) = false) :
    (job.serve s).only p = s.only p := by
  unfold serve
  rw [only_withCenters, if_neg (ne_true_of_eq_false hown)]
  cases hb : job.options.binder with
  | some b => rfl
  | none => exact (only_withBinder p s _ _).trans (if_neg (ne_true_of_eq_false (hbinder hb)))

theorem Job.parseEvent_in {job : Job} (hbinder : p.binds job.binder = true) :
    job.parseEvent (s.only p) = job.parseEvent s := by
  rw [parseEvent, parseEvent, get?_binders_only hbinder]

namespace App

variable {a a' : App} {i : ScreenId}

/-- What a parser builds with services of its screen is built where the screen is. -/
theorem only_builtScene {job : Job} (b : BinderId) (decl : GraphDecl) (hooks : List LoadHook) :
    (a.builtScene job b (.screen job.screen) (.screen job.screen) decl hooks).only p =
      if p.owns (.screen job.screen) then
        { a with scene := a.scene.only p }.builtScene job b (.screen job.screen) (.screen job.screen) decl hooks
      else a.scene.only p := by
  have hbuilt := only_build p a.scene (a.request job b (.screen job.screen) (.screen job.screen)) (.screen job.screen)
    decl rfl rfl
  unfold builtScene
  rw [only_hold, only_foldl (fun s hook => only_addLoadHook p s (.screen job.screen) hook), hbuilt]
  split <;> rfl

/-- A step of an initialization outside of a part, if it attaches nothing to something of the part. -/
theorem effect_out {job : Job} {screen : Screen} {e : JobEffect} (h : job.effect? a screen = some e)
    (hown : p.owns (.screen job.screen) = false) (hserved : job.Served)
    (hgraph : ∀ g, job.stage.graph? = some g → g = .screen job.screen)
    (hview : ∀ g, screen.view = some g → g = .screen job.screen)
    (hbinder : job.options.binder = none → p.binds (.screen job.screen) = false)
    (hattach : job.stage.attaching = true → a.scene.Closed p.rest) : e.scene.only p = a.scene.only p := by
  have hno : ¬ p.owns (.screen job.screen) = true := ne_true_of_eq_false hown
  have hservices : ∀ graph, job.stage.attaching = true → a.scene.graphs.get? (.screen job.screen) = some graph →
      p.binds graph.binder = false ∧ p.owns graph.tasks = false := by
    intro graph hstage hknown
    obtain ⟨hb, htasks, -⟩ := (hattach hstage).graph _ graph (by simp [Part.rest, hown]) hknown
    exact ⟨by simpa [Part.rest] using hb, by simpa [Part.rest] using htasks⟩
  cases Job.turn_of_effect h with
  | giveUp | begin | fail | keep | letGo | release => rfl
  | call =>
    rw [callParser_eq]
    exact (only_emit p _ _).trans ((if_neg hno).trans (Job.serve_out hown hbinder))
  | build decl hooks hstage =>
    obtain ⟨rfl, rfl, rfl⟩ := hserved _ _ _ hstage
    exact (only_builtScene _ decl hooks).trans (if_neg hno)
  | discard hstage =>
    obtain rfl := hgraph _ (by rw [hstage]; rfl)
    exact (only_release p _ _ _).trans (if_neg hno)
  | attach hstage hknown =>
    obtain rfl := hgraph _ (by rw [hstage]; rfl)
    have htasks := (hservices _ (by rw [hstage]; rfl) hknown).2
    exact (only_attach p _ _ _).trans (if_neg (ne_true_of_eq_false htasks))
  | addView hstage hknown =>
    obtain rfl := hgraph _ (by rw [hstage]; rfl)
    exact addView_out (hservices _ (by rw [hstage]; rfl) hknown).1 hown
  | publish hstage =>
    obtain rfl := hgraph _ (by rw [hstage]; rfl)
    dsimp only
    rw [only_release, if_neg hno, only_hold, if_neg hno]
  | forget _ _ hknown =>
    obtain rfl := hview _ hknown
    exact (only_release p _ _ _).trans (if_neg hno)
  | callBack _ hcalled =>
    rcases hcalled with rfl | ⟨line, rfl⟩
    · rfl
    · exact (only_emit p _ _).trans (if_neg hno)

end App

/-! ## Screens on display -/

/-- Fires the hook for display at the tasks of a view, if there is one and it is loaded. -/
def Scene.display (s : Scene) (t : Thread) (view : Option GraphId) (value : String) : Nat × Scene :=
  match view with
  | none => (0, s)
  | some g =>
    match s.graphs.get? g with
    | none => (0, s)
    | some graph => if graph.mount.loaded then s.notify t graph.tasks .viewShow value else (0, s)

theorem Scene.display_in (h : s.Closed p) {view : Option GraphId} (hview : ∀ g, view = some g → p.owns g = true)
    (t : Thread) (value : String) :
    (s.only p).display t view value = Prod.map id (only p) (s.display t view value) := by
  unfold display
  cases view with
  | none => rfl
  | some g =>
    have hown := hview g rfl
    dsimp only
    rw [get?_graphs_only hown]
    cases hgraph : s.graphs.get? g with
    | none => rfl
    | some graph =>
      dsimp only
      split
      · exact notify_in h (h.graph g graph hown hgraph).2.1 t _ value
      · rfl

theorem Scene.display_out (h : s.Closed p.rest) {view : Option GraphId} (hview : ∀ g, view = some g → p.owns g = false)
    (t : Thread) (value : String) : (s.display t view value).2.only p = s.only p := by
  unfold display
  cases view with
  | none => rfl
  | some g =>
    have hown := hview g rfl
    cases hgraph : s.graphs.get? g with
    | none => simp only [hgraph]
    | some graph =>
      have htasks := (h.graph g graph (by simp [Part.rest, hown]) hgraph).2.1
      simp only [hgraph]
      split
      · exact notify_out h (by simpa [Part.rest] using htasks) t _ value
      · rfl

theorem App.present_eq_display (a : App) (t : Thread) (i : ScreenId) (value : String) : a.present t i value =
    ((a.scene.display t (a.screen i).view value).1,
      { a with scene := (a.scene.display t (a.screen i).view value).2 }) := by
  have hview : (a.screens.get? i).bind (·.view) = (a.screen i).view := by
    unfold App.screen
    cases a.screens.get? i <;> rfl
  unfold App.present Scene.display
  rw [hview]
  cases (a.screen i).view with
  | none => rfl
  | some g =>
    dsimp only
    cases a.scene.graphs.get? g with
    | none => rfl
    | some graph =>
      dsimp only
      split <;> rfl

/-! ## Moves -/

/-- The screen that a move is about. -/
def Move.screen? : Move → Option ScreenId
  | .prepare i .. | .take i | .work i | .discard i | .drop i | .present _ i _ => some i
  | .load c _ | .resume c | .expire c => some c.screen
  | _ => none

/-- Whether a move is made in a part, or concerns all parts. -/
def Move.within (p : Part) (m : Move) : Bool :=
  match m with
  | .update _ b .. => p.binds b
  | .perform _ g _ | .animate _ g _ | .addLoadHook g _ => p.owns g
  | m => m.screen?.all fun i => p.owns (.screen i)

namespace App

variable {a a' : App}

/-- **A move outside of a part changes nothing that belongs to it**, if what is outside is closed. -/
theorem only_step (h : a.scene.Closed p.rest) (hhome : a.AtHome) (hp : p.rest.Houses a) {m : Move}
    (hm : m.within p = false) (hstep : a.step? m = some a') : a'.scene.only p = a.scene.only p := by
  cases m with
  | addScreen | openGate | poll => cases hm
  | prepare i markup options =>
    cases hstep
    unfold App.prepare
    split
    · rfl
    · split <;> rfl
  | load c r =>
    obtain ⟨-, rfl⟩ := addCall?_eq_some hstep
    rfl
  | resume c =>
    have hown : p.owns (.screen c.screen) = false := hm
    obtain ⟨call, screen, stage, flag, hcall, -, -, rfl⟩ := resume?_eq_some hstep
    refine LoadCall.act_out h call fun g hg => ?_
    rw [hhome.call c call g hcall hg, hown]
  | expire c =>
    obtain ⟨r, -, rfl⟩ := expire?_eq_some hstep
    rfl
  | take i =>
    obtain ⟨job, rest, -, -, rfl⟩ := takeJob?_eq_some hstep
    rfl
  | work i =>
    have hown : p.owns (.screen i) = false := hm
    obtain ⟨k, job, screen, e, hk, rfl, hs, he, rfl⟩ := work?_eq_some hstep
    have hjob := mem_jobs_of_busy hk
    refine effect_out he hown (hhome.served _ job hjob) (hhome.graph _ job hjob) (fun g hg => ?_) (fun hb => ?_)
      fun _ => h
    · exact hhome.view _ g (by rw [screen_eq hs, hg])
    · have hbinder := hp job.screen (by simp [Part.rest, hown]) job hjob
      simpa [Part.rest, Job.binder, hb] using hbinder
  | discard i =>
    obtain ⟨-, rfl⟩ := discardJob?_eq_some hstep
    rfl
  | drop i =>
    have hown : p.owns (.screen i) = false := hm
    cases hstep
    cases hs : a.screens.get? i with
    | none => simp only [dropScreen, hs]
    | some screen =>
      rw [dropScreen_eq hs]
      dsimp only
      split
      · rename_i g _ hg
        obtain rfl := hhome.view i g (by rw [screen_eq hs, hg])
        exact (only_release p _ _ _).trans (if_neg (ne_true_of_eq_false hown))
      · rfl
  | present t i value =>
    have hown : p.owns (.screen i) = false := hm
    cases hstep
    rw [present_eq_display]
    exact display_out h (fun g hg => by rw [hhome.view i g hg, hown]) t value
  | update t b key value =>
    cases hstep
    exact update_out h hm t key value
  | perform t g node =>
    cases hstep
    exact performAction_out h hm t node
  | animate t g node =>
    cases hstep
    exact startAnimation_out hm t node
  | addLoadHook g hook =>
    cases hstep
    exact (only_addLoadHook p a.scene g hook).trans (if_neg (ne_true_of_eq_false hm))

end App

end LiveScreen
