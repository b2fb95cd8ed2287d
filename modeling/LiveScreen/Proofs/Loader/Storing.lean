/-
How a loading stores its data. What it has stored stays, in the binder
(`LoadStage.Fed`) and in the nodes that show it (`LoadStage.Painted`), as long as
nobody else writes there and the call is on the UI thread (`fed_of_run`).
-/
import LiveScreen.Proofs.Loader.Initialized
import LiveScreen.Proofs.Loader.Histories
import LiveScreen.Proofs.Scene.Fed

namespace LiveScreen

/-! ## Stages -/

namespace LoadStage

/-- The graph that data is being stored for, until the tasks for data run. -/
def storing? : LoadStage → Option GraphId
  | .store g _ | .bindData g | .markLoaded g | .fireData g => some g
  | _ => none

/-- What the binder of the graph has when a call comes to a stage. -/
def Fed (r : LoadRequest) (s : Scene) : LoadStage → Prop
  | .store g rest => ∃ done feed, r.data = done ++ rest ∧ s.feed g = some feed ∧ feed.Stores done
  | .bindData g => ∃ feed, s.feed g = some feed ∧ feed.Stores r.data
  | .markLoaded g => ∃ feed, s.feed g = some feed ∧ feed.Stores r.data ∧ feed.ui = some r.queue
  | .fireData g => ∃ feed, s.feed g = some feed ∧ feed.Stores r.data ∧ feed.ui = some r.queue ∧ feed.loaded = true
  | _ => True

/-- What the nodes of the graph show when a call comes to a stage. -/
def Painted (r : LoadRequest) (s : Scene) : LoadStage → Prop
  | .store g rest => ∃ done, r.data = done ++ rest ∧ s.ShowsAll g done
  | .bindData g | .markLoaded g | .fireData g => s.ShowsAll g r.data
  | _ => True

variable {r : LoadRequest} {s s' : Scene} {stage : LoadStage}

theorem fed_of_not_storing (h : stage.storing? = none) : stage.Fed r s := by
  cases stage <;> trivial

theorem painted_of_not_storing (h : stage.storing? = none) : stage.Painted r s := by
  cases stage <;> trivial

theorem passed_of_storing {g : GraphId} (h : stage.storing? = some g) : stage.passed = true := by
  cases stage <;> first | rfl | cases h

theorem graph?_of_passed (h : stage.passed = true) : ∃ g, stage.graph? = some g := by
  cases stage <;> first | exact ⟨_, rfl⟩ | cases h

theorem Fed.congr (h : stage.Fed r s) (hsame : ∀ g, stage.storing? = some g → s'.feed g = s.feed g) :
    stage.Fed r s' := by
  cases stage with
  | store g rest | bindData g | markLoaded g | fireData g =>
    simp only [Fed] at h ⊢
    rw [hsame g rfl]
    exact h
  | _ => trivial

theorem Painted.congr (h : stage.Painted r s)
    (hsame : ∀ g, stage.storing? = some g → ∀ e ∈ r.data, s'.shown g e.1 = s.shown g e.1) : stage.Painted r s' := by
  have kept : ∀ {g data}, stage.storing? = some g → (∀ e ∈ data, e ∈ r.data) → s.ShowsAll g data →
      s'.ShowsAll g data := by
    intro g data hg hsub hshows e he x hx
    rw [hsame g hg e (hsub e he)] at hx
    exact hshows e he x hx
  cases stage with
  | store g rest =>
    obtain ⟨done, hdata, hshows⟩ := h
    exact ⟨done, hdata, kept rfl (fun e he => by rw [hdata]; exact List.mem_append_left _ he) hshows⟩
  | bindData g | markLoaded g | fireData g =>
    have hall : s.ShowsAll g r.data := h
    exact kept rfl (fun _ he => he) hall
  | _ => trivial

end LoadStage

/-! ## One step of the call -/

namespace Scene

theorem Made.feed {s : Scene} {i : ScreenId} (hm : s.Made i) : ∃ feed, s.feed (.screen i) = some feed := by
  obtain ⟨graph, hgraph, -, hbinder, -⟩ := hm
  obtain ⟨binder, hb⟩ := Option.isSome_iff_exists.1 hbinder
  exact ⟨binder.feed, feed_eq hgraph hb⟩

end Scene

namespace LoadCall

variable {call : LoadCall} {s : Scene} {i : ScreenId}

/-- A key that is stored next was not stored before. -/
theorem key_of_split {data done rest : List (String × Value)} {e : String × Value} (h : data = done ++ e :: rest)
    (hn : (data.map (·.1)).Nodup) : e.1 ∉ done.map (·.1) := by
  rw [h, List.map_append, List.nodup_append] at hn
  intro hmem
  exact hn.2.2 e.1 hmem e.1 (List.mem_cons_self ..) rfl

theorem fed_following (hp : s.Published i) (hg : ∀ g, call.stage.graph? = some g → g = .screen i)
    (hn : (call.request.data.map (·.1)).Nodup)
    (hi : ∀ rest, call.stage = .store (.screen i) rest → s.FedOn (.screen i) call.request.thread)
    (hpassed : call.stage.passed = true) (h : call.stage.Fed call.request s) :
    call.following.Fed call.request (call.act s) := by
  obtain ⟨graph, hgraph, htasks, hbinder, -⟩ := id hp.made
  obtain ⟨binder, hb⟩ := Option.isSome_iff_exists.1 hbinder
  have hfeed := Scene.feed_eq hgraph hb
  obtain ⟨request, stage⟩ := call
  cases stage with
  | mount g params =>
    obtain rfl := hg g rfl
    have hmade : (s.mountGraph (.screen i) params request.listener).Made i := hp.made.steady (.mountGraph ..)
    obtain ⟨feed, hfeed'⟩ := hmade.feed
    exact ⟨[], feed, rfl, hfeed', by simp [Feed.Stores]⟩
  | store g rest =>
    obtain rfl := hg g rfl
    obtain ⟨done, feed, hdata, hfeed', hstores⟩ := h
    obtain rfl : binder.feed = feed := Option.some.inj (hfeed.symm.trans hfeed')
    cases rest with
    | nil => exact ⟨binder.feed, hfeed, by rw [hdata, List.append_nil]; exact hstores⟩
    | cons e rest =>
      have hthread : ∀ q, binder.ui = some q → s.isUiThread q request.thread = true :=
        fun q hq => hi (e :: rest) rfl binder.feed q hfeed hq
      have hkey := key_of_split hdata hn
      refine ⟨done ++ [e], _, by rw [hdata, List.append_assoc]; rfl, ?_, hstores.concat hkey⟩
      simp only [act, App.withGraph, hgraph]
      exact Scene.feed_update hb hthread hgraph
  | bindData g =>
    obtain rfl := hg g rfl
    obtain ⟨feed, hfeed', hstores⟩ := h
    obtain rfl : binder.feed = feed := Option.some.inj (hfeed.symm.trans hfeed')
    refine ⟨{ binder.feed with ui := some request.queue }, ?_, hstores, rfl⟩
    simp only [act, App.withGraph, hgraph]
    exact Scene.feed_modifyBinder hgraph hb fun binder => { binder with ui := some request.queue }
  | markLoaded g =>
    obtain rfl := hg g rfl
    obtain ⟨feed, hfeed', hstores, hui⟩ := h
    obtain rfl : binder.feed = feed := Option.some.inj (hfeed.symm.trans hfeed')
    refine ⟨{ binder.feed with loaded := true }, ?_, hstores, hui, rfl⟩
    simp only [act, App.withGraph, hgraph]
    exact Scene.feed_modifyBinder hgraph hb fun binder => { binder with loaded := true }
  | bindAnimations | fireData | fireFinish | runHooks => trivial
  | _ => cases hpassed

theorem painted_following (hp : s.Published i) (hg : ∀ g, call.stage.graph? = some g → g = .screen i)
    (hn : (call.request.data.map (·.1)).Nodup)
    (hi : ∀ rest, call.stage = .store (.screen i) rest → s.FedOn (.screen i) call.request.thread)
    (hc : s.ClearlyBound (.screen i)) (hpassed : call.stage.passed = true) (h : call.stage.Painted call.request s) :
    call.following.Painted call.request (call.act s) := by
  obtain ⟨request, stage⟩ := call
  cases stage with
  | mount g params => exact ⟨[], rfl, by simp [Scene.ShowsAll]⟩
  | store g rest =>
    obtain rfl := hg g rfl
    obtain ⟨done, hdata, hshows⟩ := h
    cases rest with
    | nil =>
      rw [List.append_nil] at hdata
      rw [← hdata] at hshows
      exact hshows
    | cons e rest =>
      obtain ⟨graph, hgraph, binder, hb, hview⟩ := hp.viewed
      have hthread : ∀ q, binder.ui = some q → s.isUiThread q request.thread = true :=
        fun q hq => hi (e :: rest) rfl binder.feed q (Scene.feed_eq hgraph hb) hq
      have hkey := key_of_split hdata hn
      refine ⟨done ++ [e], by rw [hdata, List.append_assoc]; rfl, ?_⟩
      simp only [act, App.withGraph, hgraph]
      exact hshows.update hb hthread hc hview hp.kept.held.alive hkey
  | bindData g | markLoaded g =>
    have hshows : s.ShowsAll g request.data := h
    simp only [act, App.withGraph]
    split <;> exact hshows
  | bindAnimations | fireData | fireFinish | runHooks => trivial
  | _ => cases hpassed

end LoadCall

namespace App

variable {start a a' : App} {i : ScreenId} {c : CallId}

/-! ## Runs while a call stores data -/

/-- Whenever a call is about to store a value, it is on the UI thread of the queue the binder has, if it has
one. -/
def OnUiThread (start : App) (ms : List Move) (c : CallId) : Prop :=
  ∀ before after b r g rest, ms = before ++ after → start.steps? before = some b →
    b.calls.get? c = some ⟨r, .store g rest⟩ → b.scene.FedOn g r.thread

/-- What all other moves do to a scene while a call stores its data. -/
def Meanwhile (start : App) (ms : List Move) (c : CallId) (P : LoadRequest → GraphId → Scene → Scene → Prop) : Prop :=
  ∀ before m after b b' r stage g, ms = before ++ m :: after → start.steps? before = some b → b.step? m = some b' →
    b.calls.get? c = some ⟨r, stage⟩ → stage.storing? = some g → m ≠ .resume c → P r g b.scene b'.scene

/-- Nobody else writes the binder of the graph. -/
def SameFeed (_ : LoadRequest) (g : GraphId) (s s' : Scene) : Prop := s'.feed g = s.feed g

/-- Nobody else writes what the graph shows for the data. -/
def SameShown (r : LoadRequest) (g : GraphId) (s s' : Scene) : Prop := ∀ e ∈ r.data, s'.shown g e.1 = s.shown g e.1

theorem OnUiThread.of_append {ms more : List Move} (h : start.OnUiThread (ms ++ more) c) : start.OnUiThread ms c := by
  intro before after b r g rest hms
  exact h before (after ++ more) b r g rest (by simp [hms])

theorem Meanwhile.of_append {ms more : List Move} {P : LoadRequest → GraphId → Scene → Scene → Prop}
    (h : start.Meanwhile (ms ++ more) c P) : start.Meanwhile ms c P := by
  intro before m after b b' r stage g hms
  exact h before m (after ++ more) b b' r stage g (by simp [hms])

/-- A call that works on the graph of its screen has found it as the view, which it stays while the host has the
screen. -/
theorem viewed_of_run (hb : start.Blank) (ms : List Move) (h : start.steps? ms = some a) (hl : start.Lends ms) :
    ∀ c call g, a.calls.get? c = some call → call.stage.graph? = some g → (a.screen c.screen).dropped = false →
      (a.screen c.screen).view = some g := by
  refine run_induction (P := fun ms a => start.Lends ms → ∀ c call g, a.calls.get? c = some call →
    call.stage.graph? = some g → (a.screen c.screen).dropped = false → (a.screen c.screen).view = some g) ?_ ?_ ms h hl
  · intro _ c call g hcall
    rw [hb.calls] at hcall
    cases hcall
  · intro ms a m a' ha ih hstep hl c call g hcall hg hd
    have hp := prepared_of_run hb.toFresh c.screen ms ha
    have he := established_of_run hb ms ha hl.init c.screen
    have hview : (a.screen c.screen).view = some g := by
      have hd' := dropped_step hstep hd
      cases callMove_of_step hstep c.screen with
      | elsewhere about calls flag =>
        rw [calls c rfl] at hcall
        exact ih hl.init c call g hcall hg hd'
      | @load c' r about fresh after =>
        have hcalls : a'.calls = a.calls.insert c' ⟨r, .check⟩ := by rw [after]
        rcases calls_insert_cases hcalls hcall with ⟨rfl, rfl⟩ | ⟨-, hold⟩
        · cases hg
        · exact ih hl.init c call g hold hg hd'
      | @expire c' r about waits after =>
        have hcalls : a'.calls = a.calls.insert c' ⟨r, .expired⟩ := by rw [after]
        rcases calls_insert_cases hcalls hcall with ⟨rfl, rfl⟩ | ⟨-, hold⟩
        · cases hg
        · exact ih hl.init c call g hold hg hd'
      | @resume c' call' stage flag about before known next after =>
        have hcalls : a'.calls = a.calls.insert c' { call' with stage } := by rw [after]
        rcases calls_insert_cases hcalls hcall with ⟨rfl, rfl⟩ | ⟨-, hold⟩
        · rcases (LoadCall.turn_of_next next).graph hg with hbefore | hfound
          · exact ih hl.init c call' g before hbefore hd'
          · exact hfound
        · exact ih hl.init c call g hold hg hd'
    rcases view_step hp he hstep hd with hsame | ⟨-, hnone, -⟩
    · rw [hsame, hview]
    · rw [hview] at hnone
      cases hnone

/-- Nothing is taken from a screen that is released, shown, and kept by the host. -/
theorem steady_of_kept (hp : ∀ j, Prepared j a) (he : ∀ j, Established j a) {m : Move} (h : a.step? m = some a')
    (hr : (a.screen i).released = true) (hview : (a.screen i).view ≠ none) (hd : (a'.screen i).dropped = false) :
    Scene.Steady (· ≠ .screen i) a.scene a'.scene := by
  refine steady_step hp he h ?_ ?_
  · rintro rfl
    rcases (hp i).jobs with hnil | ⟨job, -, hfalse, -⟩
    · exact jobs_ne_nil_of_work h hnil
    · rw [hr] at hfalse
      cases hfalse
  · rintro rfl
    cases h
    cases hs : a.screens.get? i with
    | none =>
      rw [App.screen, hs] at hview
      exact hview rfl
    | some screen =>
      rw [screen_modify_self (a := a) hs (fun _ => { screen with
        dropped := true, view := if screen.pinned then screen.view else none }) (by rw [dropScreen_eq hs])] at hd
      cases hd

/-- What is there for a call that works on the graph of its screen, while the host has the screen. -/
theorem working_of_run (hb : start.Blank) (ms : List Move) (h : start.steps? ms = some a) (hl : start.Lends ms)
    (hd : (a.screen c.screen).dropped = false) {call : LoadCall} (hcall : a.calls.get? c = some call)
    (hpassed : call.stage.passed = true) :
    (∀ g, call.stage.graph? = some g → g = .screen c.screen) ∧ a.scene.Published c.screen ∧
      (a.screen c.screen).released = true ∧ (a.screen c.screen).view ≠ none := by
  have hgraph := (recorded_of_run hb.toFresh c.screen ms h).1.graph c call rfl hcall
  obtain ⟨g, hg⟩ := LoadStage.graph?_of_passed hpassed
  have hview := viewed_of_run hb ms h hl c call g hcall hg hd
  refine ⟨fun g hg => (hgraph g hg).1, (established_of_run hb ms h hl c.screen).view g hview, ?_, ?_⟩
  · exact (loading_of_run hb.toFresh c.screen ms h).1.stage c call rfl hcall (LoadStage.awake_of_passed hpassed)
  · rw [hview]
    nofun

/-- What changes a call that does not go on: it is made, or it has waited too long. -/
theorem entry_of_others {m : Move} (h : a.step? m = some a') (hm : m ≠ .resume c) {r : LoadRequest} {stage : LoadStage}
    (hcall : a'.calls.get? c = some ⟨r, stage⟩) :
    a.calls.get? c = some ⟨r, stage⟩ ∨ stage = .check ∨ stage = .expired := by
  by_cases habout : m.call? = some c
  · cases m with
    | load c' r' =>
      cases habout
      obtain ⟨-, rfl⟩ := addCall?_eq_some h
      rw [Table.get?_insert_self] at hcall
      cases hcall
      exact .inr (.inl rfl)
    | expire c' =>
      cases habout
      obtain ⟨r', -, rfl⟩ := expire?_eq_some h
      rw [Table.get?_insert_self] at hcall
      cases hcall
      exact .inr (.inr rfl)
    | resume c' =>
      cases habout
      exact absurd rfl hm
    | _ => cases habout
  · rw [entry_step h habout] at hcall
    exact .inl hcall

/-- What a call stores stays in the binder and, if nobody else writes there, in the nodes. -/
theorem fed_of_run (hb : start.Blank) (ms : List Move) (h : start.steps? ms = some a) (hl : start.Lends ms)
    (hui : start.OnUiThread ms c) (hfeed : start.Meanwhile ms c SameFeed) (hd : (a.screen c.screen).dropped = false)
    {r : LoadRequest} {stage : LoadStage} (hcall : a.calls.get? c = some ⟨r, stage⟩) (hn : (r.data.map (·.1)).Nodup) :
    stage.Fed r a.scene ∧ (start.Meanwhile ms c SameShown → a.scene.ClearlyBound (.screen c.screen) →
      stage.Painted r a.scene) := by
  refine run_induction (P := fun ms a => start.Lends ms → start.OnUiThread ms c → start.Meanwhile ms c SameFeed →
    (a.screen c.screen).dropped = false → ∀ r stage, a.calls.get? c = some ⟨r, stage⟩ → (r.data.map (·.1)).Nodup →
      stage.Fed r a.scene ∧ (start.Meanwhile ms c SameShown → a.scene.ClearlyBound (.screen c.screen) →
        stage.Painted r a.scene)) ?_ ?_ ms h hl hui hfeed hd r stage hcall hn
  · intro _ _ _ _ r stage hcall
    rw [hb.calls] at hcall
    cases hcall
  · intro ms a m a' ha ih hstep hl hui hfeed hd r stage hcall hn
    have hd' := dropped_step hstep hd
    have hp := fun j => prepared_of_run hb.toFresh j ms ha
    have he := established_of_run hb ms ha hl.init
    have before := ih hl.init hui.of_append hfeed.of_append hd'
    by_cases hm : m = .resume c
    · subst hm
      obtain ⟨call, screen, stage', flag, hcall₀, hs, hnext, ha'⟩ := resume?_eq_some hstep
      have hscene : a'.scene = call.act a.scene := by rw [ha']
      rw [ha', Table.get?_insert_self] at hcall
      cases hcall
      obtain ⟨hfed, hpainted⟩ := before call.request call.stage hcall₀ hn
      have hturn := LoadCall.turn_of_next hnext
      cases hturn with
      | push hpassed =>
        obtain ⟨hgraph, hpublished, hr, hview⟩ := working_of_run hb ms ha hl.init hd' hcall₀ hpassed
        have hthread : ∀ rest, call.stage = .store (.screen c.screen) rest →
            a.scene.FedOn (.screen c.screen) call.request.thread := by
          intro rest hstage
          refine hui.of_append ms [] a call.request _ rest (by simp) ha ?_
          rw [hcall₀, ← hstage]
        rw [hscene]
        refine ⟨LoadCall.fed_following hpublished hgraph hn hthread hpassed hfed, fun hshown hclear => ?_⟩
        have hsteady := steady_of_kept hp he hstep hr hview hd
        rw [hscene] at hsteady
        have hclear' := (hsteady.clearlyBound_iff (by simp)).1 hclear
        exact LoadCall.painted_following hpublished hgraph hn hthread hclear' hpassed
          (hpainted hshown.of_append hclear')
      | _ => exact ⟨LoadStage.fed_of_not_storing rfl, fun _ _ => LoadStage.painted_of_not_storing rfl⟩
    · rcases entry_of_others hstep hm hcall with hcall₀ | rfl | rfl
      · obtain ⟨hfed, hpainted⟩ := before r stage hcall₀ hn
        refine ⟨hfed.congr fun g hg => hfeed ms m [] a a' r stage g rfl ha hstep hcall₀ hg hm, fun hshown hclear => ?_⟩
        cases hstoring : stage.storing? with
        | none => exact LoadStage.painted_of_not_storing hstoring
        | some g =>
          have hpassed := LoadStage.passed_of_storing hstoring
          obtain ⟨-, -, hr, hview⟩ := working_of_run hb ms ha hl.init hd' hcall₀ hpassed
          have hclear' := ((steady_of_kept hp he hstep hr hview hd).clearlyBound_iff (by simp)).1 hclear
          refine (hpainted hshown.of_append hclear').congr fun g hg => ?_
          exact hshown ms m [] a a' r stage g rfl ha hstep hcall₀ hg hm
      · exact ⟨LoadStage.fed_of_not_storing rfl, fun _ _ => LoadStage.painted_of_not_storing rfl⟩
      · exact ⟨LoadStage.fed_of_not_storing rfl, fun _ _ => LoadStage.painted_of_not_storing rfl⟩

end App

end LiveScreen
