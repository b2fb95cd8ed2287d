/-
Screens that share no binder do not interfere. Take from a run all moves on one screen,
with its initialization, its loadings, the updates of its binder, the actions and the
animations of its graph: what is left is a run, and to all other screens it is the same
run (`screens_do_not_interfere`). The screens may share everything else: the parser, the
registries, the workers, the gate and the UI queues. Time is no part of a run; that a
loading has waited too long is a move like any other.
-/
import LiveScreen.Proofs.Loader.Lacking
import LiveScreen.Proofs.Loader.Initialized

namespace LiveScreen

open Scene

/-- A scene without graphs, views and task centers. -/
theorem Scene.Closed.of_bare {s : Scene} (p : Part) (hgraphs : s.graphs = .empty) (hcenters : s.taskCenters = .empty)
    (hviews : ∀ b binder, s.binders.get? b = some binder → binder.views = []) : s.Closed p := by
  refine ⟨fun g graph _ hgraph => ?_, fun b binder _ hbinder g hg => ?_, fun c center g _ hcenter => ?_⟩
  · rw [hgraphs] at hgraph
    cases hgraph
  · rw [hviews b binder hbinder] at hg
    cases hg
  · rw [hcenters] at hcenter
    cases hcenter

/-- What belongs to all screens but one, with its binder. -/
def Part.without (j : ScreenId) (b : BinderId) : Part := ⟨fun o => o ≠ .screen j, fun b' => b' ≠ b, true⟩

namespace App

variable {start a a' b : App} {i : ScreenId} {p : Part}

/-! ## What is told along a run -/

/-- What is told to who makes the moves of a run, move by move. -/
def replies : App → List Move → List (Move × Reply) := along fun a m _ => ((a.reply? m).map (m, ·)).toList

theorem replies_concat {m : Move} {ms : List Move} (hm : a.step? m = some a') (h : start.steps? ms = some a) :
    start.replies (ms ++ [m]) = start.replies ms ++ ((a.reply? m).map (m, ·)).toList := along_concat _ hm ms h

theorem filter_reply (m : Move) (reply : Option Reply) (keep : Move → Bool) :
    ((reply.map (m, ·)).toList).filter (fun r => keep r.1) = if keep m then (reply.map (m, ·)).toList else [] := by
  cases reply with
  | none => simp
  | some r => cases hkeep : keep m <;> simp [hkeep]

/-! ## Runs without some screens -/

theorem Fresh.lacks (hf : start.Fresh) (p : Part) : Lacks p start start where
  scene := rfl
  next := rfl
  screens _ _ := rfl
  threads := rfl
  waiting := by rw [hf.waiting, List.filter_nil]
  busy := by rw [hf.busy, List.filter_nil]
  calls _ _ := rfl
  tokens := Nat.le_refl _
  registries := rfl
  markups := rfl
  loadTimeout := rfl

/-- A run leaves a run behind when all moves outside of a part are taken away, if the part is closed all along and
these moves change nothing in it. -/
theorem lacks_of_run (hf : start.Fresh) (ms : List Move) (h : start.steps? ms = some a)
    (hall : ∀ before m after b b', ms = before ++ m :: after → start.steps? before = some b → b.step? m = some b' →
      b.scene.Closed p ∧ p.Houses b ∧ (m.within p = false → b'.scene.only p = b.scene.only p)) :
    ∃ a', start.steps? (ms.filter (Move.within p)) = some a' ∧ Lacks p a a' ∧
      start.replies (ms.filter (Move.within p)) = (start.replies ms).filter fun r => r.1.within p := by
  refine run_induction (P := fun ms a => (∀ before m after b b', ms = before ++ m :: after →
    start.steps? before = some b → b.step? m = some b' → b.scene.Closed p ∧ p.Houses b ∧
      (m.within p = false → b'.scene.only p = b.scene.only p)) →
    ∃ a', start.steps? (ms.filter (Move.within p)) = some a' ∧ Lacks p a a' ∧
      start.replies (ms.filter (Move.within p)) = (start.replies ms).filter fun r => r.1.within p)
    (fun _ => ⟨start, rfl, hf.lacks p, rfl⟩) ?_ ms h hall
  intro ms a m b ha ih hstep hall
  obtain ⟨a', ha', hl, hreplies⟩ := ih fun before m' after c c' hms =>
    hall before m' (after ++ [m]) c c' (by simp [hms])
  obtain ⟨hclosed, hhouses, hout⟩ := hall ms m [] a b rfl ha hstep
  rw [replies_concat hstep ha, List.filter_append, List.filter_append, filter_reply]
  cases hm : m.within p with
  | true =>
    obtain ⟨⟨b', hb', hl'⟩, hreply⟩ := hl.keep hclosed (atHome_of_run hf ms ha) hhouses hm hstep
    rw [List.filter_cons_of_pos hm, List.filter_nil, steps?_concat, ha', replies_concat hb' ha', hreplies, hreply]
    exact ⟨b', hb', hl', rfl⟩
  | false =>
    rw [List.filter_cons_of_neg (ne_true_of_eq_false hm), List.filter_nil, List.append_nil]
    exact ⟨a', ha', hl.leave hm hstep (hout hm), by rw [hreplies]; exact (List.append_nil _).symm⟩

/-- Two parts that are all there is stay closed if both have the binders of their screens. -/
theorem closed_of_run (hf : start.Fresh) (hclosed : start.scene.Closed p ∧ start.scene.Closed p.rest) (ms : List Move)
    (h : start.steps? ms = some a)
    (hall : ∀ before after b, ms = before ++ after → start.steps? before = some b → p.Houses b ∧ p.rest.Houses b) :
    a.scene.Closed p ∧ a.scene.Closed p.rest := by
  refine run_induction (P := fun ms a => (∀ before after b, ms = before ++ after → start.steps? before = some b →
    p.Houses b ∧ p.rest.Houses b) → a.scene.Closed p ∧ a.scene.Closed p.rest) (fun _ => hclosed) ?_ ms h hall
  intro ms a m b ha ih hstep hall
  obtain ⟨hin, hout⟩ := ih fun before after c hms => hall before (after ++ [m]) c (by simp [hms])
  obtain ⟨hp, hrest⟩ := hall ms [m] a rfl ha
  have hhome := atHome_of_run hf ms ha
  refine ⟨hin.step hhome hp hstep fun _ _ _ _ _ => .inr hout, hout.step hhome hrest hstep fun _ _ _ _ _ => .inr ?_⟩
  rw [Part.rest_rest]
  exact hin

/-! ## The binder of a screen -/

/-- The binder of a screen in a run: the one that the first call that asks for the screen hands over, or its own. -/
def binderOf (start : App) (i : ScreenId) (ms : List Move) : BinderId :=
  ((start.asked i ms).head?.bind (·.2.binder)).getD (.screen i)

theorem asked_eq_nil : ∀ (ms : List Move) (start : App), (∀ markup options, .prepare i markup options ∉ ms) →
    start.asked i ms = []
  | [], _, _ => rfl
  | m :: ms, start, hno => by
    unfold asked along
    cases start.step? m with
    | none => rfl
    | some b =>
      have hasks : start.asks i m = [] := by
        unfold asks
        split
        · rename_i k markup options
          refine if_neg ?_
          rintro ⟨rfl, -⟩
          exact hno markup options (List.mem_cons_self ..)
        · rfl
      have hrest := asked_eq_nil ms b fun markup options hmem => hno markup options (List.mem_cons_of_mem m hmem)
      exact congrArg₂ _ hasks hrest

theorem binder_of_job (hb : start.Blank) {before after : List Move} (hl : start.Lends (before ++ after))
    (ha : start.steps? before = some a) {job : Job} (hjob : job ∈ a.jobs i) :
    job.binder = start.binderOf i (before ++ after) := by
  have hhead := (first_of_run hb i before ha hl.of_append).jobs job hjob
  have hscreen : job.screen = i := by simpa [Job.isFor] using (List.mem_filter.1 hjob).2
  have hasked : (start.asked i (before ++ after)).head? = some (job.markup, job.options) := by
    rw [asked, along_append _ before after ha, List.head?_append]
    exact congrArg (Option.or · _) hhead
  rw [binderOf, hasked, Job.binder, hscreen]
  rfl

/-! ## Separate screens -/

/-- What can be observed of all screens but one and of all binders but one is the same. -/
structure SameBut (j : ScreenId) (x : BinderId) (a a' : App) : Prop where
  /-- What loadings have answered. -/
  results : ∀ c, c.screen ≠ j → a'.result? c = a.result? c
  screens : ∀ i, i ≠ j → a'.screen i = a.screen i
  /-- Values, whether they were loaded, views and queue of a binder. -/
  binders : ∀ b, b ≠ x → a'.scene.binders.get? b = a.scene.binders.get? b
  /-- Nodes with their attributes, mount and load hooks of a graph. -/
  graphs : ∀ g, g ≠ .screen j → a'.scene.graphs.get? g = a.scene.graphs.get? g
  taskCenters : ∀ c, c ≠ .screen j → a'.scene.taskCenters.get? c = a.scene.taskCenters.get? c
  animationCenters : ∀ c, c ≠ .screen j → a'.scene.animationCenters.get? c = a.scene.animationCenters.get? c
  /-- The actions and hooks that ran, what listeners were told and what else was recorded, in order. -/
  events : a'.scene.events.filter (Part.without j x).sees = a.scene.events.filter (Part.without j x).sees
  /-- What waits in the queues. -/
  pending : ∀ q, (a'.scene.pending q).filter (Part.without j x).awaits =
    (a.scene.pending q).filter (Part.without j x).awaits

theorem owns_without {j : ScreenId} {x : BinderId} {o : Owner} : (Part.without j x).owns o = true ↔ o ≠ .screen j := by
  simp [Part.without]

theorem owns_rest_without {j : ScreenId} {x : BinderId} {o : Owner} :
    (Part.without j x).rest.owns o = true ↔ o = .screen j := by
  simp [Part.rest, Part.without]

theorem SameBut.of_lacks {j : ScreenId} {x : BinderId} (hl : Lacks (Part.without j x) a a') : SameBut j x a a' where
  results c hc := by
    rw [result?, result?, hl.calls c (owns_without.2 fun he => hc (Owner.screen.inj he))]
  screens i hi := hl.screen (owns_without.2 fun he => hi (Owner.screen.inj he))
  binders b hb := hl.binder (by simpa [Part.without] using hb)
  graphs g hg := hl.graph (owns_without.2 hg)
  taskCenters c hc := hl.taskCenter (owns_without.2 hc)
  animationCenters c hc := hl.animationCenter (owns_without.2 hc)
  events := congrArg Scene.events hl.scene
  pending q := by rw [← pending_only, ← pending_only, hl.scene]

/-- A part and the rest have the binders of their screens if no other screen has the binder of the one left out. -/
theorem houses_without (hb : start.Blank) {before after : List Move} (hl : start.Lends (before ++ after))
    (ha : start.steps? before = some a) {j : ScreenId}
    (hapart : ∀ i, i ≠ j → start.binderOf i (before ++ after) ≠ start.binderOf j (before ++ after)) :
    (Part.without j (start.binderOf j (before ++ after))).Houses a ∧
      (Part.without j (start.binderOf j (before ++ after))).rest.Houses a := by
  refine ⟨fun i hi job hjob => ?_, fun i hi job hjob => ?_⟩
  · have hother := hapart i fun he => owns_without.1 hi (by rw [he])
    rw [binder_of_job hb hl ha hjob]
    simpa [Part.without] using hother
  · obtain rfl := Owner.screen.inj (owns_rest_without.1 hi)
    rw [binder_of_job hb hl ha hjob]
    simp [Part.rest, Part.without]

/-- **Screens that share no binder do not interfere.** Take any run and a screen. If no other screen is initialized
with the binder of the screen, and nothing at the start ties that binder or the screen to anything else, then all
moves on the screen can be taken away: what is left is a run, and at every point of it nothing that can be observed
of the other screens is different, nor what is told to who shows them or runs their actions and animations. -/
theorem screens_do_not_interfere (hb : start.Blank) (before after : List Move) (hl : start.Lends (before ++ after))
    (h : start.steps? before = some a) (j : ScreenId)
    (hin : start.scene.Closed (Part.without j (start.binderOf j (before ++ after))))
    (hout : start.scene.Closed (Part.without j (start.binderOf j (before ++ after))).rest)
    (hapart : ∀ i, i ≠ j → start.binderOf i (before ++ after) ≠ start.binderOf j (before ++ after)) :
    let others := Move.within (Part.without j (start.binderOf j (before ++ after)))
    ∃ a', start.steps? (before.filter others) = some a' ∧
      SameBut j (start.binderOf j (before ++ after)) a a' ∧
      start.replies (before.filter others) = (start.replies before).filter fun r => others r.1 := by
  have hhouses : ∀ past future b, before = past ++ future → start.steps? past = some b →
      (Part.without j (start.binderOf j (before ++ after))).Houses b ∧
        (Part.without j (start.binderOf j (before ++ after))).rest.Houses b := by
    intro past future b hbefore hpast
    have hrun : before ++ after = past ++ (future ++ after) := by rw [hbefore, List.append_assoc]
    rw [hrun] at hl hapart ⊢
    exact houses_without hb hl hpast hapart
  have hclosed : ∀ past future b, before = past ++ future → start.steps? past = some b →
      b.scene.Closed (Part.without j (start.binderOf j (before ++ after))) ∧
        b.scene.Closed (Part.without j (start.binderOf j (before ++ after))).rest := by
    intro past future b hbefore hpast
    refine closed_of_run hb.toFresh ⟨hin, hout⟩ past hpast fun past' future' c hpast' => ?_
    exact hhouses past' (future' ++ future) c (by rw [hbefore, hpast', List.append_assoc])
  obtain ⟨a', ha', hlacks, hreplies⟩ := lacks_of_run hb.toFresh before h
    fun past m future b b' hbefore hpast hstep => by
      obtain ⟨hclosed, hrest⟩ := hclosed past (m :: future) b hbefore hpast
      obtain ⟨hp, hprest⟩ := hhouses past (m :: future) b hbefore hpast
      exact ⟨hclosed, hp, fun hm => only_step hrest (atHome_of_run hb.toFresh past hpast) hprest hm hstep⟩
  exact ⟨a', ha', .of_lacks hlacks, hreplies⟩

/-! ## Two screens -/

/-- Two screens are initialized, one with the binder of the host, and loaded in turns. Then both binders are updated,
both screens are shown, and the other screen is let go of. -/
def inTurns : List Move :=
  [.addScreen, .addScreen, .prepare 1 "" .standard,
    .prepare 0 "" { InitOptions.standard with binder := some (.host 0) }] ++
    (.take 1 :: List.replicate 10 (.work 1) ++ .take 0 :: List.replicate 10 (.work 0) ++
      [.load ⟨1, 0⟩ oneValue, .load ⟨0, 0⟩ oneValue] ++
      (List.replicate 13 [Move.resume ⟨1, 0⟩, Move.resume ⟨0, 0⟩]).flatten ++
      [.update 0 (.screen 1) "text_1" (.text "there"), .update 0 (.host 0) "text_1" (.text "here"),
        .present 0 1 "", .present 0 0 "", .drop 1])

theorem closed_storedLabel (p : Part) : storedLabel.scene.Closed p := by
  refine .of_bare p rfl rfl fun b binder hbinder => ?_
  have hget : storedLabel.scene.binders.get? b = if b = .host 0 then
      some (.new (Table.empty.insert "text_1" (.text "hello"))) else none := Table.get?_insert _ _ _ _
  rw [hget] at hbinder
  split at hbinder
  · cases hbinder
    rfl
  · cases hbinder

theorem lends_inTurns : storedLabel.Lends inTurns := by
  refine Lends.append ?_ (by simp)
  intro before i markup options after b hms hb x hx
  match before with
  | [] => cases hms
  | [_] => cases hms
  | [_, _] =>
    cases hms
    cases hx
  | [_, _, _] =>
    cases hms
    cases hb
    cases hx
    rfl
  | _ :: _ :: _ :: _ :: _ :: _ => simp at hms

theorem binderOf_inTurns : storedLabel.binderOf 1 inTurns = .screen 1 ∧
    ∀ i, i ≠ 1 → storedLabel.binderOf i inTurns ≠ .screen 1 := by
  refine ⟨rfl, fun i hi => ?_⟩
  by_cases hzero : i = 0
  · subst hzero
    exact fun h => Owner.noConfusion h
  · have hnil : storedLabel.asked i inTurns = [] := by
      refine asked_eq_nil _ _ fun markup options hmem => ?_
      simp [inTurns, hi, hzero] at hmem
    rw [binderOf, hnil]
    exact fun h => hi (Owner.screen.inj h)

theorem storedLabel_screens_apart : ∃ a a', storedLabel.steps? inTurns = some a ∧
    storedLabel.steps? (inTurns.filter (Move.within (Part.without 1 (.screen 1)))) = some a' ∧
      (inTurns.filter (Move.within (Part.without 1 (.screen 1)))).length + 29 = inTurns.length ∧
        SameBut 1 (.screen 1) a a' ∧ a.result? ⟨0, 0⟩ = some (.ok (.screen 0)) := by
  obtain ⟨a, ha⟩ : ∃ a, storedLabel.steps? inTurns = some a := Option.isSome_iff_exists.1 rfl
  have hresult : (storedLabel.steps? inTurns).bind (·.result? ⟨0, 0⟩) = some (.ok (.screen 0)) := rfl
  rw [ha] at hresult
  obtain ⟨hbinder, hapart⟩ := binderOf_inTurns
  have hrun := screens_do_not_interfere blank_storedLabel inTurns [] (by simpa using lends_inTurns) ha 1
  simp only [List.append_nil, hbinder] at hrun
  obtain ⟨a', ha', hsame, -⟩ := hrun (closed_storedLabel _) (closed_storedLabel _) hapart
  exact ⟨a, a', ha, ha', rfl, hsame, hresult⟩

end App

end LiveScreen
