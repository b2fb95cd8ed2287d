/-
An application that does without some of the screens of another one (`Lacks`): no jobs and
no loadings of them, perhaps more tokens, and a scene that agrees in the part of the other
screens. A move of the others is possible there too if it is possible with all screens,
answers the same, and leads to applications that agree again (`Lacks.keep`); a move on the
screens that are missing changes nothing there (`Lacks.leave`).
-/
import LiveScreen.Proofs.Loader.Sides

namespace LiveScreen

open Scene

namespace Job

/-- Whether a job initializes a screen of a part. -/
def within (p : Part) (job : Job) : Bool := p.owns (.screen job.screen)

/-- What is left of a job after a step. -/
def left (job : Job) (e : JobEffect) : List Job := if e.stage = .ended then [] else [{ job with stage := e.stage }]

end Job

/-- What is told at once to who makes a move. -/
inductive Reply where
  /-- So many tasks ran. -/
  | ran (count : Nat)
  /-- Whether anything was done. -/
  | did (something : Bool)

namespace App

variable {a a' b : App} {i : ScreenId} {p : Part}

/-- What is told at once to who makes a move. -/
def reply? (a : App) : Move → Option Reply
  | .present t i value => some (.ran (a.present t i value).1)
  | .perform t g node => some (.did (a.scene.performAction t g node).1)
  | .animate t g node => some (.did (a.scene.startAnimation t g node).1)
  | _ => none

/-! ## Workers among others -/

/-- A worker goes on with the first job of a screen. -/
theorem work?_of_split {A B : List Job} {job : Job} (hbusy : a.workers.busy = A ++ job :: B)
    (hfirst : ∀ other ∈ A, other.isFor job.screen = false) :
    a.work? job.screen = (a.screens.get? job.screen).bind fun screen =>
      (job.effect? a screen).map fun e =>
        { a.afterJob job.screen e with workers := { a.workers with busy := A ++ job.left e ++ B } } := by
  have hindex : a.workers.busy.findIdx? (·.isFor job.screen) = some A.length := by
    rw [hbusy, List.findIdx?_append, List.findIdx?_eq_none_iff.2 hfirst, List.findIdx?_cons]
    simp [Job.isFor]
  have hjob : a.workers.busy[A.length]? = some job := by
    rw [hbusy, List.getElem?_append_right (Nat.le_refl _), Nat.sub_self]
    rfl
  have hretire : (A ++ job :: B).eraseIdx A.length = A ++ B := by
    rw [List.eraseIdx_append_of_length_le (Nat.le_refl _), Nat.sub_self]
    rfl
  have hset : ∀ job', (A ++ job :: B).set A.length job' = A ++ job' :: B := by
    intro job'
    rw [List.set_append_right _ _ (Nat.le_refl _), Nat.sub_self]
    rfl
  unfold work?
  simp only [hindex, hjob, advanceJob?_eq]
  cases a.screens.get? job.screen with
  | none => rfl
  | some screen =>
    simp only [Option.bind_some]
    cases job.effect? a screen with
    | none => rfl
    | some e =>
      simp only [Option.map_some, Job.left]
      by_cases hend : e.stage = .ended
      · simp only [hend, if_true, Workers.retire, hbusy, hretire, List.append_nil]
      · rw [if_neg hend]
        split
        · rename_i heq
          cases heq
        · rename_i heq
          exact absurd (congrArg Prod.fst (Option.some.inj heq)) hend
        · rename_i heq
          cases heq
          simp only [Workers.update, hbusy, hset, List.append_assoc, List.singleton_append]

theorem work?_split (h : a.work? i = some a') : ∃ A job B screen e, a.workers.busy = A ++ job :: B ∧
    (∀ other ∈ A, other.isFor i = false) ∧ job.screen = i ∧ a.screens.get? i = some screen ∧
      job.effect? a screen = some e ∧
        a' = { a.afterJob i e with workers := { a.workers with busy := A ++ job.left e ++ B } } := by
  obtain ⟨k, found, -, -, hk, hi, -⟩ := work?_eq_some h
  have hsome : (a.workers.busy.find? (·.isFor i)).isSome = true :=
    List.find?_isSome.2 ⟨found, List.mem_of_getElem? hk, by simp [Job.isFor, hi]⟩
  obtain ⟨job, hjob⟩ := Option.isSome_iff_exists.1 hsome
  obtain ⟨hfor, A, B, hbusy, hfirst⟩ := List.find?_eq_some_iff_append.1 hjob
  obtain rfl : job.screen = i := by simpa [Job.isFor] using hfor
  have hothers : ∀ other ∈ A, other.isFor job.screen = false := fun other hother => by
    simpa using hfirst other hother
  rw [work?_of_split hbusy hothers] at h
  obtain ⟨screen, hs, he⟩ := Option.bind_eq_some_iff.1 h
  obtain ⟨e, heff, rfl⟩ := Option.map_eq_some_iff.1 he
  exact ⟨A, job, B, screen, e, hbusy, hothers, rfl, hs, heff, rfl⟩

/-- An initialization makes no tokens. -/
theorem tokens_effect {job : Job} {screen : Screen} {e : JobEffect} (h : job.effect? a screen = some e) :
    e.tokens ≤ a.tokens := by
  by_cases hparsing : ∃ b c n, job.stage = .parsing b c n
  · obtain ⟨b, c, n, hstage⟩ := hparsing
    simp only [Job.effect?, hstage, finishParser?_eq] at h
    split at h
    · cases h
    · have hless : (if (a.markup job.markup).gated then a.tokens - 1 else a.tokens) ≤ a.tokens := by split <;> omega
      split at h <;> cases h <;> exact hless
  · cases Job.turn_of_effect h with
    | fail hstage | build _ _ hstage => exact absurd ⟨_, _, _, hstage⟩ hparsing
    | _ => exact Nat.le_refl _

end App

/-! ## Without some screens -/

/-- An application without the screens outside of a part of another one. -/
structure Lacks (p : Part) (a a' : App) : Prop where
  scene : a'.scene.only p = a.scene.only p
  next : a'.screens.next = a.screens.next
  screens : ∀ i, p.owns (.screen i) = true → a'.screens.get? i = a.screens.get? i
  threads : a'.workers.threads = a.workers.threads
  waiting : a'.workers.waiting = a.workers.waiting.filter (Job.within p)
  busy : a'.workers.busy = a.workers.busy.filter (Job.within p)
  calls : ∀ c, p.owns (.screen c.screen) = true → a'.calls.get? c = a.calls.get? c
  tokens : a.tokens ≤ a'.tokens
  registries : a'.registries = a.registries
  markups : a'.markups = a.markups
  loadTimeout : a'.loadTimeout = a.loadTimeout

namespace Lacks

variable {a a' b : App} {i : ScreenId} {g : GraphId} {p : Part}

theorem closed (hl : Lacks p a a') (h : a.scene.Closed p) : a'.scene.Closed p := by
  rw [← closed_only, hl.scene, closed_only]
  exact h

/-- What happens in the part happens on both sides. -/
theorem carry (hl : Lacks p a a') (h : a.scene.Closed p) {f : Scene → Scene}
    (hf : ∀ s, s.Closed p → f (s.only p) = (f s).only p) : (f a'.scene).only p = (f a.scene).only p := by
  rw [← hf _ (hl.closed h), hl.scene, hf _ h]

theorem graph (hl : Lacks p a a') (hg : p.owns g = true) : a'.scene.graphs.get? g = a.scene.graphs.get? g := by
  rw [← get?_graphs_only hg, hl.scene, get?_graphs_only hg]

theorem binder (hl : Lacks p a a') {b : BinderId} (hb : p.binds b = true) :
    a'.scene.binders.get? b = a.scene.binders.get? b := by
  rw [← get?_binders_only hb, hl.scene, get?_binders_only hb]

theorem taskCenter (hl : Lacks p a a') {c : TaskCenterId} (hc : p.owns c = true) :
    a'.scene.taskCenters.get? c = a.scene.taskCenters.get? c := by
  rw [← get?_taskCenters_only hc, hl.scene, get?_taskCenters_only hc]

theorem animationCenter (hl : Lacks p a a') {c : AnimationCenterId} (hc : p.owns c = true) :
    a'.scene.animationCenters.get? c = a.scene.animationCenters.get? c := by
  rw [← get?_animationCenters_only hc, hl.scene, get?_animationCenters_only hc]

theorem markup (hl : Lacks p a a') (name : String) : a'.markup name = a.markup name := by
  rw [App.markup, App.markup, hl.markups]

/-- What a parser builds, on both sides. -/
theorem builtScene (hl : Lacks p a a') {job : Job} (hown : p.owns (.screen job.screen) = true) (b : BinderId)
    (decl : GraphDecl) (hooks : List LoadHook) :
    (a'.builtScene job b (.screen job.screen) (.screen job.screen) decl hooks).only p =
      (a.builtScene job b (.screen job.screen) (.screen job.screen) decl hooks).only p := by
  rw [App.only_builtScene, App.only_builtScene, if_pos hown, if_pos hown, hl.scene]
  simp only [App.builtScene, App.request, hl.registries]

/-- A step of an initialization of a screen in the part. -/
theorem effect (hl : Lacks p a a') (h : a.scene.Closed p) {job : Job} {screen : Screen} {e : JobEffect}
    (hown : p.owns (.screen job.screen) = true) (hserved : job.Served)
    (hgraph : ∀ g, job.stage.graph? = some g → g = .screen job.screen)
    (hview : ∀ g, screen.view = some g → g = .screen job.screen) (hbinder : p.binds job.binder = true)
    (he : job.effect? a screen = some e) :
    ∃ e', job.effect? a' screen = some e' ∧ e'.stage = e.stage ∧ e'.screen = e.screen ∧
      e'.scene.only p = e.scene.only p ∧ e.tokens ≤ e'.tokens := by
  have released : ∀ h, ((a'.scene.release (.screen job.screen) h).only p =
      (a.scene.release (.screen job.screen) h).only p) := fun h' =>
    hl.carry h (f := fun s => s.release _ h') fun s _ => ((only_release p s _ h').trans (if_pos hown)).symm
  cases hstage : job.stage with
  | start =>
    simp only [Job.effect?, hstage] at he ⊢
    cases he
    exact ⟨_, rfl, rfl, rfl, hl.scene, hl.tokens⟩
  | parse =>
    simp only [Job.effect?, hstage, App.callParser_eq] at he ⊢
    cases he
    refine ⟨_, rfl, rfl, rfl, hl.carry h (f := fun s => (job.serve s).emit (job.parseEvent (job.serve s)))
      fun s _ => ?_, hl.tokens⟩
    have hsees : p.sees (job.parseEvent (job.serve s)) = true := hown
    rw [Job.serve_in hown hbinder, Job.parseEvent_in hbinder, only_emit, if_pos hsees]
  | parsing b c n =>
    obtain ⟨rfl, rfl, rfl⟩ := hserved b c n hstage
    simp only [Job.effect?, hstage, App.finishParser?_eq, hl.markup] at he ⊢
    have htokens := hl.tokens
    split at he
    · cases he
    · rename_i hpass
      rw [if_neg (fun hno => hpass ⟨hno.1, by omega⟩)]
      have hless : (if (a.markup job.markup).gated then a.tokens - 1 else a.tokens) ≤
          if (a.markup job.markup).gated then a'.tokens - 1 else a'.tokens := by split <;> omega
      cases hbuilt : (a.markup job.markup).built? with
      | none =>
        simp only [hbuilt] at he ⊢
        cases he
        exact ⟨_, rfl, rfl, rfl, hl.scene, hless⟩
      | some decl =>
        simp only [hbuilt] at he ⊢
        cases he
        exact ⟨_, rfl, rfl, rfl, hl.builtScene hown _ decl _, hless⟩
  | parsed g =>
    obtain rfl := hgraph g (by rw [hstage]; rfl)
    simp only [Job.effect?, hstage] at he ⊢
    split at he
    · cases he
      exact ⟨_, if_pos ‹_›, rfl, rfl, released _, hl.tokens⟩
    · cases he
      exact ⟨_, if_neg ‹_›, rfl, rfl, hl.scene, hl.tokens⟩
  | attach g =>
    obtain rfl := hgraph g (by rw [hstage]; rfl)
    simp only [Job.effect?, hstage, hl.graph hown] at he ⊢
    obtain ⟨graph, hknown, rfl⟩ := Option.map_eq_some_iff.1 he
    have htasks := (h.graph _ graph hown hknown).2.1
    refine ⟨_, congrArg _ hknown, rfl, rfl, hl.carry h (f := fun s => s.attach _ _) fun s _ => ?_, hl.tokens⟩
    exact ((only_attach p s _ _).trans (if_pos htasks)).symm
  | addView g =>
    obtain rfl := hgraph g (by rw [hstage]; rfl)
    simp only [Job.effect?, hstage, hl.graph hown] at he ⊢
    obtain ⟨graph, hknown, rfl⟩ := Option.map_eq_some_iff.1 he
    have hb := (h.graph _ graph hown hknown).1
    refine ⟨_, congrArg _ hknown, rfl, rfl, hl.carry h (f := fun s => s.addView _ _) fun s _ => ?_, hl.tokens⟩
    exact addView_in hb hown
  | publish g =>
    obtain rfl := hgraph g (by rw [hstage]; rfl)
    simp only [Job.effect?, hstage] at he ⊢
    cases he
    refine ⟨_, rfl, rfl, rfl, hl.carry h (f := fun s => (s.hold _ _).release _ _) fun s _ => ?_, hl.tokens⟩
    rw [only_release, if_pos hown, only_hold, if_pos hown]
  | letGo =>
    simp only [Job.effect?, hstage] at he ⊢
    split at he
    · rename_i g hdropped hknown
      obtain rfl := hview g hknown
      cases he
      exact ⟨_, rfl, rfl, rfl, released _, hl.tokens⟩
    · cases he
      exact ⟨_, rfl, rfl, rfl, hl.scene, hl.tokens⟩
  | callBack =>
    simp only [Job.effect?, hstage] at he ⊢
    cases he
    refine ⟨_, rfl, rfl, rfl, ?_, hl.tokens⟩
    cases job.options.onDone with
    | none => exact hl.scene
    | some done =>
      have hsees : p.sees (.initDone job.screen done.line) = true := hown
      exact hl.carry h (f := fun s => s.emit _) fun s _ => ((only_emit p s _).trans (if_pos hsees)).symm
  | release =>
    simp only [Job.effect?, hstage] at he ⊢
    cases he
    exact ⟨_, rfl, rfl, rfl, hl.scene, hl.tokens⟩
  | ended =>
    simp only [Job.effect?, hstage] at he
    cases he

/-! ## Moves of the others -/

/-- What is answered in the part is answered on both sides. -/
theorem answer (hl : Lacks p a a') (h : a.scene.Closed p) {β : Type} {f : Scene → β × Scene}
    (hf : ∀ s, s.Closed p → f (s.only p) = Prod.map id (only p) (f s)) :
    (f a'.scene).1 = (f a.scene).1 ∧ (f a'.scene).2.only p = (f a.scene).2.only p := by
  have hthere := hf _ (hl.closed h)
  rw [hl.scene, hf _ h] at hthere
  exact ⟨(congrArg Prod.fst hthere).symm, (congrArg Prod.snd hthere).symm⟩

theorem screen (hl : Lacks p a a') (hi : p.owns (.screen i) = true) : a'.screen i = a.screen i := by
  rw [App.screen, App.screen, hl.screens i hi]

theorem next_modify (hl : Lacks p a a') (i : ScreenId) (f : Screen → Screen) :
    (a'.screens.modify i f).next = (a.screens.modify i f).next := by
  rw [Store.next_modify, Store.next_modify, hl.next]

theorem get?_modify (hl : Lacks p a a') (i : ScreenId) (f : Screen → Screen) (k : ScreenId)
    (hk : p.owns (.screen k) = true) : (a'.screens.modify i f).get? k = (a.screens.modify i f).get? k := by
  rw [Store.get?_modify, Store.get?_modify, hl.screens k hk]

theorem get?_insert (hl : Lacks p a a') (c : CallId) (call : LoadCall) (k : CallId)
    (hk : p.owns (.screen k.screen) = true) : (a'.calls.insert c call).get? k = (a.calls.insert c call).get? k := by
  rw [Table.get?_insert, Table.get?_insert, hl.calls k hk]

/-- A scene that changes in the part. -/
theorem withScene (hl : Lacks p a a') {s s' : Scene} (hs : s'.only p = s.only p) :
    Lacks p { a with scene := s } { a' with scene := s' } := { hl with scene := hs }

theorem keep_prepare (hl : Lacks p a a') (hi : p.owns (.screen i) = true) (markup : String) (options : InitOptions) :
    Lacks p (a.prepare i markup options) (a'.prepare i markup options) := by
  unfold App.prepare
  rw [hl.screens i hi]
  split
  · exact hl
  · split
    · exact hl
    · refine { hl with next := hl.next_modify i _, screens := hl.get?_modify i _, waiting := ?_ }
      have hnew : Job.within p ⟨i, markup, options, .start⟩ = true := hi
      simp only [Workers.waiting_submit, List.filter_append, List.filter_cons_of_pos hnew, List.filter_nil]
      exact congrArg (· ++ _) hl.waiting

theorem keep_load (hl : Lacks p a a') {c : CallId} (hc : p.owns (.screen c.screen) = true) {r : LoadRequest}
    (hstep : a.addCall? c r = some b) : ∃ b', a'.addCall? c r = some b' ∧ Lacks p b b' := by
  obtain ⟨hnone, rfl⟩ := App.addCall?_eq_some hstep
  have hnone' : ¬ a'.calls.contains c = true := by simp [Table.contains, hl.calls c hc, hnone]
  exact ⟨_, if_neg hnone', { hl with calls := hl.get?_insert c _ }⟩

theorem keep_resume (hl : Lacks p a a') (h : a.scene.Closed p) (hhome : a.AtHome) {c : CallId}
    (hc : p.owns (.screen c.screen) = true) (hstep : a.resume? c = some b) :
    ∃ b', a'.resume? c = some b' ∧ Lacks p b b' := by
  obtain ⟨call, screen, stage, flag, hcall, hs, hnext, rfl⟩ := App.resume?_eq_some hstep
  have hscene : (call.act a'.scene).only p = (call.act a.scene).only p := hl.carry h fun s hclosed =>
    LoadCall.act_in hclosed call fun g hg => by rw [hhome.call c call g hcall hg, hc]
  refine ⟨{ a' with
    scene := call.act a'.scene, screens := a'.flagged c.screen flag, calls := a'.calls.insert c { call with stage } },
    ?_, { hl with scene := hscene, next := ?_, screens := ?_, calls := hl.get?_insert c _ }⟩
  · unfold App.resume?
    simp only [hl.calls c hc, hcall, App.advanceCall?_eq, hl.screens _ hc, hs, hl.registries, Option.bind_some, hnext,
      Option.map_some]
  · cases flag with
    | none => exact hl.next
    | some flag => exact hl.next_modify c.screen _
  · cases flag with
    | none => exact hl.screens
    | some flag => exact hl.get?_modify c.screen _

theorem keep_expire (hl : Lacks p a a') {c : CallId} (hc : p.owns (.screen c.screen) = true)
    (hstep : a.expire? c = some b) : ∃ b', a'.expire? c = some b' ∧ Lacks p b b' := by
  obtain ⟨r, hcall, rfl⟩ := App.expire?_eq_some hstep
  refine ⟨{ a' with calls := a'.calls.insert c ⟨r, .expired⟩ }, ?_, { hl with calls := hl.get?_insert c _ }⟩
  unfold App.expire? at hstep ⊢
  rw [hl.calls c hc, hl.loadTimeout]
  rw [hcall] at hstep ⊢
  cases htimeout : a.loadTimeout with
  | none =>
    rw [htimeout] at hstep
    cases hstep
  | some limit => rfl

theorem keep_take (hl : Lacks p a a') (hi : p.owns (.screen i) = true) (hstep : a.takeJob? i = some b) :
    ∃ b', a'.takeJob? i = some b' ∧ Lacks p b b' := by
  have hroom : a.workers.busy.length < a.workers.threads := by
    by_contra hno
    simp [App.takeJob?, Workers.take?, hno] at hstep
  obtain ⟨job, rest, hwaiting, rfl, rfl⟩ := App.takeJob?_eq_some hstep
  have hjob : Job.within p job = true := hi
  have hwaiting' : a'.workers.waiting = job :: rest.filter (Job.within p) := by
    rw [hl.waiting, hwaiting, List.filter_cons_of_pos hjob]
  have hroom' : a'.workers.busy.length < a'.workers.threads := by
    have hless := List.length_filter_le (Job.within p) a.workers.busy
    rw [hl.busy, hl.threads]
    omega
  refine ⟨{ a' with
    workers := { a'.workers with waiting := rest.filter (Job.within p), busy := a'.workers.busy ++ [job] } },
    ?_, { hl with waiting := rfl, busy := ?_ }⟩
  · unfold App.takeJob? Workers.take?
    rw [if_pos hroom', hwaiting']
    exact if_pos (by simp [Job.isFor])
  · simp only [List.filter_append, List.filter_cons_of_pos hjob, List.filter_nil, hl.busy]

theorem keep_work (hl : Lacks p a a') (h : a.scene.Closed p) (hhome : a.AtHome) (hp : p.Houses a)
    (hi : p.owns (.screen i) = true) (hstep : a.work? i = some b) : ∃ b', a'.work? i = some b' ∧ Lacks p b b' := by
  obtain ⟨A, job, B, screen, e, hbusy, hfirst, rfl, hs, he, rfl⟩ := App.work?_split hstep
  have hown : Job.within p job = true := hi
  have hjob : job ∈ a.jobs job.screen := by simp [App.jobs, Workers.all, hbusy, Job.isFor]
  have hview : ∀ g, screen.view = some g → g = .screen job.screen := fun g hg =>
    hhome.view _ g (by rw [App.screen_eq hs, hg])
  obtain ⟨e', he', hstage, hscreen, hscene, htokens⟩ := hl.effect h hi (hhome.served _ job hjob)
    (hhome.graph _ job hjob) hview (hp _ hi job hjob) he
  have hbusy' : a'.workers.busy = A.filter (Job.within p) ++ job :: B.filter (Job.within p) := by
    rw [hl.busy, hbusy, List.filter_append, List.filter_cons_of_pos hown]
  have hfirst' : ∀ other ∈ A.filter (Job.within p), other.isFor job.screen = false := fun other hother =>
    hfirst other (List.mem_filter.1 hother).1
  have hleft : job.left e' = job.left e := by rw [Job.left, Job.left, hstage]
  have hnext := hl.next_modify job.screen fun _ => e.screen
  have hscreens := hl.get?_modify job.screen fun _ => e.screen
  rw [← hscreen] at hnext hscreens
  have hkept : (job.left e).filter (Job.within p) = job.left e := by
    refine List.filter_eq_self.2 fun job' hjob' => ?_
    unfold Job.left at hjob'
    split at hjob'
    · cases hjob'
    · obtain rfl := List.mem_singleton.1 hjob'
      exact hown
  refine ⟨{ a'.afterJob job.screen e' with
    workers := { a'.workers with busy := A.filter (Job.within p) ++ job.left e ++ B.filter (Job.within p) } },
    ?_, { hl with
      scene := hscene, tokens := htokens, next := hnext.trans ?_, screens := fun k hk => (hscreens k hk).trans ?_
      busy := ?_ }⟩
  · rw [App.work?_of_split hbusy' hfirst', hl.screens _ hi, hs, Option.bind_some, he', Option.map_some, hleft]
  · rw [hscreen]
    rfl
  · rw [hscreen]
    rfl
  · simp only [List.filter_append, hkept]

theorem keep_discard (hl : Lacks p a a') (hi : p.owns (.screen i) = true) (hstep : a.discardJob? i = some b) :
    ∃ b', a'.discardJob? i = some b' ∧ Lacks p b b' := by
  obtain ⟨⟨job, hmem, hfor⟩, rfl⟩ := App.discardJob?_eq_some hstep
  have hjob : Job.within p job = true := by
    subst hfor
    exact hi
  have hany : a'.workers.waiting.any (·.isFor i) = true := by
    rw [hl.waiting]
    exact List.any_eq_true.2 ⟨job, List.mem_filter.2 ⟨hmem, hjob⟩, by simp [Job.isFor, hfor]⟩
  refine ⟨_, if_pos hany, { hl with next := hl.next_modify i _, screens := hl.get?_modify i _, waiting := ?_ }⟩
  simp only [hl.waiting, List.filter_filter, Bool.and_comm]

theorem keep_drop (hl : Lacks p a a') (h : a.scene.Closed p) (hhome : a.AtHome) (hi : p.owns (.screen i) = true) :
    Lacks p (a.dropScreen i) (a'.dropScreen i) := by
  cases hs : a.screens.get? i with
  | none =>
    have hs' : a'.screens.get? i = none := by rw [hl.screens i hi, hs]
    simpa only [App.dropScreen, hs, hs'] using hl
  | some screen =>
    rw [App.dropScreen_eq hs, App.dropScreen_eq ((hl.screens i hi).trans hs)]
    refine { hl with scene := ?_, next := hl.next_modify i _, screens := hl.get?_modify i _ }
    dsimp only
    split
    · rename_i g _ hg
      obtain rfl := hhome.view i g (by rw [App.screen_eq hs, hg])
      exact hl.carry h (f := fun s => s.release _ _) fun s _ => ((only_release p s _ _).trans (if_pos hi)).symm
    · exact hl.scene

/-- **A move of the others** is possible without the screens that are missing as it is with them, and is
answered the same. -/
theorem keep (hl : Lacks p a a') (h : a.scene.Closed p) (hhome : a.AtHome) (hp : p.Houses a) {m : Move}
    (hm : m.within p = true) (hstep : a.step? m = some b) :
    (∃ b', a'.step? m = some b' ∧ Lacks p b b') ∧ a'.reply? m = a.reply? m := by
  cases m with
  | addScreen =>
    cases hstep
    refine ⟨⟨_, rfl, { hl with next := ?_, screens := fun k hk => ?_ }⟩, rfl⟩
    · simp only [App.addScreen, Store.next_add, hl.next]
    · simp only [App.addScreen, Store.get?_add, hl.next, hl.screens k hk]
  | prepare i markup options =>
    cases hstep
    exact ⟨⟨_, rfl, hl.keep_prepare hm markup options⟩, rfl⟩
  | load c r => exact ⟨hl.keep_load hm hstep, rfl⟩
  | resume c => exact ⟨hl.keep_resume h hhome hm hstep, rfl⟩
  | expire c => exact ⟨hl.keep_expire hm hstep, rfl⟩
  | take i => exact ⟨hl.keep_take hm hstep, rfl⟩
  | work i => exact ⟨hl.keep_work h hhome hp hm hstep, rfl⟩
  | discard i => exact ⟨hl.keep_discard hm hstep, rfl⟩
  | openGate =>
    cases hstep
    exact ⟨⟨_, rfl, { hl with tokens := Nat.add_le_add_right hl.tokens 1 }⟩, rfl⟩
  | drop i =>
    cases hstep
    exact ⟨⟨_, rfl, hl.keep_drop h hhome hm⟩, rfl⟩
  | present t i value =>
    have hi : p.owns (.screen i) = true := hm
    have hview : ∀ g, (a.screen i).view = some g → p.owns g = true := fun g hg => by rw [hhome.view i g hg, hi]
    obtain ⟨hcount, hscene⟩ := hl.answer h (f := fun s => s.display t (a.screen i).view value) fun s hclosed =>
      display_in hclosed hview t value
    cases hstep
    refine ⟨⟨_, rfl, ?_⟩, ?_⟩
    · rw [App.present_eq_display, App.present_eq_display, hl.screen hi]
      exact hl.withScene hscene
    · simp only [App.reply?, App.present_eq_display, hl.screen hi, hcount]
  | update t b key value =>
    cases hstep
    have hscene := hl.carry h (f := fun s => s.update t b key value) fun s hclosed => update_in hclosed hm t key value
    exact ⟨⟨_, rfl, hl.withScene hscene⟩, rfl⟩
  | perform t g node =>
    cases hstep
    obtain ⟨hdone, hscene⟩ := hl.answer h (f := fun s => s.performAction t g node) fun s hclosed =>
      performAction_in hclosed hm t node
    exact ⟨⟨_, rfl, hl.withScene hscene⟩, by simp only [App.reply?, hdone]⟩
  | animate t g node =>
    cases hstep
    obtain ⟨hdone, hscene⟩ := hl.answer h (f := fun s => s.startAnimation t g node) fun s hclosed =>
      startAnimation_in hclosed hm t node
    exact ⟨⟨_, rfl, hl.withScene hscene⟩, by simp only [App.reply?, hdone]⟩
  | addLoadHook g hook =>
    cases hstep
    have hscene := hl.carry h (f := fun s => s.addLoadHook g hook) fun s _ =>
      ((only_addLoadHook p s g hook).trans (if_pos hm)).symm
    exact ⟨⟨_, rfl, hl.withScene hscene⟩, rfl⟩
  | poll q t =>
    cases hstep
    have hscene := hl.carry h (f := fun s => (s.poll q t).2) fun s _ => (only_poll p s q t).symm
    exact ⟨⟨_, rfl, hl.withScene hscene⟩, rfl⟩

/-! ## Moves on the screens that are missing -/

/-- Changing a screen that is missing. -/
theorem modify_other (hl : Lacks p a a') (hi : p.owns (.screen i) = false) (f : Screen → Screen) :
    a'.screens.next = (a.screens.modify i f).next ∧
      ∀ k, p.owns (.screen k) = true → a'.screens.get? k = (a.screens.modify i f).get? k := by
  refine ⟨by rw [Store.next_modify, hl.next], fun k hk => ?_⟩
  rw [Store.get?_modify_other, hl.screens k hk]
  rintro rfl
  rw [hi] at hk
  cases hk

theorem insert_other (hl : Lacks p a a') {c : CallId} (hc : p.owns (.screen c.screen) = false) (call : LoadCall)
    (k : CallId) (hk : p.owns (.screen k.screen) = true) : a'.calls.get? k = (a.calls.insert c call).get? k := by
  rw [Table.get?_insert_other, hl.calls k hk]
  rintro rfl
  rw [hc] at hk
  cases hk

theorem leave_work (hl : Lacks p a a') (hi : p.owns (.screen i) = false) (hstep : a.work? i = some b)
    (hscene : b.scene.only p = a.scene.only p) : Lacks p b a' := by
  obtain ⟨A, job, B, screen, e, hbusy, -, rfl, hs, he, rfl⟩ := App.work?_split hstep
  have hother : ¬ Job.within p job = true := ne_true_of_eq_false hi
  have hgone : (job.left e).filter (Job.within p) = [] := by
    refine List.filter_eq_nil_iff.2 fun job' hjob' => ?_
    unfold Job.left at hjob'
    split at hjob'
    · cases hjob'
    · obtain rfl := List.mem_singleton.1 hjob'
      exact hother
  obtain ⟨hnext, hscreens⟩ := hl.modify_other hi fun _ => e.screen
  refine { hl with
    scene := hl.scene.trans hscene.symm, next := hnext, screens := hscreens, busy := ?_
    tokens := Nat.le_trans (App.tokens_effect he) hl.tokens }
  simp only [hl.busy, hbusy, List.filter_append, List.filter_cons_of_neg hother, hgone, List.append_nil]

theorem leave_drop (hl : Lacks p a a') (hi : p.owns (.screen i) = false)
    (hscene : (a.dropScreen i).scene.only p = a.scene.only p) : Lacks p (a.dropScreen i) a' := by
  cases hs : a.screens.get? i with
  | none => simpa only [App.dropScreen, hs] using hl
  | some screen =>
    obtain ⟨hnext, hscreens⟩ := hl.modify_other hi fun _ =>
      { screen with dropped := true, view := if screen.pinned then screen.view else none }
    rw [App.dropScreen_eq hs] at hscene ⊢
    exact { hl with scene := hl.scene.trans hscene.symm, next := hnext, screens := hscreens }

/-- **A move on a screen that is missing** changes nothing for the others. -/
theorem leave (hl : Lacks p a a') {m : Move} (hm : m.within p = false) (hstep : a.step? m = some b)
    (hscene : b.scene.only p = a.scene.only p) : Lacks p b a' := by
  have hscene' := hl.scene.trans hscene.symm
  cases m with
  | addScreen | openGate | poll => cases hm
  | prepare i markup options =>
    have hi : p.owns (.screen i) = false := hm
    cases hstep
    unfold App.prepare at hscene ⊢
    split
    · exact hl
    · split
      · exact hl
      · obtain ⟨hnext, hscreens⟩ := hl.modify_other hi fun s => { s with calledInitialize := true }
        have hnew : ¬ Job.within p ⟨i, markup, options, .start⟩ = true := ne_true_of_eq_false hi
        refine { hl with next := hnext, screens := hscreens, waiting := ?_ }
        simp only [Workers.waiting_submit, List.filter_append, List.filter_cons_of_neg hnew, List.filter_nil,
          List.append_nil]
        exact hl.waiting
  | load c r =>
    obtain ⟨-, rfl⟩ := App.addCall?_eq_some hstep
    exact { hl with calls := hl.insert_other hm _ }
  | resume c =>
    obtain ⟨call, screen, stage, flag, -, -, -, rfl⟩ := App.resume?_eq_some hstep
    have hcalls := hl.insert_other (c := c) hm { call with stage }
    cases flag with
    | none => exact { hl with scene := hscene', calls := hcalls }
    | some flag =>
      obtain ⟨hnext, hscreens⟩ := hl.modify_other (i := c.screen) hm fun s => { s with calledLoad := flag }
      exact { hl with scene := hscene', calls := hcalls, next := hnext, screens := hscreens }
  | expire c =>
    obtain ⟨r, -, rfl⟩ := App.expire?_eq_some hstep
    exact { hl with calls := hl.insert_other hm _ }
  | take i =>
    obtain ⟨job, rest, hwaiting, rfl, rfl⟩ := App.takeJob?_eq_some hstep
    have hother : ¬ Job.within p job = true := ne_true_of_eq_false hm
    refine { hl with waiting := ?_, busy := ?_ }
    · rw [hl.waiting, hwaiting, List.filter_cons_of_neg hother]
    · simp only [hl.busy, List.filter_append, List.filter_cons_of_neg hother, List.filter_nil, List.append_nil]
  | work i => exact hl.leave_work hm hstep hscene
  | discard i =>
    obtain ⟨-, rfl⟩ := App.discardJob?_eq_some hstep
    obtain ⟨hnext, hscreens⟩ := hl.modify_other (i := i) hm fun s => { s with released := true }
    refine { hl with next := hnext, screens := hscreens, waiting := ?_ }
    rw [hl.waiting, List.filter_filter]
    refine List.filter_congr fun job _ => ?_
    cases hfor : job.isFor i with
    | false => rw [Bool.not_false, Bool.and_true]
    | true =>
      obtain rfl : job.screen = i := by simpa [Job.isFor] using hfor
      have hother : Job.within p job = false := hm
      rw [hother, Bool.false_and]
  | drop i =>
    cases hstep
    exact hl.leave_drop hm hscene
  | present t i value =>
    cases hstep
    rw [App.present_eq_display] at hscene' ⊢
    exact { hl with scene := hscene' }
  | update | perform | animate | addLoadHook =>
    cases hstep
    exact { hl with scene := hscene' }

end Lacks

end LiveScreen
