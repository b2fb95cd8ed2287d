/-
Initialization over whole runs. Whoever asks for a screen and whenever: one job
is queued, for the first of them; the parser is called once at most, with what
the first has asked for; the screen is released when the job is gone and not
before, and its view is set once, by the job, after the graph was attached and
shows what its binder stores (`initialized_once`).
-/
import LiveScreen.Proofs.Loader.Established

namespace LiveScreen

namespace Scene

/-- A graph was attached to its binder, and every value the binder stores was replayed into it. -/
def Replayed (s s' : Scene) (g : GraphId) : Prop :=
  ∃ graph binder, s.graphs.get? g = some graph ∧ s.binders.get? graph.binder = some binder ∧
    s'.graphs.get? g = some (graph.applyAll binder.values.entries) ∧
      s'.binders.get? graph.binder = some { binder with views := binder.views ++ [g] } ∧
        (graph.ClearlyBound → ∀ key value, binder.values.get? key = some value → ∀ x ∈ s'.shown g key, x = some value)

theorem replayed_addView {s : Scene} {g : GraphId} {graph : Graph} {binder : Binder}
    (hgraph : s.graphs.get? g = some graph) (hbinder : s.binders.get? graph.binder = some binder) :
    s.Replayed (s.addView graph.binder g) g := by
  have hgraph' : (s.addView graph.binder g).graphs.get? g = some (graph.applyAll binder.values.entries) := by
    rw [addView_eq hbinder]
    exact get?_modifyGraph_self hgraph
  refine ⟨graph, binder, hgraph, hbinder, hgraph', ?_, fun hclear key value hvalue x hx => ?_⟩
  · rw [addView_eq hbinder]
    simp only [modifyGraph, modifyBinder, Table.get?_modify, if_true, hbinder, Option.map_some]
  · have hlookup : Table.lookup key binder.values.entries = some value := hvalue
    simp only [shown, hgraph', Graph.shown_applyAll key hclear _ binder.values.nodup, hlookup] at hx
    obtain ⟨y, -, rfl⟩ := List.mem_map.1 hx
    rfl

end Scene

namespace App

/-! ## What happens along a run -/

/-- What is seen at the moves of a run, move by move. -/
def along {β : Type} (f : App → Move → App → List β) (a : App) : List Move → List β
  | [] => []
  | m :: rest =>
    match a.step? m with
    | some a' => f a m a' ++ a'.along f rest
    | none => []

theorem along_append {β : Type} (f : App → Move → App → List β) : ∀ (xs ys : List Move) {a b : App},
    a.steps? xs = some b → a.along f (xs ++ ys) = a.along f xs ++ b.along f ys
  | [], _, _, _, h => by
    cases h
    rfl
  | m :: xs, ys, a, b, h => by
    obtain ⟨a', hstep, hrest⟩ := Option.bind_eq_some_iff.1 h
    simp only [List.cons_append, along, hstep]
    rw [along_append f xs ys hrest, List.append_assoc]

theorem along_concat {β : Type} (f : App → Move → App → List β) {m : Move} {a a' : App} (hm : a.step? m = some a')
    (ms : List Move) {start : App} (h : start.steps? ms = some a) :
    start.along f (ms ++ [m]) = start.along f ms ++ f a m a' := by
  rw [along_append f ms [m] h]
  simp [along, hm]

/-- What a move asks a screen to be initialized with. -/
def asks (i : ScreenId) (a : App) : Move → List (String × InitOptions)
  | .prepare j markup options => if j = i ∧ (a.screens.get? i).isSome then [(markup, options)] else []
  | _ => []

/-- The jobs of a screen that come to the end of the queue with a move. -/
def queues (i : ScreenId) (a a' : App) : List Job :=
  (a'.workers.waiting.drop a.workers.waiting.length).filter (·.isFor i)

/-- What a screen is asked to be initialized with, call by call. -/
def asked (i : ScreenId) : App → List Move → List (String × InitOptions) := along fun a m _ => a.asks i m

/-- The jobs of a screen that are queued, in order. -/
def queued (i : ScreenId) : App → List Move → List Job := along fun a _ a' => a.queues i a'

/-- How the view of a screen changes, from what to what. -/
def viewChanges (i : ScreenId) : App → List Move → List (Option GraphId × Option GraphId) :=
  along fun a _ a' => if (a'.screen i).view = (a.screen i).view then [] else [((a.screen i).view, (a'.screen i).view)]

/-- An application in which nothing was begun and nothing belongs to a screen. -/
structure Blank (a : App) : Prop extends Fresh a where
  binders : ∀ i, a.scene.binders.get? (.screen i) = none
  parses : ∀ i, a.scene.parses i = []

/-- A binder that is handed over with a call is there already. -/
def Lends (start : App) (ms : List Move) : Prop :=
  ∀ before i markup options after b, ms = before ++ .prepare i markup options :: after → start.steps? before = some b →
    ∀ x, options.binder = some x → (b.scene.binders.get? x).isSome = true

variable {start a a' : App} {i : ScreenId}

theorem Lends.of_append {ms more : List Move} (h : start.Lends (ms ++ more)) : start.Lends ms := by
  intro before i markup options after b hms
  exact h before i markup options (after ++ more) b (by simp [hms])

/-- Moves that ask for no screen hand no binder over. -/
theorem Lends.append {ms more : List Move} (h : start.Lends ms)
    (hmore : ∀ i markup options, .prepare i markup options ∉ more) : start.Lends (ms ++ more) := by
  intro before i markup options after b hms
  rcases List.append_eq_append_iff.1 hms with ⟨more', -, rfl⟩ | ⟨after', rfl, hafter⟩
  · exact absurd (List.mem_append_right _ (List.mem_cons_self ..)) (hmore i markup options)
  · cases after' with
    | nil =>
      rw [List.nil_append] at hafter
      rw [← hafter] at hmore
      exact absurd (List.mem_cons_self ..) (hmore i markup options)
    | cons m after' =>
      obtain ⟨rfl, -⟩ := List.cons.inj hafter
      exact h before i markup options after' b rfl

theorem Lends.init {ms : List Move} {m : Move} (h : start.Lends (ms ++ [m])) : start.Lends ms := h.of_append

theorem Lends.last {ms : List Move} {m : Move} (h : start.Lends (ms ++ [m])) (ha : start.steps? ms = some a) :
    ∀ i markup options b, m = .prepare i markup options → options.binder = some b →
      (a.scene.binders.get? b).isSome = true := by
  rintro i markup options b rfl hb
  exact h ms i markup options [] a rfl ha b hb

theorem Blank.established (h : a.Blank) (i : ScreenId) : Established i a := by
  have hscreen := h.screen i
  have hnil := h.jobs i
  constructor
  all_goals simp [hscreen, hnil, Screen.new, h.binders, h.parses]

theorem established_of_run (hb : start.Blank) (ms : List Move) (h : start.steps? ms = some a) (hl : start.Lends ms) :
    ∀ i, Established i a := by
  refine run_induction (P := fun ms a => start.Lends ms → ∀ i, Established i a) (fun _ => hb.established) ?_ ms h hl
  intro ms a m a' ha ih hstep hl
  exact Established.step (fun j => prepared_of_run hb.toFresh j ms ha) (ih hl.init) hstep (hl.last ha)

/-! ## The first call -/

/-- A job comes to the end of the queue with the first call that asks for a screen. -/
theorem waiting_step {m : Move} (h : a.step? m = some a') :
    a'.workers.waiting.length ≤ a.workers.waiting.length ∨
      ∃ i markup options screen, m = .prepare i markup options ∧ a.screens.get? i = some screen ∧
        screen.calledInitialize = false := by
  cases m with
  | addScreen | openGate | update | perform | animate | addLoadHook | poll =>
    cases h
    exact .inl (Nat.le_refl _)
  | prepare i markup options =>
    cases h
    cases hs : a.screens.get? i with
    | none => exact .inl (by simp [App.prepare, hs])
    | some screen =>
      cases hi : screen.calledInitialize with
      | true => exact .inl (by simp [App.prepare, hs, hi])
      | false => exact .inr ⟨i, markup, options, screen, rfl, hs, hi⟩
  | load c r =>
    obtain ⟨-, rfl⟩ := addCall?_eq_some h
    exact .inl (Nat.le_refl _)
  | resume c =>
    obtain ⟨call, screen, stage, flag, -, -, -, rfl⟩ := resume?_eq_some h
    exact .inl (Nat.le_refl _)
  | expire c =>
    obtain ⟨r, -, rfl⟩ := expire?_eq_some h
    exact .inl (Nat.le_refl _)
  | take i =>
    obtain ⟨job, rest, hw, -, rfl⟩ := takeJob?_eq_some h
    exact .inl (by simp [hw])
  | work i =>
    obtain ⟨k, job, screen, e, -, -, -, -, rfl⟩ := work?_eq_some h
    left
    dsimp only
    split <;> exact Nat.le_refl _
  | discard i =>
    obtain ⟨-, rfl⟩ := discardJob?_eq_some h
    exact .inl (List.length_filter_le ..)
  | drop i =>
    cases h
    cases hs : a.screens.get? i with
    | none => exact .inl (by simp [dropScreen, hs])
    | some screen => exact .inl (Nat.le_of_eq (by rw [dropScreen_eq hs]))
  | present t i value =>
    cases h
    exact .inl (Nat.le_of_eq (by rw [present_eq]))

/-- What becomes of the first call that asks for a screen. -/
structure First (i : ScreenId) (a : App) (asked : List (String × InitOptions)) (queued : List Job) : Prop where
  queued : queued = asked.head?.toList.map fun first => ⟨i, first.1, first.2, .start⟩
  called : (a.screen i).calledInitialize = true ↔ asked ≠ []
  jobs : ∀ job ∈ a.jobs i, asked.head? = some (job.markup, job.options)
  parses : a.scene.parses i = [] ∨ ∃ first n, asked.head? = some first ∧
    a.scene.parses i = [(first.1, first.2.parseLine first.1 0 n)]

theorem called_work (hp : Prepared i a) (h : a.work? i = some a') :
    (a'.screen i).calledInitialize = (a.screen i).calledInitialize := by
  obtain ⟨k, job, screen, e, -, rfl, hs, he, ha'⟩ := work?_eq_some h
  have hscreen : a'.screen job.screen = e.screen := screen_modify_self hs (fun _ => e.screen) (by rw [ha']; rfl)
  rw [hscreen, (record_effect he).1, screen_eq hs]

/-- A job stays with what it was queued for, and calls the parser with it. -/
theorem First.work {asked : List (String × InitOptions)} {queued : List Job} (hf : First i a asked queued)
    (hp : Prepared i a) (he : Established i a) (h : a.work? i = some a') : First i a' asked queued := by
  rcases hp.jobs with hnil | ⟨job, hone, -, -⟩
  · exact absurd hnil (jobs_ne_nil_of_work h)
  have hcalled := called_work hp h
  obtain ⟨screen, e, rfl, hs, heff, -, hscene, hjobs⟩ := jobs_work_self h hone
  have hmem : job ∈ a.jobs job.screen := by rw [hone]; exact List.mem_singleton_self _
  have hfirst := hf.jobs job hmem
  refine ⟨hf.queued, by rw [hcalled, hf.called], fun job' hjob' => ?_, ?_⟩
  · rw [hjobs] at hjob'
    split at hjob'
    · cases hjob'
    · obtain rfl := List.mem_singleton.1 hjob'
      exact hfirst
  · obtain ⟨n, hparses⟩ := parses_effect heff
    rw [hscene, hparses]
    split
    · rename_i hstage
      right
      refine ⟨_, n, hfirst, ?_⟩
      rw [(he.unparsed (.inr ⟨job, hmem, by rw [hstage]; rfl⟩)).2]
      rfl
    · rw [List.append_nil]
      exact hf.parses

/-- The first call queues the job; the others do nothing. -/
theorem First.prepare {asked : List (String × InitOptions)} {queued : List Job} (hf : First i a asked queued)
    (hp : Prepared i a) (markup : String) (options : InitOptions) {screen : Screen}
    (hs : a.screens.get? i = some screen) :
    First i (a.prepare i markup options) (asked ++ [(markup, options)])
      (queued ++ a.queues i (a.prepare i markup options)) := by
  have hself := screen_eq hs
  cases hi : screen.calledInitialize with
  | true =>
    have hsame : a.prepare i markup options = a := by simp [App.prepare, hs, hi]
    have hne : asked ≠ [] := hf.called.1 (by rw [hself, hi])
    obtain ⟨first, rest, rfl⟩ := List.exists_cons_of_ne_nil hne
    rw [hsame]
    refine ⟨?_, ?_, ?_, ?_⟩
    · simpa [queues] using hf.queued
    · simp [hself, hi]
    · simpa using hf.jobs
    · simpa using hf.parses
  | false =>
    have hnil : asked = [] := by
      by_contra hne
      have hcalled := hf.called.2 hne
      rw [hself, hi] at hcalled
      cases hcalled
    subst hnil
    have hqueued : queued = [] := hf.queued
    have hparses : a.scene.parses i = [] := by
      rcases hf.parses with hnone | ⟨first, n, hhead, -⟩
      · exact hnone
      · cases hhead
    obtain ⟨hjobs, -⟩ := hp.idle (by rw [hself, hi])
    have hone := jobs_prepare markup options hs hi hjobs
    have heq := prepare_eq hs hi markup options
    have hscreen : (a.prepare i markup options).screen i = { screen with calledInitialize := true } :=
      screen_modify_self hs (fun s => { s with calledInitialize := true }) (by rw [heq])
    refine ⟨?_, ?_, fun job hjob => ?_, .inl ?_⟩
    · rw [hqueued, heq]
      simp [queues, Job.isFor]
    · simp [hscreen]
    · rw [hone] at hjob
      obtain rfl := List.mem_singleton.1 hjob
      rfl
    · rw [heq]
      exact hparses

/-- Moves that do not ask for a screen queue no job of it. -/
theorem queued_step {m : Move} (h : a.step? m = some a') (hno : ∀ markup options, m ≠ .prepare i markup options) :
    a.queues i a' = [] := by
  unfold queues
  rcases waiting_step h with hle | ⟨j, markup, options, screen, rfl, hs, hi⟩
  · rw [List.drop_eq_nil_of_le hle]
    rfl
  · have hj : j ≠ i := by
      rintro rfl
      exact hno markup options rfl
    cases h
    rw [prepare_eq hs hi]
    simp [Job.isFor, hj]

/-- The parser is called by the job of the screen only. -/
theorem parses_step (hp : ∀ j, Prepared j a) (he : ∀ j, Established j a) {m : Move} (h : a.step? m = some a')
    (hwork : m ≠ .work i) : a'.scene.parses i = a.scene.parses i := by
  by_cases hdrop : m = .drop i
  · subst hdrop
    cases h
    cases hs : a.screens.get? i with
    | none => simp [dropScreen, hs]
    | some screen =>
      rw [dropScreen_eq hs]
      dsimp only
      split <;> rfl
  · exact (steady_step hp he h hwork hdrop).parses i (by simp)

theorem First.step {asked : List (String × InitOptions)} {queued : List Job} (hf : First i a asked queued)
    (hp : ∀ j, Prepared j a) (he : ∀ j, Established j a) {m : Move} (h : a.step? m = some a') :
    First i a' (asked ++ a.asks i m) (queued ++ a.queues i a') := by
  by_cases hprepare : ∃ markup options, m = .prepare i markup options
  · obtain ⟨markup, options, rfl⟩ := hprepare
    cases h
    cases hs : a.screens.get? i with
    | some screen => simpa [asks, hs] using hf.prepare (hp i) markup options hs
    | none => simpa [App.prepare, asks, queues, hs] using hf
  · have hno : ∀ markup options, m ≠ .prepare i markup options := fun _ _ heq => hprepare ⟨_, _, heq⟩
    have hasks : a.asks i m = [] := by
      unfold asks
      split
      · rename_i j markup options
        refine if_neg ?_
        rintro ⟨rfl, -⟩
        exact hno markup options rfl
      · rfl
    rw [hasks, queued_step h hno, List.append_nil, List.append_nil]
    by_cases hwork : m = .work i
    · subst hwork
      exact hf.work (hp i) (he i) h
    · obtain ⟨-, -, -, hinit⟩ := record_step h hwork
      refine ⟨hf.queued, by rw [hinit hno, hf.called], fun job hjob => ?_, ?_⟩
      · by_cases hdiscard : m = .discard i
        · subst hdiscard
          rw [((hp i).jobs_discard h).2] at hjob
          cases hjob
        · exact hf.jobs job ((jobs_step h hwork hdiscard hno).mem_iff.1 hjob)
      · rw [parses_step hp he h hwork]
        exact hf.parses

/-! ## The view -/

/-- A screen the host has not let go of was not let go of before. -/
theorem dropped_step {m : Move} (h : a.step? m = some a') (hd : (a'.screen i).dropped = false) :
    (a.screen i).dropped = false := by
  cases m with
  | addScreen =>
    cases h
    rwa [screen_addScreen] at hd
  | openGate | update | perform | animate | addLoadHook | poll =>
    cases h
    exact hd
  | prepare j markup options =>
    cases h
    cases hs : a.screens.get? j with
    | none => simpa [App.prepare, hs] using hd
    | some screen =>
      cases hi : screen.calledInitialize with
      | true => simpa [App.prepare, hs, hi] using hd
      | false =>
        have hscreens : (a.prepare j markup options).screens =
            a.screens.modify j fun s => { s with calledInitialize := true } := by rw [prepare_eq hs hi]
        rwa [screen_modify_proj (·.dropped) hscreens (fun _ _ => rfl) i] at hd
  | load c r =>
    obtain ⟨-, rfl⟩ := addCall?_eq_some h
    exact hd
  | resume c =>
    obtain ⟨call, screen, stage, flag, -, -, -, ha⟩ := resume?_eq_some h
    cases flag with
    | none =>
      have hscreens : a'.screens = a.screens := by
        rw [ha]
        rfl
      rwa [screen_congr hscreens i] at hd
    | some b =>
      have hscreens : a'.screens = a.screens.modify c.screen fun s => { s with calledLoad := b } := by
        rw [ha]
        rfl
      rwa [screen_modify_proj (·.dropped) hscreens (fun _ _ => rfl) i] at hd
  | expire c =>
    obtain ⟨r, -, rfl⟩ := expire?_eq_some h
    exact hd
  | take j =>
    obtain ⟨job, rest, -, -, rfl⟩ := takeJob?_eq_some h
    exact hd
  | work j =>
    obtain ⟨k, job, screen, e, -, rfl, hs, he, ha⟩ := work?_eq_some h
    have hscreens : a'.screens = a.screens.modify job.screen fun _ => e.screen := by
      rw [ha]
      rfl
    have hsame : e.screen.dropped = screen.dropped := by cases Job.turn_of_effect he <;> rfl
    have hproj : ∀ s, a.screens.get? job.screen = some s → e.screen.dropped = s.dropped := by
      intro s hs'
      rw [hsame, Option.some.inj (hs.symm.trans hs')]
    rwa [screen_modify_proj (·.dropped) hscreens hproj i] at hd
  | discard j =>
    have hscreens : a'.screens = a.screens.modify j fun s => { s with released := true } := by
      obtain ⟨-, rfl⟩ := discardJob?_eq_some h
      rfl
    rwa [screen_modify_proj (·.dropped) hscreens (fun _ _ => rfl) i] at hd
  | drop j =>
    cases h
    cases hs : a.screens.get? j with
    | none => simpa [dropScreen, hs] using hd
    | some screen =>
      have hscreens : (a.dropScreen j).screens = a.screens.modify j fun _ =>
          { screen with dropped := true, view := if screen.pinned then screen.view else none } := by
        rw [dropScreen_eq hs]
      by_cases hj : j = i
      · subst hj
        rw [screen_modify_self hs _ hscreens] at hd
        cases hd
      · rwa [screen_modify_other _ hscreens hj] at hd
  | present t j value =>
    cases h
    rw [present_eq] at hd
    exact hd

/-- The view of a screen the host has not let go of is set by the job, while the screen is not released, and
not changed any more. -/
theorem view_step (hp : Prepared i a) (he : Established i a) {m : Move} (h : a.step? m = some a')
    (hd : (a'.screen i).dropped = false) : (a'.screen i).view = (a.screen i).view ∨
      m = .work i ∧ (a.screen i).view = none ∧ (a'.screen i).view = some (.screen i) ∧
        (a.screen i).released = false ∧ (a'.screen i).released = false := by
  by_cases hwork : m = .work i
  · subst hwork
    rcases hp.jobs with hnil | ⟨job, hone, hr, -⟩
    · exact absurd hnil (jobs_ne_nil_of_work h)
    obtain ⟨screen, e, rfl, hs, heff, hscreens, -, -⟩ := jobs_work_self h hone
    have hmem : job ∈ a.jobs job.screen := by rw [hone]; exact List.mem_singleton_self _
    have hself := screen_eq hs
    have hself' : a'.screen job.screen = e.screen := screen_modify_self hs _ hscreens
    rw [hself'] at hd ⊢
    rw [hself] at hr ⊢
    cases Job.turn_of_effect heff with
    | publish hstage =>
      obtain rfl := hp.own hmem (by rw [hstage]; rfl)
      have hnone := he.unpublished (.inr ⟨job, hmem, by rw [hstage]; rfl⟩)
      rw [hself] at hnone
      exact .inr ⟨rfl, hnone, rfl, hr, hr⟩
    | forget _ hdropped _ => rw [hdropped] at hd; cases hd
    | _ => exact .inl rfl
  · rcases (record_step h hwork).1 with hsame | ⟨rfl, hnone⟩
    · exact .inl hsame
    · cases h
      cases hs : a.screens.get? i with
      | none => exact .inl (by simp [dropScreen, hs])
      | some screen =>
        rw [screen_modify_self (a := a) hs (fun _ => { screen with
          dropped := true, view := if screen.pinned then screen.view else none }) (by rw [dropScreen_eq hs])] at hd
        cases hd

/-- The graph of a screen was attached, and what its binder stores replayed into it, while nobody could see it. -/
def ReplayedIn (start : App) (ms : List Move) (i : ScreenId) : Prop :=
  ∃ before after b b', ms = before ++ .work i :: after ∧ start.steps? before = some b ∧ b.step? (.work i) = some b' ∧
    (b'.screen i).view = none ∧ b'.scene.Attached i ∧ b.scene.Replayed b'.scene (.screen i)

/-- The job has come past the attaching, or was through. -/
def Attaching (i : ScreenId) (a : App) : Prop :=
  (∃ job ∈ a.jobs i, ∃ g, job.stage = .publish g) ∨ (a.screen i).view ≠ none

theorem ReplayedIn.concat {ms : List Move} (h : ReplayedIn start ms i) (m : Move) : ReplayedIn start (ms ++ [m]) i := by
  obtain ⟨before, after, b, b', rfl, hb, hstep, hrest⟩ := h
  exact ⟨before, after ++ [m], b, b', by simp, hb, hstep, hrest⟩

theorem attaching_step (hp : Prepared i a) (he : Established i a) {m : Move} (h : a.step? m = some a')
    (ha : Attaching i a') : Attaching i a ∨ m = .work i ∧ (a'.screen i).view = none ∧ a'.scene.Attached i ∧
      a.scene.Replayed a'.scene (.screen i) := by
  by_cases hwork : m = .work i
  · subst hwork
    rcases hp.jobs with hnil | ⟨job, hone, -, -⟩
    · exact absurd hnil (jobs_ne_nil_of_work h)
    obtain ⟨screen, e, rfl, hs, heff, hscreens, hscene, hjobs⟩ := jobs_work_self h hone
    have hmem : job ∈ a.jobs job.screen := by rw [hone]; exact List.mem_singleton_self _
    have hself' : a'.screen job.screen = e.screen := screen_modify_self hs _ hscreens
    rcases ha with ⟨job', hjob', g, hg⟩ | hview
    · rw [hjobs] at hjob'
      split at hjob'
      · cases hjob'
      · obtain rfl := List.mem_singleton.1 hjob'
        cases Job.turn_of_effect heff with
        | @addView g graph hstage hgraph =>
          obtain rfl := hp.own hmem (by rw [hstage]; rfl)
          have hready := he.stage job hmem
          rw [hstage] at hready
          obtain ⟨⟨graph', hgraph', -, hbinder, -⟩, -, hattached⟩ := hready
          obtain rfl := Option.some.inj (hgraph.symm.trans hgraph')
          obtain ⟨binder, hbinder⟩ := Option.isSome_iff_exists.1 hbinder
          have hnone := he.unpublished (.inr ⟨job, hmem, by rw [hstage]; rfl⟩)
          rw [screen_eq hs] at hnone
          rw [hself', hscene]
          exact .inr ⟨rfl, hnone, hattached.steady (.addView _ _ _), Scene.replayed_addView hgraph hbinder⟩
        | _ => cases hg
    · rw [hself'] at hview
      left
      cases Job.turn_of_effect heff with
      | publish hstage => exact .inl ⟨job, hmem, _, hstage⟩
      | forget => exact absurd rfl hview
      | _ => exact .inr (by rw [screen_eq hs]; exact hview)
  · left
    rcases ha with ⟨job, hjob, g, hg⟩ | hview
    · left
      by_cases hdiscard : m = .discard i
      · subst hdiscard
        rw [(hp.jobs_discard h).2] at hjob
        cases hjob
      by_cases hprepare : ∃ markup options, m = .prepare i markup options
      · obtain ⟨markup, options, rfl⟩ := hprepare
        cases h
        cases hs : a.screens.get? i with
        | none => exact ⟨job, by simpa [App.prepare, hs] using hjob, g, hg⟩
        | some screen =>
          cases hi : screen.calledInitialize with
          | true => exact ⟨job, by simpa [App.prepare, hs, hi] using hjob, g, hg⟩
          | false =>
            rw [jobs_prepare markup options hs hi (hp.idle (by rw [screen_eq hs, hi])).1] at hjob
            obtain rfl := List.mem_singleton.1 hjob
            cases hg
      · have hno : ∀ markup options, m ≠ .prepare i markup options := fun _ _ heq => hprepare ⟨_, _, heq⟩
        exact ⟨job, (jobs_step h hwork hdiscard hno).mem_iff.1 hjob, g, hg⟩
    · right
      intro hnone
      cases hv : (a'.screen i).view with
      | none => exact hview hv
      | some g =>
        rw [view_of_step h hwork g hv] at hnone
        cases hnone

/-! ## Runs -/

theorem first_of_run (hb : start.Blank) (i : ScreenId) (ms : List Move) (h : start.steps? ms = some a)
    (hl : start.Lends ms) : First i a (start.asked i ms) (start.queued i ms) := by
  refine run_induction (P := fun ms a => start.Lends ms → First i a (start.asked i ms) (start.queued i ms))
    (fun _ => ?_) ?_ ms h hl
  · have hscreen : (start.screen i).calledInitialize = false := by rw [hb.screen]; rfl
    refine ⟨rfl, by simp [asked, along, hscreen], fun job hjob => ?_, .inl (hb.parses i)⟩
    rw [hb.jobs] at hjob
    cases hjob
  · intro ms a m a' ha ih hstep hl
    rw [asked, queued, along_concat _ hstep ms ha, along_concat _ hstep ms ha]
    exact (ih hl.init).step (fun j => prepared_of_run hb.toFresh j ms ha) (established_of_run hb ms ha hl.init) hstep

theorem replayed_of_run (hb : start.Blank) (i : ScreenId) (ms : List Move) (h : start.steps? ms = some a)
    (hl : start.Lends ms) : Attaching i a → ReplayedIn start ms i := by
  refine run_induction (P := fun ms a => start.Lends ms → Attaching i a → ReplayedIn start ms i) (fun _ hat => ?_) ?_
    ms h hl
  · exfalso
    rcases hat with ⟨job, hjob, -⟩ | hview
    · rw [hb.jobs] at hjob
      cases hjob
    · rw [hb.screen] at hview
      exact hview rfl
  · intro ms a m a' ha ih hstep hl hat
    have hp := prepared_of_run hb.toFresh i ms ha
    rcases attaching_step hp (established_of_run hb ms ha hl.init i) hstep hat with hbefore | ⟨rfl, hnow⟩
    · exact (ih hl.init hbefore).concat m
    · exact ⟨ms, [], a, a', rfl, ha, hstep, hnow⟩

theorem viewChanges_of_run (hb : start.Blank) (i : ScreenId) (ms : List Move) (h : start.steps? ms = some a)
    (hl : start.Lends ms) :
    (a.screen i).dropped = false → start.viewChanges i ms = (a.screen i).view.toList.map fun g => (none, some g) := by
  refine run_induction (P := fun ms a => start.Lends ms → (a.screen i).dropped = false →
    start.viewChanges i ms = (a.screen i).view.toList.map fun g => (none, some g)) (fun _ _ => ?_) ?_ ms h hl
  · rw [hb.screen]
    rfl
  · intro ms a m a' ha ih hstep hl hd
    have hbefore := ih hl.init (dropped_step hstep hd)
    rw [viewChanges, along_concat _ hstep ms ha]
    have hp := prepared_of_run hb.toFresh i ms ha
    rcases view_step hp (established_of_run hb ms ha hl.init i) hstep hd with hsame | ⟨-, hnone, hview, -⟩
    · rw [if_pos hsame, List.append_nil, hsame]
      exact hbefore
    · rw [hnone] at hbefore
      have hnil : start.along (fun a _ a' => if (a'.screen i).view = (a.screen i).view then []
        else [((a.screen i).view, (a'.screen i).view)]) ms = [] := hbefore
      rw [hnil, hnone, hview]
      rfl

/-- Nothing takes the release of a screen back. -/
theorem released_of_steps : ∀ (ms : List Move) {a b : App}, a.steps? ms = some b → Prepared i a →
    (a.screen i).released = true → (b.screen i).released = true
  | [], a, b, h, _, hr => by
    cases h
    exact hr
  | m :: ms, a, b, h, hp, hr => by
    obtain ⟨c, hc, hrest⟩ := Option.bind_eq_some_iff.1 h
    refine released_of_steps ms hrest (hp.step hc) ?_
    by_cases hwork : m = .work i
    · subst hwork
      rcases hp.jobs with hnil | ⟨job, -, hno, -⟩
      · exact absurd hnil (jobs_ne_nil_of_work hc)
      · rw [hr] at hno
        cases hno
    · exact (record_step hc hwork).2.2.1 hr

/-- **A screen is initialized once.** In every run, whoever asks for the screen, loads it or lets go of it
meanwhile, and however its job ends: one job is queued, for the first call that asks for the screen, and the
parser is called with what that call has asked for, once at most; the screen is released from when its job is
gone, and stays so; while the host has the screen, its view changes once at most, from none to the screen's
graph, by a step of the job and before the screen is released; and a graph that is the view is kept by the
screen, attached to its task center and among the views of its binder, which replayed into it everything it
stored before the graph could be seen. -/
theorem initialized_once (hb : start.Blank) (i : ScreenId) (ms : List Move) (hl : start.Lends ms)
    (h : start.steps? ms = some a) :
    (start.queued i ms = (start.asked i ms).head?.toList.map (fun first => ⟨i, first.1, first.2, .start⟩) ∧
      (∀ job ∈ a.jobs i, (start.asked i ms).head? = some (job.markup, job.options)) ∧
        (a.scene.parses i = [] ∨ ∃ first n, (start.asked i ms).head? = some first ∧
          a.scene.parses i = [(first.1, first.2.parseLine first.1 0 n)])) ∧
    (((a.screen i).released = true ↔ start.asked i ms ≠ [] ∧ a.jobs i = []) ∧
      ∀ later b, a.steps? later = some b → (a.screen i).released = true → (b.screen i).released = true) ∧
    (((a.screen i).dropped = false →
        start.viewChanges i ms = (a.screen i).view.toList.map fun g => (none, some g)) ∧
      ∀ m b, a.step? m = some b → (b.screen i).dropped = false → (b.screen i).view ≠ (a.screen i).view →
        m = .work i ∧ (a.screen i).released = false ∧ (b.screen i).released = false) ∧
    ∀ g, (a.screen i).view = some g → g = .screen i ∧ a.scene.Published i ∧ ReplayedIn start ms i := by
  have hp := prepared_of_run hb.toFresh i ms h
  have he := established_of_run hb ms h hl i
  have hf := first_of_run hb i ms h hl
  refine ⟨⟨hf.queued, hf.jobs, hf.parses⟩, ⟨⟨fun hr => ?_, fun ⟨hasked, hnil⟩ => ?_⟩, fun later b hlater hr => ?_⟩,
    ⟨viewChanges_of_run hb i ms h hl, fun m b hm hd hne => ?_⟩, fun g hg => ⟨?_, ?_, ?_⟩⟩
  · refine ⟨hf.called.1 ?_, ?_⟩
    · by_contra hno
      rw [(hp.idle (Bool.eq_false_iff.2 hno)).2] at hr
      cases hr
    · rcases hp.jobs with hnil | ⟨job, -, hno, -⟩
      · exact hnil
      · rw [hr] at hno
        cases hno
  · exact he.ended (hf.called.2 hasked) hnil
  · exact released_of_steps later hlater hp hr
  · rcases view_step hp he hm hd with hsame | ⟨hwork, -, -, hbefore, hafter⟩
    · exact absurd hsame hne
    · exact ⟨hwork, hbefore, hafter⟩
  · exact (hp.view g hg).1
  · exact he.view g hg
  · exact replayed_of_run hb i ms h hl (.inr (by rw [hg]; nofun))

/-! ## One screen -/

/-- An application with a binder of the host that stores a value, and a markup with a label bound to it. -/
def storedLabel : App :=
  { oneView with
    scene := { Scene.empty with
      binders := Table.empty.insert (.host 0) (.new (Table.empty.insert "text_1" (.text "hello"))) }
    markups := Table.empty.insert "" ⟨false, false,
      some ⟨.mk ⟨"", none, none, [], .empty, [⟨"text_1", "text"⟩], none, none⟩ [], [], []⟩, []⟩ }

/-- Two calls ask for one screen, the first one with the binder of the host. -/
def askedTwice : List Move :=
  [.addScreen, .prepare 0 "" { InitOptions.standard with binder := some (.host 0) }, .prepare 0 "other" .standard] ++
    .take 0 :: List.replicate 10 (.work 0)

theorem blank_storedLabel : storedLabel.Blank := ⟨⟨rfl, rfl, rfl, rfl⟩, fun _ => rfl, fun _ => rfl⟩

theorem lends_askedTwice : storedLabel.Lends askedTwice := by
  refine Lends.append ?_ (by simp)
  intro before i markup options after b hms hb x hx
  match before with
  | [] => cases hms
  | [_] =>
    cases hms
    cases hb
    cases hx
    rfl
  | [_, _] =>
    cases hms
    cases hx
  | _ :: _ :: _ :: _ => simp at hms

theorem storedLabel_initialized_once : ∃ a, storedLabel.steps? askedTwice = some a ∧
    (storedLabel.asked 0 askedTwice).length = 2 ∧ (storedLabel.queued 0 askedTwice).length = 1 ∧
      (a.scene.parses 0).length = 1 ∧ (a.screen 0).released = true ∧
        storedLabel.viewChanges 0 askedTwice = [(none, some (.screen 0))] ∧ a.scene.Published 0 ∧
          ReplayedIn storedLabel askedTwice 0 := by
  obtain ⟨a, ha⟩ : ∃ a, storedLabel.steps? askedTwice = some a := Option.isSome_iff_exists.1 rfl
  have hseen : (storedLabel.steps? askedTwice).map (fun a =>
      ((a.scene.parses 0).length, (a.screen 0).view, (a.screen 0).dropped, (a.jobs 0).length)) =
        some (1, some (.screen 0), false, 0) := rfl
  rw [ha] at hseen
  simp only [Option.map_some, Option.some.injEq, Prod.mk.injEq] at hseen
  obtain ⟨hparses, hview, hdropped, hjobs⟩ := hseen
  obtain ⟨⟨hqueued, -⟩, ⟨hreleased, -⟩, ⟨hchanges, -⟩, hpublished⟩ :=
    initialized_once blank_storedLabel 0 askedTwice lends_askedTwice ha
  have hasked : (storedLabel.asked 0 askedTwice).length = 2 := rfl
  refine ⟨a, ha, hasked, by rw [hqueued]; rfl, hparses, hreleased.2 ⟨?_, List.length_eq_zero_iff.1 hjobs⟩, ?_,
    (hpublished _ hview).2⟩
  · intro hnil
    rw [hnil] at hasked
    cases hasked
  · rw [hchanges hdropped, hview]
    rfl

end App

end LiveScreen
