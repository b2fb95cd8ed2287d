/-
Frames listed in a text. A frame list reads a text that names its frames between commas,
each with any white space around it, and any number of blank entries among them
(`Joined`). Reading finds the frames that were joined and no others (`framesOf_eq_iff`):
splitting undoes joining, and trimming undoes padding. So a list that was configured is
configured alike by its own frames with commas between them (`configured_by_joining`).
-/
import LiveScreen.Proofs.Text.Normal
import LiveScreen.Proofs.Animation.Configured

namespace LiveScreen

/-! ## Splitting -/

namespace Text

/-- Cutting a text is cutting the list of its characters. -/
theorem splitOn_eq (separator : Char) : ∀ s : List Char, splitOn separator s = s.splitOn separator
  | [] => rfl
  | c :: s => by
    rw [splitOn, splitOn_eq separator s, List.splitOn_cons_eq_if_modifyHead]
    by_cases hc : c = separator
    · simp [hc]
    · simp only [hc, if_false, beq_iff_eq]
      cases h : s.splitOn separator with
      | nil => exact absurd h (List.splitOn_ne_nil _ _)
      | cons piece pieces => rfl

/-- A separator is in none of the pieces. -/
theorem separator_notMem_splitOn (separator : Char) : ∀ s : List Char, ∀ piece ∈ s.splitOn separator, separator ∉ piece
  | [], piece, h => by
    rw [List.splitOn_nil, List.mem_singleton] at h
    rw [h]
    exact List.not_mem_nil
  | c :: s, piece, h => by
    have ih := separator_notMem_splitOn separator s
    rw [List.splitOn_cons_eq_if_modifyHead] at h
    by_cases hc : c = separator
    · rw [if_pos (beq_iff_eq.2 hc), List.mem_cons] at h
      obtain rfl | h := h
      · exact List.not_mem_nil
      · exact ih piece h
    · rw [if_neg (by simpa using hc)] at h
      cases hs : s.splitOn separator with
      | nil => exact absurd hs (List.splitOn_ne_nil _ _)
      | cons first pieces =>
        rw [hs] at h ih
        obtain ⟨hfirst, hpieces⟩ := List.forall_mem_cons.1 ih
        obtain rfl | h := List.mem_cons.1 h
        · rw [List.mem_cons, not_or]
          exact ⟨Ne.symm hc, hfirst⟩
        · exact hpieces piece h

end Text

namespace FrameList

/-! ## Lists of frames -/

/-- Whether a text can name a frame in a list: it is not empty, no comma is in it, and no white space at its
ends. -/
structure IsFrame (frame : String) : Prop where
  ne_empty : frame ≠ ""
  no_comma : ',' ∉ frame.toList
  trimmed : Text.IsTrimmed frame.toList

instance (frame : String) : Decidable (IsFrame frame) :=
  decidable_of_iff (frame ≠ "" ∧ ',' ∉ frame.toList ∧ Text.IsTrimmed frame.toList)
    ⟨fun h => ⟨h.1, h.2.1, h.2.2⟩, fun h => ⟨h.1, h.2, h.3⟩⟩

/-- Entries that list frames: the frames in their order, each with any white space around it, and blank entries
anywhere. -/
inductive Lists : List String → List String → Prop
  | nil : Lists [] []
  | blank {entry : String} {entries frames : List String} (h : Text.IsBlank entry.toList)
      (rest : Lists entries frames) : Lists (entry :: entries) frames
  | frame {entry frame : String} {entries frames : List String} (before after : List Char)
      (hbefore : Text.IsBlank before) (hafter : Text.IsBlank after) (h : entry.toList = before ++ frame.toList ++ after)
      (rest : Lists entries frames) : Lists (entry :: entries) (frame :: frames)

/-- Whether a text is made of entries that list frames, with commas between them. -/
def Joined (frames : List String) (text : String) : Prop :=
  ∃ entries, Lists entries frames ∧ text = ",".intercalate entries

/-- The frames that entries list. -/
def framesIn (entries : List String) : List String :=
  ((entries.map fun entry => Text.trim entry.toList).filter fun f => f ≠ []).map String.ofList

theorem framesIn_cons_blank {entry : String} (h : Text.IsBlank entry.toList) (entries : List String) :
    framesIn (entry :: entries) = framesIn entries := by
  rw [framesIn, List.map_cons, Text.trim_eq_nil.2 h, List.filter_cons_of_neg (by simp), framesIn]

theorem framesIn_cons {entry : String} (h : Text.trim entry.toList ≠ []) (entries : List String) :
    framesIn (entry :: entries) = String.ofList (Text.trim entry.toList) :: framesIn entries := by
  rw [framesIn, List.map_cons, List.filter_cons_of_pos (by simpa using h), List.map_cons, framesIn]

/-- Any entries list some frames. -/
theorem lists_framesIn : ∀ entries : List String, Lists entries (framesIn entries)
  | [] => .nil
  | entry :: entries => by
    by_cases h : Text.trim entry.toList = []
    · have hblank := Text.trim_eq_nil.1 h
      rw [framesIn_cons_blank hblank]
      exact .blank hblank (lists_framesIn entries)
    · obtain ⟨before, after, hbefore, hafter, hentry⟩ := Text.exists_padding entry.toList
      rw [framesIn_cons h]
      exact .frame before after hbefore hafter (by rwa [String.toList_ofList]) (lists_framesIn entries)

section Frames

variable {frames entries : List String} {text : String}

theorem IsFrame.toList_ne_nil {frame : String} (h : IsFrame frame) : frame.toList ≠ [] :=
  fun hnil => h.ne_empty (String.toList_eq_nil_iff.1 hnil)

/-- Entries list one sequence of frames only. -/
theorem Lists.framesIn_eq (h : Lists entries frames) (hframes : ∀ frame ∈ frames, IsFrame frame) :
    framesIn entries = frames := by
  induction h with
  | nil => rfl
  | blank h _ ih => rw [framesIn_cons_blank h, ih hframes]
  | frame _ _ hbefore hafter h _ ih =>
    obtain ⟨hframe, hframes⟩ := List.forall_mem_cons.1 hframes
    have htrim := Text.trim_padded hbefore hafter hframe.trimmed
    rw [← h] at htrim
    rw [framesIn_cons (htrim ▸ hframe.toList_ne_nil), htrim, String.ofList_toList, ih hframes]

theorem comma_notMem_blank {s : List Char} (h : Text.IsBlank s) : ',' ∉ s := fun hmem => absurd (h ',' hmem) (by decide)

theorem Lists.no_comma (h : Lists entries frames) (hframes : ∀ frame ∈ frames, IsFrame frame) :
    ∀ entry ∈ entries, ',' ∉ entry.toList := by
  induction h with
  | nil => exact List.forall_mem_nil _
  | blank h _ ih => exact List.forall_mem_cons.2 ⟨comma_notMem_blank h, ih hframes⟩
  | frame _ _ hbefore hafter h _ ih =>
    obtain ⟨hframe, hframes⟩ := List.forall_mem_cons.1 hframes
    refine List.forall_mem_cons.2 ⟨?_, ih hframes⟩
    rw [h, List.mem_append, List.mem_append, not_or, not_or]
    exact ⟨⟨comma_notMem_blank hbefore, hframe.no_comma⟩, comma_notMem_blank hafter⟩

/-- Frames list themselves. -/
theorem Lists.refl : ∀ frames : List String, Lists frames frames
  | [] => .nil
  | _ :: frames =>
    .frame [] [] (List.forall_mem_nil _) (List.forall_mem_nil _) (by rw [List.nil_append, List.append_nil])
      (Lists.refl frames)

theorem joined_intercalate (frames : List String) : Joined frames (",".intercalate frames) :=
  ⟨frames, .refl frames, rfl⟩

/-! ## Reading -/

/-- What is between the commas of a text. -/
theorem framesOf_eq_framesIn (text : String) :
    framesOf text = framesIn ((Text.splitOn ',' text.toList).map String.ofList) := by
  rw [framesIn, List.map_map, framesOf]
  simp only [Function.comp_def, String.toList_ofList]

/-- Reading entries with commas between them, the text of no entry at all being an empty one. -/
theorem framesOf_intercalate (h : ∀ entry ∈ entries, ',' ∉ entry.toList) :
    framesOf (",".intercalate entries) = framesIn entries := by
  cases entries with
  | nil => rfl
  | cons entry entries =>
    have hpieces : ∀ piece ∈ (entry :: entries).map String.toList, ',' ∉ piece := by simpa using h
    have hsplit : Text.splitOn ',' (",".intercalate (entry :: entries)).toList =
        (entry :: entries).map String.toList := by
      rw [String.toList_intercalate, Text.splitOn_eq]
      exact List.splitOn_intercalate ',' hpieces (List.cons_ne_nil _ _)
    rw [framesOf_eq_framesIn, hsplit, List.map_map]
    simp only [Function.comp_def, String.ofList_toList, List.map_id']

theorem joined_framesOf (text : String) : Joined (framesOf text) text := by
  refine ⟨(Text.splitOn ',' text.toList).map String.ofList, ?_, ?_⟩
  · rw [framesOf_eq_framesIn]
    exact lists_framesIn _
  · rw [← String.toList_inj, String.toList_intercalate, List.map_map]
    simp only [Function.comp_def, String.toList_ofList, List.map_id', Text.splitOn_eq]
    exact (List.intercalate_splitOn ',').symm

theorem isFrame_of_mem_framesOf {frame : String} (h : frame ∈ framesOf text) : IsFrame frame := by
  rw [framesOf, List.mem_map] at h
  obtain ⟨name, hname, rfl⟩ := h
  obtain ⟨hname, hne⟩ := List.mem_filter.1 hname
  obtain ⟨piece, hpiece, rfl⟩ := List.mem_map.1 hname
  obtain ⟨before, after, -, -, hpadded⟩ := Text.exists_padding piece
  have hcomma := Text.separator_notMem_splitOn ',' text.toList piece (Text.splitOn_eq ',' _ ▸ hpiece)
  rw [hpadded, List.mem_append, List.mem_append, not_or, not_or] at hcomma
  refine ⟨fun hempty => ?_, ?_, ?_⟩
  · rw [← String.toList_eq_nil_iff, String.toList_ofList] at hempty
    exact absurd hempty (by simpa using hne)
  · rw [String.toList_ofList]
    exact hcomma.1.2
  · rw [String.toList_ofList]
    exact Text.isTrimmed_trim piece

/-- A text is read as the frames it was joined of. -/
theorem framesOf_eq_iff : framesOf text = frames ↔ (∀ frame ∈ frames, IsFrame frame) ∧ Joined frames text := by
  constructor
  · rintro rfl
    exact ⟨fun frame hframe => isFrame_of_mem_framesOf hframe, joined_framesOf text⟩
  · rintro ⟨hframes, entries, hlists, rfl⟩
    rw [framesOf_intercalate (hlists.no_comma hframes), hlists.framesIn_eq hframes]

end Frames

/-! ## Configuring -/

section Configure

open Animation (Attribute)

/-- Whether a duration is not given or is a time. -/
def ValidDuration (A : Attributes) : Prop := Attribute.Valid ⟨"duration", .time⟩ (A.getAnyCase? "duration")

theorem configure_ok_iff (f : FrameList) (A : Attributes) :
    ((Animation.frames f).configure A).1 = .ok () ↔
      (∃ v, A.getAnyCase? "frames" = some v ∧ framesOf v.asText ≠ []) ∧ ValidDuration A := by
  obtain ⟨a, hrun, -, -⟩ := (configures_frames f).run A
  have hverdict : ∀ e : Option FactoryError, Animation.verdict e = .ok () ↔ e = none := by
    rintro (_ | e) <;> simp [Animation.verdict]
  rw [hrun, hverdict, Animation.faultOf?_eq_none, Animation.attributes]
  simp only [List.forall_mem_cons, List.not_mem_nil, false_imp_iff, implies_true, and_true, ValidDuration]
  simp only [Attribute.Valid, Attribute.framesOf_ne_nil, and_true]

/-- The frames that are given replace the earlier ones, whatever else is given. -/
theorem configure_frames (f : FrameList) {A : Attributes} {v : Value} (hA : A.getAnyCase? "frames" = some v) :
    ∃ f', ((Animation.frames f).configure A).2 = .frames f' ∧ f'.frames = framesOf v.asText := by
  obtain ⟨a, hrun, hfixed, hfields⟩ := (configures_frames f).run A
  have hname : ∃ f', a = .frames f' := by
    cases a <;> simp [Animation.fixed, Animation.name] at hfixed ⊢
  obtain ⟨f', rfl⟩ := hname
  have hsplit : (Animation.frames f).attributes =
      [] ++ ⟨"frames", .frames⟩ :: [⟨"duration", .time⟩, ⟨"oneshot", .flag⟩] := rfl
  -- The frames are read first, so that their field is settled whether or not a later attribute fails.
  obtain ⟨hlookup, -⟩ := Animation.lookup_settled A.getAnyCase? (Animation.frames f).fields
    (hsplit ▸ Animation.keys_nodup (.frames f))
  have hfield := hlookup (List.forall_mem_nil _)
  rw [← hsplit, ← hfields, hA] at hfield
  exact ⟨f', by rw [hrun], by simpa [Animation.fields, Attribute.settle] using hfield⟩

/-- A configured list holds frames, and the text that was given was joined of them. -/
theorem configured_iff (f : FrameList) (A : Attributes) (frames : List String) :
    (∃ f', (Animation.frames f).configure A = (.ok (), .frames f') ∧ f'.frames = frames) ↔
      frames ≠ [] ∧ (∀ frame ∈ frames, IsFrame frame) ∧
        (∃ v, A.getAnyCase? "frames" = some v ∧ Joined frames v.asText) ∧ ValidDuration A := by
  constructor
  · rintro ⟨f', hconfigure, rfl⟩
    obtain ⟨⟨v, hA, hne⟩, hduration⟩ := (configure_ok_iff f A).1 (by rw [hconfigure])
    obtain ⟨f'', hstate, hframes⟩ := configure_frames f hA
    obtain rfl : f' = f'' := by simpa [hconfigure] using hstate
    obtain ⟨hall, hjoined⟩ := framesOf_eq_iff.1 hframes.symm
    exact ⟨hframes ▸ hne, hall, ⟨v, hA, hjoined⟩, hduration⟩
  · rintro ⟨hne, hall, ⟨v, hA, hjoined⟩, hduration⟩
    have hframes := framesOf_eq_iff.2 ⟨hall, hjoined⟩
    obtain ⟨f', hstate, hframes'⟩ := configure_frames f hA
    have hok := (configure_ok_iff f A).2 ⟨⟨v, hA, hframes ▸ hne⟩, hduration⟩
    exact ⟨f', Prod.ext hok hstate, hframes'.trans hframes⟩

/-- Configuring with frames and commas between them gives the frames. -/
theorem configure_intercalate (g : FrameList) {B : Attributes} {frames : List String} (hne : frames ≠ [])
    (hframes : ∀ frame ∈ frames, IsFrame frame) (hB : B.getAnyCase? "frames" = some (.text (",".intercalate frames))) :
    ∃ g', ((Animation.frames g).configure B).2 = .frames g' ∧ g'.frames = frames ∧
      (((Animation.frames g).configure B).1 = .ok () ↔ ValidDuration B) := by
  have hread : framesOf (",".intercalate frames) = frames := framesOf_eq_iff.2 ⟨hframes, joined_intercalate frames⟩
  obtain ⟨g', hstate, hframes'⟩ := configure_frames g hB
  refine ⟨g', hstate, hframes'.trans hread, ?_⟩
  rw [configure_ok_iff]
  exact and_iff_right ⟨_, hB, by rwa [Value.asText, hread]⟩

/-- **Lists of frames.** Configuring a frame list succeeds and leaves certain frames exactly if there are some, they
are frames, the text that is given was joined of them, with white space around them and blank entries anywhere, and
there is no invalid duration. So whatever configures a list, it then holds frames, and these with commas between them
configure any list to hold the same ones. -/
theorem configured_by_joining (f : FrameList) (A : Attributes) :
    (∀ frames, (∃ f', (Animation.frames f).configure A = (.ok (), .frames f') ∧ f'.frames = frames) ↔
      frames ≠ [] ∧ (∀ frame ∈ frames, IsFrame frame) ∧
        (∃ v, A.getAnyCase? "frames" = some v ∧ Joined frames v.asText) ∧ ValidDuration A) ∧
    ∀ a, (Animation.frames f).configure A = (.ok (), a) →
      ∃ f', a = .frames f' ∧ f'.frames ≠ [] ∧ (∀ frame ∈ f'.frames, IsFrame frame) ∧
        ∀ (g : FrameList) (B : Attributes), B.getAnyCase? "frames" = some (.text (",".intercalate f'.frames)) →
          ∃ g', ((Animation.frames g).configure B).2 = .frames g' ∧ g'.frames = f'.frames ∧
            (((Animation.frames g).configure B).1 = .ok () ↔ ValidDuration B) := by
  refine ⟨configured_iff f A, fun a ha => ?_⟩
  obtain ⟨⟨v, hA, -⟩, -⟩ := (configure_ok_iff f A).1 (by rw [ha])
  obtain ⟨f', hstate, -⟩ := configure_frames f hA
  obtain rfl : a = .frames f' := by simpa [ha] using hstate
  obtain ⟨hne, hframes, -⟩ := (configured_iff f A f'.frames).1 ⟨f', ha, rfl⟩
  exact ⟨f', rfl, hne, hframes, fun g B hB => configure_intercalate g hne hframes hB⟩

/-- Frames with white space in and around them, blank entries at both ends and in the middle, and the same frames
again, given to a list that holds another. -/
theorem walk_configured_by_joining :
    let A : Attributes := .ofList [("Duration", .text "50dp"), ("FRAMES", .text ",\u3000walk_1 , ,\twalk 2\u0085,")]
    let B : Attributes := .ofList [("frames", .text "walk_1,walk 2"), ("oneshot", .flag true)]
    let g : FrameList := ⟨["run"], .tenth, false⟩
    ∃ f', (Animation.frames .new).configure A = (.ok (), .frames f') ∧ f'.frames = ["walk_1", "walk 2"] ∧
      ((Animation.frames g).configure B).1 = .ok () ∧
      ∃ g', ((Animation.frames g).configure B).2 = .frames g' ∧ g'.frames = ["walk_1", "walk 2"] := by
  intro A B g
  obtain ⟨hiff, hagain⟩ := configured_by_joining .new A
  have hframes : ∀ frame ∈ ["walk_1", "walk 2"], IsFrame frame :=
    List.forall_mem_cons.2 ⟨by decide, List.forall_mem_singleton.2 (by decide)⟩
  have hlists : Lists ["", "\u3000walk_1 ", " ", "\twalk 2\u0085", ""] ["walk_1", "walk 2"] :=
    .blank (by decide) <| .frame ['\u3000'] [' '] (by decide) (by decide) (by decide) <|
      .blank (by decide) <| .frame ['\t'] ['\u0085'] (by decide) (by decide) (by decide) <| .blank (by decide) .nil
  have hduration : ValidDuration A := Animation.Attribute.fault?_eq_none.1 (by decide +kernel)
  obtain ⟨f', hconfigure, hf'⟩ := (hiff ["walk_1", "walk 2"]).2
    ⟨by decide, hframes, ⟨_, rfl, _, hlists, by decide⟩, hduration⟩
  obtain ⟨f'', hsame, -, -, hagain⟩ := hagain _ hconfigure
  obtain rfl : f' = f'' := by simpa using hsame
  obtain ⟨g', hstate, hg', hok⟩ := hagain g B (by rw [hf']; decide)
  have hduration' : ValidDuration B := Animation.Attribute.fault?_eq_none.1 (by decide +kernel)
  exact ⟨f', hconfigure, hf', hok.2 hduration', g', hstate, hg'.trans hf'⟩

end Configure

end FrameList

end LiveScreen
