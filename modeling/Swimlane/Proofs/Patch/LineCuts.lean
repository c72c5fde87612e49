import Swimlane.Proofs.Patch.Rescan
import Swimlane.Proofs.Text.WholeLines

/-! A text cut into its lines in one pass. The numbered lines of a diagram come from this cut, and so
do the lines of a text under edit if its line breaks are of one kind. -/
namespace Swimlane.Text

variable {c : Char} {text above line rest : Text} {lines : List Text}

/-- Cuts a text sign by sign. A line feed right behind a carriage return belongs to the break that the
carriage return has made. -/
def cuts (afterReturn : Bool) : Text → List Text
  | [] => [[]]
  | c :: rest =>
    if c = '\r' then [] :: cuts true rest
    else if c = '\n' then if afterReturn then cuts false rest else [] :: cuts false rest
    else (cuts false rest).modifyHead (c :: ·)

/-- The lines of a text with another one above it. There is a break at every pair of a carriage return
and a line feed, at every line feed without a carriage return before it, at every carriage return without
a line feed after it, and nowhere else. -/
inductive CutBelow : Text → Text → List Text → Prop
  | last {above line : Text} (hl : BreakFree line) : CutBelow above line [line]
  | pair {above line rest : Text} {lines : List Text} (hl : BreakFree line)
      (h : CutBelow (above ++ line ++ ['\r', '\n']) rest lines) :
      CutBelow above (line ++ '\r' :: '\n' :: rest) (line :: lines)
  | feed {above line rest : Text} {lines : List Text} (hl : BreakFree line)
      (hb : (above ++ line).getLast? ≠ some '\r') (h : CutBelow (above ++ line ++ ['\n']) rest lines) :
      CutBelow above (line ++ '\n' :: rest) (line :: lines)
  | carriage {above line rest : Text} {lines : List Text} (hl : BreakFree line)
      (ha : rest.head? ≠ some '\n') (h : CutBelow (above ++ line ++ ['\r']) rest lines) :
      CutBelow above (line ++ '\r' :: rest) (line :: lines)

/-- The parts of a text are found in one pass, and those behind a carriage return as well. -/
theorem segments_eq_cuts (text : Text) :
    segments text = cuts false text ∧ segments ('\r' :: text) = [] :: cuts true text := by
  induction text with
  | nil => exact ⟨rfl, rfl⟩
  | cons c rest ih =>
    by_cases hr : c = '\r'
    · subst hr
      have hcut : segments ('\r' :: '\r' :: rest) = [] :: segments ('\r' :: rest) :=
        segments_return (by simp)
      exact ⟨ih.2, hcut.trans (congrArg _ ih.2)⟩
    · by_cases hn : c = '\n'
      · subst hn
        exact ⟨(segments_feed rest).trans (congrArg _ ih.1), (segments_pair rest).trans (congrArg _ ih.1)⟩
      · have hcut : cuts false (c :: rest) = (cuts false rest).modifyHead (c :: ·) := by
          rw [cuts, if_neg hr, if_neg hn]
        have hplain : segments (c :: rest) = cuts false (c :: rest) := by
          rw [segments_cons hr hn, ih.1, hcut]
        have hreturn : segments ('\r' :: c :: rest) = [] :: segments (c :: rest) :=
          segments_return (by simpa using hn)
        refine ⟨hplain, hreturn.trans (congrArg _ (hplain.trans ?_))⟩
        rw [cuts, cuts, if_neg hr, if_neg hn, if_neg hr, if_neg hn]

/-- A pair behind a carriage return, and a carriage return behind a line feed. -/
example : cuts false "a\r\r\nb\n\rc" = ["a".toList, [], "b".toList, [], "c".toList] := by decide

/-- There is one way to cut. -/
theorem CutBelow.eq_segments (h : CutBelow above text lines) : lines = segments text := by
  induction h with
  | last hl => exact (segments_line hl).symm
  | @pair above line rest lines hl _ ih =>
    rw [segments_append hl, segments_pair, ← ih]
    simp
  | @feed above line rest lines hl _ _ ih =>
    rw [segments_append hl, segments_feed, ← ih]
    simp
  | @carriage above line rest lines hl ha _ ih =>
    rw [segments_append hl, segments_return ha, ← ih]
    simp

/-- A sign that is no break moves to the start of the first line. -/
theorem CutBelow.cons (hr : c ≠ '\r') (hn : c ≠ '\n') (h : CutBelow (above ++ [c]) text lines) :
    CutBelow above (c :: text) (lines.modifyHead (c :: ·)) := by
  cases h with
  | last hl => exact .last (hl.cons hr hn)
  | pair hl h => exact .pair (hl.cons hr hn) (by simpa using h)
  | feed hl hb h => exact .feed (hl.cons hr hn) (by simpa using hb) (by simpa using h)
  | carriage hl ha h => exact .carriage (hl.cons hr hn) ha (by simpa using h)

/-- A text can be cut if it does not begin in the middle of a pair. -/
theorem cutBelow_segments (above text : Text)
    (h : above.getLast? = some '\r' → text.head? ≠ some '\n') :
    CutBelow above text (segments text) := by
  have hnil : BreakFree [] := by decide
  fun_induction wholeLines text generalizing above with
  | case1 rest ih =>
    rw [segments_pair]
    exact .pair hnil (ih _ (by simp))
  | case2 c rest hpair hc ih =>
    rcases hc with rfl | rfl
    · have hhead : rest.head? ≠ some '\n' := fun hhead => by
        obtain ⟨more, rfl⟩ := List.head?_eq_some_iff.1 hhead
        exact hpair more rfl rfl
      rw [segments_return hhead]
      exact .carriage hnil hhead (ih _ fun _ => hhead)
    · rw [segments_feed]
      exact .feed hnil (fun hlast => h (by simpa using hlast) rfl) (ih _ (by simp))
  | case3 c rest hpair hc ih =>
    rw [not_or] at hc
    rw [segments_cons hc.1 hc.2]
    exact .cons hc.1 hc.2 (ih _ fun hlast => absurd (by simpa using hlast) hc.1)
  | case4 => exact .last hnil

/-- Only what is not blank is left of a text that is trimmed. -/
theorem nonempty?_trim (line : Text) :
    nonempty? (trim line) = if line.any (!isBlank ·) then some (trim line) else none := by
  cases ht : trim line with
  | nil =>
    have hblank := trim_eq_nil_iff.1 ht
    rw [if_neg (by simpa using hblank)]
    rfl
  | cons c rest =>
    have hwritten : ¬ ∀ c ∈ line, isBlank c = true := fun h => by
      rw [trim_eq_nil_iff.2 h] at ht
      cases ht
    rw [if_pos (by simpa using hwritten)]
    rfl

/-- The numbered lines are the lines of the cut that are not blank, trimmed, under their numbers. -/
theorem numberedLines_eq (text : Text) : numberedLines text =
    (((cuts false text).zipIdx 1).filter fun place => place.1.any (!isBlank ·)).map fun place =>
      ⟨place.2, trim place.1⟩ := by
  rw [← (segments_eq_cuts text).1, numberedLines, ← List.filterMap_eq_map, List.filterMap_filter]
  refine List.filterMap_congr fun place _ => ?_
  dsimp only [Function.comp_apply]
  rw [nonempty?_trim]
  split <;> rfl

theorem pairwise_number_numberedLines (text : Text) :
    (numberedLines text).Pairwise fun line later => line.number < later.number := by
  rw [numberedLines_eq, List.pairwise_map]
  exact (pairwise_zipIdx _ 1).filter _

/-- A numbered line stands under its number in the cut, and something is written on it. -/
theorem exists_of_mem_numberedLines {numbered : NumberedLine} (h : numbered ∈ numberedLines text) :
    1 ≤ numbered.number ∧ ∃ whole, (cuts false text)[numbered.number - 1]? = some whole ∧
      numbered.text = trim whole ∧ trim whole ≠ [] := by
  rw [numberedLines_eq] at h
  obtain ⟨⟨whole, number⟩, hplace, rfl⟩ := List.mem_map.1 h
  obtain ⟨hmem, hwritten⟩ := List.mem_filter.1 hplace
  obtain ⟨hfirst, hlast, hwhole⟩ := List.mem_zipIdx hmem
  refine ⟨hfirst, whole, ?_, rfl, fun hnil => ?_⟩
  · rw [hwhole, List.getElem?_eq_getElem]
  · rw [trim_eq_nil_iff] at hnil
    simp only [List.any_eq_true, Bool.not_eq_true'] at hwritten
    obtain ⟨c, hc, hsign⟩ := hwritten
    rw [hnil c hc] at hsign
    cases hsign

theorem breakFree_trim (h : BreakFree line) : BreakFree (trim line) :=
  ⟨fun hn => h.1 (mem_of_mem_trim hn), fun hr => h.2 (mem_of_mem_trim hr)⟩

/-- The numbered lines come from a cut in one pass, at every pair, every other line feed and every
other carriage return: they are the lines that are not blank, without their outer blanks and under
their numbers. A text with line breaks of one kind is edited in the lines of this cut. -/
theorem numberedLines_one_pass (text : Text) :
    (∀ lines, CutBelow [] text lines ↔ lines = cuts false text) ∧
    (numberedLines text = (((cuts false text).zipIdx 1).filter fun place =>
      place.1.any (!isBlank ·)).map fun place => ⟨place.2, trim place.1⟩) ∧
    ((numberedLines text).Pairwise fun line later => line.number < later.number) ∧
    (∀ line ∈ numberedLines text, line.text ≠ [] ∧ Trimmed line.text ∧ BreakFree line.text) ∧
    (UniformBreaks text → (Newline.ofText text).split text = cuts false text ∧
      (∀ session, Patch.Session.ofText text = .ok session → session.lines = cuts false text) ∧
      ∀ line ∈ numberedLines text, 1 ≤ line.number ∧ ∃ whole,
        ((Newline.ofText text).split text)[line.number - 1]? = some whole ∧ line.text = trim whole) := by
  have hcuts : segments text = cuts false text := (segments_eq_cuts text).1
  refine ⟨fun lines => ⟨fun h => hcuts ▸ h.eq_segments, ?_⟩, numberedLines_eq text,
    pairwise_number_numberedLines text, fun line hline => ?_, fun hbreaks => ?_⟩
  · rintro rfl
    rw [← hcuts]
    exact cutBelow_segments [] text (by simp)
  · obtain ⟨-, whole, hwhole, heq, hne⟩ := exists_of_mem_numberedLines hline
    have hmem : whole ∈ segments text := hcuts ▸ List.mem_of_getElem? hwhole
    rw [heq]
    exact ⟨hne, trimmed_trim whole, breakFree_trim (breakFree_of_mem_segments hmem)⟩
  · have hsplit : (Newline.ofText text).split text = cuts false text :=
      (split_eq_segments hbreaks).trans hcuts
    refine ⟨hsplit, fun session hs => (Patch.lines_ofText hbreaks hs).1.trans hcuts,
      fun line hline => ?_⟩
    obtain ⟨hfirst, whole, hwhole, heq, -⟩ := exists_of_mem_numberedLines hline
    exact ⟨hfirst, whole, by rw [hsplit, hwhole], heq⟩

/-- A lane with a blank line and an indented node, with pairs for line breaks. -/
def spacedPairs : Text := "a \x7b\r\n\r\n n1: circle \r\n\x7d"

/-- The node is numbered three, and is the third line of the text under edit. -/
theorem numberedLines_one_pass_spaced : UniformBreaks spacedPairs ∧
    ∃ session, Patch.Session.ofText spacedPairs = .ok session ∧
      session.lines = ["a \x7b".toList, [], " n1: circle ".toList, "\x7d".toList] ∧
    ∃ line ∈ numberedLines spacedPairs, line = ⟨3, "n1: circle"⟩ ∧ line.text ≠ [] ∧
      Trimmed line.text ∧ BreakFree line.text ∧ 1 ≤ line.number ∧ ∃ whole,
        ((Newline.ofText spacedPairs).split spacedPairs)[line.number - 1]? = some whole ∧
          line.text = trim whole := by
  have hbreaks : UniformBreaks spacedPairs := by decide
  have hmem : ⟨3, "n1: circle"⟩ ∈ numberedLines spacedPairs := by decide
  have hsome : (Patch.Session.ofText spacedPairs).toOption.isSome = true := by decide +kernel
  cases hs : Patch.Session.ofText spacedPairs with
  | error fault => simp [hs, Except.toOption] at hsome
  | ok session =>
    obtain ⟨-, -, -, hlines, huniform⟩ := numberedLines_one_pass spacedPairs
    obtain ⟨-, hsession, hplaces⟩ := huniform hbreaks
    obtain ⟨hne, htrimmed, hfree⟩ := hlines _ hmem
    exact ⟨hbreaks, session, rfl, (hsession session hs).trans (by decide), _, hmem, rfl, hne, htrimmed,
      hfree, hplaces _ hmem⟩

end Swimlane.Text
