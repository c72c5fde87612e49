import Mathlib.Logic.Relation
import Swimlane.Proofs.Diagram.Comments
import Swimlane.Proofs.Diagram.LaneLabels

/-! How a text is laid out does not count for its graph: the blanks around lines, blank lines, the kind of
each line break, and lines that are passed over and take no label from a lane. -/
namespace Swimlane

open Text Line

variable {text other above below line mark : Text} {classifier : Classifier}

namespace Text

/-- What breaks a line: a line feed, a carriage return, or the pair of both. -/
inductive IsBreak : Text → Prop
  | feed : IsBreak ['\n']
  | carriage : IsBreak ['\r']
  | pair : IsBreak ['\r', '\n']

/-- A line may begin behind this text. -/
def AtStart (above : Text) : Prop := ∀ c ∈ above.getLast?, c = '\n' ∨ c = '\r'

/-- A line may end before this text. -/
def AtEnd (below : Text) : Prop := ∀ c ∈ below.head?, c = '\n' ∨ c = '\r'

-- Named, as a search may find a check of all characters instead.
instance : DecidablePred AtStart := fun above => Option.decidableForallMem above.getLast?

instance : DecidablePred AtEnd := fun below => Option.decidableForallMem below.head?

/-- One more line in a text, below the part `above`: with a break behind it where a line begins, or
behind a break where a line ends. -/
inductive LineAdded (line above : Text) : Text → Text → Prop
  | before {below mark : Text} (hm : IsBreak mark) (ha : AtStart above) :
      LineAdded line above (above ++ below) (above ++ (line ++ (mark ++ below)))
  | behind {below mark : Text} (hm : IsBreak mark) (hb : AtEnd below) :
      LineAdded line above (above ++ below) (above ++ (mark ++ (line ++ below)))

theorem isBreak_singleton {c : Char} (h : c = '\n' ∨ c = '\r') : IsBreak [c] := by
  rcases h with rfl | rfl
  · exact .feed
  · exact .carriage

theorem IsBreak.ended (hm : IsBreak mark) (hb : BreakFree line) : Ended (line ++ mark) := by
  cases hm <;> exact .intro hb (by simp)

theorem IsBreak.blank (hm : IsBreak mark) : ∀ c ∈ mark, isBlank c = true := by
  cases hm <;> exact List.all_eq_true.1 (by decide)

@[simp] theorem writtenLines_nil : writtenLines [] = [] := rfl

theorem writtenLines_line (hb : BreakFree line) :
    writtenLines line = [trim line].filter (· ≠ []) := by
  simpa using writtenLines_flatten (.last hb)

/-- A break parts what is written above it from what is written below. If it is a carriage return that
comes to stand before a line feed, only a blank line is lost. -/
theorem writtenLines_break (above below : Text) (hm : IsBreak mark) :
    writtenLines (above ++ (mark ++ below)) = writtenLines above ++ writtenLines below := by
  have hlines : ∀ {lines : List Text}, Broken lines →
      writtenLines (lines.flatten ++ (mark ++ below)) =
        writtenLines lines.flatten ++ writtenLines below := by
    intro lines h
    induction h with
    | nil =>
      have hmark : trim mark = [] := @trim_append_blanks [] mark hm.blank
      have hended : Ended ([] ++ mark) := hm.ended (by decide)
      have hempty : writtenLines (([] ++ mark) ++ below) = _ := writtenLines_append hended
      simpa [hmark] using hempty
    | @last body hb =>
      rw [List.flatten_singleton, ← List.append_assoc, writtenLines_append (hm.ended hb),
        trim_append_blanks hm.blank, writtenLines_line hb]
    | @cons line rest hl _ ih =>
      rw [List.flatten_cons, List.append_assoc, writtenLines_append hl, writtenLines_append hl, ih,
        List.append_assoc]
  have habove := hlines (broken_wholeLines above)
  rwa [flatten_wholeLines] at habove

theorem writtenLines_atStart (below : Text) (ha : AtStart above) :
    writtenLines (above ++ below) = writtenLines above ++ writtenLines below := by
  rcases List.eq_nil_or_concat above with rfl | ⟨first, c, rfl⟩
  · rfl
  · have hc : IsBreak [c] := isBreak_singleton (ha c (by simp))
    have hfirst := writtenLines_break first [] hc
    rw [writtenLines_nil, List.append_nil, List.append_nil] at hfirst
    rw [List.concat_eq_append, List.append_assoc, writtenLines_break first below hc, hfirst]

theorem writtenLines_atEnd (above : Text) (hb : AtEnd below) :
    writtenLines (above ++ below) = writtenLines above ++ writtenLines below := by
  cases below with
  | nil => simp
  | cons c rest =>
    have hc : IsBreak [c] := isBreak_singleton (hb c (by simp))
    have hrest := writtenLines_break [] rest hc
    rw [writtenLines_nil, List.nil_append, List.nil_append] at hrest
    exact (writtenLines_break above rest hc).trans (congrArg _ hrest.symm)

theorem writtenLines_added (hl : BreakFree line) (h : LineAdded line above text other) :
    ∃ below, writtenLines text = writtenLines above ++ writtenLines below ∧
      writtenLines other =
        writtenLines above ++ ([trim line].filter (· ≠ []) ++ writtenLines below) := by
  rw [← writtenLines_line hl]
  cases h with
  | @before below mark hm ha =>
    refine ⟨below, writtenLines_atStart below ha, ?_⟩
    rw [writtenLines_atStart _ ha, writtenLines_break line below hm]
  | @behind below mark hm hb =>
    refine ⟨below, writtenLines_atEnd above hb, ?_⟩
    rw [writtenLines_break above _ hm, writtenLines_atEnd line hb]

end Text

/-- A line that opens a lane without a label, so that the next one may hold it. -/
def LacksLabel (line : Text) : Prop := ∃ id, Line.read line = .laneOpen id none

/-- One change of how a text is laid out. -/
inductive Reformatted : Text → Text → Prop
  | margins {above line other below : Text} (ha : AtStart above) (hb : AtEnd below)
      (hl : BreakFree line) (ho : BreakFree other) (ht : trim other = trim line) :
      Reformatted (above ++ (line ++ below)) (above ++ (other ++ below))
  | lineBreak {above mark other below : Text} (hm : IsBreak mark) (ho : IsBreak other) :
      Reformatted (above ++ (mark ++ below)) (above ++ (other ++ below))
  | blankAdded {line above text other : Text} (hl : BreakFree line) (ht : trim line = [])
      (h : LineAdded line above text other) : Reformatted text other
  | blankRemoved {line above text other : Text} (hl : BreakFree line) (ht : trim line = [])
      (h : LineAdded line above other text) : Reformatted text other
  | skippedAdded {line above text other : Text} (hl : BreakFree line)
      (hs : (Line.read line).isSkipped = true)
      (ha : ∀ last ∈ (writtenLines above).getLast?, ¬ LacksLabel last)
      (h : LineAdded line above text other) : Reformatted text other

/-- Lines as they are read, without their numbers. -/
def unnumbered (lines : List Text) : List SourceLine := lines.map fun line => ⟨0, line, Line.read line⟩

theorem line_unnumbered (lines : List Text) :
    (unnumbered lines).map (·.line) = lines.map Line.read := by
  rw [unnumbered, List.map_map]
  rfl

/-- The numbers of lines do not count. -/
theorem ofLines_written (classifier : Classifier) (text : Text) :
    Graph.ofLines classifier (sourceLines text) =
      Graph.ofLines classifier (unnumbered (writtenLines text)) := by
  have hlines : (sourceLines text).map (fun line => { line with number := 0 }) =
      unnumbered (writtenLines text) := by
    rw [sourceLines, unnumbered, writtenLines, List.map_map, List.map_map]
    rfl
  rw [Graph.ofLines, Graph.ofLines, line_sourceLines, line_unnumbered, ← hlines,
    lanesFrom_unnumbered]

/-- A line that opens no lane draws none, and takes no label from one that is opened right above it
with a label of its own. -/
theorem lanesFrom_skip {laneKind : Text → Text → LaneKind} {seen : List Text}
    {above below : List SourceLine} {line : SourceLine} (hl : laneId? line.line = none)
    (ha : ∀ last ∈ above.getLast?, ∀ id, last.line ≠ .laneOpen id none) :
    lanesFrom laneKind seen (above ++ line :: below) = lanesFrom laneKind seen (above ++ below) := by
  rcases List.eq_nil_or_concat above with rfl | ⟨rest, last, rfl⟩
  · exact lanesFrom_inner hl
  · rw [List.concat_eq_append, List.append_assoc, List.append_assoc]
    refine lanesFrom_append_congr rfl fun seen => ?_
    rw [List.singleton_append, List.singleton_append]
    cases hlast : last.line with
    | laneOpen id label =>
      cases label with
      | none => exact absurd hlast (ha last (by simp) id)
      | some label =>
        by_cases hid : id ∈ seen
        · rw [lanesFrom_seen hlast hid, lanesFrom_seen hlast hid, lanesFrom_inner hl]
        · rw [lanesFrom_new hlast hid, lanesFrom_new hlast hid, lanesFrom_inner hl]
          rfl
    | _ =>
      have hinner : laneId? last.line = none := by
        rw [hlast]
        rfl
      rw [lanesFrom_inner hinner, lanesFrom_inner hinner, lanesFrom_inner hl]

theorem ofLines_skip {above below : List Text} (hs : (Line.read line).isSkipped = true)
    (ha : ∀ last ∈ above.getLast?, ¬ LacksLabel last) :
    Graph.ofLines classifier (unnumbered (above ++ line :: below)) =
      Graph.ofLines classifier (unnumbered (above ++ below)) := by
  have hpassing : ((above ++ line :: below).map Line.read).filter (!·.isSkipped) =
      ((above ++ below).map Line.read).filter (!·.isSkipped) := by
    simp [hs]
  have hnodes : ∀ nodeKind, nodesFrom nodeKind none ((above ++ line :: below).map Line.read) =
      nodesFrom nodeKind none ((above ++ below).map Line.read) := fun nodeKind =>
    nodesFrom_passing.symm.trans ((congrArg _ hpassing).trans nodesFrom_passing)
  have hedges : edgesFrom none [] 0 ((above ++ line :: below).map Line.read) =
      edgesFrom none [] 0 ((above ++ below).map Line.read) :=
    edgesFrom_passing.symm.trans ((congrArg _ hpassing).trans edgesFrom_passing)
  have hlane : laneId? (Line.read line) = none := by
    cases hr : Line.read line <;> simp_all [isSkipped, laneId?]
  have hlanes : lanesFrom classifier.laneKind [] (unnumbered (above ++ line :: below)) =
      lanesFrom classifier.laneKind [] (unnumbered (above ++ below)) := by
    rw [unnumbered, unnumbered, List.map_append, List.map_append, List.map_cons]
    refine lanesFrom_skip hlane fun source hsource id hopen => ?_
    rw [List.getLast?_map] at hsource
    obtain ⟨last, hlast, rfl⟩ := Option.map_eq_some_iff.1 hsource
    exact ha last hlast ⟨id, hopen⟩
  rw [Graph.ofLines, Graph.ofLines, line_unnumbered, line_unnumbered, hnodes, hedges, hlanes]

theorem ofLines_step (classifier : Classifier) (h : Reformatted text other) :
    Graph.ofLines classifier (sourceLines other) = Graph.ofLines classifier (sourceLines text) := by
  rw [ofLines_written, ofLines_written]
  cases h with
  | margins ha hb hl ho ht =>
    rw [writtenLines_atStart _ ha, writtenLines_atEnd _ hb, writtenLines_atStart _ ha,
      writtenLines_atEnd _ hb, writtenLines_line hl, writtenLines_line ho, ht]
  | lineBreak hm ho => rw [writtenLines_break _ _ hm, writtenLines_break _ _ ho]
  | blankAdded hl ht h =>
    obtain ⟨below, htext, hother⟩ := writtenLines_added hl h
    simp [htext, hother, ht]
  | blankRemoved hl ht h =>
    obtain ⟨below, hother, htext⟩ := writtenLines_added hl h
    simp [htext, hother, ht]
  | @skippedAdded line above _ _ hl hs ha h =>
    obtain ⟨below, htext, hother⟩ := writtenLines_added hl h
    rw [htext, hother]
    by_cases ht : trim line = []
    · simp [ht]
    · have hline : [trim line].filter (· ≠ []) = [trim line] := by simp [ht]
      rw [hline, List.singleton_append]
      exact ofLines_skip (by rwa [read_trim]) ha

/-- Blanks around lines, blank lines, the kinds of line breaks, and lines that are passed over and take no
label from a lane leave the graph as it is, whatever tells the kinds of its lanes and nodes. -/
theorem ofText_reformatted (h : Relation.ReflTransGen Reformatted text other) :
    Graph.ofText other = Graph.ofText text ∧ ∀ classifier,
      Graph.ofLines classifier (sourceLines other) = Graph.ofLines classifier (sourceLines text) := by
  have hlines : ∀ classifier,
      Graph.ofLines classifier (sourceLines other) = Graph.ofLines classifier (sourceLines text) := by
    intro classifier
    induction h with
    | refl => rfl
    | tail _ hstep ih => exact (ofLines_step classifier hstep).trans ih
  exact ⟨hlines .byWords, hlines⟩

/-- Another kind of line break, a blank line, an indent, and a comment below a node, one after the other. -/
theorem ofText_reformatted_noted :
    Relation.ReflTransGen Reformatted "a \x7b\nn1: circle\n\x7d".toList
      "a \x7b\r\n\n  n1: circle\n# note\n\x7d".toList ∧
    Graph.ofText "a \x7b\r\n\n  n1: circle\n# note\n\x7d".toList =
      Graph.ofText "a \x7b\nn1: circle\n\x7d".toList := by
  have hbreak : Reformatted "a \x7b\nn1: circle\n\x7d".toList
      "a \x7b\r\nn1: circle\n\x7d".toList :=
    @Reformatted.lineBreak "a \x7b".toList _ _ "n1: circle\n\x7d".toList .feed .pair
  have hblank : Reformatted "a \x7b\r\nn1: circle\n\x7d".toList
      "a \x7b\r\n\nn1: circle\n\x7d".toList :=
    @Reformatted.blankAdded [] _ _ _ (by decide) rfl
      (@LineAdded.before _ "a \x7b\r\n".toList "n1: circle\n\x7d".toList _ .feed (by decide))
  have hindent : Reformatted "a \x7b\r\n\nn1: circle\n\x7d".toList
      "a \x7b\r\n\n  n1: circle\n\x7d".toList :=
    @Reformatted.margins "a \x7b\r\n\n".toList "n1: circle".toList "  n1: circle".toList
      "\n\x7d".toList (by decide) (by decide) (by decide) (by decide) (by decide)
  have hnote : Reformatted "a \x7b\r\n\n  n1: circle\n\x7d".toList
      "a \x7b\r\n\n  n1: circle\n# note\n\x7d".toList := by
    refine @Reformatted.skippedAdded "# note".toList _ _ _ (by decide) rfl ?_
      (@LineAdded.behind _ "a \x7b\r\n\n  n1: circle".toList "\n\x7d".toList _ .feed (by decide))
    have hlines : writtenLines "a \x7b\r\n\n  n1: circle".toList =
        ["a \x7b".toList, "n1: circle".toList] := by decide +kernel
    rw [hlines]
    rintro last hlast ⟨id, hopen⟩
    cases hlast
    cases hopen
  have hsteps := (((Relation.ReflTransGen.single hbreak).tail hblank).tail hindent).tail hnote
  exact ⟨hsteps, (ofText_reformatted hsteps).1⟩

end Swimlane
