import Swimlane.Diagram.Classification
import Swimlane.Proofs.Diagram.Builder
import Swimlane.Proofs.Text.WholeLines

/-! Strict reading: it fails at the first line that is not recognised, and agrees with the other reading
where there is none. -/
namespace Swimlane

open Text Line

variable {text line : Text}

/-- A line that is not blank and is neither a declaration, nor a comment, nor a loop. -/
def Unrecognized (line : Text) : Prop :=
  trim line ≠ [] ∧ ∃ text, Line.read line = .skipped text .unrecognized

namespace Graph

variable {error : ParseError} {graph : Graph} {named : NamedKinds}

/-- The error of a line, if it is not recognised. -/
def lineError? (line : Text) (number : Nat) : Option ParseError :=
  (nonempty? (trim line)).bind fun text =>
    match Line.read text with
    | .skipped _ .unrecognized => some ⟨number, text⟩
    | _ => none

theorem lineError?_trim (line : Text) (number : Nat) :
    lineError? (trim line) number = lineError? line number := by
  rw [lineError?, trim_trim, lineError?]

theorem lineError?_written (h : trim line ≠ []) (number : Nat) :
    lineError? line number =
      match Line.read line with
      | .skipped _ .unrecognized => some ⟨number, trim line⟩
      | _ => none := by
  have hsome : nonempty? (trim line) = some (trim line) := by
    cases htrim : trim line with
    | nil => exact absurd htrim h
    | cons => rfl
  rw [lineError?, hsome, Option.bind_some, read_trim]

theorem lineError?_unrecognized (h : Unrecognized line) (number : Nat) :
    lineError? line number = some ⟨number, trim line⟩ := by
  obtain ⟨hwritten, text, hread⟩ := h
  rw [lineError?_written hwritten, hread]

theorem lineError?_recognized (h : ¬ Unrecognized line) (number : Nat) :
    lineError? line number = none := by
  by_cases hblank : trim line = []
  · rw [lineError?, hblank]
    rfl
  · rw [lineError?_written hblank]
    split
    · rename_i text hread
      exact absurd ⟨hblank, text, hread⟩ h
    · rfl

/-- The first line that is not recognised is found under its place. -/
theorem findSome?_lineError (lines : List Text) (start : Nat) :
    (lines.zipIdx start).findSome? (fun place => lineError? place.1 place.2) = some error ↔
      ∃ above line below, lines = above ++ line :: below ∧ (∀ upper ∈ above, ¬ Unrecognized upper) ∧
        Unrecognized line ∧ error = ⟨start + above.length, trim line⟩ := by
  induction lines generalizing start with
  | nil => simp
  | cons first rest ih =>
    rw [List.zipIdx_cons, List.findSome?_cons]
    by_cases h : Unrecognized first
    · rw [lineError?_unrecognized h]
      constructor
      · rintro ⟨⟩
        exact ⟨[], first, rest, rfl, by simp, h, rfl⟩
      · rintro ⟨above, line, below, hcut, habove, -, rfl⟩
        cases above with
        | nil =>
          obtain ⟨rfl, -⟩ := List.cons.inj hcut
          rfl
        | cons upper more =>
          obtain ⟨rfl, -⟩ := List.cons.inj hcut
          exact absurd h (habove _ (by simp))
    · rw [lineError?_recognized h, ih (start + 1)]
      constructor
      · rintro ⟨above, line, below, rfl, habove, hline, rfl⟩
        refine ⟨first :: above, line, below, rfl, by simpa [h] using habove, hline, ?_⟩
        rw [List.length_cons, Nat.add_assoc, Nat.add_comm 1]
      · rintro ⟨above, line, below, hcut, habove, hline, rfl⟩
        cases above with
        | nil =>
          obtain ⟨rfl, -⟩ := List.cons.inj hcut
          exact absurd hline h
        | cons upper more =>
          obtain ⟨rfl, rfl⟩ := List.cons.inj hcut
          refine ⟨more, line, below, rfl, fun upper hmem => habove upper (by simp [hmem]), hline, ?_⟩
          rw [List.length_cons, Nat.add_assoc, Nat.add_comm 1]

theorem findSome?_lineError_trim (lines : List Text) (start : Nat) :
    (lines.zipIdx start).findSome? (fun place => lineError? place.1 place.2) =
      ((lines.map trim).zipIdx start).findSome? (fun place => lineError? place.1 place.2) := by
  rw [List.zipIdx_map, List.findSome?_map]
  congr 1
  funext place
  exact (lineError?_trim place.1 place.2).symm

theorem trim_wholeLines (text : Text) : (wholeLines text).map trim = (segments text).map trim := by
  have hlines := wholeLines_segments text
  generalize wholeLines text = wholes at hlines
  generalize segments text = parts at hlines
  induction hlines with
  | nil => rfl
  | @cons whole part wholes parts h _ ih =>
    obtain ⟨mark, rfl, hmark⟩ := h
    rw [List.map_cons, List.map_cons, trim_append_blanks hmark.blank, ih]

/-- The error of the first of some lines that has one. -/
def unrecognized? (lines : List SourceLine) : Option ParseError := lines.findSome? SourceLine.error?

/-- The error of a text is that of the first whole line that has one. -/
theorem unrecognized?_eq (text : Text) :
    unrecognized? (sourceLines text) =
      ((wholeLines text).zipIdx 1).findSome? fun place => lineError? place.1 place.2 := by
  rw [findSome?_lineError_trim, trim_wholeLines, ← findSome?_lineError_trim, unrecognized?,
    sourceLines, List.findSome?_map, numberedLines, ← List.head?_filterMap,
    List.filterMap_filterMap, List.head?_filterMap]
  congr 1
  funext place
  obtain ⟨line, number⟩ := place
  dsimp only [lineError?, SourceLine.error?]
  cases nonempty? (trim line) <;> rfl

theorem unrecognized?_eq_some :
    unrecognized? (sourceLines text) = some error ↔
      ∃ above line below, wholeLines text = above ++ line :: below ∧
        (∀ upper ∈ above, ¬ Unrecognized upper) ∧ Unrecognized line ∧
        error = ⟨above.length + 1, trim line⟩ := by
  rw [unrecognized?_eq, findSome?_lineError]
  simp only [Nat.add_comm 1]

theorem unrecognized?_eq_none :
    unrecognized? (sourceLines text) = none ↔ ∀ line ∈ wholeLines text, ¬ Unrecognized line := by
  rw [unrecognized?_eq, List.findSome?_eq_none_iff]
  constructor
  · intro h line hmem hline
    obtain ⟨place, hplace, rfl⟩ : ∃ place ∈ (wholeLines text).zipIdx 1, place.1 = line := by
      rw [← List.zipIdx_map_fst 1 (wholeLines text)] at hmem
      exact List.mem_map.1 hmem
    simpa [lineError?_unrecognized hline] using h place hplace
  · intro h place hmem
    exact lineError?_recognized (h _ (List.fst_mem_of_mem_zipIdx hmem)) _

/-- Where everything is answered, a strict reading ends in the first error or in the graph. -/
theorem ofTextWith_strict {ε : Type} (classifier : Classifier) (text : Text) :
    ofTextWith true (classifier.answers : Answers ε) text =
      match unrecognized? (sourceLines text) with
      | some error => .error (.unrecognized error)
      | none => .ok (ofLines classifier (sourceLines text)) := by
  rw [ofTextWith]
  cases herror : unrecognized? (sourceLines text) with
  | some error =>
    rw [Builder.readLines_strict_eq_error herror]
    rfl
  | none =>
    obtain ⟨last, hlast⟩ := Builder.exists_readLines ε {} classifier (sourceLines text)
    rw [Builder.readLines_strict_eq_ok.2 ⟨herror, hlast⟩]
    exact congrArg Except.ok (Builder.graph_readLines classifier.follow_answers hlast)

/-- What is read strictly is what is read otherwise and is recognised, whatever is answered. -/
theorem ofTextWith_strict_eq_ok {ε : Type} {answers : Answers ε} :
    ofTextWith true answers text = .ok graph ↔
      unrecognized? (sourceLines text) = none ∧ ofTextWith false answers text = .ok graph := by
  simp only [ofTextWith, map_eq_ok, Builder.readLines_strict_eq_ok, and_assoc, exists_and_left]
  rfl

theorem ofTextStrict_eq_error :
    ofTextStrict text = .error error ↔ unrecognized? (sourceLines text) = some error := by
  rw [ofTextStrict, ofTextWith_strict]
  cases unrecognized? (sourceLines text) <;> simp [Except.mapError, ReadingError.parseError]

theorem ofTextStrict_eq_ok :
    ofTextStrict text = .ok graph ↔
      unrecognized? (sourceLines text) = none ∧ graph = ofText text := by
  rw [ofTextStrict, ofTextWith_strict]
  cases unrecognized? (sourceLines text) <;> simp [Except.mapError, ofText, eq_comm]

theorem ofTextNamed_strict_eq_ok {reading : Reading} : ofTextNamed true named text = .ok reading ↔
    unrecognized? (sourceLines text) = none ∧ ofTextNamed false named text = .ok reading := by
  simp only [ofTextNamed, map_eq_ok, ofTextWith_strict_eq_ok, and_assoc, exists_and_left]

theorem ofTextNamed_strict_unnamed : ofTextNamed true {} text = .error (.unrecognized error) ↔
    unrecognized? (sourceLines text) = some error := by
  have hanswers : NamedKinds.answers {} = Classifier.byWords.answers := rfl
  rw [ofTextNamed, hanswers, ofTextWith_strict]
  cases unrecognized? (sourceLines text) <;> simp [Except.map]

theorem ofTextNamed_unnamed (text : Text) : ofTextNamed false {} text = .ok ⟨ofText text, []⟩ := by
  have hanswers : NamedKinds.answers {} = Classifier.byWords.answers := rfl
  have hquiet : (Classifier.questionsFrom [] (sourceLines text)).filter
      ({} : NamedKinds).covers = [] := by
    refine List.filter_eq_nil_iff.2 fun question _ => ?_
    cases question <;> exact Bool.false_ne_true
  rw [ofTextNamed, hanswers, ofTextWith_eq, hquiet]
  rfl

/-- Strict reading fails exactly if some line is not recognised, with the number and the text of the
first one; a text that it passes, it reads as the other reading does, also where kinds are named. -/
theorem ofTextStrict_refines (text : Text) :
    (∀ error, ofTextStrict text = .error error ↔
      ∃ above line below, wholeLines text = above ++ line :: below ∧
        (∀ upper ∈ above, ¬ Unrecognized upper) ∧ Unrecognized line ∧
        error = ⟨above.length + 1, trim line⟩) ∧
    ((∃ error, ofTextStrict text = .error error) ↔ ∃ line ∈ wholeLines text, Unrecognized line) ∧
    (∀ graph, ofTextStrict text = .ok graph ↔
      (∀ line ∈ wholeLines text, ¬ Unrecognized line) ∧ graph = ofText text) ∧
    (∀ named reading, ofTextNamed true named text = .ok reading ↔
      (∀ line ∈ wholeLines text, ¬ Unrecognized line) ∧
        ofTextNamed false named text = .ok reading) ∧
    (∀ error, ofTextNamed true {} text = .error (.unrecognized error) ↔
      ofTextStrict text = .error error) ∧
    ofTextNamed false {} text = .ok ⟨ofText text, []⟩ := by
  refine ⟨fun error => ?_, ?_, fun graph => ?_, fun named reading => ?_, fun error => ?_, ?_⟩
  · rw [ofTextStrict_eq_error, unrecognized?_eq_some]
  · simp only [ofTextStrict_eq_error, ← Option.isSome_iff_exists, ← Option.ne_none_iff_isSome, ne_eq,
      unrecognized?_eq_none]
    simp
  · rw [ofTextStrict_eq_ok, unrecognized?_eq_none]
  · rw [ofTextNamed_strict_eq_ok, unrecognized?_eq_none]
  · rw [ofTextNamed_strict_unnamed, ofTextStrict_eq_error]
  · exact ofTextNamed_unnamed text

/-- A blank line counts, and a pair of a carriage return and a line feed counts once. -/
example :
    ofTextStrict "a \x7b\r\n\r# say\n what? \n\x7d" = .error ⟨4, "what?"⟩ := by decide +kernel

end Graph

end Swimlane
