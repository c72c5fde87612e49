import Swimlane.Diagram.Builder
import Swimlane.Proofs.Diagram.LaneLabels
import Swimlane.Proofs.Outcomes

/-! The reading in one pass finds the lanes, the nodes and the edges that lines are said to have each for
itself, and a strict one ends at the first line that is not recognised. -/
namespace Swimlane

variable {ε : Type} {strict : Bool} {answers : Answers ε} {classifier : Classifier}

/-- Answers that are a classifier's as far as they go. -/
structure Answers.Follow (answers : Answers ε) (classifier : Classifier) : Prop where
  lane : ∀ {id label kind}, answers.laneKind id label = .ok kind → classifier.laneKind id label = kind
  node : ∀ {shape label kind},
    answers.nodeKind shape label = .ok kind → classifier.nodeKind shape label = kind

theorem Classifier.follow_answers (classifier : Classifier) :
    (classifier.answers : Answers ε).Follow classifier :=
  ⟨fun h => Except.ok.inj h, fun h => Except.ok.inj h⟩

/-- The error of a line that is not recognised. -/
def SourceLine.error? (line : SourceLine) : Option Graph.ParseError :=
  match line.line with
  | .skipped _ .unrecognized => some ⟨line.number, line.text⟩
  | _ => none

namespace Graph.Builder

variable {builder next last : Builder} {line : SourceLine} {lines rest : List SourceLine}

/-- The graph that is built once some more lines are read. -/
def extended (classifier : Classifier) (builder : Builder) (lines : List SourceLine) : Graph where
  lanes := builder.lanes ++ lanesFrom classifier.laneKind (builder.lanes.map (·.id)) lines
  nodes := builder.nodes ++ nodesFrom classifier.nodeKind builder.current (lines.map (·.line))
  edges := builder.edges ++
    edgesFrom builder.current builder.known builder.edges.length (lines.map (·.line))

theorem extended_nil (builder : Builder) : builder.extended classifier [] = builder.graph := by
  simp [extended, graph, lanesFrom, nodesFrom, edgesFrom]

theorem extended_openLane {id : Text} {label : Option Text}
    (hline : line.line = .laneOpen id label) (ha : answers.Follow classifier)
    (h : builder.openLane answers id (laneLabel id label rest) = .ok next) :
    next.extended classifier rest = builder.extended classifier (line :: rest) := by
  rw [openLane] at h
  split at h
  · next hid =>
    cases h
    simp [extended, hline, lanesFrom_seen hline hid, nodesFrom, edgesFrom, laneAfter]
  · next hid =>
    obtain ⟨kind, hkind, hnext⟩ := bind_eq_ok.1 h
    cases hnext
    have hseen : ∀ other, other ∈ builder.lanes.map (·.id) ++ [id] ↔
        other ∈ id :: builder.lanes.map (·.id) := by
      simp [or_comm]
    simp [extended, hline, lanesFrom_new hline hid, lanesFrom_congr hseen, ha.lane hkind, nodesFrom,
      edgesFrom, laneAfter]

theorem extended_addNode {id : Text} {shape : Shape} {attributes : Attributes}
    (hline : line.line = .node id shape attributes) (ha : answers.Follow classifier)
    (h : builder.addNode answers id shape attributes = .ok next) :
    next.extended classifier rest = builder.extended classifier (line :: rest) := by
  obtain ⟨kind, hkind, hnext⟩ := bind_eq_ok.1 h
  cases hnext
  have hinner : Line.laneId? line.line = none := by rw [hline]; rfl
  have hnode : declaredNode (fun _ _ => kind) builder.current id shape attributes =
      declaredNode classifier.nodeKind builder.current id shape attributes := by
    rw [declaredNode, declaredNode, ha.node hkind]
  simp [extended, hline, lanesFrom_inner hinner, nodesFrom, edgesFrom, laneAfter, hnode]

/-- A line that is read takes its part of the graph from the lines to come. -/
theorem extended_readLine (ha : answers.Follow classifier)
    (h : builder.readLine strict answers line rest = .ok next) :
    next.extended classifier rest = builder.extended classifier (line :: rest) := by
  have hinner (hnone : Line.laneId? line.line = none) :
      lanesFrom classifier.laneKind (builder.lanes.map (·.id)) (line :: rest) =
        lanesFrom classifier.laneKind (builder.lanes.map (·.id)) rest := lanesFrom_inner hnone
  rw [readLine] at h
  cases hline : line.line with
  | laneOpen id label =>
    rw [hline] at h
    exact extended_openLane hline ha (mapError_eq_ok.1 h)
  | node id shape attributes =>
    rw [hline] at h
    exact extended_addNode hline ha (mapError_eq_ok.1 h)
  | laneClose =>
    rw [hline] at h hinner
    cases h
    simp [extended, closeLane, hinner rfl, hline, nodesFrom, edgesFrom, laneAfter]
  | edge source target sourceHandle targetHandle label =>
    rw [hline] at h hinner
    cases h
    simp [extended, addEdge, hinner rfl, hline, nodesFrom, edgesFrom, laneAfter]
  | skipped text kind =>
    rw [hline] at h hinner
    dsimp only at h
    split at h
    · cases h
    · cases h
      simp [extended, hinner rfl, hline, nodesFrom, edgesFrom, laneAfter]

/-- A reading that comes to its end has found the graph of the lines. -/
theorem graph_readLines (ha : answers.Follow classifier)
    (h : builder.readLines strict answers lines = .ok last) :
    last.graph = builder.extended classifier lines := by
  induction lines generalizing builder with
  | nil =>
    cases h
    exact (extended_nil _).symm
  | cons line rest ih =>
    obtain ⟨next, hline, hrest⟩ := bind_eq_ok.1 h
    rw [ih hrest, extended_readLine ha hline]

/-- Where everything is answered, only what is not recognised can stop a reading. -/
theorem exists_readLine (ε : Type) (builder : Builder) (classifier : Classifier) (line : SourceLine)
    (rest : List SourceLine) : ∃ next,
      builder.readLine false (classifier.answers : Answers ε) line rest = .ok next := by
  rw [readLine]
  cases line.line with
  | laneOpen id label =>
    dsimp only [openLane]
    split <;> exact ⟨_, rfl⟩
  | skipped text kind => exact ⟨builder, by simp⟩
  | _ => exact ⟨_, rfl⟩

theorem exists_readLines (ε : Type) (builder : Builder) (classifier : Classifier)
    (lines : List SourceLine) :
    ∃ last, builder.readLines false (classifier.answers : Answers ε) lines = .ok last := by
  induction lines generalizing builder with
  | nil => exact ⟨builder, rfl⟩
  | cons line rest ih =>
    obtain ⟨next, hline⟩ := exists_readLine ε builder classifier line rest
    obtain ⟨last, hrest⟩ := ih next
    exact ⟨last, bind_eq_ok.2 ⟨next, hline, hrest⟩⟩

/-- A line by itself is read strictly as it is read otherwise, unless it is not recognised. -/
theorem readLine_strict (builder : Builder) (answers : Answers ε) (line : SourceLine)
    (rest : List SourceLine) : builder.readLine true answers line rest =
      match line.error? with
      | some error => .error (.unrecognized error)
      | none => builder.readLine false answers line rest := by
  rw [readLine, readLine, SourceLine.error?]
  cases line.line with
  | skipped text kind => cases kind <;> simp
  | _ => rfl

/-- Lines are read strictly as they are read otherwise if each of them is recognised. -/
theorem readLines_strict_eq_ok : builder.readLines true answers lines = .ok last ↔
    lines.findSome? SourceLine.error? = none ∧ builder.readLines false answers lines = .ok last := by
  induction lines generalizing builder with
  | nil => simp [readLines]
  | cons line rest ih =>
    rw [readLines, readLines, bind_eq_ok, bind_eq_ok, List.findSome?_cons, readLine_strict]
    cases line.error? with
    | some error => simp
    | none =>
      simp only [ih]
      exact ⟨fun ⟨next, hline, hnone, hrest⟩ => ⟨hnone, next, hline, hrest⟩,
        fun ⟨hnone, next, hline, hrest⟩ => ⟨next, hline, hnone, hrest⟩⟩

/-- The error of a strict reading is that of the first line that has one. -/
theorem readLines_strict_eq_error {error : ParseError}
    (h : lines.findSome? SourceLine.error? = some error) :
    builder.readLines true (classifier.answers : Answers ε) lines = .error (.unrecognized error) := by
  induction lines generalizing builder with
  | nil => cases h
  | cons line rest ih =>
    rw [List.findSome?_cons] at h
    rw [readLines, readLine_strict]
    cases herror : line.error? with
    | some found =>
      rw [herror] at h
      cases h
      rfl
    | none =>
      rw [herror] at h
      obtain ⟨next, hline⟩ := exists_readLine ε builder classifier line rest
      rw [hline]
      exact ih h

end Graph.Builder

namespace Graph

/-- A text is read in one pass as it is by parts. -/
theorem ofTextWith_eq (classifier : Classifier) (text : Text) :
    ofTextWith false (classifier.answers : Answers ε) text =
      .ok (ofLines classifier (sourceLines text)) := by
  obtain ⟨last, hlast⟩ := Builder.exists_readLines ε {} classifier (sourceLines text)
  rw [ofTextWith, hlast]
  exact congrArg Except.ok (Builder.graph_readLines classifier.follow_answers hlast)

end Graph

end Swimlane
