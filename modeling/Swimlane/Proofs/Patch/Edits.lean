import Swimlane.Proofs.Patch.Scan
import Swimlane.Proofs.Patch.Unfit

/-! What each edit does to the lines of a session whose index is the scan of its lines: where a line
is put in, taken out or written anew. -/
namespace Swimlane.Patch

open Text Line

variable {session next : Session} {id lane source target line : Text} {shape : Shape}
  {label after before : Option Text} {properties updates : Attributes} {change : Change}
  {lines above below : List Text} {position : Int} {edge : NewEdge}

theorem insertAt_length : insertAt above.length line (above ++ below) = above ++ line :: below := by
  simp [insertAt]

theorem eraseIdx_length : (above ++ line :: below).eraseIdx above.length = above ++ below := by
  rw [List.eraseIdx_append_of_length_le (Nat.le_refl _), Nat.sub_self, List.eraseIdx_cons_zero]

/-- The line that a search finds, the first of its kind, and the lines around it. -/
theorem exists_of_findIdx? {p : Text → Bool} {found : Nat} (h : lines.findIdx? p = some found) :
    ∃ above line below, lines = above ++ line :: below ∧ found = above.length ∧ p line = true ∧
      ∀ other ∈ above, p other = false := by
  obtain ⟨hlt, hline, hfirst⟩ := List.findIdx?_eq_some_iff_getElem.1 h
  refine ⟨lines.take found, lines[found], lines.drop (found + 1), ?_, ?_, hline, ?_⟩
  · rw [List.cons_getElem_drop_succ, List.take_append_drop]
  · rw [List.length_take]
    omega
  · intro other hother
    obtain ⟨position, hposition, rfl⟩ := List.mem_take_iff_getElem.1 hother
    simpa using hfirst position (by omega)

theorem laneBelow_concat (h : nodeId? (Line.read line) = some id) :
    laneBelow (lines ++ [line]) = laneBelow lines := by
  rw [laneBelow, openBelow_concat, laneBelow]
  cases hr : Line.read line <;> simp only [hr, nodeId?, reduceCtorEq] at h
  rfl

theorem laneBelow_of_open (h : openBelow lines = some (lane, position)) : laneBelow lines = lane := by
  rw [laneBelow, h]
  rfl

namespace Session

/-- The index of a session is the one that its lines give. -/
def Indexed (session : Session) : Prop := session.index.Same (LineIndex.scan session.lines)

theorem exists_nodeLine (h : session.Indexed) (hl : session.index.nodeLines.get? id = some position) :
    ∃ above line below, session.lines = above ++ line :: below ∧ position = above.length ∧
      nodeId? (Line.read line) = some id ∧
      session.index.nodeLanes.get? id = some (laneBelow above) ∧ id ∉ nodeIds below := by
  rw [h.nodeLines] at hl
  rw [h.nodeLanes]
  exact LineIndex.exists_nodeLine hl

theorem exists_lineIn (h : session.Indexed) (hl : session.index.lineIn? lane id = some position) :
    ∃ above line below, session.lines = above ++ line :: below ∧ position = above.length ∧
      nodeId? (Line.read line) = some id ∧ laneBelow above = lane := by
  rw [LineIndex.lineIn?] at hl
  split at hl
  · next hlane =>
    obtain ⟨above, line, below, hlines, hpos, hid, hbelow, _⟩ := exists_nodeLine h hl
    exact ⟨above, line, below, hlines, hpos, hid, Option.some.inj (hbelow.symm.trans hlane)⟩
  · simp at hl

theorem exists_laneSpan {span : Span} (h : session.Indexed)
    (hl : session.index.laneSpans.get? lane = some span) :
    ∃ above line below, session.lines = above ++ line :: below ∧ span.closing = above.length ∧
      Line.read line = .laneClose ∧ laneBelow above = lane := by
  rw [h.laneSpans] at hl
  obtain ⟨above, line, below, hlines, hpos, hclose, hopen⟩ := LineIndex.exists_laneSpan hl
  exact ⟨above, line, below, hlines, hpos, hclose, laneBelow_of_open hopen⟩

/-- A place behind the line of a node, or in front of one or of a brace. -/
def Beside (above below : List Text) : Prop :=
  (∃ rest node, above = rest ++ [node] ∧ (nodeId? (Line.read node)).isSome) ∨
    ∃ next rest, below = next :: rest ∧
      ((nodeId? (Line.read next)).isSome ∨ Line.read next = .laneClose)

/-- A node is put in where its lane is open, beside another node or the brace of the lane. -/
theorem exists_insertionLine {span : Span} (h : session.Indexed)
    (hl : session.index.laneSpans.get? lane = some span) (after before : Option Text) :
    ∃ above below, session.lines = above ++ below ∧
      session.insertionLine lane span after before = above.length ∧ laneBelow above = lane ∧
      Beside above below := by
  rw [insertionLine]
  split
  · next line hafter =>
    obtain ⟨anchor, _, hanchor⟩ := Option.bind_eq_some_iff.1 hafter
    obtain ⟨above, node, below, hlines, hpos, hid, hlane⟩ := exists_lineIn h hanchor
    refine ⟨above ++ [node], below, by simpa using hlines, by simpa using hpos, ?_,
      Or.inl ⟨above, node, rfl, by simp [hid]⟩⟩
    rw [laneBelow_concat hid, hlane]
  · cases hbefore : before.bind (session.index.lineIn? lane) with
    | some line =>
      obtain ⟨anchor, _, hanchor⟩ := Option.bind_eq_some_iff.1 hbefore
      obtain ⟨above, node, below, hlines, hpos, hid, hlane⟩ := exists_lineIn h hanchor
      exact ⟨above, node :: below, hlines, hpos, hlane,
        Or.inr ⟨node, below, rfl, Or.inl (by simp [hid])⟩⟩
    | none =>
      obtain ⟨above, close, below, hlines, hpos, hclose, hlane⟩ := exists_laneSpan h hl
      exact ⟨above, close :: below, hlines, hpos, hlane,
        Or.inr ⟨close, below, rfl, Or.inr hclose⟩⟩

theorem insertLine_eq (hl : session.lines = above ++ below) : session.insertLine above.length line =
    { session with
      lines := above ++ line :: below
      index := session.index.shift above.length 1 } := by
  rw [insertLine, hl, Int.toNat_natCast, insertAt_length]

theorem removeLine_eq (hl : session.lines = above ++ line :: below) :
    session.removeLine above.length = .ok { session with
      lines := above ++ below
      index := session.index.shift (above.length + 1) (-1) } := by
  rw [removeLine, hl, Int.toNat_natCast, if_pos (by simp), eraseIdx_length]

/-- The id that the next node is given. -/
def freshId (session : Session) : Text := 'n' :: ofNat (session.lastId + 1)

theorem nextId_eq_ok (h : session.nextId = .ok id) :
    id = session.freshId ∧ (ofNat (session.lastId + 1)).length ≤ maxDigits := by
  rw [nextId] at h
  split at h
  · simp at h
  · next hle =>
    exact ⟨(Except.ok.inj h).symm, by omega⟩

/-- The attributes of a new node, the label first. -/
def newAttributes (label : Option Text) (properties : Attributes) : List (Text × Text) :=
  label.toList.map (("label".toList, ·)) ++ properties.entries

/-- The session with the line of a new node between two of its lines. -/
def withNode (session : Session) (above below : List Text) (lane : Text) (shape : Shape)
    (attributes : List (Text × Text)) : Session where
  newline := session.newline
  lines := above ++ renderNode session.freshId shape attributes :: below
  index := (session.index.shift above.length 1).addNode session.freshId lane above.length
  lastId := session.lastId + 1

theorem insertNode_cases (h : session.Indexed) (lane : Text) (shape : Shape) (label : Option Text)
    (properties : Attributes) (after before : Option Text) :
    (session.index.laneSpans.get? lane = none ∧
      session.insertNode lane shape label properties after before =
        .ok (.skipped (.laneNotFound lane) session)) ∨
    (∃ fault, session.nextId = .error fault ∧
      session.insertNode lane shape label properties after before = .error fault) ∨
    ∃ above below, session.lines = above ++ below ∧ laneBelow above = lane ∧
      session.nextId = .ok session.freshId ∧
      session.insertNode lane shape label properties after before =
        .ok (.applied (.addedNode (label.getD session.freshId) session.freshId lane)
          (session.withNode above below lane shape (newAttributes label properties))) := by
  rw [insertNode]
  cases hspan : session.index.laneSpans.get? lane with
  | none => exact Or.inl ⟨rfl, rfl⟩
  | some span =>
    right
    cases hid : session.nextId with
    | error fault => exact Or.inl ⟨fault, rfl, rfl⟩
    | ok id =>
      right
      obtain ⟨rfl, _⟩ := nextId_eq_ok hid
      obtain ⟨above, below, hlines, hpos, hlane, _⟩ :=
        exists_insertionLine h hspan after before
      refine ⟨above, below, hlines, hlane, rfl, ?_⟩
      simp only [bind, Except.bind, pure, Except.pure, hpos, insertLine_eq hlines]
      rfl

theorem removeNode_cases (h : session.Indexed) (id : Text) :
    (session.index.nodeLines.get? id = none ∧
      session.removeNode id = .ok (.skipped (.nodeNotFound id) session)) ∨
    ∃ above line below, session.lines = above ++ line :: below ∧
      nodeId? (Line.read line) = some id ∧ id ∉ nodeIds below ∧
      session.removeNode id = .ok (.applied (.removedNode id) { session with
        lines := above ++ below
        index := (session.index.forgetNode id).shift (above.length + 1) (-1) }) := by
  rw [removeNode]
  cases hline : session.index.nodeLines.get? id with
  | none => exact Or.inl ⟨rfl, rfl⟩
  | some position =>
    obtain ⟨above, line, below, hlines, rfl, hid, _, hlast⟩ := exists_nodeLine h hline
    refine Or.inr ⟨above, line, below, hlines, hid, hlast, ?_⟩
    have hforgotten : { session with index := session.index.forgetNode id }.lines =
        above ++ line :: below := hlines
    simp only [bind, Except.bind, pure, Except.pure, removeLine_eq hforgotten]

theorem updateNode_cases (h : session.Indexed) (id : Text) (updates : Attributes) :
    (∃ reason, session.updateNode id updates = .ok (.skipped reason session)) ∨
    ∃ above line below new, session.lines = above ++ line :: below ∧
      nodeId? (Line.read line) = some id ∧ updateAll line updates.entries = .ok new ∧
      session.updateNode id updates = .ok (.applied (.updatedNode id updates.keys) { session with
        lines := above ++ new :: below }) := by
  rw [updateNode]
  cases hline : session.index.nodeLines.get? id with
  | none => exact Or.inl ⟨_, rfl⟩
  | some position =>
    obtain ⟨above, line, below, hlines, rfl, hid, _⟩ := exists_nodeLine h hline
    have hget : session.lines[(above.length : Int).toNat]? = some line := by
      rw [hlines, Int.toNat_natCast]
      simp
    simp only [hget]
    cases hnew : updateAll line updates.entries with
    | error reason => exact Or.inl ⟨reason, rfl⟩
    | ok new =>
      refine Or.inr ⟨above, line, below, new, hlines, hid, hnew, ?_⟩
      simp [hlines]

/-- The line of a new edge from a node in a lane. -/
def edgeLine (session : Session) (lane : Text) (edge : NewEdge) : Text :=
  renderEdge edge.source edge.sourceHandle (session.targetName lane edge.target) edge.targetHandle
    edge.label

/-- The name of a target is its id, or its id after its lane. -/
theorem targetName_eq (lane target : Text) : session.targetName lane target = target ∨
    ∃ other, session.index.nodeLanes.get? target = some other ∧ other ≠ lane ∧
      session.targetName lane target = other ++ '.' :: target := by
  rw [targetName]
  cases hlane : session.index.nodeLanes.get? target with
  | none => exact Or.inl rfl
  | some other =>
    simp only
    split
    · exact Or.inl rfl
    · next hwritten =>
      refine Or.inr ⟨other, rfl, ?_, by simp⟩
      rintro rfl
      simp at hwritten

theorem insertEdge_cases (h : session.Indexed) (edge : NewEdge) :
    (∃ reason, session.insertEdge edge = .skipped reason session) ∨
    ∃ lane above below, session.lines = above ++ below ∧
      session.index.nodeLanes.get? edge.source = some lane ∧
      session.insertEdge edge = .applied (.addedEdge edge.source edge.target edge.label)
        { session with
          lines := above ++ session.edgeLine lane edge :: below
          index := session.index.shift above.length 1 } := by
  rw [insertEdge]
  cases hlane : session.index.nodeLanes.get? edge.source with
  | none => exact Or.inl ⟨_, rfl⟩
  | some lane =>
    cases hspan : session.index.laneSpans.get? lane with
    | none => exact Or.inl ⟨.laneNotFound lane, by simp only [hspan]⟩
    | some span =>
      obtain ⟨above, close, below, hlines, hpos, _, _⟩ := exists_laneSpan h hspan
      refine Or.inr ⟨lane, above, close :: below, hlines, rfl, ?_⟩
      simp only [hspan, hpos, insertLine_eq hlines, edgeLine]

theorem removeEdge_cases (session : Session) (source target : Text) :
    (session.lines.findIdx? (isEdgeBetween source target) = none ∧
      session.removeEdge source target = .ok (.skipped (.edgeNotFound source target) session)) ∨
    ∃ above line below, session.lines = above ++ line :: below ∧
      isEdgeBetween source target line = true ∧
      (∀ other ∈ above, isEdgeBetween source target other = false) ∧
      session.removeEdge source target = .ok (.applied (.removedEdge source target) { session with
        lines := above ++ below
        index := session.index.shift (above.length + 1) (-1) }) := by
  rw [removeEdge]
  cases hfind : session.lines.findIdx? (isEdgeBetween source target) with
  | none => exact Or.inl ⟨rfl, rfl⟩
  | some position =>
    obtain ⟨above, line, below, hlines, rfl, hedge, hfirst⟩ := exists_of_findIdx? hfind
    refine Or.inr ⟨above, line, below, hlines, hedge, hfirst, ?_⟩
    simp only [bind, Except.bind, pure, Except.pure, removeLine_eq hlines]

/-- A step that is made is that of an operation that is refused, of an edit that is skipped, or of one
that is applied. -/
theorem step_ok {operation : Operation} {entry : Entry}
    (h : session.step operation = .ok (next, entry)) :
    (∃ reason, operation.edit? = .error reason ∧ next = session ∧
      entry = ⟨operation.op, .skipped reason⟩) ∨
    (∃ edit reason, operation.edit? = .ok edit ∧ session.Unfit edit reason ∧
      next = session ∧ entry = ⟨operation.op, .skipped reason⟩) ∨
    ∃ edit change, operation.edit? = .ok edit ∧
      session.perform edit = .ok (.applied change next) ∧ entry = ⟨operation.op, .applied change⟩ := by
  rw [step] at h
  cases he : operation.edit? with
  | error reason =>
    simp only [he, pure, Except.pure, Except.ok.injEq, Prod.mk.injEq] at h
    exact Or.inl ⟨reason, rfl, h.1.symm, h.2.symm⟩
  | ok edit =>
    simp only [he, bind, Except.bind, pure, Except.pure] at h
    cases hp : session.perform edit with
    | error fault => simp [hp] at h
    | ok effect =>
      cases effect with
      | skipped reason after =>
        simp only [hp, Except.ok.injEq, Prod.mk.injEq] at h
        obtain ⟨rfl, rfl⟩ := h
        obtain ⟨hsame, hunfit⟩ := perform_skipped.1 hp
        exact Or.inr (Or.inl ⟨edit, reason, rfl, hunfit, hsame, rfl⟩)
      | applied change after =>
        simp only [hp, Except.ok.injEq, Prod.mk.injEq] at h
        obtain ⟨rfl, rfl⟩ := h
        exact Or.inr (Or.inr ⟨edit, change, rfl, hp, rfl⟩)

/-- An edit that is applied makes the step of the operation that asks for it. -/
theorem step_applied {operation : Operation} {edit : Edit} (he : operation.edit? = .ok edit)
    (hp : session.perform edit = .ok (.applied change next)) :
    session.step operation = .ok (next, ⟨operation.op, .applied change⟩) := by
  rw [step, he]
  simp only [hp, bind, Except.bind, pure, Except.pure]

/-- A run that comes to its end makes its first step, and runs on from there. -/
theorem run_cons_eq_ok {last : Session} {operation : Operation} {operations : List Operation}
    {entries : List Entry} : session.run (operation :: operations) = .ok (last, entries) ↔
      ∃ after entry more, session.step operation = .ok (after, entry) ∧
        after.run operations = .ok (last, more) ∧ entries = entry :: more := by
  rw [run]
  cases session.step operation with
  | error fault => simp [bind, Except.bind]
  | ok result =>
    obtain ⟨after, entry⟩ := result
    simp only [bind, Except.bind, Except.ok.injEq, Prod.mk.injEq]
    cases hr : after.run operations with
    | error fault =>
      constructor
      · intro h
        cases h
      · rintro ⟨_, _, more, ⟨rfl, rfl⟩, hmore, _⟩
        simp [hr] at hmore
    | ok pair =>
      obtain ⟨final, more⟩ := pair
      simp only [pure, Except.pure, Except.ok.injEq, Prod.mk.injEq]
      constructor
      · rintro ⟨rfl, rfl⟩
        exact ⟨after, entry, more, ⟨rfl, rfl⟩, hr, rfl⟩
      · rintro ⟨_, _, others, ⟨rfl, rfl⟩, hothers, rfl⟩
        rw [hr, Except.ok.injEq, Prod.mk.injEq] at hothers
        exact ⟨hothers.1, by rw [hothers.2]⟩

end Session

end Swimlane.Patch
