import Swimlane.Proofs.Patch.Contract
import Swimlane.Proofs.Patch.Report

/-! The ids that a run gives to new nodes: numbered one after the other, from above the highest number
that the lines of the text declare. -/
namespace Swimlane.Patch

open Text Line

variable {session next last : Session} {edit : Edit} {operation : Operation}
  {operations : List Operation} {change : Change} {entry : Entry} {entries : List Entry}
  {text id : Text} {number count : Nat} {result : Result}

/-- The id with a number. -/
def numberedId (number : Nat) : Text := 'n' :: ofNat number

/-- The ids with the numbers that follow one, in order. -/
def idsAbove (number count : Nat) : List Text := (List.range' (number + 1) count).map numberedId

/-- The id that a change gives to a new node. -/
def Change.newId? : Change → Option Text
  | .addedNode _ id _ => some id
  | _ => none

def Entry.newId? (entry : Entry) : Option Text :=
  match entry.outcome with
  | .applied change => change.newId?
  | .skipped _ => none

/-- The ids that the nodes of a batch were given, in order. -/
def Result.newIds (result : Result) : List Text := result.entries.filterMap Entry.newId?

theorem numberedId_injective : Function.Injective numberedId := by
  intro number other h
  have hdigits : ofNat number = ofNat other := (List.cons.inj h).2
  rw [← digitsValue_ofNat number, hdigits, digitsValue_ofNat]

theorem mem_idsAbove : id ∈ idsAbove number count ↔
    ∃ other, number < other ∧ other ≤ number + count ∧ numberedId other = id := by
  rw [idsAbove, List.mem_map]
  refine exists_congr fun other => ?_
  rw [List.mem_range'_1, ← and_assoc]
  exact and_congr_left' (by omega)

/-- The number that is read of an id is the one it was written with. -/
theorem number_of_numberedId {other : Nat}
    (h : LineIndex.sequentialNumber (numberedId number) = .ok other) : other = number := by
  rw [LineIndex.sequentialNumber, numberedId, sequentialDigits?_ofNat] at h
  dsimp only at h
  split at h
  · cases h
  · rw [Except.ok.injEq, digitsValue_ofNat] at h
    exact h.symm

/-- An edit that is applied gives the next id to the node that it adds, and no other edit gives one. -/
theorem newId?_of_perform (h : session.perform edit = .ok (.applied change next)) :
    change.newId?.toList = idsAbove session.lastId edit.newIds := by
  cases edit with
  | insertNode lane shape label properties after before =>
    rw [Session.perform, Session.insertNode] at h
    cases hspan : session.index.laneSpans.get? lane with
    | none => simp [hspan, pure, Except.pure] at h
    | some span =>
      cases hid : session.nextId with
      | error fault => simp [hspan, hid, bind, Except.bind] at h
      | ok id =>
        simp only [hspan, hid, bind, Except.bind, pure, Except.pure, Except.ok.injEq,
          Effect.applied.injEq] at h
        rw [← h.1, (Session.nextId_eq_ok hid).1]
        rfl
  | removeNode id =>
    rw [Session.perform, Session.removeNode] at h
    cases hline : session.index.nodeLines.get? id with
    | none => simp [hline, pure, Except.pure] at h
    | some position =>
      simp only [hline, Session.removeLine, bind, Except.bind, pure, Except.pure] at h
      split at h <;> cases h
      rfl
  | updateNode id updates =>
    rw [Session.perform, Session.updateNode] at h
    repeat' split at h
    all_goals cases h
    rfl
  | insertEdge edge =>
    rw [Session.perform, Session.insertEdge] at h
    repeat' split at h
    all_goals cases h
    rfl
  | removeEdge source target =>
    rw [Session.perform, Session.removeEdge] at h
    cases hfind : session.lines.findIdx? (isEdgeBetween source target) with
    | none => simp [hfind, pure, Except.pure] at h
    | some position =>
      simp only [hfind, Session.removeLine, bind, Except.bind, pure, Except.pure] at h
      split at h <;> cases h
      rfl

/-- A step gives the ids that follow the last number, and moves the last number on. -/
theorem newId?_of_step (h : session.step operation = .ok (next, entry)) :
    ∃ count, next.lastId = session.lastId + count ∧
      entry.newId?.toList = idsAbove session.lastId count := by
  rcases Session.step_ok h with
    ⟨reason, _, rfl, rfl⟩ | ⟨edit, reason, _, _, rfl, rfl⟩ | ⟨edit, change, _, hp, rfl⟩
  · exact ⟨0, rfl, rfl⟩
  · exact ⟨0, rfl, rfl⟩
  · have hedited := Session.performed session edit
    rw [hp] at hedited
    cases hedited
    exact ⟨edit.newIds, rfl, newId?_of_perform hp⟩

theorem idsAbove_add (number count more : Nat) :
    idsAbove number (count + more) = idsAbove number count ++ idsAbove (number + count) more := by
  rw [idsAbove, ← List.range'_append_1, List.map_append, Nat.add_right_comm]
  rfl

/-- The ids of a run have the numbers that follow the last one, in order. -/
theorem newIds_run (h : session.run operations = .ok (last, entries)) :
    ∃ count, last.lastId = session.lastId + count ∧
      entries.filterMap Entry.newId? = idsAbove session.lastId count := by
  induction operations generalizing session entries with
  | nil =>
    cases h
    exact ⟨0, rfl, rfl⟩
  | cons operation rest ih =>
    obtain ⟨after, entry, more, hstep, hrest, rfl⟩ := Session.run_cons_eq_ok.1 h
    obtain ⟨first, hfirst, hentry⟩ := newId?_of_step hstep
    obtain ⟨count, hcount, hmore⟩ := ih hrest
    refine ⟨first + count, by omega, ?_⟩
    rw [idsAbove_add, ← hentry, ← hfirst, ← hmore, List.filterMap_cons]
    cases entry.newId? <;> rfl

/-- No id is declared whose number is higher than the highest. -/
theorem not_mem_of_highest {ids : List Text} {other : Nat} (h : Highest ids number)
    (hlt : number < other) : numberedId other ∉ ids := by
  intro hmem
  obtain ⟨bound, hbound, hnumber⟩ := h.bound _ hmem
  have hother := number_of_numberedId hnumber
  omega

/-- The lines that are edited declare the nodes of the graph if all line breaks are of one kind. -/
theorem declaredIds_eq (h : UniformBreaks text) :
    declaredIds text = (Graph.ofText text).nodes.map Node.id := by
  rw [declaredIds, split_eq_segments h, Graph.nodes_ofText, map_id_nodesFrom]
  rfl

/-- New nodes are given the numbers above the highest that is declared, whatever was removed before;
if all line breaks are of one kind no node of the graph has one of their ids, and else just those do
that the graph has and no line declares. -/
theorem newIds_fresh (h : applyChanges text operations = .ok result) :
    ∃ number, Highest (declaredIds text) number ∧
      result.newIds = idsAbove number result.newIds.length ∧ result.newIds.Nodup ∧
      (∀ id ∈ result.newIds, id ∉ declaredIds text) ∧
      (UniformBreaks text → ∀ id ∈ result.newIds, id ∉ (Graph.ofText text).nodes.map Node.id) ∧
      ((∃ id ∈ result.newIds, id ∈ (Graph.ofText text).nodes.map Node.id) ↔
        ∃ other, number < other ∧ other ≤ number + result.newIds.length ∧
          numberedId other ∈ (Graph.ofText text).nodes.map Node.id) := by
  obtain ⟨session, last, entries, hs, hrun, rfl⟩ := applyChanges_eq_ok h
  obtain ⟨count, _, hids⟩ := newIds_run hrun
  obtain ⟨_, hhighest⟩ := ofText_starts hs
  have hlength : (Result.newIds ⟨last.text, entries⟩).length = count := by
    rw [Result.newIds, hids, idsAbove, List.length_map, List.length_range']
  have hmem : ∀ id, id ∈ Result.newIds ⟨last.text, entries⟩ ↔
      ∃ other, session.lastId < other ∧ other ≤ session.lastId + count ∧ numberedId other = id := by
    intro id
    rw [Result.newIds, hids, mem_idsAbove]
  have hfresh : ∀ id ∈ Result.newIds ⟨last.text, entries⟩, id ∉ declaredIds text := by
    intro id hid
    obtain ⟨other, hlt, _, rfl⟩ := (hmem id).1 hid
    exact not_mem_of_highest hhighest hlt
  refine ⟨session.lastId, hhighest, ?_, ?_, hfresh, fun hbreaks => declaredIds_eq hbreaks ▸ hfresh, ?_⟩
  · rw [hlength]
    exact hids
  · rw [Result.newIds, hids]
    exact (List.nodup_range' 1).map numberedId_injective
  · simp only [hlength, hmem]
    constructor
    · rintro ⟨_, ⟨other, hlt, hle, rfl⟩, hdeclared⟩
      exact ⟨other, hlt, hle, hdeclared⟩
    · rintro ⟨other, hlt, hle, hdeclared⟩
      exact ⟨_, ⟨other, hlt, hle, rfl⟩, hdeclared⟩

/-- A batch that removes the node with the highest number, and adds two. -/
def renewingOperations : List Operation := [
  { op := "removeNode", nodeId := some "n2" },
  sampleInsertion,
  { op := "insertNode", laneId := some "nowhere", newNode := some ⟨none, none, .empty⟩ },
  { op := "insertNode", laneId := some "b", newNode := some ⟨some "diamond", none, .empty⟩ }]

theorem newIds_fresh_renewing : ∃ result, applyChanges sample renewingOperations = .ok result ∧
    result.newIds = ["n3".toList, "n4".toList] ∧ UniformBreaks sample ∧
    result.newIds.Nodup ∧
    ∀ id ∈ result.newIds, id ∉ (Graph.ofText sample).nodes.map Node.id := by
  have hids : (applyChanges sample renewingOperations).toOption.map Result.newIds =
      some ["n3".toList, "n4".toList] := by decide +kernel
  have hbreaks : UniformBreaks sample := by decide +kernel
  cases h : applyChanges sample renewingOperations with
  | error fault => simp [h, Except.toOption] at hids
  | ok result =>
    rw [h] at hids
    obtain ⟨_, _, _, hnodup, _, hfresh, _⟩ := newIds_fresh h
    exact ⟨result, rfl, Option.some.inj hids, hbreaks, hnodup, hfresh hbreaks⟩

/-- The line of the first node goes on behind a line feed, as the line ends are pairs, and hides the
second from the patch. -/
def veiledText : Text := "a \x7b\r\nn1: circle\nn2: circle\r\n\x7d\r\n"

/-- A new node is given the id of a node of the graph. -/
theorem newId_taken_veiled :
    (applyChanges veiledText [sampleInsertion]).toOption.map Result.newIds = some ["n2".toList] ∧
      "n2".toList ∈ (Graph.ofText veiledText).nodes.map Node.id := by
  decide +kernel

end Swimlane.Patch
