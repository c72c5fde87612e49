import Mathlib.Data.Nat.Digits.Defs
import Swimlane.Proofs.Patch.Listing
import Swimlane.Proofs.Patch.Skips

/-! Which batches are refused, and which come to a result. -/
namespace Swimlane.Patch

open Text

variable {session next : Session} {operation : Operation} {operations : List Operation}
  {entry : Entry}

/-- The ids that a text declares, as its lines are cut for an edit. -/
def declaredIds (text : Text) : List Text := nodeIds ((Newline.ofText text).split text)

/-- A text is taken unless it declares an id that is too long to be read. -/
theorem ofText_cases (text : Text) :
    (∃ first, Session.ofText text = .ok first ∧ Highest (declaredIds text) first.lastId) ∨
    (∃ id ∈ declaredIds text, Overlong id) ∧
      ∃ count, Session.ofText text = .error (.digits (.reading count)) := by
  rcases highest_cases (LineIndex.scan ((Newline.ofText text).split text)).nodeLines.keys 0 with
    ⟨number, hnumber⟩ | ⟨id, hmem, digits, hlong, herror⟩
  · have hhighest : Highest (declaredIds text) number :=
      (highestId_eq_ok_iff (LineIndex.Same.refl _)).1 hnumber
    have hs : Session.ofText text = .ok ⟨Newline.ofText text, (Newline.ofText text).split text,
        LineIndex.scan ((Newline.ofText text).split text), number⟩ := by
      rw [Session.ofText]
      simp only [LineIndex.highestId, hnumber]
    exact Or.inl ⟨_, hs, hhighest⟩
  · refine Or.inr ⟨⟨id, (mem_keys_of_same (LineIndex.Same.refl _)).1 hmem, hlong⟩, digits, ?_⟩
    rw [Session.ofText]
    simp only [LineIndex.highestId, herror]

/-- How many ids an operation gives. -/
def Operation.newIds (operation : Operation) : Nat :=
  match operation.edit? with
  | .ok edit => edit.newIds
  | .error _ => 0

namespace Session

theorem exists_nextId (h : session.lastId + 1 < 10 ^ maxDigits) : ∃ id, session.nextId = .ok id := by
  have hlength : (ofNat (session.lastId + 1)).length ≤ maxDigits :=
    Nat.toDigits_length 10 _ maxDigits (by decide) h
  exact ⟨_, if_neg (Nat.not_lt.2 hlength)⟩

/-- No step gives more ids than its operation asks for. -/
theorem lastId_le_of_step (h : session.step operation = .ok (next, entry)) :
    next.lastId ≤ session.lastId + operation.newIds := by
  rcases step_eq_ok h with ⟨rfl, _⟩ | ⟨edit, splice, change, hedit, _, _, _, rfl, _⟩
  · exact Nat.le_add_right _ _
  · rw [Operation.newIds, hedit]
    exact Nat.le_refl _

/-- A step fails for want of a number, or because the index is wrong about a line. -/
theorem step_fault {fault : Fault} (h : session.step operation = .error fault) :
    (fault = .digits .writing ∧ 10 ^ maxDigits ≤ session.lastId + operation.newIds) ∨
    (fault = .lineOutOfRange ∧ ¬ Safe session) := by
  obtain ⟨edit, hedit, hperform⟩ := step_eq_error h
  have hedited := performed session edit
  rw [hperform] at hedited
  cases hedited with
  | unnumbered hnew hid =>
    refine Or.inl ⟨rfl, ?_⟩
    rw [Operation.newIds, hedit]
    change _ ≤ session.lastId + edit.newIds
    rw [hnew]
    refine Nat.not_lt.1 fun hlt => ?_
    obtain ⟨id, hok⟩ := exists_nextId hlt
    rw [hok] at hid
    cases hid
  | astray hid hline hlt =>
    refine Or.inr ⟨rfl, fun hs => ?_⟩
    have hother := (fault_of_safe hs.index hperform).2.2
    cases hother

/-- A run fails for want of a number, or after an edge was named by the line of a node. -/
theorem run_fault {fault : Fault} (h : session.run operations = .error fault) :
    (fault = .digits .writing ∧
      10 ^ maxDigits ≤ session.lastId + (operations.map Operation.newIds).sum) ∨
    (fault = .lineOutOfRange ∧ (Safe session → ∃ operation ∈ operations, ¬ operation.PlainSource)) := by
  induction operations generalizing session with
  | nil => cases h
  | cons operation rest ih =>
    rw [List.map_cons, List.sum_cons]
    rw [run] at h
    cases hstep : session.step operation with
    | error other =>
      rw [hstep] at h
      cases h
      rcases step_fault hstep with ⟨hfault, hroom⟩ | ⟨hfault, hwrong⟩
      · exact Or.inl ⟨hfault, hroom.trans (by omega)⟩
      · exact Or.inr ⟨hfault, fun hs => (hwrong hs).elim⟩
    | ok result =>
      obtain ⟨next, entry⟩ := result
      have hlast := lastId_le_of_step hstep
      have hrest : next.run rest = .error fault := by
        cases hrun : next.run rest <;> simp [hstep, hrun, bind, Except.bind, pure, Except.pure] at h
        exact congrArg _ h
      rcases ih hrest with ⟨hfault, hroom⟩ | ⟨hfault, hlater⟩
      · exact Or.inl ⟨hfault, hroom.trans (by omega)⟩
      · refine Or.inr ⟨hfault, fun hs => ?_⟩
        by_cases hp : operation.PlainSource
        · obtain ⟨other, hother, hnot⟩ := hlater (safe_step hs hp hstep).1
          exact ⟨other, List.mem_cons_of_mem operation hother, hnot⟩
        · exact ⟨operation, by simp, hp⟩

end Session

/-- What a batch comes to: a result with an entry for every operation, unless an id is too long to
be read or to be written, or an edge was named by the line of a node. -/
inductive Comes (text : Text) (operations : List Operation) : Except Fault Result → Prop
  | result {result : Result} (hread : ∀ id ∈ declaredIds text, ¬ Overlong id)
      (hops : result.entries.map Entry.op = operations.map Operation.op) :
      Comes text operations (.ok result)
  | overlong {id : Text} {count : Nat} (hmem : id ∈ declaredIds text) (hlong : Overlong id) :
      Comes text operations (.error (.digits (.reading count)))
  | exhausted {number : Nat} (hhighest : Highest (declaredIds text) number)
      (hroom : 10 ^ maxDigits ≤ number + (operations.map Operation.newIds).sum) :
      Comes text operations (.error (.digits .writing))
  | astray {operation : Operation} (hmem : operation ∈ operations) (hp : ¬ operation.PlainSource) :
      Comes text operations (.error .lineOutOfRange)

theorem comes (text : Text) (operations : List Operation) :
    Comes text operations (applyChanges text operations) := by
  rcases ofText_cases text with ⟨first, hs, hhighest⟩ | ⟨⟨id, hmem, hlong⟩, count, hs⟩
  · rw [applyChanges, hs]
    change Comes text operations (first.run operations >>= _)
    cases hrun : first.run operations with
    | ok pair =>
      have hread : ∀ id ∈ declaredIds text, ¬ Overlong id := fun id hmem =>
        not_overlong_of_highest hhighest hmem
      exact .result hread (ops_entries hrun)
    | error fault =>
      rcases Session.run_fault hrun with ⟨rfl, hroom⟩ | ⟨rfl, hplain⟩
      · exact .exhausted hhighest hroom
      · obtain ⟨operation, hmem, hp⟩ := hplain (safe_ofText hs)
        exact .astray hmem hp
  · rw [applyChanges, hs]
    exact .overlong hmem hlong

/-- What a batch of JSON comes to: a refusal if it is malformed, an end if a word in it has no text, and
else what its operations come to. -/
inductive BatchCourse (room : Nat) (text : Text) (batch : Json) : Except Breakoff Result → Prop
  | refused {error : OperationError} (hm : MalformedBatch batch) :
      BatchCourse room text batch (.error (.unlisted (.malformed error)))
  | unshown {word : Json} {excess : Json.Excess} (hw : word ∈ batchWords batch)
      (hu : Json.Unshown room word excess) :
      BatchCourse room text batch (.error (.unlisted (.excess excess)))
  | read {operations : List Operation} {result : Except Fault Result} (hm : ¬ MalformedBatch batch)
      (hw : ∀ word ∈ batchWords batch, ∀ excess, ¬ Json.Unshown room word excess)
      (hlist : Operation.listOfJson room batch = .ok operations) (hc : Comes text operations result) :
      BatchCourse room text batch (result.mapError .fault)

theorem applyJson_of_listed {room : Nat} {batch : Json}
    (hlist : Operation.listOfJson room batch = .ok operations) (text : Text) :
    applyJson room text batch = (applyChanges text operations).mapError .fault := by
  rw [applyJson, hlist]
  rfl

theorem batchCourse (room : Nat) (text : Text) (batch : Json) :
    BatchCourse room text batch (applyJson room text batch) := by
  cases hlist : Operation.listOfJson room batch with
  | ok operations =>
    obtain ⟨hm, hw⟩ := Operation.exists_listOfJson.1 ⟨operations, hlist⟩
    rw [applyJson_of_listed hlist]
    exact .read hm hw hlist (comes text operations)
  | error reason =>
    have hcause := (Operation.reads_listOfJson room batch).of_error reason hlist
    rw [applyJson, hlist]
    cases reason with
    | malformed error => exact .refused hcause
    | excess excess =>
      obtain ⟨word, hw, hu⟩ := hcause
      exact .unshown hw hu

/-- With a plain source for each edge that is taken out, and numbers for all ids, operations come to a
result. -/
theorem exists_result {text : Text} {number : Nat} (hhighest : Highest (declaredIds text) number)
    (hplain : ∀ operation ∈ operations, operation.PlainSource)
    (hroom : number + (operations.map Operation.newIds).sum < 10 ^ maxDigits) :
    ∃ result, applyChanges text operations = .ok result ∧
      result.entries.map Entry.op = operations.map Operation.op := by
  have hcomes := comes text operations
  generalize applyChanges text operations = result at hcomes ⊢
  cases hcomes with
  | result _ hops => exact ⟨_, rfl, hops⟩
  | overlong hmem hlong => exact (not_overlong_of_highest hhighest hmem hlong).elim
  | exhausted hother hfull =>
    rw [highest_unique hother hhighest] at hfull
    exact (Nat.not_lt.2 hfull hroom).elim
  | astray hmem hp => exact (hp (hplain _ hmem)).elim

/-- What every batch comes to. If all its words have texts it is refused just if it is malformed, and
any other batch comes to a result with an entry for each operation if its sources are plain and there
are numbers for the ids. -/
theorem applyChanges_contract (room : Nat) (text : Text) (batch : Json) :
    BatchCourse room text batch (applyJson room text batch) ∧
    ((∀ word ∈ batchWords batch, ∀ excess, ¬ Json.Unshown room word excess) →
      ((∃ error, applyJson room text batch = .error (.unlisted (.malformed error))) ↔
        MalformedBatch batch) ∧
      (¬ MalformedBatch batch → ∃ operations, Operation.listOfJson room batch = .ok operations ∧
        ∀ number, Highest (declaredIds text) number →
          (∀ operation ∈ operations, operation.PlainSource) →
          number + (operations.map Operation.newIds).sum < 10 ^ maxDigits →
          ∃ result, applyJson room text batch = .ok result ∧
            result.entries.map Entry.op = operations.map Operation.op)) := by
  refine ⟨batchCourse room text batch, fun hwords => ⟨⟨?_, fun hm => ?_⟩, fun hm => ?_⟩⟩
  · rintro ⟨error, herror⟩
    have hcourse := batchCourse room text batch
    rw [herror] at hcourse
    generalize hend : (Except.error (.unlisted (.malformed error)) : Except Breakoff Result) = ended
      at hcourse
    cases hcourse with
    | refused hm => exact hm
    | unshown hw hu => exact absurd hu (hwords _ hw _)
    | read _ _ _ hc => cases hc <;> cases hend
  · have hcourse := batchCourse room text batch
    generalize applyJson room text batch = ended at hcourse ⊢
    cases hcourse with
    | refused => exact ⟨_, rfl⟩
    | unshown hw hu => exact absurd hu (hwords _ hw _)
    | read hfine => exact absurd hm hfine
  · obtain ⟨operations, hlist⟩ := Operation.exists_listOfJson.2 ⟨hm, hwords⟩
    refine ⟨operations, hlist, fun number hhighest hplain hroom => ?_⟩
    obtain ⟨result, hresult, hops⟩ := exists_result hhighest hplain hroom
    exact ⟨result, by rw [applyJson_of_listed hlist, hresult]; rfl, hops⟩

def sampleBatch : Json := .arr [
  .obj [("op", .str "insertNode"), ("laneId", .str "a"), ("newNode", .obj [("label", .str "x")])],
  .obj [("op", .str "removeEdge"), ("newEdge", .obj [("from", .str "n1"), ("to", .str "n2")])],
  .obj [("op", .int 5), ("nodeId", .bool true)]]

theorem applyChanges_contract_sample :
    (∀ word ∈ batchWords sampleBatch, ∀ excess, ¬ Json.Unshown 990 word excess) ∧
    ¬ MalformedBatch sampleBatch ∧
    ∃ operations, Operation.listOfJson 990 sampleBatch = .ok operations ∧
      Highest (declaredIds mixedSample) 2 ∧ (∀ operation ∈ operations, operation.PlainSource) ∧
      2 + (operations.map Operation.newIds).sum < 10 ^ maxDigits ∧
      ∃ result, applyJson 990 mixedSample sampleBatch = .ok result ∧
        result.entries.map Entry.op = operations.map Operation.op := by
  have hread : (Operation.listOfJson 990 sampleBatch).toOption.map (fun operations =>
      (decide (∀ operation ∈ operations, operation.PlainSource),
        (operations.map Operation.newIds).sum)) = some (true, 1) := by decide +kernel
  have hhighest : Highest (declaredIds mixedSample) 2 :=
    (highestId_eq_ok_iff (LineIndex.Same.refl _)).1 (by decide +kernel)
  cases hs : Operation.listOfJson 990 sampleBatch with
  | error error => simp [hs, Except.toOption] at hread
  | ok operations =>
    rw [hs] at hread
    simp only [Except.toOption, Option.map_some, Option.some.injEq, Prod.mk.injEq,
      decide_eq_true_eq] at hread
    obtain ⟨hplain, hsum⟩ := hread
    have hroom : 2 + (operations.map Operation.newIds).sum < 10 ^ maxDigits := by
      rw [hsum]
      exact Nat.lt_of_lt_of_le (by decide : 3 < 10 ^ 1)
        (Nat.pow_le_pow_right (by decide) (by decide))
    obtain ⟨hm, hwords⟩ := Operation.exists_listOfJson.1 ⟨operations, hs⟩
    obtain ⟨found, hfound, hresult⟩ :=
      ((applyChanges_contract 990 mixedSample sampleBatch).2 hwords).2 hm
    cases hs.symm.trans hfound
    exact ⟨hwords, hm, operations, rfl, hhighest, hplain, hroom, hresult 2 hhighest hplain hroom⟩

/-- A node whose id has one digit too many. -/
def overlongText : Text := 'n' :: List.replicate (maxDigits + 1) '1' ++ ": circle"

/-- The label makes an edge of the node's line, the edge is taken out, and the node is still in the
index. -/
def strayBatch : Json := .arr [
  .obj [("op", .str "updateNode"), ("nodeId", .str "n1"),
    ("updates", .obj [("label", .str "z.handle(q) -> m.handle(l)")])],
  .obj [("op", .str "removeEdge"),
    ("newEdge", .obj [("from", .str "n1: circle label:\"z"), ("to", .str "m")])],
  .obj [("op", .str "updateNode"), ("nodeId", .str "n1"), ("updates", .obj [])]]

/-- Batches that are not refused and come to nothing. -/
theorem faults_of_readable :
    (applyJson 990 overlongText (.arr [])).map Result.code =
      .error (.fault (.digits (.reading (maxDigits + 1)))) ∧
    (applyJson 990 "n1: circle" strayBatch).map Result.code = .error (.fault .lineOutOfRange) := by
  decide +kernel

end Swimlane.Patch
