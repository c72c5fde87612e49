import Swimlane.Proofs.Patch.Safety

/-! Operations that are skipped: they change nothing, and a batch comes to the same without them. -/
namespace Swimlane.Patch

open Text

variable {session next last : Session} {operation : Operation} {operations : List Operation}
  {entry : Entry} {entries : List Entry} {kept : List (Operation × Entry)} {text : Text}
  {result : Result}

/-- An operation that is not applied leaves the lines, the index and the last number as they are. That
is so exactly if it asks for no edit, or for one that cannot be made. -/
structure SkipsWhole (session : Session) (operation : Operation) : Prop where
  unapplied : ∀ next entry, session.step operation = .ok (next, entry) →
    entry.isApplied = false → next = session
  skipped_iff : ∀ next reason,
    session.step operation = .ok (next, ⟨operation.op, .skipped reason⟩) ↔ next = session ∧
      (operation.edit? = .error reason ∨
        ∃ edit, operation.edit? = .ok edit ∧ session.Unfit edit reason)

namespace Session

/-- A step whose operation is skipped leaves the session as it was. -/
theorem step_skipped (h : session.step operation = .ok (next, entry))
    (hs : entry.isApplied = false) : next = session := by
  rcases step_ok h with ⟨_, _, rfl, _⟩ | ⟨_, _, _, _, rfl, _⟩ | ⟨_, _, _, _, rfl⟩
  · rfl
  · rfl
  · cases hs

theorem step_of_unfit {edit : Edit} {reason : SkipReason} (he : operation.edit? = .ok edit)
    (hu : session.Unfit edit reason) :
    session.step operation = .ok (session, ⟨operation.op, .skipped reason⟩) := by
  rw [step, he]
  simp only [perform_skipped.2 ⟨rfl, hu⟩, bind, Except.bind, pure, Except.pure]

end Session

theorem skipsWhole (session : Session) (operation : Operation) : SkipsWhole session operation := by
  refine ⟨fun next entry => Session.step_skipped, fun next reason => ⟨fun h => ?_, ?_⟩⟩
  · rcases Session.step_ok h with
      ⟨other, he, rfl, hentry⟩ | ⟨edit, other, he, hunfit, rfl, hentry⟩ | ⟨_, _, _, _, hentry⟩
    · cases hentry
      exact ⟨rfl, Or.inl he⟩
    · cases hentry
      exact ⟨rfl, Or.inr ⟨edit, he, hunfit⟩⟩
    · cases hentry
  · rintro ⟨rfl, he | ⟨edit, he, hunfit⟩⟩
    · simp only [Session.step, he, pure, Except.pure]
    · exact Session.step_of_unfit he hunfit

/-- A run records every operation, in order. -/
theorem ops_entries (h : session.run operations = .ok (last, entries)) :
    entries.map Entry.op = operations.map Operation.op := by
  induction operations generalizing session entries with
  | nil =>
    cases h
    rfl
  | cons operation rest ih =>
    obtain ⟨after, entry, more, hstep, hrest, rfl⟩ := Session.run_cons_eq_ok.1 h
    rw [List.map_cons, List.map_cons, ih hrest]
    rcases Session.step_eq_ok hstep with
      ⟨_, _, reason, rfl⟩ | ⟨edit, splice, change, _, _, _, _, _, rfl⟩
    · rfl
    · rfl

/-- A batch with its entries, and what is left of it without some operations that were skipped. -/
inductive Thinned : List (Operation × Entry) → List (Operation × Entry) → Prop
  | nil : Thinned [] []
  | keep (pair : Operation × Entry) {batch kept : List (Operation × Entry)}
      (h : Thinned batch kept) : Thinned (pair :: batch) (pair :: kept)
  | drop (pair : Operation × Entry) {batch kept : List (Operation × Entry)}
      (hskipped : pair.2.isApplied = false) (h : Thinned batch kept) : Thinned (pair :: batch) kept

/-- All that was skipped may be left out at once. -/
theorem thinned_filter (batch : List (Operation × Entry)) :
    Thinned batch (batch.filter (·.2.isApplied)) := by
  induction batch with
  | nil => exact .nil
  | cons pair rest ih =>
    cases hpair : pair.2.isApplied with
    | true =>
      rw [List.filter_cons_of_pos (by simp [hpair])]
      exact .keep pair ih
    | false =>
      rw [List.filter_cons_of_neg (by simp [hpair])]
      exact .drop pair hpair ih

/-- A run comes to the same without some of the operations that were skipped. -/
theorem run_thinned (h : session.run operations = .ok (last, entries))
    (ht : Thinned (operations.zip entries) kept) :
    session.run (kept.map Prod.fst) = .ok (last, kept.map Prod.snd) := by
  induction operations generalizing session entries kept with
  | nil =>
    cases h
    cases ht
    rfl
  | cons operation rest ih =>
    obtain ⟨after, entry, more, hstep, hrest, rfl⟩ := Session.run_cons_eq_ok.1 h
    rw [List.zip_cons_cons] at ht
    cases ht with
    | keep _ hmore => exact Session.run_cons_eq_ok.2 ⟨after, entry, _, hstep, ih hrest hmore, rfl⟩
    | drop _ hskipped hmore =>
      have hsame := Session.step_skipped hstep hskipped
      exact ih (hsame ▸ hrest) hmore

theorem applyChanges_thinned (h : applyChanges text operations = .ok result)
    (ht : Thinned (operations.zip result.entries) kept) :
    applyChanges text (kept.map Prod.fst) = .ok ⟨result.code, kept.map Prod.snd⟩ := by
  obtain ⟨session, last, entries, hs, hrun, rfl⟩ := applyChanges_eq_ok h
  rw [applyChanges, hs]
  simp [bind, Except.bind, run_thinned hrun ht, pure, Except.pure]

theorem applyChanges_nil (h : applyChanges text [] = .ok result) : result.code = text := by
  obtain ⟨session, last, entries, hs, hrun, rfl⟩ := applyChanges_eq_ok h
  cases hrun
  rw [(ofText_starts hs).1]
  exact join_split _ text

/-- A batch of which everything is skipped leaves the text as it is. -/
theorem code_of_skipped (h : applyChanges text operations = .ok result)
    (hs : ∀ entry ∈ result.entries, entry.isApplied = false) : result.code = text := by
  have hnone : (operations.zip result.entries).filter (·.2.isApplied) = [] := by
    rw [List.filter_eq_nil_iff]
    intro pair hmem
    simp [hs pair.2 (List.of_mem_zip hmem).2]
  have hthinned := thinned_filter (operations.zip result.entries)
  rw [hnone] at hthinned
  have hcode := applyChanges_nil (applyChanges_thinned h hthinned)
  exact hcode

/-- What is skipped changes nothing, and could as well have been left out of the batch. -/
theorem skipped_without_effect (text : Text) (operations : List Operation) :
    (∀ session operation, SkipsWhole session operation) ∧
    ∀ result, applyChanges text operations = .ok result →
      result.entries.length = operations.length ∧
      (∀ kept, Thinned (operations.zip result.entries) kept →
        applyChanges text (kept.map Prod.fst) = .ok ⟨result.code, kept.map Prod.snd⟩) ∧
      ((∀ entry ∈ result.entries, entry.isApplied = false) → result.code = text) := by
  refine ⟨skipsWhole, fun result h => ⟨?_, fun kept => applyChanges_thinned h, code_of_skipped h⟩⟩
  obtain ⟨session, last, entries, _, hrun, rfl⟩ := applyChanges_eq_ok h
  simpa using congrArg List.length (ops_entries hrun)

/-- A batch in which one operation is applied and the others are skipped for different reasons. -/
def partialOperations : List Operation := [
  { op := "insertNode", laneId := some "nowhere", newNode := some ⟨none, some "x", .empty⟩ },
  { op := "updateNode"
    nodeId := some "n1"
    updates := some (.ofList [("label", "y"), ("shape", "blob")]) },
  { op := "insertNode", laneId := some "a", newNode := some ⟨none, some "z", .empty⟩ },
  { op := "insertNode", laneId := some "a", newNode := some ⟨some "blob", none, .empty⟩ },
  { op := "removeEdge", newEdge := some ⟨"n2", "n1", none, "right", "left"⟩ }]

theorem skipped_without_effect_partial : ∃ result,
    applyChanges mixedSample partialOperations = .ok result ∧
    result.entries.map Entry.isApplied = [false, false, true, false, false] ∧
    applyChanges mixedSample (((partialOperations.zip result.entries).filter
        (·.2.isApplied)).map Prod.fst) =
      .ok ⟨result.code, ((partialOperations.zip result.entries).filter
        (·.2.isApplied)).map Prod.snd⟩ := by
  have hrun : (applyChanges mixedSample partialOperations).toOption.map (fun result =>
      result.entries.map Entry.isApplied) = some [false, false, true, false, false] := by
    decide +kernel
  cases h : applyChanges mixedSample partialOperations with
  | error fault => simp [h, Except.toOption] at hrun
  | ok result =>
    rw [h] at hrun
    obtain ⟨_, hkept, _⟩ := (skipped_without_effect mixedSample partialOperations).2 result h
    exact ⟨result, rfl, Option.some.inj hrun, hkept _ (thinned_filter _)⟩

end Swimlane.Patch
