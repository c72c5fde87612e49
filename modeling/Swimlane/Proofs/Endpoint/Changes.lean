import Swimlane.Endpoint.Answers
import Swimlane.Proofs.Endpoint.Consultation

/-! The link to a changed text is beside the point: whatever the service sends, the change is the same
as without a link, unless the reply is nested too deep. -/
namespace Swimlane.Endpoint

open Service

variable {depths : Json.Depths} {result : Patch.Result} {name : Text} {url other code operations : Json}
  {error lost : Option Text}

/-- The text and the operations of a request that passes all checks, the text without its controls. -/
def request? (depths : Json.Depths) (code operations : Json) : Option (Text × List Patch.Operation) := do
  let text ← (checkCode false code).toOption
  let items ← (checkOperations operations).toOption
  let batch ← (Patch.Operation.listOfJson depths.showing (.arr items)).toOption
  return (sanitize text, batch)

/-- A request whose operations come to a text is answered with the text, and shares it if asked to. -/
theorem applyChange_of_request {text : Text} {batch : List Patch.Operation} (sharing : Bool)
    (hrequest : request? depths code operations = some (text, batch))
    (hresult : Patch.applyChanges text batch = .ok result) :
    applyChange depths sharing code operations = if sharing then
        .share result.code fun shared =>
          .answer ((shared.map fun shared => applied result (some shared)).mapError .overflow)
      else .answer (.ok (applied result none)) := by
  simp only [request?] at hrequest
  cases hcode : checkCode false code with
  | error flaw => simp [hcode, Except.toOption] at hrequest
  | ok sent =>
    cases hitems : checkOperations operations with
    | error flaw => simp [hcode, hitems, Except.toOption] at hrequest
    | ok items =>
      cases hbatch : Patch.Operation.listOfJson depths.showing (.arr items) with
      | error error => simp [hcode, hitems, hbatch, Except.toOption] at hrequest
      | ok listed =>
        simp only [hcode, hitems, hbatch, Except.toOption, Option.bind_eq_bind, Option.bind_some,
          Option.pure_def, Option.some.injEq, Prod.mk.injEq] at hrequest
        obtain ⟨rfl, rfl⟩ := hrequest
        have happlied : Patch.applyJson depths.showing (sanitize sent) (.arr items) = .ok result := by
          rw [Patch.applyJson, hbatch]
          exact mapError_eq_ok.2 hresult
        simp only [applyChange, hcode, hitems, happlied]

/-- What becomes of a request: it fails whether or not a link is asked for, or its operations come to a
text. -/
inductive ChangeCourse (depths : Json.Depths) (code operations : Json) : Prop
  | failed {value : Except Breakdown Json}
      (hstop : ∀ sharing, applyChange depths sharing code operations = .answer value)
      (hvalue : (∃ breakdown, value = .error breakdown) ∨ ∃ message, value = .ok (failure message))
  | applied {text : Text} {batch : List Patch.Operation} {result : Patch.Result}
      (hrequest : request? depths code operations = some (text, batch))
      (hresult : Patch.applyChanges text batch = .ok result)

theorem changeCourse (depths : Json.Depths) (code operations : Json) :
    ChangeCourse depths code operations := by
  cases hcode : checkCode false code with
  | error flaw =>
    refine .failed (fun sharing => ?_) (.inr ⟨flaw.message "code", rfl⟩)
    simp only [applyChange, hcode]
  | ok text =>
    cases hitems : checkOperations operations with
    | error flaw =>
      cases hmessage : flaw.message depths.writing with
      | ok message =>
        refine .failed (fun sharing => ?_) (.inr ⟨message, rfl⟩)
        simp only [applyChange, hcode, hitems, hmessage, Except.map, Except.mapError]
      | error excess =>
        refine .failed (fun sharing => ?_) (.inl ⟨.ofExcess excess, rfl⟩)
        simp only [applyChange, hcode, hitems, hmessage, Except.map, Except.mapError]
    | ok items =>
      cases happlied : Patch.applyJson depths.showing (sanitize text) (.arr items) with
      | error breakoff =>
        cases breakoff with
        | unlisted reason =>
          cases reason with
          | malformed error =>
            refine .failed (fun sharing => ?_)
              (.inr ⟨"Failed to apply changes: " ++ error.message, rfl⟩)
            simp only [applyChange, hcode, hitems, happlied]
          | excess excess =>
            refine .failed (fun sharing => ?_) (.inl ⟨.ofExcess excess, rfl⟩)
            simp only [applyChange, hcode, hitems, happlied]
        | fault fault =>
          refine .failed (fun sharing => ?_) (.inl ⟨.fault fault, rfl⟩)
          simp only [applyChange, hcode, hitems, happlied]
      | ok result =>
        rw [Patch.applyJson, bind_eq_ok] at happlied
        obtain ⟨batch, hbatch, hresult⟩ := happlied
        have hrequest : request? depths code operations = some (sanitize text, batch) := by
          simp [request?, hcode, hitems, mapError_eq_ok.1 hbatch, Except.toOption]
        exact .applied hrequest (mapError_eq_ok.1 hresult)

end Swimlane.Endpoint
