import Swimlane.Endpoint.Consultation
import Swimlane.Proofs.Service.Links

/-! What is sent to the web services, and what comes back, while an endpoint consults them. -/
namespace Swimlane.Endpoint.Consultation

open Service

variable {α : Type}

theorem run_overServices (settings : Settings) (consultation : Consultation α) (replies : List Reply) :
    (consultation.overServices settings).run replies =
      let record := (consultation.consult (.services settings)).run replies
      { record with value := record.value.1 } := by
  rw [overServices, Exchange.run_bind]
  simp [Exchange.run]

theorem run_answer (settings : Settings) (value : α) (replies : List Reply) :
    ((answer value).overServices settings).run replies = ⟨value, [], [], replies⟩ := rfl

/-- A text is validated in one request, and its reply decides what comes next. -/
theorem run_validate (settings : Settings) (code : Text)
    (next : Except CallFailure Validation → Consultation α) (replies : List Reply) :
    ((validate code next).overServices settings).run replies =
      let request := validationRequest settings (Text.keep code)
      let reply := replies.headD (.failed [])
      let result := readValidation settings request.url reply
      let record := ((next result).overServices settings).run replies.tail
      { record with requests := request :: record.requests } := by
  simp [run_overServices, consult, Exchange.run_bind, Exchange.run, Advisers.services, validate_eq]

/-- A link is asked for in one request, and what comes of it is handed on. -/
theorem run_share (settings : Settings) (code : Text) (next : Except Overflow Shared → Consultation α)
    (replies : List Reply) : ∃ shared warnings,
    ((share code next).overServices settings).run replies =
      (let record := ((next shared).overServices settings).run replies.tail
      { record with
        requests := linkRequest settings (Text.keep code) :: record.requests
        warnings := warnings ++ record.warnings }) ∧
    ShareOutcome settings (replies.headD (.failed [])) shared := by
  obtain ⟨shared, warnings, hrun, hshared⟩ := Service.run_share settings (Text.keep code) replies
  refine ⟨shared, warnings, ?_, hshared⟩
  simp [run_overServices, consult, Exchange.run_bind, Exchange.run, Advisers.services, hrun]

end Swimlane.Endpoint.Consultation
