import Swimlane.Service.Client

/-! What an endpoint asks of a validator and of a maker of links before it answers. -/
namespace Swimlane.Endpoint

open Service

inductive Consultation (α : Type)
  | answer (value : α)
  | validate (code : Text) (next : Except CallFailure Validation → Consultation α)
  | share (code : Text) (next : Except Overflow Shared → Consultation α)

/-- A question and the text that goes with it. -/
inductive Question
  | validate (code : Text)
  | share (code : Text)
  deriving DecidableEq, Repr

/-- Those who answer the questions. -/
structure Advisers where
  validate : Text → Exchange (Except CallFailure Validation)
  share : Text → Exchange (Except Overflow Shared)

/-- The web services as advisers. -/
def Advisers.services (settings : Settings) : Advisers where
  validate code := Service.validate settings (.str (Text.keep code))
  share code := Service.share settings (.str (Text.keep code)) .null

namespace Consultation

variable {α : Type}

/-- Puts the questions to the advisers, and lists them in order. -/
def consult (advisers : Advisers) : Consultation α → Exchange (α × List Question)
  | .answer value => .done (value, [])
  | .validate code next =>
    (advisers.validate code).bind fun result =>
      ((next result).consult advisers).bind fun (value, questions) =>
        .done (value, .validate code :: questions)
  | .share code next =>
    (advisers.share code).bind fun shared =>
      ((next shared).consult advisers).bind fun (value, questions) =>
        .done (value, .share code :: questions)

/-- The answer after the web services were asked. -/
def overServices (settings : Settings) (consultation : Consultation α) : Exchange α :=
  (consultation.consult (.services settings)).bind fun (value, _) => .done value

end Consultation

end Swimlane.Endpoint
