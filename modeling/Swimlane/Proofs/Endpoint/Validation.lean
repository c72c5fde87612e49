import Swimlane.Endpoint.Answers
import Swimlane.Proofs.Endpoint.Consultation
import Swimlane.Proofs.Service.Validation

/-! What comes of a validation, for every text and every reply of the service. -/
namespace Swimlane.Endpoint

open Service

/-- The ways that a wish for a validation can go: the text is refused, or it is sent once, and the
reply gives a result, or none, or nothing stops what there is too much of in it. -/
inductive ValidationCourse (settings : Settings) (code : Json) (replies : List Reply) :
    Exchange.Record (Except Overflow Json) → Prop
  | refused {flaw : CodeFlaw} (hc : checkCode false code = .error flaw) :
      ValidationCourse settings code replies ⟨.ok (failure (flaw.message "code")), [], [], replies⟩
  | read {text : Text} {fields : List (Text × Json)} {validation : Validation}
      (hc : checkCode false code = .ok text)
      (hg : Gives settings.depths.reading (replies.headD (.failed [])) fields)
      (ho : ∀ overflow, ¬ Overflows settings.depths.showing fields overflow)
      (hr : ReadsValidation settings.depths.showing fields validation) :
      ValidationCourse settings code replies ⟨.ok (success validation.fields),
        [validationRequest settings (Text.keep (sanitize text))], [], replies.tail⟩
  | unavailable {text : Text} {error : ServiceError} (hc : checkCode false code = .ok text)
      (hg : ∀ fields, ¬ Gives settings.depths.reading (replies.headD (.failed [])) fields)
      (hd : ¬ TooDeep settings.depths.reading (replies.headD (.failed []))) :
      ValidationCourse settings code replies ⟨.ok (failure (unavailable error)),
        [validationRequest settings (Text.keep (sanitize text))], [], replies.tail⟩
  | tooDeep {text : Text} (hc : checkCode false code = .ok text)
      (hd : TooDeep settings.depths.reading (replies.headD (.failed []))) :
      ValidationCourse settings code replies ⟨.error (.excess .depth),
        [validationRequest settings (Text.keep (sanitize text))], [], replies.tail⟩
  | overflow {text : Text} {fields : List (Text × Json)} {overflow : Overflow}
      (hc : checkCode false code = .ok text)
      (hg : Gives settings.depths.reading (replies.headD (.failed [])) fields)
      (ho : Overflows settings.depths.showing fields overflow) (hn : overflow ≠ .excess .digits) :
      ValidationCourse settings code replies ⟨.error overflow,
        [validationRequest settings (Text.keep (sanitize text))], [], replies.tail⟩

theorem validationCourse (settings : Settings) (code : Json) (replies : List Reply) :
    ValidationCourse settings code replies (((validate code).overServices settings).run replies) := by
  rw [validate]
  cases hc : checkCode false code with
  | error flaw => exact .refused hc
  | ok text =>
    rw [Consultation.run_validate]
    have houtcome := validationOutcome settings
      (validationRequest settings (Text.keep (sanitize text))).url (replies.headD (.failed []))
    dsimp only
    generalize readValidation _ _ _ = result at houtcome ⊢
    cases houtcome with
    | read hg ho hr => exact .read hc hg ho hr
    | unavailable hg hd => exact .unavailable hc hg hd
    | tooDeep hd => exact .tooDeep hc hd
    | overflow hg ho hn => exact .overflow hc hg ho hn

/-- An object gives a result, which is what it says, unless an infinite number stands where a whole
one is read, or a message has no text for its depth or its digits; then reading ends in one of these.
A validation sends one request and comes to a result or an error of the service, and the endpoint to an
answer, unless the reply is nested too deep to be read, or has an object that overflows, if not by its
digits. -/
theorem validated_unless_overflowing (settings : Settings) (room : Nat)
    (fields : List (Text × Json)) (text : Text) (code : Json) (replies : List Reply) :
    ((∃ validation, Validation.ofFields room fields = .ok validation) ↔
      ∀ overflow, ¬ Overflows room fields overflow) ∧
    (∀ overflow, Validation.ofFields room fields = .error overflow →
      Overflows room fields overflow) ∧
    (∀ validation, Validation.ofFields room fields = .ok validation ↔
      ¬ Overflows room fields .infinity ∧ ReadsValidation room fields validation) ∧
    (∃ result, (Service.validate settings (.str text)).run replies =
        ⟨result, [validationRequest settings text], [], replies.tail⟩ ∧
      ValidationOutcome settings.depths (replies.headD (.failed [])) result) ∧
    ValidationCourse settings code replies (((validate code).overServices settings).run replies) := by
  have hfails := ofFields_failsBy room fields
  have hrun : (Service.validate settings (.str text)).run replies =
      ⟨readValidation settings (validationRequest settings text).url (replies.headD (.failed [])),
        [validationRequest settings text], [], replies.tail⟩ := by
    rw [validate_eq]
    rfl
  exact ⟨hfails.exists_iff, hfails.of_error, fun _ => ofFields_eq_ok,
    ⟨_, hrun, validationOutcome settings _ _⟩, validationCourse settings code replies⟩

/-- One error with a line beyond every double ends the reading, and the endpoint with it. -/
theorem infinite_line_not_answered :
    (∀ room, Validation.ofFields room
      [("errors", .arr [.obj [("line", .float (.infinite false))]])] = .error .infinity) ∧
    (((validate (.str "a \x7b\n\x7d")).overServices (.ofEnvironment none)).run
      [.answer 200 "\x7b\"errors\":[\x7b\"line\":1e999\x7d]\x7d"]).value = .error .infinity := by
  have hmap : (((validate (.str "a \x7b\n\x7d")).overServices (.ofEnvironment none)).run
      [.answer 200 "\x7b\"errors\":[\x7b\"line\":1e999\x7d]\x7d"]).value.map (fun _ => ()) =
        .error .infinity := by
    decide +kernel
  refine ⟨fun _ => rfl, ?_⟩
  generalize Exchange.Record.value _ = value at hmap ⊢
  cases value with
  | ok answer => cases hmap
  | error overflow =>
    cases hmap
    rfl

end Swimlane.Endpoint
