import Swimlane.Endpoint.Answers
import Swimlane.Proofs.Text.Blanks

/-! The texts that an endpoint hands on to its advisers. A text is checked first and loses its controls
then, so what is handed on is short and has none, but it can be blank. -/
namespace Swimlane.Endpoint

open Service Text

variable {α : Type} {p : Text → Prop} {sent handed : Text} {code : Json} {advisers : Advisers}
  {replies : List Reply} {question : Question}

/-- The text that goes with a question. -/
def Question.text : Question → Text
  | .validate code => code
  | .share code => code

namespace Consultation

variable {consultation : Consultation α}

/-- The questions that are put to the advisers, in order. -/
def asked (consultation : Consultation α) (advisers : Advisers) (replies : List Reply) :
    List Question :=
  ((consultation.consult advisers).run replies).value.2

theorem asked_validate (next : Except CallFailure Validation → Consultation α) :
    (validate handed next).asked advisers replies =
      let result := (advisers.validate handed).run replies
      .validate handed :: (next result.value).asked advisers result.replies := by
  simp only [asked, consult, Exchange.run_bind, Exchange.run]

theorem asked_share (next : Except Overflow Shared → Consultation α) :
    (share handed next).asked advisers replies =
      let shared := (advisers.share handed).run replies
      .share handed :: (next shared.value).asked advisers shared.replies := by
  simp only [asked, consult, Exchange.run_bind, Exchange.run]

/-- Every text that can be handed on has a property, whatever is answered. -/
def HandsOn (p : Text → Prop) : Consultation α → Prop
  | .answer _ => True
  | .validate code next => p code ∧ ∀ result, (next result).HandsOn p
  | .share code next => p code ∧ ∀ shared, (next shared).HandsOn p

/-- What holds of every text that can be handed on holds of those that are. -/
theorem HandsOn.of_mem (h : consultation.HandsOn p)
    (hq : question ∈ consultation.asked advisers replies) : p question.text := by
  induction consultation generalizing replies with
  | answer value => cases hq
  | validate code next ih =>
    rw [asked_validate] at hq
    rcases List.mem_cons.1 hq with rfl | hq
    · exact h.1
    · exact ih _ (h.2 _) hq
  | share code next ih =>
    rw [asked_share] at hq
    rcases List.mem_cons.1 hq with rfl | hq
    · exact h.1
    · exact ih _ (h.2 _) hq

end Consultation

theorem sanitize_sanitize (text : Text) : sanitize (sanitize text) = sanitize text := by
  simp [sanitize]

theorem length_sanitize_le (text : Text) : (sanitize text).length ≤ text.length :=
  List.length_filter_le _ _

/-- A text that has a sign besides blanks and controls. -/
def Legible (text : Text) : Prop := ∃ c ∈ text, isBlank c = false ∧ isControl c = false

instance : DecidablePred Legible := fun text =>
  decidable_of_iff (text.any fun c => !isBlank c && !isControl c) (by simp [Legible])

/-- Without its controls a text is blank unless it is legible. -/
theorem trim_sanitize_eq_nil_iff : trim (sanitize sent) = [] ↔ ¬ Legible sent := by
  rw [trim_eq_nil_iff]
  constructor
  · rintro h ⟨c, hc, hb, hs⟩
    have hkept : c ∈ sanitize sent := List.mem_filter.2 ⟨hc, by simp [hs]⟩
    rw [h c hkept] at hb
    cases hb
  · intro h c hc
    obtain ⟨hc, hs⟩ := List.mem_filter.1 hc
    by_contra hb
    exact h ⟨c, hc, by simpa using hb, by simpa using hs⟩

theorem checkCode_eq_ok : checkCode false code = .ok sent ↔
    code = .str sent ∧ trim sent ≠ [] ∧ sent.length ≤ maxCodeLength := by
  cases code with
  | str text =>
    simp only [checkCode, Bool.not_false, Bool.true_and, List.isEmpty_iff, Json.str.injEq]
    constructor
    · intro h
      split at h
      · cases h
      · next hwritten =>
        split at h
        · cases h
        · next hshort =>
          cases h
          exact ⟨rfl, hwritten, Nat.le_of_not_lt hshort⟩
    · rintro ⟨rfl, hwritten, hshort⟩
      rw [if_neg hwritten, if_neg (Nat.not_lt_of_le hshort)]
  | _ => simp [checkCode]

/-- Of a text that is short enough a legible one still passes the check without its controls, and any
other is refused as blank. -/
theorem checkCode_sanitize (h : sent.length ≤ maxCodeLength) :
    checkCode false (.str (sanitize sent)) =
      if Legible sent then .ok (sanitize sent) else .error .blank := by
  split
  · next hl =>
    have hne : trim (sanitize sent) ≠ [] := fun hnil => trim_sanitize_eq_nil_iff.1 hnil hl
    exact checkCode_eq_ok.2 ⟨rfl, hne, (length_sanitize_le sent).trans h⟩
  · next hl =>
    rw [checkCode, trim_sanitize_eq_nil_iff.2 hl]
    rfl

/-- What is handed on of a value: the text in it, checked, without its controls. -/
def Remains (code : Json) (handed : Text) : Prop :=
  ∃ sent, checkCode false code = .ok sent ∧ handed = sanitize sent

theorem handsOn_validate (code : Json) : (validate code).HandsOn (Remains code) := by
  rw [validate]
  cases hc : checkCode false code with
  | error flaw => trivial
  | ok sent => exact ⟨⟨sent, hc, rfl⟩, fun _ => trivial⟩

theorem handsOn_createPlayground (code : Json) : (createPlayground code).HandsOn (Remains code) := by
  rw [createPlayground]
  cases hc : checkCode false code with
  | error flaw => trivial
  | ok sent =>
    have hremains : Remains code (sanitize sent) := ⟨sent, hc, rfl⟩
    refine ⟨hremains, fun result => ?_⟩
    dsimp only
    split
    · trivial
    · trivial
    · split
      · exact ⟨hremains, fun _ => trivial⟩
      · trivial

/-- A text that passes the check is sent to be validated. -/
theorem validate_mem_asked (hc : checkCode false code = .ok sent) (advisers : Advisers)
    (replies : List Reply) : .validate (sanitize sent) ∈ (validate code).asked advisers replies ∧
      .validate (sanitize sent) ∈ (createPlayground code).asked advisers replies := by
  simp only [validate, createPlayground, hc, Consultation.asked_validate, List.mem_cons_self, and_self]

/-- An adviser gets to see a text only if it was checked, and then without its controls. The text is
short enough and has no controls to take out; it passes the check once more just if the text that was
checked is legible, and is blank otherwise. Each text that passes the check is handed on. -/
theorem texts_handed_on (advisers : Advisers) (replies : List Reply) (code : Json) :
    (∀ question ∈ (validate code).asked advisers replies ++
        (createPlayground code).asked advisers replies, ∃ sent, checkCode false code = .ok sent ∧
      question.text = sanitize sent ∧ sanitize question.text = question.text ∧
      question.text.length ≤ maxCodeLength ∧
      checkCode false (.str question.text) =
        if Legible sent then .ok question.text else .error .blank) ∧
    ∀ sent, checkCode false code = .ok sent →
      .validate (sanitize sent) ∈ (validate code).asked advisers replies ∧
      .validate (sanitize sent) ∈ (createPlayground code).asked advisers replies := by
  refine ⟨fun question hq => ?_, fun sent hc => validate_mem_asked hc advisers replies⟩
  have hremains : Remains code question.text :=
    (List.mem_append.1 hq).elim (handsOn_validate code).of_mem (handsOn_createPlayground code).of_mem
  obtain ⟨sent, hc, heq⟩ := hremains
  have hshort : sent.length ≤ maxCodeLength := (checkCode_eq_ok.1 hc).2.2
  rw [heq]
  exact ⟨sent, hc, rfl, sanitize_sanitize sent, (length_sanitize_le sent).trans hshort,
    checkCode_sanitize hshort⟩

/-- Those who find every text valid and make the same link for each. -/
def approvers : Advisers where
  validate _ := .done (.ok ⟨true, [], [], none⟩)
  share _ := .done (.ok { url := some "https://x/1" })

/-- A lane with a bell in its block. -/
def bellCode : Text := "a \x7b\x07\x7d"

/-- The lane without the bell is handed on twice, and still passes the check. -/
theorem texts_handed_on_bell : checkCode false (.str bellCode) = .ok bellCode ∧
    (∃ question ∈ (validate (.str bellCode)).asked approvers [] ++
        (createPlayground (.str bellCode)).asked approvers [],
      question = .share "a \x7b\x7d" ∧ sanitize question.text = question.text ∧
      question.text.length ≤ maxCodeLength ∧
      checkCode false (.str question.text) = .ok "a \x7b\x7d") ∧
    .validate (sanitize bellCode) ∈ (createPlayground (.str bellCode)).asked approvers [] := by
  have hpasses : checkCode false (.str bellCode) = .ok bellCode :=
    checkCode_eq_ok.2 ⟨rfl, by decide, by decide⟩
  have hasked : .share "a \x7b\x7d" ∈ (validate (.str bellCode)).asked approvers [] ++
      (createPlayground (.str bellCode)).asked approvers [] := by decide
  obtain ⟨hseen, hsent⟩ := texts_handed_on approvers [] (.str bellCode)
  obtain ⟨sent, hc, -, hclean, hshort, hagain⟩ := hseen _ hasked
  obtain rfl : bellCode = sent := Except.ok.inj (hpasses.symm.trans hc)
  exact ⟨hpasses, ⟨_, hasked, rfl, hclean, hshort, hagain.trans (if_pos (by decide))⟩,
    (hsent _ hpasses).2⟩

/-- A text of one control passes the check, and a blank text is handed on. -/
theorem blank_text_handed_on : ¬ ∀ (advisers : Advisers) (replies : List Reply) (code : Json)
    (question : Question), question ∈ (validate code).asked advisers replies ++
      (createPlayground code).asked advisers replies →
    checkCode false (.str question.text) = .ok question.text ∧
      sanitize question.text = question.text := by
  intro hclaim
  have hasked : .validate [] ∈ (validate (.str ['\x00'])).asked approvers [] ++
      (createPlayground (.str ['\x00'])).asked approvers [] := by
    decide
  cases (hclaim approvers [] _ _ hasked).1

end Swimlane.Endpoint
