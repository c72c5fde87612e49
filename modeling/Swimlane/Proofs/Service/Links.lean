import Swimlane.Proofs.Service.Calls

/-! What the service that makes links can do: give a link that leads to itself, or an error with a
text, or a reply that is nested too deep. -/
namespace Swimlane

open Text

theorem Text.ofInt_ne_nil (n : Int) : ofInt n ≠ [] := by
  rw [ofInt]
  split
  · simp
  · exact Nat.toDigits_ne_nil

namespace Double

theorem layout_ne_nil (digits : Text) (point : Int) : layout digits point ≠ [] := by
  rw [layout]
  split
  · split <;> simp
  · simp

theorem text_ne_nil (value : Double) : value.text ≠ [] := by
  cases value with
  | finite negative significand exponent =>
    rw [text]
    dsimp only
    split
    · simp
    · split
      · decide
      · exact layout_ne_nil _ _
  | infinite negative => cases negative <;> decide
  | notANumber => decide

end Double

namespace Json

theorem literalWith_ne_nil {quote : Text → Text} (hq : ∀ text, quote text ≠ []) {room : Nat}
    {value : Json} {text : Text} (h : literalWith quote room value = .ok text) : text ≠ [] := by
  cases room with
  | zero =>
    rw [literalWith] at h
    cases h
  | succ room =>
    cases value with
    | null =>
      cases h
      decide
    | bool value =>
      cases value <;>
        · cases h
          decide
    | int value =>
      rw [literalWith, intText] at h
      split at h
      · cases h
      · cases h
        exact ofInt_ne_nil value
    | float value =>
      cases h
      exact value.text_ne_nil
    | str text =>
      cases h
      exact hq text
    | arr items | obj fields =>
      rw [literalWith] at h
      obtain ⟨parts, -, ⟨⟩⟩ := bind_eq_ok.1 h
      simp

/-- A value that holds has no empty text. -/
theorem displayKept_ne_nil {room : Nat} {value : Json} {text : Text} (hv : value.holds = true)
    (h : value.displayKept room = .ok text) : text ≠ [] := by
  cases value with
  | str text =>
    cases h
    simpa [holds] using hv
  | _ => exact literalWith_ne_nil (by simp [quoteKept]) h

end Json

namespace Service

variable {settings : Settings} {depths : Json.Depths} {reply : Reply} {error : ServiceError}
  {fields : List (Text × Json)} {value : Json}

/-- An error has a text if that of a refusal is not empty. -/
theorem message_ne_nil (h : error ≠ .refused []) : error.message ≠ [] := by
  have hstart : ∀ {start rest : Text}, start ≠ [] → start ++ rest ≠ [] :=
    fun hne => List.append_ne_nil_of_left_ne_nil hne _
  cases error with
  | timedOut => decide
  | requestFailed url detail => exact hstart (hstart (hstart (by decide)))
  | status code => exact hstart (by decide)
  | undecodable url error => exact hstart (hstart (hstart (by decide)))
  | notAnObject url => exact hstart (hstart (by decide))
  | refused detail => exact fun hnil => h (congrArg ServiceError.refused hnil)
  | foreignUrl => decide

/-- The value of which a reply makes a text: its link, or its error if it has no link. -/
inductive Tells (fields : List (Text × Json)) : Json → Prop
  | link (hl : (Json.field fields "url").holds = true) : Tells fields (Json.field fields "url")
  | error (hl : (Json.field fields "url").holds = false)
      (he : (Json.field fields "error").holds = true) : Tells fields (Json.field fields "error")

/-- A reply that is nested too deep to be read, or tells a value that is nested too deep for a text. -/
def Unreadable (depths : Json.Depths) (reply : Reply) : Prop := TooDeep depths.reading reply ∨
  ∃ fields value, Gives depths.reading reply fields ∧ Tells fields value ∧
    Json.Unshown depths.showing value .depth

/-- What a reply to a wish for a link is read as: a link that leads to the service, an error with a text,
or nothing. -/
inductive LinkRead (settings : Settings) (reply : Reply) : Except CallFailure Text → Prop
  | linked (rest : Text) (hr : ¬ Unreadable settings.depths reply) :
      LinkRead settings reply (.ok (settings.root ++ '/' :: rest))
  | refused {error : ServiceError} (he : error.message ≠ [])
      (hr : ¬ Unreadable settings.depths reply) : LinkRead settings reply (.error (.service error))
  | unread (hr : Unreadable settings.depths reply) :
      LinkRead settings reply (.error (.overflow (.excess .depth)))

theorem unreadable_iff (hg : Gives depths.reading reply fields) : Unreadable depths reply ↔
    ∃ value, Tells fields value ∧ Json.Unshown depths.showing value .depth := by
  constructor
  · rintro (hd | ⟨other, value, ho, ht, hu⟩)
    · exact absurd hd (not_tooDeep_of_gives hg)
    · rw [gives_unique hg ho] at ht
      exact ⟨value, ht, hu⟩
  · rintro ⟨value, ht, hu⟩
    exact .inr ⟨fields, value, hg, ht, hu⟩

theorem Tells.unique {other : Json} (h : Tells fields value) (ho : Tells fields other) :
    other = value := by
  cases h with
  | link hl | error hl =>
    cases ho with
    | link hother | error hother =>
      first | rfl | cases hl.symm.trans hother

theorem Tells.holds (h : Tells fields value) : value.holds = true := by
  cases h with
  | link hl => exact hl
  | error _ he => exact he

theorem Tells.inside (h : Tells fields value) : Json.Inside value 1 (.obj fields) := by
  have hne : value ≠ .null := by
    rintro rfl
    cases h.holds
  cases h with
  | link | error => exact Json.inside_of_field rfl hne

/-- The text that a reply tells, unless the value is nested too deep for one. -/
theorem Tells.textOf_cases (hg : Gives depths.reading reply fields) (h : Tells fields value) :
    (∃ text, textOf depths.showing value = .ok text ∧ text ≠ [] ∧ ¬ Unreadable depths reply) ∨
    textOf depths.showing value = .error (.excess .depth) ∧ Unreadable depths reply := by
  have hfails := Json.displayWith_failsBy Json.quoteKept depths.showing value
  cases hshown : value.displayKept depths.showing with
  | ok text =>
    refine .inl ⟨text, mapError_eq_ok.2 hshown, Json.displayKept_ne_nil h.holds hshown, ?_⟩
    rw [unreadable_iff hg]
    rintro ⟨other, ho, hu⟩
    rw [h.unique ho] at hu
    exact hfails.of_ok text hshown .depth hu
  | error excess =>
    have hu : Json.Unshown depths.showing value excess := hfails.of_error excess hshown
    cases excess with
    | depth => exact .inr ⟨by rw [textOf, hshown]; rfl, (unreadable_iff hg).2 ⟨value, h, hu⟩⟩
    | digits =>
      obtain ⟨-, hn, hlong⟩ := hu
      exact absurd hlong (not_overlong_of_gives hg (hn.trans h.inside))

theorem linkRead (settings : Settings) (url : Text) (reply : Reply) :
    LinkRead settings reply (readLink settings url reply) := by
  have houtcome := fieldsOutcome settings.depths.reading url reply
  rw [readLink]
  generalize reply.fields _ _ = result at houtcome ⊢
  cases houtcome with
  | tooDeep hd => exact .unread (.inl hd)
  | unavailable hg hd he =>
    refine .refused (message_ne_nil (he [])) ?_
    rintro (hdeep | ⟨fields, value, hgives, -⟩)
    · exact hd hdeep
    · exact hg fields hgives
  | @read fields hg =>
    dsimp only [bind, Except.bind]
    cases hl : (Json.field fields "url").holds with
    | false =>
      cases he : (Json.field fields "error").holds with
      | true =>
        have htells : Tells fields (Json.field fields "error") := .error hl he
        rcases htells.textOf_cases hg with ⟨text, htext, hne, hr⟩ | ⟨htext, hr⟩ <;> rw [htext]
        · exact .refused (message_ne_nil (by simpa using hne)) hr
        · exact .unread hr
      | false =>
        refine .refused (by decide) ?_
        rw [unreadable_iff hg]
        rintro ⟨value, ht, -⟩
        cases ht with
        | link hlink => cases hl.symm.trans hlink
        | error _ herror => cases he.symm.trans herror
    | true =>
      have htells : Tells fields (Json.field fields "url") := .link hl
      rcases htells.textOf_cases hg with ⟨text, htext, -, hr⟩ | ⟨htext, hr⟩ <;> rw [htext]
      · change LinkRead settings reply (if (settings.root ++ "/").isPrefixOf text then _ else _)
        split
        · next hprefix =>
          obtain ⟨rest, rfl⟩ := List.isPrefixOf_iff_prefix.1 hprefix
          rw [List.append_assoc]
          exact .linked rest hr
        · exact .refused (by decide) hr
      · exact .unread hr

/-- What comes of a wish for a link: a link, an error with a text, or nothing. -/
inductive ShareOutcome (settings : Settings) (reply : Reply) : Except Overflow Shared → Prop
  | linked (rest : Text) (hr : ¬ Unreadable settings.depths reply) :
      ShareOutcome settings reply (.ok { url := some (settings.root ++ '/' :: rest) })
  | failed {message : Text} (hm : message ≠ []) (hr : ¬ Unreadable settings.depths reply) :
      ShareOutcome settings reply (.ok { error := some message })
  | unread (hr : Unreadable settings.depths reply) :
      ShareOutcome settings reply (.error (.excess .depth))

/-- One request is sent for a link, and its reply decides what comes of it. -/
theorem run_share (settings : Settings) (text : Text) (replies : List Reply) : ∃ shared warnings,
    (share settings (.str text) .null).run replies =
      ⟨shared, [linkRequest settings text], warnings, replies.tail⟩ ∧
    ShareOutcome settings (replies.headD (.failed [])) shared := by
  have hread := linkRead settings (linkRequest settings text).url (replies.headD (.failed []))
  rw [share, createLink_eq]
  simp only [bind, Exchange.bind, Exchange.run]
  generalize readLink _ _ _ = result at hread ⊢
  cases hread with
  | linked rest hr => exact ⟨_, _, rfl, .linked rest hr⟩
  | refused he hr => exact ⟨_, _, rfl, .failed he hr⟩
  | unread hr => exact ⟨_, _, rfl, .unread hr⟩

end Service

end Swimlane
