import Swimlane.Proofs.Json.Reading
import Swimlane.Proofs.Json.Strings
import Swimlane.Service.Client

/-! What is sent in a call, and what is read from the reply: an object, an error of the service, or
nothing, where the reply is nested too deep. No number in such an object has too many digits. -/
namespace Swimlane.Service

open Json (Fits Inside Overlong)

variable {room level : Nat} {reply : Reply} {fields : List (Text × Json)} {n : Int}

/-- What is sent to have a text validated. -/
def validationRequest (settings : Settings) (text : Text) : Request :=
  ⟨settings.root ++ "/api/validate", headers, Json.objectText [("code", text)], settings.timeout⟩

/-- What is sent to have a link made that asks for no view. -/
def linkRequest (settings : Settings) (text : Text) : Request :=
  ⟨settings.root ++ "/api/playground/create", headers,
    Json.objectText [("code", text), ("source", "mcp")], settings.timeout⟩

theorem request_eq (settings : Settings) (path : Text) (fields : List (Text × Text)) :
    settings.request path (.obj (Json.stringFields fields)) =
      .ok ⟨settings.root ++ path, headers, Json.objectText fields, settings.timeout⟩ := by
  rw [Settings.request, Json.compact_stringFields settings.depths.writes]
  rfl

theorem validate_eq (settings : Settings) (text : Text) : validate settings (.str text) =
    .post (validationRequest settings text) fun reply =>
      .done (readValidation settings (validationRequest settings text).url reply) := by
  have hrequest : settings.request "/api/validate" (.obj [("code", .str text)]) =
      .ok (validationRequest settings text) := request_eq settings _ [("code", text)]
  rw [validate, hrequest]

theorem createLink_eq (settings : Settings) (text : Text) : createLink settings (.str text) .null =
    .post (linkRequest settings text) fun reply =>
      .done ((readLink settings (linkRequest settings text).url reply).mapError .call) := by
  have hrequest : settings.request "/api/playground/create"
      (.obj [("code", .str text), ("source", .str "mcp")]) = .ok (linkRequest settings text) :=
    request_eq settings _ [("code", text), ("source", "mcp")]
  rw [createLink]
  dsimp only [readView, Option.toList]
  rw [List.map_nil, List.append_nil, hrequest]

/-- A reply with an object in it, which there is room to read. -/
def Gives (room : Nat) (reply : Reply) (fields : List (Text × Json)) : Prop := ∃ status body,
  reply = .answer status body ∧ status < 400 ∧ Json.readKept room body = .ok (.obj fields)

/-- A reply with JSON that there is no room to read. -/
def TooDeep (room : Nat) (reply : Reply) : Prop := ∃ status body,
  reply = .answer status body ∧ status < 400 ∧ Json.readKept room body = .error .tooDeep

/-- What the fields of a reply come to. An error of the service has a text unless it is a refusal. -/
inductive FieldsOutcome (room : Nat) (reply : Reply) :
    Except CallFailure (List (Text × Json)) → Prop
  | read {fields : List (Text × Json)} (hg : Gives room reply fields) :
      FieldsOutcome room reply (.ok fields)
  | tooDeep (hd : TooDeep room reply) : FieldsOutcome room reply (.error (.overflow (.excess .depth)))
  | unavailable {error : ServiceError} (hg : ∀ fields, ¬ Gives room reply fields)
      (hd : ¬ TooDeep room reply) (he : ∀ detail, error ≠ .refused detail) :
      FieldsOutcome room reply (.error (.service error))

theorem fieldsOutcome (room : Nat) (url : Text) (reply : Reply) :
    FieldsOutcome room reply (reply.fields room url) := by
  cases reply with
  | timedOut => exact .unavailable (by rintro _ ⟨_, _, ⟨⟩, _⟩) (by rintro ⟨_, _, ⟨⟩, _⟩) nofun
  | failed detail => exact .unavailable (by rintro _ ⟨_, _, ⟨⟩, _⟩) (by rintro ⟨_, _, ⟨⟩, _⟩) nofun
  | answer status body =>
    have hnone {error : ServiceError} (he : ∀ detail, error ≠ .refused detail)
        (hg : ∀ fields, status < 400 → Json.readKept room body ≠ .ok (.obj fields))
        (hd : status < 400 → Json.readKept room body ≠ .error .tooDeep) :
        FieldsOutcome room (.answer status body) (.error (.service error)) := by
      refine .unavailable ?_ ?_ he
      · rintro fields ⟨_, _, ⟨⟩, hstatus, hread⟩
        exact hg fields hstatus hread
      · rintro ⟨_, _, ⟨⟩, hstatus, hread⟩
        exact hd hstatus hread
    rw [Reply.fields]
    split
    · next hstatus => exact hnone nofun (fun _ hlow => by omega) fun hlow => by omega
    · next hstatus =>
      split
      · next hread => exact hnone nofun (by simp [hread]) (by simp [hread])
      · next hread => exact .tooDeep ⟨status, body, rfl, by omega, hread⟩
      · next hread => exact .read ⟨status, body, rfl, by omega, hread⟩
      · next hne hread =>
        exact hnone nofun (fun fields _ h => hne fields (Except.ok.inj (hread.symm.trans h)))
          (by simp [hread])

theorem gives_unique {other : List (Text × Json)} (hg : Gives room reply fields)
    (ho : Gives room reply other) : other = fields := by
  obtain ⟨status, body, rfl, -, hread⟩ := hg
  obtain ⟨_, _, ⟨⟩, -, hother⟩ := ho
  cases hread.symm.trans hother
  rfl

theorem not_tooDeep_of_gives (hg : Gives room reply fields) : ¬ TooDeep room reply := by
  obtain ⟨status, body, rfl, -, hread⟩ := hg
  rintro ⟨_, _, ⟨⟩, -, hdeep⟩
  cases hread.symm.trans hdeep

/-- No number inside what is read has too many digits. -/
theorem not_overlong_of_gives (hg : Gives room reply fields)
    (h : Inside (.int n) level (.obj fields)) : ¬ Overlong n := by
  obtain ⟨status, body, rfl, hstatus, hread⟩ := hg
  exact fun hn => Json.fits_of_readWith hread .digits (.digits h hn)

end Swimlane.Service
