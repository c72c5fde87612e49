import Swimlane.Endpoint.Answers
import Swimlane.Proofs.Endpoint.Consultation
import Swimlane.Proofs.Json.Strings
import Swimlane.Proofs.Service.Validation

/-! A link is asked for only once the text is found valid, and what is sent holds the same text. -/
namespace Swimlane.Endpoint

open Service

variable {settings : Settings} {code : Json} {replies : List Reply} {reply : Reply} {text url : Text}
  {validation : Validation} {fields : List (Text × Json)} {outcome : LinkOutcome}

/-- A reply in which the service finds a diagram valid. -/
def Approves (room : Nat) (reply : Reply) : Prop := ∃ status body fields,
  reply = .answer status body ∧ status < 400 ∧ Json.readKept room body = .ok (.obj fields) ∧
    (Json.field fields "valid").holds = true

/-- A validation with a good result comes from a reply that approves. -/
theorem approves_of_readValidation (h : readValidation settings url reply = .ok validation)
    (hv : validation.valid = true) : Approves settings.depths.reading reply := by
  have houtcome := validationOutcome settings url reply
  rw [h] at houtcome
  cases houtcome with
  | read hg ho hr =>
    obtain ⟨status, body, hreply, hstatus, hread⟩ := hg
    exact ⟨status, body, _, hreply, hstatus, hread, hr.valid ▸ hv⟩

/-- The ways that a wish for a link can go: the text is refused, it is sent to be checked and no link
is made, or it is approved and sent again. -/
inductive Course (settings : Settings) (code : Json) (replies : List Reply) :
    Exchange.Record (Except Overflow LinkOutcome) → Prop
  | refused {flaw : CodeFlaw} (hc : checkCode false code = .error flaw) :
      Course settings code replies ⟨.ok (.flawed flaw), [], [], replies⟩
  | checked {text : Text} {value : Except Overflow LinkOutcome} (hc : checkCode false code = .ok text)
      (hv : ∀ url, value ≠ .ok (.linked url)) : Course settings code replies
        ⟨value, [validationRequest settings (Text.keep (sanitize text))], [], replies.tail⟩
  | shared {text : Text} {value : Except Overflow LinkOutcome} {warnings : List Text}
      (hc : checkCode false code = .ok text)
      (ha : Approves settings.depths.reading (replies.headD (.failed [])))
      (hv : ∀ url, value = .ok (.linked url) → ∃ rest, url = settings.root ++ '/' :: rest) :
      Course settings code replies ⟨value, [validationRequest settings (Text.keep (sanitize text)),
        linkRequest settings (Text.keep (sanitize text))], warnings, replies.tail.tail⟩

/-- What follows an approval: one more request, and success with a link to the service only. -/
theorem course_of_share {next : Shared → LinkOutcome}
    (hc : checkCode false code = .ok text)
    (ha : Approves settings.depths.reading (replies.headD (.failed [])))
    (hlink : ∀ rest url, next { url := some (settings.root ++ '/' :: rest) } = .linked url →
      url = settings.root ++ '/' :: rest)
    (herror : ∀ message url, next { error := some message } ≠ .linked url) :
    let record := ((Consultation.share (sanitize text) fun shared =>
      .answer (shared.map next)).overServices settings).run replies.tail
    Course settings code replies { record with
      requests := validationRequest settings (Text.keep (sanitize text)) :: record.requests } := by
  obtain ⟨shared, warnings, hrun, hshared⟩ := Consultation.run_share settings (sanitize text)
    (fun shared => .answer (shared.map next)) replies.tail
  dsimp only
  rw [hrun]
  refine .shared hc ha fun url hurl => ?_
  rw [Consultation.run_answer] at hurl
  cases hshared with
  | linked rest => exact ⟨rest, hlink rest url (Except.ok.inj hurl)⟩
  | failed => exact absurd (Except.ok.inj hurl) (herror _ url)
  | unread => cases hurl

theorem course_createPlayground (settings : Settings) (code : Json) (replies : List Reply) :
    Course settings code replies (((createPlayground code).overServices settings).run replies) := by
  rw [createPlayground]
  cases hc : checkCode false code with
  | error flaw => exact .refused hc
  | ok text =>
    dsimp only
    rw [Consultation.run_validate]
    dsimp only
    split
    · exact .checked hc (by simp [Consultation.run_answer])
    · exact .checked hc (by simp [Consultation.run_answer])
    · next validation hvalidation =>
      split
      · next hvalid =>
        refine course_of_share hc (approves_of_readValidation hvalidation hvalid) ?_ ?_
        · intro rest url hurl
          simpa [Text.nonempty?, eq_comm] using hurl
        · simp
      · exact .checked hc (by simp [Consultation.run_answer])

theorem exists_of_approves {room : Nat} (h : Approves room (replies.headD (.failed []))) :
    ∃ reply, replies[0]? = some reply ∧ Approves room reply := by
  cases replies with
  | nil =>
    obtain ⟨status, body, fields, hreply, _⟩ := h
    cases hreply
  | cons reply rest => exact ⟨reply, rfl, h⟩

/-- A request that holds a text under the name of the diagram, and can be read with any room. -/
def Carries (request : Request) (text : Text) : Prop := ∃ fields,
  (∀ room, Json.read (room + 1) request.body = .ok (.obj fields)) ∧
    Json.field fields "code" = .str text

theorem carries_validationRequest (settings : Settings) (text : Text) :
    Carries (validationRequest settings (Text.keep text)) text :=
  ⟨_, Json.read_objectText (List.cons_ne_nil ("code".toList, text) []) (List.nodup_singleton _), rfl⟩

theorem carries_linkRequest (settings : Settings) (text : Text) :
    Carries (linkRequest settings (Text.keep text)) text := by
  have hnames : ["code".toList, "source".toList].Nodup := by decide
  exact ⟨_, Json.read_objectText
    (List.cons_ne_nil ("code".toList, text) [("source".toList, "mcp".toList)]) hnames, rfl⟩

theorem url_linkRequest_ne (settings : Settings) (text other : Text) :
    (linkRequest settings text).url ≠ (validationRequest settings other).url := by
  have hpaths : "/api/playground/create".toList ≠ "/api/validate".toList := by decide
  exact fun h => hpaths (List.append_cancel_left h)

/-- An answer that tells of success tells of a link. -/
theorem linked_of_success (h : outcome.toJson = .obj fields)
    (hs : (Json.field fields "success").holds = true) :
    ∃ url, outcome = .linked url ∧ Json.field fields "url" = .str url := by
  cases outcome with
  | linked url =>
    cases h
    exact ⟨url, rfl, rfl⟩
  | _ =>
    cases h
    cases hs

namespace Course

variable {record : Exchange.Record (Except Overflow LinkOutcome)} {request : Request} {place : Nat}

/-- The request for a link is the second one, and the reply to the first one approves. -/
theorem asked_before (h : Course settings code replies record)
    (hr : record.requests[place]? = some request)
    (hu : request.url = settings.root ++ "/api/playground/create".toList) :
    ∃ (earlier : Nat) (asked : Request) (reply : Reply), earlier < place ∧
      record.requests[earlier]? = some asked ∧
      asked.url = settings.root ++ "/api/validate".toList ∧
      replies[earlier]? = some reply ∧ Approves settings.depths.reading reply := by
  have hne (text : Text) : validationRequest settings text ≠ request := by
    rintro rfl
    exact url_linkRequest_ne settings [] _ hu.symm
  cases h with
  | refused hc => simp at hr
  | checked hc hv =>
    rw [List.getElem?_singleton] at hr
    split at hr
    · exact absurd (Option.some.inj hr) (hne _)
    · cases hr
  | shared hc ha hv =>
    obtain ⟨reply, hreply, happroves⟩ := exists_of_approves ha
    match place with
    | 0 => exact absurd (Option.some.inj hr) (hne _)
    | place + 1 => exact ⟨0, _, reply, place.succ_pos, rfl, rfl, hreply, happroves⟩

theorem url_mem (h : Course settings code replies record) (hr : request ∈ record.requests) :
    request.url = settings.root ++ "/api/validate".toList ∨
      request.url = settings.root ++ "/api/playground/create".toList := by
  cases h with
  | refused hc => simp at hr
  | checked hc hv =>
    rw [List.mem_singleton.1 hr]
    exact Or.inl rfl
  | shared hc ha hv =>
    rcases List.mem_pair.1 hr with rfl | rfl
    · exact Or.inl rfl
    · exact Or.inr rfl

theorem urls_nodup (h : Course settings code replies record) :
    (record.requests.map (·.url)).Nodup := by
  cases h with
  | refused hc => exact List.nodup_nil
  | checked hc hv => exact List.nodup_singleton _
  | shared hc ha hv =>
    refine List.nodup_cons.2 ⟨fun hmem => ?_, List.nodup_singleton _⟩
    exact url_linkRequest_ne settings _ _ (List.mem_singleton.1 hmem).symm

theorem carries (h : Course settings code replies record) (hr : request ∈ record.requests) :
    ∃ text, checkCode false code = .ok text ∧ Carries request (sanitize text) := by
  cases h with
  | refused hc => simp at hr
  | checked hc hv =>
    rw [List.mem_singleton.1 hr]
    exact ⟨_, hc, carries_validationRequest settings _⟩
  | shared hc ha hv =>
    rcases List.mem_pair.1 hr with rfl | rfl
    · exact ⟨_, hc, carries_validationRequest settings _⟩
    · exact ⟨_, hc, carries_linkRequest settings _⟩

theorem linked (h : Course settings code replies record) (hv : record.value = .ok (.linked url)) :
    ∃ rest, url = settings.root ++ '/' :: rest := by
  cases h with
  | refused hc => cases hv
  | checked hc hne => exact absurd hv (hne url)
  | shared hc ha hlink => exact hlink url hv

end Course

/-- A text that was not found valid is never shared: a link is asked for after an earlier request to
validate was approved. Each of the two requests is sent once at most, both hold the checked text
without its controls, and success comes with a link to the service. -/
theorem shares_only_validated (settings : Settings) (code : Json) (replies : List Reply) :
    let record := ((createPlayground code).overServices settings).run replies
    (∀ (place : Nat) (request : Request), record.requests[place]? = some request →
      request.url = settings.root ++ "/api/playground/create".toList →
      ∃ (earlier : Nat) (asked : Request) (reply : Reply), earlier < place ∧
        record.requests[earlier]? = some asked ∧
        asked.url = settings.root ++ "/api/validate".toList ∧
        replies[earlier]? = some reply ∧ Approves settings.depths.reading reply) ∧
    (∀ request ∈ record.requests, request.url = settings.root ++ "/api/validate".toList ∨
      request.url = settings.root ++ "/api/playground/create".toList) ∧
    (record.requests.map (·.url)).Nodup ∧
    (∀ request ∈ record.requests, ∃ text, checkCode false code = .ok text ∧
      Carries request (sanitize text)) ∧
    ∀ outcome fields, record.value = .ok outcome → outcome.toJson = .obj fields →
      (Json.field fields "success").holds = true →
      ∃ rest, Json.field fields "url" = .str (settings.root ++ '/' :: rest) := by
  intro record
  have h : Course settings code replies record := course_createPlayground settings code replies
  refine ⟨fun place request => h.asked_before, fun request => h.url_mem, h.urls_nodup,
    fun request => h.carries, fun outcome fields hv ho hs => ?_⟩
  obtain ⟨url, rfl, hurl⟩ := linked_of_success ho hs
  obtain ⟨rest, rfl⟩ := h.linked hv
  exact ⟨rest, hurl⟩

/-- An approved text is sent twice, and the link to it is handed on. -/
example :
    let record := ((createPlayground (.str "a \x7b\x7d")).overServices { root := "https://x" }).run
      [.answer 200 "\x7b\"valid\": true\x7d", .answer 200 "\x7b\"url\": \"https://x/1\"\x7d"]
    record.requests.length = 2 ∧
      record.value.toOption.map LinkOutcome.message = some "https://x/1".toList := by
  decide +kernel

end Swimlane.Endpoint
