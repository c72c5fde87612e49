import Swimlane.Proofs.Endpoint.Changes
import Swimlane.Proofs.Patch.Characters

/-! Control characters in changed texts. A text that is sent loses its controls before it is changed;
the operations keep theirs, and write them. -/
namespace Swimlane.Endpoint

open Patch Service

variable {c : Char} {text : Text} {code operations : Json} {fields : List (Text × Json)}
  {questions : List Question} {batch : List Operation} {depths : Json.Depths} {sharing : Bool}
  {advisers : Advisers} {replies : List Reply}

theorem isControl_of_mem_sanitize (h : c ∈ sanitize text) : isControl c = false := by
  simpa using (List.mem_filter.1 h).2

theorem lt_of_isControl (h : isControl c = true) : c.toNat < 128 := by
  simp only [isControl, Bool.or_eq_true, Bool.and_eq_true, decide_eq_true_eq, beq_iff_eq] at h
  omega

/-- No control is a part of a name or a sign of a line. -/
theorem foreign_of_isControl (h : isControl c = true) : Foreign c := by
  have hall : ∀ number < 128, isControl (Char.ofNat number) = true →
      Foreign (Char.ofNat number) := by decide +kernel
  have hlt := lt_of_isControl h
  rw [← Char.ofNat_toNat c] at h ⊢
  exact hall c.toNat hlt h

theorem not_mem_breaks_of_isControl (h : isControl c = true) : c ∉ ['\r', '\n'] := by
  intro hm
  rcases List.mem_pair.1 hm with rfl | rfl <;> cases h

/-- The text of a request that passes the checks has no controls left. -/
theorem isControl_of_request (h : request? depths code operations = some (text, batch)) (hm : c ∈ text) :
    isControl c = false := by
  obtain ⟨sent, _, h⟩ := Option.bind_eq_some_iff.1 h
  obtain ⟨items, _, h⟩ := Option.bind_eq_some_iff.1 h
  obtain ⟨listed, _, h⟩ := Option.bind_eq_some_iff.1 h
  cases h
  exact isControl_of_mem_sanitize hm

/-- A request that succeeds has a text and operations, and answers and shares what they come to. -/
theorem request_of_success (h : (((applyChange depths sharing code operations).consult advisers).run
      replies).value = (.ok (.obj fields), questions))
    (hs : Json.field fields "success" = .bool true) : ∃ text batch result,
      request? depths code operations = some (text, batch) ∧
      applyChanges text batch = .ok result ∧
      Json.field fields "code" = .str (Text.keep result.code) ∧
      questions = if sharing then [.share result.code] else [] := by
  cases changeCourse depths code operations with
  | failed hstop hvalue =>
    rw [hstop, Consultation.consult, Exchange.run] at h
    rcases hvalue with ⟨breakdown, rfl⟩ | ⟨message, rfl⟩
    · cases h
    · cases h
      cases hs
  | @applied text batch result hrequest hresult =>
    refine ⟨text, batch, result, hrequest, hresult, ?_⟩
    rw [applyChange_of_request sharing hrequest hresult] at h
    cases sharing with
    | false =>
      cases h
      exact ⟨rfl, rfl⟩
    | true =>
      simp only [if_true, Consultation.consult, Exchange.run_bind] at h
      cases hshared : ((advisers.share result.code).run replies).value with
      | error overflow =>
        rw [hshared] at h
        cases h
      | ok shared =>
        rw [hshared] at h
        cases h
        exact ⟨rfl, rfl⟩

/-- A request whose operations come to a text succeeds with it if a wish for a link comes to a result. -/
theorem success_of_request {changed : Text} (sharing : Bool)
    (hshare : ∀ text replies, ∃ shared, ((advisers.share text).run replies).value = .ok shared)
    (replies : List Reply) (h : ((request? depths code operations).bind fun (text, batch) =>
      (applyChanges text batch).toOption.map Result.code) = some changed) :
    ∃ fields questions, (((applyChange depths sharing code operations).consult advisers).run
        replies).value = (.ok (.obj fields), questions) ∧
      Json.field fields "success" = .bool true ∧ Json.field fields "code" = .str (Text.keep changed) ∧
      questions = if sharing then [.share changed] else [] := by
  obtain ⟨⟨text, batch⟩, hrequest, hmap⟩ := Option.bind_eq_some_iff.1 h
  cases hresult : applyChanges text batch with
  | error fault => simp [hresult, Except.toOption] at hmap
  | ok result =>
    simp only [hresult, Except.toOption, Option.map_some, Option.some.injEq] at hmap
    subst hmap
    rw [applyChange_of_request sharing hrequest hresult]
    cases sharing with
    | false => exact ⟨_, _, rfl, rfl, rfl, rfl⟩
    | true =>
      obtain ⟨shared, hshared⟩ := hshare result.code replies
      simp only [if_true, Consultation.consult, Exchange.run_bind, hshared]
      exact ⟨_, _, rfl, rfl, rfl, rfl⟩

/-- A line that an operation wrote is not as it was. -/
theorem not_untouched_of_brought {events : List Event} {line : TracedLine}
    (h : Brought c batch events line.origin) : Untouched events line = false := by
  obtain ⟨number, operation, edit, event, _, _, _, hevent, horigin⟩ := h
  have hmem := List.mem_of_getElem? hevent
  cases event with
  | nothing => cases horigin
  | removed origin => cases horigin
  | inserted text => simp [Untouched, ← Option.some.inj horigin, Origin.isGiven]
  | rewritten origin text =>
    cases horigin
    have htouched : ¬ events.all (fun event => decide (event.touched? ≠ some line.origin)) = true :=
      fun hall => of_decide_eq_true (List.all_eq_true.1 hall _ hmem) rfl
    simp only [Untouched, Bool.eq_false_iff.2 htouched, Bool.and_false]

/-- Operations that write no control into any line leave a text without controls. -/
def WritesClean (operation : Operation) : Prop :=
  ∀ edit, operation.edit? = .ok edit → ∀ c ∈ edit.written, isControl c = false

/-- A change that succeeds answers and shares one text. It has no control if the operations write none,
and just if no line that they put in or wrote anew has one at the end; every control in it stands in a
line that an operation wrote with it, and a line that is put in has those of its operation. -/
theorem applyChange_controls (h : (((applyChange depths sharing code operations).consult advisers).run
      replies).value = (.ok (.obj fields), questions))
    (hs : Json.field fields "success" = .bool true) : ∃ text batch result,
      request? depths code operations = some (text, batch) ∧
      applyChanges text batch = .ok result ∧
      Json.field fields "code" = .str (Text.keep result.code) ∧
      questions = (if sharing then [.share result.code] else []) ∧
      ((∀ operation ∈ batch, WritesClean operation) → ∀ c ∈ result.code, isControl c = false) ∧
      let ledger := Ledger.ofBatch text batch
      ((∀ c ∈ result.code, isControl c = false) ↔ ∀ line ∈ ledger.lines,
        Untouched ledger.events line = false → ∀ c ∈ line.text, isControl c = false) ∧
      (∀ c ∈ result.code, isControl c = true →
        ∃ line ∈ ledger.lines, c ∈ line.text ∧ Brought c batch ledger.events line.origin) ∧
      ∀ (number : Nat) (line : Text), ledger.events[number]? = some (.inserted line) →
        ∃ operation edit, batch[number]? = some operation ∧ operation.edit? = .ok edit ∧
          ∀ c, isControl c = true → (c ∈ line ↔ c ∈ edit.written) := by
  obtain ⟨text, batch, result, hrequest, hresult, hcode, hasked⟩ := request_of_success h hs
  have hcarried : ∀ {c}, isControl c = true → Carried c batch (Ledger.ofBatch text batch) ∧
      (c ∈ result.code ↔ ∃ line ∈ (Ledger.ofBatch text batch).lines, c ∈ line.text) := by
    intro c hc
    have hclean : c ∉ text := fun hm => by
      rw [isControl_of_request hrequest hm] at hc
      cases hc
    exact carried_ofBatch (foreign_of_isControl hc) (not_mem_breaks_of_isControl hc) hclean hresult
  have hbrought : ∀ c ∈ result.code, isControl c = true → ∃ line ∈ (Ledger.ofBatch text batch).lines,
      c ∈ line.text ∧ Brought c batch (Ledger.ofBatch text batch).events line.origin := by
    intro c hm hc
    obtain ⟨line, hline, hm⟩ := (hcarried hc).2.1 hm
    exact ⟨line, hline, hm, (hcarried hc).1.brought line hline hm⟩
  refine ⟨text, batch, result, hrequest, hresult, hcode, hasked, fun hwrites c hm => ?_,
    ⟨fun hclean line hline _ c hm => ?_, fun hclean c hm => ?_⟩, hbrought,
    fun number line hevent => ?_⟩
  · refine Bool.eq_false_iff.2 fun hc => ?_
    obtain ⟨_, _, _, number, operation, edit, _, hget, hedit, hwritten, _⟩ := hbrought c hm hc
    exact Bool.eq_false_iff.1 (hwrites operation (List.mem_of_getElem? hget) edit hedit c hwritten) hc
  · refine Bool.eq_false_iff.2 fun hc => ?_
    exact Bool.eq_false_iff.1 (hclean c ((hcarried hc).2.2 ⟨line, hline, hm⟩)) hc
  · refine Bool.eq_false_iff.2 fun hc => ?_
    obtain ⟨line, hline, hm, hb⟩ := hbrought c hm hc
    exact Bool.eq_false_iff.1 (hclean line hline (not_untouched_of_brought hb) c hm) hc
  · have hdelete : isControl '\x7f' = true := by decide
    obtain ⟨operation, edit, hget, hedit, _⟩ := (hcarried hdelete).1.inserted number line hevent
    refine ⟨operation, edit, hget, hedit, fun c hc => ?_⟩
    obtain ⟨other, found, hother, hfound, hmem⟩ := (hcarried hc).1.inserted number line hevent
    cases hget.symm.trans hother
    cases hedit.symm.trans hfound
    exact hmem

/-- A lane with one node. -/
def quietCode : Json := .str "a \x7b\nn1: circle\n\x7d"

/-- A new node with a bell in its label. -/
def ringing : Json := .arr [.obj [("op".toList, .str "insertNode"), ("laneId".toList, .str "a"),
  ("newNode".toList, .obj [("label".toList, .str "go\x07on")])]]

def ringingText : Text := "a \x7b\nn1: circle\n  n2: rectangle label:\"go\x07on\"\n\x7d"

/-- Those who answer no question. -/
def silence : Advisers where
  validate _ := .done (.error (.service .timedOut))
  share _ := .done (.ok {})

theorem success_ringing : ∃ fields questions,
    (((applyChange {} true quietCode ringing).consult silence).run []).value =
      (.ok (.obj fields), questions) ∧ Json.field fields "success" = .bool true ∧
      Json.field fields "code" = .str (Text.keep ringingText) ∧ questions = [.share ringingText] :=
  success_of_request true (fun _ _ => ⟨_, rfl⟩) [] (by decide +kernel)

/-- The bell stands in a line that an operation wrote with it. -/
theorem applyChange_controls_ringing : ∃ fields questions,
    (((applyChange {} true quietCode ringing).consult silence).run []).value =
      (.ok (.obj fields), questions) ∧ Json.field fields "success" = .bool true ∧
    ∃ text batch, request? {} quietCode ringing = some (text, batch) ∧
      ∃ line ∈ (Ledger.ofBatch text batch).lines, '\x07' ∈ line.text ∧
        Brought '\x07' batch (Ledger.ofBatch text batch).events line.origin := by
  obtain ⟨fields, questions, hvalue, hsuccess, hcode, _⟩ := success_ringing
  obtain ⟨text, batch, result, hrequest, _, hchanged, _, _, _, hbrought, _⟩ :=
    applyChange_controls hvalue hsuccess
  have htext : Text.keep result.code = Text.keep ringingText :=
    Json.str.inj (hchanged.symm.trans hcode)
  have hbell : '\x07' ∈ result.code := by
    rw [← Text.mem_keep, htext]
    decide
  exact ⟨fields, questions, hvalue, hsuccess, text, batch, hrequest, hbrought _ hbell (by decide)⟩

/-- A change can succeed with a control in the text that it answers and shares. -/
theorem control_in_changed_text : ¬ ∀ (depths : Json.Depths) (sharing : Bool) (advisers : Advisers)
    (replies : List Reply) (code operations : Json) (fields : List (Text × Json))
    (questions : List Question) (text : Text),
    (((applyChange depths sharing code operations).consult advisers).run replies).value =
      (.ok (.obj fields), questions) → Json.field fields "success" = .bool true →
      Json.field fields "code" = .str text → (∀ c ∈ text, isControl c = false) ∧
        ∀ asked, .share asked ∈ questions → ∀ c ∈ asked, isControl c = false := by
  intro hclaim
  obtain ⟨fields, questions, hvalue, hsuccess, hcode, _⟩ := success_ringing
  have hclean := (hclaim {} true silence [] quietCode ringing fields questions _ hvalue hsuccess
    hcode).1
  have hbell : '\x07' ∈ Text.keep ringingText := by decide
  exact Bool.eq_false_iff.1 (hclean _ hbell) (by decide)

end Swimlane.Endpoint
