import Swimlane.Proofs.Patch.Provenance

/-! The characters of an edited text: a character that is part of no name and no sign of a line comes
into the line with the texts that an operation writes there, or stood in the line before. -/
namespace Swimlane.Patch

open Text Line Escaped

variable {c : Char} {session after last : Session} {edit : Edit} {operation : Operation}
  {done operations : List Operation} {entry : Entry} {entries : List Entry} {splice : Splice}
  {text line new id source sourceHandle target targetHandle key value : Text}
  {label : Option Text} {shape : Shape} {attributes updates : List (Text × Text)} {position : Int}
  {ledger next : Ledger} {event : Event} {events : List Event} {origin : Origin} {result : Result}

/-- A character that no line has of itself: it is part of no name, and of none of the signs around
names and values. -/
structure Foreign (c : Char) : Prop where
  word : isWord c = false
  signs : c ∉ " .handle()->[label=\"]:\\".toList

instance : DecidablePred Foreign := fun c =>
  decidable_of_iff (isWord c = false ∧ c ∉ " .handle()->[label=\"]:\\".toList)
    ⟨fun ⟨hword, hsigns⟩ => ⟨hword, hsigns⟩, fun h => ⟨h.word, h.signs⟩⟩

/-- The keys of attributes, and the values as they survive writing. -/
def attributesText (attributes : List (Text × Text)) : Text :=
  attributes.flatMap fun entry => entry.1 ++ normal entry.2

/-- All that an edit writes of its operation: the keys and values of a node, the target of an edge,
its handles and its label. -/
def Edit.written : Edit → Text
  | .insertNode _ _ label properties _ _ => attributesText (Session.newAttributes label properties)
  | .updateNode _ updates => attributesText updates.entries
  | .insertEdge added => added.target ++ added.sourceHandle ++ added.targetHandle ++
      (added.label.map normal).getD []
  | .removeNode _ | .removeEdge _ _ => []

theorem mem_attributesText :
    c ∈ attributesText attributes ↔ ∃ entry ∈ attributes, c ∈ entry.1 ∨ c ∈ normal entry.2 := by
  simp only [attributesText, List.mem_flatMap, List.mem_append]

namespace Foreign

theorem ne_of_mem (h : Foreign c) (sign : Char) (hs : sign ∈ " .handle()->[label=\"]:\\".toList) :
    c ≠ sign :=
  fun he => h.signs (he ▸ hs)

theorem not_mem_of_subset (h : Foreign c) {signs : Text}
    (hs : signs ⊆ " .handle()->[label=\"]:\\".toList) : c ∉ signs :=
  fun hm => h.signs (hs hm)

theorem not_mem_name (h : Foreign c) (hn : IsName id) : c ∉ id := by
  intro hm
  have hword := hn.2 c hm
  rw [h.word] at hword
  cases hword

theorem mem_escape (h : Foreign c) : c ∈ escape text ↔ c ∈ text := by
  refine ⟨fun hm => (mem_of_mem_escape hm).resolve_left (h.ne_of_mem _ (by decide)), fun hm => ?_⟩
  refine List.mem_flatMap.2 ⟨c, hm, ?_⟩
  rw [escapeChar]
  split <;> simp

theorem mem_writtenValue (h : Foreign c) : c ∈ writtenValue value ↔ c ∈ normal value := by
  have hcolon := h.ne_of_mem ':' (by decide)
  have hmark := h.ne_of_mem '"' (by decide)
  simp [writtenValue, encode_eq, h.mem_escape, hcolon, hmark]

/-- The line of a new node has the character if the node's attributes do. -/
theorem mem_renderNode (h : Foreign c) (hid : IsName id) :
    c ∈ renderNode id shape attributes ↔ c ∈ attributesText attributes := by
  have hblank := h.ne_of_mem ' ' (by decide)
  have hcolon := h.ne_of_mem ':' (by decide)
  have hindent : c ∉ indent := h.not_mem_of_subset (by decide)
  rw [renderNode_eq, mem_attributesText]
  simp only [renderAttribute_eq, List.mem_append, List.mem_cons, List.mem_flatMap,
    h.mem_writtenValue, h.not_mem_name hid, h.not_mem_name (isName_name shape), hindent, hblank,
    hcolon, List.not_mem_nil, false_or]

theorem mem_writtenLabel (h : Foreign c) :
    c ∈ writtenLabel label ↔ c ∈ (label.map normal).getD [] := by
  cases label with
  | none => simp [writtenLabel]
  | some label =>
    have hstart : c ∉ labelStart := h.not_mem_of_subset (by decide)
    have hblank := h.ne_of_mem ' ' (by decide)
    have hsign := h.ne_of_mem '=' (by decide)
    have hmark := h.ne_of_mem '"' (by decide)
    have hclose := h.ne_of_mem ']' (by decide)
    simp [writtenLabel, encode_eq, h.mem_escape, hstart, hblank, hsign, hmark, hclose]

/-- The line of a new edge has the character if its target, its handles or its label do. -/
theorem mem_renderEdge (h : Foreign c) (hs : c ∉ source) :
    c ∈ renderEdge source sourceHandle target targetHandle label ↔
      c ∈ target ++ sourceHandle ++ targetHandle ++ (label.map normal).getD [] := by
  have hindent : c ∉ indent := h.not_mem_of_subset (by decide)
  have hstart : c ∉ handleStart := h.not_mem_of_subset (by decide)
  have harrow : c ∉ arrow := h.not_mem_of_subset (by decide)
  have hclose := h.ne_of_mem ')' (by decide)
  have hblank := h.ne_of_mem ' ' (by decide)
  rw [renderEdge_eq, edgeRest]
  simp only [List.mem_append, List.mem_cons, h.mem_writtenLabel, hs, hindent, hstart, harrow, hclose,
    hblank, false_or]
  tauto

theorem not_mem_updateLine (h : Foreign c) (hl : c ∉ line) (hk : c ∉ key) (hv : c ∉ normal value)
    (hu : updateLine line key value = .ok new) : c ∉ new := by
  rw [updateLine] at hu
  split at hu
  · split at hu
    · cases hu
      exact not_mem_setShape hl (h.not_mem_name (isName_name _))
    · cases hu
  · cases hu
    exact not_mem_setAttribute hl hk (h.mem_writtenValue.not.2 hv) (h.ne_of_mem _ (by decide))

theorem not_mem_updateAll (h : Foreign c) (hl : c ∉ line) (hu : c ∉ attributesText updates)
    (hnew : updateAll line updates = .ok new) : c ∉ new := by
  induction updates generalizing line with
  | nil =>
    cases hnew
    exact hl
  | cons update rest ih =>
    simp only [attributesText, List.flatMap_cons, List.mem_append, not_or] at hu
    cases hfirst : updateLine line update.1 update.2 with
    | error reason => simp [updateAll, hfirst, bind, Except.bind] at hnew
    | ok first =>
      refine ih (h.not_mem_updateLine hl hu.1.1 hu.1.2 hfirst) hu.2 ?_
      simpa [updateAll, hfirst, bind, Except.bind] using hnew

end Foreign

/-- Nodes and lanes whose names do not have the character. -/
structure NamesFree (c : Char) (session : Session) : Prop where
  nodes : ∀ id lane, session.index.nodeLanes.get? id = some lane → c ∉ id ∧ c ∉ lane
  lanes : ∀ lane span, session.index.laneSpans.get? lane = some span → c ∉ lane

/-- A session starts with the names that its lines have. -/
theorem namesFree_of_indexed (hc : Foreign c) (hl : ∀ line ∈ session.lines, c ∉ line)
    (h : session.Indexed) : NamesFree c session := by
  have hopened : ∀ {lane : Text} {label : Option Text} {line : Text}, line ∈ session.lines →
      Line.read line = .laneOpen lane label → c ∉ lane :=
    fun hmem hread hn => hl _ hmem (mem_of_read_laneOpen hread hn)
  refine ⟨fun id lane hid => ?_, fun lane span hspan => ?_⟩
  · rw [h.nodeLanes] at hid
    constructor
    · have hmem : id ∈ nodeIds session.lines := by
        rw [← (LineIndex.isSome_get?_scan _ id).2, hid]
        rfl
      exact hc.not_mem_name (isName_of_mem_nodeIds hmem)
    · rcases nodeLane_cases hid with rfl | ⟨line, hline, label, hread⟩
      · exact hc.not_mem_name (by decide)
      · exact hopened hline hread
  · rw [h.laneSpans] at hspan
    obtain ⟨above, close, below, hlines, _, _, hopen⟩ := LineIndex.exists_laneSpan hspan
    obtain ⟨line, hline, label, hread⟩ := exists_of_openBelow hopen
    exact hopened (hlines ▸ List.mem_append_left _ hline) hread

/-- An edit gives no name but the next id. -/
theorem namesFree_after (hc : Foreign c) (h : NamesFree c session)
    (hs : session.splice? edit = some splice) : NamesFree c (session.after edit splice) := by
  refine ⟨fun id lane hid => ?_, fun lane span hspan => ?_⟩
  · cases edit with
    | insertNode other shape label properties above before =>
      obtain ⟨span, hspan, _⟩ := Option.bind_eq_some_iff.1 hs
      simp only [Session.after, Session.indexAfter, LineIndex.addNode, OrderedMap.get?_insert,
        Splice.nodeLanes_shift] at hid
      split at hid
      · next hfresh =>
        cases hid
        exact ⟨hfresh ▸ hc.not_mem_name (isName_freshId session), h.lanes _ span hspan⟩
      · exact h.nodes id lane hid
    | removeNode removed =>
      simp only [Session.after, Session.indexAfter, LineIndex.forgetNode, OrderedMap.get?_erase,
        Splice.nodeLanes_shift] at hid
      split at hid
      · cases hid
      · exact h.nodes id lane hid
    | _ =>
      simp only [Session.after, Session.indexAfter, Splice.nodeLanes_shift] at hid
      exact h.nodes id lane hid
  · rw [Session.laneSpans_after] at hspan
    obtain ⟨old, hold, _⟩ := Option.map_eq_some_iff.1 hspan
    exact h.lanes lane old hold

theorem mem_targetName (hc : Foreign c) (h : NamesFree c session) (lane : Text) :
    c ∈ session.targetName lane target ↔ c ∈ target := by
  rw [Session.targetName]
  cases hlane : session.index.nodeLanes.get? target with
  | none => rfl
  | some other =>
    have hother := (h.nodes target other hlane).2
    have hdot := hc.ne_of_mem '.' (by decide)
    simp only
    split
    · rfl
    · simp [hother, hdot]

/-- A line that is put in has the character if the operation does. -/
theorem mem_inserted (hc : Foreign c) (h : NamesFree c session)
    (hs : session.splice? edit = some (.insert position line)) : c ∈ line ↔ c ∈ edit.written := by
  cases Session.spliced hs with
  | insertNode hspan hid => exact hc.mem_renderNode (isName_freshId session)
  | insertEdge hlane hspan =>
    rw [Session.edgeLine, hc.mem_renderEdge (h.nodes _ _ hlane).1]
    simp only [Edit.written, List.mem_append, mem_targetName hc h]

/-- A line that is written anew has the character from the operation or had it before. -/
theorem mem_rewritten (hc : Foreign c) (hs : session.splice? edit = some (.rewrite position line))
    (hm : c ∈ line) : c ∈ edit.written ∨ ∃ old, session.lines[position.toNat]? = some old ∧ c ∈ old := by
  cases Session.spliced hs with
  | @updateNode id old new updates position hline hget hnew =>
    by_cases hold : c ∈ old
    · exact Or.inr ⟨old, hget, hold⟩
    · left
      by_contra hwritten
      exact hc.not_mem_updateAll hold hwritten hnew hm

namespace Event

/-- The line that an operation put in or wrote anew, the operation being the one of this number. -/
def wrote? (number : Nat) : Event → Option Origin
  | .inserted _ => some (.inserted number)
  | .rewritten origin _ => some origin
  | _ => none

end Event

/-- An operation that writes the character has put in a line or written it anew. -/
def Brought (c : Char) (operations : List Operation) (events : List Event) (origin : Origin) : Prop :=
  ∃ (number : Nat) (operation : Operation) (edit : Edit) (event : Event),
    operations[number]? = some operation ∧ operation.edit? = .ok edit ∧ c ∈ edit.written ∧
      events[number]? = some event ∧ event.wrote? number = some origin

/-- The lines of a ledger that have the character have it from the operations that wrote them. -/
structure Carried (c : Char) (operations : List Operation) (ledger : Ledger) : Prop where
  length : ledger.events.length = operations.length
  brought : ∀ line ∈ ledger.lines, c ∈ line.text → Brought c operations ledger.events line.origin
  inserted : ∀ (number : Nat) (text : Text), ledger.events[number]? = some (.inserted text) →
    ∃ (operation : Operation) (edit : Edit), operations[number]? = some operation ∧
      operation.edit? = .ok edit ∧ (c ∈ text ↔ c ∈ edit.written)

theorem brought_concat (h : Brought c done events origin) (operation : Operation) (event : Event) :
    Brought c (done ++ [operation]) (events ++ [event]) origin := by
  obtain ⟨number, found, edit, wrote, hfound, hedit, hwritten, hevent, horigin⟩ := h
  have hdone := (List.getElem?_eq_some_iff.1 hfound).1
  have hevents := (List.getElem?_eq_some_iff.1 hevent).1
  exact ⟨number, found, edit, wrote, (List.getElem?_append_left hdone).trans hfound, hedit, hwritten,
    (List.getElem?_append_left hevents).trans hevent, horigin⟩

theorem brought_last (hl : events.length = done.length) (he : operation.edit? = .ok edit)
    (hw : c ∈ edit.written) (horigin : event.wrote? events.length = some origin) :
    Brought c (done ++ [operation]) (events ++ [event]) origin := by
  refine ⟨events.length, operation, edit, event, ?_, he, hw, List.getElem?_concat_length .., horigin⟩
  rw [hl]
  exact List.getElem?_concat_length ..

/-- An entry keeps what is known of the lines if it holds for those that the last operation wrote. -/
theorem carried_concat (h : Carried c done ledger) (he : next.events = ledger.events ++ [event])
    (hlines : ∀ line ∈ next.lines, c ∈ line.text → line ∈ ledger.lines ∨
      Brought c (done ++ [operation]) next.events line.origin)
    (hinserted : ∀ text, event = .inserted text → ∃ edit, operation.edit? = .ok edit ∧
      (c ∈ text ↔ c ∈ edit.written)) : Carried c (done ++ [operation]) next := by
  refine ⟨?_, fun line hline hm => ?_, fun number text hnumber => ?_⟩
  · rw [he, List.length_append, List.length_append, h.length]
    rfl
  · rcases hlines line hline hm with hold | hnew
    · rw [he]
      exact brought_concat (h.brought line hold hm) operation event
    · exact hnew
  · rw [he] at hnumber
    rcases Nat.lt_or_ge number ledger.events.length with hlt | hge
    · rw [List.getElem?_append_left hlt] at hnumber
      obtain ⟨found, edit, hfound, hedit⟩ := h.inserted number text hnumber
      exact ⟨found, edit, (List.getElem?_append_left (h.length ▸ hlt)).trans hfound, hedit⟩
    · have hlength := (List.getElem?_eq_some_iff.1 hnumber).1
      rw [List.length_append, List.length_singleton] at hlength
      have hlast : number = ledger.events.length := by omega
      subst hlast
      rw [List.getElem?_concat_length, Option.some.injEq] at hnumber
      obtain ⟨edit, hedit⟩ := hinserted text hnumber
      refine ⟨operation, edit, ?_, hedit⟩
      rw [h.length]
      exact List.getElem?_concat_length ..

/-- An event that inserts nothing needs no writer. -/
theorem carried_same (h : Carried c done ledger) (he : next.events = ledger.events ++ [event])
    (hlines : ∀ line ∈ next.lines, c ∈ line.text → line ∈ ledger.lines ∨
      Brought c (done ++ [operation]) next.events line.origin)
    (hnone : event.insertedText? = none) : Carried c (done ++ [operation]) next := by
  refine carried_concat h he hlines fun text hinserted => ?_
  rw [hinserted] at hnone
  cases hnone

/-- What is known of the lines holds after one more edit. -/
theorem carried_enter (hc : Foreign c) (h : Carried c done ledger) (hn : NamesFree c session)
    (hl : ledger.texts = session.lines) (he : operation.edit? = .ok edit)
    (hs : session.splice? edit = some splice) :
    Carried c (done ++ [operation]) (ledger.enter (some splice)) := by
  have hnothing : Carried c (done ++ [operation]) ⟨ledger.lines, ledger.events ++ [.nothing]⟩ :=
    carried_same h rfl (fun line hline _ => Or.inl hline) rfl
  cases splice with
  | insert position text =>
    have hwrites : c ∈ text ↔ c ∈ edit.written := mem_inserted hc hn hs
    refine carried_concat h rfl (fun line hline hm => ?_) fun other hother => ?_
    · rcases List.mem_append.1 hline with hline | hline
      · exact Or.inl (List.mem_of_mem_take hline)
      · rcases List.mem_cons.1 hline with rfl | hline
        · exact Or.inr (brought_last h.length he (hwrites.1 hm) rfl)
        · exact Or.inl (List.mem_of_mem_drop hline)
    · cases hother
      exact ⟨edit, he, hwrites⟩
  | remove position =>
    rw [Ledger.enter]
    split
    · exact carried_same h rfl (fun line hline _ => Or.inl (List.mem_of_mem_eraseIdx hline)) rfl
    · exact hnothing
  | rewrite position text =>
    rw [Ledger.enter]
    split
    · next old hold =>
      refine carried_same h rfl (fun line hline hm => ?_) rfl
      rcases List.mem_or_eq_of_mem_set hline with hline | rfl
      · exact Or.inl hline
      · right
        rcases mem_rewritten hc hs hm with hwritten | ⟨before, hbefore, hm⟩
        · exact brought_last h.length he hwritten rfl
        · have htext : before = old.text := by
            rw [← hl, Ledger.texts, List.getElem?_map, hold] at hbefore
            exact (Option.some.inj hbefore).symm
          exact brought_concat (h.brought old (List.mem_of_getElem? hold) (htext ▸ hm)) operation _
    · exact hnothing

theorem carried_step (hc : Foreign c) (h : Carried c done ledger) (hn : NamesFree c session)
    (hl : ledger.texts = session.lines) (hs : session.step operation = .ok (after, entry)) :
    Carried c (done ++ [operation]) (ledger.enter (session.effect? operation)) ∧
      NamesFree c after := by
  rcases Session.step_eq_ok hs with
    ⟨rfl, hnone, _⟩ | ⟨edit, splice, change, hedit, hsplice, _, _, rfl, _⟩
  · rw [hnone]
    exact ⟨carried_same h rfl (fun line hline _ => Or.inl hline) rfl, hn⟩
  · rw [Session.effect?_eq hedit, hsplice]
    exact ⟨carried_enter hc h hn hl hedit hsplice, namesFree_after hc hn hsplice⟩

theorem texts_enter (hl : ledger.texts = session.lines)
    (hs : session.step operation = .ok (after, entry)) :
    (ledger.enter (session.effect? operation)).texts = after.lines := by
  rcases Session.step_eq_ok hs with
    ⟨rfl, hnone, _⟩ | ⟨edit, splice, change, hedit, hsplice, hfinds, htells, rfl, _⟩
  · rw [hnone]
    exact hl
  · obtain ⟨event, _, _, htexts⟩ := writes_enter hl hfinds htells
    rw [Session.effect?_eq hedit, hsplice]
    exact htexts

theorem carried_run (hc : Foreign c) (h : Carried c done ledger) (hn : NamesFree c session)
    (hl : ledger.texts = session.lines) (hr : session.run operations = .ok (last, entries)) :
    Carried c (done ++ operations) (session.record ledger operations) := by
  induction operations generalizing session ledger done entries with
  | nil =>
    cases hr
    simpa [Session.record] using h
  | cons operation rest ih =>
    obtain ⟨after, entry, more, hstep, hrest, rfl⟩ := Session.run_cons_eq_ok.1 hr
    obtain ⟨hcarried, hnames⟩ := carried_step hc h hn hl hstep
    have hall := ih hcarried hnames (texts_enter hl hstep) hrest
    simp only [Session.record, hstep]
    rwa [List.append_assoc, List.singleton_append] at hall

theorem not_mem_newline (hn : c ∉ ['\r', '\n']) (newline : Newline) : c ∉ newline.text := by
  cases newline with
  | lf => exact fun hm => hn (List.mem_cons_of_mem _ hm)
  | crlf => exact hn

/-- A foreign character that a text does not have stands in the edited text only in lines that an
operation wrote with it. -/
theorem carried_ofBatch (hc : Foreign c) (hn : c ∉ ['\r', '\n']) (ht : c ∉ text)
    (h : applyChanges text operations = .ok result) :
    Carried c operations (Ledger.ofBatch text operations) ∧
      (c ∈ result.code ↔ ∃ line ∈ (Ledger.ofBatch text operations).lines, c ∈ line.text) := by
  obtain ⟨first, last, entries, hs, hrun, rfl⟩ := applyChanges_eq_ok h
  have hlines : first.lines = (Newline.ofText text).split text := by
    rw [(ofText_starts hs).1]
  have hindexed : first.Indexed := by
    rw [(ofText_starts hs).1]
    exact LineIndex.Same.refl _
  have hclean : ∀ line ∈ first.lines, c ∉ line := fun line hline hm =>
    ht (mem_of_mem_split (hlines ▸ hline) hm)
  have hstart : Carried c [] (.ofLines first.lines) := by
    refine ⟨rfl, fun line hline hm => ?_, nofun⟩
    obtain ⟨⟨text, number⟩, hpair, rfl⟩ := List.mem_map.1 hline
    exact absurd hm (hclean text (List.fst_mem_of_mem_zipIdx hpair))
  have hcarried := carried_run hc hstart (namesFree_of_indexed hc hclean hindexed)
    (texts_ofLines first.lines) hrun
  obtain ⟨hcode, -⟩ := provenance_ofBatch h
  refine ⟨by rwa [Ledger.ofBatch, hs], fun hm => ?_, fun ⟨line, hline, hm⟩ => ?_⟩
  · rw [hcode] at hm
    rcases mem_join hm with hbreak | ⟨text, htext, hm⟩
    · exact absurd hbreak (not_mem_newline hn _)
    · obtain ⟨line, hline, rfl⟩ := List.mem_map.1 htext
      exact ⟨line, hline, hm⟩
  · rw [hcode]
    exact mem_join_of_mem (List.mem_map_of_mem hline) hm

end Swimlane.Patch
