import Swimlane.Proofs.Diagram.NodeStart
import Swimlane.Proofs.Patch.LineEdits
import Swimlane.Proofs.Patch.Rescan

/-! The index can be relied on in every run, also where the lines are read as something else than the
index says: it names lines that begin with the ids of their nodes, and braces. -/
namespace Swimlane.Patch

open Text Line

variable {lines : List Text} {line new id lane : Text} {place : Int} {span : Span}
  {index : LineIndex} {splice : Splice} {session next first : Session} {edit : Edit}
  {operation : Operation} {operations : List Operation} {entry : Entry}

/-- Every number of a node is that of a line that begins with the node's id, and every lane ends at a
brace of its own. -/
structure SafeIndex (lines : List Text) (index : LineIndex) : Prop where
  nodes : ∀ id place, index.nodeLines.get? id = some place →
    ∃ line, lineAt? lines place = some line ∧ BeginsNode id line
  lanes : ∀ id, (index.nodeLanes.get? id).isSome = (index.nodeLines.get? id).isSome
  spans : ∀ lane span, index.laneSpans.get? lane = some span →
    0 ≤ span.opening ∧ span.opening ≤ span.closing ∧
      ∃ line, lineAt? lines span.closing = some line ∧ trim line = ['\x7d']
  closings : ∀ lane span other found, index.laneSpans.get? lane = some span →
    index.laneSpans.get? other = some found → span.closing = found.closing → lane = other

/-- Different ids stand on different lines. -/
theorem SafeIndex.id_unique {other : Text} (h : SafeIndex lines index)
    (hid : index.nodeLines.get? id = some place) (ho : index.nodeLines.get? other = some place) :
    id = other := by
  obtain ⟨line, hline, hbegins⟩ := h.nodes id place hid
  obtain ⟨found, hfound, hother⟩ := h.nodes other place ho
  rw [hline, Option.some.injEq] at hfound
  exact beginsNode_unique hbegins (hfound ▸ hother)

theorem lineAt?_length {above below : List Text} :
    lineAt? (above ++ line :: below) above.length = some line := by
  simp [lineAt?]

theorem safeIndex_scan (lines : List Text) : SafeIndex lines (LineIndex.scan lines) := by
  refine ⟨fun id place h => ?_, fun id => ?_, fun lane span h => ?_,
    fun lane span other found h ho he => ?_⟩
  · obtain ⟨above, line, below, rfl, rfl, hid, _⟩ := LineIndex.exists_nodeLine h
    obtain ⟨shape, attributes, hread⟩ := exists_of_nodeId? hid
    exact ⟨line, lineAt?_length, beginsNode_of_read hread⟩
  · obtain ⟨hline, hlane⟩ := LineIndex.isSome_get?_scan lines id
    exact Bool.eq_iff_iff.2 (hlane.trans hline.symm)
  · obtain ⟨above, line, below, rfl, hclosing, hclose, hopen⟩ := LineIndex.exists_laneSpan h
    have hlt := openBelow_lt hopen
    refine ⟨hlt.1, by omega, line, ?_, trim_of_read_close hclose⟩
    rw [hclosing]
    exact lineAt?_length
  · obtain ⟨above, line, below, hlines, hclosing, _, hopen⟩ := LineIndex.exists_laneSpan h
    obtain ⟨before, brace, after, hother, hend, _, hstart⟩ := LineIndex.exists_laneSpan ho
    have hlength : above.length = before.length := by omega
    have habove := (List.append_inj (hlines.symm.trans hother) hlength).1
    rw [habove, hstart, Option.some.injEq, Prod.mk.injEq] at hopen
    exact hopen.1.symm

/-- An index moves with a change that takes out no line that it names. -/
theorem SafeIndex.shift (h : SafeIndex lines index) (hr : splice.InRange lines)
    (hn : ∀ id place, index.nodeLines.get? id = some place → splice.Misses place)
    (hc : ∀ lane span, index.laneSpans.get? lane = some span → splice.Misses span.closing) :
    SafeIndex (splice.apply lines) (splice.shift index) := by
  refine ⟨fun id place hid => ?_, fun id => ?_, fun lane span hspan => ?_,
    fun lane span other found hspan hend he => ?_⟩
  · rw [Splice.nodeLines_shift] at hid
    obtain ⟨old, hold, rfl⟩ := Option.map_eq_some_iff.1 hid
    obtain ⟨line, hline, hbegins⟩ := h.nodes id old hold
    exact ⟨line, Splice.lineAt?_apply hr (hn id old hold) hline, hbegins⟩
  · rw [Splice.nodeLines_shift, Splice.nodeLanes_shift, Option.isSome_map]
    exact h.lanes id
  · rw [Splice.laneSpans_shift] at hspan
    obtain ⟨old, hold, rfl⟩ := Option.map_eq_some_iff.1 hspan
    obtain ⟨hopening, hle, line, hline, htrim⟩ := h.spans lane old hold
    have hmiss := hc lane old hold
    exact ⟨Splice.move_nonneg hr hopening, Splice.move_le_move hmiss hle, line,
      Splice.lineAt?_apply hr hmiss hline, htrim⟩
  · rw [Splice.laneSpans_shift] at hspan hend
    obtain ⟨old, hold, rfl⟩ := Option.map_eq_some_iff.1 hspan
    obtain ⟨last, hlast, rfl⟩ := Option.map_eq_some_iff.1 hend
    exact h.closings lane old other last hold hlast
      (Splice.move_injective (hc lane old hold) (hc other last hlast) he)

theorem SafeIndex.forgetNode (h : SafeIndex lines index) (id : Text) :
    SafeIndex lines (index.forgetNode id) := by
  refine ⟨fun other place ho => ?_, fun other => ?_, h.spans, h.closings⟩
  · simp only [LineIndex.forgetNode, OrderedMap.get?_erase] at ho
    split at ho
    · simp at ho
    · exact h.nodes other place ho
  · simp only [LineIndex.forgetNode, OrderedMap.get?_erase]
    split
    · rfl
    · exact h.lanes other

theorem SafeIndex.addNode (h : SafeIndex lines index) (lane : Text)
    (hl : lineAt? lines place = some line) (hb : BeginsNode id line) :
    SafeIndex lines (index.addNode id lane place) := by
  refine ⟨fun other found ho => ?_, fun other => ?_, h.spans, h.closings⟩
  · simp only [LineIndex.addNode, OrderedMap.get?_insert] at ho
    split at ho
    · next he =>
      cases ho
      exact ⟨line, hl, he ▸ hb⟩
    · exact h.nodes other found ho
  · simp only [LineIndex.addNode, OrderedMap.get?_insert]
    split
    · rfl
    · exact h.lanes other

/-- No lane ends at a line that is not a brace. -/
theorem SafeIndex.closing_ne (h : SafeIndex lines index) (hl : lineAt? lines place = some line)
    (ht : trim line ≠ ['\x7d']) (hs : index.laneSpans.get? lane = some span) :
    span.closing ≠ place := by
  rintro rfl
  obtain ⟨_, _, brace, hbrace, htrim⟩ := h.spans lane span hs
  rw [hl, Option.some.injEq] at hbrace
  exact ht (hbrace ▸ htrim)

/-- No node stands on a line that begins with no id, or with another. -/
theorem SafeIndex.place_ne {other : Int} (h : SafeIndex lines index)
    (hl : lineAt? lines place = some line) (hb : ¬ BeginsNode id line)
    (hid : index.nodeLines.get? id = some other) : other ≠ place := by
  rintro rfl
  obtain ⟨found, hfound, hbegins⟩ := h.nodes id other hid
  rw [hl, Option.some.injEq] at hfound
  exact hb (hfound ▸ hbegins)

/-- The line of a node may be written anew if it begins with the same id. -/
theorem SafeIndex.rewrite (h : SafeIndex lines index) (hl : lineAt? lines place = some line)
    (hb : BeginsNode id line) (hn : BeginsNode id new) :
    SafeIndex ((Splice.rewrite place new).apply lines) index := by
  have hr : (Splice.rewrite place new).InRange lines := lt_of_lineAt? hl
  refine ⟨fun other found ho => ?_, h.lanes, fun lane span hs => ?_, h.closings⟩
  · obtain ⟨old, hold, hbegins⟩ := h.nodes other found ho
    by_cases hplace : found = place
    · subst hplace
      rw [hl, Option.some.injEq] at hold
      have hid := beginsNode_unique hb (hold ▸ hbegins)
      exact ⟨new, Splice.lineAt?_rewrite hr, hid ▸ hn⟩
    · exact ⟨old, Splice.lineAt?_apply hr hplace hold, hbegins⟩
  · obtain ⟨hopening, hle, brace, hbrace, htrim⟩ := h.spans lane span hs
    have hmiss := h.closing_ne hl (trim_ne_close_of_beginsNode hb) hs
    exact ⟨hopening, hle, brace, Splice.lineAt?_apply hr hmiss hbrace, htrim⟩

/-- How the change that an edit makes meets the lines: it finds its place, and a line that it takes
out or writes anew is the one that the edit names. -/
inductive Lands (session : Session) : Edit → Splice → Prop
  | insertNode {lane : Text} {shape : Shape} {label after before : Option Text}
      {properties : Attributes} {position : Int} (hid : session.nextId = .ok session.freshId)
      (hr : 0 ≤ position ∧ position ≤ session.lines.length) :
      Lands session (.insertNode lane shape label properties after before)
        (.insert position (renderNode session.freshId shape
          (Session.newAttributes label properties)))
  | removeNode {id line : Text} {position : Int} (hline : lineAt? session.lines position = some line)
      (hid : BeginsNode id line) : Lands session (.removeNode id) (.remove position)
  | updateNode {id line new : Text} {updates : Attributes} {position : Int}
      (hline : lineAt? session.lines position = some line) (hid : BeginsNode id line)
      (hnew : BeginsNode id new) : Lands session (.updateNode id updates) (.rewrite position new)
  | insertEdge {edge : NewEdge} {lane : Text} {position : Int}
      (hr : 0 ≤ position ∧ position ≤ session.lines.length) :
      Lands session (.insertEdge edge) (.insert position (session.edgeLine lane edge))
  | removeEdge {source target line : Text} {position : Int}
      (hline : lineAt? session.lines position = some line)
      (hedge : isEdgeBetween source target line = true) :
      Lands session (.removeEdge source target) (.remove position)

theorem Lands.inRange (h : Lands session edit splice) : splice.InRange session.lines := by
  cases h with
  | insertNode hid hr => exact hr
  | removeNode hline hid => exact lt_of_lineAt? hline
  | updateNode hline hid hnew => exact lt_of_lineAt? hline
  | insertEdge hr => exact hr
  | removeEdge hline hedge => exact lt_of_lineAt? hline

theorem SafeIndex.insertionLine (h : SafeIndex session.lines session.index)
    (hs : session.index.laneSpans.get? lane = some span) (after before : Option Text) :
    0 ≤ session.insertionLine lane span after before ∧
      session.insertionLine lane span after before ≤ session.lines.length := by
  have hanchor : ∀ {anchor : Option Text} {place : Int},
      anchor.bind (session.index.lineIn? lane) = some place →
        0 ≤ place ∧ place < session.lines.length := by
    intro anchor place ha
    obtain ⟨id, _, hline⟩ := Option.bind_eq_some_iff.1 ha
    rw [LineIndex.lineIn?] at hline
    split at hline
    · obtain ⟨line, hfound, _⟩ := h.nodes id place hline
      exact lt_of_lineAt? hfound
    · simp at hline
  obtain ⟨_, _, brace, hbrace, _⟩ := h.spans lane span hs
  have hclosing := lt_of_lineAt? hbrace
  rw [Session.insertionLine]
  split
  · next place ha =>
    have hplace := hanchor ha
    omega
  · cases hb : before.bind (session.index.lineIn? lane) with
    | none => exact ⟨hclosing.1, Int.le_of_lt hclosing.2⟩
    | some place =>
      have hplace := hanchor hb
      exact ⟨hplace.1, Int.le_of_lt hplace.2⟩

/-- What the index names is there, so that every change lands. -/
theorem lands_of_splice? (h : SafeIndex session.lines session.index)
    (hs : session.splice? edit = some splice) : Lands session edit splice := by
  cases Session.spliced hs with
  | insertNode hspan hid => exact .insertNode hid (h.insertionLine hspan _ _)
  | removeNode hposition =>
    obtain ⟨line, hline, hbegins⟩ := h.nodes _ _ hposition
    exact .removeNode hline hbegins
  | updateNode hposition hget hupdate =>
    obtain ⟨found, hfound, hbegins⟩ := h.nodes _ _ hposition
    have hsame := (lineAt?_eq_some.1 hfound).2
    rw [hget, Option.some.injEq] at hsame
    subst hsame
    exact .updateNode hfound hbegins (beginsNode_updateAll hbegins hupdate)
  | insertEdge hlane hspan =>
    obtain ⟨_, _, brace, hbrace, _⟩ := h.spans _ _ hspan
    have hlt := lt_of_lineAt? hbrace
    exact .insertEdge ⟨hlt.1, Int.le_of_lt hlt.2⟩
  | @removeEdge _ _ found hfind =>
    obtain ⟨hlt, hedge, _⟩ := List.findIdx?_eq_some_iff_getElem.1 hfind
    exact .removeEdge (lineAt?_eq_some.2 ⟨Int.natCast_nonneg found, by simp [hlt]⟩) hedge

/-- An edit that removes no edge from a source with a colon in its name. -/
def Edit.PlainSource (edit : Edit) : Prop :=
  ∀ source target, edit = .removeEdge source target → ':' ∉ source

/-- The index is kept by every edit, whatever the texts are that it writes. -/
theorem safeIndex_after (h : SafeIndex session.lines session.index) (hp : edit.PlainSource)
    (hl : Lands session edit splice) :
    SafeIndex (session.after edit splice).lines (session.after edit splice).index := by
  have hr := hl.inRange
  cases hl with
  | insertNode hid hplace =>
    exact (h.shift hr (fun _ _ _ => trivial) (fun _ _ _ => trivial)).addNode _
      (Splice.lineAt?_insert hr) (beginsNode_renderNode _ _ (isName_freshId session))
  | @removeNode id line position hline hid =>
    refine (h.forgetNode id).shift hr (fun other place ho => ?_) (fun lane span hs => ?_)
    · simp only [LineIndex.forgetNode, OrderedMap.get?_erase] at ho
      split at ho
      · simp at ho
      · next hne => exact h.place_ne hline (fun hb => hne (beginsNode_unique hb hid)) ho
    · exact h.closing_ne hline (trim_ne_close_of_beginsNode hid) hs
  | updateNode hline hid hnew => exact h.rewrite hline hid hnew
  | insertEdge hplace => exact h.shift hr (fun _ _ _ => trivial) (fun _ _ _ => trivial)
  | @removeEdge source target line position hline hedge =>
    refine h.shift hr (fun id place hid => ?_) (fun lane span hs => ?_)
    · exact h.place_ne hline (not_beginsNode_of_isEdgeBetween (hp source target rfl) hedge) hid
    · exact h.closing_ne hline (trim_ne_close_of_isEdgeBetween hedge) hs

/-- A session whose index can be relied on, and that has given no id with a higher number than the
last. -/
structure Safe (session : Session) : Prop where
  index : SafeIndex session.lines session.index
  numbers : ∀ id place, session.index.nodeLines.get? id = some place →
    ∃ number ≤ session.lastId, LineIndex.sequentialNumber id = .ok number

theorem safe_ofText {text : Text} (h : Session.ofText text = .ok first) : Safe first := by
  obtain ⟨hfirst, hhighest⟩ := ofText_starts h
  rw [hfirst]
  refine ⟨safeIndex_scan _, fun id place hid => hhighest.bound id ?_⟩
  rw [← (LineIndex.isSome_get?_scan _ id).1, hid]
  rfl

theorem safe_after (hs : Safe session) (hp : edit.PlainSource)
    (hsplice : session.splice? edit = some splice) : Safe (session.after edit splice) :=
  ⟨safeIndex_after hs.index hp (lands_of_splice? hs.index hsplice),
    Session.bounded_after hs.numbers hsplice⟩

/-- An operation that does not ask to remove an edge from a source with a colon in its name. -/
def Operation.PlainSource (operation : Operation) : Prop :=
  ∀ edit, operation.edit? = .ok edit → edit.PlainSource

instance : DecidablePred Edit.PlainSource
  | .removeEdge source target => decidable_of_iff (':' ∉ source)
      ⟨fun h _ _ he => by cases he; exact h, fun h => h source target rfl⟩
  | .insertNode _ _ _ _ _ _ | .removeNode _ | .updateNode _ _ | .insertEdge _ =>
    isTrue fun _ _ he => by cases he

instance : DecidablePred Operation.PlainSource := fun operation =>
  match h : operation.edit? with
  | .ok edit => decidable_of_iff edit.PlainSource
      ⟨fun hp _ he => Except.ok.inj (h.symm.trans he) ▸ hp, fun hp => hp edit h⟩
  | .error _ => isTrue fun _ he => by simp [h] at he

theorem safe_step (hs : Safe session) (hp : operation.PlainSource)
    (h : session.step operation = .ok (next, entry)) :
    Safe next ∧ session.lastId ≤ next.lastId := by
  rcases Session.step_eq_ok h with
    ⟨rfl, _⟩ | ⟨edit, splice, change, hedit, hsplice, _, _, rfl, _⟩
  · exact ⟨hs, Nat.le_refl _⟩
  · exact ⟨safe_after hs (hp edit hedit) hsplice, Nat.le_add_right _ _⟩

/-- No edit of a safe session looks for a line that is not there. -/
theorem fault_of_safe {fault : Fault} (hs : SafeIndex session.lines session.index)
    (h : session.perform edit = .error fault) :
    edit.newIds = 1 ∧ session.nextId = .error (.digits .writing) ∧ fault = .digits .writing := by
  have hedit := Session.performed session edit
  rw [h] at hedit
  cases hedit with
  | unnumbered hnew hid => exact ⟨hnew, hid, rfl⟩
  | astray hid hline hlt =>
    obtain ⟨line, hfound, _⟩ := hs.nodes _ _ hline
    have hin := lt_of_lineAt? hfound
    omega

namespace Session

/-- The sessions of a run, the first and those that its operations lead to. -/
def states (first : Session) (operations : List Operation) : List Session :=
  first :: (first.trace operations).steps.map Prod.fst

theorem states_of_ok {after : Session} (h : first.step operation = .ok (after, entry)) :
    first.states (operation :: operations) = first :: after.states operations := by
  simp [states, trace, h]

theorem states_of_error {fault : Fault} (h : first.step operation = .error fault) :
    first.states (operation :: operations) = [first] := by
  simp [states, trace, h]

end Session

/-- A run keeps the index safe, takes back no number, and ends early only when numbers run out. -/
theorem safe_states (hs : Safe first) (hp : ∀ operation ∈ operations, operation.PlainSource) :
    (∀ session ∈ first.states operations, Safe session) ∧
      (first.states operations).Pairwise (fun earlier later => earlier.lastId ≤ later.lastId) ∧
      ∀ interruption ∈ (first.trace operations).interruption,
        interruption.fault = .digits .writing := by
  induction operations generalizing first with
  | nil => simp [Session.states, Session.trace, hs]
  | cons operation rest ih =>
    cases hstep : first.step operation with
    | error fault =>
      rw [Session.states_of_error hstep]
      refine ⟨by simpa using hs, List.pairwise_singleton _ _, fun interruption hmem => ?_⟩
      obtain ⟨edit, _, hedit⟩ := Session.step_eq_error hstep
      simp only [Session.trace, hstep, Option.mem_def, Option.some.injEq] at hmem
      rw [← hmem]
      exact (fault_of_safe hs.index hedit).2.2
    | ok result =>
      obtain ⟨after, entry⟩ := result
      obtain ⟨hafter, hle⟩ := safe_step hs (hp operation (by simp)) hstep
      obtain ⟨hsafe, hordered, hfault⟩ :=
        ih hafter fun other hother => hp other (List.mem_cons_of_mem _ hother)
      rw [Session.states_of_ok hstep]
      refine ⟨List.forall_mem_cons.2 ⟨hs, hsafe⟩, List.pairwise_cons.2 ⟨?_, hordered⟩, ?_⟩
      · intro later hmem
        rcases List.mem_cons.1 hmem with rfl | hlater
        · exact hle
        · exact hle.trans ((List.pairwise_cons.1 hordered).1 later hlater)
      · simpa only [Session.trace, hstep] using hfault

/-- The id of a new node is new to every index that has no number above the last one given. -/
theorem fresh_of_safe {past : Session} (hs : Safe past) (hle : past.lastId ≤ session.lastId)
    (hid : session.nextId = .ok id) :
    past.index.nodeLines.get? id = none ∧ past.index.nodeLanes.get? id = none := by
  obtain ⟨rfl, hdigits⟩ := Session.nextId_eq_ok hid
  have hlines : past.index.nodeLines.get? session.freshId = none := by
    cases hline : past.index.nodeLines.get? session.freshId with
    | none => rfl
    | some place =>
      obtain ⟨number, hbound, hnumber⟩ := hs.numbers _ place hline
      rw [Session.freshId, sequentialNumber_ofNat hdigits, Except.ok.injEq] at hnumber
      omega
  have hlanes := hs.index.lanes session.freshId
  rw [hlines] at hlanes
  exact ⟨hlines, by simpa using hlanes⟩

/-- What can be relied on in a session that comes after `earlier` ones in a run. -/
structure Reliable (earlier : List Session) (session : Session) : Prop where
  index : SafeIndex session.lines session.index
  distinct : ∀ id other place, session.index.nodeLines.get? id = some place →
    session.index.nodeLines.get? other = some place → id = other
  fresh : ∀ id, session.nextId = .ok id → ∀ past ∈ earlier ++ [session],
    past.index.nodeLines.get? id = none ∧ past.index.nodeLanes.get? id = none
  found : ∀ edit, session.perform edit ≠ .error .lineOutOfRange
  landed : ∀ edit change next, session.perform edit = .ok (.applied change next) →
    ∃ splice, next.lines = splice.apply session.lines ∧ splice.InRange session.lines ∧
      Lands session edit splice

/-- In every run the index names the lines that it was made for, whatever the texts are that the
operations write. -/
theorem run_reliable {text : Text} (hp : ∀ operation ∈ operations, operation.PlainSource)
    (hs : Session.ofText text = .ok first) :
    (∀ earlier session later, first.states operations = earlier ++ session :: later →
      Reliable earlier session) ∧
    ∀ interruption ∈ (first.trace operations).interruption,
      interruption.fault = .digits .writing := by
  obtain ⟨hsafe, hordered, hfault⟩ := safe_states (safe_ofText hs) hp
  refine ⟨fun earlier session later hstates => ?_, hfault⟩
  rw [hstates] at hsafe hordered
  have hsession := hsafe session (by simp)
  refine ⟨hsession.index, fun id other place => hsession.index.id_unique,
    fun id hid past hmem => ?_, fun edit hedit => ?_, fun edit change next hedit => ?_⟩
  · rcases List.mem_append.1 hmem with hearlier | hlast
    · have hle := (List.pairwise_append.1 hordered).2.2 past hearlier session (by simp)
      exact fresh_of_safe (hsafe past (List.mem_append_left _ hearlier)) hle hid
    · rw [List.mem_singleton.1 hlast]
      exact fresh_of_safe hsession (Nat.le_refl _) hid
  · have hother := (fault_of_safe hsession.index hedit).2.2
    cases hother
  · have hperformed := Session.performed session edit
    rw [hedit] at hperformed
    cases hperformed with
    | @applied splice change hsplice hfinds htells =>
      have hl := lands_of_splice? hsession.index hsplice
      exact ⟨splice, rfl, hl.inRange, hl⟩

/-- A text with line breaks of both kinds. -/
def mixedSample : Text := "a \x7b\r\nn1: circle label:\"x\"\r\nn1.handle(right) -> n2.handle(left)\r\n" ++
  "n2: circle\r\n\x7d\r\nb \x7b\n\x7d\r\n"

/-- Operations whose texts make lines look like others: nodes like edges and lanes. -/
def hostileOperations : List Operation := [
  { op := "updateNode"
    nodeId := some "n1"
    updates := some (.ofList [("label", "z.handle(q) -> m.handle(l)"), ("x y", "\x7d \x7b #")]) },
  { op := "insertNode"
    laneId := some "a"
    beforeNodeId := some "n1"
    newNode := some ⟨none, some "\x7d\n\x7b # t", .empty⟩ },
  { op := "removeEdge", newEdge := some ⟨"n1", "n2", none, "right", "left"⟩ },
  { op := "insertEdge", newEdge := some ⟨"n3", "n2", some "n1: circle", "right", "left"⟩ },
  { op := "removeNode", nodeId := some "n1" }]

/-- The index still names the node that no new scan of the lines would find. -/
theorem run_reliable_hostile : ∃ first, Session.ofText mixedSample = .ok first ∧
    (first.trace hostileOperations).entries.map Entry.isApplied = [true, true, true, true, true] ∧
    ((first.trace hostileOperations).last first).index.nodeLines.get? "n3" = some 1 ∧
    (LineIndex.scan ((first.trace hostileOperations).last first).lines).nodeLines.get? "n3" = none ∧
    (∀ earlier session later, first.states hostileOperations = earlier ++ session :: later →
      Reliable earlier session) ∧
    ∀ interruption ∈ (first.trace hostileOperations).interruption,
      interruption.fault = .digits .writing := by
  have hrun : (Session.ofText mixedSample).toOption.map (fun first =>
      ((first.trace hostileOperations).entries.map Entry.isApplied,
        ((first.trace hostileOperations).last first).index.nodeLines.get? "n3",
        (LineIndex.scan ((first.trace hostileOperations).last first).lines).nodeLines.get? "n3")) =
      some ([true, true, true, true, true], some 1, none) := by decide +kernel
  cases hs : Session.ofText mixedSample with
  | error fault => simp [hs, Except.toOption] at hrun
  | ok first =>
    rw [hs] at hrun
    simp only [Except.toOption, Option.map_some, Option.some.injEq, Prod.mk.injEq] at hrun
    obtain ⟨happlied, hline, hscan⟩ := hrun
    exact ⟨first, rfl, happlied, hline, hscan, run_reliable (by decide +kernel) hs⟩

end Swimlane.Patch
