import Swimlane.Proofs.Patch.Batches
import Swimlane.Proofs.Patch.Characters

/-! An edit does not look at the line ends of a text. A batch that writes no line feeds into its lines
makes the same of a text whose line feeds are pairs, with pairs in place of line feeds. -/
namespace Swimlane.Patch

open Text Line Escaped

variable {c : Char} {newline : Newline} {session next last : Session} {edit : Edit}
  {operation : Operation} {operations : List Operation} {entry : Entry} {entries : List Entry}
  {splice : Splice} {text line new id key value : Text} {shape : Shape} {result : Result}

/-- The session with other line ends. -/
def Session.withNewline (newline : Newline) (session : Session) : Session := { session with newline }

def Effect.withNewline (newline : Newline) : Effect → Effect
  | .applied change session => .applied change (session.withNewline newline)
  | .skipped reason session => .skipped reason (session.withNewline newline)

namespace Session

@[simp] theorem lines_withNewline : (session.withNewline newline).lines = session.lines := rfl

@[simp] theorem index_withNewline : (session.withNewline newline).index = session.index := rfl

@[simp] theorem nextId_withNewline : (session.withNewline newline).nextId = session.nextId := rfl

theorem removeLine_withNewline (position : Int) : (session.withNewline newline).removeLine position =
    (session.removeLine position).map (withNewline newline) := by
  rw [removeLine, removeLine, lines_withNewline]
  by_cases h : position.toNat < session.lines.length
  · rw [if_pos h, if_pos h]
    rfl
  · rw [if_neg h, if_neg h]
    rfl

/-- An edit does the same whatever the line ends are. -/
theorem perform_withNewline (newline : Newline) (session : Session) (edit : Edit) :
    (session.withNewline newline).perform edit =
      (session.perform edit).map (Effect.withNewline newline) := by
  cases edit with
  | insertNode lane shape label properties after before =>
    simp only [perform, insertNode, index_withNewline, nextId_withNewline]
    cases session.index.laneSpans.get? lane with
    | none => rfl
    | some span => cases session.nextId <;> rfl
  | removeNode id =>
    have hforget : { session.withNewline newline with index := session.index.forgetNode id } =
        withNewline newline { session with index := session.index.forgetNode id } := rfl
    simp only [perform, removeNode, index_withNewline, hforget, removeLine_withNewline]
    cases session.index.nodeLines.get? id with
    | none => rfl
    | some position =>
      cases h : { session with index := session.index.forgetNode id }.removeLine position <;>
        simp only [h] <;> rfl
  | updateNode id updates =>
    simp only [perform, updateNode, index_withNewline, lines_withNewline]
    cases session.index.nodeLines.get? id with
    | none => rfl
    | some position =>
      cases hline : session.lines[position.toNat]? with
      | none => simp only [hline]; rfl
      | some line =>
        cases hnew : updateAll line updates.entries <;> simp only [hline, hnew] <;> rfl
  | insertEdge edge =>
    simp only [perform, insertEdge, index_withNewline]
    cases session.index.nodeLanes.get? edge.source with
    | none => rfl
    | some lane => cases h : session.index.laneSpans.get? lane <;> simp only [h] <;> rfl
  | removeEdge source target =>
    simp only [perform, removeEdge, lines_withNewline, removeLine_withNewline]
    cases session.lines.findIdx? (isEdgeBetween source target) with
    | none => rfl
    | some position => cases h : session.removeLine position <;> simp only [h] <;> rfl

theorem step_withNewline (newline : Newline) (session : Session) (operation : Operation) :
    (session.withNewline newline).step operation =
      (session.step operation).map fun (next, entry) => (next.withNewline newline, entry) := by
  rw [step, step]
  cases operation.edit? with
  | error reason => rfl
  | ok edit =>
    simp only [perform_withNewline]
    cases session.perform edit with
    | error fault => rfl
    | ok effect => cases effect <;> rfl

/-- A run does the same whatever the line ends are. -/
theorem run_withNewline (newline : Newline) (session : Session) (operations : List Operation) :
    (session.withNewline newline).run operations =
      (session.run operations).map fun (last, entries) => (last.withNewline newline, entries) := by
  induction operations generalizing session with
  | nil => rfl
  | cons operation rest ih =>
    rw [run, run, step_withNewline]
    cases session.step operation with
    | error fault => rfl
    | ok pair =>
      obtain ⟨after, entry⟩ := pair
      simp only [Except.map, bind, Except.bind, ih]
      cases after.run rest <;> rfl

theorem newline_run (h : session.run operations = .ok (last, entries)) :
    last.newline = session.newline := by
  have hsame : session.run operations = (session.run operations).map
      fun (last, entries) => (last.withNewline session.newline, entries) :=
    run_withNewline session.newline session operations
  rw [h] at hsame
  have hlast : last = last.withNewline session.newline := (Prod.mk.inj (Except.ok.inj hsame)).1
  rw [hlast]
  rfl

end Session

/-- An edit that writes no line feeds, apart from those of its values, which become blanks. -/
def Edit.WritesLine : Edit → Prop
  | .insertNode _ _ _ properties _ _ => ∀ entry ∈ properties.entries, '\n' ∉ entry.1
  | .removeNode _ | .removeEdge _ _ => True
  | .updateNode _ updates => ∀ entry ∈ updates.entries, '\n' ∉ entry.1
  | .insertEdge added =>
    '\n' ∉ added.target ∧ '\n' ∉ added.sourceHandle ∧ '\n' ∉ added.targetHandle

instance : DecidablePred Edit.WritesLine
  | .insertNode _ _ _ properties _ _ =>
    inferInstanceAs (Decidable (∀ entry ∈ properties.entries, '\n' ∉ entry.1))
  | .removeNode _ | .removeEdge _ _ => isTrue trivial
  | .updateNode _ updates =>
    inferInstanceAs (Decidable (∀ entry ∈ updates.entries, '\n' ∉ entry.1))
  | .insertEdge added => inferInstanceAs (Decidable
      ('\n' ∉ added.target ∧ '\n' ∉ added.sourceHandle ∧ '\n' ∉ added.targetHandle))

/-- An operation that asks for an edit that writes no line feeds, or for none. -/
def Operation.WritesLine (operation : Operation) : Prop :=
  ∀ edit, operation.edit? = .ok edit → edit.WritesLine

instance : DecidablePred Operation.WritesLine := fun operation =>
  match h : operation.edit? with
  | .ok edit => decidable_of_iff edit.WritesLine
      ⟨fun hw _ he => Except.ok.inj (h.symm.trans he) ▸ hw, fun hw => hw edit h⟩
  | .error _ => isTrue fun _ he => by simp [h] at he

theorem foreign_feed : Foreign '\n' := ⟨by decide, by decide⟩

/-- The values that are written have no line feed left. -/
theorem feed_not_mem_attributesText {attributes : List (Text × Text)}
    (h : ∀ entry ∈ attributes, '\n' ∉ entry.1) : '\n' ∉ attributesText attributes := by
  rw [mem_attributesText]
  rintro ⟨entry, hentry, hkey | hvalue⟩
  · exact h entry hentry hkey
  · exact not_mem_normal hvalue

theorem feed_not_mem_written (h : edit.WritesLine) : '\n' ∉ edit.written := by
  cases edit with
  | insertNode lane shape label properties after before =>
    refine feed_not_mem_attributesText fun entry hentry => ?_
    rcases List.mem_append.1 hentry with hlabel | hproperty
    · obtain ⟨value, _, rfl⟩ := List.mem_map.1 hlabel
      exact foreign_feed.not_mem_name isName_label
    · exact h entry hproperty
  | updateNode id updates => exact feed_not_mem_attributesText h
  | insertEdge added =>
    obtain ⟨htarget, hfirst, hlast⟩ := h
    have hlabel : '\n' ∉ (added.label.map normal).getD [] := by
      cases added.label with
      | none => exact List.not_mem_nil
      | some label => exact not_mem_normal
    simp [Edit.written, htarget, hfirst, hlast, hlabel]
  | removeNode id => exact List.not_mem_nil
  | removeEdge source target => exact List.not_mem_nil

/-- Lines and names without line feeds. -/
structure OneLined (session : Session) : Prop where
  lines : ∀ line ∈ session.lines, '\n' ∉ line
  nodes : ∀ id lane, session.index.nodeLanes.get? id = some lane → '\n' ∉ id ∧ '\n' ∉ lane
  lanes : ∀ lane span, session.index.laneSpans.get? lane = some span → '\n' ∉ lane

theorem oneLined_of_indexed (hl : ∀ line ∈ session.lines, '\n' ∉ line) (h : session.Indexed) :
    OneLined session := by
  have hnames := namesFree_of_indexed foreign_feed hl h
  exact ⟨hl, hnames.nodes, hnames.lanes⟩

theorem oneLined_after (h : OneLined session) (hw : edit.WritesLine)
    (hs : session.splice? edit = some splice) : OneLined (session.after edit splice) := by
  have hnames := namesFree_after foreign_feed ⟨h.nodes, h.lanes⟩ hs
  refine ⟨fun line hline => ?_, hnames.nodes, hnames.lanes⟩
  rcases Splice.mem_apply hline with hold | hwritten
  · exact h.lines line hold
  · intro hfeed
    cases splice with
    | remove position => cases hwritten
    | insert position text =>
      cases hwritten
      exact feed_not_mem_written hw ((mem_inserted foreign_feed ⟨h.nodes, h.lanes⟩ hs).1 hfeed)
    | rewrite position text =>
      cases hwritten
      rcases mem_rewritten foreign_feed hs hfeed with hwritten | ⟨old, hold, hfeed⟩
      · exact feed_not_mem_written hw hwritten
      · exact h.lines old (List.mem_of_getElem? hold) hfeed

theorem oneLined_step (h : OneLined session) (hw : operation.WritesLine)
    (hs : session.step operation = .ok (next, entry)) : OneLined next := by
  rcases Session.step_eq_ok hs with ⟨rfl, _⟩ | ⟨edit, splice, change, hedit, hsplice, _, _, rfl, _⟩
  · exact h
  · exact oneLined_after h (hw edit hedit) hsplice

theorem oneLined_run (h : OneLined session) (hw : ∀ operation ∈ operations, operation.WritesLine)
    (hr : session.run operations = .ok (last, entries)) : OneLined last := by
  induction operations generalizing session entries with
  | nil =>
    cases hr
    exact h
  | cons operation rest ih =>
    obtain ⟨after, entry, more, hstep, hrest, rfl⟩ := Session.run_cons_eq_ok.1 hr
    exact ih (oneLined_step h (hw operation (by simp)) hstep)
      (fun other hother => hw other (List.mem_cons_of_mem _ hother)) hrest

/-- One line at most, so that no lane has a brace of its own and no line is put in. -/
structure Short (session : Session) : Prop where
  lines : session.lines.length ≤ 1
  lanes : ∀ lane, session.index.laneSpans.get? lane = none

theorem short_of_indexed (h : session.Indexed) (hl : session.lines.length ≤ 1) : Short session := by
  refine ⟨hl, fun lane => ?_⟩
  cases hspan : session.index.laneSpans.get? lane with
  | none => rfl
  | some span =>
    have hlength := length_of_laneSpan h hspan
    omega

theorem short_after (h : Short session) (hs : session.splice? edit = some splice) :
    Short (session.after edit splice) := by
  constructor
  · cases edit with
    | insertNode lane shape label properties after before =>
      obtain ⟨span, hspan, _⟩ := Option.bind_eq_some_iff.1 hs
      simp [h.lanes lane] at hspan
    | removeNode id =>
      obtain ⟨position, _, rfl⟩ := Option.map_eq_some_iff.1 hs
      exact (List.length_eraseIdx_le _ _).trans h.lines
    | updateNode id updates =>
      obtain ⟨position, _, hsplice⟩ := Option.bind_eq_some_iff.1 hs
      obtain ⟨old, _, hsplice⟩ := Option.bind_eq_some_iff.1 hsplice
      obtain ⟨new, _, rfl⟩ := Option.map_eq_some_iff.1 hsplice
      exact (Nat.le_of_eq List.length_set).trans h.lines
    | insertEdge edge =>
      obtain ⟨lane, _, hsplice⟩ := Option.bind_eq_some_iff.1 hs
      obtain ⟨span, hspan, _⟩ := Option.map_eq_some_iff.1 hsplice
      simp [h.lanes lane] at hspan
    | removeEdge source target =>
      obtain ⟨position, _, rfl⟩ := Option.map_eq_some_iff.1 hs
      exact (List.length_eraseIdx_le _ _).trans h.lines
  · intro lane
    rw [Session.laneSpans_after, h.lanes lane]
    rfl

theorem short_run (h : Short session) (hr : session.run operations = .ok (last, entries)) :
    Short last := by
  induction operations generalizing session entries with
  | nil =>
    cases hr
    exact h
  | cons operation rest ih =>
    obtain ⟨after, entry, more, hstep, hrest, rfl⟩ := Session.run_cons_eq_ok.1 hr
    refine ih ?_ hrest
    rcases Session.step_eq_ok hstep with ⟨rfl, _⟩ | ⟨edit, splice, change, _, hs, _, _, rfl, _⟩
    · exact h
    · exact short_after h hs

/-- The line end does not count where there are no two lines to part. -/
theorem join_of_short (h : Short session) (other : Newline) :
    newline.join session.lines = other.join session.lines := by
  have hlength := h.lines
  cases hl : session.lines with
  | nil => rfl
  | cons line more =>
    cases more with
    | nil => rfl
    | cons second rest =>
      rw [hl, List.length_cons, List.length_cons] at hlength
      omega

/-- A session starts from a text with pairs as it does from one with line feeds. -/
theorem ofText_pairBreaks (hr : '\r' ∉ text) : Session.ofText (pairBreaks text) =
    (Session.ofText text).map (Session.withNewline (if '\n' ∈ text then .crlf else .lf)) := by
  obtain ⟨hlf, hnewline, hsplit⟩ := split_pairBreaks hr
  rw [hnewline] at hsplit
  simp only [Session.ofText, hnewline, hsplit, hlf]
  cases (LineIndex.scan (Newline.lf.split text)).highestId <;> rfl

/-- A batch on a text with pairs in place of its line feeds has the same log and the same fault as on
the text, and comes to the same code with pairs in place of its line feeds. -/
theorem applyChanges_pairBreaks (hr : '\r' ∉ text)
    (hw : ∀ operation ∈ operations, operation.WritesLine) :
    applyChanges (pairBreaks text) operations = (applyChanges text operations).map fun result =>
      ⟨pairBreaks result.code, result.entries⟩ := by
  obtain ⟨hlf, -, -⟩ := split_pairBreaks hr
  rw [applyChanges, applyChanges, ofText_pairBreaks hr]
  cases hs : Session.ofText text with
  | error fault => rfl
  | ok session =>
    obtain ⟨hsession, -⟩ := ofText_starts hs
    rw [hlf] at hsession
    have hindexed : session.Indexed := by
      rw [hsession]
      exact LineIndex.Same.refl _
    have hlined : OneLined session := by
      refine oneLined_of_indexed (fun line hline => ?_) hindexed
      rw [hsession] at hline
      exact not_mem_of_mem_splitOn hline
    simp only [Except.map, bind, Except.bind, Session.run_withNewline]
    cases hrun : session.run operations with
    | error fault => rfl
    | ok pair =>
      obtain ⟨last, entries⟩ := pair
      have hlast : last.newline = .lf := by
        rw [Session.newline_run hrun, hsession]
      have hpairs : pairBreaks last.text = Newline.crlf.join last.lines := by
        rw [Session.text, hlast]
        exact pairBreaks_join (oneLined_run hlined hw hrun).lines
      have htext : (last.withNewline (if '\n' ∈ text then .crlf else .lf)).text =
          pairBreaks last.text := by
        rw [hpairs]
        by_cases hn : '\n' ∈ text
        · rw [if_pos hn]
          rfl
        · have hshort : Short session := by
            apply short_of_indexed hindexed
            rw [hsession]
            exact Nat.le_of_eq (congrArg List.length (List.splitOn_eq_singleton hn))
          exact join_of_short (short_run hshort hrun) .crlf
      simp only [pure, Except.pure, htext]

/-- Labels with line breaks of all kinds, an update, and an operation that is skipped. -/
def breakingOperations : List Operation := [
  { op := "insertNode"
    laneId := some "a"
    afterNodeId := some "n1"
    newNode := some ⟨none, some "x\r\ny", .ofList [("owner", "\n")]⟩ },
  { op := "insertEdge", newEdge := some ⟨"n3", "n2", some "\r\n", "right", "left"⟩ },
  { op := "updateNode", nodeId := some "n2", updates := some (.ofList [("label", "y\nz")]) },
  { op := "removeNode", nodeId := some "n9" }]

theorem applyChanges_pairBreaks_sample : ∃ result,
    applyChanges sample breakingOperations = .ok result ∧
    result.entries.map Entry.isApplied = [true, true, true, false] ∧
    '\r' ∉ sample ∧ (∀ operation ∈ breakingOperations, operation.WritesLine) ∧
    applyChanges (pairBreaks sample) breakingOperations =
      .ok ⟨pairBreaks result.code, result.entries⟩ := by
  have happlied : (applyChanges sample breakingOperations).toOption.map (fun result =>
      result.entries.map Entry.isApplied) = some [true, true, true, false] := by decide +kernel
  have hr : '\r' ∉ sample := by decide
  have hw : ∀ operation ∈ breakingOperations, operation.WritesLine := by decide +kernel
  have hpairs := applyChanges_pairBreaks hr hw
  cases h : applyChanges sample breakingOperations with
  | error fault => simp [h, Except.toOption] at happlied
  | ok result =>
    rw [h] at happlied hpairs
    exact ⟨result, rfl, Option.some.inj happlied, hr, hw, hpairs⟩

end Swimlane.Patch
