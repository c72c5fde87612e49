import Swimlane.Proofs.Diagram.LaneLabels
import Swimlane.Proofs.Patch.Provenance
import Swimlane.Proofs.Patch.Removal

/-! What clean edits make of the lanes. An edit opens no lane and closes none, but a line that is taken
out may have stood between a lane without a label and a comment, which then is the lane's label. -/
namespace Swimlane.Patch

open Text Line

variable {session next last : Session} {edit : Edit} {operation : Operation}
  {operations : List Operation} {entry : Entry} {entries : List Entry} {splice : Splice}
  {lane line new source target : Text} {above below : List Text} {edge : NewEdge}

/-- The lane that finds its label below when a line is taken out, and the label. -/
def Splice.uncovers? (lines : List Text) : Splice → Option (Text × Text)
  | .remove position =>
    uncovered? (readLines (lines.take position.toNat)) (readLines (lines.drop (position.toNat + 1)))
  | _ => none

/-- The lanes that find their labels below in the course of a run, and the labels. -/
def Session.uncoverings (session : Session) : List Operation → List (Text × Text)
  | [] => []
  | operation :: rest =>
    ((session.effect? operation).bind (Splice.uncovers? session.lines)).toList ++
      match session.step operation with
      | .ok (next, _) => next.uncoverings rest
      | .error _ => []

/-- The lanes of a text that operations on it let find their labels, and the labels. -/
def uncoverings (text : Text) (operations : List Operation) : List (Text × Text) :=
  (Session.ofText text).toOption.elim [] fun session => session.uncoverings operations

/-- A line that covers what is below does not change the lanes beside the line of a node or a brace. -/
theorem lanesOf_insert_beside (hb : Session.Beside above below) (hn : Covers new) :
    lanesOf (above ++ new :: below) = lanesOf (above ++ below) := by
  rcases hb with ⟨rest, node, rfl, hnode⟩ | ⟨next, rest, rfl, hnext⟩
  · obtain ⟨id, hid⟩ := Option.isSome_iff_exists.1 hnode
    rw [List.append_assoc, List.append_assoc]
    exact lanesOf_insert_below hn (covers_of_node hid)
  · have hcovers : Covers next := by
      rcases hnext with hnode | hclose
      · obtain ⟨id, hid⟩ := Option.isSome_iff_exists.1 hnode
        exact covers_of_node hid
      · exact covers_of_close hclose
    exact lanesOf_insert_above hn hcovers

theorem covers_edgeLine (lane : Text) (hf : Faithful session) (hc : (Edit.insertEdge edge).IsClean) :
    Covers (session.edgeLine lane edge) := by
  obtain ⟨point, _, hread⟩ := exists_read_edgeLine lane hf hc
  exact covers_of_name (by rw [hread]; rfl) hc.1 (trim_renderEdge hc.1)

/-- A line that is found as an edge covers what is below. -/
theorem covers_found (hf : Faithful session) (hs : IsName source) (hline : line ∈ session.lines)
    (h : isEdgeBetween source target line = true) : Covers line := by
  have hinert := inert_of_isEdgeBetween (hf.breaks line hline)
    (fun id label hread => (hf.lanes line hline id label hread).1) h
  exact covers_of_isEdgeBetween (laneId?_of_inert hinert) hs h

theorem lanesOf_apply_insert (hl : session.lines = above ++ below)
    (hb : Session.Beside above below) (hn : Covers new) :
    lanesOf ((Splice.insert above.length new).apply session.lines) = lanesOf session.lines := by
  rw [hl, Splice.apply, Int.toNat_natCast, insertAt_length]
  exact lanesOf_insert_beside hb hn

theorem lanesOf_apply_rewrite (hl : session.lines = above ++ line :: below) (h : Covers line)
    (hn : Covers new) :
    lanesOf ((Splice.rewrite above.length new).apply session.lines) = lanesOf session.lines := by
  have hset : (above ++ line :: below).set above.length new = above ++ new :: below := by simp
  rw [hl, Splice.apply, Int.toNat_natCast, hset]
  exact lanesOf_replace hn h

theorem lanesOf_apply_remove (hl : session.lines = above ++ line :: below) (h : Covers line) :
    lanesOf ((Splice.remove above.length).apply session.lines) =
      ((Splice.remove above.length).uncovers? session.lines).toList.foldl
        (relabel Classifier.byWords.laneKind) (lanesOf session.lines) := by
  have htake : (above ++ line :: below).take above.length = above := List.take_left
  have hdrop : (above ++ line :: below).drop (above.length + 1) = below := by
    rw [List.drop_length_add_append, List.drop_one, List.tail_cons]
  rw [hl, Splice.apply, Splice.uncovers?, Int.toNat_natCast, eraseIdx_length, htake, hdrop]
  exact lanesOf_remove h

/-- A clean edit leaves the lanes as they are, but for one that finds its label below. -/
theorem lanesOf_after (hf : Faithful session) (hc : edit.IsClean)
    (hs : session.splice? edit = some splice) : lanesOf (session.after edit splice).lines =
      (splice.uncovers? session.lines).toList.foldl (relabel Classifier.byWords.laneKind)
        (lanesOf session.lines) := by
  rw [Session.after]
  cases Session.spliced hs with
  | @insertNode lane shape label properties after before span hspan hid =>
    obtain ⟨above, below, hlines, hposition, _, hbeside⟩ :=
      Session.exists_insertionLine hf.index hspan after before
    obtain ⟨_, attributes, hread⟩ := exists_read_newNode session shape hc.1 hc.2
    rw [hposition]
    exact lanesOf_apply_insert hlines hbeside (covers_of_node (nodeId?_of_read hread))
  | removeNode hline =>
    obtain ⟨above, line, below, hlines, rfl, hid, _⟩ := Session.exists_nodeLine hf.index hline
    exact lanesOf_apply_remove hlines (covers_of_node hid)
  | @updateNode id line new updates position hline hget hnew =>
    obtain ⟨above, found, below, hlines, rfl, hid, _⟩ := Session.exists_nodeLine hf.index hline
    have hsame : found = line := by simpa [hlines] using hget
    subst hsame
    obtain ⟨hwritten, _⟩ := nodeId?_updateAll hid (hf.breaks found (by simp [hlines])) hc hnew
    exact lanesOf_apply_rewrite hlines (covers_of_node hid) (covers_of_node hwritten)
  | @insertEdge lane edge span hlane hspan =>
    obtain ⟨above, close, below, hlines, hposition, hclose, _⟩ :=
      Session.exists_laneSpan hf.index hspan
    rw [hposition]
    exact lanesOf_apply_insert hlines (Or.inr ⟨close, below, rfl, Or.inr hclose⟩)
      (covers_edgeLine lane hf hc)
  | @removeEdge source target position hfind =>
    obtain ⟨above, line, below, hlines, rfl, hedge, _⟩ := exists_of_findIdx? hfind
    exact lanesOf_apply_remove hlines (covers_found hf hc.1 (by simp [hlines]) hedge)

theorem lanesOf_step (hf : Faithful session) (hc : operation.IsClean)
    (h : session.step operation = .ok (next, entry)) : lanesOf next.lines =
      ((session.effect? operation).bind (Splice.uncovers? session.lines)).toList.foldl
        (relabel Classifier.byWords.laneKind) (lanesOf session.lines) := by
  rcases Session.step_eq_ok h with ⟨rfl, hnone, _⟩ | ⟨edit, splice, _, hedit, hs, _, _, rfl, _⟩
  · rw [hnone]
    rfl
  · rw [Session.effect?_eq hedit, hs]
    exact lanesOf_after hf (hc edit hedit) hs

/-- A run from faithful lines names all lanes that find their labels, in order. -/
theorem lanesOf_run (hf : Faithful session) (hc : ∀ operation ∈ operations, operation.IsClean)
    (h : session.run operations = .ok (last, entries)) : lanesOf last.lines =
      (session.uncoverings operations).foldl (relabel Classifier.byWords.laneKind)
        (lanesOf session.lines) := by
  induction operations generalizing session entries with
  | nil =>
    cases h
    rfl
  | cons operation rest ih =>
    obtain ⟨after, entry, more, hstep, hrest, rfl⟩ := Session.run_cons_eq_ok.1 h
    have hclean := hc operation (by simp)
    have hlater := ih (faithful_step hf hclean hstep)
      (fun other hother => hc other (List.mem_cons_of_mem _ hother)) hrest
    simp only [Session.uncoverings, hstep]
    rw [List.foldl_append, ← lanesOf_step hf hclean hstep, hlater]

/-- Only a line that is taken out lets a lane find its label. -/
theorem uncovers?_eq_none (h : session.step operation = .ok (next, entry))
    (hk : entry.outcome.removes = false) :
    (session.effect? operation).bind (Splice.uncovers? session.lines) = none := by
  rcases Session.step_eq_ok h with ⟨_, hnone, _⟩ | ⟨edit, splice, change, hedit, hs, _, ht, _, rfl⟩
  · rw [hnone]
    rfl
  · rw [Session.effect?_eq hedit, hs, Option.bind_some]
    cases splice with
    | remove position => cases change <;> simp [Change.Tells, Outcome.removes] at ht hk
    | _ => rfl

theorem uncoverings_eq_nil (h : session.run operations = .ok (last, entries))
    (hk : ∀ entry ∈ entries, entry.outcome.removes = false) : session.uncoverings operations = [] := by
  induction operations generalizing session entries with
  | nil => rfl
  | cons operation rest ih =>
    obtain ⟨after, entry, more, hstep, hrest, rfl⟩ := Session.run_cons_eq_ok.1 h
    have hlater := ih hrest fun other hother => hk other (List.mem_cons_of_mem _ hother)
    simp only [Session.uncoverings, hstep]
    rw [uncovers?_eq_none hstep (hk entry (by simp)), hlater]
    rfl

/-- A clean batch on a tidy text leaves the lanes as they are, but for those that find their labels
when a line is taken out; it keeps all ids, and all lanes if no line is taken out. -/
theorem lanes_applyChanges {text : Text} {result : Result} (ht : Tidy text)
    (hc : ∀ operation ∈ operations, operation.IsClean)
    (h : applyChanges text operations = .ok result) :
    (Graph.ofText result.code).lanes = (uncoverings text operations).foldl
        (relabel Classifier.byWords.laneKind) (Graph.ofText text).lanes ∧
      (Graph.ofText result.code).lanes.map Lane.id = (Graph.ofText text).lanes.map Lane.id ∧
      ((∀ entry ∈ result.entries, entry.outcome.removes = false) →
        (Graph.ofText result.code).lanes = (Graph.ofText text).lanes) := by
  obtain ⟨session, last, entries, hs, hrun, rfl⟩ := applyChanges_eq_ok h
  have hfirst := faithful_ofText ht hs
  have hlast := faithful_run hfirst hc hrun
  have hfound : uncoverings text operations = session.uncoverings operations := by
    rw [uncoverings, hs]
    rfl
  have hlines : (Graph.ofText text).lanes = lanesOf session.lines := by
    rw [lanes_ofText, (ofText_eq_ok ht.breaks hs).1]
  have hlanes : (Graph.ofText last.text).lanes = (uncoverings text operations).foldl
      (relabel Classifier.byWords.laneKind) (Graph.ofText text).lanes := by
    rw [Session.text, lanes_join _ hlast.breaks, hfound, hlines, lanesOf_run hfirst hc hrun]
  refine ⟨hlanes, ?_, fun hkeeps => ?_⟩
  · rw [hlanes, map_id_foldl_relabel]
  · rw [hlanes, hfound, uncoverings_eq_nil hrun hkeeps, List.foldl_nil]

/-- A lane without a label, a node, and a comment below the node. -/
def coveredLabel : Text := "a \x7b\nn1: circle\n# Users\n\x7d\n"

theorem lanes_applyChanges_covered : ∃ result,
    applyChanges coveredLabel [sampleInsertion, firstRemoval] = .ok result ∧
    result.entries.map Entry.isApplied = [true, true] ∧
    uncoverings coveredLabel [sampleInsertion, firstRemoval] = [("a".toList, "Users".toList)] ∧
    (Graph.ofText coveredLabel).lanes = [⟨"a", "a", .unknown⟩] ∧
    (Graph.ofText result.code).lanes = [⟨"a", "Users", .actor⟩] := by
  have happlied : (applyChanges coveredLabel [sampleInsertion, firstRemoval]).toOption.map
      (fun result => result.entries.map Entry.isApplied) = some [true, true] := by decide +kernel
  have hfound : uncoverings coveredLabel [sampleInsertion, firstRemoval] =
      [("a".toList, "Users".toList)] := by
    decide +kernel
  have hlanes : (Graph.ofText coveredLabel).lanes = [⟨"a", "a", .unknown⟩] := by decide +kernel
  cases h : applyChanges coveredLabel [sampleInsertion, firstRemoval] with
  | error fault => simp [h, Except.toOption] at happlied
  | ok result =>
    rw [h] at happlied
    have hresult := (lanes_applyChanges (by decide +kernel) (by decide +kernel) h).1
    rw [hfound, hlanes] at hresult
    exact ⟨result, rfl, Option.some.inj happlied, hfound, hlanes, hresult.trans (by decide +kernel)⟩

/-- The removal of a node gives the lane around it another label and another kind. -/
theorem lane_finds_label : Tidy coveredLabel ∧ firstRemoval.IsClean ∧
    (Graph.ofText coveredLabel).lanes = [⟨"a", "a", .unknown⟩] ∧
    (applyChanges coveredLabel [firstRemoval]).toOption.map
      (fun result => (Graph.ofText result.code).lanes) = some [⟨"a", "Users", .actor⟩] := by
  decide +kernel

end Swimlane.Patch
