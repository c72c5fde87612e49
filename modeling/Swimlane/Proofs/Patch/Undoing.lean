import Swimlane.Proofs.Diagram.EdgeSearch
import Swimlane.Proofs.Patch.GivenIds

/-! Insertions that are taken back: a removal that follows at once leaves the lines and the index as
they were before. -/
namespace Swimlane.Patch

open Text Line

variable {lines : List Text} {line lane other id source target text : Text} {p : Text → Bool}
  {found : Nat} {position : Int} {index : LineIndex} {shape : Shape} {label after before : Option Text}
  {properties : Attributes} {edge : NewEdge} {change : Change} {entry : Entry}
  {session next first : Session} {inserting removing : Operation} {operations : List Operation}

namespace LineIndex

/-- What moves for a line that is put in moves back when the line is taken out. -/
theorem shift_back (index : LineIndex) (position : Int) :
    (index.shift position 1).shift (position + 1) (-1) = index := by
  have hback : ∀ place, movedFrom (position + 1) (-1) (movedFrom position 1 place) = place := by
    intro place
    simp only [movedFrom]
    split <;> split <;> omega
  exact (relocate_relocate _ _ index).trans (relocate_id hback)

end LineIndex

/-- The lines above a place and those from it on. -/
theorem exists_cut (h : found ≤ lines.length) :
    ∃ above below, lines = above ++ below ∧ found = above.length :=
  ⟨lines.take found, lines.drop found, (List.take_append_drop _ _).symm,
    (List.length_take_of_le h).symm⟩

theorem eraseIdx_insertAt (h : found ≤ lines.length) :
    (insertAt found line lines).eraseIdx found = lines := by
  obtain ⟨above, below, rfl, rfl⟩ := exists_cut h
  rw [insertAt_length, eraseIdx_length]

/-- A search that finds no line finds the one that is put in. -/
theorem findIdx?_insertAt (h : found ≤ lines.length) (hnone : lines.findIdx? p = none)
    (hline : p line = true) : (insertAt found line lines).findIdx? p = some found := by
  obtain ⟨above, below, rfl, rfl⟩ := exists_cut h
  rw [List.findIdx?_append, Option.or_eq_none_iff] at hnone
  rw [insertAt_length, List.findIdx?_append, hnone.1, List.findIdx?_cons, hline]
  simp

/-- A new edge whose target has at most the mark of a lane is found. -/
theorem isEdgeBetween_renderEdge_marked {sourceHandle mark targetHandle : Text} (label : Option Text)
    (hs : IsHandle sourceHandle) (hm : LaneMark mark) (ht : IsHandle targetHandle) :
    isEdgeBetween source target (renderEdge source sourceHandle (mark ++ target) targetHandle label) =
      true := by
  have hblanks : ∀ c ∈ indent ++ [' '] ++ [' '], isBlank c = true := List.all_eq_true.1 (by decide)
  have husual : UsualEdge source target (indent ++ writtenEnd ([] ++ source) sourceHandle ([' '] ++
      (arrow ++ ([' '] ++ writtenEnd (mark ++ target) targetHandle (writtenLabel label))))) :=
    .intro hblanks .none hs hm ht
  rw [renderEdge_eq]
  exact isEdgeBetween_of_usual husual

namespace Session

/-- The node that was put in last can be taken out, and only the number that it was given is used up. -/
theorem removeNode_after_insertNode (hs : Safe session)
    (h : session.insertNode lane shape label properties after before = .ok (.applied change next)) :
    next.removeNode session.freshId = .ok (.applied (.removedNode session.freshId)
      { session with lastId := session.lastId + 1 }) := by
  have hperform : session.perform (.insertNode lane shape label properties after before) =
      .ok (.applied change next) := h
  obtain ⟨splice, hsplice, rfl⟩ := exists_splice hperform
  cases spliced hsplice with
  | @insertNode _ _ _ _ _ _ span hspan hid =>
    obtain ⟨hfirst, hlast⟩ := hs.index.insertionLine hspan after before
    obtain ⟨hline, hlane⟩ := fresh_of_safe hs (Nat.le_refl _) hid
    generalize session.insertionLine lane span after before = position at hfirst hlast
    have hlength : position.toNat ≤ session.lines.length := by omega
    have hmoved : (session.index.shift position 1).nodeLines.get? session.freshId = none := by
      simp [LineIndex.shift, hline]
    have hindex : (((session.index.shift position 1).addNode session.freshId lane position).forgetNode
        session.freshId).shift (position + 1) (-1) = session.index := by
      rw [LineIndex.forgetNode_addNode hmoved hlane, LineIndex.shift_back]
    have hnode : ((session.index.shift position 1).addNode session.freshId lane position).nodeLines.get?
        session.freshId = some position := by
      simp [LineIndex.addNode]
    have hlonger : position.toNat < (insertAt position.toNat (renderNode session.freshId shape
        (newAttributes label properties)) session.lines).length := by
      simp only [insertAt, List.length_append, List.length_cons, List.length_take, List.length_drop]
      omega
    rw [removeNode_eq hnode hlonger]
    simp only [Session.after, indexAfter, Splice.shift, Splice.apply, Splice.position,
      eraseIdx_insertAt hlength, hindex]
    rfl

/-- The name of a target in no lane, in that of the source or in one whose name is a word. -/
theorem exists_mark_targetName (h : ∀ other, session.index.nodeLanes.get? target = some other →
      other = lane ∨ IsName other) :
    ∃ mark, LaneMark mark ∧ session.targetName lane target = mark ++ target := by
  rcases (targetName_eq lane target : session.targetName lane target = target ∨ _) with
    hplain | ⟨other, hother, hne, hdotted⟩
  · exact ⟨[], .none, hplain⟩
  · refine ⟨other ++ ['.'], .lane ((h other hother).resolve_left hne), ?_⟩
    rw [append_mark, hdotted]

/-- The edge that was put in last can be taken out, and all is as it was before. -/
theorem removeEdge_after_insertEdge_eq (hs : Safe session)
    (h : session.insertEdge edge = .applied change next)
    (hskip : session.lines.findIdx? (isEdgeBetween edge.source edge.target) = none)
    (hsh : IsHandle edge.sourceHandle) (hth : IsHandle edge.targetHandle)
    (hlane : ∀ lane, session.index.nodeLanes.get? edge.target = some lane →
      session.index.nodeLanes.get? edge.source = some lane ∨ IsName lane) :
    next.removeEdge edge.source edge.target =
      .ok (.applied (.removedEdge edge.source edge.target) session) := by
  have hperform : session.perform (.insertEdge edge) = .ok (.applied change next) :=
    congrArg Except.ok h
  obtain ⟨splice, hsplice, rfl⟩ := exists_splice hperform
  cases spliced hsplice with
  | @insertEdge lane _ span hsource hspan =>
    obtain ⟨_, _, brace, hbrace, _⟩ := hs.index.spans lane span hspan
    obtain ⟨hfirst, hlast⟩ := lt_of_lineAt? hbrace
    have hlength : span.closing.toNat ≤ session.lines.length := by omega
    obtain ⟨mark, hmark, hname⟩ : ∃ mark, LaneMark mark ∧
        session.targetName lane edge.target = mark ++ edge.target :=
      exists_mark_targetName fun other hother =>
        (hlane other hother).imp_left fun heq => Option.some.inj (heq.symm.trans hsource)
    have hfind : (session.after (.insertEdge edge) (.insert span.closing
        (session.edgeLine lane edge))).lines.findIdx? (isEdgeBetween edge.source edge.target) =
          some span.closing.toNat := by
      refine findIdx?_insertAt hlength hskip ?_
      rw [edgeLine, hname]
      exact isEdgeBetween_renderEdge_marked _ hsh hmark hth
    rw [removeEdge_eq hfind]
    simp only [Session.after, indexAfter, Splice.shift, Splice.apply, eraseIdx_insertAt hlength,
      Int.toNat_of_nonneg hfirst, LineIndex.shift_back]
    rfl

/-- A step that gives an id has put a node in. -/
theorem insertNode_of_newId? (h : session.step inserting = .ok (next, entry))
    (hid : entry.newId? = some id) : id = session.freshId ∧
      ∃ lane shape label properties after before change,
        session.insertNode lane shape label properties after before = .ok (.applied change next) := by
  rcases step_ok h with ⟨_, _, _, rfl⟩ | ⟨_, _, _, _, _, rfl⟩ | ⟨edit, change, _, hp, rfl⟩
  · cases hid
  · cases hid
  · have hids := newId?_of_perform hp
    rw [show change.newId? = some id from hid] at hids
    cases edit with
    | insertNode lane shape label properties after before =>
      exact ⟨(List.cons.inj hids).1, lane, shape, label, properties, after, before, change, hp⟩
    | _ => cases hids

/-- A removal of an edge that is skipped finds no line. -/
theorem findIdx?_of_skipped (hr : removing.edit? = .ok (.removeEdge source target))
    (h : session.step removing = .ok (next, entry)) (hskip : entry.isApplied = false) :
    session.lines.findIdx? (isEdgeBetween source target) = none := by
  cases hfind : session.lines.findIdx? (isEdgeBetween source target) with
  | none => rfl
  | some found =>
    rw [step_applied hr (removeEdge_eq hfind), Except.ok.injEq, Prod.mk.injEq] at h
    rw [← h.2] at hskip
    cases hskip

end Session

/-- In every session of a run, a new node or edge can be taken back by a removal that follows at once:
lines, index and text are those from before, and only the number that a node was given is used up. An
edge is taken back if its removal would have been skipped before, its handles are such, and its target
is in no lane, in that of its source or in one whose name is a word. -/
theorem insertion_undone (hp : ∀ operation ∈ operations, operation.PlainSource)
    (hs : Session.ofText text = .ok first) (hmem : session ∈ first.states operations)
    (hi : session.step inserting = .ok (next, entry)) :
    (∀ id, entry.newId? = some id → removing.edit? = .ok (.removeNode id) →
      ∃ last, next.step removing = .ok (last, ⟨removing.op, .applied (.removedNode id)⟩) ∧
        last = { session with lastId := session.lastId + 1 } ∧ last.text = session.text) ∧
    ∀ edge other passed, inserting.edit? = .ok (.insertEdge edge) → entry.isApplied = true →
      removing.edit? = .ok (.removeEdge edge.source edge.target) →
      session.step removing = .ok (other, passed) → passed.isApplied = false →
      IsHandle edge.sourceHandle → IsHandle edge.targetHandle →
      (∀ lane, session.index.nodeLanes.get? edge.target = some lane →
        session.index.nodeLanes.get? edge.source = some lane ∨ IsName lane) →
      ∃ last, next.step removing =
          .ok (last, ⟨removing.op, .applied (.removedEdge edge.source edge.target)⟩) ∧
        last = session ∧ last.text = session.text := by
  have hsafe := (safe_states (safe_ofText hs) hp).1 session hmem
  constructor
  · intro id hid hr
    obtain ⟨rfl, lane, shape, label, properties, after, before, change, hinsert⟩ :=
      Session.insertNode_of_newId? hi hid
    exact ⟨_, Session.step_applied hr (Session.removeNode_after_insertNode hsafe hinsert), rfl, rfl⟩
  · intro edge other passed he happlied hr hremoved hskip hsh hth hlane
    rcases Session.step_ok hi with ⟨_, _, _, rfl⟩ | ⟨_, _, _, _, _, rfl⟩ |
      ⟨edit, change, hedit, hinsert, rfl⟩
    · cases happlied
    · cases happlied
    · rw [he, Except.ok.injEq] at hedit
      subst hedit
      exact ⟨session, Session.step_applied hr (Session.removeEdge_after_insertEdge_eq hsafe
        (Except.ok.inj hinsert) (Session.findIdx?_of_skipped hr hremoved hskip) hsh hth hlane), rfl, rfl⟩

/-- A new node whose line looks like the end of a lane, and its removal. -/
def nodeAndBack : Operation × Operation :=
  ({ op := "insertNode", laneId := some "a", newNode := some ⟨none, some "\x7d\n\x7b # t", .empty⟩ },
    { op := "removeNode", nodeId := some "n4" })

/-- An edge between two nodes, and its removal. -/
def edgeAndBack : Operation × Operation :=
  ({ op := "insertEdge", newEdge := some ⟨"n2", "n3", some "\x7d", "right", "left"⟩ },
    { op := "removeEdge", newEdge := some ⟨"n2", "n3", none, "right", "left"⟩ })

theorem insertion_undone_hostile : ∃ first session node edge, Session.ofText mixedSample = .ok first ∧
    session ∈ first.states hostileOperations ∧
    session.step nodeAndBack.1 = .ok node ∧ node.2.newId? = some "n4".toList ∧
    node.1.step nodeAndBack.2 = .ok ({ session with lastId := session.lastId + 1 },
      ⟨"removeNode", .applied (.removedNode "n4")⟩) ∧
    session.step edgeAndBack.1 = .ok edge ∧ edge.2.isApplied = true ∧
    edge.1.step edgeAndBack.2 = .ok (session, ⟨"removeEdge", .applied (.removedEdge "n2" "n3")⟩) := by
  have hplain : ∀ operation ∈ hostileOperations, operation.PlainSource := by decide +kernel
  have hrun : (Session.ofText mixedSample).toOption.map (fun first =>
      let session := (first.trace hostileOperations).last first
      ((session.step nodeAndBack.1).toOption.map fun node => node.2.newId?,
        (session.step edgeAndBack.1).toOption.map fun edge => edge.2.isApplied,
        (session.step edgeAndBack.2).toOption.map fun edge => edge.2.isApplied,
        session.index.nodeLanes.get? "n3")) =
      some (some (some "n4".toList), some true, some false, some "a".toList) := by decide +kernel
  cases hs : Session.ofText mixedSample with
  | error fault => simp [hs, Except.toOption] at hrun
  | ok first =>
    have hmem : (first.trace hostileOperations).last first ∈ first.states hostileOperations :=
      List.getLastD_mem_cons
    rw [hs] at hrun
    simp only [Except.toOption, Option.map_some, Option.some.injEq, Prod.mk.injEq] at hrun
    generalize (first.trace hostileOperations).last first = session at hmem hrun
    obtain ⟨hnode, hedge, hskip, hlane⟩ := hrun
    cases hn : session.step nodeAndBack.1 with
    | error fault => simp [hn] at hnode
    | ok node =>
      cases he : session.step edgeAndBack.1 with
      | error fault => simp [he] at hedge
      | ok edge =>
        cases hr : session.step edgeAndBack.2 with
        | error fault => simp [hr] at hskip
        | ok passed =>
          simp only [hn, he, hr, Option.map_some, Option.some.injEq] at hnode hedge hskip
          have hnodeBack : nodeAndBack.2.edit? = .ok (.removeNode "n4") := rfl
          have hedgeBack : edgeAndBack.2.edit? = .ok (.removeEdge "n2" "n3") := rfl
          obtain ⟨last, hlast, rfl, _⟩ := (insertion_undone hplain hs hmem hn).1 _ hnode hnodeBack
          obtain ⟨_, hback, rfl, _⟩ := (insertion_undone hplain hs hmem he).2
            ⟨"n2", "n3", some "\x7d", "right", "left"⟩ passed.1 passed.2 rfl hedge hedgeBack hr hskip
            (isHandle_of_isName (by decide)) (isHandle_of_isName (by decide))
            fun lane h => Or.inr (Option.some.inj (hlane.symm.trans h) ▸ by decide)
          exact ⟨first, _, node, edge, rfl, hmem, hn, hnode, hlast, he, hedge, hback⟩

end Swimlane.Patch
