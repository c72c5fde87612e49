import Swimlane.Patch.Session

/-! Edits that cannot be made. Each kind of edit is skipped for its own reasons only, and whatever part
of its work is done when the reason is found, the session is then as it was. -/
namespace Swimlane.Patch

open Text

variable {session next : Session} {id lane source target line : Text} {shape : Shape}
  {label after before : Option Text} {properties updates : Attributes} {reason : SkipReason}
  {edge : NewEdge}

/-- Of updates with different keys only that of the shape can be refused, and it is if no shape has
the name. -/
theorem updateAll_eq_error {updates : List (Text × Text)} (hd : (updates.map Prod.fst).Nodup) :
    updateAll line updates = .error reason ↔ ∃ name, ("shape".toList, name) ∈ updates ∧
      Shape.ofName? name = none ∧ reason = .unknownShape name := by
  induction updates generalizing line with
  | nil => simp [updateAll, pure, Except.pure]
  | cons update rest ih =>
    obtain ⟨key, value⟩ := update
    obtain ⟨hkey, hrest⟩ := List.nodup_cons.1 hd
    rw [updateAll, List.foldlM_cons]
    dsimp only
    rw [updateLine]
    by_cases hs : key = "shape".toList
    · subst hs
      have hnone : ∀ name, ("shape".toList, name) ∉ rest :=
        fun name hmem => hkey (List.mem_map.2 ⟨_, hmem, rfl⟩)
      rw [if_pos rfl]
      simp only [List.mem_cons, Prod.mk.injEq, hnone, true_and, or_false, exists_eq_left]
      cases hshape : Shape.ofName? value with
      | some shape =>
        change updateAll (setShape line shape) rest = .error reason ↔ _
        simp only [ih hrest, hnone, false_and, exists_false, reduceCtorEq]
      | none => simp only [bind, Except.bind, Except.error.injEq, true_and, eq_comm]
    · rw [if_neg hs]
      change updateAll (setAttribute line key value) rest = .error reason ↔ _
      simp only [ih hrest, List.mem_cons, Prod.mk.injEq, Ne.symm hs, false_and, false_or]

namespace Session

/-- Why an edit cannot be made as things stand. -/
inductive Unfit (session : Session) : Edit → SkipReason → Prop
  | laneless {lane : Text} {shape : Shape} {label after before : Option Text}
      {properties : Attributes} (hlane : session.index.laneSpans.get? lane = none) :
      Unfit session (.insertNode lane shape label properties after before) (.laneNotFound lane)
  | unremovable {id : Text} (hnode : session.index.nodeLines.get? id = none) :
      Unfit session (.removeNode id) (.nodeNotFound id)
  | unknown {id : Text} {updates : Attributes} (hnode : session.index.nodeLines.get? id = none) :
      Unfit session (.updateNode id updates) (.nodeNotFound id)
  | shapeless {id line name : Text} {updates : Attributes} {position : Int}
      (hnode : session.index.nodeLines.get? id = some position)
      (hline : session.lines[position.toNat]? = some line)
      (hname : ("shape".toList, name) ∈ updates.entries) (hshape : Shape.ofName? name = none) :
      Unfit session (.updateNode id updates) (.unknownShape name)
  | sourceless {edge : NewEdge} (hsource : session.index.nodeLanes.get? edge.source = none) :
      Unfit session (.insertEdge edge) (.sourceNotFound edge.source)
  | unclosed {edge : NewEdge} {lane : Text}
      (hsource : session.index.nodeLanes.get? edge.source = some lane)
      (hlane : session.index.laneSpans.get? lane = none) :
      Unfit session (.insertEdge edge) (.laneNotFound lane)
  | edgeless {source target : Text}
      (hedge : ∀ line ∈ session.lines, isEdgeBetween source target line = false) :
      Unfit session (.removeEdge source target) (.edgeNotFound source target)

/-- The lane is looked up before a number is drawn. -/
theorem insertNode_skipped :
    session.insertNode lane shape label properties after before = .ok (.skipped reason next) ↔
      next = session ∧ session.Unfit (.insertNode lane shape label properties after before) reason := by
  rw [insertNode]
  cases hlane : session.index.laneSpans.get? lane with
  | none =>
    simp only [pure, Except.pure, Except.ok.injEq, Effect.skipped.injEq]
    constructor
    · rintro ⟨rfl, rfl⟩
      exact ⟨rfl, .laneless hlane⟩
    · rintro ⟨rfl, hunfit⟩
      cases hunfit
      exact ⟨rfl, rfl⟩
  | some span =>
    refine iff_of_false (fun h => ?_) fun ⟨_, hunfit⟩ => ?_
    · cases hid : session.nextId <;> simp [hid, bind, Except.bind, pure, Except.pure] at h
    · cases hunfit with
      | laneless hnone => cases hlane.symm.trans hnone

/-- The node is looked up before it is forgotten. -/
theorem removeNode_skipped : session.removeNode id = .ok (.skipped reason next) ↔
    next = session ∧ session.Unfit (.removeNode id) reason := by
  rw [removeNode]
  cases hnode : session.index.nodeLines.get? id with
  | none =>
    simp only [pure, Except.pure, Except.ok.injEq, Effect.skipped.injEq]
    constructor
    · rintro ⟨rfl, rfl⟩
      exact ⟨rfl, .unremovable hnode⟩
    · rintro ⟨rfl, hunfit⟩
      cases hunfit
      exact ⟨rfl, rfl⟩
  | some position =>
    refine iff_of_false (fun h => ?_) fun ⟨_, hunfit⟩ => ?_
    · cases hremoved : removeLine { session with index := session.index.forgetNode id } position <;>
        simp [hremoved, bind, Except.bind, pure, Except.pure] at h
    · cases hunfit with
      | unremovable hnone => cases hnode.symm.trans hnone

/-- The line is written when all updates are made on a copy of it. -/
theorem updateNode_skipped : session.updateNode id updates = .ok (.skipped reason next) ↔
    next = session ∧ session.Unfit (.updateNode id updates) reason := by
  rw [updateNode]
  cases hnode : session.index.nodeLines.get? id with
  | none =>
    simp only [Except.ok.injEq, Effect.skipped.injEq]
    constructor
    · rintro ⟨rfl, rfl⟩
      exact ⟨rfl, .unknown hnode⟩
    · rintro ⟨rfl, hunfit⟩
      cases hunfit with
      | unknown => exact ⟨rfl, rfl⟩
      | shapeless hsome => cases hnode.symm.trans hsome
  | some position =>
    cases hline : session.lines[position.toNat]? with
    | none =>
      refine iff_of_false (by simp [hline]) fun ⟨_, hunfit⟩ => ?_
      cases hunfit with
      | unknown hnone => cases hnode.symm.trans hnone
      | shapeless hsome hthere =>
        cases hnode.symm.trans hsome
        cases hline.symm.trans hthere
    | some line =>
      have hunfit : session.Unfit (.updateNode id updates) reason ↔
          updateAll line updates.entries = .error reason := by
        rw [updateAll_eq_error updates.distinct]
        constructor
        · intro h
          cases h with
          | unknown hnone => cases hnode.symm.trans hnone
          | shapeless _ _ hname hshape => exact ⟨_, hname, hshape, rfl⟩
        · rintro ⟨name, hname, hshape, rfl⟩
          exact .shapeless hnode hline hname hshape
      rw [hunfit]
      simp only [hline]
      cases updateAll line updates.entries with
      | error other => simp [and_comm, eq_comm]
      | ok new => simp

/-- The source and the end of its lane are looked up before a line is put in. -/
theorem insertEdge_skipped : session.insertEdge edge = .skipped reason next ↔
    next = session ∧ session.Unfit (.insertEdge edge) reason := by
  rw [insertEdge]
  cases hsource : session.index.nodeLanes.get? edge.source with
  | none =>
    simp only [Effect.skipped.injEq]
    constructor
    · rintro ⟨rfl, rfl⟩
      exact ⟨rfl, .sourceless hsource⟩
    · rintro ⟨rfl, hunfit⟩
      cases hunfit with
      | sourceless => exact ⟨rfl, rfl⟩
      | unclosed hsome => cases hsource.symm.trans hsome
  | some lane =>
    cases hlane : session.index.laneSpans.get? lane with
    | none =>
      simp only [hlane, Effect.skipped.injEq]
      constructor
      · rintro ⟨rfl, rfl⟩
        exact ⟨rfl, .unclosed hsource hlane⟩
      · rintro ⟨rfl, hunfit⟩
        cases hunfit with
        | sourceless hnone => cases hsource.symm.trans hnone
        | unclosed hsome =>
          cases hsource.symm.trans hsome
          exact ⟨rfl, rfl⟩
    | some span =>
      refine iff_of_false (by simp [hlane]) fun ⟨_, hunfit⟩ => ?_
      cases hunfit with
      | sourceless hnone => cases hsource.symm.trans hnone
      | unclosed hsome hnone =>
        cases hsource.symm.trans hsome
        cases hlane.symm.trans hnone

/-- All lines are looked at before one is taken out. -/
theorem removeEdge_skipped : session.removeEdge source target = .ok (.skipped reason next) ↔
    next = session ∧ session.Unfit (.removeEdge source target) reason := by
  rw [removeEdge]
  cases hfind : session.lines.findIdx? (isEdgeBetween source target) with
  | none =>
    simp only [pure, Except.pure, Except.ok.injEq, Effect.skipped.injEq]
    constructor
    · rintro ⟨rfl, rfl⟩
      exact ⟨rfl, .edgeless (List.findIdx?_eq_none_iff.1 hfind)⟩
    · rintro ⟨rfl, hunfit⟩
      cases hunfit
      exact ⟨rfl, rfl⟩
  | some position =>
    refine iff_of_false (fun h => ?_) fun ⟨_, hunfit⟩ => ?_
    · cases hremoved : session.removeLine position <;>
        simp [hremoved, bind, Except.bind, pure, Except.pure] at h
    · cases hunfit with
      | edgeless hnone => cases hfind.symm.trans (List.findIdx?_eq_none_iff.2 hnone)

/-- An edit is skipped exactly if it cannot be made, and leaves the session as it was. -/
theorem perform_skipped {edit : Edit} : session.perform edit = .ok (.skipped reason next) ↔
    next = session ∧ session.Unfit edit reason := by
  cases edit with
  | insertNode lane shape label properties after before => exact insertNode_skipped
  | removeNode id => exact removeNode_skipped
  | updateNode id updates => exact updateNode_skipped
  | insertEdge edge =>
    rw [perform, Except.ok.injEq]
    exact insertEdge_skipped
  | removeEdge source target => exact removeEdge_skipped

end Session

end Swimlane.Patch
