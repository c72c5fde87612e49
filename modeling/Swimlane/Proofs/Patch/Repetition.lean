import Swimlane.Proofs.Diagram.NodeRecord

/-! Updates that are made again: the value that is set last stands, and the same update changes no more. -/
namespace Swimlane

open Text Escaped Line Patch

variable {line text blanks id key value margin gap rest other first : Text} {shape : Shape}
  {updates : List (Text × Text)}

/-- The value that is set last is the one that stands. -/
theorem setAttribute_setAttribute (hm : MarksInside line) (hk : IsName key) (first second : Text) :
    setAttribute (setAttribute line key first) key second = setAttribute line key second := by
  obtain ⟨above, below, hslot⟩ := exists_slot key line
  have hagain : Slot key (setAttribute line key first) above below :=
    .inPlace (pieces_setAttribute hm hk hslot first) (slot_free hslot)
  rw [setAttribute_slot hagain, setAttribute_slot hslot]

/-- The first attribute with the key is written as it would be for the value. -/
def Settled (line key value : Text) : Prop :=
  (pieces line).find? (·.hasKey key) = some (.written key value)

theorem hasKey_written (key value : Text) : (Piece.written key value).hasKey key = true := by
  simp [Piece.written, Piece.hasKey]

theorem settled_setAttribute (hm : MarksInside line) (hk : IsName key) (value : Text) :
    Settled (setAttribute line key value) key value := by
  obtain ⟨above, below, h⟩ := exists_slot key line
  have hfree := slot_free h
  rw [Settled, pieces_setAttribute hm hk h, List.find?_append,
    List.find?_eq_none.2 fun piece hp => by simp [hfree piece hp], Option.none_or,
    List.find?_cons_of_pos (hasKey_written key value)]

/-- Setting the value that is there changes nothing. -/
theorem setAttribute_of_settled (h : Settled line key value) : setAttribute line key value = line := by
  obtain ⟨_, above, below, hparts, hfree⟩ := List.find?_eq_some_iff_append.1 h
  have hslot : Slot key line above below := .inPlace hparts (by simpa using hfree)
  rw [setAttribute_slot hslot, ← hparts, source_pieces]

theorem settled_setAttribute_of_ne (hm : MarksInside line) (hk : IsName key) (hne : key ≠ other)
    (h : Settled line other first) : Settled (setAttribute line key value) other first := by
  have hkey : ∀ gap body, (Piece.attribute key gap body).hasKey other = false := by
    simpa [Piece.hasKey] using hne
  obtain ⟨above, below, hslot⟩ := exists_slot key line
  rw [Settled, pieces_setAttribute hm hk hslot]
  cases hslot with
  | inPlace hparts =>
    rw [Settled, hparts, List.find?_append, List.find?_cons_of_neg (by simp [hkey])] at h
    rwa [List.find?_append, Piece.written, List.find?_cons_of_neg (by simp [hkey])]
  | atEnd =>
    obtain ⟨blanks, _, hparts⟩ := exists_pieces_trimRight line
    have hnone : (blanks.map fun c => Piece.plain [c]).find? (·.hasKey other) = none := by
      simp [Piece.hasKey]
    rw [Settled, hparts, List.find?_append, hnone, Option.or_none] at h
    rw [List.append_assoc, List.find?_append, h, Option.some_or]

theorem settled_setAttributes_of_not_mem (hm : MarksInside line)
    (hk : ∀ update ∈ updates, IsName update.1) (hn : other ∉ updates.map Prod.fst)
    (h : Settled line other value) : Settled (setAttributes line updates) other value := by
  induction updates generalizing line with
  | nil => exact h
  | cons update rest ih =>
    obtain ⟨hfirst, hrest⟩ := List.forall_mem_cons.1 hk
    rw [List.map_cons, List.mem_cons, not_or] at hn
    exact ih (marksInside_setAttribute hm hfirst update.2) hrest hn.2
      (settled_setAttribute_of_ne hm hfirst (Ne.symm hn.1) h)

/-- Once they are set, attributes of different keys are all settled. -/
theorem settled_setAttributes (hm : MarksInside line) (hk : ∀ update ∈ updates, IsName update.1)
    (hd : (updates.map Prod.fst).Nodup) :
    ∀ update ∈ updates, Settled (setAttributes line updates) update.1 update.2 := by
  induction updates generalizing line with
  | nil => simp
  | cons update rest ih =>
    obtain ⟨hfirst, hrest⟩ := List.forall_mem_cons.1 hk
    rw [List.map_cons, List.nodup_cons] at hd
    have hmarks := marksInside_setAttribute hm hfirst update.2
    refine List.forall_mem_cons.2 ⟨?_, ih hmarks hrest hd.2⟩
    have hset := settled_setAttribute hm hfirst update.2
    have hlast := settled_setAttributes_of_not_mem hmarks hrest hd.1 hset
    exact hlast

theorem setAttributes_of_settled (h : ∀ update ∈ updates, Settled line update.1 update.2) :
    setAttributes line updates = line := by
  induction updates with
  | nil => rfl
  | cons update rest ih =>
    obtain ⟨hfirst, hrest⟩ := List.forall_mem_cons.1 h
    rw [setAttributes, List.foldl_cons, setAttribute_of_settled hfirst]
    exact ih hrest

theorem updateAll_attributes (h : ∀ update ∈ updates, update.1 ≠ "shape".toList) :
    updateAll line updates = .ok (setAttributes line updates) := by
  induction updates generalizing line with
  | nil => rfl
  | cons update rest ih =>
    obtain ⟨hfirst, hrest⟩ := List.forall_mem_cons.1 h
    have hupdate : updateLine line update.1 update.2 = .ok (setAttribute line update.1 update.2) := by
      rw [updateLine, if_neg hfirst]
    rw [updateAll, List.foldlM_cons]
    simp only [hupdate, bind, Except.bind]
    exact ih hrest

theorem updateAll_of_unchanged (h : ∀ update ∈ updates, updateLine line update.1 update.2 = .ok line) :
    updateAll line updates = .ok line := by
  induction updates with
  | nil => rfl
  | cons update rest ih =>
    obtain ⟨hfirst, hrest⟩ := List.forall_mem_cons.1 h
    rw [updateAll, List.foldlM_cons]
    simp only [hfirst, bind, Except.bind]
    exact ih hrest

theorem settled_nodeText (hm : ∀ c ∈ margin, isBlank c = true) (hid : IsName id)
    (hg : ∀ c ∈ gap, isBlank c = true) (hb : ∀ c ∈ blanks, isBlank c = true) (hr : Remainder text)
    (h : Settled text key value) : Settled (nodeText margin id gap shape (text ++ blanks)) key value := by
  have hhead : NodeHead id shape (margin ++ (id ++ ':' :: (gap ++ shape.name))) := .intro hm hid hg
  have hmark : '"' ∉ margin ++ (id ++ ':' :: (gap ++ shape.name)) :=
    nodeHead_not_mem hhead (by decide) (by decide) (by decide)
  have hfree : ∀ piece ∈ pieces (margin ++ (id ++ ':' :: (gap ++ shape.name))), piece.hasKey key = false :=
    hasKey_of_not_mem hmark
  have hnone : (pieces (margin ++ (id ++ ':' :: (gap ++ shape.name)))).find? (·.hasKey key) = none :=
    List.find?_eq_none.2 fun piece hpiece => by simp [hfree piece hpiece]
  rw [Settled] at h ⊢
  rw [nodeText, (pieces_remainder hhead hr hb).2, List.find?_append, hnone, Option.none_or,
    List.find?_append, h, Option.some_or]

/-- Attributes that are set again are set as they are. -/
theorem updateAll_attributes_again {updates : Attributes} (hm : MarksInside line)
    (hu : ∀ update ∈ updates.entries, IsName update.1 ∧ update.1 ≠ "shape".toList) :
    ∃ new, updateAll line updates.entries = .ok new ∧ updateAll new updates.entries = .ok new := by
  have hshape : ∀ update ∈ updates.entries, update.1 ≠ "shape".toList :=
    fun update hmem => (hu update hmem).2
  have hsettled := settled_setAttributes hm (fun update hmem => (hu update hmem).1) updates.distinct
  refine ⟨_, updateAll_attributes hshape, ?_⟩
  rw [updateAll_attributes hshape, setAttributes_of_settled hsettled]

/-- Updates of a node's line that are made again change nothing. -/
theorem updateAll_node_again {updates : Attributes} (hrest : nodeHead? (trim line) = some (id, shape, rest))
    (hmarks : MarksInside (trimLeft rest)) (htakes : ∀ update ∈ updates.entries, Takes update) :
    ∃ new, updateAll line updates.entries = .ok new ∧ updateAll new updates.entries = .ok new := by
  obtain ⟨margin, gap, blanks, hm, hid, hg, hb, rfl, _, hremainder⟩ := exists_nodeText hrest hmarks
  obtain ⟨right, hright, hupdate⟩ := updateAll_nodeText hm hid hg hremainder hb htakes
  have hnames := isName_attributeUpdates htakes
  have hlast := remainder_setAttributes hremainder hnames
  have hdistinct : ((attributeUpdates updates.entries).map Prod.fst).Nodup :=
    updates.distinct.sublist (List.filter_sublist.map _)
  have hsettled := settled_setAttributes hremainder.marks hnames hdistinct
  refine ⟨_, hupdate, updateAll_of_unchanged fun update hmem => ?_⟩
  rw [updateLine]
  split
  · next hkey =>
    obtain ⟨other, hother⟩ := Option.isSome_iff_exists.1 ((htakes update hmem).2 hkey)
    have hsent : updates.get? "shape".toList = some update.2 := OrderedMap.get?_of_mem (hkey ▸ hmem)
    have hshape : shapeAfter shape updates.entries = other := by
      rw [shapeAfter, OrderedMap.ofList_entries, hsent, Option.bind_some, hother]
      rfl
    rw [hother, hshape, nodeText]
    exact congrArg Except.ok (setShape_append hm hid hg (not_isWord_append_blanks hlast.word hright))
  · next hkey =>
    have hset := hsettled update (List.mem_filter.2 ⟨hmem, decide_eq_true hkey⟩)
    exact congrArg Except.ok (setAttribute_of_settled (settled_nodeText hm hid hg hright hlast hset))

namespace Patch.Session

variable {session : Session} {updates : Attributes} {position : Int}

/-- If updates of a line leave nothing to be done, a session in which they are made is the same when they
are made again. -/
theorem updateNode_again (hposition : session.index.nodeLines.get? id = some position)
    (hline : session.lines[position.toNat]? = some line)
    (h : ∃ new, updateAll line updates.entries = .ok new ∧ updateAll new updates.entries = .ok new) :
    ∃ after, session.updateNode id updates = .ok (.applied (.updatedNode id updates.keys) after) ∧
      after.updateNode id updates = .ok (.applied (.updatedNode id updates.keys) after) := by
  obtain ⟨new, hfirst, hsecond⟩ := h
  have hlength : position.toNat < session.lines.length := (List.getElem?_eq_some_iff.1 hline).1
  have hnew : (session.lines.set position.toNat new)[position.toNat]? = some new := by
    rw [List.getElem?_set_self hlength]
  refine ⟨{ session with lines := session.lines.set position.toNat new }, ?_, ?_⟩
  · rw [updateNode]
    simp only [hposition, hline, hfirst]
  · rw [updateNode]
    simp only [hposition, hnew, hsecond, List.set_set]

end Patch.Session

/-- The value that is set last is the one that stands, as if no other had been set before it; so a session
is the same after the second of two like updates of a node as after the first. -/
theorem last_write_wins :
    (∀ line key first second, MarksInside line → IsName key →
      setAttribute (setAttribute line key first) key second = setAttribute line key second) ∧
    ∀ (session : Session) (id : Text) (updates : Attributes) (position : Int) (line : Text),
      session.index.nodeLines.get? id = some position → session.lines[position.toNat]? = some line →
      (MarksInside line ∧ (∀ update ∈ updates.entries, IsName update.1 ∧ update.1 ≠ "shape".toList) ∨
        (∃ name shape rest, nodeHead? (trim line) = some (name, shape, rest) ∧ MarksInside (trimLeft rest)) ∧
          ∀ update ∈ updates.entries, Takes update) →
      ∃ after, session.updateNode id updates = .ok (.applied (.updatedNode id updates.keys) after) ∧
        after.updateNode id updates = .ok (.applied (.updatedNode id updates.keys) after) := by
  refine ⟨fun line key first second hm hk => setAttribute_setAttribute hm hk first second,
    fun session id updates position line hposition hline h => Session.updateNode_again hposition hline ?_⟩
  rcases h with ⟨hm, hu⟩ | ⟨⟨name, shape, rest, hrest, hmarks⟩, hu⟩
  · exact updateAll_attributes_again hm hu
  · exact updateAll_node_again hrest hmarks hu

/-- A session over the line, in a lane. -/
def straySession : Session where
  newline := .lf
  lines := ["a \x7b", strayLine, "\x7d"]
  index := .scan ["a \x7b", strayLine, "\x7d"]
  lastId := 1

theorem last_write_wins_stray :
    setAttribute (setAttribute strayLine "label" "first") "label" "second" =
        setAttribute strayLine "label" "second" ∧
      ∃ after, straySession.updateNode "n1" strayUpdates =
          .ok (.applied (.updatedNode "n1" strayUpdates.keys) after) ∧
        after.updateNode "n1" strayUpdates = .ok (.applied (.updatedNode "n1" strayUpdates.keys) after) := by
  have hrest : nodeHead? (trim strayLine) = some ("n1".toList, .circle, strayRest) := by decide +kernel
  exact ⟨last_write_wins.1 strayLine "label" "first" "second" (by decide +kernel) (by decide),
    last_write_wins.2 straySession "n1" strayUpdates 1 strayLine (by decide +kernel) rfl
      (Or.inr ⟨⟨_, _, _, hrest, by decide +kernel⟩, by decide +kernel⟩)⟩

end Swimlane
