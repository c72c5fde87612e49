import Swimlane.Proofs.Patch.Numbering

/-! What an edit changes in the lines of any session, whether or not its index is that of its lines:
one line is put in, taken out or written anew, and the index moves with it. -/
namespace Swimlane.Patch

open Text

/-- A change of one line. -/
inductive Splice
  | insert (position : Int) (line : Text)
  | remove (position : Int)
  | rewrite (position : Int) (line : Text)
  deriving DecidableEq, Repr

variable {lines : List Text} {line : Text} {place other : Int} {splice : Splice}

/-- The line at a place that an index names. -/
def lineAt? (lines : List Text) (place : Int) : Option Text :=
  if 0 ≤ place then lines[place.toNat]? else none

theorem lineAt?_eq_some : lineAt? lines place = some line ↔
    0 ≤ place ∧ lines[place.toNat]? = some line := by
  simp [lineAt?]

theorem lt_of_lineAt? (h : lineAt? lines place = some line) : 0 ≤ place ∧ place < lines.length := by
  obtain ⟨hle, hget⟩ := lineAt?_eq_some.1 h
  have hlt := (List.getElem?_eq_some_iff.1 hget).1
  omega

/-- The line at a place, and the lines around it. -/
theorem exists_of_lineAt? (h : lineAt? lines place = some line) :
    ∃ above below, lines = above ++ line :: below ∧ place = above.length := by
  obtain ⟨hle, hget⟩ := lineAt?_eq_some.1 h
  obtain ⟨hlt, rfl⟩ := List.getElem?_eq_some_iff.1 hget
  refine ⟨lines.take place.toNat, lines.drop (place.toNat + 1), ?_, ?_⟩
  · rw [List.cons_getElem_drop_succ, List.take_append_drop]
  · rw [List.length_take]
    omega

/-- The index with every line at another place. -/
def LineIndex.relocate (f : Int → Int) (index : LineIndex) : LineIndex :=
  { index with
    nodeLines := index.nodeLines.mapValues f
    laneSpans := index.laneSpans.mapValues fun span => ⟨f span.opening, f span.closing⟩ }

theorem LineIndex.relocate_relocate (f g : Int → Int) (index : LineIndex) :
    (index.relocate f).relocate g = index.relocate (g ∘ f) := by
  simp [relocate, OrderedMap.mapValues_mapValues, Function.comp_def]

theorem LineIndex.relocate_id {f : Int → Int} {index : LineIndex} (h : ∀ place, f place = place) :
    index.relocate f = index := by
  simp [relocate, h, OrderedMap.mapValues_id]

namespace Splice

/-- The line that a change writes. -/
def written? : Splice → Option Text
  | .insert _ line | .rewrite _ line => some line
  | .remove _ => none

def position : Splice → Int
  | .insert position _ | .remove position | .rewrite position _ => position

def apply : Splice → List Text → List Text
  | .insert position line, lines => insertAt position.toNat line lines
  | .remove position, lines => lines.eraseIdx position.toNat
  | .rewrite position line, lines => lines.set position.toNat line

/-- There is a line to take out or to write anew; a new line may also go behind the last one. -/
def InRange (lines : List Text) : Splice → Prop
  | .insert position _ => 0 ≤ position ∧ position ≤ lines.length
  | .remove position | .rewrite position _ => 0 ≤ position ∧ position < lines.length

/-- There is a line to take out or to write anew, whether or not its number is below zero. -/
def Finds (lines : List Text) : Splice → Prop
  | .insert _ _ => True
  | .remove position | .rewrite position _ => position.toNat < lines.length

/-- The line at a place is neither taken out nor written anew. -/
def Misses (place : Int) : Splice → Prop
  | .insert _ _ => True
  | .remove position | .rewrite position _ => place ≠ position

/-- Where a line stands after the change. -/
def move : Splice → Int → Int
  | .insert position _, place => LineIndex.movedFrom position 1 place
  | .remove position, place => LineIndex.movedFrom (position + 1) (-1) place
  | .rewrite _ _, place => place

/-- The index with every line where it stands after the change. -/
def shift : Splice → LineIndex → LineIndex
  | .insert position _, index => index.shift position 1
  | .remove position, index => index.shift (position + 1) (-1)
  | .rewrite _ _, index => index

theorem shift_eq (splice : Splice) (index : LineIndex) :
    splice.shift index = index.relocate splice.move := by
  cases splice with
  | insert position line => rfl
  | remove position => rfl
  | rewrite position line => exact (LineIndex.relocate_id fun _ => rfl).symm

@[simp] theorem nodeLines_shift (splice : Splice) (index : LineIndex) (id : Text) :
    (splice.shift index).nodeLines.get? id = (index.nodeLines.get? id).map splice.move := by
  cases splice with
  | insert position line => exact OrderedMap.get?_mapValues _
  | remove position => exact OrderedMap.get?_mapValues _
  | rewrite position line => exact Option.map_id'.symm

@[simp] theorem nodeLanes_shift (splice : Splice) (index : LineIndex) :
    (splice.shift index).nodeLanes = index.nodeLanes := by
  cases splice <;> rfl

@[simp] theorem laneSpans_shift (splice : Splice) (index : LineIndex) (lane : Text) :
    (splice.shift index).laneSpans.get? lane = (index.laneSpans.get? lane).map fun span =>
      ⟨splice.move span.opening, splice.move span.closing⟩ := by
  cases splice with
  | insert position line => exact OrderedMap.get?_mapValues _
  | remove position => exact OrderedMap.get?_mapValues _
  | rewrite position line => exact Option.map_id'.symm

theorem move_nonneg (hr : splice.InRange lines) (h : 0 ≤ place) : 0 ≤ splice.move place := by
  cases splice with
  | insert position line => rw [move, LineIndex.movedFrom]; split <;> omega
  | remove position =>
    obtain ⟨hposition, _⟩ := hr
    rw [move, LineIndex.movedFrom]
    split <;> omega
  | rewrite position line => exact h

/-- No line goes past one that stays. -/
theorem move_le_move (hm : splice.Misses other) (h : place ≤ other) :
    splice.move place ≤ splice.move other := by
  cases splice with
  | insert position line =>
    rw [move, move, LineIndex.movedFrom, LineIndex.movedFrom]
    split <;> split <;> omega
  | remove position =>
    rw [Misses] at hm
    rw [move, move, LineIndex.movedFrom, LineIndex.movedFrom]
    split <;> split <;> omega
  | rewrite position line => exact h

/-- Lines that stay where different ones do. -/
theorem move_injective (hp : splice.Misses place) (ho : splice.Misses other)
    (h : splice.move place = splice.move other) : place = other := by
  cases splice with
  | insert position line =>
    rw [move, move, LineIndex.movedFrom, LineIndex.movedFrom] at h
    split at h <;> split at h <;> omega
  | remove position =>
    rw [Misses] at hp ho
    rw [move, move, LineIndex.movedFrom, LineIndex.movedFrom] at h
    split at h <;> split at h <;> omega
  | rewrite position line => exact h

/-- After a change there are lines that were there before, and the one that it writes. -/
theorem mem_apply (h : line ∈ splice.apply lines) : line ∈ lines ∨ splice.written? = some line := by
  cases splice with
  | insert position new =>
    rcases List.mem_append.1 h with hm | hm
    · exact Or.inl (List.mem_of_mem_take hm)
    · rcases List.mem_cons.1 hm with rfl | hm
      · exact Or.inr rfl
      · exact Or.inl (List.mem_of_mem_drop hm)
  | remove position => exact Or.inl (List.mem_of_mem_eraseIdx h)
  | rewrite position new =>
    rcases List.mem_or_eq_of_mem_set h with hm | rfl
    · exact Or.inl hm
    · exact Or.inr rfl

/-- A line that is not the one of the change is found again where it moves to. -/
theorem lineAt?_apply (hr : splice.InRange lines) (hm : splice.Misses place)
    (h : lineAt? lines place = some line) :
    lineAt? (splice.apply lines) (splice.move place) = some line := by
  obtain ⟨hle, hget⟩ := lineAt?_eq_some.1 h
  have hlt := (List.getElem?_eq_some_iff.1 hget).1
  refine lineAt?_eq_some.2 ⟨move_nonneg hr hle, ?_⟩
  cases splice with
  | insert position new =>
    obtain ⟨hfirst, hlast⟩ := hr
    rw [apply, insertAt, move, LineIndex.movedFrom]
    split
    · next hbelow =>
      rw [List.getElem?_append_right (by rw [List.length_take]; omega), List.length_take,
        show (place + 1).toNat - min position.toNat lines.length =
          (place.toNat - position.toNat) + 1 by omega, List.getElem?_cons_succ,
        List.getElem?_drop, show position.toNat + (place.toNat - position.toNat) = place.toNat by
          omega, hget]
    · next habove =>
      rw [List.getElem?_append_left (by rw [List.length_take]; omega),
        List.getElem?_take_of_lt (by omega), hget]
  | remove position =>
    obtain ⟨hfirst, _⟩ := hr
    rw [Misses] at hm
    rw [apply, move, LineIndex.movedFrom]
    split
    · next hbelow =>
      rw [List.getElem?_eraseIdx_of_ge (by omega),
        show (place + -1).toNat + 1 = place.toNat by omega, hget]
    · next habove => rw [List.getElem?_eraseIdx_of_lt (by omega), hget]
  | rewrite position new =>
    obtain ⟨hfirst, _⟩ := hr
    rw [Misses] at hm
    rw [apply, move, List.getElem?_set_ne (by omega), hget]

theorem lineAt?_insert {position : Int} (hr : (insert position line).InRange lines) :
    lineAt? ((insert position line).apply lines) position = some line := by
  obtain ⟨hfirst, hlast⟩ := hr
  refine lineAt?_eq_some.2 ⟨hfirst, ?_⟩
  rw [apply, insertAt, List.getElem?_append_right (by rw [List.length_take]; omega),
    List.length_take, show position.toNat - min position.toNat lines.length = 0 by omega]
  rfl

theorem lineAt?_rewrite {position : Int} (hr : (rewrite position line).InRange lines) :
    lineAt? ((rewrite position line).apply lines) position = some line := by
  obtain ⟨hfirst, hlast⟩ := hr
  refine lineAt?_eq_some.2 ⟨hfirst, ?_⟩
  rw [apply, List.getElem?_set_self (by omega)]

end Splice

/-- Whether the log of a change says of the lines what happened to them. -/
def Change.Tells : Change → Splice → Prop
  | .addedNode _ _ _, .insert _ _ | .addedEdge _ _ _, .insert _ _ => True
  | .removedNode _, .remove _ | .removedEdge _ _, .remove _ => True
  | .updatedNode _ _, .rewrite _ _ => True
  | _, _ => False

namespace Edit

/-- The node that an edit takes out or updates. -/
def nodeId? : Edit → Option Text
  | .removeNode id | .updateNode id _ => some id
  | _ => none

/-- How many ids an edit gives. -/
def newIds : Edit → Nat
  | .insertNode _ _ _ _ _ _ => 1
  | _ => 0

end Edit

namespace Session

variable {session next : Session} {edit : Edit} {operation : Operation} {entry : Entry}
  {fault : Fault}

/-- The change that an edit makes of the lines, if all that it names is there. -/
def splice? (session : Session) : Edit → Option Splice
  | .insertNode lane shape label properties after before =>
    (session.index.laneSpans.get? lane).bind fun span =>
      session.nextId.toOption.map fun id =>
        .insert (session.insertionLine lane span after before)
          (renderNode id shape (newAttributes label properties))
  | .removeNode id => (session.index.nodeLines.get? id).map .remove
  | .updateNode id updates =>
    (session.index.nodeLines.get? id).bind fun position =>
      session.lines[position.toNat]?.bind fun line =>
        (updateAll line updates.entries).toOption.map (.rewrite position)
  | .insertEdge edge =>
    (session.index.nodeLanes.get? edge.source).bind fun lane =>
      (session.index.laneSpans.get? lane).map fun span =>
        .insert span.closing (session.edgeLine lane edge)
  | .removeEdge source target =>
    (session.lines.findIdx? (isEdgeBetween source target)).map fun found : Nat => .remove found

/-- What an edit finds for its change of the lines. -/
inductive Spliced (session : Session) : Edit → Splice → Prop
  | insertNode {lane : Text} {shape : Shape} {label : Option Text} {properties : Attributes}
      {after before : Option Text} {span : Span}
      (hspan : session.index.laneSpans.get? lane = some span)
      (hid : session.nextId = .ok session.freshId) :
      Spliced session (.insertNode lane shape label properties after before)
        (.insert (session.insertionLine lane span after before)
          (renderNode session.freshId shape (newAttributes label properties)))
  | removeNode {id : Text} {position : Int}
      (hline : session.index.nodeLines.get? id = some position) :
      Spliced session (.removeNode id) (.remove position)
  | updateNode {id line new : Text} {updates : Attributes} {position : Int}
      (hline : session.index.nodeLines.get? id = some position)
      (hget : session.lines[position.toNat]? = some line)
      (hnew : updateAll line updates.entries = .ok new) :
      Spliced session (.updateNode id updates) (.rewrite position new)
  | insertEdge {lane : Text} {edge : NewEdge} {span : Span}
      (hlane : session.index.nodeLanes.get? edge.source = some lane)
      (hspan : session.index.laneSpans.get? lane = some span) :
      Spliced session (.insertEdge edge) (.insert span.closing (session.edgeLine lane edge))
  | removeEdge {source target : Text} {found : Nat}
      (hfind : session.lines.findIdx? (isEdgeBetween source target) = some found) :
      Spliced session (.removeEdge source target) (.remove found)

theorem spliced {splice : Splice} (hs : session.splice? edit = some splice) :
    Spliced session edit splice := by
  cases edit with
  | insertNode lane shape label properties after before =>
    obtain ⟨span, hspan, hnext⟩ := Option.bind_eq_some_iff.1 hs
    cases hid : session.nextId with
    | error fault => simp [hid, Except.toOption] at hnext
    | ok id =>
      obtain ⟨rfl, _⟩ := nextId_eq_ok hid
      rw [hid] at hnext
      cases hnext
      exact .insertNode hspan hid
  | removeNode id =>
    obtain ⟨position, hline, rfl⟩ := Option.map_eq_some_iff.1 hs
    exact .removeNode hline
  | updateNode id updates =>
    obtain ⟨position, hline, hrest⟩ := Option.bind_eq_some_iff.1 hs
    obtain ⟨line, hget, hrest⟩ := Option.bind_eq_some_iff.1 hrest
    cases hnew : updateAll line updates.entries with
    | error reason => simp [hnew, Except.toOption] at hrest
    | ok new =>
      rw [hnew] at hrest
      cases hrest
      exact .updateNode hline hget hnew
  | insertEdge edge =>
    obtain ⟨lane, hlane, hrest⟩ := Option.bind_eq_some_iff.1 hs
    obtain ⟨span, hspan, rfl⟩ := Option.map_eq_some_iff.1 hrest
    exact .insertEdge hlane hspan
  | removeEdge source target =>
    obtain ⟨found, hfind, rfl⟩ := Option.map_eq_some_iff.1 hs
    exact .removeEdge hfind

/-- The index after an edit that changes the lines so. -/
def indexAfter (session : Session) (splice : Splice) : Edit → LineIndex
  | .insertNode lane _ _ _ _ _ =>
    (splice.shift session.index).addNode session.freshId lane splice.position
  | .removeNode id => splice.shift (session.index.forgetNode id)
  | _ => splice.shift session.index

/-- The session after an edit that changes the lines so. -/
def after (session : Session) (edit : Edit) (splice : Splice) : Session where
  newline := session.newline
  lines := splice.apply session.lines
  index := session.indexAfter splice edit
  lastId := session.lastId + edit.newIds

/-- No id of the index has a number above the last one that was given. -/
def Bounded (session : Session) : Prop :=
  ∀ id place, session.index.nodeLines.get? id = some place →
    ∃ number ≤ session.lastId, LineIndex.sequentialNumber id = .ok number

/-- After an edit the index has the ids that it had before, less one that is removed, and the next id
if the edit adds a node. -/
theorem nodeLines_after {id : Text} {place : Int} {splice : Splice}
    (hs : session.splice? edit = some splice)
    (h : (session.after edit splice).index.nodeLines.get? id = some place) :
    ((session.index.nodeLines.get? id).isSome ∧ edit ≠ .removeNode id) ∨
      (session.nextId = .ok id ∧ edit.newIds = 1) := by
  have hkept : ∀ {index : LineIndex}, (splice.shift index).nodeLines.get? id = some place →
      (index.nodeLines.get? id).isSome := by
    intro index hid
    rw [Splice.nodeLines_shift] at hid
    obtain ⟨old, hold, _⟩ := Option.map_eq_some_iff.1 hid
    simp [hold]
  cases edit with
  | insertNode lane shape label properties after before =>
    simp only [Session.after, indexAfter, LineIndex.addNode, OrderedMap.get?_insert] at h
    split at h
    · next hid =>
      cases spliced hs with
      | insertNode hspan hfresh => exact Or.inr ⟨by rw [hid, hfresh], rfl⟩
    · exact Or.inl ⟨hkept h, fun he => by cases he⟩
  | removeNode removed =>
    have hid := hkept h
    simp only [LineIndex.forgetNode, OrderedMap.get?_erase] at hid
    split at hid
    · simp at hid
    · next hne => exact Or.inl ⟨hid, fun he => hne (by cases he; rfl)⟩
  | _ => exact Or.inl ⟨hkept h, fun he => by cases he⟩

/-- An edit moves lanes, and opens or closes none. -/
theorem laneSpans_after (session : Session) (edit : Edit) (splice : Splice) (lane : Text) :
    (session.after edit splice).index.laneSpans.get? lane =
      (session.index.laneSpans.get? lane).map fun span =>
        ⟨splice.move span.opening, splice.move span.closing⟩ := by
  cases edit <;> exact Splice.laneSpans_shift splice _ lane

theorem bounded_after {splice : Splice} (hb : session.Bounded)
    (hs : session.splice? edit = some splice) : (session.after edit splice).Bounded := by
  intro id place h
  rcases nodeLines_after hs h with ⟨hold, _⟩ | ⟨hnext, hnew⟩
  · obtain ⟨old, hold⟩ := Option.isSome_iff_exists.1 hold
    obtain ⟨number, hle, hnumber⟩ := hb id old hold
    exact ⟨number, hle.trans (Nat.le_add_right _ _), hnumber⟩
  · obtain ⟨rfl, hdigits⟩ := nextId_eq_ok hnext
    refine ⟨session.lastId + 1, ?_, sequentialNumber_ofNat hdigits⟩
    rw [Session.after, hnew]

/-- What an edit comes to. It fails only if there is no number left for a new node, or if the index
names a line that is not there. -/
inductive Performed (session : Session) (edit : Edit) : Except Fault Effect → Prop
  | skipped (reason : SkipReason) (hs : session.splice? edit = none) :
      Performed session edit (.ok (.skipped reason session))
  | unnumbered (hnew : edit.newIds = 1) (hid : session.nextId = .error (.digits .writing)) :
      Performed session edit (.error (.digits .writing))
  | astray {id : Text} {position : Int} (hid : edit.nodeId? = some id)
      (hline : session.index.nodeLines.get? id = some position)
      (hlt : session.lines.length ≤ position.toNat) : Performed session edit (.error .lineOutOfRange)
  | applied {splice : Splice} (change : Change) (hs : session.splice? edit = some splice)
      (hf : splice.Finds session.lines) (ht : change.Tells splice) :
      Performed session edit (.ok (.applied change (session.after edit splice)))

theorem performed_insertNode (lane : Text) (shape : Shape) (label : Option Text)
    (properties : Attributes) (after before : Option Text) :
    Performed session (.insertNode lane shape label properties after before)
      (session.insertNode lane shape label properties after before) := by
  rw [insertNode]
  cases hspan : session.index.laneSpans.get? lane with
  | none => exact .skipped _ (by simp [splice?, hspan])
  | some span =>
    cases hid : session.nextId with
    | error fault =>
      rw [nextId] at hid
      split at hid
      · cases hid
        exact .unnumbered rfl (by rw [nextId, if_pos ‹_›])
      · cases hid
    | ok id =>
      obtain ⟨rfl, _⟩ := nextId_eq_ok hid
      have hsplice : session.splice? (.insertNode lane shape label properties after before) =
          some (.insert (session.insertionLine lane span after before)
            (renderNode session.freshId shape (newAttributes label properties))) := by
        simp [splice?, hspan, hid, Except.toOption]
      exact .applied (.addedNode (label.getD session.freshId) session.freshId lane) hsplice trivial trivial

/-- The line that the index names for a node is taken out with the node. -/
theorem removeNode_eq {id : Text} {position : Int}
    (hline : session.index.nodeLines.get? id = some position)
    (hlt : position.toNat < session.lines.length) : session.removeNode id =
      .ok (.applied (.removedNode id) (session.after (.removeNode id) (.remove position))) := by
  rw [removeNode, hline]
  simp only [removeLine, hlt]
  rfl

theorem performed_removeNode (id : Text) :
    Performed session (.removeNode id) (session.removeNode id) := by
  cases hline : session.index.nodeLines.get? id with
  | none =>
    rw [removeNode, hline]
    exact .skipped _ (by simp [splice?, hline])
  | some position =>
    by_cases hlt : position.toNat < session.lines.length
    · have hsplice : session.splice? (.removeNode id) = some (.remove position) := by
        simp [splice?, hline]
      rw [removeNode_eq hline hlt]
      exact .applied (.removedNode id) hsplice hlt trivial
    · rw [removeNode, hline]
      simp only [removeLine, hlt]
      exact .astray rfl hline (Nat.not_lt.1 hlt)

theorem performed_updateNode (id : Text) (updates : Attributes) :
    Performed session (.updateNode id updates) (session.updateNode id updates) := by
  rw [updateNode]
  cases hline : session.index.nodeLines.get? id with
  | none => exact .skipped _ (by simp [splice?, hline])
  | some position =>
    cases hget : session.lines[position.toNat]? with
    | none =>
      simp only [hget]
      exact .astray rfl hline (List.getElem?_eq_none_iff.1 hget)
    | some line =>
      simp only [hget]
      cases hnew : updateAll line updates.entries with
      | error reason =>
        exact .skipped reason (by simp [splice?, hline, hget, hnew, Except.toOption])
      | ok new =>
        have hsplice : session.splice? (.updateNode id updates) = some (.rewrite position new) := by
          simp [splice?, hline, hget, hnew, Except.toOption]
        have hlt := (List.getElem?_eq_some_iff.1 hget).1
        exact .applied (.updatedNode id updates.keys) hsplice hlt trivial

theorem performed_insertEdge (edge : NewEdge) :
    Performed session (.insertEdge edge) (.ok (session.insertEdge edge)) := by
  rw [insertEdge]
  cases hlane : session.index.nodeLanes.get? edge.source with
  | none => exact .skipped _ (by simp [splice?, hlane])
  | some lane =>
    cases hspan : session.index.laneSpans.get? lane with
    | none =>
      simp only [hspan]
      exact .skipped _ (by simp [splice?, hlane, hspan])
    | some span =>
      have hsplice : session.splice? (.insertEdge edge) =
          some (.insert span.closing (session.edgeLine lane edge)) := by
        simp [splice?, hlane, hspan]
      simp only [hspan]
      exact .applied (.addedEdge edge.source edge.target edge.label) hsplice trivial trivial

/-- The first line that is found is taken out. -/
theorem removeEdge_eq {source target : Text} {found : Nat}
    (hfind : session.lines.findIdx? (isEdgeBetween source target) = some found) :
    session.removeEdge source target = .ok (.applied (.removedEdge source target)
      (session.after (.removeEdge source target) (.remove found))) := by
  obtain ⟨hlt, _⟩ := List.findIdx?_eq_some_iff_getElem.1 hfind
  rw [removeEdge, hfind]
  simp only [removeLine, Int.toNat_natCast, hlt]
  rfl

theorem performed_removeEdge (source target : Text) :
    Performed session (.removeEdge source target) (session.removeEdge source target) := by
  cases hfind : session.lines.findIdx? (isEdgeBetween source target) with
  | none =>
    rw [removeEdge, hfind]
    exact .skipped _ (by simp [splice?, hfind])
  | some position =>
    obtain ⟨hlt, _⟩ := List.findIdx?_eq_some_iff_getElem.1 hfind
    have hsplice : session.splice? (.removeEdge source target) = some (.remove position) := by
      simp [splice?, hfind]
    rw [removeEdge_eq hfind]
    exact .applied (.removedEdge source target) hsplice hlt trivial

theorem performed (session : Session) (edit : Edit) :
    Performed session edit (session.perform edit) := by
  cases edit with
  | insertNode lane shape label properties after before =>
    exact performed_insertNode lane shape label properties after before
  | removeNode id => exact performed_removeNode id
  | updateNode id updates => exact performed_updateNode id updates
  | insertEdge edge => exact performed_insertEdge edge
  | removeEdge source target => exact performed_removeEdge source target

/-- An edit that is applied changes one line. -/
theorem exists_splice {change : Change} (h : session.perform edit = .ok (.applied change next)) :
    ∃ splice, session.splice? edit = some splice ∧ next = session.after edit splice := by
  have hedit := performed session edit
  rw [h] at hedit
  cases hedit with
  | applied change hs hf ht => exact ⟨_, hs, rfl⟩

/-- The change of the lines that an operation asks for. -/
def effect? (session : Session) (operation : Operation) : Option Splice :=
  operation.edit?.toOption.bind session.splice?

theorem effect?_eq (he : operation.edit? = .ok edit) :
    session.effect? operation = session.splice? edit := by
  rw [effect?, he]
  rfl

/-- A step that is made leaves all as it is, or changes one line and moves the index with it. -/
theorem step_eq_ok (h : session.step operation = .ok (next, entry)) :
    (next = session ∧ session.effect? operation = none ∧
      ∃ reason, entry = ⟨operation.op, .skipped reason⟩) ∨
    ∃ edit splice change, operation.edit? = .ok edit ∧ session.splice? edit = some splice ∧
      splice.Finds session.lines ∧ change.Tells splice ∧ next = session.after edit splice ∧
      entry = ⟨operation.op, .applied change⟩ := by
  rcases step_ok h with
    ⟨reason, he, hnext, hentry⟩ | ⟨edit, reason, he, hunfit, hnext, hentry⟩ |
    ⟨edit, change, he, hp, rfl⟩
  · exact Or.inl ⟨hnext, by simp [effect?, he, Except.toOption], reason, hentry⟩
  · have hedit := performed session edit
    rw [perform_skipped.2 ⟨rfl, hunfit⟩] at hedit
    cases hedit with
    | skipped reason hs => exact Or.inl ⟨hnext, by rw [effect?_eq he, hs], reason, hentry⟩
  · have hedit := performed session edit
    rw [hp] at hedit
    cases hedit with
    | applied change hs hf ht => exact Or.inr ⟨edit, _, change, he, hs, hf, ht, rfl, rfl⟩

theorem step_eq_error (h : session.step operation = .error fault) :
    ∃ edit, operation.edit? = .ok edit ∧ session.perform edit = .error fault := by
  rw [step] at h
  cases he : operation.edit? with
  | error reason => simp [he, pure, Except.pure] at h
  | ok edit =>
    refine ⟨edit, rfl, ?_⟩
    cases hp : session.perform edit with
    | error other => simpa [he, hp, bind, Except.bind] using h
    | ok effect => cases effect <;> simp [he, hp, bind, Except.bind, pure, Except.pure] at h

end Session

end Swimlane.Patch
