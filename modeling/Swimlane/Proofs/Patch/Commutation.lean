import Swimlane.Proofs.Patch.Contract

/-! Edits of different nodes can be made in any order: each changes the line that it would change alone,
and is recorded as it would be alone. -/
namespace Swimlane.Patch

open Text Line

variable {lines above below : List Text} {line found text : Text} {place : Int} {new : Option Text}
  {index : LineIndex} {session next : Session} {operation other : Operation}
  {operations others : List Operation} {entry passed : Entry}

/-- A change of the line at a place: it is written anew, or taken out. -/
structure Renewal where
  place : Int
  line : Option Text

namespace Renewal

variable {first second : Renewal}

def splice : Renewal → Splice
  | ⟨place, some line⟩ => .rewrite place line
  | ⟨place, none⟩ => .remove place

/-- The same change of the lines as another one leaves them. -/
def past (first second : Renewal) : Renewal := ⟨first.splice.move second.place, second.line⟩

theorem move_splice (first : Renewal) (place : Int) : first.splice.move place =
    if first.place < place then place + first.line.toList.length - 1 else place := by
  obtain ⟨start, new⟩ := first
  cases new with
  | none =>
    simp only [splice, Splice.move, LineIndex.movedFrom, Option.toList_none, List.length_nil]
    split <;> split <;> omega
  | some line =>
    simp only [splice, Splice.move, Option.toList_some, List.length_singleton]
    split <;> omega

theorem apply_splice : (splice ⟨above.length, new⟩).apply (above ++ line :: below) =
    above ++ (new.toList ++ below) := by
  cases new with
  | none =>
    rw [splice, Splice.apply, Int.toNat_natCast, eraseIdx_length]
    rfl
  | some line => simp [splice, Splice.apply]

theorem misses_splice (h : place ≠ first.place) : first.splice.Misses place := by
  obtain ⟨start, new⟩ := first
  cases new with
  | none => exact h
  | some line => exact h

theorem inRange_splice (h : lineAt? lines first.place = some line) :
    first.splice.InRange lines := by
  obtain ⟨start, new⟩ := first
  cases new with
  | none => exact lt_of_lineAt? h
  | some new => exact lt_of_lineAt? h

/-- Two changes move every line alike in either order. -/
theorem move_comm (first second : Renewal) (place : Int) :
    (first.past second).splice.move (first.splice.move place) =
      (second.past first).splice.move (second.splice.move place) := by
  have hfirst : first.line.toList.length ≤ 1 := by cases first.line <;> simp
  have hsecond : second.line.toList.length ≤ 1 := by cases second.line <;> simp
  simp only [past, move_splice]
  split_ifs <;> omega

theorem apply_comm_of_lt (hf : lineAt? lines first.place = some line)
    (hs : lineAt? lines second.place = some found) (hlt : first.place < second.place) :
    (first.past second).splice.apply (first.splice.apply lines) =
      (second.past first).splice.apply (second.splice.apply lines) := by
  obtain ⟨start, new⟩ := first
  obtain ⟨stop, more⟩ := second
  dsimp only at hf hs hlt
  obtain ⟨upper, below, rfl, rfl⟩ := exists_of_lineAt? hs
  have hline : lineAt? upper start = some line := by
    obtain ⟨hle, hget⟩ := lineAt?_eq_some.1 hf
    rw [List.getElem?_append_left (by omega)] at hget
    exact lineAt?_eq_some.2 ⟨hle, hget⟩
  obtain ⟨above, mid, rfl, rfl⟩ := exists_of_lineAt? hline
  have hlower : past ⟨above.length, new⟩ ⟨(above ++ line :: mid).length, more⟩ =
      ⟨(above ++ (new.toList ++ mid)).length, more⟩ := by
    rw [past, move_splice, if_pos hlt, mk.injEq]
    simp only [List.length_append, List.length_cons, and_true]
    omega
  have hupper : past ⟨(above ++ line :: mid).length, more⟩ ⟨above.length, new⟩ =
      ⟨above.length, new⟩ := by
    rw [past, move_splice, if_neg (Int.not_lt.2 (Int.le_of_lt hlt))]
  have hfirst : ∀ rest, (splice ⟨above.length, new⟩).apply (above ++ line :: mid ++ rest) =
      above ++ (new.toList ++ mid) ++ rest := by
    intro rest
    rw [List.append_assoc, List.cons_append, apply_splice]
    simp only [List.append_assoc]
  rw [hlower, hupper, hfirst, apply_splice, apply_splice, hfirst]

/-- Two lines can be changed in either order. -/
theorem apply_comm (hf : lineAt? lines first.place = some line)
    (hs : lineAt? lines second.place = some found) (hne : first.place ≠ second.place) :
    (first.past second).splice.apply (first.splice.apply lines) =
      (second.past first).splice.apply (second.splice.apply lines) := by
  rcases Int.lt_or_gt_of_ne hne with hlt | hgt
  · exact apply_comm_of_lt hf hs hlt
  · exact (apply_comm_of_lt hs hf hgt).symm

end Renewal

/-- An edit of the line of a node. -/
inductive NodeEdit
  | remove (id : Text)
  | update (id : Text) (updates : Attributes)

namespace NodeEdit

variable {edit later : NodeEdit}

def id : NodeEdit → Text
  | remove id | update id _ => id

def toEdit : NodeEdit → Edit
  | remove id => .removeNode id
  | update id updates => .updateNode id updates

/-- What the log tells of the edit, if it is applied. -/
def change : NodeEdit → Change
  | remove id => .removedNode id
  | update id updates => .updatedNode id updates.keys

/-- What becomes of the line. -/
def newLine (line : Text) : NodeEdit → Except SkipReason (Option Text)
  | remove _ => .ok none
  | update _ updates => (updateAll line updates.entries).map some

/-- The index without the node that the edit takes out. -/
def forget (index : LineIndex) : NodeEdit → LineIndex
  | remove id => index.forgetNode id
  | update _ _ => index

theorem forget_relocate (f : Int → Int) (index : LineIndex) (edit : NodeEdit) :
    edit.forget (index.relocate f) = (edit.forget index).relocate f := by
  cases edit with
  | remove id =>
    simp only [forget, LineIndex.relocate, LineIndex.forgetNode, OrderedMap.mapValues_erase]
  | update id updates => rfl

theorem forget_comm (edit later : NodeEdit) (index : LineIndex) :
    later.forget (edit.forget index) = edit.forget (later.forget index) := by
  cases edit with
  | remove id =>
    cases later with
    | remove other => simp only [forget, LineIndex.forgetNode, OrderedMap.erase_comm _ id other]
    | update other updates => rfl
  | update id updates => rfl

theorem nodeLines_forget {node : Text} (hne : node ≠ edit.id) :
    (edit.forget index).nodeLines.get? node = index.nodeLines.get? node := by
  cases edit with
  | remove id => simp [forget, LineIndex.forgetNode, show node ≠ id from hne]
  | update id updates => rfl

end NodeEdit

namespace Session

variable {edit later : NodeEdit} {renewal first second : Renewal}

/-- The line that the index names for a node, and what becomes of it. -/
def planned (session : Session) (edit : NodeEdit) : Except SkipReason Renewal :=
  match session.index.nodeLines.get? edit.id with
  | none => .error (.nodeNotFound edit.id)
  | some place =>
    match lineAt? session.lines place with
    | none => .error (.nodeNotFound edit.id)
    | some line => (edit.newLine line).map (.mk place)

/-- The session with a node's line changed. -/
def renewed (session : Session) (edit : NodeEdit) (renewal : Renewal) : Session where
  newline := session.newline
  lines := renewal.splice.apply session.lines
  index := (edit.forget session.index).relocate renewal.splice.move
  lastId := session.lastId

theorem renewed_eq_after (session : Session) (edit : NodeEdit) (renewal : Renewal) :
    session.renewed edit renewal = session.after edit.toEdit renewal.splice := by
  cases edit with
  | remove id => simp only [after, indexAfter, renewed, Splice.shift_eq, NodeEdit.toEdit]; rfl
  | update id updates => simp only [after, indexAfter, renewed, Splice.shift_eq, NodeEdit.toEdit]; rfl

/-- A change that is made is that of the line at the place that the index names. -/
theorem planned_eq_ok (h : session.planned edit = .ok renewal) :
    session.index.nodeLines.get? edit.id = some renewal.place ∧
      ∃ line, lineAt? session.lines renewal.place = some line ∧
        edit.newLine line = .ok renewal.line := by
  rw [Session.planned] at h
  cases hnode : session.index.nodeLines.get? edit.id with
  | none => simp [hnode] at h
  | some place =>
    cases hline : lineAt? session.lines place with
    | none => simp [hnode, hline] at h
    | some line =>
      simp only [hnode, hline] at h
      cases hnew : edit.newLine line with
      | error reason => simp [hnew, Except.map] at h
      | ok new =>
        simp only [hnew, Except.map, Except.ok.injEq] at h
        subst h
        exact ⟨rfl, line, hline, hnew⟩

/-- What the edit of a node comes to. -/
theorem perform_nodeEdit (hs : SafeIndex session.lines session.index) (edit : NodeEdit) :
    session.perform edit.toEdit = .ok (match session.planned edit with
      | .ok renewal => .applied edit.change (session.renewed edit renewal)
      | .error reason => .skipped reason session) := by
  rw [planned]
  cases hnode : session.index.nodeLines.get? edit.id with
  | none =>
    cases edit with
    | remove id =>
      rw [NodeEdit.toEdit, perform, removeNode, show session.index.nodeLines.get? id = none from hnode]
      rfl
    | update id updates =>
      rw [NodeEdit.toEdit, perform, updateNode, show session.index.nodeLines.get? id = none from hnode]
      rfl
  | some place =>
    obtain ⟨line, hline, _⟩ := hs.nodes edit.id place hnode
    have hget := (lineAt?_eq_some.1 hline).2
    simp only [hline]
    cases edit with
    | remove id =>
      have hremove := removeNode_eq hnode (List.getElem?_eq_some_iff.1 hget).1
      simp only [NodeEdit.newLine, Except.map, renewed_eq_after]
      exact hremove
    | update id updates =>
      rw [NodeEdit.toEdit, perform, updateNode, show session.index.nodeLines.get? id = some place from hnode]
      simp only [hget, NodeEdit.newLine]
      cases updateAll line updates.entries with
      | error reason => rfl
      | ok new =>
        simp only [Except.map, renewed_eq_after]
        rfl

/-- A node's edit moves the line that another one changes, and nothing else about it. -/
theorem planned_renewed (hs : SafeIndex session.lines session.index) (hne : later.id ≠ edit.id)
    (h : session.planned edit = .ok renewal) :
    (session.renewed edit renewal).planned later = (session.planned later).map renewal.past := by
  obtain ⟨hedit, line, hat, _⟩ := planned_eq_ok h
  have hmoved : (session.renewed edit renewal).index.nodeLines.get? later.id =
      (session.index.nodeLines.get? later.id).map renewal.splice.move := by
    rw [renewed, LineIndex.relocate, OrderedMap.get?_mapValues, NodeEdit.nodeLines_forget hne]
  rw [Session.planned, hmoved, Session.planned]
  cases hnode : session.index.nodeLines.get? later.id with
  | none => rfl
  | some place =>
    obtain ⟨found, hfound, _⟩ := hs.nodes later.id place hnode
    have hmiss : place ≠ renewal.place := by
      rintro rfl
      exact hne (hs.id_unique hnode hedit)
    have hkept : lineAt? (session.renewed edit renewal).lines (renewal.splice.move place) =
        some found := Splice.lineAt?_apply (Renewal.inRange_splice hat) (Renewal.misses_splice hmiss) hfound
    simp only [Option.map_some, hkept, hfound]
    cases later.newLine found <;> rfl

/-- Edits of two nodes leave the same session in either order. -/
theorem renewed_comm (hf : lineAt? session.lines first.place = some line)
    (hs : lineAt? session.lines second.place = some found) (hne : first.place ≠ second.place) :
    (session.renewed edit first).renewed later (first.past second) =
      (session.renewed later second).renewed edit (second.past first) := by
  simp only [renewed, NodeEdit.forget_relocate, LineIndex.relocate_relocate,
    NodeEdit.forget_comm edit later, Renewal.apply_comm hf hs hne, mk.injEq, true_and, and_true]
  congr 1
  funext place
  exact Renewal.move_comm first second place

/-- What is planned for an edit that an operation may ask for. -/
def outcome (session : Session) (asked : Except SkipReason NodeEdit) :
    Except SkipReason (NodeEdit × Renewal) :=
  asked.bind fun edit => (session.planned edit).map fun renewal => (edit, renewal)

/-- What a step leads to. -/
def settled (session : Session) (op : Text) : Except SkipReason (NodeEdit × Renewal) → Session × Entry
  | .ok (edit, renewal) => (session.renewed edit renewal, ⟨op, .applied edit.change⟩)
  | .error reason => (session, ⟨op, .skipped reason⟩)

theorem step_nodeEdit {asked : Except SkipReason NodeEdit} (hs : SafeIndex session.lines session.index)
    (ha : operation.edit? = asked.map NodeEdit.toEdit) :
    session.step operation = .ok (session.settled operation.op (session.outcome asked)) := by
  cases asked with
  | error reason =>
    rw [step, ha]
    rfl
  | ok edit =>
    rw [step, ha]
    simp only [Except.map, perform_nodeEdit hs, outcome, Except.bind]
    cases session.planned edit <;> rfl

/-- What is planned for one edit once another is made. -/
def carry : Except SkipReason (NodeEdit × Renewal) → NodeEdit × Renewal → NodeEdit × Renewal
  | .ok (_, renewal), (edit, later) => (edit, renewal.past later)
  | .error _, planned => planned

theorem outcome_eq_ok {asked : Except SkipReason NodeEdit} (h : session.outcome asked = .ok (edit, renewal)) :
    asked = .ok edit ∧ session.planned edit = .ok renewal := by
  cases asked with
  | error reason => cases h
  | ok given =>
    rw [outcome, Except.bind] at h
    cases hplanned : session.planned given with
    | error reason => simp [hplanned, Except.map] at h
    | ok found =>
      simp only [hplanned, Except.map, Except.ok.injEq, Prod.mk.injEq] at h
      obtain ⟨rfl, rfl⟩ := h
      exact ⟨rfl, hplanned⟩

variable {asked wanted : Except SkipReason NodeEdit}

/-- A step on one node changes nothing of what is planned for another but the place. -/
theorem outcome_settled (hs : SafeIndex session.lines session.index)
    (hne : ∀ edit later, asked = .ok edit → wanted = .ok later → later.id ≠ edit.id) (op : Text) :
    (session.settled op (session.outcome asked)).1.outcome wanted =
      (session.outcome wanted).map (carry (session.outcome asked)) := by
  cases hasked : session.outcome asked with
  | error reason => cases hwanted : session.outcome wanted <;> exact hwanted
  | ok pair =>
    obtain ⟨edit, renewal⟩ := pair
    obtain ⟨rfl, hplanned⟩ := outcome_eq_ok hasked
    cases wanted with
    | error reason => rfl
    | ok later =>
      simp only [settled, outcome, Except.bind, planned_renewed hs (hne edit later rfl rfl) hplanned]
      cases session.planned later <;> rfl

/-- Two steps on different nodes leave the same session in either order. -/
theorem settled_comm (hs : SafeIndex session.lines session.index)
    (hne : ∀ edit later, asked = .ok edit → wanted = .ok later → later.id ≠ edit.id) (op other : Text) :
    ((session.settled op (session.outcome asked)).1.settled other
        ((session.outcome wanted).map (carry (session.outcome asked)))).1 =
      ((session.settled other (session.outcome wanted)).1.settled op
        ((session.outcome asked).map (carry (session.outcome wanted)))).1 := by
  cases hasked : session.outcome asked with
  | error reason => cases session.outcome wanted <;> rfl
  | ok pair =>
    cases hwanted : session.outcome wanted with
    | error reason => rfl
    | ok planned =>
      obtain ⟨edit, renewal⟩ := pair
      obtain ⟨later, second⟩ := planned
      obtain ⟨rfl, hfirst⟩ := outcome_eq_ok hasked
      obtain ⟨rfl, hsecond⟩ := outcome_eq_ok hwanted
      obtain ⟨hplace, _, hline, _⟩ := planned_eq_ok hfirst
      obtain ⟨hother, _, hfound, _⟩ := planned_eq_ok hsecond
      have hdifferent : renewal.place ≠ second.place := fun heq =>
        hne edit later rfl rfl (hs.id_unique hother (heq ▸ hplace))
      exact renewed_comm hline hfound hdifferent

/-- The entry of a step does not tell the place. -/
theorem entry_settled (session other : Session) (op : Text)
    (first planned : Except SkipReason (NodeEdit × Renewal)) :
    (other.settled op (planned.map (carry first))).2 = (session.settled op planned).2 := by
  cases planned with
  | error reason => rfl
  | ok pair => cases first <;> rfl

end Session

/-- An operation that removes or updates a node. -/
def Operation.OnNode (operation : Operation) : Prop :=
  operation.op = "removeNode".toList ∨ operation.op = "updateNode".toList

/-- Two operations that do not name the same node. -/
def Operation.Apart (operation other : Operation) : Prop :=
  ∀ id, operation.nodeId = some id → other.nodeId ≠ some id

instance : DecidablePred Operation.OnNode := fun _ => inferInstanceAs (Decidable (_ ∨ _))

namespace Operation

theorem Apart.symm (h : operation.Apart other) : other.Apart operation :=
  fun id ho hid => h id hid ho

/-- An operation on a node asks for an edit of the node that it names, or for none. -/
theorem OnNode.exists_asked (h : operation.OnNode) : ∃ asked : Except SkipReason NodeEdit,
    operation.edit? = asked.map NodeEdit.toEdit ∧
      ∀ edit, asked = .ok edit → operation.nodeId = some edit.id := by
  have hid : ∀ id, operation.nodeId.bind nonempty? = some id → operation.nodeId = some id := by
    intro id hsome
    obtain ⟨given, hgiven, hne⟩ := Option.bind_eq_some_iff.1 hsome
    rw [hgiven, (nonempty?_eq_some hne).1]
  rcases h with hop | hop
  · have hedit : operation.edit? = operation.removeNode? := by rw [edit?, hop]; rfl
    rw [hedit, removeNode?]
    cases hnode : operation.nodeId.bind nonempty? with
    | none => exact ⟨.error .missingNodeId, rfl, fun _ h => by cases h⟩
    | some id => exact ⟨.ok (.remove id), rfl, fun _ h => by cases h; exact hid id hnode⟩
  · have hedit : operation.edit? = operation.updateNode? := by rw [edit?, hop]; rfl
    rw [hedit, updateNode?]
    cases hnode : operation.nodeId.bind nonempty? with
    | none => exact ⟨.error .missingNodeIdOrUpdates, rfl, fun _ h => by cases h⟩
    | some id =>
      cases operation.updates with
      | none => exact ⟨.error .missingNodeIdOrUpdates, rfl, fun _ h => by cases h⟩
      | some updates => exact ⟨.ok (.update id updates), rfl, fun _ h => by cases h; exact hid id hnode⟩

theorem OnNode.plainSource (h : operation.OnNode) : operation.PlainSource := by
  obtain ⟨asked, hasked, _⟩ := h.exists_asked
  intro edit he source target hremove
  rw [hasked] at he
  cases asked with
  | error reason => cases he
  | ok edited => cases edited <;> cases he <;> cases hremove

end Operation

namespace Session

theorem exists_step (hs : Safe session) (ho : operation.OnNode) :
    ∃ entry next, session.step operation = .ok (next, entry) := by
  obtain ⟨asked, hasked, _⟩ := ho.exists_asked
  exact ⟨_, _, step_nodeEdit hs.index hasked⟩

/-- Two steps on different nodes can be made in either order, with the same entries. -/
theorem step_comm (hs : Safe session) (ho : operation.OnNode) (hother : other.OnNode)
    (hapart : operation.Apart other) {after : Session} (h : session.step operation = .ok (next, entry))
    (hafter : session.step other = .ok (after, passed)) :
    ∃ last, next.step other = .ok (last, passed) ∧ after.step operation = .ok (last, entry) := by
  have hnext := (safe_step hs ho.plainSource h).1
  have hlater := (safe_step hs hother.plainSource hafter).1
  obtain ⟨asked, hasked, hnamed⟩ := ho.exists_asked
  obtain ⟨wanted, hwanted, hmeant⟩ := hother.exists_asked
  have hne : ∀ edit later, asked = .ok edit → wanted = .ok later → later.id ≠ edit.id := by
    rintro edit later rfl rfl heq
    exact hapart _ (hnamed edit rfl) (heq ▸ hmeant later rfl)
  rw [step_nodeEdit hs.index hasked, Except.ok.injEq] at h
  rw [step_nodeEdit hs.index hwanted, Except.ok.injEq] at hafter
  have hfirst : (session.settled operation.op (session.outcome asked)).1 = next := congrArg Prod.fst h
  have hsecond : (session.settled other.op (session.outcome wanted)).1 = after :=
    congrArg Prod.fst hafter
  have hcomm := settled_comm hs.index hne operation.op other.op
  rw [hfirst, hsecond] at hcomm
  rw [step_nodeEdit hnext.index hwanted, step_nodeEdit hlater.index hasked, ← hfirst, ← hsecond,
    outcome_settled hs.index hne,
    outcome_settled hs.index fun later edit hl he => (hne edit later he hl).symm, hfirst, hsecond]
  have hentry : (session.settled operation.op (session.outcome asked)).2 = entry := congrArg Prod.snd h
  have hpassed : (session.settled other.op (session.outcome wanted)).2 = passed :=
    congrArg Prod.snd hafter
  refine ⟨_, congrArg Except.ok (Prod.ext rfl ?_), congrArg Except.ok (Prod.ext hcomm.symm ?_)⟩
  · rw [entry_settled session, hpassed]
  · rw [entry_settled session, hentry]

/-- The operations of a list have their entries in a session, each alone. -/
def Alone (record : Operation → Entry) (session : Session) (operations : List Operation) : Prop :=
  ∀ operation ∈ operations, ∃ next, session.step operation = .ok (next, record operation)

/-- A batch of operations on different nodes. -/
structure Independent (operations : List Operation) : Prop where
  onNode : ∀ operation ∈ operations, operation.OnNode
  apart : operations.Pairwise Operation.Apart

theorem Independent.tail (h : Independent (operation :: operations)) : Independent operations :=
  ⟨fun other hmem => h.onNode other (List.mem_cons_of_mem _ hmem), (List.pairwise_cons.1 h.apart).2⟩

theorem Independent.perm (h : Independent operations) (hp : operations.Perm others) :
    Independent others :=
  ⟨fun operation hmem => h.onNode operation (hp.mem_iff.2 hmem),
    (hp.pairwise_iff Operation.Apart.symm).1 h.apart⟩

variable {record : Operation → Entry}

/-- A step on one node leaves the operations on other nodes their entries. -/
theorem alone_step (hs : Safe session) (hi : Independent (operation :: operations))
    (ha : Alone record session operations) (h : session.step operation = .ok (next, entry)) :
    Alone record next operations := by
  intro other hmem
  obtain ⟨after, hafter⟩ := ha other hmem
  obtain ⟨last, hlast, _⟩ := step_comm hs (hi.onNode operation (by simp))
    (hi.onNode other (List.mem_cons_of_mem _ hmem)) ((List.pairwise_cons.1 hi.apart).1 other hmem)
    h hafter
  exact ⟨last, hlast⟩

/-- A run on different nodes gives each operation the entry that it gets alone. -/
theorem run_eq_map (hs : Safe session) (hi : Independent operations)
    (ha : Alone record session operations) :
    ∃ last, session.run operations = .ok (last, operations.map record) := by
  induction operations generalizing session with
  | nil => exact ⟨session, rfl⟩
  | cons operation rest ih =>
    obtain ⟨hfirst, hrest⟩ := List.forall_mem_cons.1 ha
    obtain ⟨next, hnext⟩ := hfirst
    have hplain := (hi.onNode operation (by simp)).plainSource
    obtain ⟨last, hlast⟩ := ih (safe_step hs hplain hnext).1 hi.tail (alone_step hs hi hrest hnext)
    exact ⟨last, run_cons_eq_ok.2 ⟨next, _, _, hnext, hlast, rfl⟩⟩

/-- Runs of the same operations on different nodes end alike, whatever their order. -/
theorem run_perm (hp : operations.Perm others) (hs : Safe session) (hi : Independent operations)
    (ha : Alone record session operations) :
    ∃ last, session.run operations = .ok (last, operations.map record) ∧
      session.run others = .ok (last, others.map record) := by
  induction hp generalizing session with
  | nil => exact ⟨session, rfl, rfl⟩
  | @cons operation rest others hp ih =>
    obtain ⟨hfirst, hrest⟩ := List.forall_mem_cons.1 ha
    obtain ⟨next, hnext⟩ := hfirst
    have hplain := (hi.onNode operation (by simp)).plainSource
    obtain ⟨last, hlast, hother⟩ :=
      ih (safe_step hs hplain hnext).1 hi.tail (alone_step hs hi hrest hnext)
    exact ⟨last, run_cons_eq_ok.2 ⟨next, _, _, hnext, hlast, rfl⟩,
      run_cons_eq_ok.2 ⟨next, _, _, hnext, hother, rfl⟩⟩
  | swap second first rest =>
    obtain ⟨⟨next, hnext⟩, hlater⟩ := List.forall_mem_cons.1 ha
    obtain ⟨⟨after, hafter⟩, _⟩ := List.forall_mem_cons.1 hlater
    have hfirst := hi.onNode first (by simp)
    have hsecond := hi.onNode second (by simp)
    have hapart := (List.pairwise_cons.1 hi.apart).1 second (by simp)
    obtain ⟨both, hboth, hagain⟩ := step_comm hs hfirst hsecond hapart hnext hafter
    have hsafe := (safe_step hs hfirst.plainSource hnext).1
    obtain ⟨_, hrest⟩ := List.forall_mem_cons.1 (alone_step hs hi hlater hnext)
    obtain ⟨last, hlast⟩ := run_eq_map (safe_step hsafe hsecond.plainSource hboth).1 hi.tail.tail
      (alone_step hsafe hi.tail hrest hboth)
    exact ⟨last,
      run_cons_eq_ok.2 ⟨next, _, _, hnext, run_cons_eq_ok.2 ⟨both, _, _, hboth, hlast, rfl⟩, rfl⟩,
      run_cons_eq_ok.2 ⟨after, _, _, hafter, run_cons_eq_ok.2 ⟨both, _, _, hagain, hlast, rfl⟩, rfl⟩⟩
  | trans hp _ ihp ihq =>
    obtain ⟨last, hlast, hmid⟩ := ihp hs hi ha
    obtain ⟨final, hmore, hfinal⟩ := ihq hs (hi.perm hp) fun operation hmem => ha operation (hp.mem_iff.2 hmem)
    rw [hmid, Except.ok.injEq, Prod.mk.injEq] at hmore
    obtain ⟨rfl, _⟩ := hmore
    exact ⟨_, hlast, hfinal⟩

end Session

theorem apart_of_nodup (h : (operations.filterMap Operation.nodeId).Nodup) :
    operations.Pairwise Operation.Apart := by
  refine (List.pairwise_filterMap.1 h).imp ?_
  intro operation other hne id hid hother
  exact hne id hid id hother rfl

/-- Operations that remove or update different nodes can be sent in any order: the text that they come to
is the same, and so is the entry of each, which it gets also when it is sent alone. Only a text that
declares a number with too many digits is refused, and it is refused for every batch. -/
theorem node_edits_commute (ho : ∀ operation ∈ operations, operation.OnNode)
    (hd : (operations.filterMap Operation.nodeId).Nodup) :
    ((∃ id ∈ declaredIds text, Overlong id) ∧
      ∃ fault, ∀ others, applyChanges text others = .error fault) ∨
    ∃ code record, (∀ others, others.Perm operations →
        applyChanges text others = .ok ⟨code, others.map record⟩) ∧
      ∀ operation ∈ operations, ∃ alone, applyChanges text [operation] = .ok ⟨alone, [record operation]⟩ := by
  rcases ofText_cases text with ⟨first, hs, _⟩ | ⟨hlong, count, hs⟩
  · have hsafe := safe_ofText hs
    have hi : Session.Independent operations := ⟨ho, apart_of_nodup hd⟩
    have halone : ∃ record, Session.Alone record first operations := by
      have : Inhabited Entry := ⟨⟨[], .skipped .unknownOperation⟩⟩
      choose! record hrecord using fun operation hmem => Session.exists_step hsafe (ho operation hmem)
      exact ⟨record, hrecord⟩
    obtain ⟨record, ha⟩ := halone
    obtain ⟨last, hlast⟩ := Session.run_eq_map hsafe hi ha
    have happly : ∀ {batch final entries}, first.run batch = .ok (final, entries) →
        applyChanges text batch = .ok ⟨final.text, entries⟩ := by
      intro batch final entries hrun
      simp only [applyChanges, hs, hrun, bind, Except.bind, pure, Except.pure]
    refine Or.inr ⟨last.text, record, fun others hp => ?_, fun operation hmem => ?_⟩
    · obtain ⟨final, hfinal, hothers⟩ := Session.run_perm hp.symm hsafe hi ha
      rw [hlast, Except.ok.injEq, Prod.mk.injEq] at hfinal
      obtain ⟨rfl, _⟩ := hfinal
      exact happly hothers
    · obtain ⟨next, hnext⟩ := ha operation hmem
      exact ⟨next.text, happly (Session.run_cons_eq_ok.2 ⟨next, _, _, hnext, rfl, rfl⟩)⟩
  · refine Or.inl ⟨hlong, .digits (.reading count), fun others => ?_⟩
    simp only [applyChanges, hs, bind, Except.bind]

/-- A text that declares a node twice, with a line break of another kind. -/
def repeatedNode : Text := "a \x7b\r\nn1: circle\r\nn2: circle\r\nn1: circle\nn4: circle\r\nn3: circle\r\n\x7d\r\n"

/-- Operations on four nodes; two of them are skipped. -/
def nodeOperations : List Operation := [
  { op := "removeNode", nodeId := some "n1" },
  { op := "updateNode", nodeId := some "n3", updates := some (.ofList [("label", "\x7d \x7b")]) },
  { op := "updateNode", nodeId := some "n2", updates := some (.ofList [("shape", "star")]) },
  { op := "removeNode", nodeId := some "n9" }]

theorem node_edits_commute_twice : ∃ code record,
    applyChanges repeatedNode nodeOperations = .ok ⟨code, nodeOperations.map record⟩ ∧
    applyChanges repeatedNode nodeOperations.reverse = .ok ⟨code, nodeOperations.reverse.map record⟩ ∧
    code = "a \x7b\r\nn1: circle\r\nn2: circle\r\nn3: circle label:\"\x7d \x7b\"\r\n\x7d\r\n".toList ∧
    (nodeOperations.map record).map Entry.isApplied = [true, true, false, false] := by
  have hrun : (applyChanges repeatedNode nodeOperations).toOption.map (fun result =>
      (result.code, result.entries.map Entry.isApplied)) =
      some ("a \x7b\r\nn1: circle\r\nn2: circle\r\nn3: circle label:\"\x7d \x7b\"\r\n\x7d\r\n".toList,
        [true, true, false, false]) := by decide +kernel
  rcases @node_edits_commute repeatedNode nodeOperations (by decide +kernel) (by decide +kernel) with
    ⟨_, fault, hfault⟩ | ⟨code, record, hall, _⟩
  · simp [hfault, Except.toOption] at hrun
  · have hsame := hall nodeOperations (List.Perm.refl _)
    simp only [hsame, Except.toOption, Option.map_some, Option.some.injEq, Prod.mk.injEq] at hrun
    exact ⟨code, record, hsame, hall _ (List.reverse_perm _), hrun.1, hrun.2⟩

end Swimlane.Patch
