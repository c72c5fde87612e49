import Swimlane.Patch.LineIndex
import Swimlane.Proofs.Diagram.Reading
import Swimlane.Proofs.OrderedMap

/-! The index that a scan of some lines gives: what it says of each line, and how it changes when a
line is put in, taken out or written anew. -/
namespace Swimlane.Patch

open Text Line

/-- The lane that is open at some place, with the line that opened it. -/
abbrev Opening := Option (Text × Int)

variable {number start delta position : Int} {current : Opening} {declared : Line}
  {id lane line : Text} {index other : LineIndex} {lines above below : List Text}

/-- The lane that is open below a line that stands at `number`. -/
def openAfter (number : Int) (current : Opening) : Line → Opening
  | .laneOpen id _ => some (id, number)
  | .laneClose => none
  | _ => current

def openFrom (number : Int) (current : Opening) : List Text → Opening
  | [] => current
  | line :: rest => openFrom (number + 1) (openAfter number current (Line.read line)) rest

/-- The lane and its line that are open below the lines of a text. -/
def openBelow (lines : List Text) : Opening := openFrom 0 none lines

/-- The lane of a node that is declared below some lines. -/
def laneBelow (lines : List Text) : Text := ((openBelow lines).map Prod.fst).getD defaultLane

/-- The ids of the nodes that are declared, in order. -/
def nodeIds (lines : List Text) : List Text := (lines.map Line.read).filterMap nodeId?

theorem nodeIds_append : nodeIds (above ++ below) = nodeIds above ++ nodeIds below := by
  simp [nodeIds]

theorem nodeIds_cons : nodeIds (line :: below) =
    (nodeId? (Line.read line)).toList ++ nodeIds below := by
  rw [nodeIds, List.map_cons, List.filterMap_cons]
  cases nodeId? (Line.read line) <;> rfl

theorem openFrom_append : openFrom number current (above ++ below) =
    openFrom (number + above.length) (openFrom number current above) below := by
  induction above generalizing number current with
  | nil => simp [openFrom]
  | cons line rest ih =>
    rw [List.cons_append, openFrom, ih, openFrom, List.length_cons]
    congr 1
    push_cast
    omega

theorem openBelow_concat : openBelow (lines ++ [line]) =
    openAfter lines.length (openBelow lines) (Line.read line) := by
  rw [openBelow, openFrom_append, openFrom, openFrom, Int.zero_add]
  rfl

/-- The open lane is the one that is found when the graph is read. -/
theorem map_fst_openFrom : (openFrom number current lines).map Prod.fst =
    (lines.map Line.read).foldl laneAfter (current.map Prod.fst) := by
  induction lines generalizing number current with
  | nil => rfl
  | cons line rest ih =>
    rw [openFrom, ih, List.map_cons, List.foldl_cons]
    congr 1
    cases Line.read line <;> rfl

theorem openBelow_lt (h : openBelow lines = some (lane, position)) :
    0 ≤ position ∧ position < lines.length := by
  induction lines using List.reverseRecOn with
  | nil => simp [openBelow, openFrom] at h
  | append_singleton rest line ih =>
    rw [openBelow_concat] at h
    rw [List.length_append, List.length_singleton]
    cases hr : Line.read line with
    | laneOpen id label =>
      simp only [hr, openAfter, Option.some.injEq, Prod.mk.injEq] at h
      omega
    | laneClose => simp [hr, openAfter] at h
    | _ =>
      have hpos := ih (by simpa [hr, openAfter] using h)
      omega

namespace LineIndex

/-- Two indexes that say the same of every node and of every lane. -/
structure Same (index other : LineIndex) : Prop where
  nodeLines : ∀ id, index.nodeLines.get? id = other.nodeLines.get? id
  nodeLanes : ∀ id, index.nodeLanes.get? id = other.nodeLanes.get? id
  laneSpans : ∀ lane, index.laneSpans.get? lane = other.laneSpans.get? lane

theorem Same.refl (index : LineIndex) : Same index index :=
  ⟨fun _ => rfl, fun _ => rfl, fun _ => rfl⟩

theorem Same.of_eq (h : index = other) : Same index other :=
  h ▸ .refl index

theorem Same.symm (h : Same index other) : Same other index :=
  ⟨fun id => (h.nodeLines id).symm, fun id => (h.nodeLanes id).symm,
    fun lane => (h.laneSpans lane).symm⟩

theorem Same.trans {last : LineIndex} (h : Same index other) (hl : Same other last) :
    Same index last :=
  ⟨fun id => (h.nodeLines id).trans (hl.nodeLines id),
    fun id => (h.nodeLanes id).trans (hl.nodeLanes id),
    fun lane => (h.laneSpans lane).trans (hl.laneSpans lane)⟩

theorem Same.shift (h : Same index other) :
    Same (index.shift start delta) (other.shift start delta) :=
  ⟨fun id => by simp [LineIndex.shift, h.nodeLines], h.nodeLanes,
    fun lane => by simp [LineIndex.shift, h.laneSpans]⟩

theorem Same.addNode (h : Same index other) :
    Same (index.addNode id lane position) (other.addNode id lane position) :=
  ⟨fun name => by simp [LineIndex.addNode, h.nodeLines],
    fun name => by simp [LineIndex.addNode, h.nodeLanes], h.laneSpans⟩

theorem Same.forgetNode (h : Same index other) :
    Same (index.forgetNode id) (other.forgetNode id) :=
  ⟨fun name => by simp [LineIndex.forgetNode, h.nodeLines],
    fun name => by simp [LineIndex.forgetNode, h.nodeLanes], h.laneSpans⟩

/-- The index with what one line adds to it. -/
def scanLine (number : Int) (current : Opening) (index : LineIndex) : Line → LineIndex
  | .laneClose =>
    match current with
    | some (id, opening) => { index with laneSpans := index.laneSpans.insert id ⟨opening, number⟩ }
    | none => index
  | .node id _ _ => index.addNode id ((current.map Prod.fst).getD defaultLane) number
  | _ => index

theorem scanFrom_cons : scanFrom number current index (line :: below) =
    scanFrom (number + 1) (openAfter number current (Line.read line))
      (scanLine number current index (Line.read line)) below := by
  cases h : Line.read line with
  | laneClose => cases current <;> simp [scanFrom, h, openAfter, scanLine]
  | _ => simp [scanFrom, h, openAfter, scanLine, addNode]

theorem scanFrom_append : scanFrom number current index (above ++ below) =
    scanFrom (number + above.length) (openFrom number current above)
      (scanFrom number current index above) below := by
  induction above generalizing number current index with
  | nil => simp [scanFrom, openFrom]
  | cons line rest ih =>
    rw [List.cons_append, scanFrom_cons, ih, scanFrom_cons, openFrom, List.length_cons]
    congr 1
    push_cast
    omega

theorem scan_append : scan (above ++ below) =
    scanFrom above.length (openBelow above) (scan above) below := by
  rw [scan, scanFrom_append, Int.zero_add]
  rfl

theorem scan_concat : scan (above ++ [line]) =
    scanLine above.length (openBelow above) (scan above) (Line.read line) := by
  rw [scan_append, scanFrom_cons]
  rfl

theorem scanLine_same (h : Same index other) :
    Same (scanLine number current index declared) (scanLine number current other declared) := by
  cases declared with
  | laneClose =>
    cases current with
    | none => exact h
    | some opening =>
      exact ⟨h.nodeLines, h.nodeLanes, fun lane => by simp [scanLine, h.laneSpans]⟩
  | node id shape attributes => exact h.addNode
  | _ => exact h

theorem scanFrom_same (h : Same index other) :
    Same (scanFrom number current index lines) (scanFrom number current other lines) := by
  induction lines generalizing number current index other with
  | nil => exact h
  | cons line rest ih =>
    rw [scanFrom_cons, scanFrom_cons]
    exact ih (scanLine_same h)

def moveOpening (start delta : Int) (current : Opening) : Opening :=
  current.map fun (id, position) => (id, movedFrom start delta position)

theorem movedFrom_of_le (h : start ≤ position) : movedFrom start delta position = position + delta :=
  if_pos h

theorem movedFrom_of_lt (h : position < start) : movedFrom start delta position = position :=
  if_neg (by omega)

theorem shift_scanLine (h : start ≤ number) :
    (scanLine number current index declared).shift start delta =
      scanLine (number + delta) (moveOpening start delta current) (index.shift start delta)
        declared := by
  cases declared with
  | laneClose =>
    cases current with
    | none => rfl
    | some opening =>
      simp [scanLine, moveOpening, shift, OrderedMap.mapValues_insert, movedFrom_of_le h]
  | node id shape attributes =>
    simp [scanLine, moveOpening, shift, addNode, OrderedMap.mapValues_insert, movedFrom_of_le h,
      Function.comp_def]
  | _ => rfl

theorem moveOpening_openAfter (h : start ≤ number) :
    moveOpening start delta (openAfter number current declared) =
      openAfter (number + delta) (moveOpening start delta current) declared := by
  cases declared with
  | laneOpen id label => simp [openAfter, moveOpening, movedFrom_of_le h]
  | _ => rfl

/-- A scan that starts later, at moved places, gives the moved index. -/
theorem shift_scanFrom (h : start ≤ number) :
    (scanFrom number current index lines).shift start delta =
      scanFrom (number + delta) (moveOpening start delta current) (index.shift start delta)
        lines := by
  induction lines generalizing number current index with
  | nil => rfl
  | cons line rest ih =>
    rw [scanFrom_cons, scanFrom_cons, ih (by omega), shift_scanLine h, moveOpening_openAfter h]
    congr 1
    omega

/-- Whether every line that an index names is one of the first `count`. -/
def Within (count : Nat) (index : LineIndex) : Prop :=
  (∀ id position, index.nodeLines.get? id = some position → 0 ≤ position ∧ position < count) ∧
    ∀ lane span, index.laneSpans.get? lane = some span →
      span.opening < count ∧ 0 ≤ span.closing ∧ span.closing < count

theorem within_scan (lines : List Text) : Within lines.length (scan lines) := by
  induction lines using List.reverseRecOn with
  | nil => exact ⟨fun _ _ h => by simp [scan, scanFrom, empty] at h,
      fun _ _ h => by simp [scan, scanFrom, empty] at h⟩
  | append_singleton rest line ih =>
    obtain ⟨hnodes, hspans⟩ := ih
    rw [scan_concat, List.length_append, List.length_singleton]
    refine ⟨fun id position h => ?_, fun lane span h => ?_⟩
    · cases hr : Line.read line with
      | node name shape attributes =>
        simp only [hr, scanLine, addNode, OrderedMap.get?_insert] at h
        split at h
        · cases h
          omega
        · have hpos := hnodes id position h
          omega
      | laneClose =>
        have hpos := hnodes id position (by
          cases ho : openBelow rest <;> simpa [hr, scanLine, ho] using h)
        omega
      | _ =>
        have hpos := hnodes id position (by simpa [hr, scanLine] using h)
        omega
    · cases hr : Line.read line with
      | laneClose =>
        cases ho : openBelow rest with
        | none =>
          have hpos := hspans lane span (by simpa [hr, scanLine, ho] using h)
          omega
        | some opening =>
          have hopen := openBelow_lt ho
          simp only [hr, scanLine, ho, OrderedMap.get?_insert] at h
          split at h
          · cases h
            dsimp only
            omega
          · have hpos := hspans lane span h
            omega
      | _ =>
        have hpos := hspans lane span (by simpa [hr, scanLine, addNode] using h)
        omega

/-- A move that starts behind all lines of an index leaves it as it is. -/
theorem shift_same {count : Nat} (h : Within count index) (hs : (count : Int) ≤ start) :
    Same (index.shift start delta) index := by
  obtain ⟨hnodes, hspans⟩ := h
  refine ⟨fun id => ?_, fun _ => rfl, fun lane => ?_⟩
  · cases hid : index.nodeLines.get? id with
    | none => simp [shift, hid]
    | some position =>
      have hpos := hnodes id position hid
      simp [shift, hid, movedFrom_of_lt (show position < start by omega)]
  · cases hlane : index.laneSpans.get? lane with
    | none => simp [shift, hlane]
    | some span =>
      have hpos := hspans lane span hlane
      simp [shift, hlane, movedFrom_of_lt (show span.opening < start by omega),
        movedFrom_of_lt (show span.closing < start by omega)]

theorem moveOpening_openBelow (hs : (lines.length : Int) ≤ start) :
    moveOpening start delta (openBelow lines) = openBelow lines := by
  cases h : openBelow lines with
  | none => rfl
  | some opening =>
    obtain ⟨lane, position⟩ := opening
    have hpos := openBelow_lt h
    simp [moveOpening, movedFrom_of_lt (show position < start by omega)]

/-- What is scanned below some lines moves alone. -/
theorem shift_scan_below (hs : (above.length : Int) ≤ start) (hn : start ≤ number) :
    Same ((scanFrom number (openBelow above) (scan above) below).shift start delta)
      (scanFrom (number + delta) (openBelow above) (scan above) below) := by
  rw [shift_scanFrom hn, moveOpening_openBelow hs]
  exact scanFrom_same (shift_same (within_scan above) hs)

/-- What is scanned below a line moves up to where the line was. -/
theorem shift_scan_up (above below : List Text) :
    Same ((scanFrom (above.length + 1) (openBelow above) (scan above) below).shift
      (above.length + 1) (-1)) (scan (above ++ below)) := by
  have hshift : Same ((scanFrom (above.length + 1) (openBelow above) (scan above) below).shift
      (above.length + 1) (-1))
      (scanFrom (above.length + 1 + -1) (openBelow above) (scan above) below) :=
    shift_scan_below (by omega) Int.le_rfl
  rwa [Int.add_neg_cancel_right, ← scan_append] at hshift

theorem scan_inert (h : Inert (Line.read line)) : scan (above ++ line :: below) =
    scanFrom (above.length + 1) (openBelow above) (scan above) below := by
  rw [scan_append, scanFrom_cons]
  revert h
  cases Line.read line <;> intro h <;> first | rfl | exact absurd h id

theorem scan_node (h : nodeId? (Line.read line) = some id) : scan (above ++ line :: below) =
    scanFrom (above.length + 1) (openBelow above)
      ((scan above).addNode id (laneBelow above) above.length) below := by
  rw [scan_append, scanFrom_cons]
  cases hr : Line.read line <;> simp only [hr, nodeId?, reduceCtorEq, Option.some.injEq] at h
  rw [h]
  rfl

theorem scan_insert_inert (h : Inert (Line.read line)) :
    Same (scan (above ++ line :: below)) ((scan (above ++ below)).shift above.length 1) := by
  rw [scan_inert h, scan_append]
  exact (shift_scan_below Int.le_rfl Int.le_rfl).symm

theorem scan_remove_inert (h : Inert (Line.read line)) :
    Same (scan (above ++ below))
      ((scan (above ++ line :: below)).shift (above.length + 1) (-1)) := by
  rw [scan_inert h]
  exact (shift_scan_up above below).symm

theorem scanLine_addNode (h : nodeId? declared ≠ some id) :
    Same (scanLine number current (index.addNode id lane position) declared)
      ((scanLine number current index declared).addNode id lane position) := by
  cases declared with
  | laneClose => cases current <;> exact Same.refl _
  | node name shape attributes =>
    have hne : name ≠ id := fun he => h (congrArg some he)
    refine ⟨fun other => ?_, fun other => ?_, fun _ => rfl⟩
    · by_cases ho : other = id <;> simp [scanLine, addNode, ho, hne.symm]
    · by_cases ho : other = id <;> simp [scanLine, addNode, ho, hne.symm]
  | _ => exact Same.refl _

theorem scanFrom_addNode (h : id ∉ nodeIds lines) :
    Same (scanFrom number current (index.addNode id lane position) lines)
      ((scanFrom number current index lines).addNode id lane position) := by
  induction lines generalizing number current index with
  | nil => exact Same.refl _
  | cons line rest ih =>
    rw [nodeIds_cons, List.mem_append, not_or, Option.mem_toList] at h
    rw [scanFrom_cons, scanFrom_cons]
    exact (scanFrom_same (scanLine_addNode h.1)).trans (ih h.2)

/-- A node's line that is put in adds the node to the moved index. -/
theorem scan_insert_node (h : nodeId? (Line.read line) = some id) (hb : id ∉ nodeIds below) :
    Same (scan (above ++ line :: below))
      (((scan (above ++ below)).shift above.length 1).addNode id (laneBelow above)
        above.length) := by
  rw [scan_node h, scan_append]
  exact (scanFrom_addNode hb).trans (shift_scan_below Int.le_rfl Int.le_rfl).symm.addNode

/-- The nodes of an index are those that the lines declare. -/
theorem isSome_get?_scan (lines : List Text) (id : Text) :
    (((scan lines).nodeLines.get? id).isSome ↔ id ∈ nodeIds lines) ∧
      (((scan lines).nodeLanes.get? id).isSome ↔ id ∈ nodeIds lines) := by
  induction lines using List.reverseRecOn with
  | nil => simp [scan, scanFrom, empty, nodeIds]
  | append_singleton rest line ih =>
    rw [scan_concat, nodeIds_append, nodeIds_cons]
    cases hr : Line.read line with
    | node name shape attributes =>
      by_cases hid : id = name <;> simp [scanLine, addNode, nodeId?, nodeIds, hid, ih]
    | laneClose =>
      cases ho : openBelow rest <;> simpa [scanLine, ho, nodeId?, nodeIds] using ih
    | _ => simpa [scanLine, nodeId?, nodeIds] using ih

theorem get?_scanFrom (h : id ∉ nodeIds lines) :
    (scanFrom number current index lines).nodeLines.get? id = index.nodeLines.get? id ∧
      (scanFrom number current index lines).nodeLanes.get? id = index.nodeLanes.get? id := by
  induction lines generalizing number current index with
  | nil => exact ⟨rfl, rfl⟩
  | cons line rest ih =>
    rw [nodeIds_cons, List.mem_append, not_or, Option.mem_toList] at h
    rw [scanFrom_cons, (ih h.2).1, (ih h.2).2]
    cases hr : Line.read line with
    | node name shape attributes =>
      have hne : id ≠ name := fun he => h.1 (by simp [hr, nodeId?, he])
      simp [scanLine, addNode, hne]
    | laneClose => cases current <;> exact ⟨rfl, rfl⟩
    | _ => exact ⟨rfl, rfl⟩

theorem get?_scan_eq_none (h : id ∉ nodeIds lines) :
    (scan lines).nodeLines.get? id = none ∧ (scan lines).nodeLanes.get? id = none := by
  obtain ⟨hline, hlane⟩ := isSome_get?_scan lines id
  rw [← Option.not_isSome_iff_eq_none, ← Option.not_isSome_iff_eq_none, hline, hlane]
  exact ⟨h, h⟩

/-- A node that was not there before is forgotten without a trace. -/
theorem forgetNode_addNode (hline : index.nodeLines.get? id = none)
    (hlane : index.nodeLanes.get? id = none) :
    (index.addNode id lane position).forgetNode id = index := by
  simp only [addNode, forgetNode, OrderedMap.erase_insert hline, OrderedMap.erase_insert hlane]

/-- A node's line that is taken out leaves the moved index without the node. -/
theorem scan_remove_node (h : nodeId? (Line.read line) = some id)
    (hd : id ∉ nodeIds (above ++ below)) : Same (scan (above ++ below))
      (((scan (above ++ line :: below)).forgetNode id).shift (above.length + 1) (-1)) := by
  have hnone : id ∉ nodeIds above ∧ id ∉ nodeIds below := by
    rwa [nodeIds_append, List.mem_append, not_or] at hd
  obtain ⟨hline, hlane⟩ := get?_scan_eq_none hnone.1
  have hforget : Same ((scan (above ++ line :: below)).forgetNode id)
      (scanFrom (above.length + 1) (openBelow above) (scan above) below) := by
    rw [scan_node h]
    refine (scanFrom_addNode hnone.2).forgetNode.trans (.of_eq (forgetNode_addNode ?_ ?_))
    · rw [(get?_scanFrom hnone.2).1, hline]
    · rw [(get?_scanFrom hnone.2).2, hlane]
  exact (hforget.shift.trans (shift_scan_up above below)).symm

/-- A node's line that declares the same node changes no index. -/
theorem scan_replace {new : Text} (h : nodeId? (Line.read line) = some id)
    (hnew : nodeId? (Line.read new) = some id) :
    scan (above ++ new :: below) = scan (above ++ line :: below) := by
  rw [scan_node h, scan_node hnew]

/-- An index names the last line that declares a node, and the lane that is open there. -/
theorem exists_nodeLine (h : (scan lines).nodeLines.get? id = some position) :
    ∃ above line below, lines = above ++ line :: below ∧ position = above.length ∧
      nodeId? (Line.read line) = some id ∧
      (scan lines).nodeLanes.get? id = some (laneBelow above) ∧ id ∉ nodeIds below := by
  induction lines using List.reverseRecOn with
  | nil => simp [scan, scanFrom, empty] at h
  | append_singleton rest line ih =>
    have hrest : nodeId? (Line.read line) ≠ some id →
        (scan rest).nodeLines.get? id = some position →
        (scan (rest ++ [line])).nodeLanes.get? id = (scan rest).nodeLanes.get? id →
        ∃ above other below, rest ++ [line] = above ++ other :: below ∧ position = above.length ∧
          nodeId? (Line.read other) = some id ∧
          (scan (rest ++ [line])).nodeLanes.get? id = some (laneBelow above) ∧
          id ∉ nodeIds below := by
      intro hne hline hlane
      obtain ⟨above, other, below, rfl, hpos, hid, hother, hlast⟩ := ih hline
      refine ⟨above, other, below ++ [line], by simp, hpos, hid, hlane.trans hother, ?_⟩
      rw [nodeIds_append, List.mem_append, not_or]
      exact ⟨hlast, by simpa [nodeIds] using hne⟩
    rw [scan_concat] at h
    cases hr : Line.read line with
    | node name shape attributes =>
      by_cases hid : id = name
      · refine ⟨rest, line, [], rfl, ?_, by rw [hr, hid]; rfl, ?_, List.not_mem_nil⟩
        · simpa [hr, scanLine, addNode, hid, eq_comm] using h
        · rw [scan_concat, hr]
          simp [scanLine, addNode, hid, laneBelow]
      · apply hrest
        · simpa [hr, nodeId?] using Ne.symm hid
        · simpa [hr, scanLine, addNode, hid] using h
        · rw [scan_concat, hr]
          simp [scanLine, addNode, hid]
    | laneClose =>
      apply hrest
      · simp [hr, nodeId?]
      · cases ho : openBelow rest <;> simpa [hr, scanLine, ho] using h
      · rw [scan_concat, hr]
        cases ho : openBelow rest <;> rfl
    | _ =>
      apply hrest
      · simp [hr, nodeId?]
      · simpa [hr, scanLine] using h
      · rw [scan_concat, hr]
        rfl

/-- An index names the brace that closes a lane, and the line that opened it. -/
theorem exists_laneSpan {span : Span} (h : (scan lines).laneSpans.get? lane = some span) :
    ∃ above line below, lines = above ++ line :: below ∧ span.closing = above.length ∧
      Line.read line = .laneClose ∧ openBelow above = some (lane, span.opening) := by
  induction lines using List.reverseRecOn with
  | nil => simp [scan, scanFrom, empty] at h
  | append_singleton rest line ih =>
    have hrest : (scan rest).laneSpans.get? lane = some span →
        ∃ above other below, rest ++ [line] = above ++ other :: below ∧
        span.closing = above.length ∧ Line.read other = .laneClose ∧
        openBelow above = some (lane, span.opening) := by
      intro hspan
      obtain ⟨above, other, below, rfl, hpos, hclose, hopen⟩ := ih hspan
      exact ⟨above, other, below ++ [line], by simp, hpos, hclose, hopen⟩
    rw [scan_concat] at h
    cases hr : Line.read line with
    | laneClose =>
      cases ho : openBelow rest with
      | none => exact hrest (by simpa [hr, scanLine, ho] using h)
      | some opening =>
        by_cases hl : lane = opening.1
        · have hspan : span = ⟨opening.2, rest.length⟩ := by
            simpa [hr, scanLine, ho, hl, eq_comm] using h
          refine ⟨rest, line, [], rfl, ?_, hr, ?_⟩
          · rw [hspan]
          · rw [ho, hspan, hl]
        · exact hrest (by simpa [hr, scanLine, ho, hl] using h)
    | _ => exact hrest (by simpa [hr, scanLine, addNode] using h)

/-- A lane with a closed block has its lines in the index. -/
theorem isSome_laneSpan (hc : Line.read line = .laneClose)
    (ho : openBelow above = some (lane, position)) :
    ((scan (above ++ line :: below)).laneSpans.get? lane).isSome := by
  have hkeep : ∀ {lines : List Text} {number : Int} {current : Opening} {index : LineIndex},
      (index.laneSpans.get? lane).isSome →
        ((scanFrom number current index lines).laneSpans.get? lane).isSome := by
    intro lines
    induction lines with
    | nil => exact fun h => h
    | cons other rest ih =>
      intro number current index h
      rw [scanFrom_cons]
      apply ih
      cases Line.read other with
      | laneClose =>
        cases current with
        | none => exact h
        | some opening =>
          by_cases hl : lane = opening.1 <;> simp [scanLine, hl]
          simpa [hl] using h
      | _ => exact h
  rw [scan_append, scanFrom_cons]
  apply hkeep
  simp [scanLine, hc, ho]

end LineIndex

end Swimlane.Patch
