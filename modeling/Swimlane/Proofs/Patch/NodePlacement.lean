import Swimlane.Proofs.Patch.Agreement
import Swimlane.Proofs.Patch.Lanes

/-! What a new node makes of the graph: it stands beside its anchor or at the end of its lane, and only
edges that name it may find a lane that they did not know. -/
namespace Swimlane

open Text Line Patch

variable {id lane node : Text} {known more : List (Text × Text)} {current : Option Text} {count : Nat}
  {lines above below : List Line} {shape : Shape} {attributes : Attributes} {reference : Reference}

/-- The lane of an edge's end stays, or is found if it was not known where the node `id` is. -/
def LaneKept (id lane node : Text) (old new : Option Text) : Prop :=
  new = old ∨ node = id ∧ old = none ∧ new = some lane

/-- The same edge, but for lanes that are found where the node `id` is. -/
structure Edge.Kept (id lane : Text) (edge other : Edge) : Prop where
  content : other = { edge with sourceLane := other.sourceLane, targetLane := other.targetLane }
  source : LaneKept id lane edge.source edge.sourceLane other.sourceLane
  target : LaneKept id lane edge.target edge.targetLane other.targetLane

theorem Edge.Kept.refl (edge : Edge) : edge.Kept id lane edge := ⟨rfl, Or.inl rfl, Or.inl rfl⟩

/-- A node is declared that was not, in a lane. -/
structure Declares (id lane : Text) (known more : List (Text × Text)) : Prop where
  others : ∀ node ≠ id, more.lookup node = known.lookup node
  absent : known.lookup id = none
  found : more.lookup id = some lane

theorem Declares.cons (h : Declares id lane known more) (hne : node ≠ id) (other : Text) :
    Declares id lane ((node, other) :: known) ((node, other) :: more) := by
  refine ⟨fun found hfound => ?_, ?_, ?_⟩
  · rw [List.lookup_cons, List.lookup_cons, h.others found hfound]
  · rw [List.lookup_cons, beq_false_of_ne hne.symm, h.absent]
  · rw [List.lookup_cons, beq_false_of_ne hne.symm, h.found]

theorem laneKept_laneIn (h : Declares id lane known more) :
    LaneKept id lane reference.node (reference.laneIn known) (reference.laneIn more) := by
  rw [Reference.laneIn, Reference.laneIn]
  cases reference.lane.bind nonempty? with
  | some name => exact Or.inl rfl
  | none =>
    by_cases hnode : reference.node = id
    · exact Or.inr ⟨hnode, by rw [hnode, h.absent]; rfl, by rw [hnode, h.found]; rfl⟩
    · exact Or.inl (by rw [h.others _ hnode])

/-- Edges below the new declaration of a node that they do not declare. -/
theorem kept_of_declares (h : Declares id lane known more) (hfresh : id ∉ lines.filterMap nodeId?) :
    List.Forall₂ (Edge.Kept id lane) (edgesFrom current known count lines)
      (edgesFrom current more count lines) := by
  induction lines generalizing current known more count with
  | nil => exact .nil
  | cons line rest ih =>
    cases line with
    | node name shape attributes =>
      have hne : name ≠ id := (List.ne_of_not_mem_cons hfresh).symm
      exact ih (h.cons hne _) (List.not_mem_of_not_mem_cons hfresh)
    | edge source target sourceHandle targetHandle label =>
      exact .cons ⟨rfl, laneKept_laneIn h, laneKept_laneIn h⟩ (ih h hfresh)
    | _ => exact ih h hfresh

/-- A node that is declared between two lines leaves the edges as they are, but for those below that
name it and no lane. -/
theorem kept_of_inserted (hlane : (above.foldl laneAfter current).getD defaultLane = lane)
    (hnone : known.lookup id = none) (hfresh : id ∉ (above ++ below).filterMap nodeId?) :
    List.Forall₂ (Edge.Kept id lane) (edgesFrom current known count (above ++ below))
      (edgesFrom current known count (above ++ .node id shape attributes :: below)) := by
  induction above generalizing current known count with
  | nil =>
    refine kept_of_declares ⟨fun node hne => ?_, hnone, ?_⟩ hfresh
    · rw [List.lookup_cons, beq_false_of_ne hne]
    · rw [List.lookup_cons, beq_self_eq_true]
      exact congrArg some hlane
  | cons line rest ih =>
    cases line with
    | node name shape attributes =>
      have hne : id ≠ name := List.ne_of_not_mem_cons hfresh
      refine ih hlane ?_ (List.not_mem_of_not_mem_cons hfresh)
      rw [List.lookup_cons, beq_false_of_ne hne, hnone]
    | edge source target sourceHandle targetHandle label => exact .cons (.refl _) (ih hlane hnone hfresh)
    | _ => exact ih hlane hnone hfresh

/-- The node with an id, if it stands in a lane. -/
def Graph.nodeIn? (graph : Graph) (lane id : Text) : Option Node :=
  (graph.node? id).filter (·.lane = lane)

namespace Patch

/-- The nodes that are declared above a place, among the lines that are not blank. -/
def declaredAbove (place : Int) (sources : List SourceLine) : List Text :=
  sources.filterMap fun source => if source.position < place then nodeId? source.line else none

/-- Between which nodes a new node of a lane stands: behind its first anchor if that is in the lane, else
in front of its second if that is, else below those that are declared above the brace of the last closed
block of the lane. -/
def Placed (text lane : Text) (after before : Option Text) (upper lower : List Node) : Prop :=
  match after.bind ((Graph.ofText text).nodeIn? lane), before.bind ((Graph.ofText text).nodeIn? lane) with
  | some anchor, _ => upper.getLast? = some anchor
  | none, some anchor => lower.head? = some anchor
  | none, none => ∃ span, ClosedBlock (sourceLines text) lane span ∧
      (∀ other, ClosedBlock (sourceLines text) lane other → other = span ∨ other.closing < span.opening) ∧
      upper.map Node.id = declaredAbove span.closing (sourceLines text)

variable {text label : Text} {lines above below : List Text} {source : SourceLine} {position : Int}
  {session next : Session} {after before : Option Text}

theorem declaredAbove_concat (place : Int) (lines : List Text) (line : Text) :
    declaredAbove place (sourcesOf (lines ++ [line])) = declaredAbove place (sourcesOf lines) ++
      if lines.length < place then (nodeId? (Line.read line)).toList else [] := by
  rw [declaredAbove, sourcesOf_concat, List.filterMap_append]
  congr 1
  cases htrim : trim line with
  | nil =>
    have hskip := read_blank htrim
    cases hread : Line.read line <;> simp [hread, isSkipped] at hskip
    simp [nonempty?, nodeId?]
  | cons c more =>
    have hread : Line.read (c :: more) = Line.read line := by rw [← htrim, read_trim]
    by_cases hlt : (lines.length : Int) < place
    · cases hid : nodeId? (Line.read line) <;>
        simp [nonempty?, SourceLine.position, hread, hlt, hid]
    · simp [nonempty?, SourceLine.position, hread, hlt]

theorem declaredAbove_of_le {place : Int} (h : (lines.length : Int) ≤ place) :
    declaredAbove place (sourcesOf lines) = nodeIds lines := by
  induction lines using List.reverseRecOn with
  | nil => rfl
  | append_singleton rest line ih =>
    rw [List.length_append, List.length_singleton] at h
    rw [declaredAbove_concat, ih (by omega), if_pos (by omega), nodeIds_append, nodeIds_cons]
    exact congrArg _ (List.append_nil _).symm

/-- The lines from a place on declare nothing above it. -/
theorem declaredAbove_append (above below : List Text) :
    declaredAbove above.length (sourcesOf (above ++ below)) = nodeIds above := by
  induction below using List.reverseRecOn with
  | nil => rw [List.append_nil, declaredAbove_of_le (Int.le_refl _)]
  | append_singleton rest line ih =>
    rw [← List.append_assoc, declaredAbove_concat, ih, if_neg, List.append_nil]
    simp

variable {id : Text} {index : LineIndex} {operation : Operation} {properties : Attributes}
  {result : Result} {change : Change} {span : Span}

/-- The nodes that some lines declare. -/
def nodesAbove (lines : List Text) : List Node :=
  nodesFrom Classifier.byWords.nodeKind none (lines.map Line.read)

/-- The nodes that the lines below others declare. -/
def nodesBelow (above below : List Text) : List Node :=
  nodesFrom Classifier.byWords.nodeKind (openLane (above.map Line.read)) (below.map Line.read)

theorem nodesAbove_append : nodesAbove (above ++ below) = nodesAbove above ++ nodesBelow above below := by
  rw [nodesAbove, List.map_append, nodesFrom_append]
  rfl

/-- The nodes of a text that is cut between two lines. -/
theorem nodes_cut (h : segments text = above ++ below) :
    (Graph.ofText text).nodes = nodesAbove above ++ nodesBelow above below := by
  rw [← nodesAbove_append, ← h]
  exact Graph.nodes_ofText text

theorem nodesBelow_node {line : Text} {shape : Shape} {attributes : Attributes}
    (h : Line.read line = .node id shape attributes) : nodesBelow above (line :: below) =
      nodeBelow above id shape attributes :: nodesBelow above below := by
  rw [nodesBelow, List.map_cons, h]
  rfl

/-- An anchor in a lane stands at the line that the index names for it. -/
theorem exists_anchor (hb : UniformBreaks text) (hd : Diff.Distinct (Graph.ofText text))
    (hs : Session.ofText text = .ok session) (h : session.index.lineIn? lane id = some position) :
    ∃ above line below shape attributes, segments text = above ++ line :: below ∧
      position = above.length ∧ Line.read line = .node id shape attributes ∧
      (Graph.ofText text).nodeIn? lane id = some (nodeBelow above id shape attributes) := by
  obtain ⟨hlines, hindex⟩ := lines_ofText hb hs
  obtain ⟨above, line, below, hparts, hposition, hid, hlane⟩ := Session.exists_lineIn hindex h
  obtain ⟨shape, attributes, hread⟩ := exists_of_nodeId? hid
  rw [hlines] at hparts
  have hdrawn := drawn_ofText text
  rw [hparts] at hdrawn
  refine ⟨above, line, below, shape, attributes, hparts, hposition, hread, ?_⟩
  rw [Graph.nodeIn?, node?_nodeBelow hdrawn hd hread, Option.filter_some, if_pos]
  exact decide_eq_true (lane_nodeBelow.trans hlane)

/-- A node that the index has in no such lane is not in the lane. -/
theorem nodeIn?_eq_none (hb : UniformBreaks text) (hs : Session.ofText text = .ok session)
    (h : session.index.lineIn? lane id = none) : (Graph.ofText text).nodeIn? lane id = none := by
  obtain ⟨hlines, hindex⟩ := lines_ofText hb hs
  rw [Session.Indexed, hlines] at hindex
  rw [Graph.nodeIn?, Option.filter_eq_none_iff]
  intro node hnode hlane
  have hat : session.index.nodeLanes.get? id = some lane := by
    rw [hindex.nodeLanes, (agrees_scan text).nodeLane, hnode, Option.map_some, of_decide_eq_true hlane]
  rw [LineIndex.lineIn?, if_pos hat, hindex.nodeLines, ← Option.not_isSome_iff_eq_none,
    (LineIndex.isSome_get?_scan _ _).1, ← (LineIndex.isSome_get?_scan _ _).2, ← hindex.nodeLanes, hat] at h
  exact h rfl

/-- The place of a new node among the nodes, from that of its line among the lines. -/
theorem placed (hb : UniformBreaks text) (hd : Diff.Distinct (Graph.ofText text))
    (hs : Session.ofText text = .ok session) (hl : session.index.laneSpans.get? lane = some span)
    (hlines : segments text = above ++ below)
    (hposition : session.insertionLine lane span after before = above.length) :
    Placed text lane after before (nodesAbove above) (nodesBelow above below) := by
  rw [Session.insertionLine] at hposition
  rw [Placed]
  cases hafter : after.bind (session.index.lineIn? lane) with
  | some position =>
    obtain ⟨anchor, rfl, hanchor⟩ := Option.bind_eq_some_iff.1 hafter
    obtain ⟨upper, line, lower, shape, attributes, hparts, rfl, hread, hnode⟩ :=
      exists_anchor hb hd hs hanchor
    simp only [hafter] at hposition
    obtain ⟨rfl, rfl⟩ : above = upper ++ [line] ∧ below = lower := by
      apply List.append_inj
      · rw [← hlines, hparts, List.append_assoc, List.singleton_append]
      · simp only [List.length_append, List.length_singleton]
        omega
    rw [Option.bind_some, hnode]
    simp only
    rw [nodesAbove_append, nodesBelow_node hread]
    exact List.getLast?_concat
  | none =>
    have hnone : after.bind ((Graph.ofText text).nodeIn? lane) = none := by
      cases after with
      | none => rfl
      | some anchor => exact nodeIn?_eq_none hb hs hafter
    simp only [hafter] at hposition
    cases hbefore : before.bind (session.index.lineIn? lane) with
    | some position =>
      obtain ⟨anchor, rfl, hanchor⟩ := Option.bind_eq_some_iff.1 hbefore
      obtain ⟨upper, line, lower, shape, attributes, hparts, rfl, hread, hnode⟩ :=
        exists_anchor hb hd hs hanchor
      rw [hbefore, Option.getD_some] at hposition
      obtain ⟨rfl, rfl⟩ : above = upper ∧ below = line :: lower :=
        List.append_inj (hlines.symm.trans hparts) (by omega)
      rw [hnone, Option.bind_some, hnode]
      simp only
      rw [nodesBelow_node hread]
      rfl
    | none =>
      have hother : before.bind ((Graph.ofText text).nodeIn? lane) = none := by
        cases before with
        | none => rfl
        | some anchor => exact nodeIn?_eq_none hb hs hbefore
      rw [hbefore, Option.getD_none] at hposition
      obtain ⟨hparts, hindex⟩ := lines_ofText hb hs
      rw [Session.Indexed, hparts] at hindex
      rw [hindex.laneSpans] at hl
      obtain ⟨hblock, hlast⟩ := (agrees_scan text).lastSpan lane span hl
      rw [hnone, hother]
      refine ⟨span, hblock, hlast, ?_⟩
      rw [sourceLines_eq, hlines, hposition, declaredAbove_append, nodesAbove, map_id_nodesFrom, nodeIds]

/-- The line of a new node among the lines of a session, and what it declares. -/
structure NewLine (session next : Session) (lane : Text) (after before : Option Text)
    (above below : List Text) (line : Text) : Prop where
  old : session.lines = above ++ below
  new : next.lines = above ++ line :: below
  opened : laneBelow above = lane
  position : ∃ span, session.index.laneSpans.get? lane = some span ∧
    session.insertionLine lane span after before = above.length
  read : ∃ shape attributes, Line.read line = .node session.freshId shape attributes
  fresh : session.freshId ∉ nodeIds session.lines
  lanes : lanesOf next.lines = lanesOf session.lines

/-- A clean new node has a line of its own. -/
theorem exists_newLine (hf : Faithful session) {shape : Shape} {label : Option Text}
    (hc : (Edit.insertNode lane shape label properties after before).IsClean)
    (hp : session.insertNode lane shape label properties after before = .ok (.applied change next)) :
    change = .addedNode (label.getD session.freshId) session.freshId lane ∧
      ∃ above below line, NewLine session next lane after before above below line := by
  have hperform : session.perform (.insertNode lane shape label properties after before) =
      .ok (.applied change next) := hp
  obtain ⟨splice, hsplice, rfl⟩ := Session.exists_splice hperform
  have hlanes := lanesOf_after hf hc hsplice
  cases Session.spliced hsplice with
  | @insertNode _ _ _ _ _ _ span hspan hid =>
    obtain ⟨above, below, hparts, hposition, hlane, _⟩ :=
      Session.exists_insertionLine hf.index hspan after before
    obtain ⟨_, attributes, hread⟩ := exists_read_newNode session shape hc.1 hc.2
    refine ⟨?_, above, below, _, hparts, ?_, hlane, ⟨span, hspan, hposition⟩, ⟨shape, attributes, hread⟩,
      freshId_not_mem hid hf.numbers, hlanes⟩
    · rw [Session.insertNode] at hp
      simp only [hspan, hid, bind, Except.bind, pure, Except.pure, Except.ok.injEq,
        Effect.applied.injEq] at hp
      exact hp.1.symm
    · rw [Session.after, hparts, hposition, Splice.apply, Int.toNat_natCast, insertAt_length]

/-- An insertion asks for a node in the lane that it names, beside the anchors that it names. -/
theorem exists_insertNode {edit : Edit} (hop : operation.op = "insertNode".toList)
    (he : operation.edit? = .ok edit) : ∃ lane shape label properties, operation.laneId = some lane ∧
      edit = .insertNode lane shape label properties operation.afterNodeId operation.beforeNodeId := by
  rw [Operation.edit?, if_pos hop, Operation.insertNode?] at he
  split at he
  · next node lane _ hlane =>
    dsimp only at he
    split at he
    · cases he
      obtain ⟨given, hgiven, hsome⟩ := Option.bind_eq_some_iff.1 hlane
      exact ⟨lane, _, _, _, (nonempty?_eq_some hsome).1 ▸ hgiven, rfl⟩
    · cases he
  · cases he

/-- A clean insertion that is applied puts one node into its lane, beside its anchor if that is in the
lane and else at the end of the last closed block; the lanes stay as they are, and so do the edges but
for those that name the node and no lane. -/
theorem insertNode_places (ht : Tidy text) (hc : operation.IsClean)
    (hop : operation.op = "insertNode".toList) (hr : applyChanges text [operation] = .ok result)
    (ha : result.entries = [⟨operation.op, .applied change⟩]) :
    ∃ lane name upper added lower, operation.laneId = some lane ∧
      (Graph.ofText text).nodes = upper ++ lower ∧
      (Graph.ofText result.code).nodes = upper ++ added :: lower ∧
      change = .addedNode name added.id lane ∧ added.lane = lane ∧
      Placed text lane operation.afterNodeId operation.beforeNodeId upper lower ∧
      (Graph.ofText result.code).lanes = (Graph.ofText text).lanes ∧
      List.Forall₂ (Edge.Kept added.id lane) (Graph.ofText text).edges
        (Graph.ofText result.code).edges := by
  obtain ⟨session, last, entries, hs, hrun, rfl⟩ := applyChanges_eq_ok hr
  obtain ⟨entry, hstep, rfl⟩ := run_singleton hrun
  have hf := faithful_ofText ht hs
  have hbreaks := (faithful_step hf hc hstep).breaks
  have hsegments := (lines_ofText ht.breaks hs).1
  rw [List.singleton_inj] at ha
  rcases Session.step_ok hstep with ⟨_, _, _, hentry⟩ | ⟨_, _, _, _, _, hentry⟩ |
    ⟨edit, made, he, hp, hentry⟩
  · cases hentry.symm.trans ha
  · cases hentry.symm.trans ha
  · cases hentry.symm.trans ha
    obtain ⟨lane, shape, label, properties, hlaneId, rfl⟩ := exists_insertNode hop he
    obtain ⟨hchange, above, below, line, hline⟩ := exists_newLine hf (hc _ he) hp
    obtain ⟨outline, attributes, hread⟩ := hline.read
    obtain ⟨span, hspan, hposition⟩ := hline.position
    have hparts : segments text = above ++ below := hsegments.symm.trans hline.old
    have hdrawn : Drawn (Graph.ofText last.text) last.lines := drawn_join _ hbreaks
    have hopen : ((above.map Line.read).foldl laneAfter none).getD defaultLane = lane :=
      (laneBelow_eq above).symm.trans hline.opened
    refine ⟨lane, _, nodesAbove above, nodeBelow above session.freshId outline attributes,
      nodesBelow above below, hlaneId, nodes_cut hparts, ?_, hchange,
      lane_nodeBelow.trans hline.opened, ?_, ?_, ?_⟩
    · rw [hdrawn.nodes, hline.new]
      exact nodesAbove_append.trans (congrArg _ (nodesBelow_node hread))
    · exact placed ht.breaks ht.distinct hs hspan hparts hposition
    · rw [Session.text, lanes_join _ hbreaks, hline.lanes, lanes_ofText, hsegments]
    · have hreadings : readings last.text = above.map Line.read ++
          .node session.freshId outline attributes :: below.map Line.read := by
        rw [Session.text, readings_join _ (by simp [hline.new]) hbreaks, hline.new, List.map_append,
          List.map_cons, hread]
      rw [Graph.edges_ofText, Graph.edges_ofText, hreadings, readings, hparts, List.map_append]
      refine kept_of_inserted hopen rfl ?_
      rw [← List.map_append, ← hline.old]
      exact hline.fresh

/-- A lane that is opened three times and closed twice, with an edge to a node that is not declared. -/
def reopened : Text := "a \x7b\n# Users\nn1: circle\n\x7d\nn9: circle\na \x7b\nn2: circle\n\x7d\na \x7b\n" ++
  "n3: circle\nn1.handle(right) -> n10.handle(left)\n"

/-- An insertion between two anchors, of which the first is in no lane. -/
def anchoredInsertion : Operation where
  op := "insertNode"
  laneId := some "a"
  afterNodeId := some "n9"
  beforeNodeId := some "n3"
  newNode := some ⟨none, some "go", .empty⟩

/-- The node stands in front of the second anchor, and the edge finds its lane. -/
theorem insertNode_places_reopened : ∃ result upper added lower,
    applyChanges reopened [anchoredInsertion] = .ok result ∧
    (Graph.ofText result.code).nodes = upper ++ added :: lower ∧
    "n10".toList = added.id ∧ "a".toList = added.lane ∧ Placed reopened "a" (some "n9") (some "n3") upper lower ∧
    (Graph.ofText result.code).lanes = (Graph.ofText reopened).lanes ∧
    List.Forall₂ (Edge.Kept "n10" "a") (Graph.ofText reopened).edges (Graph.ofText result.code).edges ∧
    (Graph.ofText reopened).edges.map Edge.targetLane = [none] ∧
    (Graph.ofText result.code).edges.map Edge.targetLane = [some "a".toList] := by
  have hrun : (applyChanges reopened [anchoredInsertion]).toOption.map (fun result =>
      (result.entries, (Graph.ofText result.code).edges.map Edge.targetLane)) =
      some ([⟨anchoredInsertion.op, .applied (.addedNode "go" "n10" "a")⟩], [some "a".toList]) := by
    decide +kernel
  have hunknown : (Graph.ofText reopened).edges.map Edge.targetLane = [none] := by decide +kernel
  cases hr : applyChanges reopened [anchoredInsertion] with
  | error fault => simp [hr, Except.toOption] at hrun
  | ok result =>
    rw [hr] at hrun
    simp only [Except.toOption, Option.map_some, Option.some.injEq, Prod.mk.injEq] at hrun
    obtain ⟨lane, _, upper, added, lower, hlane, _, hnew, hchange, hadded, hplaced, hlanes, hedges⟩ :=
      insertNode_places (by decide +kernel) (by decide +kernel) rfl hr hrun.1
    obtain rfl : "a".toList = lane := Option.some.inj hlane
    obtain ⟨_, hid, _⟩ := Change.addedNode.inj hchange
    rw [← hid] at hedges
    exact ⟨result, upper, added, lower, rfl, hnew, hid, hadded.symm, hplaced, hlanes, hedges, hunknown,
      hrun.2⟩

end Patch

end Swimlane
