import Swimlane.Proofs.Diff
import Swimlane.Proofs.Patch.Rescan

/-! What a diff reports of one applied edit: the node or the edge that it puts in, takes out or
changes, and nothing else. -/
namespace Swimlane

open Text Line

variable {graph old new : Graph} {text id : Text} {newline : Newline} {lines above below : List Text}
  {line : Text} {shape : Shape} {attributes : Attributes}

/-- A graph as it is drawn by some lines, apart from the labels of lanes and what edges say beside
the nodes that they join. -/
structure Drawn (graph : Graph) (lines : List Text) : Prop where
  nodes : graph.nodes = nodesFrom Classifier.byWords.nodeKind none (lines.map Line.read)
  ends : graph.edges.map Edge.ends = (lines.map Line.read).filterMap ends?
  lanes : graph.lanes.map (·.id) = newLanes [] ((lines.map Line.read).filterMap laneId?)

theorem drawn_ofText (text : Text) : Drawn (Graph.ofText text) (segments text) :=
  ⟨Graph.nodes_ofText text, by rw [Graph.edges_ofText, map_ends_edgesFrom]; rfl,
    Graph.laneIds_ofText text⟩

theorem readings_join (newline : Newline) (hne : lines ≠ []) (h : ∀ line ∈ lines, BreakFree line) :
    readings (newline.join lines) = lines.map Line.read := by
  rw [readings, segments_join_lines newline hne h]

/-- Joined lines draw what the lines draw, also if there are none. -/
theorem drawn_join (newline : Newline) (h : ∀ line ∈ lines, BreakFree line) :
    Drawn (Graph.ofText (newline.join lines)) lines := by
  by_cases hne : lines = []
  · subst hne
    cases newline <;> exact ⟨rfl, rfl, rfl⟩
  · have hreadings := readings_join newline hne h
    have hdrawn := drawn_ofText (newline.join lines)
    rw [readings] at hreadings
    exact ⟨hreadings ▸ hdrawn.nodes, hreadings ▸ hdrawn.ends, hreadings ▸ hdrawn.lanes⟩

theorem drawn_ids (h : Drawn graph lines) : graph.nodes.map (·.id) = Patch.nodeIds lines := by
  rw [h.nodes, map_id_nodesFrom]
  rfl

theorem laneBelow_eq (lines : List Text) : Patch.laneBelow lines =
    (openLane (lines.map Line.read)).getD defaultLane := by
  rw [Patch.laneBelow, Patch.openBelow, Patch.map_fst_openFrom]
  rfl

/-- The node that a line declares below some lines. -/
def nodeBelow (above : List Text) (id : Text) (shape : Shape) (attributes : Attributes) : Node :=
  declaredNode Classifier.byWords.nodeKind (openLane (above.map Line.read)) id shape attributes

theorem lane_nodeBelow : (nodeBelow above id shape attributes).lane = Patch.laneBelow above :=
  (laneBelow_eq above).symm

/-- The nodes that are drawn above and below a line that opens and closes no lane. -/
theorem nodes_around (above below : List Text) : ∃ before after,
    nodesFrom Classifier.byWords.nodeKind none ((above ++ below).map Line.read) = before ++ after ∧
    (∀ line, Inert (Line.read line) → nodesFrom Classifier.byWords.nodeKind none
      ((above ++ line :: below).map Line.read) = before ++ after) ∧
    ∀ line id shape attributes, Line.read line = .node id shape attributes →
      nodesFrom Classifier.byWords.nodeKind none ((above ++ line :: below).map Line.read) =
        before ++ nodeBelow above id shape attributes :: after := by
  refine ⟨nodesFrom Classifier.byWords.nodeKind none (above.map Line.read),
    nodesFrom Classifier.byWords.nodeKind (openLane (above.map Line.read)) (below.map Line.read),
    ?_, fun line hline => ?_, fun line id shape attributes hline => ?_⟩
  · rw [List.map_append, nodesFrom_append]
    rfl
  · rw [List.map_append, nodesFrom_append, List.map_cons, nodesFrom_inert hline]
    rfl
  · rw [List.map_append, nodesFrom_append, List.map_cons, hline]
    rfl

theorem filterMap_around {β : Type} {f : Line → Option β} (h : f (Line.read line) = none) :
    ((above ++ line :: below).map Line.read).filterMap f =
      ((above ++ below).map Line.read).filterMap f := by
  simp [h]

theorem mem_around {β : Type} {f : Line → Option β} {b : β} :
    b ∈ ((above ++ line :: below).map Line.read).filterMap f ↔
      f (Line.read line) = some b ∨ b ∈ ((above ++ below).map Line.read).filterMap f := by
  simp only [List.mem_filterMap, List.map_append, List.map_cons, List.mem_append, List.mem_cons]
  constructor
  · rintro ⟨declared, hm | rfl | hm, hb⟩
    · exact Or.inr ⟨declared, Or.inl hm, hb⟩
    · exact Or.inl hb
    · exact Or.inr ⟨declared, Or.inr hm, hb⟩
  · rintro (hb | ⟨declared, hm | hm, hb⟩)
    · exact ⟨_, Or.inr (Or.inl rfl), hb⟩
    · exact ⟨declared, Or.inl hm, hb⟩
    · exact ⟨declared, Or.inr (Or.inr hm), hb⟩

/-- A line that opens no lane and draws no edge may be left out when lanes and edges are compared. -/
theorem drawn_around (h : Drawn graph (above ++ line :: below))
    (hl : laneId? (Line.read line) = none) (he : ends? (Line.read line) = none) :
    graph.edges.map Edge.ends = ((above ++ below).map Line.read).filterMap ends? ∧
      graph.lanes.map (·.id) =
        newLanes [] (((above ++ below).map Line.read).filterMap laneId?) :=
  ⟨h.ends.trans (filterMap_around he), h.lanes.trans (congrArg (newLanes []) (filterMap_around hl))⟩

theorem ends?_of_nodeId? (h : nodeId? (Line.read line) = some id) : ends? (Line.read line) = none := by
  obtain ⟨_, _, hread⟩ := Patch.exists_of_nodeId? h
  rw [hread]
  rfl

theorem laneId?_of_nodeId? (h : nodeId? (Line.read line) = some id) :
    laneId? (Line.read line) = none := by
  obtain ⟨_, _, hread⟩ := Patch.exists_of_nodeId? h
  rw [hread]
  rfl

/-- A line that leaves nodes and lanes alone may be left out when they are compared. -/
theorem unchanged_around (hless : Drawn old (above ++ below))
    (hmore : Drawn new (above ++ line :: below)) (h : Inert (Line.read line)) :
    new.nodes = old.nodes ∧ new.lanes.map (·.id) = old.lanes.map (·.id) := by
  obtain ⟨left, right, hplain, hskip, _⟩ := nodes_around above below
  refine ⟨hmore.nodes.trans ((hskip line h).trans (hless.nodes.trans hplain).symm), ?_⟩
  rw [hmore.lanes, hless.lanes, filterMap_around (laneId?_of_inert h)]

/-- The edges of a line's graph are those around the line and its own. -/
theorem mem_ends_around {ends : Text × Text} (hless : Drawn old (above ++ below))
    (hmore : Drawn new (above ++ line :: below)) : ends ∈ new.edges.map Edge.ends ↔
      ends? (Line.read line) = some ends ∨ ends ∈ old.edges.map Edge.ends := by
  rw [hmore.ends, hless.ends, mem_around]

theorem between_node_inserted (hold : Drawn old (above ++ below))
    (hnew : Drawn new (above ++ line :: below)) (hd : Diff.Distinct old) (hn : Diff.Distinct new)
    (hread : Line.read line = .node id shape attributes) : Diff.between old new =
      { Diff.nothing with nodesAdded := [nodeBelow above id shape attributes] } := by
  have hdeclares : nodeId? (Line.read line) = some id := by rw [hread]; rfl
  obtain ⟨before, after, hplain, _, hnode⟩ := nodes_around above below
  obtain ⟨hends, hlanes⟩ :=
    drawn_around hnew (laneId?_of_nodeId? hdeclares) (ends?_of_nodeId? hdeclares)
  exact Diff.between_eq
    (Diff.nodes_insert hn hd (hold.nodes.trans hplain) (hnew.nodes.trans (hnode _ _ _ _ hread)))
    (Diff.edges_same (hends.trans hold.ends.symm)) (Diff.lanes_same (hlanes.trans hold.lanes.symm))

/-- A node that a line declares is found under its id. -/
theorem node?_nodeBelow (h : Drawn old (above ++ line :: below)) (hd : Diff.Distinct old)
    (hread : Line.read line = .node id shape attributes) :
    old.node? id = some (nodeBelow above id shape attributes) := by
  obtain ⟨before, after, _, _, hnode⟩ := nodes_around above below
  have hmem : nodeBelow above id shape attributes ∈ old.nodes := by
    rw [h.nodes, hnode _ _ _ _ hread]
    simp
  exact Diff.node?_of_mem hd hmem

theorem between_node_removed (hold : Drawn old (above ++ line :: below))
    (hnew : Drawn new (above ++ below)) (hd : Diff.Distinct old) (hn : Diff.Distinct new)
    (hread : Line.read line = .node id shape attributes) : Diff.between old new =
      { Diff.nothing with nodesRemoved := [nodeBelow above id shape attributes] } := by
  have hdeclares : nodeId? (Line.read line) = some id := by rw [hread]; rfl
  obtain ⟨before, after, hplain, _, hnode⟩ := nodes_around above below
  obtain ⟨hends, hlanes⟩ :=
    drawn_around hold (laneId?_of_nodeId? hdeclares) (ends?_of_nodeId? hdeclares)
  exact Diff.between_eq
    (Diff.nodes_remove hn hd (hold.nodes.trans (hnode _ _ _ _ hread)) (hnew.nodes.trans hplain))
    (Diff.edges_same (hnew.ends.trans hends.symm)) (Diff.lanes_same (hnew.lanes.trans hlanes.symm))

/-- A node that is declared anew in its place may have changed, but not its lane. -/
theorem between_node_replaced {written : Text} {other : Shape} {changed : Attributes}
    (hold : Drawn old (above ++ line :: below)) (hnew : Drawn new (above ++ written :: below))
    (hd : Diff.Distinct old) (hn : Diff.Distinct new)
    (hread : Line.read line = .node id shape attributes)
    (hwritten : Line.read written = .node id other changed) : ∃ updates,
      Diff.between old new = { Diff.nothing with nodesUpdated := updates } ∧ updates.length ≤ 1 ∧
        ∀ update ∈ updates, update.id = id ∧ ∀ change ∈ update.changes, change.field ≠ .lane := by
  have hdeclares : nodeId? (Line.read line) = some id := by rw [hread]; rfl
  have hanew : nodeId? (Line.read written) = some id := by rw [hwritten]; rfl
  obtain ⟨before, after, _, _, hnode⟩ := nodes_around above below
  obtain ⟨hends, hlanes⟩ :=
    drawn_around hold (laneId?_of_nodeId? hdeclares) (ends?_of_nodeId? hdeclares)
  obtain ⟨hnends, hnlanes⟩ := drawn_around hnew (laneId?_of_nodeId? hanew) (ends?_of_nodeId? hanew)
  have hnodes := Diff.nodes_replace hn hd (hold.nodes.trans (hnode _ _ _ _ hread))
    (hnew.nodes.trans (hnode _ _ _ _ hwritten)) rfl
  refine ⟨_, Diff.between_eq hnodes (Diff.edges_same (hnends.trans hends.symm))
    (Diff.lanes_same (hnlanes.trans hlanes.symm)), ?_, fun update hmem => ?_⟩
  · cases Diff.update? old.nodeMap (nodeBelow above id shape attributes).id
      (nodeBelow above id other changed) <;> simp
  · refine Diff.of_update? (Option.mem_toList.1 hmem) fun node hget => ?_
    have hsame : nodeBelow above id shape attributes = node :=
      Option.some.inj ((node?_nodeBelow hold hd hread).symm.trans hget)
    rw [← hsame, lane_nodeBelow, lane_nodeBelow]

theorem between_edge_inserted {ends : Text × Text} (hold : Drawn old (above ++ below))
    (hnew : Drawn new (above ++ line :: below)) (hn : Diff.Distinct new)
    (hinert : Inert (Line.read line)) (hends : ends? (Line.read line) = some ends) :
    if ends ∈ old.edges.map Edge.ends then Diff.between old new = Diff.nothing
    else ∃ added, Diff.between old new = { Diff.nothing with edgesAdded := [added] } ∧
      added.ends = ends := by
  obtain ⟨hnodes, hlanes⟩ := unchanged_around hold hnew hinert
  have hmem : ∀ other, other ∈ new.edges.map Edge.ends ↔
      other = ends ∨ other ∈ old.edges.map Edge.ends := by
    intro other
    rw [mem_ends_around hold hnew, hends, Option.some.injEq, eq_comm]
  have hremoved : (Diff.between old new).edgesRemoved = [] :=
    Diff.missingFrom_edgeMap_eq_nil fun other hm => (hmem other).2 (Or.inr hm)
  split
  · next hin =>
    refine Diff.between_eq (Diff.nodes_same hn hnodes) ⟨?_, hremoved⟩ (Diff.lanes_same hlanes)
    apply Diff.missingFrom_edgeMap_eq_nil
    intro other hm
    rcases (hmem other).1 hm with rfl | hm
    · exact hin
    · exact hm
  · next hout =>
    obtain ⟨added, hadded, heq⟩ := Diff.missingFrom_edgeMap_one ((hmem _).2 (Or.inl rfl)) hout
      fun other hm => (hmem other).1 hm
    exact ⟨added, Diff.between_eq (Diff.nodes_same hn hnodes) ⟨hadded, hremoved⟩
      (Diff.lanes_same hlanes), heq⟩

/-- Of the edges that join the same nodes just one is compared, so that others may be left. -/
theorem between_edge_removed (hold : Drawn old (above ++ line :: below))
    (hnew : Drawn new (above ++ below)) (hn : Diff.Distinct new)
    (hinert : Inert (Line.read line)) : ∃ removed,
      Diff.between old new = { Diff.nothing with edgesRemoved := removed } ∧
        removed.length ≤ 1 := by
  obtain ⟨hnodes, hlanes⟩ := unchanged_around hnew hold hinert
  have hmem : ∀ ends, ends ∈ old.edges.map Edge.ends ↔
      ends? (Line.read line) = some ends ∨ ends ∈ new.edges.map Edge.ends := fun _ =>
    mem_ends_around hnew hold
  have hadded : (Diff.between old new).edgesAdded = [] :=
    Diff.missingFrom_edgeMap_eq_nil fun ends hm => (hmem ends).2 (Or.inr hm)
  suffices h : ∃ removed, (Diff.between old new).edgesRemoved = removed ∧ removed.length ≤ 1 by
    obtain ⟨removed, hremoved, hlength⟩ := h
    exact ⟨removed, Diff.between_eq (Diff.nodes_same hn hnodes.symm) ⟨hadded, hremoved⟩
      (Diff.lanes_same hlanes.symm), hlength⟩
  by_cases hkept : ∀ ends, ends? (Line.read line) = some ends → ends ∈ new.edges.map Edge.ends
  · refine ⟨[], Diff.missingFrom_edgeMap_eq_nil fun ends hm => ?_, Nat.zero_le _⟩
    exact ((hmem ends).1 hm).elim (hkept ends) id
  · obtain ⟨ends, hkept⟩ := not_forall.1 hkept
    obtain ⟨hends, hgone⟩ := Classical.not_imp.1 hkept
    obtain ⟨edge, hedge, _⟩ := Diff.missingFrom_edgeMap_one ((hmem ends).2 (Or.inl hends)) hgone
      fun other hm => ((hmem other).1 hm).imp_left fun ho => Option.some.inj (ho.symm.trans hends)
    exact ⟨[edge], hedge, Nat.le_refl _⟩

namespace Patch

variable {session next : Session} {operation : Operation} {edit : Edit} {change : Change}
  {edge : NewEdge} {lane : Text} {result : Result}

/-- The name of the shape that is asked for, else that of a rectangle. -/
def Operation.requestedShape (operation : Operation) : Text :=
  ((operation.newNode.bind (·.shape)).bind nonempty?).getD Shape.rectangle.name

/-- The diff that an applied operation should lead to. -/
def Reported (operation : Operation) (change : Change) (old : Graph) (diff : Diff) : Edit → Prop
  | .insertNode lane _ _ _ _ _ => ∃ node name, change = .addedNode name node.id lane ∧
      operation.laneId = some lane ∧ node.lane = lane ∧
      node.shape.name = operation.requestedShape ∧ diff = { Diff.nothing with nodesAdded := [node] }
  | .removeNode id => ∃ node, old.node? id = some node ∧
      diff = { Diff.nothing with nodesRemoved := [node] }
  | .updateNode id _ => ∃ updates, diff = { Diff.nothing with nodesUpdated := updates } ∧
      updates.length ≤ 1 ∧ ∀ update ∈ updates, update.id = id ∧
        ∀ change ∈ update.changes, change.field ≠ .lane
  | .insertEdge edge =>
      if (edge.source, edge.target) ∈ old.edges.map Edge.ends then diff = Diff.nothing
      else ∃ added, diff = { Diff.nothing with edgesAdded := [added] } ∧
        added.ends = (edge.source, edge.target)
  | .removeEdge _ _ => ∃ removed, diff = { Diff.nothing with edgesRemoved := removed } ∧
      removed.length ≤ 1

theorem edit?_insertNode {shape : Shape} {label after before : Option Text}
    {properties : Attributes}
    (h : operation.edit? = .ok (.insertNode lane shape label properties after before)) :
    operation.laneId = some lane ∧ shape.name = operation.requestedShape := by
  have hinsert : operation.insertNode? =
      .ok (.insertNode lane shape label properties after before) := by
    rw [Operation.edit?] at h
    split at h
    · exact h
    · simp only [Operation.removeNode?, Operation.updateNode?, Operation.insertEdge?,
        Operation.removeEdge?] at h
      repeat' split at h
      all_goals cases h
  rw [Operation.insertNode?] at hinsert
  split at hinsert
  · next node found hnode hlane =>
    dsimp only at hinsert
    split at hinsert
    · next named hshape =>
      cases hinsert
      obtain ⟨written, hwritten, hsome⟩ := Option.bind_eq_some_iff.1 hlane
      obtain ⟨rfl, _⟩ := nonempty?_eq_some hsome
      refine ⟨hwritten, ?_⟩
      rw [Shape.name_ofName? hshape, Operation.requestedShape, hnode]
      rfl
    · cases hinsert
  · cases hinsert

/-- The edge that an edit puts in joins the nodes that it names. -/
theorem ends_edgeLine (lane : Text) (hf : Faithful session) (hc : (Edit.insertEdge edge).IsClean)
    (hd : ∀ line ∈ session.lines, ∀ id label, Line.read line = .laneOpen id label → '.' ∉ id) :
    ends? (Line.read (session.edgeLine lane edge)) = some (edge.source, edge.target) := by
  have ht := hc.2.1
  have hname := breakFree_targetName lane hf.index hf.breaks ht
  have hblank := exists_targetName session lane ht
  have hmentions : mentions handleStart (session.targetName lane edge.target) = false ∧
      (Reference.ofText (trimLeft (session.targetName lane edge.target))).node = edge.target := by
    rcases targetName_cases hf.index lane edge.target with
      heq | ⟨other, line, label, hline, hread, heq⟩
    · have hdotted : mentions handleStart ([] ++ '.' :: edge.target) = false :=
        mentions_handle_dotted (by simp) ht
      have hpart : edge.target <:+: [] ++ '.' :: edge.target := ⟨['.'], [], by simp⟩
      rw [heq, trimLeft_eq_self, reference_name ht]
      · refine ⟨?_, rfl⟩
        cases h : mentions handleStart edge.target with
        | false => rfl
        | true => exact absurd (hdotted.symm.trans (mentions_of_isInfix hpart h)) (by simp)
      · exact fun c hm => isBlank_of_isWord (ht.2 c (List.mem_of_mem_head? hm))
    · have hdot := hd line hline other label hread
      rw [heq, reference_dotted hdot ht]
      exact ⟨mentions_handle_dotted hdot ht, rfl⟩
  obtain ⟨point, hpoint, hread⟩ := exists_read_edgeLine lane hf hc
  rw [target?_edgeRest hname.1 hmentions.1 hblank hc.2.2.2.1] at hpoint
  cases hpoint
  rw [hread, ends?, hmentions.2, reference_name hc.1]

theorem distinct_of_drawn {graph : Graph} (h : Drawn graph session.lines) (hf : Faithful session) :
    Diff.Distinct graph := by
  rw [Diff.Distinct, drawn_ids h]
  exact hf.distinct

/-- What a diff reports of the graphs that the lines before and after an edit draw. -/
theorem reported_edited {old new : Graph} (hf : Faithful session) (hc : edit.IsClean)
    (hd : ∀ line ∈ session.lines, ∀ id label, Line.read line = .laneOpen id label → '.' ∉ id)
    (hop : operation.edit? = .ok edit) (he : Edited session edit change next)
    (hold : Drawn old session.lines) (hnew : Drawn new next.lines) :
    Reported operation change old (Diff.between old new) edit := by
  have hdold := distinct_of_drawn hold hf
  have hdnew := distinct_of_drawn hnew (faithful_edited hf he)
  cases he with
  | insertNode hlines hlane hid hread hbreak =>
    rw [hlines] at hold
    obtain ⟨hlaneId, hshape⟩ := edit?_insertNode hop
    exact ⟨_, _, rfl, hlaneId, lane_nodeBelow.trans hlane, hshape,
      between_node_inserted hold hnew hdold hdnew hread⟩
  | removeNode hlines hid =>
    rw [hlines] at hold
    obtain ⟨shape, attributes, hread⟩ := exists_of_nodeId? hid
    exact ⟨_, node?_nodeBelow hold hdold hread, between_node_removed hold hnew hdold hdnew hread⟩
  | updateNode hlines hid hwritten hbreak =>
    rw [hlines] at hold
    obtain ⟨shape, attributes, hread⟩ := exists_of_nodeId? hid
    obtain ⟨other, changed, hother⟩ := exists_of_nodeId? hwritten
    exact between_node_replaced hold hnew hdold hdnew hread hother
  | @insertEdge above below lane edge hlines hinert hbreak =>
    have hends := ends_edgeLine lane hf hc hd
    rw [hlines] at hold
    exact between_edge_inserted hold hnew hdnew hinert hends
  | removeEdge hlines hinert =>
    rw [hlines] at hold
    exact between_edge_removed hold hnew hdnew hinert

/-- The diff of a tidy text and what one applied operation makes of it reports the operation. -/
theorem diff_reports_operation (ht : Tidy text)
    (hd : ∀ lane ∈ (Graph.ofText text).lanes, '.' ∉ lane.id) (hc : operation.IsClean)
    (hr : applyChanges text [operation] = .ok result)
    (ha : result.entries = [⟨operation.op, .applied change⟩]) :
    ∃ edit, operation.edit? = .ok edit ∧
      Reported operation change (Graph.ofText text) (Diff.ofTexts text result.code) edit := by
  obtain ⟨session, last, entries, hs, hrun, rfl⟩ := applyChanges_eq_ok hr
  obtain ⟨entry, hstep, rfl⟩ := run_singleton hrun
  have hf := faithful_ofText ht hs
  have hlines : session.lines = segments text := by
    rw [(ofText_eq_ok ht.breaks hs).1]
  have hdots : ∀ line ∈ session.lines, ∀ id label, Line.read line = .laneOpen id label →
      '.' ∉ id := by
    intro line hline id label hread
    have hid : id ∈ (Graph.ofText text).lanes.map (·.id) := by
      rw [Graph.laneIds_ofText, mem_newLanes]
      refine ⟨List.mem_filterMap.2 ⟨Line.read line, ?_, by rw [hread]; rfl⟩, List.not_mem_nil⟩
      exact List.mem_map.2 ⟨line, hlines ▸ hline, rfl⟩
    obtain ⟨lane, hlane, rfl⟩ := List.mem_map.1 hid
    exact hd lane hlane
  rcases step_cases hf hc hstep with ⟨_, hskipped⟩ | ⟨edit, made, hedit, _, hentry, hedited⟩
  · have happlied : entry = ⟨operation.op, .applied change⟩ := List.singleton_inj.1 ha
    rw [happlied] at hskipped
    cases hskipped
  · have hsame : (⟨operation.op, .applied made⟩ : Entry) = ⟨operation.op, .applied change⟩ :=
      hentry ▸ List.singleton_inj.1 ha
    cases hsame
    have hnext := faithful_edited hf hedited
    exact ⟨edit, hedit, reported_edited hf (hc _ hedit) hdots hedit hedited
      (hlines ▸ drawn_ofText text) (drawn_join _ hnext.breaks)⟩

/-- An operation that puts a node into the first lane of the sample. -/
def sampleInsertion : Operation where
  op := "insertNode"
  laneId := some "a"
  newNode := some ⟨none, some "go", .empty⟩

theorem diff_reports_operation_sample : ∃ result, applyChanges sample [sampleInsertion] = .ok result ∧
    ∃ edit, sampleInsertion.edit? = .ok edit ∧
      Reported sampleInsertion (.addedNode "go" "n3" "a") (Graph.ofText sample)
        (Diff.ofTexts sample result.code) edit := by
  have happlied : (applyChanges sample [sampleInsertion]).toOption.map (·.entries) =
      some [⟨sampleInsertion.op, .applied (.addedNode "go" "n3" "a")⟩] := by decide +kernel
  cases hr : applyChanges sample [sampleInsertion] with
  | error fault => simp [hr, Except.toOption] at happlied
  | ok result =>
    rw [hr] at happlied
    exact ⟨result, rfl, diff_reports_operation (by decide +kernel) (by decide +kernel)
      (by decide +kernel) hr (Option.some.inj happlied)⟩

end Patch

end Swimlane
