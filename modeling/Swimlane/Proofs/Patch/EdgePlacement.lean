import Swimlane.Proofs.Diagram.WellFormed
import Swimlane.Proofs.Diagram.WrittenLines
import Swimlane.Proofs.Patch.Contract
import Swimlane.Proofs.Patch.EdgeRemoval
import Swimlane.Proofs.Patch.NodePlacement

/-! What a new edge makes of the graph: it is drawn once more among the edges, between the lanes of its
nodes, wherever they are declared. -/
namespace Swimlane

open Text Line Escaped

variable {count : Nat} {node : Node} {nodes : List Node} {lane : Text} {edges : List Edge}

/-- Of nodes with different ids each is found in its lane. -/
theorem lookup_lanesById (hd : (nodes.map Node.id).Nodup) (h : node ∈ nodes) :
    (lanesById nodes).lookup node.id = some node.lane := by
  obtain ⟨upper, lower, rfl⟩ := List.append_of_mem h
  rw [List.map_append, List.map_cons, List.nodup_middle, ← List.map_append, List.nodup_cons] at hd
  rw [List.lookup_eq_some_iff]
  refine ⟨lanesById lower, lanesById upper, by simp [lanesById], ?_⟩
  rintro ⟨id, lane⟩ hmem
  simp only [lanesById, List.mem_reverse, List.mem_map, Prod.mk.injEq] at hmem
  obtain ⟨other, hother, rfl, -⟩ := hmem
  have hne : node.id ≠ other.id := fun he =>
    hd.1 (List.mem_map.2 ⟨other, List.mem_append_right _ hother, he.symm⟩)
  simpa using hne

/-- A node as an edge from a lane names it, with its lane if that is another. -/
def Node.namedFrom (lane : Text) (node : Node) : Reference :=
  ⟨node.id, if node.lane = lane then none else some node.lane⟩

namespace Patch

variable {text : Text} {session : Session} {operation : Operation} {edge : NewEdge}
  {source target : Node} {above below : List Text} {close id : Text}

/-- A text with line breaks of one kind that declares no node twice, in which each lane is opened once
and closed before the next, under a name that can stand before that of a node. -/
structure Blocked (text : Text) : Prop where
  breaks : UniformBreaks text
  distinct : Diff.Distinct (Graph.ofText text)
  once : ((readings text).filterMap laneId?).Nodup
  closed : ∀ lane ∈ (readings text).filterMap laneId?, HasClosedBlock text lane
  named : ∀ lane ∈ (readings text).filterMap laneId?, '.' ∉ lane ∧ '\x7b' ∉ lane ∧ lane ≠ defaultLane

/-- An edge that is asked for between two nodes of a text that are in lanes, with names for handles and
with neither a brace nor a carriage return in its label. -/
structure Joins (text : Text) (edge : NewEdge) (source target : Node) : Prop where
  source : source ∈ (Graph.ofText text).nodes ∧ edge.source = source.id ∧ source.lane ≠ defaultLane
  target : target ∈ (Graph.ofText text).nodes ∧ edge.target = target.id ∧ target.lane ≠ defaultLane
  sourceHandle : IsName edge.sourceHandle
  targetHandle : IsName edge.targetHandle
  label : ∀ text ∈ edge.label, '\x7b' ∉ text ∧ '\r' ∉ text

/-- The edge that is asked for, as it is drawn between two nodes. -/
def NewEdge.drawn (edge : NewEdge) (source target : Node) : Edge where
  id := []
  source := source.id
  target := target.id
  sourceHandle := lower edge.sourceHandle
  targetHandle := lower edge.targetHandle
  sourceLane := some source.lane
  targetLane := some target.lane
  label := edge.label.bind fun text => nonempty? (normal text)

/-- What the line of the edge says, with the target named from the lane of the source. -/
def NewEdge.line (edge : NewEdge) (source target : Node) : Line :=
  .edge ⟨source.id, none⟩ (target.namedFrom source.lane) (lower edge.sourceHandle)
    (lower edge.targetHandle) (edge.label.bind fun text => nonempty? (normal text))

/-- A lane that is opened has a name with no blank before it and no line feed in it. -/
theorem laneId_spelling (h : lane ∈ (readings text).filterMap laneId?) :
    lane ≠ [] ∧ trimLeft lane = lane ∧ '\n' ∉ lane := by
  obtain ⟨declared, hdeclared, hid⟩ := List.mem_filterMap.1 h
  obtain ⟨line, hline, rfl⟩ := List.mem_map.1 hdeclared
  cases hread : Line.read line with
  | laneOpen name label =>
    rw [hread] at hid
    cases hid
    refine ⟨laneId_ne_nil hread, trimLeft_eq_self fun c hc => ?_, fun hm => ?_⟩
    · rw [head?_of_read_laneOpen hread] at hc
      exact (trimmed_trim line).1 c hc
    · exact (breakFree_of_mem_segments hline).1 (mem_of_read_laneOpen hread hm)
  | _ => simp [hread, laneId?] at hid

/-- The lane of a node, if it is in one, is opened. -/
theorem lane_mem_of_node (hm : node ∈ (Graph.ofText text).nodes) (hne : node.lane ≠ defaultLane) :
    node.lane ∈ (readings text).filterMap laneId? := by
  rw [Graph.nodes_ofText] at hm
  exact (lane_of_mem_nodesFrom hm hne).resolve_left (Option.some_ne_none _).symm

/-- In a text of blocks a node in a lane is declared above the brace of the lane. -/
theorem mem_nodesAbove (hb : Blocked text) (hl : segments text = above ++ close :: below)
    (hc : Line.read close = .laneClose) (ho : laneBelow above = node.lane)
    (hm : node ∈ (Graph.ofText text).nodes) (hne : node.lane ≠ defaultLane) :
    node ∈ nodesAbove above := by
  rw [nodes_cut hl] at hm
  refine (List.mem_append.1 hm).resolve_right fun hlater => ?_
  have hunder : node ∈ nodesFrom Classifier.byWords.nodeKind none (below.map Line.read) := by
    rwa [nodesBelow, List.map_cons, hc] at hlater
  have hagain : node.lane ∈ (below.map Line.read).filterMap laneId? :=
    (lane_of_mem_nodesFrom hunder hne).resolve_left (Option.some_ne_none _).symm
  have hfirst : node.lane ∈ (above.map Line.read).filterMap laneId? := by
    obtain ⟨line, hline, label, hread⟩ := (laneBelow_cases above).resolve_left (ho ▸ hne)
    rw [ho] at hread
    exact List.mem_filterMap.2 ⟨_, List.mem_map_of_mem hline, by rw [hread]; rfl⟩
  have honce := hb.once
  rw [readings, hl, List.map_append, List.map_cons, List.filterMap_append, List.filterMap_cons,
    hc] at honce
  exact (List.nodup_append.1 honce).2.2 _ hfirst _ hagain rfl

/-- The brace of a node's lane, and what the index says of both. -/
structure Brace (session : Session) (node : Node) (above : List Text) (close : Text)
    (below : List Text) : Prop where
  lines : session.lines = above ++ close :: below
  close : Line.read close = .laneClose
  opened : laneBelow above = node.lane
  lane : session.index.nodeLanes.get? node.id = some node.lane
  span : ∃ span, session.index.laneSpans.get? node.lane = some span ∧ span.closing = above.length

theorem nodeLane_of_mem (hd : Diff.Distinct (Graph.ofText text))
    (hm : node ∈ (Graph.ofText text).nodes) :
    (LineIndex.scan (segments text)).nodeLanes.get? node.id = some node.lane := by
  rw [(agrees_scan text).nodeLane, Diff.node?_of_mem hd hm, Option.map_some]

theorem exists_brace (hb : Blocked text) (hs : Session.ofText text = .ok session)
    (hm : node ∈ (Graph.ofText text).nodes) (hne : node.lane ≠ defaultLane) :
    ∃ above close below, Brace session node above close below := by
  obtain ⟨hlines, hindex⟩ := lines_ofText hb.breaks hs
  obtain ⟨span, hspan⟩ := exists_span (hb.closed _ (lane_mem_of_node hm hne))
  rw [← hlines, ← hindex.laneSpans] at hspan
  obtain ⟨above, close, below, hparts, hclosing, hclose, hopen⟩ := Session.exists_laneSpan hindex hspan
  refine ⟨above, close, below, hparts, hclose, hopen, ?_, span, hspan, hclosing⟩
  rw [hindex.nodeLanes, hlines]
  exact nodeLane_of_mem hb.distinct hm

/-- An edge from a node in a closed lane is written before the brace of the lane. -/
theorem insertEdge_brace (h : Brace session source above close below)
    (hsource : edge.source = source.id) :
    session.insertEdge edge = .applied (.addedEdge edge.source edge.target edge.label) { session with
      lines := above ++ session.edgeLine source.lane edge :: close :: below
      index := session.index.shift above.length 1 } := by
  obtain ⟨span, hspan, hclosing⟩ := h.span
  rw [Session.insertEdge, hsource, h.lane]
  simp only [hspan, hclosing, Session.insertLine_eq h.lines, Session.edgeLine, hsource]

theorem targetName_eq_written (ht : session.index.nodeLanes.get? target.id = some target.lane)
    (hne : target.lane ≠ []) (hd : target.lane ≠ defaultLane) :
    session.targetName lane target.id = (target.namedFrom lane).written := by
  rw [Session.targetName, ht, Node.namedFrom]
  by_cases hsame : target.lane = lane <;> simp [hne, hd, hsame, Reference.written]

/-- In a text of blocks a node of a lane can be named from any other. -/
theorem legible_namedFrom (hb : Blocked text) (hm : target ∈ (Graph.ofText text).nodes)
    (hd : target.lane ≠ defaultLane) : (target.namedFrom lane).Legible := by
  have hopened := lane_mem_of_node hm hd
  have hmem : ∀ other ∈ (target.namedFrom lane).lane, other = target.lane := by
    intro other hother
    rw [Node.namedFrom] at hother
    split at hother
    · cases hother
    · exact (Option.some.inj hother).symm
  obtain ⟨hdot, hbrace, -⟩ := hb.named _ hopened
  obtain ⟨-, hmargin, hfeed⟩ := laneId_spelling hopened
  refine ⟨isName_of_mem (List.mem_map_of_mem hm), fun other hother => ?_, fun other hother => ?_⟩
  · rw [hmem other hother]
    exact hmargin
  · rw [hmem other hother]
    exact ⟨hdot, hbrace, hfeed⟩

/-- A node that is named from a lane whose nodes are all above is found in its own. -/
theorem laneIn_namedFrom (hd : (nodes.map Node.id).Nodup) (hm : target.lane = lane → target ∈ nodes)
    (hne : target.lane ≠ []) : (target.namedFrom lane).laneIn (lanesById nodes) = some target.lane := by
  rw [Reference.laneIn, Node.namedFrom]
  by_cases hsame : target.lane = lane
  · simp [hsame, lookup_lanesById hd (hm hsame)]
  · obtain ⟨c, rest, hc⟩ := List.exists_cons_of_ne_nil hne
    rw [if_neg hsame, Option.bind_some, hc]
    rfl

theorem crossesLanes_drawn (hs : source.lane ≠ []) (ht : target.lane ≠ []) :
    (edge.drawn source target).crossesLanes = decide (source.lane ≠ target.lane) := by
  simp [Edge.crossesLanes, NewEdge.drawn, hs, ht]

/-- A new text has one edge more, between the lanes of two nodes, and the nodes and lanes that there
were. -/
structure Draws (text : Text) (edge : NewEdge) (source target : Node) (code : Text) : Prop where
  nodes : (Graph.ofText code).nodes = (Graph.ofText text).nodes
  lanes : (Graph.ofText code).lanes = (Graph.ofText text).lanes
  edges : ∃ before after, (Graph.ofText text).edges = numbered 0 (before ++ after) ∧
    (Graph.ofText code).edges = numbered 0 (before ++ edge.drawn source target :: after)
  crossing : (Graph.ofText code).stats.crossLaneEdges =
    (Graph.ofText text).stats.crossLaneEdges + if source.lane = target.lane then 0 else 1

theorem targetName_of_joins (hb : Blocked text) (hs : Session.ofText text = .ok session)
    (hj : Joins text edge source target) :
    session.targetName lane edge.target = (target.namedFrom lane).written := by
  obtain ⟨htarget, hid, hd⟩ := hj.target
  obtain ⟨hlines, hindex⟩ := lines_ofText hb.breaks hs
  rw [hid]
  refine targetName_eq_written ?_ (laneId_spelling (lane_mem_of_node htarget hd)).1 hd
  rw [hindex.nodeLanes, hlines]
  exact nodeLane_of_mem hb.distinct htarget

/-- The line of a new edge is one line, and is read as the edge between the nodes. -/
theorem read_edgeLine (hb : Blocked text) (hs : Session.ofText text = .ok session)
    (hj : Joins text edge source target) : BreakFree (session.edgeLine source.lane edge) ∧
      Line.read (session.edgeLine source.lane edge) = edge.line source target := by
  obtain ⟨hsource, hsid, -⟩ := hj.source
  obtain ⟨htarget, htid, hd⟩ := hj.target
  obtain ⟨hlines, hindex⟩ := lines_ofText hb.breaks hs
  have hname : IsName source.id := isName_of_mem (List.mem_map_of_mem hsource)
  have hnormal : ∀ {c : Char} {text : Text}, c ≠ ' ' → c ∉ text → c ∉ normal text :=
    fun hblank hc hm => (mem_of_mem_normal hm).elim hblank hc
  constructor
  · have htarget : BreakFree (session.targetName source.lane edge.target) := by
      refine breakFree_targetName _ hindex (fun line hline => ?_) ?_
      · exact breakFree_of_mem_segments (hlines ▸ hline)
      · exact htid ▸ isName_of_mem (List.mem_map_of_mem htarget)
    rw [Session.edgeLine, hsid]
    exact breakFree_renderEdge hname hj.sourceHandle hj.targetHandle htarget fun text htext =>
      hnormal (by decide) (hj.label text htext).2
  · rw [Session.edgeLine, hsid, targetName_of_joins hb hs hj]
    refine (read_renderEdge_eq_iff hname hj.sourceHandle (legible_namedFrom hb htarget hd)
      hj.targetHandle).2 fun text htext => ?_
    exact opensLabel_eq_false_of_not_mem (hnormal (by decide) (hj.label text htext).1)

theorem crossLaneEdges_numbered {graph : Graph} (h : graph.edges = numbered count edges) :
    graph.stats.crossLaneEdges = edges.countP Edge.crossesLanes := by
  have hcount : ∀ edges : List Edge, edges.countP Edge.crossesLanes =
      (edges.map Edge.content).countP Edge.crossesLanes := by
    intro edges
    rw [List.countP_map]
    rfl
  rw [hcount, ← content_numbered, ← h, ← hcount]
  exact List.countP_eq_length_filter.symm

/-- What the lines above declare is declared once. -/
theorem nodup_nodesAbove (hb : Blocked text) (hl : segments text = above ++ below) :
    ((nodesAbove above).map Node.id).Nodup := by
  have hdistinct := hb.distinct
  rw [Diff.Distinct, nodes_cut hl, List.map_append] at hdistinct
  exact hdistinct.of_append_left

/-- A line that is read as an edge between the nodes draws it between their lanes. -/
theorem drawnEdges_joined {line : Text} (hread : Line.read line = edge.line source target)
    (hd : ((nodesAbove above).map Node.id).Nodup) (hsource : source ∈ nodesAbove above)
    (htarget : target.lane = source.lane → target ∈ nodesAbove above) (hne : target.lane ≠ []) :
    ∃ before after, drawnEdges ((above ++ below).map Line.read) = before ++ after ∧
      drawnEdges ((above ++ line :: below).map Line.read) =
        before ++ edge.drawn source target :: after := by
  have hsourceLane : Reference.laneIn (lanesById (nodesAbove above)) ⟨source.id, none⟩ =
      some source.lane := lookup_lanesById hd hsource
  have htargetLane := laneIn_namedFrom hd htarget hne
  rw [nodesAbove] at hsourceLane htargetLane
  obtain ⟨after, hplain, hmore⟩ := drawnEdges_insert (above.map Line.read) (below.map Line.read)
    ⟨source.id, none⟩ (target.namedFrom source.lane) (lower edge.sourceHandle)
    (lower edge.targetHandle) (edge.label.bind fun text => nonempty? (normal text))
  rw [hsourceLane, htargetLane] at hmore
  refine ⟨drawnEdges (above.map Line.read), after, ?_, ?_⟩
  · rw [List.map_append, hplain]
  · rw [List.map_append, List.map_cons, hread]
    exact hmore

/-- An edge between nodes in lanes is put in before the brace of the first lane, and drawn. -/
theorem insertEdge_drawn (hb : Blocked text) (hs : Session.ofText text = .ok session)
    (hj : Joins text edge source target) : ∃ next,
      session.insertEdge edge = .applied (.addedEdge edge.source edge.target edge.label) next ∧
      Draws text edge source target next.text := by
  obtain ⟨hsource, hsid, hsd⟩ := hj.source
  obtain ⟨htarget, htid, htd⟩ := hj.target
  obtain ⟨above, close, below, hbrace⟩ := exists_brace hb hs hsource hsd
  have hlines := (lines_ofText hb.breaks hs).1
  have hcut : segments text = above ++ close :: below := hlines.symm.trans hbrace.lines
  obtain ⟨hfree, hread⟩ := read_edgeLine hb hs hj
  have hbreaks := breakFree_insert (fun other hmem => breakFree_of_mem_segments (hcut ▸ hmem)) hfree
  have hold := drawn_ofText text
  rw [hcut] at hold
  have hsourceNe : source.lane ≠ [] := (laneId_spelling (lane_mem_of_node hsource hsd)).1
  have htargetNe : target.lane ≠ [] := (laneId_spelling (lane_mem_of_node htarget htd)).1
  obtain ⟨before, after, hplain, hmore⟩ : ∃ before after,
      drawnEdges ((above ++ close :: below).map Line.read) = before ++ after ∧
      drawnEdges ((above ++ session.edgeLine source.lane edge :: close :: below).map Line.read) =
        before ++ edge.drawn source target :: after :=
    drawnEdges_joined hread (nodup_nodesAbove hb hcut)
      (mem_nodesAbove hb hcut hbrace.close hbrace.opened hsource hsd)
      (fun hsame => mem_nodesAbove hb hcut hbrace.close (hbrace.opened.trans hsame.symm) htarget htd)
      htargetNe
  have hedges := edges_of_drawn hplain (by rw [content_edges, readings, hcut])
  have hjoined := edges_of_drawn hmore (content_edges_join session.newline hbreaks)
  refine ⟨_, insertEdge_brace hbrace hsid, ?_, ?_, ⟨before, after, hedges, hjoined⟩, ?_⟩
  · exact (unchanged_around hold (drawn_join _ hbreaks) (by rw [hread]; trivial)).1
  · have hname : IsName edge.source := hsid ▸ isName_of_mem (List.mem_map_of_mem hsource)
    have hcovers : Covers (session.edgeLine source.lane edge) :=
      covers_of_name (by rw [hread]; rfl) hname (trim_renderEdge hname)
    rw [Session.text, lanes_join _ hbreaks, lanes_ofText, hcut]
    exact lanesOf_insert_beside (Or.inr ⟨close, below, rfl, Or.inr hbrace.close⟩) hcovers
  · rw [crossLaneEdges_numbered hedges]
    refine (crossLaneEdges_numbered hjoined).trans ?_
    rw [List.countP_append, List.countP_append, List.countP_cons,
      crossesLanes_drawn hsourceNe htargetNe]
    by_cases hsame : source.lane = target.lane <;> simp [hsame, Nat.add_assoc]

theorem edit?_insertEdge (hop : operation.op = "insertEdge".toList)
    (hedge : operation.newEdge = some edge) (hs : edge.source ≠ []) (ht : edge.target ≠ []) :
    operation.edit? = .ok (.insertEdge { edge with label := edge.label.bind nonempty? }) := by
  simp [Operation.edit?, hop, Operation.insertEdge?, Operation.edge?, hedge, hs, ht]

/-- An empty label is no label. -/
theorem drawn_unlabelled :
    NewEdge.drawn { edge with label := edge.label.bind nonempty? } source target =
      edge.drawn source target := by
  have hlabel : ((edge.label.bind nonempty?).bind fun text => nonempty? (normal text)) =
      edge.label.bind fun text => nonempty? (normal text) := by
    rcases edge.label with _ | _ | _ <;> rfl
  rw [NewEdge.drawn, NewEdge.drawn, hlabel]

theorem Joins.asked (h : Joins text edge source target) :
    Joins text { edge with label := edge.label.bind nonempty? } source target where
  source := h.source
  target := h.target
  sourceHandle := h.sourceHandle
  targetHandle := h.targetHandle
  label := fun text htext => by
    obtain ⟨given, hgiven, hsome⟩ := Option.bind_eq_some_iff.1 htext
    exact h.label text ((nonempty?_eq_some hsome).1 ▸ hgiven)

/-- A handle that is not given has its default. -/
theorem handles_ofFields {room : Nat} {fields : List (Text × Json)}
    (h : NewEdge.ofFields (Json.display room) fields = .ok edge) :
    ((Json.field fields "fromHandle").holds = false → edge.sourceHandle = Handle.right.name) ∧
    ((Json.field fields "toHandle").holds = false → edge.targetHandle = Handle.left.name) := by
  rw [NewEdge.ofFields] at h
  obtain ⟨_, -, h⟩ := bind_eq_ok.1 h
  obtain ⟨_, -, h⟩ := bind_eq_ok.1 h
  obtain ⟨_, -, h⟩ := bind_eq_ok.1 h
  obtain ⟨sourceHandle, hsource, h⟩ := bind_eq_ok.1 h
  obtain ⟨targetHandle, htarget, ⟨⟩⟩ := bind_eq_ok.1 h
  constructor
  · intro hnone
    rw [textOr, hnone] at hsource
    exact (Except.ok.inj hsource).symm
  · intro hnone
    rw [textOr, hnone] at htarget
    exact (Except.ok.inj htarget).symm

/-- In a text of blocks an edge between nodes in lanes is put in and drawn between their lanes, wherever
they are declared, unless the text declares an id that is too long to be read: then nothing comes of it.
Handles that are not given are the right one of the source and the left one of the target. -/
theorem insertEdge_draws (hb : Blocked text) (hop : operation.op = "insertEdge".toList)
    (hedge : operation.newEdge = some edge) (hj : Joins text edge source target) :
    (((∀ id ∈ declaredIds text, ¬ Overlong id) ∧ ∃ code, applyChanges text [operation] = .ok ⟨code,
        [⟨operation.op, .applied (.addedEdge edge.source edge.target (edge.label.bind nonempty?))⟩]⟩ ∧
        Draws text edge source target code) ∨
      (∃ id ∈ declaredIds text, Overlong id) ∧
        ∃ count, applyChanges text [operation] = .error (.digits (.reading count))) ∧
    ∀ room fields, NewEdge.ofFields (Json.display room) fields = .ok edge →
      ((Json.field fields "fromHandle").holds = false →
        (edge.drawn source target).sourceHandle = Handle.right.name) ∧
      ((Json.field fields "toHandle").holds = false →
        (edge.drawn source target).targetHandle = Handle.left.name) := by
  have hname : ∀ {node : Node}, node ∈ (Graph.ofText text).nodes → node.id ≠ [] :=
    fun hm => (isName_of_mem (List.mem_map_of_mem hm)).1
  have hedit := edit?_insertEdge hop hedge (hj.source.2.1 ▸ hname hj.source.1)
    (hj.target.2.1 ▸ hname hj.target.1)
  refine ⟨?_, ?_⟩
  · rcases ofText_cases text with ⟨session, hs, hhighest⟩ | ⟨hlong, count, hs⟩
    · obtain ⟨next, happlied, hdraws⟩ := insertEdge_drawn hb hs hj.asked
      refine Or.inl ⟨fun id hmem => not_overlong_of_highest hhighest hmem, next.text,
        applyChanges_applied hs hedit (congrArg Except.ok happlied), hdraws.nodes, hdraws.lanes, ?_,
        hdraws.crossing⟩
      rw [← drawn_unlabelled]
      exact hdraws.edges
    · exact Or.inr ⟨hlong, count, by rw [applyChanges, hs]; rfl⟩
  · intro room fields hread
    obtain ⟨hsource, htarget⟩ := handles_ofFields hread
    exact ⟨fun h => (congrArg lower (hsource h)).trans (by decide),
      fun h => (congrArg lower (htarget h)).trans (by decide)⟩

/-- A lane, a node in none, and a lane whose name is not a word. The edge is to a node further down. -/
def twoBlocks : Text := "a \x7b\n# Users\nn1: circle\nn3.handle(right) -> n2.handle(left)\n\x7d\n" ++
  "n5: circle\norder-desk \x7b\nn2: circle\nn3: circle\n\x7d\n"

/-- The fields of an edge into the other lane. -/
def deskFields : List (Text × Json) := [("from", .str "n1"), ("to", .str "n2"),
  ("label", .str " to\nthe desk "), ("fromHandle", .str "Top")]

def deskEdge : NewEdge := ⟨"n1", "n2", some " to\nthe desk ", "Top", Handle.left.name⟩

def deskInsertion : Operation where
  op := "insertEdge"
  newEdge := some deskEdge

/-- The nodes of the edge, in their lanes. -/
def deskSource : Node := declaredNode Classifier.byWords.nodeKind (some "a") "n1" .circle .empty

def deskTarget : Node :=
  declaredNode Classifier.byWords.nodeKind (some "order-desk") "n2" .circle .empty

theorem blocked_twoBlocks : Blocked twoBlocks := by
  have hfacts : UniformBreaks twoBlocks ∧ ((Graph.ofText twoBlocks).nodes.map Node.id).Nodup ∧
      (readings twoBlocks).filterMap laneId? = ["a".toList, "order-desk".toList] ∧
      (segments twoBlocks).drop 4 = "\x7d".toList :: (segments twoBlocks).drop 5 ∧
      (segments twoBlocks).drop 9 = "\x7d".toList :: (segments twoBlocks).drop 10 ∧
      openLane (((segments twoBlocks).take 4).map Line.read) = some "a".toList ∧
      openLane (((segments twoBlocks).take 9).map Line.read) = some "order-desk".toList := by
    decide +kernel
  obtain ⟨hbreaks, hdistinct, hlanes, hfirst, hsecond, hopen, hlast⟩ := hfacts
  refine ⟨hbreaks, hdistinct, ?_, ?_, ?_⟩
  · rw [hlanes]
    decide
  · rw [hlanes, List.forall_mem_cons, List.forall_mem_singleton]
    exact ⟨⟨_, _, _, by rw [← hfirst, List.take_append_drop], rfl, hopen⟩,
      ⟨_, _, _, by rw [← hsecond, List.take_append_drop], rfl, hlast⟩⟩
  · rw [hlanes]
    decide

theorem insertEdge_draws_desk : ∃ code before after,
    applyChanges twoBlocks [deskInsertion] = .ok ⟨code,
      [⟨deskInsertion.op, .applied (.addedEdge "n1" "n2" (some " to\nthe desk "))⟩]⟩ ∧
    (Graph.ofText code).nodes = (Graph.ofText twoBlocks).nodes ∧
    (Graph.ofText code).lanes = (Graph.ofText twoBlocks).lanes ∧
    (Graph.ofText twoBlocks).edges = numbered 0 (before ++ after) ∧
    (Graph.ofText code).edges = numbered 0 (before ++ ⟨[], "n1", "n2", "top", "left",
      some "a".toList, some "order-desk".toList, some "to the desk".toList⟩ :: after) ∧
    (Graph.ofText code).stats.crossLaneEdges = (Graph.ofText twoBlocks).stats.crossLaneEdges + 1 ∧
    (deskEdge.drawn deskSource deskTarget).targetHandle = Handle.left.name := by
  obtain ⟨hsource, htarget, hok⟩ : deskSource ∈ (Graph.ofText twoBlocks).nodes ∧
      deskTarget ∈ (Graph.ofText twoBlocks).nodes ∧
      (applyChanges twoBlocks [deskInsertion]).toOption.isSome = true := by decide +kernel
  have hjoins : Joins twoBlocks deskEdge deskSource deskTarget :=
    ⟨⟨hsource, rfl, by decide⟩, ⟨htarget, rfl, by decide⟩, by decide, by decide, by decide⟩
  have hop : deskInsertion.op = "insertEdge".toList := rfl
  obtain ⟨hdraws | ⟨-, count, herror⟩, hdefault⟩ := insertEdge_draws blocked_twoBlocks hop rfl hjoins
  · obtain ⟨-, code, hcode, hdraws⟩ := hdraws
    obtain ⟨before, after, hold, hnew⟩ := hdraws.edges
    have hedge : NewEdge.drawn deskEdge deskSource deskTarget = ⟨[], "n1", "n2", "top",
        "left", some "a".toList, some "order-desk".toList, some "to the desk".toList⟩ := by
      decide +kernel
    rw [hedge] at hnew
    exact ⟨code, before, after, hcode, hdraws.nodes, hdraws.lanes, hold, hnew, hdraws.crossing,
      (hdefault 990 deskFields rfl).2 rfl⟩
  · simp [herror, Except.toOption] at hok

section Block

variable {ids : List Text}

/-- A lane with nodes of some ids. -/
def blockLines (ids : List Text) : List Text :=
  "a \x7b".toList :: (ids.map fun id => renderNode id .circle []) ++ ["\x7d".toList]

def block (ids : List Text) : Text := Newline.lf.join (blockLines ids)

theorem breakFree_blockLines (h : ∀ id ∈ ids, IsName id) :
    ∀ line ∈ blockLines ids, BreakFree line := by
  intro line hline
  rw [blockLines, List.cons_append, List.mem_cons, List.mem_append, List.mem_singleton] at hline
  rcases hline with rfl | hline | rfl
  · decide
  · obtain ⟨id, hid, rfl⟩ := List.mem_map.1 hline
    exact breakFree_renderNode .circle (h id hid) (by simp)
  · decide

theorem uniformBreaks_block (h : ∀ id ∈ ids, IsName id) : UniformBreaks (block ids) :=
  uniformBreaks_join _ (breakFree_blockLines h)

theorem segments_block (h : ∀ id ∈ ids, IsName id) :
    segments (block ids) = blockLines ids :=
  segments_join_lines _ (List.cons_ne_nil _ _) (breakFree_blockLines h)

theorem read_opening : Line.read "a \x7b".toList = .laneOpen "a" none := rfl

theorem read_nodeLines (h : ∀ id ∈ ids, IsName id) :
    (ids.map fun id => renderNode id .circle []).map Line.read =
      ids.map fun id => .node id .circle .empty := by
  rw [List.map_map]
  exact List.map_congr_left fun id hid => read_renderNode .circle (h id hid) (by simp)

theorem readings_block (h : ∀ id ∈ ids, IsName id) : readings (block ids) =
    .laneOpen "a" none :: ids.map (fun id => .node id .circle .empty) ++ [.laneClose] := by
  rw [readings, segments_block h, blockLines, List.map_append, List.map_cons, read_opening,
    read_nodeLines h]
  rfl

/-- A node of a block. -/
def blockNode (id : Text) : Node :=
  declaredNode Classifier.byWords.nodeKind (some "a") id .circle .empty

theorem nodes_block (h : ∀ id ∈ ids, IsName id) : (Graph.ofText (block ids)).nodes =
    ids.map blockNode := by
  have hnodes : ∀ ids : List Text, nodesFrom Classifier.byWords.nodeKind (some "a")
      (ids.map (fun id => .node id .circle .empty) ++ [.laneClose]) = ids.map blockNode := by
    intro ids
    induction ids with
    | nil => rfl
    | cons id rest ih => exact congrArg (_ :: ·) ih
  rw [Graph.nodes_ofText, readings_block h]
  exact hnodes ids

theorem blocked_block (h : ∀ id ∈ ids, IsName id) (hd : ids.Nodup) :
    Blocked (block ids) := by
  have hlanes : (readings (block ids)).filterMap laneId? = ["a".toList] := by
    rw [readings_block h]
    simp [laneId?, List.filterMap_map, Function.comp_def]
  refine ⟨uniformBreaks_block h, ?_, ?_, ?_, ?_⟩
  · rw [Diff.Distinct, nodes_block h, List.map_map]
    exact (List.map_id ids).symm ▸ hd
  · rw [hlanes]
    exact List.nodup_singleton _
  · have hopen : ∀ ids : List Text, (ids.map fun id => Line.node id .circle .empty).foldl laneAfter
        (some "a".toList) = some "a".toList := by
      intro ids
      induction ids with
      | nil => rfl
      | cons id rest ih => exact ih
    rw [hlanes, List.forall_mem_singleton]
    refine ⟨_, "\x7d".toList, [], segments_block h, rfl, ?_⟩
    rw [List.map_cons, read_opening, read_nodeLines h]
    exact hopen ids
  · rw [hlanes]
    decide

theorem joins_block (h : ∀ id ∈ ids, IsName id) {first second : Text} (hf : first ∈ ids)
    (hs : second ∈ ids) : Joins (block ids) ⟨first, second, none, Handle.right.name, Handle.left.name⟩
      (blockNode first) (blockNode second) where
  source := ⟨nodes_block h ▸ List.mem_map_of_mem hf, rfl, show "a".toList ≠ defaultLane by decide⟩
  target := ⟨nodes_block h ▸ List.mem_map_of_mem hs, rfl, show "a".toList ≠ defaultLane by decide⟩
  sourceHandle := show IsName Handle.right.name by decide
  targetHandle := show IsName Handle.left.name by decide
  label := by simp

/-- Nothing comes of operations on a block with an id that is too long to be read. -/
theorem applyChanges_block (h : ∀ id ∈ ids, IsName id) (hmem : id ∈ ids) (hlong : Overlong id)
    (operations : List Operation) :
    ∃ count, applyChanges (block ids) operations = .error (.digits (.reading count)) := by
  have hdeclared : id ∈ declaredIds (block ids) := by
    rw [declaredIds, split_eq_segments (uniformBreaks_block h), nodeIds, ← readings, readings_block h]
    simp [nodeId?, hmem]
  rcases ofText_cases (block ids) with ⟨session, _, hhighest⟩ | ⟨_, count, hs⟩
  · exact absurd hlong (not_overlong_of_highest hhighest hdeclared)
  · exact ⟨count, by rw [applyChanges, hs]; rfl⟩

end Block

/-- An id that has one digit too many. -/
def overlongId : Text := 'n' :: List.replicate (maxDigits + 1) '1'

theorem isName_overlongId : IsName overlongId := by
  refine ⟨List.cons_ne_nil _ _, fun c hc => ?_⟩
  rcases List.mem_cons.1 hc with rfl | hc
  · decide
  · rw [List.eq_of_mem_replicate hc]
    decide

theorem overlong_overlongId : Overlong overlongId := by
  have hdigits : (List.replicate (maxDigits + 1) '1').all isDecimalDigit = true :=
    List.all_replicate.trans (by decide)
  refine ⟨List.replicate (maxDigits + 1) '1', ?_, ?_⟩
  · rw [Option.mem_def, overlongId, sequentialDigits?, hdigits]
    rfl
  · rw [List.length_replicate]
    exact Nat.lt_succ_self _

/-- An edge between two nodes of a block is not put in if the id of a third is too long to be read. -/
theorem insertEdge_not_applied : Blocked (block ["n1", "n2", overlongId]) ∧
    Joins (block ["n1", "n2", overlongId]) ⟨"n1", "n2", none, "right", "left"⟩ (blockNode "n1")
      (blockNode "n2") ∧
    ∃ count, applyChanges (block ["n1", "n2", overlongId]) [edgeInsertion] =
      .error (.digits (.reading count)) := by
  have hnames : ∀ id ∈ ["n1".toList, "n2".toList, overlongId], IsName id := by
    simp only [List.forall_mem_cons, List.not_mem_nil, false_implies, implies_true, and_true]
    exact ⟨by decide, by decide, isName_overlongId⟩
  have hlonger : ∀ id : Text, id.length = 2 → id ≠ overlongId := by
    intro id hlength he
    rw [he, overlongId, List.length_cons, List.length_replicate] at hlength
    exact absurd hlength (by decide)
  have hdistinct : ["n1".toList, "n2".toList, overlongId].Nodup := by
    rw [List.nodup_cons, List.nodup_cons]
    simp [hlonger]
  exact ⟨blocked_block hnames hdistinct, joins_block hnames (by simp) (by simp),
    applyChanges_block hnames (by simp) overlong_overlongId _⟩

end Patch

end Swimlane
