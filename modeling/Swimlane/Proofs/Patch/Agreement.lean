import Swimlane.Proofs.Diagram.Places
import Swimlane.Proofs.Diff.View
import Swimlane.Proofs.Patch.Rescan

/-! The index that a session starts from agrees with the graph that is read of the same text: the
index is scanned from all lines, counted from zero, the graph from the lines that are not blank,
numbered from one. -/
namespace Swimlane

/-- The number of a line when lines are counted from zero. -/
def SourceLine.position (line : SourceLine) : Int := line.number - 1

namespace Patch

open Text Line

variable {lines : List Text} {rest sources : List SourceLine} {last opening : SourceLine}
  {lane line text : Text} {span : Span}

/-- The lines that are not blank, numbered from one. -/
def sourcesOf (lines : List Text) : List SourceLine :=
  (lines.zipIdx 1).filterMap fun (line, number) =>
    (nonempty? (trim line)).map fun text => ⟨number, text, Line.read text⟩

theorem sourceLines_eq (text : Text) : sourceLines text = sourcesOf (segments text) := by
  rw [sourceLines, numberedLines, List.map_filterMap, segments, sourcesOf]
  simp only [Option.map_map]
  rfl

theorem sourcesOf_concat : sourcesOf (lines ++ [line]) = sourcesOf lines ++
    ((nonempty? (trim line)).map fun text => ⟨lines.length + 1, text, Line.read text⟩).toList := by
  rw [sourcesOf, List.zipIdx_append, List.filterMap_append, List.zipIdx_singleton, Nat.add_comm 1,
    List.filterMap_cons]
  cases h : nonempty? (trim line) <;> simp only [h] <;> rfl

/-- Further down, numbers are higher. -/
theorem pairwise_number_sourcesOf (lines : List Text) :
    (sourcesOf lines).Pairwise fun source other => source.number < other.number := by
  refine (pairwise_zipIdx lines 1).filterMap _ ?_
  rintro ⟨line, number⟩ ⟨later, next⟩ hlt source hsource other hother
  obtain ⟨text, -, rfl⟩ := Option.map_eq_some_iff.1 hsource
  obtain ⟨text, -, rfl⟩ := Option.map_eq_some_iff.1 hother
  exact hlt

/-- The scan of one numbered line: the lane that is open, and what is found so far. -/
def scanSource (state : Opening × LineIndex) (source : SourceLine) : Opening × LineIndex :=
  (openAfter source.position state.1 source.line,
    LineIndex.scanLine source.position state.1 state.2 source.line)

def scanSources (sources : List SourceLine) : Opening × LineIndex :=
  sources.foldl scanSource (none, .empty)

theorem scanSources_concat :
    scanSources (rest ++ [last]) = scanSource (scanSources rest) last := List.foldl_concat ..

/-- Blank lines may be left out of a scan if the others keep their numbers. -/
theorem scan_eq_scanSources (lines : List Text) :
    (openBelow lines, LineIndex.scan lines) = scanSources (sourcesOf lines) := by
  induction lines using List.reverseRecOn with
  | nil => rfl
  | append_singleton above line ih =>
    rw [openBelow_concat, LineIndex.scan_concat, sourcesOf_concat]
    cases ht : trim line with
    | nil =>
      have hskip := read_blank ht
      rw [nonempty?, Option.map_none, Option.toList_none, List.append_nil, ← ih]
      cases hread : Line.read line <;> simp [hread, isSkipped] at hskip
      rfl
    | cons c more =>
      have hread : Line.read (c :: more) = Line.read line := by rw [← ht, read_trim]
      have hsome : nonempty? (c :: more) = some (c :: more) := rfl
      rw [hsome, Option.map_some, Option.toList_some, scanSources_concat, ← ih, scanSource, hread]
      simp [SourceLine.position]

/-- A lane is opened, and closed with no lane opened and no brace in between. -/
def ClosedBlock (sources : List SourceLine) (lane : Text) (span : Span) : Prop :=
  ∃ above opening between closing below,
    sources = above ++ opening :: (between ++ closing :: below) ∧
    laneId? opening.line = some lane ∧ closing.line.closes ∧ (∀ line ∈ between, line.Inner) ∧
    span = ⟨opening.position, closing.position⟩

/-- The lane that is closed at a place, with the lines of its block. -/
def closedBlock? (place : Place) : Option (Text × Span) :=
  if place.here.line.closes then
    (openingAbove? place.above).bind fun opening =>
      (laneId? opening.line).map fun lane => (lane, ⟨opening.position, place.here.position⟩)
  else none

/-- The closed blocks of all lanes, from the top. -/
def closedBlocks (sources : List SourceLine) : List (Text × Span) :=
  (places sources).filterMap closedBlock?

theorem closedBlocks_concat : closedBlocks (rest ++ [last]) =
    closedBlocks rest ++ (closedBlock? ⟨rest, last, []⟩).toList :=
  filterMap_places_concat fun _ _ _ _ => rfl

theorem mem_closedBlocks : (lane, span) ∈ closedBlocks sources ↔ ClosedBlock sources lane span := by
  rw [closedBlocks, List.mem_filterMap]
  constructor
  · rintro ⟨place, hplace, hblock⟩
    rw [closedBlock?] at hblock
    split at hblock
    · next hcloses =>
      obtain ⟨opening, hopening, hspan⟩ := Option.bind_eq_some_iff.1 hblock
      obtain ⟨name, hname, heq⟩ := Option.map_eq_some_iff.1 hspan
      obtain ⟨rfl, rfl⟩ := Prod.mk.inj heq
      obtain ⟨-, above, between, habove, hbetween⟩ := openingAbove?_eq_some_iff.1 hopening
      refine ⟨above, opening, between, place.here, place.below, ?_, hname, hcloses, hbetween, rfl⟩
      rw [mem_places.1 hplace, habove, List.append_assoc, List.cons_append]
    · cases hblock
  · rintro ⟨above, opening, between, closing, below, rfl, hlane, hcloses, hbetween, rfl⟩
    refine ⟨⟨above ++ opening :: between, closing, below⟩, mem_places.2 (by simp), ?_⟩
    have hopening : openingAbove? (above ++ opening :: between) = some opening :=
      openingAbove?_eq_some_iff.2 ⟨by rw [hlane]; rfl, above, between, rfl, hbetween⟩
    rw [closedBlock?, if_pos hcloses, hopening, Option.bind_some, hlane, Option.map_some]

/-- The line that opens the lane stands below all braces. -/
theorem number_lt_of_openingAbove?
    (h : sources.Pairwise fun source other => source.number < other.number)
    (ho : openingAbove? sources = some opening) (hmem : last ∈ sources) (hc : last.line.closes) :
    last.number < opening.number := by
  obtain ⟨hlane, before, between, rfl, hbetween⟩ := openingAbove?_eq_some_iff.1 ho
  rcases List.mem_append.1 hmem with hbefore | hmem
  · exact (List.pairwise_append.1 h).2.2 last hbefore opening List.mem_cons_self
  · rcases List.mem_cons.1 hmem with rfl | hmem
    · cases hline : last.line <;> simp [hline, closes, laneId?] at hc hlane
    · rw [(hbetween last hmem).2] at hc
      cases hc

/-- Each block stands below those before it. -/
theorem pairwise_closedBlocks
    (h : sources.Pairwise fun source other => source.number < other.number) :
    (closedBlocks sources).Pairwise fun block other => block.2.closing < other.2.opening := by
  induction sources using List.reverseRecOn with
  | nil => exact List.Pairwise.nil
  | append_singleton rest last ih =>
    have hrest := (List.pairwise_append.1 h).1
    rw [closedBlocks_concat, List.pairwise_append]
    refine ⟨ih hrest, by cases closedBlock? ⟨rest, last, []⟩ <;> simp, ?_⟩
    rintro ⟨lane, span⟩ hblock ⟨otherLane, other⟩ hother
    obtain ⟨above, first, between, closing, below, hlines, -, hcloses, -, rfl⟩ :=
      mem_closedBlocks.1 hblock
    rw [Option.mem_toList, closedBlock?] at hother
    split at hother
    · obtain ⟨opening, hopening, hspan⟩ := Option.bind_eq_some_iff.1 hother
      obtain ⟨name, -, heq⟩ := Option.map_eq_some_iff.1 hspan
      -- The brace of a block before is above the line that opens this one.
      have hlt := number_lt_of_openingAbove? hrest hopening (by simp [hlines]) hcloses
      cases heq
      simp only [SourceLine.position]
      omega
    · cases hother

theorem isSome_lastBlock : ((OrderedMap.ofList (closedBlocks sources)).get? lane).isSome ↔
    ∃ span, ClosedBlock sources lane span := by
  simp [OrderedMap.isSome_get?, OrderedMap.mem_keys_ofList, mem_closedBlocks]

theorem lastBlock (h : sources.Pairwise fun source other => source.number < other.number)
    (hs : (OrderedMap.ofList (closedBlocks sources)).get? lane = some span) :
    ClosedBlock sources lane span ∧
      ∀ other, ClosedBlock sources lane other → other = span ∨ other.closing < span.opening := by
  rw [OrderedMap.get?_ofList] at hs
  obtain ⟨⟨name, span⟩, hlast, rfl⟩ := Option.map_eq_some_iff.1 hs
  obtain ⟨before, hbefore⟩ := List.getLast?_eq_some_iff.1 hlast
  have hpairs := (pairwise_closedBlocks h).filter (fun block => block.1 = lane)
  rw [hbefore, List.pairwise_append] at hpairs
  have hmem : ∀ other, ClosedBlock sources lane other ↔
      (lane, other) ∈ before ++ [(name, span)] := by
    intro other
    rw [← hbefore, List.mem_filter, mem_closedBlocks]
    simp
  have hname : name = lane := by
    have hfound := List.mem_of_getLast? hlast
    simpa using (List.mem_filter.1 hfound).2
  subst hname
  refine ⟨(hmem span).2 (by simp), fun other hother => ?_⟩
  rcases List.mem_append.1 ((hmem other).1 hother) with hearlier | hsame
  · exact Or.inr (hpairs.2.2 _ hearlier _ (List.mem_singleton_self _))
  · exact Or.inl (Prod.mk.inj (List.mem_singleton.1 hsame)).2

/-- The nodes that are declared, with their positions. -/
def declaredPositions (sources : List SourceLine) : List (Text × Int) :=
  sources.filterMap fun source => (nodeId? source.line).map (·, source.position)

/-- The nodes that are declared, with the lanes that are open there. -/
def declaredLanes (sources : List SourceLine) : List (Text × Text) :=
  (places sources).filterMap fun place => (nodeId? place.here.line).map (·, place.lane)

theorem declaredPositions_concat : declaredPositions (rest ++ [last]) = declaredPositions rest ++
    ((nodeId? last.line).map (·, last.position)).toList := by
  rw [declaredPositions, List.filterMap_append, List.filterMap_cons]
  cases nodeId? last.line <;> rfl

theorem declaredLanes_concat : declaredLanes (rest ++ [last]) = declaredLanes rest ++
    ((nodeId? last.line).map (·, (laneAbove? rest).getD defaultLane)).toList :=
  filterMap_places_concat fun _ _ _ _ => rfl

theorem map_fst_declaredPositions :
    (declaredPositions sources).map Prod.fst = (sources.map (·.line)).filterMap nodeId? := by
  rw [declaredPositions, List.map_filterMap, List.filterMap_map]
  simp [Function.comp_def]

/-- The graph has the nodes in the same order, in the same lanes. -/
theorem declaredLanes_eq (text : Text) : declaredLanes (sourceLines text) =
    (Graph.ofText text).nodes.map fun node => (node.id, node.lane) := by
  have hnodes : (Graph.ofText text).nodes =
      (places (sourceLines text)).filterMap (Place.node? Classifier.byWords.nodeKind) :=
    nodesFrom_eq [] _
  rw [hnodes, List.map_filterMap, declaredLanes]
  apply List.filterMap_congr
  intro place _
  cases h : place.here.line <;> simp only [Place.node?, nodeId?, h] <;> rfl

/-- A scan finds the last declaration of each node and the last closed block of each lane. -/
theorem scanSources_eq (sources : List SourceLine) : scanSources sources =
    ((openingAbove? sources).bind fun opening => (laneId? opening.line).map (·, opening.position),
      ⟨.ofList (declaredPositions sources), .ofList (declaredLanes sources),
        .ofList (closedBlocks sources)⟩) := by
  induction sources using List.reverseRecOn with
  | nil => rfl
  | append_singleton rest last ih =>
    rw [scanSources_concat, ih, scanSource, openingAbove?_concat, declaredLanes_concat,
      declaredPositions_concat, closedBlocks_concat, closedBlock?, laneAbove?]
    cases h : last.line with
    | laneOpen id label => simp [openAfter, LineIndex.scanLine, nodeId?, laneId?, closes, h]
    | laneClose =>
      cases openingAbove? rest with
      | none => simp [openAfter, LineIndex.scanLine, nodeId?, closes]
      | some opening =>
        cases hl : laneId? opening.line <;>
          simp [openAfter, LineIndex.scanLine, nodeId?, closes, hl, OrderedMap.ofList_concat]
    | node id shape attributes =>
      have hlane : ((openingAbove? rest).bind fun opening =>
          (laneId? opening.line).map (·, opening.position)).map Prod.fst =
            (openingAbove? rest).bind fun opening => laneId? opening.line := by
        simp [Option.map_bind, Function.comp_def]
      simp [openAfter, LineIndex.scanLine, LineIndex.addNode, nodeId?, closes, hlane,
        OrderedMap.ofList_concat]
    | _ => simp [openAfter, LineIndex.scanLine, nodeId?, closes]

/-- What an index says of the nodes and the lanes, told from the numbered lines and from the graph. -/
structure LineIndex.Agrees (index : LineIndex) (sources : List SourceLine) (graph : Graph) :
    Prop where
  keys_nodeLines : index.nodeLines.keys = keysOf Node.id graph.nodes
  keys_nodeLanes : index.nodeLanes.keys = keysOf Node.id graph.nodes
  nodeLane : ∀ id, index.nodeLanes.get? id = (graph.node? id).map Node.lane
  nodeLine : ∀ id, (index.nodeLines.get? id).map (· + 1) =
    (lastWith? (fun source => nodeId? source.line) sources (some id)).map
      fun source => (source.number : Int)
  hasSpan : ∀ lane, (index.laneSpans.get? lane).isSome ↔ ∃ span, ClosedBlock sources lane span
  /-- Of several blocks of a lane the last counts. -/
  lastSpan : ∀ lane span, index.laneSpans.get? lane = some span →
    ClosedBlock sources lane span ∧
      ∀ other, ClosedBlock sources lane other → other = span ∨ other.closing < span.opening

theorem agrees_scan (text : Text) :
    (LineIndex.scan (segments text)).Agrees (sourceLines text) (Graph.ofText text) := by
  have hscan := congrArg Prod.snd (scan_eq_scanSources (segments text))
  rw [← sourceLines_eq, scanSources_eq] at hscan
  have hids : (declaredPositions (sourceLines text)).map Prod.fst =
      (Graph.ofText text).nodes.map Node.id := by
    rw [map_fst_declaredPositions]
    exact map_id_nodesFrom.symm
  have hnumbers : (sourceLines text).Pairwise fun source other => source.number < other.number := by
    rw [sourceLines_eq]
    exact pairwise_number_sourcesOf _
  simp only at hscan
  rw [hscan]
  constructor
  · rw [OrderedMap.keys_ofList, hids]
    rfl
  · rw [declaredLanes_eq, OrderedMap.keys_ofPairs]
  · intro id
    rw [declaredLanes_eq, OrderedMap.get?_ofPairs, Graph.node?_eq_lastWith?]
  · intro id
    rw [declaredPositions, OrderedMap.get?_ofSome, Option.map_map]
    congr 1
    funext source
    exact Int.sub_add_cancel ..
  · exact fun lane => isSome_lastBlock
  · exact fun lane span => lastBlock hnumbers

/-- A session starts from an index that agrees with the graph of its text, whatever is declared twice
or malformed there. -/
theorem index_agrees_with_graph (h : UniformBreaks text) :
    (LineIndex.scan ((Newline.ofText text).split text)).Agrees (sourceLines text)
        (Graph.ofText text) ∧
      ∀ session, Session.ofText text = .ok session →
        session.index = LineIndex.scan ((Newline.ofText text).split text) := by
  rw [split_eq_segments h]
  refine ⟨agrees_scan text, fun session hs => ?_⟩
  rw [(ofText_eq_ok h hs).1]

/-- A node that is declared twice, a lane that is closed twice, one that is never closed, and lines
that are blank or malformed. -/
def tangled : Text :=
  "a \x7b\r\nn1: circle\r\n\x7d\r\n\r\nn1: diamond\r\n??\r\nb \x7b\r\na \x7b\r\n".toList ++
    "n2: circle\r\n\x7d\r\n\x7d\r\nb \x7b".toList

theorem index_agrees_tangled : ∃ session, Session.ofText tangled = .ok session ∧
    session.index.Agrees (sourceLines tangled) (Graph.ofText tangled) ∧
    session.index.nodeLines.entries = [("n1".toList, 4), ("n2".toList, 8)] ∧
    session.index.nodeLanes.entries = [("n1".toList, "default".toList), ("n2".toList, "a".toList)] ∧
    session.index.laneSpans.entries = [("a".toList, ⟨7, 9⟩)] := by
  obtain ⟨hagrees, hindex⟩ := index_agrees_with_graph (show UniformBreaks tangled by decide +kernel)
  have hsome : (Session.ofText tangled).toOption.isSome := by decide +kernel
  cases hs : Session.ofText tangled with
  | error fault => simp [hs, Except.toOption] at hsome
  | ok session =>
    rw [← hindex session hs] at hagrees
    refine ⟨session, rfl, hagrees, ?_⟩
    rw [hindex session hs]
    exact ⟨by decide +kernel, by decide +kernel, by decide +kernel⟩

end Patch

end Swimlane
