import Mathlib.Data.List.Dedup
import Swimlane.Proofs.Diagram.Comments
import Swimlane.Proofs.Diagram.Labels
import Swimlane.Proofs.Diagram.Places
import Swimlane.Proofs.Diff.View

/-! Every graph that is read from a text is well formed, whatever the text is. -/
namespace Swimlane

open Text Line

variable {text id : Text} {line : SourceLine} {lines : List SourceLine} {node : Node} {edge : Edge}
  {lane : Lane} {place : Place} {shape : Shape} {attributes : Attributes} {label : Option Text}
  {reference source target : Reference} {sourceHandle targetHandle : Text}

/-- The lanes of both ends are known, and they differ. -/
def Edge.joinsLanes (edge : Edge) : Bool :=
  edge.sourceLane.isSome && edge.targetLane.isSome && edge.sourceLane ≠ edge.targetLane

/-- A node has a label, and properties if it is a taskbox, each of them under its own key. -/
structure Node.WellFormed (node : Node) : Prop where
  label : node.label ≠ []
  properties : node.properties.isSome ↔ node.shape = .taskbox
  keys : ∀ properties ∈ node.properties, (properties.map Prod.fst).Sublist propertyKeys
  values : ∀ properties ∈ node.properties, ∀ property ∈ properties, property.2 ≠ []

/-- What is said of an edge is not empty. -/
structure Edge.WellFormed (edge : Edge) : Prop where
  label : edge.label ≠ some []
  sourceLane : edge.sourceLane ≠ some []
  targetLane : edge.targetLane ≠ some []

/-- Lanes are told apart by their ids, each node stands in one of them or in the default lane, and
edges are numbered. -/
structure Graph.WellFormed (graph : Graph) : Prop where
  laneIds : graph.laneIds.Nodup
  lanes : ∀ lane ∈ graph.lanes, lane.id ≠ [] ∧ lane.label ≠ []
  nodes : ∀ node ∈ graph.nodes, node.WellFormed
  homes : ∀ node ∈ graph.nodes, node.lane = defaultLane ∨ node.lane ∈ graph.laneIds
  housed : ((defaultLane :: graph.laneIds).dedup.flatMap graph.nodesIn).Perm graph.nodes
  latest : ∀ id, graph.node? id = (graph.nodes.filter (·.id = id)).getLast?
  edges : ∀ edge ∈ graph.edges, edge.WellFormed
  edgeIds : graph.edges.map Edge.id =
    (List.range' 1 graph.edges.length).map fun number => 'e' :: ofNat number
  crossings : graph.crossLaneEdges = graph.edges.filter Edge.joinsLanes
  counts : graph.stats = ⟨graph.lanes.length, graph.nodes.length, graph.edges.length,
    graph.crossLaneEdges.length⟩

theorem read_of_mem_sourceLines (h : line ∈ sourceLines text) : line.line = Line.read line.text := by
  obtain ⟨numbered, _, rfl⟩ := List.mem_map.1 h
  rfl

theorem here_mem (h : place ∈ places lines) : place.here ∈ lines := by
  rw [mem_places.1 h]
  simp

theorem above_subset (h : place ∈ places lines) : place.above ⊆ lines := by
  rw [mem_places.1 h]
  exact List.subset_append_left _ _

/-! The line that declares something. -/

theorem laneId_ne_nil (h : Line.read text = .laneOpen id label) : id ≠ [] := by
  rintro rfl
  have hopen := laneOpen?_of_read h
  have hhead := head?_of_read_laneOpen h
  rw [List.head?_nil, eq_comm, List.head?_eq_none_iff] at hhead
  rw [hhead] at hopen
  cases hopen

theorem laneLabel_ne_nil (h : Line.read text = .laneOpen id label) : label ≠ some [] := by
  rintro rfl
  obtain ⟨⟨name, written⟩, _, hopen⟩ := Option.map_eq_some_iff.1 (laneOpen?_of_read h)
  simp only [Line.laneOpen.injEq] at hopen
  exact (nonempty?_eq_some hopen.2).2 rfl

theorem nodeId_ne_nil (h : Line.read text = .node id shape attributes) : id ≠ [] := by
  obtain ⟨_, found, _, rest, hhead, _, heq⟩ := node?_eq_some_iff.1 (read_eq_node_iff.1 h).2
  cases heq
  obtain ⟨gap, _, hid, _⟩ := nodeHead?_eq_some_iff.1 hhead
  exact hid.1

theorem edgeLabel_ne_nil (h : Line.read text = .edge source target sourceHandle targetHandle label) :
    label ≠ some [] := by
  rintro rfl
  obtain ⟨body, hbody, hne, _⟩ := exists_body_of_read_edge h
  exact hne (Escaped.decode_eq_nil_iff.1 hbody.symm)

/-! What the place of a line makes of it. -/

/-- An open lane is one that a line above opens. -/
theorem exists_of_laneAbove? {above : List SourceLine} (h : laneAbove? above = some id) :
    ∃ line ∈ above, laneId? line.line = some id := by
  obtain ⟨opening, hopening, hid⟩ := Option.bind_eq_some_iff.1 h
  obtain ⟨_, before, between, rfl, _⟩ := openingAbove?_eq_some_iff.1 hopening
  exact ⟨opening, by simp, hid⟩

theorem exists_of_laneId? {declared : Line} (h : laneId? declared = some id) :
    ∃ label, declared = .laneOpen id label := by
  cases declared <;> simp_all [laneId?]

/-- A node is declared in the default lane, or in one that a line opens. -/
theorem lane_cases (hp : place ∈ places lines) :
    place.lane = defaultLane ∨ ∃ line ∈ lines, laneId? line.line = some place.lane := by
  cases hl : laneAbove? place.above with
  | none => exact Or.inl (by rw [Place.lane, hl]; rfl)
  | some id =>
    obtain ⟨line, hline, hid⟩ := exists_of_laneAbove? hl
    exact Or.inr ⟨line, above_subset hp hline, by rw [Place.lane, hl]; exact hid⟩

theorem lane_ne_nil (hp : place ∈ places lines) (hl : lines ⊆ sourceLines text) :
    place.lane ≠ [] := by
  rcases lane_cases hp with hdefault | ⟨line, hline, hid⟩
  · rw [hdefault]
    decide
  · obtain ⟨label, hopen⟩ := exists_of_laneId? hid
    exact laneId_ne_nil ((read_of_mem_sourceLines (hl hline)).symm.trans hopen)

theorem laneOf?_ne_nil (hp : place ∈ places (sourceLines text)) (reference : Reference) :
    place.laneOf? reference ≠ some [] := by
  intro hnil
  rw [Place.laneOf?] at hnil
  split at hnil
  · cases hnil
  · obtain ⟨other, hother, hlane⟩ := List.exists_of_findSome?_eq_some hnil
    have hplace := List.mem_reverse.1 hother
    split at hlane
    · exact lane_ne_nil hplace (above_subset hp) (Option.some.inj hlane)
    · cases hlane

theorem placeLabel_ne_nil (hi : id ≠ []) (hl : label ≠ some []) : place.label id label ≠ [] := by
  rw [Place.label.eq_def]
  split
  · next written => exact fun hnil => hl (congrArg some hnil)
  · split
    · exact hi
    · split
      · split
        · exact hi
        · assumption
      · exact hi

/-! The lanes, the nodes and the edges. -/

theorem lane_wellFormed (hp : place ∈ places (sourceLines text))
    {laneKind : Text → Text → LaneKind} (h : place.lane? laneKind = some lane) :
    lane.id ≠ [] ∧ lane.label ≠ [] := by
  have hread := read_of_mem_sourceLines (here_mem hp)
  rw [Place.lane?.eq_def] at h
  split at h
  · next id label hline =>
    rw [hline] at hread
    split at h
    · cases h
    · cases h
      exact ⟨laneId_ne_nil hread.symm,
        placeLabel_ne_nil (laneId_ne_nil hread.symm) (laneLabel_ne_nil hread.symm)⟩
  · cases h

/-- A value that is there and not empty. -/
theorem ne_nil_of_bind {value? : Option Text} {written : Text}
    (h : value?.bind nonempty? = some written) : written ≠ [] := by
  obtain ⟨value, _, hvalue⟩ := Option.bind_eq_some_iff.1 h
  exact (nonempty?_eq_some hvalue).2

/-- Each property stands under its own key. -/
theorem keys_of_filterMap {f : Text → Option Text} (keys : List Text) :
    ((keys.filterMap fun key => (f key).map (key, ·)).map Prod.fst).Sublist keys := by
  induction keys with
  | nil => exact .slnil
  | cons key rest ih =>
    cases h : f key with
    | none => simpa [h] using ih.cons key
    | some value => simpa [h] using ih.cons_cons key

theorem declaredNode_wellFormed {nodeKind : Shape → Text → NodeKind} {current : Option Text}
    (hi : id ≠ []) : (declaredNode nodeKind current id shape attributes).WellFormed := by
  have hproperties : ∀ properties ∈ (declaredNode nodeKind current id shape attributes).properties,
      properties = propertyKeys.filterMap fun key =>
        ((attributes.get? key).bind nonempty?).map (key, ·) := by
    intro properties hmem
    simp only [declaredNode] at hmem
    split at hmem
    · exact (Option.mem_some_iff.1 hmem).symm
    · cases hmem
  refine ⟨?_, ?_, fun properties hmem => ?_, fun properties hmem property hproperty => ?_⟩
  · simp only [declaredNode]
    cases hlabel : (attributes.get? "label").bind nonempty? with
    | some written => exact ne_nil_of_bind hlabel
    | none =>
      cases hdescription : (attributes.get? "description").bind nonempty? with
      | some written => exact ne_nil_of_bind hdescription
      | none => exact hi
  · simp only [declaredNode]
    split
    · next hs => exact iff_of_true rfl hs
    · next hs => exact iff_of_false Bool.false_ne_true hs
  · rw [hproperties properties hmem]
    exact keys_of_filterMap propertyKeys
  · rw [hproperties properties hmem] at hproperty
    obtain ⟨key, _, hwritten⟩ := List.mem_filterMap.1 hproperty
    obtain ⟨written, hvalue, rfl⟩ := Option.map_eq_some_iff.1 hwritten
    exact ne_nil_of_bind hvalue

theorem node_wellFormed (hp : place ∈ places (sourceLines text))
    {nodeKind : Shape → Text → NodeKind} (h : place.node? nodeKind = some node) :
    node.WellFormed ∧ node.lane = place.lane := by
  have hread := read_of_mem_sourceLines (here_mem hp)
  rw [Place.node?.eq_def] at h
  split at h
  · next id shape attributes hline =>
    rw [hline] at hread
    cases h
    have hdeclared : (declaredNode nodeKind none id shape attributes).WellFormed :=
      declaredNode_wellFormed (nodeId_ne_nil hread.symm)
    exact ⟨⟨hdeclared.label, hdeclared.properties, hdeclared.keys, hdeclared.values⟩, rfl⟩
  · cases h

theorem edge_wellFormed (hp : place ∈ places (sourceLines text)) (h : place.edge? = some edge) :
    edge.WellFormed := by
  have hread := read_of_mem_sourceLines (here_mem hp)
  rw [Place.edge?.eq_def] at h
  split at h
  · next source target sourceHandle targetHandle label hline =>
    rw [hline] at hread
    cases h
    exact ⟨edgeLabel_ne_nil hread.symm, laneOf?_ne_nil hp source, laneOf?_ne_nil hp target⟩
  · cases h

/-- Where no lane is without a name, two lanes that are known and differ are all there is to an edge
between lanes. -/
theorem crossesLanes_eq (h : edge.WellFormed) : edge.crossesLanes = edge.joinsLanes := by
  rw [Edge.crossesLanes.eq_def, Edge.joinsLanes]
  split
  · next source target hsource htarget =>
    have hs : source.isEmpty = false := by
      rw [List.isEmpty_eq_false_iff]
      exact fun hnil => h.sourceLane (by rw [hsource, hnil])
    have ht : target.isEmpty = false := by
      rw [List.isEmpty_eq_false_iff]
      exact fun hnil => h.targetLane (by rw [htarget, hnil])
    simp [hsource, htarget, hs, ht]
  · next hnone =>
    cases hsource : edge.sourceLane <;> cases htarget : edge.targetLane <;> simp
    exact absurd htarget (hnone _ _ hsource)

/-- Items fall apart by their keys. -/
theorem perm_flatMap_filter {κ β : Type} [DecidableEq κ] {key : β → κ} {keys : List κ}
    {items : List β} (hd : keys.Nodup) (hk : ∀ item ∈ items, key item ∈ keys) :
    (keys.flatMap fun k => items.filter (key · = k)).Perm items := by
  induction keys generalizing items with
  | nil => simp [List.eq_nil_iff_forall_not_mem.2 fun item hitem => (List.not_mem_nil (hk item hitem))]
  | cons first rest ih =>
    obtain ⟨hfirst, hrest⟩ := List.nodup_cons.1 hd
    have hothers : (rest.flatMap fun k => items.filter (key · = k)) =
        rest.flatMap fun k => (items.filter (key · ≠ first)).filter (key · = k) := by
      apply List.flatMap_congr
      intro k hmem
      rw [List.filter_filter]
      apply List.filter_congr
      intro item _
      by_cases hkey : key item = k
      · have hne : k ≠ first := fun he => hfirst (he ▸ hmem)
        simp [hkey, hne]
      · simp [hkey]
    have hcovered : ∀ item ∈ items.filter (key · ≠ first), key item ∈ rest := by
      intro item hitem
      obtain ⟨hmem, hne⟩ := List.mem_filter.1 hitem
      exact (List.mem_cons.1 (hk item hmem)).resolve_left (by simpa using hne)
    have hsplit := List.filter_append_perm (fun item => key item = first) items
    rw [List.flatMap_cons, hothers]
    refine List.Perm.trans (List.Perm.append_left _ (ih hrest hcovered)) ?_
    simpa using hsplit

namespace Graph

/-- Whatever a text is, the graph that is read from it is well formed. -/
theorem ofText_wellFormed (text : Text) : (ofText text).WellFormed := by
  have hlanes : (ofText text).lanes =
      (places (sourceLines text)).filterMap (Place.lane? Classifier.byWords.laneKind) :=
    lanesFrom_eq [] _ (by simp)
  have hnodes : (ofText text).nodes =
      (places (sourceLines text)).filterMap (Place.node? Classifier.byWords.nodeKind) :=
    nodesFrom_eq [] _
  have hedges : (ofText text).edges = (places (sourceLines text)).filterMap Place.edge? :=
    edgesFrom_eq [] _ (fun _ => rfl) rfl
  have hids : (ofText text).laneIds = newLanes [] ((sourceLines text).filterMap (laneId? ·.line)) := by
    rw [laneIds, ofText, ofLines, map_id_lanesFrom, List.filterMap_map]
    rfl
  have hedge : ∀ edge ∈ (ofText text).edges, edge.WellFormed := by
    intro edge hmem
    rw [hedges] at hmem
    obtain ⟨place, hplace, hadds⟩ := List.mem_filterMap.1 hmem
    exact edge_wellFormed hplace hadds
  have hhomes : ∀ node ∈ (ofText text).nodes,
      node.lane = defaultLane ∨ node.lane ∈ (ofText text).laneIds := by
    intro node hmem
    rw [hnodes] at hmem
    obtain ⟨place, hplace, hadds⟩ := List.mem_filterMap.1 hmem
    rw [(node_wellFormed hplace hadds).2, hids, mem_newLanes]
    rcases lane_cases hplace with hdefault | ⟨line, hline, hid⟩
    · exact Or.inl hdefault
    · exact Or.inr ⟨List.mem_filterMap.2 ⟨line, hline, hid⟩, List.not_mem_nil⟩
  refine ⟨?_, fun lane hmem => ?_, fun node hmem => ?_, hhomes, ?_, fun id => node?_eq_lastWith?,
    hedge, map_id_edgesFrom _, List.filter_congr fun edge hmem => crossesLanes_eq (hedge edge hmem),
    rfl⟩
  · rw [hids]
    exact nodup_newLanes
  · rw [hlanes] at hmem
    obtain ⟨place, hplace, hadds⟩ := List.mem_filterMap.1 hmem
    exact lane_wellFormed hplace hadds
  · rw [hnodes] at hmem
    obtain ⟨place, hplace, hadds⟩ := List.mem_filterMap.1 hmem
    exact (node_wellFormed hplace hadds).1
  · refine perm_flatMap_filter (List.nodup_dedup _) fun node hmem => ?_
    rw [List.mem_dedup, List.mem_cons]
    exact hhomes node hmem

/-- A lane may bear the name of the default lane. -/
example : (ofText "default \x7b\nn1: circle\n\x7d\nn2: circle".toList).nodes.map Node.lane =
    [defaultLane, defaultLane] := by
  decide +kernel

end Graph

end Swimlane
