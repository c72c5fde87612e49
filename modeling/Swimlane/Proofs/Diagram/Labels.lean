import Swimlane.Proofs.Diagram.EdgeLine
import Swimlane.Proofs.Diagram.Reading
import Swimlane.Proofs.OrderedMap

/-! Labels as they are read: whatever is in them stands on one line of the text. -/
namespace Swimlane

open Text Escaped

variable {c : Char} {text line id key value body rest label : Text} {shape : Shape}
  {attributes : Attributes} {node : Node} {edge : Edge}

theorem mem_of_readAttributes (h : (readAttributes text).get? key = some value) (hc : c ∈ value) :
    c ∈ text := by
  have hentry := OrderedMap.mem_of_mem_ofList (OrderedMap.mem_of_get? h)
  obtain ⟨piece, hpiece, hread⟩ := List.mem_filterMap.1 hentry
  rcases piece with _ | ⟨other, gap, body⟩
  · simp [Piece.attribute?] at hread
  · simp only [Piece.attribute?, Option.some.injEq, Prod.mk.injEq] at hread
    rw [← source_pieces text]
    refine List.mem_flatMap.2 ⟨_, hpiece, ?_⟩
    have hbody := mem_of_mem_decode (hread.2 ▸ hc)
    simp [Piece.source, hbody]

namespace Line

variable {source target : Reference} {sourceHandle targetHandle : Text} {point : EndPoint}

theorem suffix_of_target? (h : target? text = some point) : point.rest <:+ text := by
  have hleft : trimLeft text <:+ text := List.dropWhile_suffix _
  rw [target?] at h
  split at h
  · next found hfound =>
    obtain ⟨other, hother, hsuffix⟩ := exists_of_endPointFrom? hfound
    cases h
    cases hother
    exact hsuffix.trans hleft
  · split at h
    · next handle rest _ hhandle =>
      split at h
      · simp at h
      · cases h
        exact (suffix_of_handle? hhandle).trans hleft
    · simp at h

theorem mem_of_edgeLabel? (h : edgeLabel? text = some body) (hc : c ∈ body) : c ∈ text := by
  obtain ⟨more, hmore, hvalue⟩ := Option.bind_eq_some_iff.1 h
  have hmem : ∀ d ∈ more, d ∈ text := by
    intro d hd
    refine List.dropWhile_subset isBlank (l := text) ?_
    rw [← trimLeft, after?_eq_some hmore]
    exact List.mem_append_right _ hd
  split at hvalue
  · next gap found after hfound =>
    cases hvalue
    apply hmem
    rw [eq_of_valueAfter? hfound]
    simp [hc]
  · simp at hvalue

theorem edge?_of_read {label : Option Text}
    (h : read line = .edge source target sourceHandle targetHandle label) :
    edge? (trim line) = some (.edge source target sourceHandle targetHandle label) := by
  have hfit := firstFit_read line
  rw [h] at hfit
  cases hfit with
  | edge _ _ _ he => exact he

/-- An edge's label is read from a text that stands in its line and is not empty. -/
theorem exists_body_of_read_edge
    (h : read line = .edge source target sourceHandle targetHandle (some label)) :
    ∃ body, label = decode body ∧ body ≠ [] ∧ ∀ c ∈ body, c ∈ line := by
  obtain ⟨first, hfirst, hsuffix⟩ := exists_of_endPointFrom? (edge?_of_read h)
  obtain ⟨rest, hrest, htarget⟩ := Option.bind_eq_some_iff.1 hfirst
  obtain ⟨point, hpoint, hfound⟩ := Option.map_eq_some_iff.1 htarget
  simp only [Line.edge.injEq, Option.map_eq_some_iff] at hfound
  obtain ⟨_, _, _, _, body, hbody, rfl⟩ := hfound
  obtain ⟨written, hwritten, hsome⟩ := Option.bind_eq_some_iff.1 hbody
  obtain ⟨rfl, hne⟩ := nonempty?_eq_some hsome
  have hafter : rest <:+ first.rest := by
    have hskip : arrow ++ rest <:+ first.rest := after?_eq_some hrest ▸ List.dropWhile_suffix isBlank
    exact (List.suffix_append arrow rest).trans hskip
  have hline : point.rest <:+ trim line := (suffix_of_target? hpoint).trans (hafter.trans hsuffix)
  exact ⟨_, rfl, hne, fun c hc =>
    mem_of_mem_trim (hline.subset (mem_of_edgeLabel? hwritten hc))⟩

/-- An edge's label stands in its line. -/
theorem mem_of_read_edge
    (h : read line = .edge source target sourceHandle targetHandle (some label)) (hc : c ∈ label) :
    c ∈ line := by
  obtain ⟨body, rfl, _, hline⟩ := exists_body_of_read_edge h
  exact hline c (mem_of_mem_decode hc)

/-- A node's id and its attributes stand in its line. -/
theorem mem_of_read_node (h : read line = .node id shape attributes) : (∀ c ∈ id, c ∈ line) ∧
    ∀ key value, attributes.get? key = some value → ∀ c ∈ value, c ∈ line := by
  obtain ⟨_, hnode⟩ := read_eq_node_iff.1 h
  obtain ⟨_, found, _, rest, hhead, _, heq⟩ := node?_eq_some_iff.1 hnode
  cases heq
  obtain ⟨gap, htrim, _, _, _⟩ := nodeHead?_eq_some_iff.1 hhead
  refine ⟨fun c hc => mem_of_mem_trim ?_, fun key value hget c hc => mem_of_mem_trim ?_⟩
  · rw [htrim]
    exact List.mem_append_left _ hc
  · rw [htrim]
    have hrest := List.dropWhile_subset isBlank (mem_of_readAttributes hget hc)
    simp [hrest]

end Line

theorem exists_of_mem_nodesFrom {nodeKind : Shape → Text → NodeKind} {current : Option Text}
    {lines : List Line} (h : node ∈ nodesFrom nodeKind current lines) : ∃ lane id shape attributes,
      Line.node id shape attributes ∈ lines ∧
        node = declaredNode nodeKind lane id shape attributes := by
  induction lines generalizing current with
  | nil => simp [nodesFrom] at h
  | cons line rest ih =>
    have hrest : node ∈ nodesFrom nodeKind (laneAfter current line) rest →
        ∃ lane id shape attributes, Line.node id shape attributes ∈ line :: rest ∧
          node = declaredNode nodeKind lane id shape attributes := by
      intro hmem
      obtain ⟨lane, id, shape, attributes, hline, hnode⟩ := ih hmem
      exact ⟨lane, id, shape, attributes, List.mem_cons_of_mem line hline, hnode⟩
    cases line with
    | node id shape attributes =>
      rcases List.mem_cons.1 h with rfl | h
      · exact ⟨_, _, _, _, List.mem_cons_self, rfl⟩
      · exact hrest h
    | _ => exact hrest h

theorem exists_of_mem_edgesFrom {current : Option Text} {known : List (Text × Text)} {count : Nat}
    {lines : List Line} (h : edge ∈ edgesFrom current known count lines) :
    ∃ source target sourceHandle targetHandle,
      Line.edge source target sourceHandle targetHandle edge.label ∈ lines := by
  induction lines generalizing current known count with
  | nil => simp [edgesFrom] at h
  | cons line rest ih =>
    have hrest : ∀ {current known count}, edge ∈ edgesFrom current known count rest →
        ∃ source target sourceHandle targetHandle,
          Line.edge source target sourceHandle targetHandle edge.label ∈ line :: rest := by
      intro current known count hmem
      obtain ⟨source, target, sourceHandle, targetHandle, hline⟩ := ih hmem
      exact ⟨source, target, sourceHandle, targetHandle, List.mem_cons_of_mem line hline⟩
    cases line with
    | edge source target sourceHandle targetHandle label =>
      rcases List.mem_cons.1 h with rfl | h
      · exact ⟨_, _, _, _, List.mem_cons_self⟩
      · exact hrest h
    | _ => exact hrest h

/-- No label of a node holds a line break, for it was read from one line. -/
theorem breakFree_node_label (h : node ∈ (Graph.ofText text).nodes) : BreakFree node.label := by
  rw [Graph.nodes_ofText] at h
  obtain ⟨lane, id, shape, attributes, hmem, rfl⟩ := exists_of_mem_nodesFrom h
  obtain ⟨line, hline, hread⟩ := List.mem_map.1 hmem
  obtain ⟨hid, hvalue⟩ := Line.mem_of_read_node hread
  refine breakFree_of_subset (fun c hc => ?_) (breakFree_of_mem_segments hline)
  have hattribute : ∀ key written, (attributes.get? key).bind nonempty? = some written →
      ∀ c ∈ written, c ∈ line := by
    intro key written hwritten
    obtain ⟨value, hget, hsome⟩ := Option.bind_eq_some_iff.1 hwritten
    obtain ⟨rfl, _⟩ := nonempty?_eq_some hsome
    exact hvalue key _ hget
  simp only [declaredNode] at hc
  cases hlabel : (attributes.get? "label").bind nonempty? with
  | some written =>
    rw [hlabel, Option.some_or, Option.getD_some] at hc
    exact hattribute _ _ hlabel c hc
  | none =>
    rw [hlabel, Option.none_or] at hc
    cases hdescription : (attributes.get? "description").bind nonempty? with
    | some written =>
      rw [hdescription, Option.getD_some] at hc
      exact hattribute _ _ hdescription c hc
    | none =>
      rw [hdescription, Option.getD_none] at hc
      exact hid c hc

theorem breakFree_edge_label (h : edge ∈ (Graph.ofText text).edges) (hl : edge.label = some label) :
    BreakFree label := by
  rw [Graph.edges_ofText] at h
  obtain ⟨source, target, sourceHandle, targetHandle, hmem⟩ := exists_of_mem_edgesFrom h
  obtain ⟨line, hline, hread⟩ := List.mem_map.1 hmem
  rw [hl] at hread
  exact breakFree_of_subset (fun c hc => Line.mem_of_read_edge hread hc)
    (breakFree_of_mem_segments hline)

end Swimlane
