import Swimlane.Diff
import Swimlane.Proofs.OrderedMap

/-! What a diff reports of two graphs that differ in one node or in one edge. -/
namespace Swimlane.Diff

variable {old new : Graph} {node other : Node} {nodes before after : List Node} {ends : Text × Text}

/-- The update of a node that an older graph has too, if it differs. -/
def update? (old : OrderedMap Text Node) (id : Text) (new : Node) : Option NodeUpdate :=
  (old.get? id).bind fun node =>
    let changes := fieldChanges node new
    if changes.isEmpty then none else some ⟨id, changes⟩

/-- The nodes that are found new one by one are those whose ids are missing, as for the removed
ones. -/
theorem compareNodes_added (old : OrderedMap Text Node) (entries : List (Text × Node)) :
    (compareNodes old entries).added =
      (entries.filter fun (id, _) => !old.contains id).map Prod.snd := by
  induction entries with
  | nil => rfl
  | cons entry rest ih =>
    obtain ⟨id, node⟩ := entry
    simp only [List.filter_cons, compareNodes]
    cases hget : old.get? id with
    | none =>
      have hnew : old.contains id = false := by rw [OrderedMap.contains, hget, Option.isSome_none]
      simp [ih, hnew]
    | some previous =>
      have hhas : old.contains id = true := by rw [OrderedMap.contains, hget, Option.isSome_some]
      dsimp only
      split <;> simp [ih, hhas]

theorem compareNodes_updated (old : OrderedMap Text Node) (entries : List (Text × Node)) :
    (compareNodes old entries).updated = entries.filterMap fun (id, node) => update? old id node := by
  induction entries with
  | nil => rfl
  | cons entry rest ih =>
    obtain ⟨id, node⟩ := entry
    simp only [List.filterMap_cons, compareNodes, update?]
    cases old.get? id with
    | none => exact ih
    | some previous =>
      dsimp only [Option.bind_some]
      split
      · exact ih
      · exact congrArg (_ :: ·) ih

theorem nodesAdded_eq (old new : Graph) :
    (between old new).nodesAdded = missingFrom old.nodeMap new.nodeMap :=
  compareNodes_added old.nodeMap new.nodeMap.entries

theorem nodesUpdated_eq (old new : Graph) : (between old new).nodesUpdated =
    new.nodeMap.entries.filterMap fun (id, node) => update? old.nodeMap id node :=
  compareNodes_updated old.nodeMap new.nodeMap.entries

/-- The diff of two graphs in which nothing that is compared has changed. -/
def nothing : Diff := ⟨[], [], [], [], [], [], []⟩

/-- The ids of the nodes of a graph differ. -/
def Distinct (graph : Graph) : Prop := (graph.nodes.map (·.id)).Nodup

theorem entries_nodeMap (h : Distinct new) :
    new.nodeMap.entries = new.nodes.map fun node => (node.id, node) := by
  apply OrderedMap.entries_ofList
  rw [List.map_map]
  exact h

/-- A node is found under its id. -/
theorem node?_of_mem (h : Distinct new) (hm : node ∈ new.nodes) : new.node? node.id = some node := by
  apply OrderedMap.get?_of_mem
  rw [entries_nodeMap h]
  exact List.mem_map.2 ⟨node, hm, rfl⟩

theorem mem_keys_nodeMap {id : Text} : id ∈ new.nodeMap.keys ↔ id ∈ new.nodes.map (·.id) := by
  rw [Graph.nodeMap, OrderedMap.mem_keys_ofList, List.map_map]
  rfl

theorem mem_keys_edgeMap : ends ∈ new.edgeMap.keys ↔ ends ∈ new.edges.map Edge.ends := by
  rw [Graph.edgeMap, OrderedMap.mem_keys_ofList, List.map_map]
  rfl

/-- The nodes whose ids another graph has not. -/
theorem missingFrom_nodeMap (h : Distinct new) : missingFrom old.nodeMap new.nodeMap =
    new.nodes.filter fun node => node.id ∉ old.nodes.map (·.id) := by
  rw [missingFrom, entries_nodeMap h, List.filter_map, List.map_map]
  have hsnd : Prod.snd ∘ (fun node : Node => (node.id, node)) = id := rfl
  rw [hsnd, List.map_id]
  apply List.filter_congr
  intro node _
  have hkey := (OrderedMap.contains_iff (m := old.nodeMap) (k := node.id)).trans mem_keys_nodeMap
  by_cases hmem : node.id ∈ old.nodes.map (·.id)
  · simp only [Function.comp, hkey.2 hmem, hmem, not_true, decide_false, Bool.not_true]
  · have hno : old.nodeMap.contains node.id = false := by
      rwa [← Bool.not_eq_true, hkey]
    simp only [Function.comp, hno, hmem, not_false_iff, decide_true, Bool.not_false]

theorem nodesUpdated_of_distinct (h : Distinct new) : (between old new).nodesUpdated =
    new.nodes.filterMap fun node => update? old.nodeMap node.id node := by
  rw [nodesUpdated_eq, entries_nodeMap h, List.filterMap_map]
  rfl

theorem update?_of_mem (h : Distinct old) (hm : node ∈ old.nodes) :
    update? old.nodeMap node.id node = none := by
  have hget : old.nodeMap.get? node.id = some node := node?_of_mem h hm
  have hsame : fieldChanges node node = [] := by simp [fieldChanges]
  rw [update?, hget, Option.bind_some, hsame]
  rfl

theorem update?_of_not_mem (h : node.id ∉ old.nodes.map (·.id)) :
    update? old.nodeMap node.id node = none := by
  have hget : old.nodeMap.get? node.id = none := by
    rwa [← Option.not_isSome_iff_eq_none, OrderedMap.isSome_get?, mem_keys_nodeMap]
  rw [update?, hget]
  rfl

theorem missingFrom_nodeMap_eq_nil (h : Distinct new)
    (hm : ∀ node ∈ new.nodes, node.id ∈ old.nodes.map (·.id)) :
    missingFrom old.nodeMap new.nodeMap = [] := by
  rw [missingFrom_nodeMap h, List.filter_eq_nil_iff]
  intro node hnode
  simpa using hm node hnode

theorem missingFrom_nodeMap_insert (hn : Distinct new) (ho : old.nodes = before ++ after)
    (hnodes : new.nodes = before ++ node :: after) :
    missingFrom old.nodeMap new.nodeMap = [node] := by
  have hnew : node.id ∉ old.nodes.map (·.id) := by
    rw [Distinct, hnodes, List.map_append, List.map_cons, List.nodup_middle, List.nodup_cons] at hn
    rw [ho, List.map_append]
    exact hn.1
  have hold : ∀ part : List Node, (∀ other ∈ part, other ∈ old.nodes) →
      part.filter (fun other => other.id ∉ old.nodes.map (·.id)) = [] := by
    intro part hpart
    rw [List.filter_eq_nil_iff]
    intro other hother
    simpa using ⟨other, hpart other hother, rfl⟩
  rw [missingFrom_nodeMap hn, hnodes, List.filter_append, List.filter_cons_of_pos (by simpa using hnew),
    hold before (by simp_all), hold after (by simp_all)]
  rfl

theorem mem_ids_of_subset (h : ∀ node ∈ new.nodes, node ∈ old.nodes) :
    ∀ node ∈ new.nodes, node.id ∈ old.nodes.map (·.id) :=
  fun node hnode => List.mem_map.2 ⟨node, h node hnode, rfl⟩

theorem nodesUpdated_eq_nil (hn : Distinct new) (hd : Distinct old)
    (h : ∀ node ∈ new.nodes, node ∈ old.nodes ∨ node.id ∉ old.nodes.map (·.id)) :
    (between old new).nodesUpdated = [] := by
  rw [nodesUpdated_of_distinct hn, List.filterMap_eq_nil_iff]
  intro node hnode
  exact (h node hnode).elim (update?_of_mem hd) update?_of_not_mem

/-- The nodes that are reported of two graphs with the same nodes. -/
theorem nodes_same (hn : Distinct new) (h : new.nodes = old.nodes) :
    (between old new).nodesAdded = [] ∧ (between old new).nodesRemoved = [] ∧
      (between old new).nodesUpdated = [] := by
  have hd : Distinct old := by rwa [Distinct, ← h]
  refine ⟨(nodesAdded_eq old new).trans <|
      missingFrom_nodeMap_eq_nil hn (mem_ids_of_subset fun node hm => h ▸ hm),
    missingFrom_nodeMap_eq_nil hd (mem_ids_of_subset fun node hm => h ▸ hm),
    nodesUpdated_eq_nil hn hd fun node hm => Or.inl (h ▸ hm)⟩

/-- The nodes that are reported if the new graph has one more. -/
theorem nodes_insert (hn : Distinct new) (hd : Distinct old) (ho : old.nodes = before ++ after)
    (hnodes : new.nodes = before ++ node :: after) :
    (between old new).nodesAdded = [node] ∧ (between old new).nodesRemoved = [] ∧
      (between old new).nodesUpdated = [] := by
  have hsub : ∀ other ∈ old.nodes, other ∈ new.nodes := by
    intro other hother
    rw [ho, List.mem_append] at hother
    rw [hnodes, List.mem_append, List.mem_cons]
    exact hother.imp_right Or.inr
  have hnew : node.id ∉ old.nodes.map (·.id) := by
    rw [Distinct, hnodes, List.map_append, List.map_cons, List.nodup_middle, List.nodup_cons] at hn
    rw [ho, List.map_append]
    exact hn.1
  refine ⟨(nodesAdded_eq old new).trans (missingFrom_nodeMap_insert hn ho hnodes),
    missingFrom_nodeMap_eq_nil hd (mem_ids_of_subset hsub), nodesUpdated_eq_nil hn hd ?_⟩
  intro other hother
  rw [hnodes, List.mem_append, List.mem_cons] at hother
  rcases hother with hm | rfl | hm
  · exact Or.inl (ho ▸ List.mem_append_left _ hm)
  · exact Or.inr hnew
  · exact Or.inl (ho ▸ List.mem_append_right _ hm)

/-- The nodes that are reported if the old graph has one more. -/
theorem nodes_remove (hn : Distinct new) (hd : Distinct old)
    (ho : old.nodes = before ++ node :: after) (hnodes : new.nodes = before ++ after) :
    (between old new).nodesAdded = [] ∧ (between old new).nodesRemoved = [node] ∧
      (between old new).nodesUpdated = [] := by
  have hsub : ∀ other ∈ new.nodes, other ∈ old.nodes := by
    intro other hother
    rw [hnodes, List.mem_append] at hother
    rw [ho, List.mem_append, List.mem_cons]
    exact hother.imp_right Or.inr
  exact ⟨(nodesAdded_eq old new).trans (missingFrom_nodeMap_eq_nil hn (mem_ids_of_subset hsub)),
    missingFrom_nodeMap_insert hd hnodes ho,
    nodesUpdated_eq_nil hn hd fun other hm => Or.inl (hsub other hm)⟩

/-- The nodes that are reported if one of the old graph stands anew in the new one. -/
theorem nodes_replace (hn : Distinct new) (hd : Distinct old)
    (ho : old.nodes = before ++ node :: after) (hnodes : new.nodes = before ++ other :: after)
    (hid : other.id = node.id) :
    (between old new).nodesAdded = [] ∧ (between old new).nodesRemoved = [] ∧
      (between old new).nodesUpdated = (update? old.nodeMap node.id other).toList := by
  have hids : new.nodes.map (·.id) = old.nodes.map (·.id) := by
    simp [ho, hnodes, hid]
  have hsame : ∀ part : List Node, (∀ each ∈ part, each ∈ old.nodes) →
      part.filterMap (fun each => update? old.nodeMap each.id each) = [] := by
    intro part hpart
    rw [List.filterMap_eq_nil_iff]
    exact fun each heach => update?_of_mem hd (hpart each heach)
  refine ⟨(nodesAdded_eq old new).trans <| missingFrom_nodeMap_eq_nil hn fun each heach =>
      hids ▸ List.mem_map.2 ⟨each, heach, rfl⟩,
    missingFrom_nodeMap_eq_nil hd fun each heach => hids ▸ List.mem_map.2 ⟨each, heach, rfl⟩, ?_⟩
  rw [nodesUpdated_of_distinct hn, hnodes, List.filterMap_append, List.filterMap_cons,
    hsame before (by simp_all), hsame after (by simp_all), hid]
  cases update? old.nodeMap node.id other <;> rfl

theorem missingFrom_edgeMap_eq_nil
    (h : ∀ ends ∈ new.edges.map Edge.ends, ends ∈ old.edges.map Edge.ends) :
    missingFrom old.edgeMap new.edgeMap = [] := by
  rw [missingFrom, List.map_eq_nil_iff, List.filter_eq_nil_iff]
  intro entry hentry
  have hkey : entry.1 ∈ new.edgeMap.keys := List.mem_map.2 ⟨entry, hentry, rfl⟩
  have hold := mem_keys_edgeMap.2 (h entry.1 (mem_keys_edgeMap.1 hkey))
  simp [OrderedMap.contains_iff.2 hold]

theorem edges_same (h : new.edges.map Edge.ends = old.edges.map Edge.ends) :
    (between old new).edgesAdded = [] ∧ (between old new).edgesRemoved = [] :=
  ⟨missingFrom_edgeMap_eq_nil fun _ hm => h ▸ hm, missingFrom_edgeMap_eq_nil fun _ hm => h ▸ hm⟩

/-- An edge is missing from a graph that has none between its nodes, and it alone. -/
theorem missingFrom_edgeMap_one (hin : ends ∈ new.edges.map Edge.ends)
    (hout : ends ∉ old.edges.map Edge.ends)
    (h : ∀ other ∈ new.edges.map Edge.ends, other = ends ∨ other ∈ old.edges.map Edge.ends) :
    ∃ edge, missingFrom old.edgeMap new.edgeMap = [edge] ∧ edge.ends = ends := by
  obtain ⟨edge, hedge⟩ := OrderedMap.filter_key (mem_keys_edgeMap.2 hin)
  have hfilter : new.edgeMap.entries.filter (fun entry => !old.edgeMap.contains entry.1) =
      [(ends, edge)] := by
    rw [← hedge]
    apply List.filter_congr
    intro entry hentry
    have hkey : entry.1 ∈ new.edgeMap.keys := List.mem_map.2 ⟨entry, hentry, rfl⟩
    rw [Bool.eq_iff_iff, Bool.not_eq_true', ← Bool.not_eq_true, OrderedMap.contains_iff,
      mem_keys_edgeMap, decide_eq_true_eq]
    constructor
    · exact fun hno => (h entry.1 (mem_keys_edgeMap.1 hkey)).resolve_right hno
    · exact fun he => he ▸ hout
  refine ⟨edge, by rw [missingFrom, hfilter]; rfl, ?_⟩
  have hmem : (ends, edge) ∈ new.edgeMap.entries := by
    have hin := List.mem_filter.1 (hedge ▸ List.mem_singleton_self (ends, edge))
    exact hin.1
  obtain ⟨found, _, heq⟩ := List.mem_map.1 (OrderedMap.mem_of_mem_ofList hmem)
  simp only [Prod.mk.injEq] at heq
  rw [← heq.1, heq.2]

theorem lanes_same (h : new.lanes.map (·.id) = old.lanes.map (·.id)) :
    (between old new).lanesAdded = [] ∧ (between old new).lanesRemoved = [] := by
  simp only [between, h, List.filter_eq_nil_iff]
  exact ⟨by simp, by simp⟩

theorem between_eq {added removed : List Node} {updated : List NodeUpdate}
    {edgesAdded edgesRemoved : List Edge}
    (hnodes : (between old new).nodesAdded = added ∧ (between old new).nodesRemoved = removed ∧
      (between old new).nodesUpdated = updated)
    (hedges : (between old new).edgesAdded = edgesAdded ∧
      (between old new).edgesRemoved = edgesRemoved)
    (hlanes : (between old new).lanesAdded = [] ∧ (between old new).lanesRemoved = []) :
    between old new = ⟨added, removed, updated, edgesAdded, edgesRemoved, [], []⟩ := by
  revert hnodes hedges hlanes
  generalize between old new = diff
  rintro ⟨rfl, rfl, rfl⟩ ⟨rfl, rfl⟩ ⟨hadded, hremoved⟩
  cases diff
  simp only at hadded hremoved
  rw [hadded, hremoved]

/-- An update names the node that it is of, and no lane if the lanes are the same. -/
theorem of_update? {id : Text} {update : NodeUpdate} (h : update? old.nodeMap id other = some update)
    (hl : ∀ node, old.nodeMap.get? id = some node → node.lane = other.lane) :
    update.id = id ∧ ∀ change ∈ update.changes, change.field ≠ .lane := by
  obtain ⟨node, hget, hupdate⟩ := Option.bind_eq_some_iff.1 h
  dsimp only at hupdate
  split at hupdate
  · simp at hupdate
  · cases hupdate
    refine ⟨rfl, fun change hchange hfield => ?_⟩
    obtain ⟨field, _, hsome⟩ := List.mem_filterMap.1 hchange
    split at hsome
    · simp at hsome
    · next hne =>
      cases hsome
      subst hfield
      exact hne (hl node hget)

end Swimlane.Diff
