import Swimlane.Proofs.Diagram.Reading
import Swimlane.Proofs.Diff
import Swimlane.Proofs.Diff.View

/-! A diff names each difference between two graphs once, and nothing else: enough to turn what is
seen of the one into what is seen of the other. -/
namespace Swimlane

open Text

universe u v

variable {κ : Type u} {β : Type v} [DecidableEq κ] {key : β → κ} {items others gained : List β}
  {k : κ} {old new graph : Graph} {updates : List NodeUpdate} {id : Text}

/-- The items gained are the last ones under the keys that no item had before, in the order in which
these keys first appear. -/
structure Gains (key : β → κ) (old new gained : List β) : Prop where
  keys : gained.map key = (keysOf key new).filter (· ∉ old.map key)
  last : ∀ item ∈ gained, lastWith? key new (key item) = some item

namespace Gains

theorem mem_keys (h : Gains key items others gained) :
    k ∈ gained.map key ↔ k ∈ others.map key ∧ k ∉ items.map key := by
  rw [h.keys, List.mem_filter, mem_keysOf, decide_eq_true_eq]

theorem eq_nil (h : Gains key items others gained)
    (hk : ∀ k ∈ others.map key, k ∈ items.map key) : gained = [] := by
  rw [← List.map_eq_nil_iff (f := key), List.eq_nil_iff_forall_not_mem]
  intro k hmem
  obtain ⟨hnew, hold⟩ := h.mem_keys.1 hmem
  exact hold (hk k hnew)

theorem eq_filterMap (h : Gains key items others gained) :
    gained = ((keysOf key others).filter (· ∉ items.map key)).filterMap (lastWith? key others) := by
  rw [← h.keys, List.filterMap_map]
  symm
  calc gained.filterMap (lastWith? key others ∘ key)
      = gained.filterMap some := List.filterMap_congr fun item hitem => h.last item hitem
    _ = gained := List.filterMap_some

/-- Nothing is left open: two lists of what is gained are one. -/
theorem unique {same : List β} (h : Gains key items others gained)
    (hs : Gains key items others same) : gained = same := by
  rw [h.eq_filterMap, hs.eq_filterMap]

end Gains

/-- The updates are of the nodes that both graphs have with different contents, in the order in
which the new graph first has them, and list the fields that differ. -/
structure Updates (old new : Graph) (updates : List NodeUpdate) : Prop where
  ids : updates.map NodeUpdate.id = (keysOf Node.id new.nodes).filter fun id =>
    (old.view.node? id).isSome ∧ old.view.node? id ≠ new.view.node? id
  changes : ∀ update ∈ updates, ∃ before after, old.view.node? update.id = some before ∧
    new.view.node? update.id = some after ∧ update.changes = before.changes after

namespace Updates

theorem mem_ids (h : Updates old new updates) : id ∈ updates.map NodeUpdate.id ↔
    (∃ before after, old.view.node? id = some before ∧ new.view.node? id = some after ∧
      before ≠ after) := by
  rw [h.ids, List.mem_filter, mem_keysOf, ← Graph.isSome_view_node?, decide_eq_true_eq]
  cases old.view.node? id <;> cases new.view.node? id <;> simp

theorem mem_iff (h : Updates old new updates) {update : NodeUpdate} : update ∈ updates ↔
    ∃ before after, old.view.node? update.id = some before ∧
      new.view.node? update.id = some after ∧ before ≠ after ∧
      update.changes = before.changes after := by
  constructor
  · intro hmem
    obtain ⟨before, after, hold, hnew, hne⟩ := h.mem_ids.1 (List.mem_map.2 ⟨update, hmem, rfl⟩)
    obtain ⟨first, last, hfirst, hlast, hchanges⟩ := h.changes update hmem
    cases hold.symm.trans hfirst
    cases hnew.symm.trans hlast
    exact ⟨before, after, hold, hnew, hne, hchanges⟩
  · rintro ⟨before, after, hold, hnew, hne, hchanges⟩
    obtain ⟨other, hother, hid⟩ := List.mem_map.1 (h.mem_ids.2 ⟨before, after, hold, hnew, hne⟩)
    obtain ⟨first, last, hfirst, hlast, hsame⟩ := h.changes other hother
    rw [hid] at hfirst hlast
    cases hold.symm.trans hfirst
    cases hnew.symm.trans hlast
    have heq : other = update := by
      cases other
      cases update
      simp_all
    exact heq ▸ hother

theorem nodup (h : Updates old new updates) : updates.Nodup := by
  apply List.Nodup.of_map NodeUpdate.id
  rw [h.ids]
  exact (nodup_eraseDups _).filter _

end Updates

namespace Diff

/-- What a diff has to say of two graphs. -/
structure Describes (diff : Diff) (old new : Graph) : Prop where
  nodesAdded : Gains Node.id old.nodes new.nodes diff.nodesAdded
  nodesRemoved : Gains Node.id new.nodes old.nodes diff.nodesRemoved
  nodesUpdated : Updates old new diff.nodesUpdated
  edgesAdded : Gains Edge.ends old.edges new.edges diff.edgesAdded
  edgesRemoved : Gains Edge.ends new.edges old.edges diff.edgesRemoved
  lanesAdded : Gains (fun lane => lane) old.laneIds new.laneIds diff.lanesAdded
  lanesRemoved : Gains (fun lane => lane) new.laneIds old.laneIds diff.lanesRemoved

variable {diff : Diff}

theorem gains_missingFrom {κ β : Type} [DecidableEq κ] (key : β → κ) (olds news : List β) :
    Gains key olds news (missingFrom (.ofList (olds.map fun item => (key item, item)))
      (.ofList (news.map fun item => (key item, item)))) := by
  have hentry : ∀ entry ∈ (OrderedMap.ofList (news.map fun item => (key item, item))).entries,
      lastWith? key news entry.1 = some entry.2 := by
    intro entry hmem
    rw [← OrderedMap.get?_ofItems]
    exact OrderedMap.get?_of_mem hmem
  have hpass : ∀ k, (!(OrderedMap.ofList (olds.map fun item => (key item, item))).contains k) =
      decide (k ∉ olds.map key) := by
    intro k
    rw [OrderedMap.contains, OrderedMap.get?_ofItems, Bool.eq_iff_iff, Bool.not_eq_true',
      Option.isSome_eq_false_iff, Option.isNone_iff_eq_none, lastWith?_eq_none_iff,
      decide_eq_true_eq]
  constructor
  · rw [missingFrom, List.map_map, ← OrderedMap.keys_ofItems, OrderedMap.keys, List.filter_map]
    simp only [hpass]
    apply List.map_congr_left
    intro entry hmem
    have hkey : key entry.2 = entry.1 :=
      key_of_lastWith? (hentry entry (List.mem_filter.1 hmem).1)
    exact hkey
  · intro item hitem
    obtain ⟨entry, hmem, rfl⟩ := List.mem_map.1 hitem
    have hlast := hentry entry (List.mem_filter.1 hmem).1
    rwa [key_of_lastWith? hlast]

theorem fieldChanges_eq (old new : Node) : fieldChanges old new = old.content.changes new.content := by
  have hvalue : ∀ (node : Node) (field : NodeField), field.value node = node.content.value field := by
    intro node field
    cases field <;> rfl
  rw [fieldChanges, Content.changes, ← List.filterMap_eq_map, List.filterMap_filter]
  apply List.filterMap_congr
  intro field _
  by_cases h : old.content.value field = new.content.value field <;> simp [hvalue, h]

theorem update?_eq (node : Node) : update? old.nodeMap id node =
    (old.view.node? id).bind fun before =>
      if before = node.content then none else some ⟨id, before.changes node.content⟩ := by
  rw [update?, Graph.view_node?_eq, Graph.node?]
  cases old.nodeMap.get? id with
  | none => rfl
  | some before =>
    simp only [Option.map_some, Option.bind_some, fieldChanges_eq, List.isEmpty_iff,
      Content.changes_eq_nil_iff]

theorem updates_between (old new : Graph) : Updates old new (between old new).nodesUpdated := by
  have hentry : ∀ entry ∈ new.nodeMap.entries,
      new.view.node? entry.1 = some entry.2.content := by
    intro entry hmem
    rw [Graph.view_node?_eq, Graph.node?, OrderedMap.get?_of_mem hmem]
    rfl
  constructor
  · have hkeys : keysOf Node.id new.nodes = new.nodeMap.entries.map Prod.fst :=
      OrderedMap.keys_ofItems.symm
    rw [hkeys, List.filter_map, nodesUpdated_eq, List.map_filterMap, ← List.filterMap_eq_map,
      List.filterMap_filter]
    apply List.filterMap_congr
    intro entry hmem
    have hnew := hentry entry hmem
    simp only [update?_eq, Function.comp, hnew]
    cases old.view.node? entry.1 with
    | none => simp
    | some before => by_cases h : before = entry.2.content <;> simp [h]
  · intro update hmem
    rw [nodesUpdated_eq] at hmem
    obtain ⟨entry, hentries, hsome⟩ := List.mem_filterMap.1 hmem
    dsimp only at hsome
    rw [update?_eq, Option.bind_eq_some_iff] at hsome
    obtain ⟨before, hold, hupdate⟩ := hsome
    split at hupdate
    · simp at hupdate
    · cases hupdate
      exact ⟨before, entry.2.content, hold, hentry entry hentries, rfl⟩

theorem gains_lanes (olds news : List Text) (h : news.Nodup) :
    Gains (fun lane => lane) olds news (news.filter (· ∉ olds)) := by
  constructor
  · simp only [keysOf, List.map_id', eraseDups_of_nodup h]
  · intro lane hlane
    have hmem : lane ∈ news.map fun lane => lane := by simpa using List.mem_of_mem_filter hlane
    obtain ⟨found, hfound⟩ := Option.isSome_iff_exists.1 (isSome_lastWith?.2 hmem)
    have hkey := key_of_lastWith? hfound
    exact hkey ▸ hfound

theorem describes_between (ho : old.laneIds.Nodup) (hn : new.laneIds.Nodup) :
    (between old new).Describes old new where
  nodesAdded := nodesAdded_eq old new ▸ gains_missingFrom Node.id old.nodes new.nodes
  nodesRemoved := gains_missingFrom Node.id new.nodes old.nodes
  nodesUpdated := updates_between old new
  edgesAdded := gains_missingFrom Edge.ends old.edges new.edges
  edgesRemoved := gains_missingFrom Edge.ends new.edges old.edges
  lanesAdded := gains_lanes old.laneIds new.laneIds hn
  lanesRemoved := gains_lanes new.laneIds old.laneIds ho

theorem nodup_laneIds_ofText (text : Text) : (Graph.ofText text).laneIds.Nodup := by
  rw [Graph.laneIds, Graph.laneIds_ofText]
  exact nodup_newLanes

theorem describes_ofTexts (old new : Text) :
    (ofTexts old new).Describes (.ofText old) (.ofText new) :=
  describes_between (nodup_laneIds_ofText old) (nodup_laneIds_ofText new)

theorem applyTo_nothing {view : View} : nothing.applyTo view = view := by
  cases view
  simp [applyTo, contentAfter?, nothing]

theorem hasChanges_eq_false_iff : diff.hasChanges = false ↔ diff = nothing := by
  cases diff
  simp [hasChanges, nothing, and_assoc]

theorem counted_eq_none_iff {β : Type} {start rest : Text} {items : List β} :
    counted start items rest = none ↔ items = [] := by
  cases items <;> simp [counted]

theorem laneNames_eq_none_iff {start : Text} {lanes : List Text} :
    laneNames start lanes = none ↔ lanes = [] := by
  cases lanes <;> simp [laneNames]

theorem head?_counted {β : Type} {start rest part : Text} {items : List β} (hs : start ≠ [])
    (h : counted start items rest = some part) : part.head? = start.head? := by
  rw [counted] at h
  split at h
  · simp at h
  · cases h
    rw [List.append_assoc, List.head?_append_of_ne_nil _ hs]

theorem head?_laneNames {start part : Text} {lanes : List Text} (hs : start ≠ [])
    (h : laneNames start lanes = some part) : part.head? = start.head? := by
  rw [laneNames] at h
  split at h
  · simp at h
  · cases h
    rw [List.head?_append_of_ne_nil _ hs]

theorem head?_join {between first : Text} {rest : List Text} (h : first ≠ []) :
    (join between (first :: rest)).head? = first.head? := by
  rw [join]
  cases rest with
  | nil => rw [List.intercalate_singleton]
  | cons second more =>
    rw [List.intercalate_cons_cons, List.append_assoc, List.head?_append_of_ne_nil _ h]

/-- Every part of a summary starts with a word for a change. -/
theorem head?_summary (h : diff ≠ nothing) : ∃ c ≠ 'N', diff.summary.head? = some c := by
  rw [summary]
  split
  · next hempty =>
    rw [List.isEmpty_iff, List.filterMap_eq_nil_iff] at hempty
    simp only [List.forall_mem_cons, id_eq, counted_eq_none_iff, laneNames_eq_none_iff] at hempty
    obtain ⟨hadded, hremoved, hupdated, hedgesAdded, hedgesRemoved, hlanesAdded, hlanesRemoved, _⟩ :=
      hempty
    refine absurd ?_ h
    cases diff
    simp_all only [nothing]
  · next hparts =>
    obtain ⟨first, rest, hcons⟩ := List.exists_cons_of_ne_nil (mt List.isEmpty_iff.2 hparts)
    have hmem := List.mem_filterMap.1 (hcons ▸ List.mem_cons_self (a := first) (l := rest))
    have hfirst : ∃ c ≠ 'N', first.head? = some c := by
      obtain ⟨part, hpart, hsome⟩ := hmem
      simp only [List.mem_cons, List.not_mem_nil, or_false, id_eq] at hpart hsome
      subst hsome
      rcases hpart with h | h | h | h | h | h | h
      · exact ⟨'A', by decide, head?_counted (by decide) h.symm⟩
      · exact ⟨'R', by decide, head?_counted (by decide) h.symm⟩
      · exact ⟨'U', by decide, head?_counted (by decide) h.symm⟩
      · exact ⟨'A', by decide, head?_counted (by decide) h.symm⟩
      · exact ⟨'R', by decide, head?_counted (by decide) h.symm⟩
      · exact ⟨'A', by decide, head?_laneNames (by decide) h.symm⟩
      · exact ⟨'R', by decide, head?_laneNames (by decide) h.symm⟩
    obtain ⟨c, hc, hhead⟩ := hfirst
    have hne : first ≠ [] := by
      rintro rfl
      simp at hhead
    exact ⟨c, hc, by rw [hcons, head?_join hne, hhead]⟩

/-- Only the diff without changes says that there are none. -/
theorem summary_eq_iff : diff.summary = "No changes detected" ↔ diff = nothing := by
  constructor
  · intro h
    by_contra hne
    obtain ⟨c, hc, hhead⟩ := head?_summary hne
    rw [h] at hhead
    exact hc (Option.some.inj hhead).symm
  · rintro rfl
    rfl

namespace Describes

variable (h : diff.Describes old new)
include h

theorem contentAfter?_eq (id : Text) :
    diff.contentAfter? id (old.view.node? id) = new.view.node? id := by
  rw [contentAfter?]
  by_cases hremoved : id ∈ diff.nodesRemoved.map Node.id
  · have hnew := (h.nodesRemoved.mem_keys.1 hremoved).2
    rw [← Graph.isSome_view_node?, Option.not_isSome_iff_eq_none] at hnew
    rw [if_pos hremoved, hnew]
  rw [if_neg hremoved]
  by_cases hadded : id ∈ diff.nodesAdded.map Node.id
  · obtain ⟨node, hmem, hfind, rfl⟩ := exists_find?_key hadded
    have hnew : new.view.node? node.id = some node.content := by
      rw [Graph.view_node?_eq, Graph.node?_eq_lastWith?, h.nodesAdded.last node hmem]
      rfl
    rw [hfind, hnew]
  rw [find?_key_eq_none hadded]
  by_cases hupdated : id ∈ diff.nodesUpdated.map NodeUpdate.id
  · obtain ⟨update, hmem, hfind, rfl⟩ := exists_find?_key hupdated
    obtain ⟨before, after, hold, hnew, hchanges⟩ := h.nodesUpdated.changes update hmem
    rw [hfind, hold, hnew]
    simp only [Option.map_some, hchanges, Content.setAll_changes]
  rw [find?_key_eq_none hupdated]
  -- The id is in both graphs with one content, or in none of them.
  have hboth : (old.view.node? id).isSome ↔ (new.view.node? id).isSome := by
    have hadds := h.nodesAdded.mem_keys (k := id)
    have hremoves := h.nodesRemoved.mem_keys (k := id)
    rw [Graph.isSome_view_node?, Graph.isSome_view_node?]
    tauto
  rw [h.nodesUpdated.mem_ids] at hupdated
  cases hold : old.view.node? id <;> cases hnew : new.view.node? id <;> simp_all

theorem applyTo_view : diff.applyTo old.view = new.view := by
  apply View.ext
  · funext id
    exact h.contentAfter?_eq id
  · ext ends
    have hadded := h.edgesAdded.mem_keys (k := ends)
    have hremoved := h.edgesRemoved.mem_keys (k := ends)
    simp only [applyTo, Graph.view, Set.mem_ofPred_eq]
    tauto
  · ext lane
    have hadded := h.lanesAdded.mem_keys (k := lane)
    have hremoved := h.lanesRemoved.mem_keys (k := lane)
    simp only [List.map_id'] at hadded hremoved
    simp only [applyTo, Graph.view, Set.mem_ofPred_eq]
    tauto

theorem eq_nothing_iff : diff = nothing ↔ old.view = new.view := by
  constructor
  · rintro rfl
    exact applyTo_nothing.symm.trans h.applyTo_view
  · intro hview
    have hnodes : ∀ id, id ∈ old.nodes.map Node.id ↔ id ∈ new.nodes.map Node.id := by
      intro id
      rw [← Graph.isSome_view_node?, ← Graph.isSome_view_node?, hview]
    have hedges : ∀ ends, ends ∈ old.edges.map Edge.ends ↔ ends ∈ new.edges.map Edge.ends :=
      Set.ext_iff.1 (congrArg View.edges hview)
    have hlanes : ∀ lane, lane ∈ old.laneIds ↔ lane ∈ new.laneIds :=
      Set.ext_iff.1 (congrArg View.lanes hview)
    have hupdated : diff.nodesUpdated = [] := by
      rw [List.eq_nil_iff_forall_not_mem]
      intro update hmem
      obtain ⟨before, after, hold, hnew, hne, _⟩ := h.nodesUpdated.mem_iff.1 hmem
      rw [hview, hnew] at hold
      exact hne (Option.some.inj hold).symm
    have hadded := h.nodesAdded.eq_nil fun id => (hnodes id).2
    have hremoved := h.nodesRemoved.eq_nil fun id => (hnodes id).1
    have hedgesAdded := h.edgesAdded.eq_nil fun ends => (hedges ends).2
    have hedgesRemoved := h.edgesRemoved.eq_nil fun ends => (hedges ends).1
    have hlanesAdded := h.lanesAdded.eq_nil fun lane => by simpa using (hlanes lane).2
    have hlanesRemoved := h.lanesRemoved.eq_nil fun lane => by simpa using (hlanes lane).1
    cases diff
    simp_all [nothing]

end Describes

/-- A diff of two texts names every difference once and nothing else, so that it leads from the one
view to the other; it is empty, and says so, if there is no difference to see. -/
theorem ofTexts_exact (old new : Text) :
    (ofTexts old new).Describes (.ofText old) (.ofText new) ∧
    (ofTexts old new).applyTo (Graph.ofText old).view = (Graph.ofText new).view ∧
    ((ofTexts old new).hasChanges = false ↔ (Graph.ofText old).view = (Graph.ofText new).view) ∧
    ((Graph.ofText old).view = (Graph.ofText new).view ↔
      (ofTexts old new).summary = "No changes detected") := by
  have h := describes_ofTexts old new
  refine ⟨h, h.applyTo_view, ?_, ?_⟩
  · rw [hasChanges_eq_false_iff, h.eq_nothing_iff]
  · rw [summary_eq_iff, h.eq_nothing_iff]

end Diff
end Swimlane
