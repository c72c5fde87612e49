import Swimlane.Proofs.Diff.Description

/-! The diff of two graphs, read backwards, is the diff of the two in the other order. -/
namespace Swimlane

open Text

variable {old new : Graph} {updates back : List NodeUpdate}

def FieldChange.reversed (change : FieldChange) : FieldChange :=
  { change with old := change.new, new := change.old }

def NodeUpdate.reversed (update : NodeUpdate) : NodeUpdate :=
  { update with changes := update.changes.map FieldChange.reversed }

theorem FieldChange.reversed_involutive : Function.Involutive FieldChange.reversed :=
  fun _ => rfl

theorem NodeUpdate.reversed_involutive : Function.Involutive NodeUpdate.reversed := by
  intro update
  simp only [NodeUpdate.reversed, List.map_map, FieldChange.reversed_involutive.comp_self,
    List.map_id]

theorem Content.changes_reversed (before after : Content) :
    after.changes before = (before.changes after).map FieldChange.reversed := by
  simp only [Content.changes, List.map_map, ne_comm (a := after.value _)]
  rfl

namespace Updates

theorem mem_reversed (h : Updates old new updates) (hb : Updates new old back)
    {update : NodeUpdate} : update ∈ back ↔ update.reversed ∈ updates := by
  rw [hb.mem_iff, h.mem_iff]
  constructor
  · rintro ⟨before, after, hnew, hold, hne, hchanges⟩
    refine ⟨after, before, hold, hnew, hne.symm, ?_⟩
    rw [Content.changes_reversed before after, ← hchanges]
    rfl
  · rintro ⟨before, after, hold, hnew, hne, hchanges⟩
    refine ⟨after, before, hnew, hold, hne.symm, ?_⟩
    rw [Content.changes_reversed before after, ← hchanges]
    exact congrArg NodeUpdate.changes (NodeUpdate.reversed_involutive update).symm

/-- The updates are those of the other order with old and new exchanged, though not in their order:
each list follows its own new graph. -/
theorem perm_reversed (h : Updates old new updates) (hb : Updates new old back) :
    back.Perm (updates.map NodeUpdate.reversed) := by
  have hinj := NodeUpdate.reversed_involutive.injective
  rw [List.perm_ext_iff_of_nodup hb.nodup (h.nodup.map hinj)]
  intro update
  rw [h.mem_reversed hb, ← List.mem_map_of_injective hinj, NodeUpdate.reversed_involutive]

end Updates

namespace Diff

/-- What one diff adds the other removes, in the same order, and both update the same nodes. -/
theorem ofTexts_reversed (old new : Text) :
    (ofTexts new old).nodesRemoved = (ofTexts old new).nodesAdded ∧
    (ofTexts new old).edgesRemoved = (ofTexts old new).edgesAdded ∧
    (ofTexts new old).lanesRemoved = (ofTexts old new).lanesAdded ∧
    (ofTexts new old).nodesAdded = (ofTexts old new).nodesRemoved ∧
    (ofTexts new old).edgesAdded = (ofTexts old new).edgesRemoved ∧
    (ofTexts new old).lanesAdded = (ofTexts old new).lanesRemoved ∧
    (ofTexts new old).nodesUpdated.Perm
      ((ofTexts old new).nodesUpdated.map NodeUpdate.reversed) := by
  have h := describes_ofTexts old new
  have hb := describes_ofTexts new old
  exact ⟨hb.nodesRemoved.unique h.nodesAdded, hb.edgesRemoved.unique h.edgesAdded,
    hb.lanesRemoved.unique h.lanesAdded, hb.nodesAdded.unique h.nodesRemoved,
    hb.edgesAdded.unique h.edgesRemoved, hb.lanesAdded.unique h.lanesRemoved,
    h.nodesUpdated.perm_reversed hb.nodesUpdated⟩

end Diff

end Swimlane
