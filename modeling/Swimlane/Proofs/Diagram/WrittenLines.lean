import Swimlane.Proofs.Diagram.EdgeLine

/-! When the lines that are written of a new node and of a new edge read back as they were meant. -/
namespace Swimlane

open Text Escaped Line

variable {source sourceHandle targetHandle label : Text} {target : Reference}

/-- A node as it is named at the end of an edge: behind its lane and a point, if it has one. -/
def Reference.written (reference : Reference) : Text :=
  match reference.lane with
  | some lane => lane ++ "." ++ reference.node
  | none => reference.node

/-- A node, and its lane if it has one, have names. -/
structure Reference.Named (reference : Reference) : Prop where
  node : IsName reference.node
  lane : ∀ lane ∈ reference.lane, IsName lane

instance : DecidablePred Reference.Named := fun reference =>
  decidable_of_iff (IsName reference.node ∧ ∀ lane ∈ reference.lane, IsName lane)
    ⟨fun ⟨hnode, hlane⟩ => ⟨hnode, hlane⟩, fun h => ⟨h.node, h.lane⟩⟩

theorem Reference.written_lane (node lane : Text) :
    Reference.written ⟨node, some lane⟩ = lane ++ '.' :: node := by
  have hpoint : Reference.written ⟨node, some lane⟩ = lane ++ ['.'] ++ node := rfl
  rw [hpoint, List.append_assoc]
  rfl

/-- A node with a name, in no lane or in one whose name ends where the point behind it is. -/
structure Reference.Legible (reference : Reference) : Prop where
  node : IsName reference.node
  margin : ∀ lane ∈ reference.lane, trimLeft lane = lane
  signs : ∀ lane ∈ reference.lane, '.' ∉ lane ∧ '\x7b' ∉ lane ∧ '\n' ∉ lane

theorem Reference.Named.legible (h : target.Named) : target.Legible where
  node := h.node
  margin := fun lane hlane => by
    rw [← List.append_nil lane]
    exact trimLeft_name (h.lane lane hlane)
  signs := fun lane hlane => ⟨not_mem_name (h.lane lane hlane) (by decide),
    not_mem_name (h.lane lane hlane) (by decide), not_mem_name (h.lane lane hlane) (by decide)⟩

namespace Line

/-- A written name has the signs of its lane and the point behind it. -/
theorem not_mem_written {c : Char} (h : target.Legible) (hw : isWord c = false) (hp : c ≠ '.')
    (hl : ∀ lane ∈ target.lane, c ∉ lane) : c ∉ target.written := by
  obtain ⟨node, lane⟩ := target
  have hnode : c ∉ node := not_mem_name h.node hw
  cases lane with
  | none => exact hnode
  | some lane =>
    rw [Reference.written_lane, List.mem_append, List.mem_cons]
    simp [hl lane rfl, hp, hnode]

theorem mentions_handle_written (h : target.Legible) : mentions handleStart target.written = false := by
  obtain ⟨node, lane⟩ := target
  cases lane with
  | none =>
    cases hm : mentions handleStart node with
    | false => exact hm
    | true =>
      have hdot : '.' ∈ node := (mentions_iff.1 hm).subset (by decide)
      exact absurd hdot (not_mem_name h.node (by decide))
  | some lane =>
    rw [Reference.written_lane]
    exact mentions_handle_dotted (h.signs lane rfl).1 h.node

theorem exists_written (h : target.Legible) : ∃ c ∈ target.written, isBlank c = false := by
  obtain ⟨node, lane⟩ := target
  obtain ⟨c, hc⟩ := List.exists_mem_of_ne_nil node h.node.1
  refine ⟨c, ?_, isBlank_of_isWord (h.node.2 c hc)⟩
  cases lane with
  | none => exact hc
  | some lane =>
    rw [Reference.written_lane]
    exact List.mem_append_right lane (List.mem_cons_of_mem _ hc)

/-- A reference is read as it is written. -/
theorem ofText_written (h : target.Legible) : Reference.ofText (trimLeft target.written) = target := by
  obtain ⟨node, lane⟩ := target
  cases lane with
  | none =>
    have hself : trimLeft node = node := by
      rw [← List.append_nil node]
      exact trimLeft_name h.node
    exact (congrArg Reference.ofText hself).trans (reference_name h.node)
  | some lane =>
    rw [Reference.written_lane, reference_dotted (h.signs lane rfl).1 h.node, h.margin lane rfl]

/-- A label that is written in brackets is read with its normal form, and as none if that is empty. -/
theorem map_decode_writtenLabel (label : Option Text) :
    ((edgeLabel? (writtenLabel label)).bind nonempty?).map decode =
      label.bind fun text => nonempty? (normal text) := by
  rw [edgeLabel?_writtenLabel]
  cases label with
  | none => rfl
  | some label =>
    rw [Option.map_some, Option.bind_some, Option.bind_some, ← decode_encode]
    cases hencode : encode label with
    | nil => rfl
    | cons c more =>
      have hne : decode (c :: more) ≠ [] := fun hnil => by simpa using decode_eq_nil_iff.1 hnil
      obtain ⟨d, others, hdecode⟩ := List.exists_cons_of_ne_nil hne
      simp [nonempty?, hdecode]

theorem laneOpen?_of_read_edge {line : Text} {source target : Reference} {sourceHandle targetHandle : Text}
    {label : Option Text} (h : read line = .edge source target sourceHandle targetHandle label) :
    laneOpen? (trim line) = none := by
  have hfit := firstFit_read line
  rw [h] at hfit
  cases hfit with
  | edge hl _ _ _ => exact hl

/-- The line of an edge to a target that can be read reads back just if no brace in its label opens a
lane. -/
theorem read_renderEdge_eq_iff {label : Option Text} (hs : IsName source) (hsh : IsName sourceHandle)
    (ht : target.Legible) (hth : IsName targetHandle) :
    read (renderEdge source sourceHandle target.written targetHandle label) =
        .edge ⟨source, none⟩ target (lower sourceHandle) (lower targetHandle)
          (label.bind fun text => nonempty? (normal text)) ↔
      ∀ text ∈ label, opensLabel (normal text) = false := by
  have hbreak : '\n' ∉ target.written :=
    not_mem_written ht (by decide) (by decide) fun lane hlane => (ht.signs lane hlane).2.2
  have hopen : laneOpen? (trim (renderEdge source sourceHandle target.written targetHandle label)) =
      none ↔ ∀ text ∈ label, opensLabel (normal text) = false := by
    have htarget : opensLabel target.written = false := opensLabel_eq_false_of_not_mem
      (not_mem_written ht (by decide) (by decide) fun lane hlane => (ht.signs lane hlane).2.1)
    rw [laneOpen?_renderEdge hs hsh hth (lineFeed_not_mem_renderEdge hs hsh hth hbreak)]
    simp [htarget]
  refine ⟨fun h => hopen.1 (laneOpen?_of_read_edge h), fun h => ?_⟩
  have hpoint : target? (edgeRest target.written targetHandle label) =
      some ⟨trimLeft target.written, targetHandle, writtenLabel label⟩ :=
    target?_edgeRest hbreak (mentions_handle_written ht) (exists_written ht) hth
  rw [read_renderEdge hs hsh (hopen.2 h) hpoint]
  simp only [reference_name hs, ofText_written ht, trim_name hsh, trim_name hth, map_decode_writtenLabel]

theorem read_renderEdge_iff (hs : IsName source) (hsh : IsName sourceHandle) (ht : target.Named)
    (hth : IsName targetHandle) :
    read (renderEdge source sourceHandle target.written targetHandle (some label)) =
        .edge ⟨source, none⟩ target (lower sourceHandle) (lower targetHandle) (nonempty? (normal label)) ↔
      opensLabel (normal label) = false :=
  (read_renderEdge_eq_iff hs hsh ht.legible hth).trans (by simp)

end Line

/-- The lines that are written of a node and of an edge read back just if no value of theirs is taken for
something else in its normal form: for the opening of a lane with a label, or for an arrow by a node. -/
theorem read_rendered_iff :
    (∀ (id : Text) (shape : Shape) (attributes : List (Text × Text)),
      IsName id → (∀ entry ∈ attributes, IsName entry.1) →
      (Line.read (renderNode id shape attributes) =
          .node id shape (.ofList (attributes.map fun entry => (entry.1, normal entry.2))) ↔
        ∀ entry ∈ attributes,
          mentions arrow (normal entry.2) = false ∧ opensLabel (normal entry.2) = false)) ∧
    ∀ (source sourceHandle targetHandle label : Text) (target : Reference),
      IsName source → IsName sourceHandle → IsName targetHandle → target.Named →
      (Line.read (renderEdge source sourceHandle target.written targetHandle (some label)) =
          .edge ⟨source, none⟩ target (lower sourceHandle) (lower targetHandle) (nonempty? (normal label)) ↔
        opensLabel (normal label) = false) := by
  refine ⟨fun id shape attributes hid hk => ⟨fun h entry hentry => ?_, fun h => ?_⟩,
    fun source sourceHandle targetHandle label target hs hsh hth ht => read_renderEdge_iff hs hsh ht hth⟩
  · have hquotable := quotable_of_read_renderNode hid hk h entry hentry
    exact ⟨hquotable.arrow, hquotable.label⟩
  · exact read_renderNode shape hid fun entry hentry =>
      ⟨hk entry hentry, (h entry hentry).1, (h entry hentry).2⟩

/-- A node in another lane. -/
def otherNode : Reference := ⟨"n2", some "ops"⟩

/-- The marked pairs read back in a node's line. An edge reads back with a brace in its label, but not with
one that a number sign follows. -/
theorem read_rendered_marked :
    Line.read (renderNode "n7" .diamond markedPairs) =
        .node "n7" .diamond (.ofList (markedPairs.map fun entry => (entry.1, normal entry.2))) ∧
      Line.read (renderEdge "n1" "Right" otherNode.written "left" (some " \x7b\"x\" \\")) =
        .edge ⟨"n1", none⟩ otherNode (lower "Right") (lower "left") (nonempty? (normal " \x7b\"x\" \\")) ∧
      Line.read (renderEdge "n1" "Right" otherNode.written "left" (some "\x7b #1")) ≠
        .edge ⟨"n1", none⟩ otherNode (lower "Right") (lower "left") (nonempty? (normal "\x7b #1")) := by
  have hnode := read_rendered_iff.1 "n7" .diamond markedPairs (by decide) (by decide)
  have hedge := fun label : Text => read_rendered_iff.2 "n1" "Right" "left" label otherNode (by decide)
    (by decide) (by decide) (by decide)
  refine ⟨hnode.2 (by decide +kernel), (hedge _).2 (by decide +kernel), fun h => ?_⟩
  exact absurd ((hedge _).1 h) (by decide +kernel)

end Swimlane
