import Swimlane.Proofs.Diagram.EdgeShape
import Swimlane.Proofs.Diagram.Reading
import Swimlane.Proofs.Text.WholeLines

/-! Lines that begin with a number sign. They are comments, but they are read last, so one with a
brace may open a lane and one with the shape of an edge is an edge. -/
namespace Swimlane

open Text Line

variable {c : Char} {text line id : Text} {label : Option Text} {lines : List Text}

/-- A line that begins with a number sign, blanks apart. -/
def isComment (line : Text) : Bool := (trim line).head? = some '#'

/-- The text without the lines that are comments. -/
def withoutComments (text : Text) : Text := ((wholeLines text).filter (!isComment ·)).flatten

/-- A comment that is passed over: no brace in it opens a lane, and it has not the shape of an edge. -/
def Silent (line : Text) : Prop := Closed (trim line).tail ∧ ¬ EdgeShape (trim line)

/-- Two graphs with the same nodes and edges, and lanes with the same ids. -/
structure SameEntities (left right : Graph) : Prop where
  nodes : left.nodes = right.nodes
  edges : left.edges = right.edges
  laneIds : left.lanes.map (·.id) = right.lanes.map (·.id)

namespace Line

theorem head?_trimRight {text : Text} (hc : isBlank c = false) (h : text.head? = some c) :
    (trimRight text).head? = some c := by
  obtain ⟨right, heq, hr⟩ := exists_trimRight text
  cases ht : trimRight text with
  | nil =>
    rw [heq, ht, List.nil_append] at h
    have hblank := hr c (List.mem_of_mem_head? h)
    simp [hc] at hblank
  | cons d more =>
    rw [heq, ht] at h
    exact h

/-- The name of a lane begins as its line does. -/
theorem head?_of_laneOpenFrom? {before name label : Text} (hc : isBlank c = false)
    (hb : before.getLast? = some c) (h : laneOpenFrom? before text = some (name, label)) :
    name.head? = some c := by
  induction text generalizing before with
  | nil => simp [laneOpenFrom?] at h
  | cons d rest ih =>
    have hmore : laneOpenFrom? (d :: before) rest = some (name, label) → name.head? = some c := by
      have hlast : (d :: before).getLast? = some c := by
        rw [List.getLast?_cons, hb]
        rfl
      exact ih hlast
    rw [laneOpenFrom?] at h
    split at h
    · dsimp only at h
      split at h
      · split at h
        · simp at h
        · simp only [Option.some.injEq, Prod.mk.injEq] at h
          have hname : trimRight before.reverse = name := by rw [trimRight, List.reverse_reverse, h.1]
          rw [← hname]
          exact head?_trimRight hc (by rw [List.head?_reverse, hb])
      · exact hmore h
    · exact hmore h

theorem head?_of_read_laneOpen (h : read line = .laneOpen id label) : id.head? = (trim line).head? := by
  obtain ⟨⟨name, written⟩, hfrom, hopen⟩ := Option.map_eq_some_iff.1 (laneOpen?_of_read h)
  simp only [laneOpen.injEq] at hopen
  rw [← hopen.1]
  cases ht : trim line with
  | nil => simp [ht, laneOpenFrom?] at hfrom
  | cons c rest =>
    have hc : isBlank c = false := (trimmed_trim line).1 c (by rw [ht]; rfl)
    have hfirst : laneOpenFrom? [c] rest = some (name, written) := by
      simpa [ht, laneOpenFrom?] using hfrom
    exact head?_of_laneOpenFrom? hc rfl hfirst

theorem node?_eq_none_of_head (hc : isWord c = false) (h : text.head? = some c) :
    node? text = none := by
  cases text with
  | nil => simp at h
  | cons d rest =>
    obtain rfl : d = c := by simpa using h
    simp [node?, nodeHead?, hc]

/-- What a comment is read as. -/
theorem read_comment_cases (h : isComment line = true) :
    laneOpen? (trim line) = some (read line) ∨
      laneOpen? (trim line) = none ∧ (edge? (trim line) = some (read line) ∨
        edge? (trim line) = none ∧ read line = .skipped (trim line) .comment) := by
  have hhead : (trim line).head? = some '#' := by simpa [isComment] using h
  have hnode : node? (trim line) = none := node?_eq_none_of_head (by decide) hhead
  have hclose : trim line ≠ ['\x7d'] := by
    intro hclose
    simp [hclose] at hhead
  rw [read, hnode, Option.none_or, if_neg hclose]
  cases laneOpen? (trim line) with
  | some opened => exact Or.inl rfl
  | none =>
    cases edge? (trim line) with
    | some found => exact Or.inr ⟨rfl, Or.inl rfl⟩
    | none => exact Or.inr ⟨rfl, Or.inr ⟨rfl, by simp [skipKind, hhead]⟩⟩

/-- A comment on one line is passed over as one just when it is silent. -/
theorem read_comment_iff (hn : '\n' ∉ line) (h : isComment line = true) :
    read line = .skipped (trim line) .comment ↔ Silent line := by
  have hbreak : '\n' ∉ trim line := fun hm => hn (mem_of_mem_trim hm)
  have hopen : laneOpen? (trim line) = none ↔ Closed (trim line).tail := by
    cases ht : trim line with
    | nil => simp [isComment, ht] at h
    | cons c rest => exact laneOpen?_eq_none_iff (ht ▸ hbreak)
  rw [Silent, ← hopen, ← edge?_isSome_iff hbreak]
  rcases read_comment_cases h with hlane | ⟨hlane, hedge | ⟨hedge, hread⟩⟩
  · refine iff_of_false (fun hread => ?_) (by simp [hlane])
    obtain ⟨_, _, hline⟩ := Option.map_eq_some_iff.1 hlane
    simp [hread] at hline
  · refine iff_of_false (fun hread => ?_) (by simp [hedge])
    obtain ⟨_, _, _, _, _, hline⟩ := exists_of_edge? hedge
    simp [hread] at hline
  · exact iff_of_true hread (by simp [hlane, hedge])

end Line

theorem isComment_trim (line : Text) : isComment (trim line) = isComment line := by
  rw [isComment, isComment, trim_trim]

theorem silent_trim : Silent (trim line) ↔ Silent line := by rw [Silent, Silent, trim_trim]

/-- What is written on the lines that are no comments. -/
theorem writtenLines_withoutComments (text : Text) :
    writtenLines (withoutComments text) = (writtenLines text).filter (!isComment ·) := by
  have hkept := writtenLines_flatten ((broken_wholeLines text).filter (p := (!isComment ·)))
  have hall := writtenLines_flatten (broken_wholeLines text)
  have hmap : ((wholeLines text).filter (!isComment ·)).map trim =
      ((wholeLines text).map trim).filter (!isComment ·) := by
    simp only [List.filter_map, Function.comp_def, isComment_trim]
  rw [flatten_wholeLines] at hall
  rw [withoutComments, hkept, hall, hmap, List.filter_comm]

theorem line_sourceLines (text : Text) :
    (sourceLines text).map (·.line) = (writtenLines text).map read := by
  rw [sourceLines, writtenLines, List.map_map, List.map_map]
  rfl

/-- Comments that are passed over may as well be left out. -/
theorem passing_comments (h : ∀ line ∈ lines, isComment line = true → (read line).isSkipped = true) :
    ((lines.filter (!isComment ·)).map read).filter (!·.isSkipped) =
      (lines.map read).filter (!·.isSkipped) := by
  rw [List.filter_map, List.filter_map, List.filter_filter]
  congr 1
  apply List.filter_congr
  intro line hline
  cases hc : isComment line with
  | false => simp
  | true => simp [h line hline hc]

/-- What is left out had no value if as many values are left. -/
theorem eq_none_of_length_filter {α β : Type} {f : α → Option β} {p : α → Bool} {items : List α}
    {item : α} (h : ((items.filter p).filterMap f).length = (items.filterMap f).length)
    (hi : item ∈ items) (hp : p item = false) : f item = none := by
  obtain ⟨above, below, rfl⟩ := List.append_of_mem hi
  -- Above and below no value can have come in for the one that would be lost here.
  have hfewer : ∀ part : List α, ((part.filter p).filterMap f).length ≤ (part.filterMap f).length :=
    fun part => (List.filter_sublist.filterMap f).length_le
  have habove := hfewer above
  have hbelow := hfewer below
  cases hf : f item with
  | none => rfl
  | some value =>
    simp only [List.filter_append, List.filter_cons, hp, List.filterMap_append, List.length_append,
      List.filterMap_cons_some hf, List.length_cons] at h
    simp only [Bool.false_eq_true, if_false] at h
    omega

namespace Graph

theorem sameEntities_filter
    (h : ∀ line ∈ writtenLines text, isComment line = true → (read line).isSkipped = true) :
    SameEntities (ofText (withoutComments text)) (ofText text) := by
  have hpassing := passing_comments h
  rw [← writtenLines_withoutComments, ← line_sourceLines, ← line_sourceLines] at hpassing
  constructor
  · exact nodesFrom_passing.symm.trans ((congrArg _ hpassing).trans nodesFrom_passing)
  · exact edgesFrom_passing.symm.trans ((congrArg _ hpassing).trans edgesFrom_passing)
  · have hids := laneIds_passing.symm.trans ((congrArg _ hpassing).trans laneIds_passing)
    exact (map_id_lanesFrom _ _).trans ((congrArg _ hids).trans (map_id_lanesFrom _ _).symm)

/-- A lane that a comment opens is lost with it, for the name begins with the number sign. -/
theorem read_ne_laneOpen (h : SameEntities (ofText (withoutComments text)) (ofText text))
    (hl : line ∈ writtenLines text) (hc : isComment line = true) : read line ≠ .laneOpen id label := by
  intro hread
  have hids := (map_id_lanesFrom _ _).symm.trans (h.laneIds.trans (map_id_lanesFrom _ _))
  rw [line_sourceLines, line_sourceLines, writtenLines_withoutComments] at hids
  have hmem : id ∈ ((writtenLines text).map read).filterMap laneId? :=
    List.mem_filterMap.2 ⟨_, List.mem_map_of_mem hl, by rw [hread]; rfl⟩
  have hkept := mem_newLanes.1 (hids ▸ mem_newLanes.2 ⟨hmem, List.not_mem_nil⟩)
  obtain ⟨_, hopen, hid⟩ := List.mem_filterMap.1 hkept.1
  obtain ⟨other, hother, rfl⟩ := List.mem_map.1 hopen
  obtain ⟨_, hplain⟩ := List.mem_filter.1 hother
  cases ho : read other with
  | laneOpen name written =>
    obtain rfl : name = id := by simpa [ho, laneId?] using hid
    rw [isComment, ← head?_of_read_laneOpen hread, head?_of_read_laneOpen ho] at hc
    simp [isComment, of_decide_eq_true hc] at hplain
  | _ => simp [ho, laneId?] at hid

/-- An edge that a comment draws is lost with it, for there is one edge less. -/
theorem ends?_eq_none (h : SameEntities (ofText (withoutComments text)) (ofText text))
    (hl : line ∈ writtenLines text) (hc : isComment line = true) : ends? (read line) = none := by
  have hends := map_ends_edgesFrom.symm.trans ((congrArg _ h.edges).trans map_ends_edgesFrom)
  rw [line_sourceLines, line_sourceLines, writtenLines_withoutComments, List.filterMap_map,
    List.filterMap_map] at hends
  exact eq_none_of_length_filter (f := ends? ∘ read) (congrArg _ hends) hl (by rw [hc]; rfl)

theorem silent_of_sameEntities (h : SameEntities (ofText (withoutComments text)) (ofText text))
    (hl : line ∈ writtenLines text) (hn : '\n' ∉ line) (hc : isComment line = true) : Silent line := by
  rcases read_comment_cases hc with hlane | ⟨_, hedge | ⟨_, hread⟩⟩
  · obtain ⟨_, _, hopen⟩ := Option.map_eq_some_iff.1 hlane
    exact absurd hopen.symm (read_ne_laneOpen h hl hc)
  · obtain ⟨_, _, _, _, _, hline⟩ := exists_of_edge? hedge
    have hends := ends?_eq_none h hl hc
    rw [hline] at hends
    simp [ends?] at hends
  · exact (read_comment_iff hn hc).1 hread

/-- A line that begins with a number sign declares nothing just when no brace in it opens a lane and
it has not the shape of an edge; without such lines the nodes, the edges and the ids of the lanes
are as they are with them just when all of them are so. -/
theorem comments_declare_nothing_iff (line text : Text) :
    ('\n' ∉ line → isComment line = true →
      (read line = .skipped (trim line) .comment ↔ Silent line)) ∧
    (SameEntities (ofText (withoutComments text)) (ofText text) ↔
      ∀ line ∈ segments text, isComment line = true → Silent line) := by
  refine ⟨read_comment_iff, ?_⟩
  constructor
  · intro h line hl hc
    have hne : trim line ≠ [] := by
      intro hnil
      simp [isComment, hnil] at hc
    have hwritten : trim line ∈ writtenLines text := by
      rw [writtenLines_eq]
      exact List.mem_filter.2 ⟨List.mem_map_of_mem hl, by simpa using hne⟩
    have hn : '\n' ∉ trim line := fun hm => (breakFree_of_mem_segments hl).1 (mem_of_mem_trim hm)
    exact silent_trim.1 (silent_of_sameEntities h hwritten hn (by rwa [isComment_trim]))
  · intro h
    apply sameEntities_filter
    intro line hl hc
    rw [writtenLines_eq] at hl
    obtain ⟨whole, hwhole, rfl⟩ := List.mem_map.1 (List.mem_filter.1 hl).1
    rw [isComment_trim] at hc
    have hread := (read_comment_iff (breakFree_of_mem_segments hwhole).1 hc).2 (h whole hwhole hc)
    rw [read_trim, hread]
    rfl

theorem silent_comment_left_out : SameEntities
    (ofText (withoutComments "# Users\na \x7b\nn1: circle\n\x7d".toList))
    (ofText "# Users\na \x7b\nn1: circle\n\x7d".toList) := by
  obtain ⟨hline, htext⟩ := comments_declare_nothing_iff "# Users".toList
    "# Users\na \x7b\nn1: circle\n\x7d".toList
  have hsilent : Silent "# Users".toList := (hline (by decide) (by decide)).1 rfl
  refine htext.2 ?_
  intro line hl hc
  have hlines : segments "# Users\na \x7b\nn1: circle\n\x7d".toList =
      ["# Users".toList, "a \x7b".toList, "n1: circle".toList, "\x7d".toList] := by decide +kernel
  rw [hlines] at hl
  simp only [List.mem_cons, List.not_mem_nil, or_false] at hl
  rcases hl with rfl | rfl | rfl | rfl
  · exact hsilent
  all_goals exact absurd hc (by decide)

/-- A comment with the shape of an edge is read as one, and is lost with the comments. -/
theorem comment_draws_edge : isComment "# n1.handle(right) -> n2.handle(left)".toList = true ∧
    ends? (read "# n1.handle(right) -> n2.handle(left)".toList) =
      some ("# n1".toList, "n2".toList) ∧
    (ofText "# n1.handle(right) -> n2.handle(left)".toList).edges.map Edge.ends =
      [("# n1".toList, "n2".toList)] ∧
    (ofText (withoutComments "# n1.handle(right) -> n2.handle(left)".toList)).edges = [] := by
  decide +kernel

end Graph

end Swimlane
