import Swimlane.Proofs.Diagram.EdgeLine

/-! Lines that begin as a node's line, whatever stands behind its shape: no update changes whose node
it is, and none is found as an edge. -/
namespace Swimlane

open Text Escaped Line Patch

variable {line new head id key value source target : Text} {shape : Shape}
  {attributes : Attributes}

/-- A line that begins with blanks, an identifier, a colon, blanks and the name of a shape. -/
def BeginsNode (id line : Text) : Prop :=
  ∃ shape head rest, line = head ++ rest ∧ NodeHead id shape head ∧ rest.head?.any isWord = false

theorem beginsNode_of_read (h : Line.read line = .node id shape attributes) : BeginsNode id line := by
  obtain ⟨head, _, rest, right, hline, hhead, _, hword, _⟩ := exists_nodeHead_of_read h
  exact ⟨shape, head, rest ++ right, hline, hhead, hword⟩

/-- A line begins as the line of one node at most. -/
theorem beginsNode_unique {other : Text} (h : BeginsNode id line) (ho : BeginsNode other line) :
    id = other := by
  have hword : ∀ {name : Text}, BeginsNode name line → (trimLeft line).takeWhile isWord = name := by
    rintro name ⟨shape, head, rest, rfl, hhead, _⟩
    cases hhead with
    | intro hm hid hg =>
      rw [List.append_assoc, trimLeft_margin hm, List.append_assoc, trimLeft_name hid]
      exact takeWhile_name hid (by decide)
  exact (hword h).symm.trans (hword ho)

theorem beginsNode_setAttribute (key value : Text) (h : BeginsNode id line) :
    BeginsNode id (setAttribute line key value) := by
  obtain ⟨shape, head, rest, rfl, hh, hr⟩ := h
  rcases setAttribute_cases (head ++ rest) key value with
    ⟨left, between, body, right, hline, hkey, hbetween, hset⟩ | hset
  · have hmark : '"' ∉ head := nodeHead_not_mem hh (by decide) (by decide) (by decide)
    rw [← List.append_assoc left] at hline
    obtain ⟨more, hmore⟩ := exists_of_append_between hmark (nodeHead_isWord hh) hbetween hline
    have hrest : rest = more ++ (between ++ '"' :: (body ++ '"' :: right)) := by
      rw [hmore, List.append_assoc] at hline
      exact List.append_cancel_left hline
    refine ⟨shape, head, more ++ (writtenValue value ++ right), ?_, hh, ?_⟩
    · rw [hset, ← List.append_assoc left, hmore, List.append_assoc]
    · cases more with
      | nil => simp [writtenValue]; decide
      | cons c tail => simpa [hrest] using hr
  · obtain ⟨c, hc, hw⟩ := nodeHead_isWord hh
    refine ⟨shape, head, trimRight rest ++ ' ' :: (key ++ writtenValue value), ?_, hh, ?_⟩
    · rw [hset, trimRight_append ⟨c, hc, isBlank_of_isWord hw⟩, List.append_assoc]
    · obtain ⟨right, hright, _⟩ := exists_trimRight rest
      cases ht : trimRight rest with
      | nil => simp; decide
      | cons d tail =>
        rw [hright, ht] at hr
        simpa using hr

theorem beginsNode_setShape (other : Shape) (h : BeginsNode id line) :
    BeginsNode id (setShape line other) := by
  obtain ⟨shape, head, rest, rfl, hh, hr⟩ := h
  cases hh with
  | intro hm hid hg =>
    rw [setShape_append hm hid hg hr]
    exact ⟨other, _, rest, rfl, .intro hm hid hg, hr⟩

theorem beginsNode_updateLine (h : BeginsNode id line) (hu : updateLine line key value = .ok new) :
    BeginsNode id new := by
  rw [updateLine] at hu
  split at hu
  · split at hu
    · cases hu
      exact beginsNode_setShape _ h
    · cases hu
  · cases hu
    exact beginsNode_setAttribute key value h

/-- Whatever the keys and the values are, an updated line begins as it did. -/
theorem beginsNode_updateAll {updates : List (Text × Text)} (h : BeginsNode id line)
    (hu : updateAll line updates = .ok new) : BeginsNode id new := by
  induction updates generalizing line with
  | nil =>
    cases hu
    exact h
  | cons update rest ih =>
    cases hfirst : updateLine line update.1 update.2 with
    | error reason => simp [updateAll, hfirst, bind, Except.bind] at hu
    | ok first =>
      apply ih (beginsNode_updateLine h hfirst)
      simpa [updateAll, hfirst, bind, Except.bind] using hu

theorem beginsNode_renderNode (shape : Shape) (attributes : List (Text × Text)) (hid : IsName id) :
    BeginsNode id (renderNode id shape attributes) := by
  refine ⟨shape, _, _, renderNode_eq id shape attributes, nodeHead_indent hid, ?_⟩
  cases attributes with
  | nil => rfl
  | cons entry rest => simp; decide

theorem colon_mem_of_nodeHead (h : NodeHead id shape head) : ':' ∈ head := by
  cases h with
  | intro => simp

theorem trim_ne_close_of_beginsNode (h : BeginsNode id line) : trim line ≠ ['\x7d'] := by
  obtain ⟨shape, head, rest, rfl, hh, _⟩ := h
  have hcolon := List.mem_append_left rest (colon_mem_of_nodeHead hh)
  exact trim_ne_close hcolon (by decide) (by decide)

/-- Up to the point of its source's handle an edge's line has a colon only if the source has one. -/
theorem exists_handle_of_isEdgeBetween (hs : ':' ∉ source)
    (h : isEdgeBetween source target line = true) :
    ∃ before after, line = before ++ '.' :: after ∧ ':' ∉ before := by
  obtain ⟨name, hname, hbetween⟩ := List.any_eq_true.1 h
  obtain ⟨blanks, mark, rfl, hblanks, hmark⟩ := mem_nameStarts_iff.1 hname
  split at hbetween
  · next rest hrest =>
    obtain ⟨⟨handle, after⟩, hhandle, _⟩ := Option.bind_eq_some_iff.1 hrest
    obtain ⟨more, hmore, hafter⟩ := Option.bind_eq_some_iff.1 hhandle
    obtain ⟨tail, htail, _⟩ := Option.bind_eq_some_iff.1 hafter
    refine ⟨blanks ++ mark ++ source, "handle(".toList ++ tail, ?_, ?_⟩
    · rw [after?_eq_some hmore, after?_eq_some htail, List.append_assoc, List.append_assoc]
      rfl
    · simp only [List.mem_append]
      rintro ((hm | hm) | hm)
      · exact absurd (hblanks _ hm) (by decide)
      · exact absurd (isWord_of_mem_mark hmark hm) (by decide)
      · exact hs hm
  · simp at hbetween

/-- The line of a node has its colon before any point, the line of an edge the other way round. -/
theorem not_beginsNode_of_isEdgeBetween (hs : ':' ∉ source)
    (h : isEdgeBetween source target line = true) : ¬ BeginsNode id line := by
  rintro ⟨shape, head, rest, hline, hh, _⟩
  obtain ⟨before, after, rfl, hbefore⟩ := exists_handle_of_isEdgeBetween hs h
  have hcolon := colon_mem_of_nodeHead hh
  have hpoint : '.' ∉ head := nodeHead_not_mem hh (by decide) (by decide) (by decide)
  rcases List.append_eq_append_iff.1 hline with ⟨tail, hhead, hafter⟩ | ⟨tail, hfirst, _⟩
  · cases tail with
    | nil => exact hbefore (by simpa [hhead] using hcolon)
    | cons c tail =>
      have hc : c = '.' := (List.cons.inj hafter).1.symm
      exact hpoint (by rw [hhead, hc]; simp)
  · exact hbefore (hfirst ▸ List.mem_append_left tail hcolon)

end Swimlane
