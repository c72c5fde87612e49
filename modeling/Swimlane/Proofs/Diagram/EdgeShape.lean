import Swimlane.Proofs.Diagram.EdgeLine

/-! Which text draws an edge, whatever its names and handles are: two names with a handle each, and
an arrow between them. -/
namespace Swimlane.Line

open Text

variable {text name handle rest before : Text} {source : EndPoint}

theorem trimLeft_arrow (text : Text) : trimLeft (arrow ++ text) = arrow ++ text := by
  have hdash : isBlank '-' = false := by decide
  exact trimLeft_eq_self (by simp [arrow, hdash])

/-- One end of an edge as it is written, with what stands behind it. -/
def writtenEnd (name handle rest : Text) : Text := name ++ (handleStart ++ (handle ++ ')' :: rest))

theorem mem_writtenEnd {c : Char} (h : c ∈ rest) : c ∈ writtenEnd name handle rest := by
  simp [writtenEnd, h]

/-- A name with its handle, and what stands behind them. -/
inductive NamedHandle (rest : Text) : Text → Prop
  | intro {name handle : Text} (hn : name ≠ []) (hh : IsHandle handle) :
      NamedHandle rest (writtenEnd name handle rest)

/-- Two named handles with an arrow between them, blanks before the arrow apart. -/
def EdgeShape (text : Text) : Prop := ∃ gap behind rest, (∀ c ∈ gap, isBlank c = true) ∧
  NamedHandle (gap ++ (arrow ++ behind)) text ∧ NamedHandle rest behind

theorem namedHandle_append (left : Text) (h : NamedHandle rest text) :
    NamedHandle rest (left ++ text) := by
  cases h with
  | @intro name handle hn hh =>
    rw [writtenEnd, ← List.append_assoc]
    exact .intro (by simp [hn]) hh

/-- An end of an edge is read where some name with a handle leads on. -/
theorem endPointFrom?_isSome_iff {α : Type} {lead : EndPoint → Option α} (hn : '\n' ∉ text) :
    (endPointFrom? lead before text).isSome ↔ ∃ name handle rest,
      text = writtenEnd name handle rest ∧ before.reverse ++ name ≠ [] ∧ IsHandle handle ∧
        (lead ⟨before.reverse ++ name, handle, rest⟩).isSome := by
  induction text generalizing before with
  | nil =>
    refine iff_of_false (by simp [endPointFrom?]) ?_
    rintro ⟨name, handle, rest, hshape, _⟩
    simp [writtenEnd] at hshape
  | cons c more ih =>
    have hc : c ≠ '\n' := fun he => hn (he ▸ List.mem_cons_self)
    have hmore := @ih (c :: before) fun hm => hn (List.mem_cons_of_mem c hm)
    rw [endPointFrom?]
    constructor
    · intro h
      split at h
      · next found hfound =>
        obtain ⟨⟨handle, rest⟩, hhandle, hlead⟩ := Option.bind_eq_some_iff.1 hfound
        split at hhandle
        · simp at hhandle
        · next hbefore =>
          obtain ⟨htext, hh⟩ := handle?_eq_some_iff.1 hhandle
          refine ⟨[], handle, rest, htext, by simpa using hbefore, hh, ?_⟩
          rw [List.append_nil]
          exact Option.isSome_iff_exists.2 ⟨found, hlead⟩
      · rw [if_neg hc] at h
        obtain ⟨name, handle, rest, rfl, _, hh, hlead⟩ := hmore.1 h
        exact ⟨c :: name, handle, rest, rfl, by simp, hh, by simpa using hlead⟩
    · rintro ⟨name, handle, rest, htext, hne, hh, hlead⟩
      split
      · rfl
      · next hnone =>
        rw [if_neg hc]
        cases name with
        | nil =>
          -- A handle that stands here would have been read.
          have hbefore : before ≠ [] := by simpa using hne
          rw [writtenEnd, List.nil_append] at htext
          rw [htext, handle?_append hh] at hnone
          simp only [List.append_nil] at hlead
          simp [hbefore, Option.isSome_iff_ne_none.1 hlead] at hnone
        | cons d name =>
          obtain ⟨rfl, hrest⟩ := List.cons.inj htext
          exact hmore.2 ⟨name, handle, rest, hrest, by simp, hh, by simpa using hlead⟩

theorem exists_namedHandle_iff (hn : '\n' ∉ text) :
    (endPointFrom? some [] text).isSome ↔ ∃ rest, NamedHandle rest text := by
  rw [endPointFrom?_isSome_iff hn]
  constructor
  · rintro ⟨name, handle, rest, rfl, hne, hh, _⟩
    exact ⟨rest, .intro hne hh⟩
  · rintro ⟨rest, ⟨hne, hh⟩⟩
    exact ⟨_, _, rest, rfl, hne, hh, rfl⟩

/-- If only blanks stand before the handle, then the last of them is the name. -/
theorem target?_blanks {blanks : Text} (hn : '\n' ∉ blanks) (hne : blanks ≠ [])
    (hb : ∀ c ∈ blanks, isBlank c = true) (hh : IsHandle handle) :
    (target? (writtenEnd blanks handle rest)).isSome := by
  have hdot : isBlank '.' = false := by decide
  have hstart : handleStart ++ (handle ++ ')' :: rest) =
      '.' :: ("handle(".toList ++ (handle ++ ')' :: rest)) := rfl
  have htake : (writtenEnd blanks handle rest).takeWhile isBlank = blanks := by
    rw [writtenEnd, List.takeWhile_append_of_pos hb, hstart, List.takeWhile_cons_of_neg (by simp [hdot]),
      List.append_nil]
  have htrim : trimLeft (writtenEnd blanks handle rest) = handleStart ++ (handle ++ ')' :: rest) := by
    rw [writtenEnd, trimLeft_margin hb, hstart, trimLeft_eq_self (by simp [hdot])]
  have hlast : blanks.getLast hne ≠ '\n' := fun he => hn (he ▸ List.getLast_mem hne)
  rw [target?]
  split
  · rfl
  · rw [htake, htrim, handle?_append hh, List.getLast?_eq_some_getLast hne]
    simp [hlast]

theorem target?_isSome_iff (hn : '\n' ∉ text) :
    (target? text).isSome ↔ ∃ rest, NamedHandle rest text := by
  have htext : text.takeWhile isBlank ++ trimLeft text = text := List.takeWhile_append_dropWhile
  have hplain : (endPointFrom? some [] (trimLeft text)).isSome ↔
      ∃ rest, NamedHandle rest (trimLeft text) :=
    exists_namedHandle_iff fun hm => hn (List.dropWhile_subset isBlank hm)
  constructor
  · intro h
    rw [target?] at h
    split at h
    · next point hpoint =>
      obtain ⟨rest, hshape⟩ := hplain.1 (Option.isSome_iff_exists.2 ⟨point, hpoint⟩)
      exact ⟨rest, htext ▸ namedHandle_append _ hshape⟩
    · split at h
      · next blank handle rest hblank hhandle =>
        obtain ⟨hshape, hh⟩ := handle?_eq_some_iff.1 hhandle
        have hne : text.takeWhile isBlank ≠ [] := by
          intro hnil
          simp [hnil] at hblank
        refine ⟨rest, ?_⟩
        rw [← htext, hshape]
        exact .intro hne hh
      · simp at h
  · rintro ⟨rest, hshape⟩
    cases hshape with
    | @intro name handle hne hh =>
      by_cases hblank : trimLeft name = []
      · exact target?_blanks (fun hm => hn (List.mem_append_left _ hm)) hne
          (trimLeft_eq_nil_iff.1 hblank) hh
      · rw [writtenEnd, trimLeft_append hblank] at hplain
        obtain ⟨point, hpoint⟩ := Option.isSome_iff_exists.1 (hplain.2 ⟨rest, .intro hblank hh⟩)
        rw [target?, writtenEnd, trimLeft_append hblank, hpoint]
        rfl

theorem edgeFrom?_isSome_iff (hn : '\n' ∉ source.rest) : (edgeFrom? source).isSome ↔
    ∃ gap behind rest, source.rest = gap ++ (arrow ++ behind) ∧ (∀ c ∈ gap, isBlank c = true) ∧
      NamedHandle rest behind := by
  constructor
  · intro h
    obtain ⟨line, hline⟩ := Option.isSome_iff_exists.1 h
    obtain ⟨behind, hbehind, htarget⟩ := Option.bind_eq_some_iff.1 hline
    obtain ⟨point, hpoint, _⟩ := Option.map_eq_some_iff.1 htarget
    obtain ⟨gap, hrest, hgap⟩ := exists_trimLeft source.rest
    rw [after?_eq_some hbehind] at hrest
    have hbreak : '\n' ∉ behind := fun hm => hn (by rw [hrest]; simp [hm])
    obtain ⟨rest, hshape⟩ := (target?_isSome_iff hbreak).1 (Option.isSome_iff_exists.2 ⟨point, hpoint⟩)
    exact ⟨gap, behind, rest, hrest, hgap, hshape⟩
  · rintro ⟨gap, behind, rest, hrest, hgap, hshape⟩
    have hbreak : '\n' ∉ behind := fun hm => hn (by rw [hrest]; simp [hm])
    have hskip : trimLeft source.rest = arrow ++ behind := by
      rw [hrest, trimLeft_margin hgap, trimLeft_arrow]
    obtain ⟨point, hpoint⟩ := Option.isSome_iff_exists.1 ((target?_isSome_iff hbreak).2 ⟨rest, hshape⟩)
    rw [edgeFrom?, hskip, after?_append, Option.bind_some, hpoint]
    rfl

/-- Text on one line is read as an edge just when it has the shape of one. -/
theorem edge?_isSome_iff (hn : '\n' ∉ text) : (edge? text).isSome ↔ EdgeShape text := by
  rw [edge?, endPointFrom?_isSome_iff hn]
  constructor
  · rintro ⟨name, handle, rest, rfl, hne, hh, hlead⟩
    have hbreak : '\n' ∉ rest := fun hm => hn (mem_writtenEnd hm)
    obtain ⟨gap, behind, more, rfl, hgap, hbehind⟩ := (edgeFrom?_isSome_iff hbreak).1 hlead
    exact ⟨gap, behind, more, hgap, .intro hne hh, hbehind⟩
  · rintro ⟨gap, behind, more, hgap, hfirst, hbehind⟩
    cases hfirst with
    | @intro name handle hne hh =>
      have hbreak : '\n' ∉ gap ++ (arrow ++ behind) := fun hm => hn (mem_writtenEnd hm)
      exact ⟨name, handle, _, rfl, hne, hh,
        (edgeFrom?_isSome_iff hbreak).2 ⟨gap, behind, more, rfl, hgap, hbehind⟩⟩

end Swimlane.Line
