import Swimlane.Proofs.Diagram.EdgeLine
import Swimlane.Proofs.Diagram.Reading

/-! The lanes that lines draw. A lane that is opened without a label has its label from a comment on the
next line that is not blank, so that a line in between covers the comment. -/
namespace Swimlane

open Text Line

variable {laneKind : Text → Text → LaneKind} {seen others : List Text} {id label : Text}
  {hint name : Option Text}
  {above below other : List SourceLine} {line last : SourceLine} {lanes : List Lane}

/-- The label in a comment on the first line. -/
def hintOf (lines : List SourceLine) : Option Text := lines.head?.bind fun next => commentLabel? next.text

def laneIds (lines : List SourceLine) : List Text := lines.filterMap fun line => laneId? line.line

/-- The lanes of which one has another label, and the kind that goes with it. -/
def relabel (laneKind : Text → Text → LaneKind) (lanes : List Lane) : Text × Text → List Lane
  | (id, label) => lanes.map fun lane => if lane.id = id then ⟨id, label, laneKind id label⟩ else lane

theorem map_id_relabel (lanes : List Lane) (found : Text × Text) :
    (relabel laneKind lanes found).map Lane.id = lanes.map Lane.id := by
  rw [relabel, List.map_map]
  apply List.map_congr_left
  intro lane _
  rw [Function.comp_apply]
  split
  · next hid => exact hid.symm
  · rfl

theorem map_id_foldl_relabel (lanes : List Lane) (found : List (Text × Text)) :
    (found.foldl (relabel laneKind) lanes).map Lane.id = lanes.map Lane.id := by
  induction found generalizing lanes with
  | nil => rfl
  | cons first rest ih => rw [List.foldl_cons, ih, map_id_relabel]

theorem relabel_of_not_mem (h : id ∉ lanes.map Lane.id) : relabel laneKind lanes (id, label) = lanes := by
  have hsame : ∀ lane ∈ lanes,
      (if lane.id = id then ⟨id, label, laneKind id label⟩ else lane) = lane := by
    intro lane hlane
    apply if_neg
    rintro rfl
    exact h (List.mem_map.2 ⟨lane, hlane, rfl⟩)
  rw [relabel, List.map_congr_left hsame, List.map_id']

theorem relabel_append (lanes more : List Lane) (found : Text × Text) :
    relabel laneKind (lanes ++ more) found =
      relabel laneKind lanes found ++ relabel laneKind more found := List.map_append

theorem relabel_head {lane : Lane} (hid : lane.id = id) (hl : id ∉ lanes.map Lane.id) :
    relabel laneKind (lane :: lanes) (id, label) = ⟨id, label, laneKind id label⟩ :: lanes := by
  have hcons : relabel laneKind (lane :: lanes) (id, label) =
      ⟨id, label, laneKind id label⟩ :: relabel laneKind lanes (id, label) := by
    rw [relabel, List.map_cons, if_pos hid]
    rfl
  rw [hcons, relabel_of_not_mem hl]

theorem not_mem_lanesFrom (h : id ∈ seen) :
    id ∉ (lanesFrom laneKind seen below).map Lane.id := by
  intro hmem
  rw [map_id_lanesFrom, mem_newLanes] at hmem
  exact hmem.2 h

/-- A line that opens no lane draws none. -/
theorem lanesFrom_inner (h : laneId? line.line = none) :
    lanesFrom laneKind seen (line :: below) = lanesFrom laneKind seen below := by
  rw [lanesFrom]
  cases hline : line.line with
  | laneOpen id name => simp [hline, laneId?] at h
  | _ => rfl

theorem lanesFrom_seen (hline : line.line = .laneOpen id name) (hid : id ∈ seen) :
    lanesFrom laneKind seen (line :: below) = lanesFrom laneKind seen below := by
  rw [lanesFrom, hline]
  exact if_pos hid

theorem lanesFrom_new (hline : line.line = .laneOpen id name) (hid : id ∉ seen) :
    lanesFrom laneKind seen (line :: below) =
      ⟨id, laneLabel id name below, laneKind id (laneLabel id name below)⟩ ::
        lanesFrom laneKind (id :: seen) below := by
  rw [lanesFrom, hline]
  exact if_neg hid

theorem lanesFrom_congr (h : ∀ id, id ∈ seen ↔ id ∈ others) :
    lanesFrom laneKind seen below = lanesFrom laneKind others below := by
  induction below generalizing seen others with
  | nil => rfl
  | cons line rest ih =>
    cases hline : line.line with
    | laneOpen id name =>
      by_cases hid : id ∈ seen
      · rw [lanesFrom_seen hline hid, lanesFrom_seen hline ((h id).1 hid), ih h]
      · have hmore : ∀ other, other ∈ id :: seen ↔ other ∈ id :: others := by
          intro other
          rw [List.mem_cons, List.mem_cons, h]
        rw [lanesFrom_new hline hid, lanesFrom_new hline fun ho => hid ((h id).2 ho), ih hmore]
    | _ =>
      have hinner : laneId? line.line = none := by
        rw [hline]
        rfl
      rw [lanesFrom_inner hinner, lanesFrom_inner hinner, ih h]

/-- What lines above draw depends on the lines below only by the comment on the first of them. -/
theorem lanesFrom_append (laneKind : Text → Text → LaneKind) (hint : Option Text) (seen : List Text)
    (above : List SourceLine) : ∃ upper,
      (∀ below, hintOf below = hint → lanesFrom laneKind seen (above ++ below) =
        upper ++ lanesFrom laneKind (laneIds above ++ seen) below) ∧
      ∀ lane ∈ upper, lane.id ∈ laneIds above := by
  induction above generalizing seen with
  | nil => exact ⟨[], fun _ _ => rfl, by simp⟩
  | cons line rest ih =>
    cases hline : line.line with
    | laneOpen id name =>
      have hids : laneIds (line :: rest) = id :: laneIds rest := by simp [laneIds, hline, laneId?]
      by_cases hseen : id ∈ seen
      · obtain ⟨upper, hlanes, hupper⟩ := ih seen
        have hsame : ∀ other, other ∈ laneIds rest ++ seen ↔ other ∈ id :: laneIds rest ++ seen := by
          intro other
          rw [List.cons_append, List.mem_cons, or_iff_right_of_imp]
          rintro rfl
          exact List.mem_append_right _ hseen
        refine ⟨upper, fun below hbelow => ?_, fun lane hlane => ?_⟩
        · rw [List.cons_append, lanesFrom_seen hline hseen, hlanes below hbelow, hids,
            lanesFrom_congr hsame]
        · rw [hids]
          exact List.mem_cons_of_mem id (hupper lane hlane)
      · obtain ⟨upper, hlanes, hupper⟩ := ih (id :: seen)
        -- The comment that counts is on the next of the lines above, if there is one.
        have hnext : ∃ label, ∀ below, hintOf below = hint →
            laneLabel id name (rest ++ below) = label := by
          cases rest with
          | nil => exact ⟨_, fun below hbelow => by rw [List.nil_append, laneLabel, ← hintOf, hbelow]⟩
          | cons next more => exact ⟨laneLabel id name (next :: more), fun below _ => rfl⟩
        obtain ⟨label, hlabel⟩ := hnext
        refine ⟨⟨id, label, laneKind id label⟩ :: upper, fun below hbelow => ?_, fun lane hlane => ?_⟩
        · rw [List.cons_append, lanesFrom_new hline hseen, hlabel below hbelow, hlanes below hbelow,
            hids, List.cons_append, lanesFrom_congr fun other => List.perm_middle.mem_iff]
          rfl
        · rw [hids]
          rcases List.mem_cons.1 hlane with rfl | hlane
          · exact List.mem_cons_self
          · exact List.mem_cons_of_mem id (hupper lane hlane)
    | _ =>
      obtain ⟨upper, hlanes, hupper⟩ := ih seen
      have hinner : laneId? line.line = none := by
        rw [hline]
        rfl
      have hids : laneIds (line :: rest) = laneIds rest := List.filterMap_cons_none hinner
      refine ⟨upper, fun below hbelow => ?_, fun lane hlane => ?_⟩
      · rw [List.cons_append, lanesFrom_inner hinner, hlanes below hbelow, hids]
      · rw [hids]
        exact hupper lane hlane

/-- Lines that draw the same below, and begin with the same comment, draw the same below any others. -/
theorem lanesFrom_append_congr (hhint : hintOf below = hintOf other)
    (h : ∀ seen, lanesFrom laneKind seen below = lanesFrom laneKind seen other) :
    lanesFrom laneKind seen (above ++ below) = lanesFrom laneKind seen (above ++ other) := by
  obtain ⟨upper, hlanes, _⟩ := lanesFrom_append laneKind (hintOf other) seen above
  rw [hlanes below hhint, hlanes other rfl, h]

/-- A line that opens no lane and is no comment. -/
structure SourceLine.Solid (line : SourceLine) : Prop where
  opens : laneId? line.line = none
  comment : commentLabel? line.text = none

theorem hintOf_solid (h : line.Solid) : hintOf (line :: below) = none := h.comment

/-- The lane that a line opens, if it does so for the first time and without a label. -/
def bareId? (seen : List Text) (line : SourceLine) : Option Text :=
  match line.line with
  | .laneOpen id none => if id ∈ seen then none else some id
  | _ => none

/-- The lane that is opened in the last line, if it is for the first time and without a label. -/
def bareOpening? (above : List SourceLine) : Option Text :=
  above.getLast?.bind (bareId? (laneIds above.dropLast))

/-- The lane that finds its label below, and the label. -/
def uncovered? (above below : List SourceLine) : Option (Text × Text) :=
  (bareOpening? above).bind fun id => (hintOf below).map (id, ·)

theorem not_mem_of_bareId? (h : bareId? seen line = some id) : id ∉ seen := by
  rw [bareId?] at h
  split at h
  · split at h
    · cases h
    · next hid =>
      cases h
      exact hid
  · cases h

/-- The opening above a solid line finds its label below when the line is taken out. -/
theorem lanesFrom_cons_remove (h : line.Solid) : lanesFrom laneKind seen (last :: below) =
    ((bareId? seen last).bind fun id => (hintOf below).map (id, ·)).toList.foldl (relabel laneKind)
      (lanesFrom laneKind seen (last :: line :: below)) := by
  cases hlast : last.line with
  | laneOpen id name =>
    by_cases hid : id ∈ seen
    · have hbare : bareId? seen last = none := by
        rw [bareId?, hlast]
        cases name <;> simp [hid]
      rw [lanesFrom_seen hlast hid, lanesFrom_seen hlast hid, lanesFrom_inner h.opens, hbare]
      rfl
    · rw [lanesFrom_new hlast hid, lanesFrom_new hlast hid, lanesFrom_inner h.opens, laneLabel,
        laneLabel, ← hintOf, ← hintOf, hintOf_solid h]
      cases name with
      | some name =>
        have hbare : bareId? seen last = none := by rw [bareId?, hlast]
        rw [hbare]
        rfl
      | none =>
        have hbare : bareId? seen last = some id := by
          rw [bareId?, hlast]
          exact if_neg hid
        rw [hbare]
        cases hintOf below with
        | none => rfl
        | some label =>
          have hlower : id ∉ (lanesFrom laneKind (id :: seen) below).map Lane.id :=
            not_mem_lanesFrom List.mem_cons_self
          have hrelabel : relabel laneKind
              (⟨id, id, laneKind id id⟩ :: lanesFrom laneKind (id :: seen) below) (id, label) =
            ⟨id, label, laneKind id label⟩ :: lanesFrom laneKind (id :: seen) below :=
              relabel_head rfl hlower
          exact hrelabel.symm
  | _ =>
    have hbare : bareId? seen last = none := by rw [bareId?, hlast]
    have hinner : laneId? last.line = none := by
      rw [hlast]
      rfl
    rw [lanesFrom_inner hinner, lanesFrom_inner hinner, lanesFrom_inner h.opens, hbare]
    rfl

/-- A solid line that is taken out lets at most one lane have another label, from the comment that the
line covered. -/
theorem lanesFrom_remove (h : line.Solid) : lanesFrom laneKind [] (above ++ below) =
    (uncovered? above below).toList.foldl (relabel laneKind)
      (lanesFrom laneKind [] (above ++ line :: below)) := by
  rcases List.eq_nil_or_concat above with rfl | ⟨rest, last, rfl⟩
  · rw [List.nil_append, List.nil_append, lanesFrom_inner h.opens]
    rfl
  · obtain ⟨upper, hlanes, hupper⟩ := lanesFrom_append laneKind (commentLabel? last.text) [] rest
    have hfound : uncovered? (rest ++ [last]) below =
        (bareId? (laneIds rest) last).bind fun id => (hintOf below).map (id, ·) := by
      rw [uncovered?, bareOpening?, List.getLast?_concat, List.dropLast_concat, Option.bind_some]
    rw [List.concat_eq_append, List.append_assoc, List.append_assoc, List.singleton_append,
      List.singleton_append, hlanes (last :: below) rfl, hlanes (last :: line :: below) rfl,
      List.append_nil, hfound, lanesFrom_cons_remove h]
    cases hbare : bareId? (laneIds rest) last with
    | none => rfl
    | some id =>
      cases hintOf below with
      | none => rfl
      | some label =>
        have habove : id ∉ upper.map Lane.id := by
          intro hmem
          obtain ⟨lane, hlane, rfl⟩ := List.mem_map.1 hmem
          exact not_mem_of_bareId? hbare (hupper lane hlane)
        exact (congrArg (· ++ _) (relabel_of_not_mem habove)).symm.trans
          (relabel_append upper _ (id, label)).symm

/-- The lines that are not blank, without their numbers, which do not count for the lanes. -/
def readLines (lines : List Text) : List SourceLine :=
  lines.filterMap fun line => (nonempty? (trim line)).map fun text => ⟨0, text, Line.read text⟩

/-- The lanes that the lines of a text draw. -/
def lanesOf (lines : List Text) : List Lane :=
  lanesFrom Classifier.byWords.laneKind [] (readLines lines)

theorem readLines_append (above below : List Text) :
    readLines (above ++ below) = readLines above ++ readLines below := List.filterMap_append

theorem lanesFrom_unnumbered (lines : List SourceLine) :
    lanesFrom laneKind seen (lines.map fun line => { line with number := 0 }) =
      lanesFrom laneKind seen lines := by
  induction lines generalizing seen with
  | nil => rfl
  | cons line rest ih =>
    have hlabel : ∀ id label, laneLabel id label (rest.map fun line => { line with number := 0 }) =
        laneLabel id label rest := by
      intro id label
      cases rest <;> rfl
    rw [List.map_cons, lanesFrom, lanesFrom]
    cases hline : line.line with
    | laneOpen id label => simp only [hlabel, ih]
    | _ => exact ih

theorem lanes_ofText (text : Text) : (Graph.ofText text).lanes = lanesOf (segments text) := by
  have hparts : ∀ (parts : List Text) (number : Nat),
      (((parts.zipIdx number).filterMap fun (line, number) =>
        (nonempty? (trim line)).map (NumberedLine.mk number ·)).map fun line =>
          SourceLine.mk 0 line.text (Line.read line.text)) = readLines parts := by
    intro parts
    induction parts with
    | nil => intro number; rfl
    | cons part rest ih =>
      intro number
      rw [List.zipIdx_cons, readLines, List.filterMap_cons, List.filterMap_cons]
      cases ht : nonempty? (trim part) with
      | none => simpa [ht, readLines] using ih _
      | some text => simpa [ht, readLines] using ih _
  have hlines : (sourceLines text).map (fun line => { line with number := 0 }) =
      readLines (segments text) := by
    rw [sourceLines, List.map_map, ← hparts _ 1, numberedLines, segments]
    rfl
  rw [lanesOf, ← hlines, lanesFrom_unnumbered]
  rfl

/-- Joined lines draw the lanes that the lines draw, also if there are none. -/
theorem lanes_join {lines : List Text} (newline : Newline) (h : ∀ line ∈ lines, BreakFree line) :
    (Graph.ofText (newline.join lines)).lanes = lanesOf lines := by
  by_cases hne : lines = []
  · subst hne
    cases newline <;> rfl
  · rw [lanes_ofText, segments_join_lines newline hne h]

/-- A line that is not blank, opens no lane and is no comment, so that it covers the one below it. -/
structure Covers (line : Text) : Prop where
  opens : laneId? (Line.read line) = none
  start : ∃ c ∈ (trim line).head?, c ≠ '#'

theorem readLines_covers {line : Text} (h : Covers line) : ∃ source : SourceLine, source.Solid ∧
    ∀ below, readLines (line :: below) = source :: readLines below := by
  obtain ⟨hopens, c, hc, hmark⟩ := h
  obtain ⟨rest, htrim⟩ := List.head?_eq_some_iff.1 hc
  refine ⟨⟨0, trim line, Line.read (trim line)⟩, ⟨by rw [read_trim]; exact hopens, ?_⟩, fun below => ?_⟩
  · rw [htrim, commentLabel?]
    intro more heq
    exact hmark (List.cons.inj heq).1
  · rw [readLines, List.filterMap_cons, htrim]
    rfl

section Covers

variable {above below : List Text} {line new : Text}

/-- A line may be put in above one that covers what is below. -/
theorem lanesOf_insert_above (hn : Covers new) (h : Covers line) :
    lanesOf (above ++ new :: line :: below) = lanesOf (above ++ line :: below) := by
  obtain ⟨added, hadded, hnew⟩ := readLines_covers hn
  obtain ⟨source, hsource, hline⟩ := readLines_covers h
  rw [lanesOf, lanesOf, readLines_append, readLines_append, hnew, hline]
  exact lanesFrom_append_congr ((hintOf_solid hadded).trans (hintOf_solid hsource).symm)
    fun seen => lanesFrom_inner hadded.opens

/-- A line may be put in below one that covers what is below. -/
theorem lanesOf_insert_below (hn : Covers new) (h : Covers line) :
    lanesOf (above ++ line :: new :: below) = lanesOf (above ++ line :: below) := by
  obtain ⟨added, hadded, hnew⟩ := readLines_covers hn
  obtain ⟨source, hsource, hline⟩ := readLines_covers h
  rw [lanesOf, lanesOf, readLines_append, readLines_append, hline, hline, hnew]
  refine lanesFrom_append_congr ((hintOf_solid hsource).trans (hintOf_solid hsource).symm)
    fun seen => ?_
  rw [lanesFrom_inner hsource.opens, lanesFrom_inner hsource.opens, lanesFrom_inner hadded.opens]

theorem lanesOf_replace (hn : Covers new) (h : Covers line) :
    lanesOf (above ++ new :: below) = lanesOf (above ++ line :: below) := by
  obtain ⟨written, hwritten, hnew⟩ := readLines_covers hn
  obtain ⟨source, hsource, hline⟩ := readLines_covers h
  rw [lanesOf, lanesOf, readLines_append, readLines_append, hnew, hline]
  refine lanesFrom_append_congr ((hintOf_solid hwritten).trans (hintOf_solid hsource).symm)
    fun seen => ?_
  rw [lanesFrom_inner hwritten.opens, lanesFrom_inner hsource.opens]

theorem lanesOf_remove (h : Covers line) : lanesOf (above ++ below) =
    (uncovered? (readLines above) (readLines below)).toList.foldl
      (relabel Classifier.byWords.laneKind) (lanesOf (above ++ line :: below)) := by
  obtain ⟨source, hsource, hline⟩ := readLines_covers h
  rw [lanesOf, lanesOf, readLines_append, readLines_append, hline]
  exact lanesFrom_remove hsource

theorem covers_of_name {name rest : Text} (hl : laneId? (Line.read line) = none) (hname : IsName name)
    (ht : trim line = name ++ rest) : Covers line := by
  obtain ⟨c, more, rfl⟩ := List.exists_cons_of_ne_nil hname.1
  refine ⟨hl, c, by rw [ht]; rfl, ?_⟩
  rintro rfl
  exact absurd (hname.2 '#' (by simp)) (by decide)

theorem covers_of_node (h : nodeId? (Line.read line) = some id) : Covers line := by
  cases hr : Line.read line with
  | node name shape attributes =>
    obtain ⟨head, gap, rest, right, _, hhead, htrim, _⟩ := exists_nodeHead_of_read hr
    cases hhead with
    | intro hm hname hg => exact covers_of_name (by rw [hr]; rfl) hname htrim
  | _ => simp [hr, nodeId?] at h

theorem covers_of_close (h : Line.read line = .laneClose) : Covers line := by
  refine ⟨by rw [h]; rfl, '\x7d', ?_, by decide⟩
  rw [trim_of_read_close h]
  rfl

/-- A line that is found as an edge begins with the edge's source, or with its lane. -/
theorem covers_of_isEdgeBetween {source target : Text} (hl : laneId? (Line.read line) = none)
    (hs : IsName source) (h : Patch.isEdgeBetween source target line = true) : Covers line := by
  obtain ⟨start, hstart, hbetween⟩ := List.any_eq_true.1 h
  obtain ⟨blanks, mark, rfl, hblanks, hmark⟩ := mem_nameStarts_iff.1 hstart
  split at hbetween
  · next rest hrest =>
    obtain ⟨_, hhandle, _⟩ := Option.bind_eq_some_iff.1 hrest
    obtain ⟨tail, htail, _⟩ := Option.bind_eq_some_iff.1 hhandle
    obtain ⟨first, name, rfl⟩ := List.exists_cons_of_ne_nil hs.1
    have hfirst : ∃ c more, mark ++ start = c :: more ∧ (isWord c = true ∨ c = '.') := by
      rw [after?_eq_some htail]
      cases mark with
      | nil => exact ⟨first, _, rfl, Or.inl (hs.2 first (by simp))⟩
      | cons c more => exact ⟨c, _, rfl, isWord_of_mem_mark hmark (by simp)⟩
    obtain ⟨c, more, hstart, hc⟩ := hfirst
    refine ⟨hl, c, ?_, ?_⟩
    · rw [hstart, trim_margin_cons hblanks]
      · rfl
      · rcases hc with hc | rfl
        · exact isBlank_of_isWord hc
        · decide
    · rintro rfl
      revert hc
      decide
  · simp at hbetween

end Covers

end Swimlane
