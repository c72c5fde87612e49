import Swimlane.Proofs.Diagram.Reading

/-! What a line adds to a graph depends on its place alone: the lines above it say which lane is open
and where nodes were declared, and the line below a lane's opening may hold its label. -/
namespace Swimlane

open Text Line

variable {nodeKind : Shape → Text → NodeKind} {laneKind : Text → Text → LaneKind}
  {above below lines more : List SourceLine} {line opening : SourceLine} {id : Text}

def Line.closes : Line → Bool
  | .laneClose => true
  | _ => false

/-- The nearest line above that opens a lane, if no line in between closes one. -/
def openingAbove? (above : List SourceLine) : Option SourceLine :=
  (above.reverse.takeWhile fun line => !line.line.closes).find? fun line =>
    (laneId? line.line).isSome

/-- The lane that is open below some lines. -/
def laneAbove? (above : List SourceLine) : Option Text :=
  (openingAbove? above).bind fun line => laneId? line.line

/-- A line of a text, with the lines above it and those below. -/
structure Place where
  above : List SourceLine
  here : SourceLine
  below : List SourceLine

def placesFrom (above : List SourceLine) : List SourceLine → List Place
  | [] => []
  | line :: below => ⟨above, line, below⟩ :: placesFrom (above ++ [line]) below

/-- The places of all lines, in order. -/
def places (lines : List SourceLine) : List Place := placesFrom [] lines

/-- The lane of a node that is declared here. -/
def Place.lane (place : Place) : Text := (laneAbove? place.above).getD defaultLane

/-- The lane in which a node is declared last among some lines. -/
def declaredLane? (lines : List SourceLine) (id : Text) : Option Text :=
  (places lines).reverse.findSome? fun place =>
    if nodeId? place.here.line = some id then some place.lane else none

namespace Place

/-- The node that is declared here; its lane is the one that is open. -/
def node? (nodeKind : Shape → Text → NodeKind) (place : Place) : Option Node :=
  match place.here.line with
  | .node id shape attributes =>
    some { declaredNode nodeKind none id shape attributes with lane := place.lane }
  | _ => none

/-- The lane of one end of an edge: a name in front that is not empty, else the lane in which the node
was declared last. -/
def laneOf? (place : Place) (reference : Reference) : Option Text :=
  match reference.lane with
  | some (c :: name) => some (c :: name)
  | _ => declaredLane? place.above reference.node

def edge? (place : Place) : Option Edge :=
  match place.here.line with
  | .edge source target sourceHandle targetHandle label =>
    some {
      id := 'e' :: ofNat ((place.above.countP fun line => (ends? line.line).isSome) + 1)
      source := source.node
      target := target.node
      sourceHandle, targetHandle
      sourceLane := place.laneOf? source
      targetLane := place.laneOf? target
      label }
  | _ => none

/-- The label of a lane that is opened here: on this line, else in a comment on the next, else its id. -/
def label (place : Place) (id : Text) : Option Text → Text
  | some label => label
  | none =>
    match place.below with
    | [] => id
    | next :: _ =>
      match next.text with
      | '#' :: comment => if trim comment = [] then id else trim comment
      | _ => id

/-- The lane that is opened here for the first time. -/
def lane? (laneKind : Text → Text → LaneKind) (place : Place) : Option Lane :=
  match place.here.line with
  | .laneOpen id label =>
    if id ∈ place.above.filterMap fun line => laneId? line.line then none
    else some ⟨id, place.label id label, laneKind id (place.label id label)⟩
  | _ => none

end Place

theorem openingAbove?_concat : openingAbove? (above ++ [line]) =
    match line.line with
    | .laneOpen _ _ => some line
    | .laneClose => none
    | _ => openingAbove? above := by
  rw [openingAbove?, List.reverse_concat, List.takeWhile_cons]
  cases h : line.line <;> simp [closes, laneId?, h, openingAbove?]

theorem laneAbove?_concat : laneAbove? (above ++ [line]) = laneAfter (laneAbove? above) line.line := by
  rw [laneAbove?, openingAbove?_concat]
  cases h : line.line <;> simp [laneAbove?, laneAfter, laneId?, h]

/-- A line that neither opens nor closes a lane. -/
def SourceLine.Inner (line : SourceLine) : Prop :=
  laneId? line.line = none ∧ line.line.closes = false

theorem openingAbove?_eq_some_iff : openingAbove? above = some opening ↔
    (laneId? opening.line).isSome ∧
      ∃ before between, above = before ++ opening :: between ∧ ∀ line ∈ between, line.Inner := by
  induction above using List.reverseRecOn with
  | nil => simp [openingAbove?]
  | append_singleton rest line ih =>
    constructor
    · intro h
      rw [openingAbove?_concat] at h
      have hrest : openingAbove? rest = some opening → line.Inner →
          (laneId? opening.line).isSome ∧ ∃ before between,
            rest ++ [line] = before ++ opening :: between ∧ ∀ line ∈ between, line.Inner := by
        intro hopening hinner
        obtain ⟨hsome, before, between, rfl, hbetween⟩ := ih.1 hopening
        refine ⟨hsome, before, between ++ [line], by simp, ?_⟩
        simpa [or_imp, forall_and] using ⟨hbetween, hinner⟩
      cases hline : line.line with
      | laneOpen id label =>
        simp only [hline, Option.some.injEq] at h
        subst h
        exact ⟨by rw [hline]; rfl, rest, [], rfl, by simp⟩
      | laneClose => simp [hline] at h
      | _ => exact hrest (by simpa [hline] using h) (by simp [SourceLine.Inner, hline, laneId?, closes])
    · rintro ⟨hsome, before, between, hlines, hbetween⟩
      rw [openingAbove?_concat]
      rcases List.eq_nil_or_concat between with rfl | ⟨between, last, rfl⟩
      · obtain ⟨rfl, hlast⟩ := List.append_inj' hlines rfl
        cases hlast
        cases hline : opening.line <;> simp_all [laneId?]
      · rw [List.concat_eq_append, ← List.cons_append, ← List.append_assoc] at hlines
        obtain ⟨rfl, hlast⟩ := List.append_inj' hlines rfl
        cases hlast
        have hinner := hbetween line (by simp)
        have hopening := ih.2 ⟨hsome, before, between, rfl, fun other hother =>
          hbetween other (by simp [hother])⟩
        cases hline : line.line <;> simp_all [SourceLine.Inner, laneId?, closes]

theorem placesFrom_append : placesFrom above (lines ++ more) =
    (placesFrom above lines).map (fun place => { place with below := place.below ++ more }) ++
      placesFrom (above ++ lines) more := by
  induction lines generalizing above with
  | nil => simp [placesFrom]
  | cons line rest ih => simp [placesFrom, ih]

/-- What does not depend on the lines below is kept when a line comes last. -/
theorem filterMap_places_concat {α : Type} {f : Place → Option α}
    (h : ∀ above here below more, f ⟨above, here, below ++ more⟩ = f ⟨above, here, below⟩) :
    (places (lines ++ [line])).filterMap f =
      (places lines).filterMap f ++ (f ⟨lines, line, []⟩).toList := by
  have hrest : (fun place : Place => f { place with below := place.below ++ [line] }) = f :=
    funext fun place => h ..
  have hlast : (placesFrom ([] ++ lines) [line]).filterMap f = (f ⟨lines, line, []⟩).toList := by
    rw [placesFrom, placesFrom, List.filterMap_cons, List.nil_append]
    cases f ⟨lines, line, []⟩ <;> rfl
  rw [places, placesFrom_append, List.filterMap_append, List.filterMap_map, hlast]
  exact congrArg (List.filterMap · _ ++ _) hrest

theorem mem_placesFrom {place : Place} : place ∈ placesFrom above lines ↔
    ∃ before, place.above = above ++ before ∧ lines = before ++ place.here :: place.below := by
  induction lines generalizing above with
  | nil => simp [placesFrom]
  | cons line rest ih =>
    rw [placesFrom, List.mem_cons, ih]
    constructor
    · rintro (rfl | ⟨before, habove, rfl⟩)
      · exact ⟨[], by simp, rfl⟩
      · exact ⟨line :: before, by simp [habove], rfl⟩
    · rintro ⟨before, habove, hlines⟩
      rcases before with _ | ⟨first, before⟩
      · obtain ⟨rfl, rfl⟩ := List.cons.inj hlines
        exact Or.inl (by rw [← List.append_nil above, ← habove])
      · obtain ⟨rfl, hrest⟩ := List.cons.inj hlines
        exact Or.inr ⟨before, by simp [habove], hrest⟩

theorem mem_places {place : Place} :
    place ∈ places lines ↔ lines = place.above ++ place.here :: place.below := by
  rw [places, mem_placesFrom]
  constructor
  · rintro ⟨before, habove, rfl⟩
    rw [habove, List.nil_append]
  · exact fun h => ⟨place.above, rfl, h⟩

theorem nodesFrom_eq (above below : List SourceLine) :
    nodesFrom nodeKind (laneAbove? above) (below.map (·.line)) =
      (placesFrom above below).filterMap (Place.node? nodeKind) := by
  induction below generalizing above with
  | nil => rfl
  | cons line rest ih =>
    rw [placesFrom, List.filterMap_cons, ← ih, laneAbove?_concat, List.map_cons]
    cases h : line.line <;> simp only [h, nodesFrom, Place.node?]
    rfl

theorem declaredLane?_concat : declaredLane? (above ++ [line]) id =
    if nodeId? line.line = some id then some ((laneAbove? above).getD defaultLane)
    else declaredLane? above id := by
  rw [declaredLane?, places, placesFrom_append, List.reverse_append, List.findSome?_append,
    ← List.map_reverse, List.findSome?_map]
  by_cases h : nodeId? line.line = some id
  · simp [placesFrom, h, Place.lane]
  · simp [placesFrom, h]
    rfl

theorem laneIn_eq {known : List (Text × Text)} (place : Place) (reference : Reference)
    (hk : ∀ id, known.lookup id = declaredLane? place.above id) :
    reference.laneIn known = place.laneOf? reference := by
  rw [Reference.laneIn, Place.laneOf?, hk]
  rcases reference with ⟨node, _ | (_ | ⟨c, name⟩)⟩ <;> rfl

theorem edgesFrom_eq (above below : List SourceLine) {known : List (Text × Text)} {count : Nat}
    (hk : ∀ id, known.lookup id = declaredLane? above id)
    (hc : count = above.countP fun line => (ends? line.line).isSome) :
    edgesFrom (laneAbove? above) known count (below.map (·.line)) =
      (placesFrom above below).filterMap Place.edge? := by
  induction below generalizing above known count with
  | nil => rfl
  | cons line rest ih =>
    have hknown : nodeId? line.line = none →
        ∀ id, known.lookup id = declaredLane? (above ++ [line]) id := by
      intro hnone id
      rw [declaredLane?_concat, hnone, if_neg (by simp), hk]
    have hcount : (count + if (ends? line.line).isSome then 1 else 0) =
        (above ++ [line]).countP fun line => (ends? line.line).isSome := by
      rw [List.countP_append, hc, List.countP_singleton]
    rw [placesFrom, List.filterMap_cons, List.map_cons]
    cases h : line.line with
    | node name shape attributes =>
      have hdeclared : ∀ id, ((name, (laneAbove? above).getD defaultLane) :: known).lookup id =
          declaredLane? (above ++ [line]) id := by
        intro id
        rw [declaredLane?_concat, h, List.lookup_cons, hk]
        by_cases hid : id = name
        · simp [hid, nodeId?]
        · simp [beq_false_of_ne hid, nodeId?, Ne.symm hid]
      have hrest := ih _ hdeclared hcount
      rw [laneAbove?_concat, h] at hrest
      simp only [h, edgesFrom, Place.edge?]
      exact hrest
    | edge source target sourceHandle targetHandle label =>
      have hrest := ih _ (hknown (by rw [h]; rfl)) hcount
      rw [laneAbove?_concat, h] at hrest
      have hlane := fun reference => laneIn_eq ⟨above, line, rest⟩ reference hk
      simp only [h, edgesFrom, Place.edge?, hlane, ← hc]
      exact congrArg _ hrest
    | _ =>
      have hrest := ih _ (hknown (by rw [h]; rfl)) hcount
      rw [laneAbove?_concat, h] at hrest
      simp only [h, edgesFrom, Place.edge?]
      exact hrest

theorem label_eq (place : Place) (label : Option Text) :
    place.label id label = laneLabel id label place.below := by
  rw [laneLabel]
  cases label with
  | some label => rfl
  | none =>
    rcases place with ⟨above, here, _ | ⟨⟨number, text, line⟩, below⟩⟩
    · rfl
    · rcases text with _ | ⟨c, comment⟩
      · rfl
      · by_cases hc : c = '#'
        · subst hc
          cases htrim : trim comment <;> simp [Place.label, commentLabel?, nonempty?, htrim]
        · simp [Place.label, commentLabel?, hc]

theorem lanesFrom_eq (above below : List SourceLine) {seen : List Text}
    (hs : ∀ id, id ∈ seen ↔ id ∈ above.filterMap fun line => laneId? line.line) :
    lanesFrom laneKind seen below = (placesFrom above below).filterMap (Place.lane? laneKind) := by
  induction below generalizing above seen with
  | nil => rfl
  | cons line rest ih =>
    have hids : ∀ id, id ∈ (above ++ [line]).filterMap (fun line => laneId? line.line) ↔
        id ∈ seen ∨ laneId? line.line = some id := by
      intro id
      rw [List.filterMap_append, List.mem_append, hs]
      simp
    rw [placesFrom, List.filterMap_cons]
    cases h : line.line with
    | laneOpen name label =>
      have hname : laneId? line.line = some name := by
        rw [h]
        rfl
      by_cases hseen : name ∈ seen
      · have hplace := (hs name).1 hseen
        simp only [h, lanesFrom, Place.lane?, if_pos hseen, if_pos hplace]
        apply ih
        intro id
        rw [hids, hname, Option.some.injEq, or_iff_left_of_imp]
        rintro rfl
        exact hseen
      · have hplace := fun hmem => hseen ((hs name).2 hmem)
        simp only [h, lanesFrom, Place.lane?, if_neg hseen, if_neg hplace, label_eq]
        congr 1
        apply ih
        intro id
        rw [hids, hname, Option.some.injEq, List.mem_cons, or_comm, eq_comm]
    | _ =>
      simp only [h, lanesFrom, Place.lane?]
      apply ih
      intro id
      have hnone : laneId? line.line = none := by
        rw [h]
        rfl
      rw [hids, hnone]
      simp

/-- The edges are numbered in order. -/
theorem map_id_edgesFrom {current : Option Text} {known : List (Text × Text)} {count : Nat}
    (lines : List Line) : (edgesFrom current known count lines).map Edge.id =
      (List.range' (count + 1) (edgesFrom current known count lines).length).map
        fun number => 'e' :: ofNat number := by
  induction lines generalizing current known count with
  | nil => rfl
  | cons line rest ih =>
    cases line with
    | edge source target sourceHandle targetHandle label =>
      rw [edgesFrom, List.map_cons, ih, List.length_cons, List.range'_succ, List.map_cons]
    | _ => exact ih

/-- The graph of a text, line by line: what each line adds is told from its place, edges are numbered
from one, and each lane stands where it is opened first. -/
theorem ofText_by_places (text : Text) :
    (Graph.ofText text).nodes =
      (places (sourceLines text)).filterMap (Place.node? Classifier.byWords.nodeKind) ∧
    (Graph.ofText text).edges = (places (sourceLines text)).filterMap Place.edge? ∧
    (Graph.ofText text).edges.map Edge.id =
      (List.range' 1 (Graph.ofText text).edges.length).map (fun number => 'e' :: ofNat number) ∧
    (Graph.ofText text).lanes =
      (places (sourceLines text)).filterMap (Place.lane? Classifier.byWords.laneKind) ∧
    (Graph.ofText text).lanes.map Lane.id =
      ((sourceLines text).filterMap fun line => laneId? line.line).eraseDups := by
  refine ⟨nodesFrom_eq [] _, edgesFrom_eq [] _ (fun _ => rfl) rfl, map_id_edgesFrom _,
    lanesFrom_eq [] _ (by simp), ?_⟩
  rw [Graph.ofText, Graph.ofLines, map_id_lanesFrom, newLanes_eq, List.filterMap_map]
  simp

end Swimlane
