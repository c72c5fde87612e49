import Swimlane.Diagram.Parse
import Swimlane.Proofs.Diagram.NodeLine

/-! The graph of a text, from what each of its lines declares. -/
namespace Swimlane

open Text

namespace Line

variable {line : Text} {declared : Line}

def nodeId? : Line → Option Text
  | .node id _ _ => some id
  | _ => none

def laneId? : Line → Option Text
  | .laneOpen id _ => some id
  | _ => none

/-- The nodes that an edge joins. -/
def ends? : Line → Option (Text × Text)
  | .edge source target _ _ _ => some (source.node, target.node)
  | _ => none

def isSkipped : Line → Bool
  | .skipped _ _ => true
  | _ => false

/-- A line that leaves the nodes and the lanes as they are. -/
def Inert : Line → Prop
  | .edge _ _ _ _ _ | .skipped _ _ => True
  | _ => False

theorem read_trim (line : Text) : read (trim line) = read line := by
  rw [read, read, trim_trim]

theorem read_blank (h : trim line = []) : (read line).isSkipped = true := by
  rw [read, h]
  decide

theorem nodeId?_of_inert (h : Inert declared) : nodeId? declared = none := by
  cases declared <;> first | rfl | exact absurd h id

theorem laneId?_of_inert (h : Inert declared) : laneId? declared = none := by
  cases declared <;> first | rfl | exact absurd h id

end Line

open Line

variable {nodeKind : Shape → Text → NodeKind} {current : Option Text} {seen : List Text}
  {known : List (Text × Text)} {count : Nat} {text id : Text} {shape : Shape}
  {attributes : Attributes} {line : Line} {lines above below : List Line} {node : Node}
  {nodes : List Node}

/-- What each line of a text declares. -/
def readings (text : Text) : List Line := (segments text).map Line.read

/-- The lane that is open below some lines. -/
def openLane (lines : List Line) : Option Text := lines.foldl laneAfter none

/-- The lanes that are opened for the first time, among those that are opened one after the other. -/
def newLanes (seen : List Text) : List Text → List Text
  | [] => []
  | id :: rest => if id ∈ seen then newLanes seen rest else id :: newLanes (id :: seen) rest

theorem mem_newLanes {ids : List Text} : id ∈ newLanes seen ids ↔ id ∈ ids ∧ id ∉ seen := by
  induction ids generalizing seen with
  | nil => simp [newLanes]
  | cons first rest ih =>
    rw [newLanes]
    split
    · next hseen =>
      rw [ih, List.mem_cons]
      constructor
      · exact fun ⟨hrest, hnot⟩ => ⟨Or.inr hrest, hnot⟩
      · rintro ⟨rfl | hrest, hnot⟩
        · exact absurd hseen hnot
        · exact ⟨hrest, hnot⟩
    · next hseen =>
      rw [List.mem_cons, ih, List.mem_cons, List.mem_cons]
      by_cases hid : id = first <;> simp [hid, hseen]

/-- Of several openings of a lane the first counts. -/
theorem newLanes_eq (seen ids : List Text) :
    newLanes seen ids = (ids.filter (· ∉ seen)).eraseDups := by
  induction ids generalizing seen with
  | nil => rfl
  | cons first rest ih =>
    by_cases h : first ∈ seen
    · rw [newLanes, if_pos h, ih, List.filter_cons_of_neg (by simpa using h)]
    · have hrest : (rest.filter (· ∉ seen)).filter (fun id => !id == first) =
          rest.filter (· ∉ first :: seen) := by
        rw [List.filter_filter]
        apply List.filter_congr
        intro id _
        by_cases hid : id = first <;> simp [hid]
      rw [newLanes, if_neg h, ih, List.filter_cons_of_pos (by simpa using h), List.eraseDups_cons,
        hrest]

theorem nodup_newLanes {ids : List Text} : (newLanes seen ids).Nodup := by
  induction ids generalizing seen with
  | nil => exact List.nodup_nil
  | cons first rest ih =>
    rw [newLanes]
    split
    · exact ih
    · rw [List.nodup_cons, mem_newLanes]
      exact ⟨fun h => h.2 List.mem_cons_self, ih⟩

/-- Lines that declare nothing do not count, so blank ones may be left out. -/
theorem passing_sourceLines (text : Text) :
    ((sourceLines text).map (·.line)).filter (!·.isSkipped) =
      (readings text).filter (!·.isSkipped) := by
  have hparts : ∀ (parts : List Text) (number : Nat),
      ((((parts.zipIdx number).filterMap fun (line, number) =>
        (nonempty? (trim line)).map (NumberedLine.mk number ·)).map fun line =>
          Line.read line.text).filter (!·.isSkipped)) =
        (parts.map Line.read).filter (!·.isSkipped) := by
    intro parts
    induction parts with
    | nil => intro number; rfl
    | cons part rest ih =>
      intro number
      rw [List.zipIdx_cons, List.map_cons]
      cases ht : trim part with
      | nil =>
        rw [List.filterMap_cons_none (by simp [ht, nonempty?]), ih,
          List.filter_cons_of_neg (by simp [read_blank ht])]
      | cons c more =>
        have hread : Line.read (c :: more) = Line.read part := by rw [← ht, read_trim]
        rw [List.filterMap_cons_some (b := ⟨number, c :: more⟩) (by simp [ht, nonempty?]),
          List.map_cons, List.filter_cons, List.filter_cons, ih]
        simp only [hread]
  rw [readings, ← hparts _ 1, sourceLines, List.map_map, numberedLines, segments]
  rfl

/-- A line that is not blank is among those that are read. -/
theorem mem_sourceLines {part : Text} (hl : part ∈ segments text) (hne : trim part ≠ []) :
    ∃ number, ⟨number, trim part, Line.read part⟩ ∈ sourceLines text := by
  obtain ⟨position, hlt, hget⟩ := List.getElem_of_mem hl
  obtain ⟨c, more, hc⟩ := List.exists_cons_of_ne_nil hne
  refine ⟨1 + position, List.mem_map.2 ⟨⟨1 + position, trim part⟩, ?_, ?_⟩⟩
  · refine List.mem_filterMap.2 ⟨(part, 1 + position), ?_, ?_⟩
    · rw [List.mk_add_mem_zipIdx_iff_getElem?]
      exact hget ▸ List.getElem?_eq_getElem hlt
    · simp [hc, nonempty?]
  · simp [read_trim]

theorem nodesFrom_append : nodesFrom nodeKind current (above ++ below) =
    nodesFrom nodeKind current above ++ nodesFrom nodeKind (above.foldl laneAfter current) below := by
  induction above generalizing current with
  | nil => rfl
  | cons line rest ih =>
    cases line <;> simp [nodesFrom, ih]

theorem nodesFrom_passing : nodesFrom nodeKind current (lines.filter (!·.isSkipped)) =
    nodesFrom nodeKind current lines := by
  induction lines generalizing current with
  | nil => rfl
  | cons line rest ih =>
    cases line with
    | node => exact congrArg (_ :: ·) ih
    | _ => exact ih

theorem nodesFrom_inert (h : Inert line) :
    nodesFrom nodeKind current (line :: below) = nodesFrom nodeKind current below := by
  cases line <;> first | rfl | exact absurd h id

/-- The lanes of nodes by their ids, the latest first. -/
def lanesById (nodes : List Node) : List (Text × Text) :=
  (nodes.map fun node => (node.id, node.lane)).reverse

theorem lanesById_cons : lanesById (node :: nodes) = lanesById nodes ++ [(node.id, node.lane)] :=
  List.reverse_cons

/-- Below some lines the edges find the nodes that the lines declare. -/
theorem edgesFrom_append (nodeKind : Shape → Text → NodeKind) : edgesFrom current known count (above ++ below) =
    edgesFrom current known count above ++ edgesFrom (above.foldl laneAfter current)
      (lanesById (nodesFrom nodeKind current above) ++ known)
      (count + (edgesFrom current known count above).length) below := by
  induction above generalizing current known count with
  | nil => rfl
  | cons line rest ih =>
    cases line with
    | node id shape attributes =>
      have hknown : lanesById (nodesFrom nodeKind current (.node id shape attributes :: rest)) ++ known =
          lanesById (nodesFrom nodeKind current rest) ++ (id, current.getD defaultLane) :: known := by
        rw [nodesFrom, lanesById_cons, List.append_assoc]
        rfl
      rw [hknown]
      exact ih
    | edge source target sourceHandle targetHandle label =>
      have hcount : ∀ first, count + (first :: edgesFrom current known (count + 1) rest).length =
          count + 1 + (edgesFrom current known (count + 1) rest).length := by
        intro first
        rw [List.length_cons]
        omega
      rw [List.cons_append, edgesFrom, edgesFrom, hcount]
      exact congrArg (_ :: ·) ih
    | _ => exact ih

/-- A node in a lane stands in the one that was open before, or in one that is opened by a line. -/
theorem lane_of_mem_nodesFrom (h : node ∈ nodesFrom nodeKind current lines)
    (hne : node.lane ≠ defaultLane) : current = some node.lane ∨ node.lane ∈ lines.filterMap laneId? := by
  induction lines generalizing current with
  | nil => cases h
  | cons line rest ih =>
    cases line with
    | node id shape attributes =>
      rcases List.mem_cons.1 h with rfl | h
      · cases current with
        | none => exact absurd rfl hne
        | some lane => exact Or.inl rfl
      · exact ih h
    | laneOpen id label =>
      rcases ih h with hlane | hlane
      · exact Or.inr (Option.some.inj hlane ▸ List.mem_cons_self)
      · exact Or.inr (List.mem_cons_of_mem _ hlane)
    | laneClose => exact Or.inr ((ih h).resolve_left (Option.some_ne_none _).symm)
    | _ => exact ih h

/-- The ids of the nodes are those that the lines declare. -/
theorem map_id_nodesFrom : (nodesFrom nodeKind current lines).map (·.id) =
    lines.filterMap nodeId? := by
  induction lines generalizing current with
  | nil => rfl
  | cons line rest ih =>
    cases line with
    | node => exact congrArg (_ :: ·) ih
    | _ => exact ih

theorem map_ends_edgesFrom : (edgesFrom current known count lines).map Edge.ends =
    lines.filterMap ends? := by
  induction lines generalizing current known count with
  | nil => rfl
  | cons line rest ih =>
    cases line with
    | edge => exact congrArg (_ :: ·) ih
    | _ => exact ih

theorem edgesFrom_passing : edgesFrom current known count (lines.filter (!·.isSkipped)) =
    edgesFrom current known count lines := by
  induction lines generalizing current known count with
  | nil => rfl
  | cons line rest ih =>
    cases line with
    | edge => exact congrArg (_ :: ·) ih
    | _ => exact ih

theorem map_id_lanesFrom (laneKind : Text → Text → LaneKind) (lines : List SourceLine) :
    (lanesFrom laneKind seen lines).map (·.id) =
      newLanes seen ((lines.map (·.line)).filterMap laneId?) := by
  induction lines generalizing seen with
  | nil => rfl
  | cons line rest ih =>
    obtain ⟨number, text, declared⟩ := line
    cases declared with
    | laneOpen id label =>
      by_cases h : id ∈ seen <;> simp [lanesFrom, laneId?, newLanes, h, ih]
    | _ => exact ih

theorem laneIds_passing : (lines.filter (!·.isSkipped)).filterMap laneId? =
    lines.filterMap laneId? := by
  induction lines with
  | nil => rfl
  | cons line rest ih =>
    cases line with
    | laneOpen => exact congrArg (_ :: ·) ih
    | _ => exact ih

namespace Graph

theorem nodes_ofText (text : Text) : (ofText text).nodes =
    nodesFrom Classifier.byWords.nodeKind none (readings text) := by
  rw [← nodesFrom_passing, ← passing_sourceLines, nodesFrom_passing]
  rfl

theorem edges_ofText (text : Text) : (ofText text).edges = edgesFrom none [] 0 (readings text) := by
  rw [← edgesFrom_passing, ← passing_sourceLines, edgesFrom_passing]
  rfl

theorem laneIds_ofText (text : Text) : (ofText text).lanes.map (·.id) =
    newLanes [] ((readings text).filterMap laneId?) := by
  rw [← laneIds_passing, ← passing_sourceLines, laneIds_passing]
  exact map_id_lanesFrom _ _

end Graph

end Swimlane
