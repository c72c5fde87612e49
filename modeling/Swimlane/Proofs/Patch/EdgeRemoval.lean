import Swimlane.Proofs.Diagram.EdgeSearch
import Swimlane.Proofs.Patch.Insertion

/-! What is left of the edges when one is removed, and when it is the first of its two nodes. -/
namespace Swimlane

open Text Line

variable {α : Type} {p : α → Bool} {x : α} {above below items : List α}

/-- A list is moved on by one element just when all of them are the same. -/
theorem cons_eq_concat_iff {first last : α} :
    first :: items = items ++ [last] ↔ ∀ y ∈ items ++ [last], y = first := by
  induction items generalizing first with
  | nil => simp [eq_comm]
  | cons a rest ih =>
    rw [List.cons_append, List.cons.injEq, ih, List.forall_mem_cons]
    constructor
    · rintro ⟨rfl, h⟩
      exact ⟨rfl, h⟩
    · rintro ⟨rfl, h⟩
      exact ⟨rfl, h⟩

/-- To take an element out is to take out the first of its kind just when none from that one to it
is different. -/
theorem append_eq_eraseP_iff (hx : p x = true) : above ++ below = (above ++ x :: below).eraseP p ↔
    ∀ y ∈ (above ++ [x]).dropWhile (fun y => !p y), y = x := by
  induction above with
  | nil => simp [hx]
  | cons a rest ih =>
    by_cases ha : p a = true
    · have hcut : rest ++ x :: below = rest ++ [x] ++ below := by simp
      rw [List.cons_append, List.cons_append, List.eraseP_cons_of_pos ha, List.cons_append,
        List.dropWhile_cons_of_neg (by simpa using ha), hcut, ← List.cons_append,
        List.append_cancel_right_eq, cons_eq_concat_iff]
      constructor
      · intro h y hy
        rcases List.mem_cons.1 hy with rfl | hy
        · exact (h x (by simp)).symm
        · rw [h y hy, h x (by simp)]
      · intro h y hy
        rw [h y (List.mem_cons_of_mem a hy), h a List.mem_cons_self]
    · rw [List.cons_append, List.cons_append, List.eraseP_cons_of_neg ha, List.cons_append,
        List.dropWhile_cons_of_pos (by simpa using ha), List.cons.injEq, ih]
      simp

/-- There is one place where the first item of a kind can stand. -/
theorem first_unique {other : α} {left right : List α} (h : above ++ x :: below = left ++ other :: right)
    (hx : p x = true) (ho : p other = true) (ha : ∀ y ∈ above, p y = false)
    (hl : ∀ y ∈ left, p y = false) : above = left ∧ x = other := by
  have hcut : ∀ {left right : List α} {other : α}, p other = true → (∀ y ∈ left, p y = false) →
      (left ++ other :: right).takeWhile (!p ·) = left := by
    intro left right other ho hl
    rw [List.takeWhile_append_of_pos (by simpa using hl), List.takeWhile_cons_of_neg (by simpa using ho),
      List.append_nil]
  have habove : above = left := by rw [← hcut hx ha, h, hcut ho hl]
  subst habove
  exact ⟨rfl, (List.cons.inj (List.append_cancel_left h)).1⟩

variable {text source target op : Text} {count : Nat} {edges others : List Edge} {ends : Text × Text}
  {line : Line} {lines : List Line}

/-- Edges with the numbers that they are given after `count` others. -/
def numbered (count : Nat) : List Edge → List Edge
  | [] => []
  | first :: rest => { first with id := 'e' :: ofNat (count + 1) } :: numbered (count + 1) rest

theorem content_numbered : (numbered count edges).map Edge.content = edges.map Edge.content := by
  induction edges generalizing count with
  | nil => rfl
  | cons first rest ih => exact congrArg (_ :: ·) ih

theorem numbered_content : numbered count (edges.map Edge.content) = numbered count edges := by
  induction edges generalizing count with
  | nil => rfl
  | cons first rest ih => exact congrArg (_ :: ·) ih

/-- The edges of a text are numbered in their order. -/
theorem numbered_edgesFrom {current : Option Text} {known : List (Text × Text)} :
    numbered count (edgesFrom current known count lines) = edgesFrom current known count lines := by
  induction lines generalizing current known count with
  | nil => rfl
  | cons line rest ih =>
    cases line with
    | edge => exact congrArg (_ :: ·) ih
    | _ => exact ih

/-- Edges are told by their contents, apart from their numbers. -/
theorem edges_eq_numbered_iff : (Graph.ofText text).edges = numbered 0 others ↔
    (Graph.ofText text).edges.map Edge.content = others.map Edge.content := by
  have hnumbered : numbered 0 (Graph.ofText text).edges = (Graph.ofText text).edges :=
    numbered_edgesFrom
  constructor
  · intro h
    rw [h, content_numbered]
  · intro h
    rw [← hnumbered, ← numbered_content, h, numbered_content]

/-- Whether an edge joins two nodes. -/
def Edge.joins (source target : Text) (edge : Edge) : Bool := edge.ends == (source, target)

theorem content_eraseP : (edges.eraseP (Edge.joins source target)).map Edge.content =
    (edges.map Edge.content).eraseP (Edge.joins source target) := by
  rw [List.eraseP_map]
  rfl

/-- The edges that some lines draw, without their numbers. -/
def drawnEdges (lines : List Line) : List Edge := (edgesFrom none [] 0 lines).map Edge.content

theorem content_drawnEdges : (drawnEdges lines).map Edge.content = drawnEdges lines := by
  rw [drawnEdges, List.map_map]
  rfl

theorem map_ends_drawnEdges : (drawnEdges lines).map Edge.ends = lines.filterMap ends? := by
  rw [drawnEdges, List.map_map, ← map_ends_edgesFrom]
  rfl

theorem mem_ends_of_joins {edge : Edge} (he : edge ∈ drawnEdges lines)
    (hj : edge.joins source target = true) : (source, target) ∈ lines.filterMap ends? := by
  rw [← map_ends_drawnEdges]
  exact List.mem_map.2 ⟨edge, he, beq_iff_eq.1 hj⟩

theorem content_edges (text : Text) :
    (Graph.ofText text).edges.map Edge.content = drawnEdges (readings text) := by
  rw [Graph.edges_ofText, drawnEdges]

/-- The edges above and below a line that draws one between nodes of the lines above. -/
theorem drawnEdges_insert (above below : List Line) (source target : Reference)
    (sourceHandle targetHandle : Text) (label : Option Text) : ∃ after,
      drawnEdges (above ++ below) = drawnEdges above ++ after ∧
      drawnEdges (above ++ .edge source target sourceHandle targetHandle label :: below) =
        drawnEdges above ++
          { id := []
            source := source.node
            target := target.node
            sourceHandle, targetHandle
            sourceLane :=
              source.laneIn (lanesById (nodesFrom Classifier.byWords.nodeKind none above))
            targetLane :=
              target.laneIn (lanesById (nodesFrom Classifier.byWords.nodeKind none above))
            label } :: after := by
  rw [drawnEdges, drawnEdges, drawnEdges, edgesFrom_append Classifier.byWords.nodeKind,
    edgesFrom_append Classifier.byWords.nodeKind, List.map_append, List.map_append, List.append_nil]
  exact ⟨_, rfl, congrArg (_ ++ _ :: ·) content_edgesFrom⟩

/-- The edges above and below a line that draws one. -/
theorem drawnEdges_middle (h : ends? line = some ends) (above below : List Line) : ∃ drawn after,
    drawn.ends = ends ∧ drawnEdges (above ++ [line]) = drawnEdges above ++ [drawn] ∧
      drawnEdges (above ++ below) = drawnEdges above ++ after ∧
      drawnEdges (above ++ line :: below) = drawnEdges above ++ drawn :: after := by
  cases line with
  | edge source target sourceHandle targetHandle label =>
    obtain ⟨after, hplain, hmore⟩ :=
      drawnEdges_insert above below source target sourceHandle targetHandle label
    obtain ⟨none, hsame, hlast⟩ :=
      drawnEdges_insert above [] source target sourceHandle targetHandle label
    obtain rfl : none = [] := by simpa using hsame
    refine ⟨_, after, ?_, hlast, hplain, hmore⟩
    exact Option.some.inj h
  | _ => simp [ends?] at h

/-- Edges that are drawn are numbered in the graph. -/
theorem edges_of_drawn {lines : List Line} (h : drawnEdges lines = edges)
    (ht : (Graph.ofText text).edges.map Edge.content = drawnEdges lines) :
    (Graph.ofText text).edges = numbered 0 edges := by
  rw [edges_eq_numbered_iff, ← h, content_drawnEdges, ht]

theorem content_edges_join {lines : List Text} (newline : Newline) (h : ∀ line ∈ lines, BreakFree line) :
    (Graph.ofText (newline.join lines)).edges.map Edge.content = drawnEdges (lines.map Line.read) := by
  by_cases hne : lines = []
  · subst hne
    cases newline <;> rfl
  · rw [content_edges, readings_join newline hne h]

/-- If one edge less is left by a line taken out, and that edge joined two nodes, then the line drew
it. -/
theorem ends?_of_eraseP {above below : List Line}
    (hmem : (source, target) ∈ (above ++ line :: below).filterMap ends?)
    (h : drawnEdges (above ++ below) = (drawnEdges (above ++ line :: below)).eraseP
      (Edge.joins source target)) : ends? line = some (source, target) := by
  have hends := congrArg (List.map Edge.ends) h
  have herase : ((drawnEdges (above ++ line :: below)).eraseP (Edge.joins source target)).map
      Edge.ends = ((above ++ line :: below).filterMap ends?).erase (source, target) := by
    rw [← map_ends_drawnEdges, List.erase_eq_eraseP', List.eraseP_map]
    rfl
  rw [herase, map_ends_drawnEdges] at hends
  -- One edge between the two nodes is gone, so the line that is gone had it.
  have hcount := (List.perm_cons_erase hmem).count_eq (source, target)
  rw [← hends, List.count_cons_self, List.filterMap_append, List.filterMap_append,
    List.count_append, List.count_append] at hcount
  cases hl : ends? line with
  | none =>
    rw [List.filterMap_cons_none hl] at hcount
    omega
  | some ends =>
    rw [List.filterMap_cons_some hl, List.count_cons] at hcount
    split at hcount
    · next heq => rw [beq_iff_eq.1 heq]
    · omega

/-- To lose the edge that a line draws is to lose the first between its nodes just when no edge from
that one to it is different. -/
theorem eraseP_drawn_iff {above below : List Line} (h : ends? line = some (source, target)) :
    drawnEdges (above ++ below) =
        (drawnEdges (above ++ line :: below)).eraseP (Edge.joins source target) ↔
      ∀ edge ∈ (drawnEdges (above ++ [line])).dropWhile (!·.joins source target),
        (drawnEdges (above ++ [line])).getLast? = some edge := by
  obtain ⟨drawn, after, hkey, hlast, hplain, hmore⟩ := drawnEdges_middle h above below
  rw [hlast, hplain, hmore, append_eq_eraseP_iff (by simp [Edge.joins, hkey]), List.getLast?_concat]
  simp only [Option.some.injEq, eq_comm]

namespace Patch

/-- When the search finds the edge between two nodes: no line is found and none draws it, or the
first line that is found draws it, and so does none above with another edge. -/
inductive FindsFirst (source target : Text) : List Text → Prop
  | absent {lines : List Text} (hnone : ∀ line ∈ lines, isEdgeBetween source target line = false)
      (hends : (source, target) ∉ (lines.map Line.read).filterMap ends?) :
      FindsFirst source target lines
  | found {above below : List Text} {line : Text} (hedge : isEdgeBetween source target line = true)
      (hfirst : ∀ other ∈ above, isEdgeBetween source target other = false)
      (hends : ends? (Line.read line) = some (source, target))
      (hsame : ∀ edge ∈ (drawnEdges ((above ++ [line]).map Line.read)).dropWhile
        (!·.joins source target), (drawnEdges ((above ++ [line]).map Line.read)).getLast? = some edge) :
      FindsFirst source target (above ++ line :: below)

/-- An edge is removed if there is one between two nodes, and then the first of them. -/
structure TakesFirst (source target text : Text) (result : Result) : Prop where
  applied : result.entries.any Entry.isApplied = true ↔
    (source, target) ∈ (Graph.ofText text).edges.map Edge.ends
  edges : result.entries.any Entry.isApplied = true → (Graph.ofText result.code).edges =
    numbered 0 ((Graph.ofText text).edges.eraseP (Edge.joins source target))

variable {lines above below : List Text} {line code : Text} {newline : Newline} {change : Change}
  {reason : SkipReason}

/-- Of lines with a first one that is found, the edge between two nodes is found just when that line
draws it and none above draws another. -/
theorem findsFirst_iff (hedge : isEdgeBetween source target line = true)
    (hfirst : ∀ other ∈ above, isEdgeBetween source target other = false) :
    FindsFirst source target (above ++ line :: below) ↔
      ends? (Line.read line) = some (source, target) ∧
      ∀ edge ∈ (drawnEdges ((above ++ [line]).map Line.read)).dropWhile (!·.joins source target),
        (drawnEdges ((above ++ [line]).map Line.read)).getLast? = some edge := by
  constructor
  · intro h
    generalize hlines : above ++ line :: below = lines at h
    cases h with
    | absent hnone hends =>
      have hmiss := hnone line (by rw [← hlines]; simp)
      simp [hedge] at hmiss
    | found hother hbefore hends hsame =>
      obtain ⟨rfl, rfl⟩ := first_unique hlines hedge hother hfirst hbefore
      exact ⟨hends, hsame⟩
  · rintro ⟨hends, hsame⟩
    exact .found hedge hfirst hends hsame

theorem findsFirst_iff_of_none (hnone : ∀ line ∈ lines, isEdgeBetween source target line = false) :
    FindsFirst source target lines ↔ (source, target) ∉ (lines.map Line.read).filterMap ends? := by
  constructor
  · intro h
    cases h with
    | absent _ hends => exact hends
    | @found above below line hedge _ _ _ =>
      have hmiss := hnone line (by simp)
      simp [hedge] at hmiss
  · exact .absent hnone

theorem takesFirst_skipped_iff :
    TakesFirst source target text ⟨code, [⟨op, .skipped reason⟩]⟩ ↔
      (source, target) ∉ (readings text).filterMap ends? := by
  have hends : (Graph.ofText text).edges.map Edge.ends = (readings text).filterMap ends? := by
    rw [Graph.edges_ofText, map_ends_edgesFrom]
  constructor
  · rintro ⟨happlied, _⟩ hmem
    simpa [Entry.isApplied] using happlied.2 (hends ▸ hmem)
  · intro h
    exact ⟨iff_of_false (by simp [Entry.isApplied]) (hends ▸ h), by simp [Entry.isApplied]⟩

theorem takesFirst_applied_iff (hlines : segments text = above ++ line :: below) :
    TakesFirst source target text ⟨newline.join (above ++ below), [⟨op, .applied change⟩]⟩ ↔
      ends? (Line.read line) = some (source, target) ∧
      ∀ edge ∈ (drawnEdges ((above ++ [line]).map Line.read)).dropWhile (!·.joins source target),
        (drawnEdges ((above ++ [line]).map Line.read)).getLast? = some edge := by
  have happlied : [(⟨op, .applied change⟩ : Entry)].any Entry.isApplied = true := rfl
  have hbreaks : ∀ other ∈ above ++ below, BreakFree other := by
    intro other hother
    have hmem : other ∈ segments text := by
      rw [hlines, List.mem_append, List.mem_cons]
      exact (List.mem_append.1 hother).imp_right Or.inr
    exact breakFree_of_mem_segments hmem
  have hends : (Graph.ofText text).edges.map Edge.ends = (readings text).filterMap ends? := by
    rw [Graph.edges_ofText, map_ends_edgesFrom]
  have hedges : (Graph.ofText (newline.join (above ++ below))).edges =
      numbered 0 ((Graph.ofText text).edges.eraseP (Edge.joins source target)) ↔
      drawnEdges (above.map Line.read ++ below.map Line.read) =
        (drawnEdges (above.map Line.read ++ Line.read line :: below.map Line.read)).eraseP
          (Edge.joins source target) := by
    rw [edges_eq_numbered_iff, content_edges_join newline hbreaks, content_eraseP, content_edges,
      readings, hlines, List.map_append, List.map_append, List.map_cons]
  have hreadings : readings text = above.map Line.read ++ Line.read line :: below.map Line.read := by
    rw [readings, hlines, List.map_append, List.map_cons]
  rw [List.map_append, List.map_singleton]
  constructor
  · rintro ⟨hmem, hless⟩
    have hdrawn := hedges.1 (hless happlied)
    rw [hends, hreadings] at hmem
    have hline := ends?_of_eraseP (hmem.1 happlied) hdrawn
    exact ⟨hline, (eraseP_drawn_iff hline).1 hdrawn⟩
  · rintro ⟨hline, hsame⟩
    refine ⟨iff_of_true happlied ?_, fun _ => hedges.2 ((eraseP_drawn_iff hline).2 hsame)⟩
    rw [hends, hreadings]
    exact List.mem_filterMap.2 ⟨_, by simp, hline⟩

/-- In a text with line breaks of one kind the first edge between two nodes is taken out just when the
search finds it. -/
theorem takesFirst_iff {session : Session} {operation : Operation} (hb : UniformBreaks text)
    (he : operation.edit? = .ok (.removeEdge source target)) (hs : Session.ofText text = .ok session) :
    ∃ result, applyChanges text [operation] = .ok result ∧
      (TakesFirst source target text result ↔ FindsFirst source target (segments text)) := by
  obtain ⟨hlines, -⟩ := lines_ofText hb hs
  rw [applyChanges, hs]
  simp only [bind, Except.bind, Session.run, Session.step, he, Session.perform]
  rcases Session.removeEdge_cases session source target with
    ⟨hnone, hskip⟩ | ⟨above, line, below, hmiddle, hedge, hfirst, happlied⟩
  · rw [hskip]
    rw [hlines, List.findIdx?_eq_none_iff] at hnone
    exact ⟨_, rfl, takesFirst_skipped_iff.trans (findsFirst_iff_of_none hnone).symm⟩
  · rw [happlied]
    rw [hlines] at hmiddle
    refine ⟨_, rfl, (takesFirst_applied_iff hmiddle).trans ?_⟩
    rw [hmiddle, findsFirst_iff hedge hfirst]

/-- If every line that draws an edge between two nodes is found, lines that are not found draw none. -/
theorem not_drawn_of_not_found (h : ∀ line ∈ lines, ends? (Line.read line) = some (source, target) →
      isEdgeBetween source target line = true)
    (hnone : ∀ line ∈ lines, isEdgeBetween source target line = false) :
    (source, target) ∉ (lines.map Line.read).filterMap ends? := by
  intro hmem
  obtain ⟨_, hread, hends⟩ := List.mem_filterMap.1 hmem
  obtain ⟨line, hline, rfl⟩ := List.mem_map.1 hread
  exact Bool.false_ne_true ((hnone line hline).symm.trans (h line hline hends))

/-- The search finds edges that are all in their usual form and open no lanes. -/
theorem findsFirst_of_usual (hs : IsName source) (ht : IsName target)
    (h : ∀ line ∈ lines, isEdgeBetween source target line = true ∨
      ends? (Line.read line) = some (source, target) →
        UsualEdge source target line ∧ laneOpen? (trim line) = none) :
    FindsFirst source target lines := by
  have hagree : ∀ line ∈ lines, ends? (Line.read line) = some (source, target) →
      isEdgeBetween source target line = true :=
    fun line hline hends => isEdgeBetween_of_usual (h line hline (Or.inr hends)).1
  cases hfind : lines.findIdx? (isEdgeBetween source target) with
  | none =>
    rw [List.findIdx?_eq_none_iff] at hfind
    exact .absent hfind (not_drawn_of_not_found hagree hfind)
  | some found =>
    obtain ⟨above, line, below, rfl, -, hedge, hfirst⟩ := exists_of_findIdx? hfind
    obtain ⟨husual, hopen⟩ := h line (by simp) (Or.inl hedge)
    have hends := ends?_of_usual hs ht husual hopen
    refine .found hedge hfirst hends ?_
    obtain ⟨drawn, _, hkey, hlast, _, _⟩ := drawnEdges_middle hends (above.map Line.read) []
    have habove : ∀ edge ∈ drawnEdges (above.map Line.read), (!edge.joins source target) = true := by
      intro edge hmem
      cases hj : edge.joins source target with
      | false => rfl
      | true =>
        have hnone := not_drawn_of_not_found
          (fun other hother => hagree other (List.mem_append_left _ hother)) hfirst
        exact absurd (mem_ends_of_joins hmem hj) hnone
    rw [List.map_append, List.map_singleton, hlast, List.dropWhile_append_of_pos habove,
      List.getLast?_concat]
    intro edge hmem
    rw [List.mem_singleton.1 (List.dropWhile_subset _ hmem)]

section Again

variable {session next : Session} {inserting removing : Operation} {edge : NewEdge}

theorem mem_insertAt {position : Nat} {other : Text} :
    other ∈ insertAt position line lines ↔ other = line ∨ other ∈ lines := by
  have hcut := List.take_append_drop position lines
  rw [insertAt, List.mem_append, List.mem_cons]
  nth_rewrite 3 [← hcut]
  rw [List.mem_append]
  exact or_left_comm

/-- The lines after a new edge are those before and the edge's line. -/
theorem mem_lines_of_insertEdge (h : session.insertEdge edge = .applied change next) :
    ∃ lane, session.index.nodeLanes.get? edge.source = some lane ∧
      ∀ other, other ∈ next.lines ↔ other = session.edgeLine lane edge ∨ other ∈ session.lines := by
  rw [Session.insertEdge] at h
  cases hlane : session.index.nodeLanes.get? edge.source with
  | none => simp [hlane] at h
  | some lane =>
    cases hspan : session.index.laneSpans.get? lane with
    | none => simp [hlane, hspan] at h
    | some span =>
      simp only [hlane, hspan, Effect.applied.injEq] at h
      obtain ⟨_, rfl⟩ := h
      exact ⟨lane, rfl, fun other => mem_insertAt⟩

theorem mem_lines_of_step (hi : inserting.edit? = .ok (.insertEdge edge))
    (h : session.step inserting = .ok (next, ⟨inserting.op, .applied change⟩)) :
    ∃ lane, session.index.nodeLanes.get? edge.source = some lane ∧
      ∀ other, other ∈ next.lines ↔ other = session.edgeLine lane edge ∨ other ∈ session.lines := by
  rcases Session.step_ok h with ⟨_, _, _, hentry⟩ | ⟨_, _, _, _, _, hentry⟩ |
    ⟨edit, made, hedit, hperform, _⟩
  · cases hentry
  · cases hentry
  · rw [hi, Except.ok.injEq] at hedit
    subst hedit
    exact mem_lines_of_insertEdge (Except.ok.inj hperform)

/-- A request to remove an edge is applied just when some line is found. -/
theorem step_removeEdge (session : Session) (hr : removing.edit? = .ok (.removeEdge source target)) :
    ∃ last entry, session.step removing = .ok (last, entry) ∧ (entry.isApplied = true ↔
      ∃ line ∈ session.lines, isEdgeBetween source target line = true) := by
  simp only [Session.step, hr, Session.perform, bind, Except.bind]
  rcases Session.removeEdge_cases session source target with
    ⟨hnone, hskip⟩ | ⟨above, line, below, hlines, hedge, _, happlied⟩
  · rw [hskip]
    rw [List.findIdx?_eq_none_iff] at hnone
    refine ⟨_, _, rfl, iff_of_false (by simp [Entry.isApplied]) ?_⟩
    rintro ⟨line, hline, hedge⟩
    exact Bool.false_ne_true ((hnone line hline).symm.trans hedge)
  · rw [happlied]
    exact ⟨_, _, rfl, iff_of_true rfl ⟨line, by simp [hlines], hedge⟩⟩

/-- An edge that was put in is removed again just when its line is found, or another was before. -/
theorem removeEdge_after_insertEdge (hs : IsName edge.source) (ht : IsName edge.target)
    (hh : IsHandle edge.sourceHandle) (hi : inserting.edit? = .ok (.insertEdge edge))
    (hr : removing.edit? = .ok (.removeEdge edge.source edge.target))
    (hlanes : ∀ lane, session.index.nodeLanes.get? edge.target = some lane →
      mentions ".handle" lane = false ∧ ∀ c ∈ lane.head?, isBlank c = false)
    (h : session.step inserting = .ok (next, ⟨inserting.op, .applied change⟩)) :
    ∃ last entry, next.step removing = .ok (last, entry) ∧ (entry.isApplied = true ↔
      (∃ line ∈ session.lines, isEdgeBetween edge.source edge.target line = true) ∨
      ∃ lane mark, session.index.nodeLanes.get? edge.source = some lane ∧ LaneMark mark ∧
        session.targetName lane edge.target = mark ++ edge.target) := by
  obtain ⟨lane, hlane, hmem⟩ := mem_lines_of_step hi h
  have hwritten : isEdgeBetween edge.source edge.target (session.edgeLine lane edge) = true ↔
      ∃ mark, LaneMark mark ∧ session.targetName lane edge.target = mark ++ edge.target := by
    refine isEdgeBetween_written_iff hs ht hh ?_
    rcases Session.targetName_eq lane edge.target with hname | ⟨other, hother, _, hname⟩
    · exact Or.inl hname
    · exact Or.inr ⟨other, hname, hlanes other hother⟩
  have hfound : (∃ line ∈ next.lines, isEdgeBetween edge.source edge.target line = true) ↔
      (∃ line ∈ session.lines, isEdgeBetween edge.source edge.target line = true) ∨
      ∃ lane mark, session.index.nodeLanes.get? edge.source = some lane ∧ LaneMark mark ∧
        session.targetName lane edge.target = mark ++ edge.target := by
    simp only [hmem, or_and_right, exists_or, exists_eq_left, hwritten, hlane, Option.some.injEq,
      exists_and_left]
    rw [exists_eq_left', or_comm]
  rw [← hfound]
  exact step_removeEdge next hr

end Again

/-- A request to remove an edge takes out the first edge between its nodes, and is passed over if
there is none, just when the search for it finds that edge. It does if all lines that are found or
draw such an edge have the usual form and open no lane. An edge that was just put in is removed again
just when no more than the name of a lane and a point is written before its target, or another line
is found. -/
theorem removes_first_edge_iff {removing : Operation} (hs : IsName source) (ht : IsName target)
    (he : removing.edit? = .ok (.removeEdge source target)) :
    (∀ text session, UniformBreaks text → Session.ofText text = .ok session →
      ∃ result, applyChanges text [removing] = .ok result ∧
        (TakesFirst source target text result ↔ FindsFirst source target (segments text))) ∧
    (∀ lines : List Text, (∀ line ∈ lines, isEdgeBetween source target line = true ∨
        ends? (Line.read line) = some (source, target) →
          UsualEdge source target line ∧ laneOpen? (trim line) = none) →
      FindsFirst source target lines) ∧
    ∀ (session next : Session) (inserting : Operation) (edge : NewEdge) (change : Change),
      inserting.edit? = .ok (.insertEdge edge) → edge.source = source → edge.target = target →
      IsHandle edge.sourceHandle →
      (∀ lane, session.index.nodeLanes.get? target = some lane →
        mentions ".handle" lane = false ∧ ∀ c ∈ lane.head?, isBlank c = false) →
      session.step inserting = .ok (next, ⟨inserting.op, .applied change⟩) →
      ∃ last entry, next.step removing = .ok (last, entry) ∧ (entry.isApplied = true ↔
        (∃ line ∈ session.lines, isEdgeBetween source target line = true) ∨
        ∃ lane mark, session.index.nodeLanes.get? source = some lane ∧ LaneMark mark ∧
          session.targetName lane target = mark ++ target) := by
  refine ⟨fun text session hb ho => takesFirst_iff hb he ho,
    fun lines h => findsFirst_of_usual hs ht h, ?_⟩
  rintro session next inserting edge change hi rfl rfl hh hlanes hstep
  exact removeEdge_after_insertEdge hs ht hh hi he hlanes hstep

def edgeInsertion : Operation where
  op := "insertEdge"
  newEdge := some ⟨"n1", "n2", none, "right", "left"⟩

def edgeRemoval : Operation where
  op := "removeEdge"
  newEdge := some ⟨"n1", "n2", none, "right", "left"⟩

/-- The edge of the sample text is in its usual form. -/
theorem usualEdge_sample : UsualEdge "n1" "n2" "n1.handle(right) -> n2.handle(left)".toList := by
  have hline : "n1.handle(right) -> n2.handle(left)".toList =
      [] ++ writtenEnd ([] ++ "n1".toList) "right".toList
        ([' '] ++ (arrow ++ ([' '] ++ writtenEnd ([] ++ "n2".toList) "left".toList []))) := by decide
  have hblanks : ∀ c ∈ [] ++ [' '] ++ [' '], isBlank c = true := List.all_eq_true.1 (by decide)
  rw [hline]
  exact .intro hblanks .none ⟨by decide, by decide⟩ .none ⟨by decide, by decide⟩

theorem removes_first_edge_sample :
    (∃ result, applyChanges sample [edgeRemoval] = .ok result ∧ TakesFirst "n1" "n2" sample result) ∧
    ∃ session next last entry, Session.ofText sample = .ok session ∧
      session.step edgeInsertion = .ok (next, ⟨"insertEdge", .applied (.addedEdge "n1" "n2" none)⟩) ∧
      next.step edgeRemoval = .ok (last, entry) ∧ entry.isApplied = true := by
  have hop : edgeRemoval.edit? = .ok (.removeEdge "n1" "n2") := rfl
  obtain ⟨hfirst, husual, hagain⟩ := removes_first_edge_iff (by decide) (by decide) hop
  have hstarts : (Session.ofText sample).toOption.isSome = true := by decide +kernel
  cases ho : Session.ofText sample with
  | error fault => simp [ho, Except.toOption] at hstarts
  | ok session =>
    have hbreaks : UniformBreaks sample := by decide +kernel
    obtain ⟨hsession, -⟩ := ofText_eq_ok hbreaks ho
    have hsegments : segments sample = ["a \x7b".toList, "n1: circle label:\"x\"".toList,
      "n1.handle(right) -> n2.handle(left)".toList, "n2: circle".toList, "\x7d".toList,
      "b \x7b".toList, "\x7d".toList, []] := by decide +kernel
    refine ⟨?_, ?_⟩
    · obtain ⟨result, hresult, hiff⟩ := hfirst sample session hbreaks ho
      refine ⟨result, hresult, hiff.2 (husual _ ?_)⟩
      intro line hline hsome
      rw [hsegments] at hline
      simp only [List.mem_cons, List.not_mem_nil, or_false] at hline
      rcases hline with rfl | rfl | rfl | rfl | rfl | rfl | rfl | rfl
      case inr.inr.inl => exact ⟨usualEdge_sample, rfl⟩
      all_goals exact absurd hsome (by decide +kernel)
    · have hlane : (Session.ofText sample).toOption.bind (·.index.nodeLanes.get? "n2") =
          some "a".toList := by decide +kernel
      have hentry : (Session.ofText sample).toOption.bind (fun session =>
          (session.step edgeInsertion).toOption.map Prod.snd) =
            some ⟨"insertEdge", .applied (.addedEdge "n1" "n2" none)⟩ := by decide +kernel
      rw [ho, Except.toOption, Option.bind_some] at hlane hentry
      cases hstep : session.step edgeInsertion with
      | error fault => simp [hstep, Except.toOption] at hentry
      | ok after =>
        obtain ⟨next, entry⟩ := after
        obtain rfl : entry = ⟨"insertEdge", .applied (.addedEdge "n1" "n2" none)⟩ := by
          simpa [hstep, Except.toOption] using hentry
        obtain ⟨last, entry, hlast, happlied⟩ := hagain session next edgeInsertion
          ⟨"n1", "n2", none, "right", "left"⟩ _ rfl rfl rfl ⟨by decide, by decide⟩
          (fun lane hother => by
            obtain rfl := Option.some.inj (hlane.symm.trans hother)
            refine ⟨by decide, fun c hc => ?_⟩
            obtain rfl : 'a' = c := Option.some.inj hc
            decide) hstep
        refine ⟨session, next, last, entry, rfl, hstep, hlast, happlied.2 (Or.inl ?_)⟩
        rw [hsession]
        exact ⟨_, by simp [hsegments], isEdgeBetween_of_usual usualEdge_sample⟩

/-- A text with a lane whose name is not a word. -/
def hyphenated : Text := "a \x7b\nn1: circle\n\x7d\norder-desk \x7b\nn2: circle\n\x7d\n"

/-- An edge into a lane whose name is not a word is drawn, but it is not found again. -/
theorem new_edge_not_removed : UniformBreaks hyphenated ∧
    (applyChanges hyphenated [edgeInsertion, edgeRemoval]).toOption.map (fun result =>
      (result.entries.map Entry.isApplied, (Graph.ofText result.code).edges.map Edge.ends,
        (applyChanges result.code [edgeRemoval]).toOption.map fun again =>
          again.entries.map Entry.isApplied)) =
      some ([true, false], [("n1".toList, "n2".toList)], some [false]) := by
  decide +kernel

end Patch

end Swimlane
