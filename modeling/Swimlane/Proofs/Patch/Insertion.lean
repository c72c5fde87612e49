import Swimlane.Proofs.Diagram.Labels
import Swimlane.Proofs.Patch.Report

/-! What is read of a node or an edge that was put in, whatever its label holds. -/
namespace Swimlane

open Text Line Escaped

variable {old new : Graph} {text id label lane : Text} {newline : Newline} {shape : Shape}
  {above below : List Text} {line : Text} {current : Option Text} {known : List (Text × Text)}
  {count other : Nat}

/-- An edge without its number, which depends on the edges above. -/
def Edge.content (edge : Edge) : Edge := { edge with id := [] }

theorem content_edgesFrom {lines : List Line} :
    (edgesFrom current known count lines).map Edge.content =
      (edgesFrom current known other lines).map Edge.content := by
  induction lines generalizing current known count other with
  | nil => rfl
  | cons line rest ih =>
    cases line with
    | edge => exact congrArg (_ :: ·) ih
    | _ => exact ih

/-- The edges that are drawn above and below one that is put in. -/
theorem edges_around (above below : List Line) (source target : Reference)
    (sourceHandle targetHandle : Text) (label : Option Text) : ∃ before edge after,
      (edgesFrom current known count (above ++ below)).map Edge.content = before ++ after ∧
      (edgesFrom current known count
        (above ++ .edge source target sourceHandle targetHandle label :: below)).map Edge.content =
        before ++ edge :: after ∧ edge.label = label := by
  rw [edgesFrom_append Classifier.byWords.nodeKind, edgesFrom_append Classifier.byWords.nodeKind,
    List.map_append, List.map_append]
  exact ⟨_, _, _, rfl, congrArg (_ ++ _ :: ·) content_edgesFrom, rfl⟩

/-- One node more, with an id and a label, and the lanes that there were. -/
structure NodeInserted (old new : Graph) (id label : Text) : Prop where
  count : new.nodes.length = old.nodes.length + 1
  label : (new.node? id).map (·.label) = some label
  lanes : ∀ lane, lane ∈ new.lanes.map (·.id) ↔ lane ∈ old.lanes.map (·.id)

/-- One edge more, with a label, and the nodes and lanes that there were. -/
structure EdgeInserted (old new : Graph) (label : Text) : Prop where
  edges : ∃ before edge after, old.edges.map Edge.content = before ++ after ∧
    new.edges.map Edge.content = before ++ edge :: after ∧ edge.label = some label
  nodes : new.nodes = old.nodes
  lanes : ∀ lane, lane ∈ new.lanes.map (·.id) ↔ lane ∈ old.lanes.map (·.id)

theorem breakFree_insert (hb : ∀ other ∈ above ++ below, BreakFree other) (hl : BreakFree line) :
    ∀ other ∈ above ++ line :: below, BreakFree other := by
  intro other hmem
  rw [List.mem_append, List.mem_cons] at hmem
  rcases hmem with hm | rfl | hm
  · exact hb other (List.mem_append_left _ hm)
  · exact hl
  · exact hb other (List.mem_append_right _ hm)

theorem not_mem_of_nodeInserted (h : NodeInserted old (Graph.ofText text) id label) :
    '\r' ∉ label := by
  obtain ⟨node, hnode, hlabel⟩ := Option.map_eq_some_iff.1 h.label
  have hentry := OrderedMap.mem_of_mem_ofList (OrderedMap.mem_of_get? hnode)
  obtain ⟨found, hfound, heq⟩ := List.mem_map.1 hentry
  cases heq
  exact hlabel ▸ (breakFree_node_label hfound).2

theorem not_mem_of_edgeInserted (h : EdgeInserted old (Graph.ofText text) label) : '\r' ∉ label := by
  obtain ⟨before, edge, after, _, hmore, hlabel⟩ := h.edges
  have hmem : edge ∈ before ++ edge :: after := by simp
  rw [← hmore] at hmem
  obtain ⟨found, hfound, rfl⟩ := List.mem_map.1 hmem
  exact (breakFree_edge_label hfound hlabel).2

theorem drawn_length {graph : Graph} {lines : List Text} (h : Drawn graph lines) :
    graph.nodes.length = (Patch.nodeIds lines).length := by
  rw [← drawn_ids h, List.length_map]

/-- Only a line that declares a node makes one node more. -/
theorem exists_of_nodeInserted (hold : Drawn old (above ++ below))
    (hnew : Drawn new (above ++ line :: below)) (h : NodeInserted old new id label) :
    ∃ key shape attributes, Line.read line = .node key shape attributes := by
  have hcount := h.count
  rw [drawn_length hnew, drawn_length hold, Patch.nodeIds_middle, Patch.nodeIds_append] at hcount
  cases hread : nodeId? (Line.read line) with
  | none =>
    rw [hread, Option.toList_none, List.nil_append] at hcount
    omega
  | some key => exact ⟨key, Patch.exists_of_nodeId? hread⟩

/-- Only a line that draws an edge makes one edge more. -/
theorem exists_of_edgeInserted (hold : Drawn old (above ++ below))
    (hnew : Drawn new (above ++ line :: below)) (h : EdgeInserted old new label) :
    ∃ ends, ends? (Line.read line) = some ends := by
  cases hread : ends? (Line.read line) with
  | some ends => exact ⟨ends, rfl⟩
  | none =>
    obtain ⟨before, edge, after, hplain, hmore, _⟩ := h.edges
    have hcount := congrArg List.length
      (hnew.ends.trans ((filterMap_around hread).trans hold.ends.symm))
    have hless := congrArg List.length hplain
    have hone := congrArg List.length hmore
    simp only [List.length_map, List.length_append, List.length_cons] at hcount hless hone
    omega

/-- A line that declares a node of a new id puts the node in. -/
theorem nodeInserted_of_read {attributes : Attributes} (hold : Drawn old (above ++ below))
    (hnew : Drawn new (above ++ line :: below)) (hfresh : id ∉ Patch.nodeIds (above ++ below))
    (hread : Line.read line = .node id shape attributes) :
    NodeInserted old new id (nodeBelow above id shape attributes).label := by
  have hdeclares := Patch.nodeId?_of_read hread
  obtain ⟨_, hlanes⟩ :=
    drawn_around hnew (laneId?_of_nodeId? hdeclares) (ends?_of_nodeId? hdeclares)
  obtain ⟨before, after, hplain, _, hnode⟩ := nodes_around above below
  have hnodes := hnew.nodes.trans (hnode _ _ _ _ hread)
  have honodes := hold.nodes.trans hplain
  refine ⟨?_, ?_, fun lane => by rw [hlanes, hold.lanes]⟩
  · rw [hnodes, honodes, List.length_append, List.length_append, List.length_cons]
    omega
  · have hafter : id ∉ (after.map fun node => (node.id, node)).map Prod.fst := by
      intro hmem
      have hids := drawn_ids hold
      rw [honodes, List.map_append] at hids
      refine hfresh (hids ▸ List.mem_append_right _ ?_)
      simpa using hmem
    have hid : (nodeBelow above id shape attributes).id = id := rfl
    rw [Graph.node?, Graph.nodeMap, hnodes, List.map_append, List.map_cons, hid,
      OrderedMap.get?_ofList_middle hafter, Option.map_some]

/-- The label of a new node reads back just when the node's line can hold it. -/
theorem nodeInserted_iff (hb : ∀ other ∈ above ++ below, BreakFree other)
    (hold : Drawn old (above ++ below)) (hid : IsName id)
    (hfresh : id ∉ Patch.nodeIds (above ++ below)) (hl : normal label ≠ [])
    (hline : line = renderNode id shape [("label".toList, label)]) :
    NodeInserted old (Graph.ofText (newline.join (above ++ line :: below))) id (normal label) ↔
      Fits label := by
  have hbreak : '\r' ∉ normal label → BreakFree line := by
    intro hr
    rw [hline]
    refine breakFree_renderNode shape hid fun entry hmem => ?_
    rw [List.mem_singleton.1 hmem]
    exact ⟨isName_label, hr⟩
  constructor
  · intro h
    have hcarriage := not_mem_of_nodeInserted h
    have hnew := drawn_join newline (breakFree_insert hb (hbreak hcarriage))
    obtain ⟨key, other, attributes, hread⟩ := exists_of_nodeInserted hold hnew h
    rw [hline] at hread
    obtain ⟨harrow, hopens⟩ := quotable_of_read_renderNode hid (by simpa using isName_label) hread
      ("label".toList, label) List.mem_cons_self
    exact ⟨harrow, hopens, hcarriage⟩
  · intro h
    have hnew := drawn_join newline (breakFree_insert hb (hbreak h.carriage))
    have hread : Line.read line = .node id shape (.ofList [("label".toList, normal label)]) := by
      rw [hline]
      exact read_renderNode shape hid (by simpa using ⟨isName_label, h.quotable⟩)
    obtain ⟨c, rest, hc⟩ := List.exists_cons_of_ne_nil hl
    have hlabel : (nodeBelow above id shape (.ofList [("label".toList, normal label)])).label =
        normal label := by
      simp [nodeBelow, declaredNode, OrderedMap.ofList, hc, nonempty?]
    exact hlabel ▸ nodeInserted_of_read hold hnew hfresh hread

/-- The label that is read behind the end of an edge. -/
def labelBehind (target handle label : Text) : Option Text :=
  ((target? (edgeRest target handle (some label))).bind fun point =>
    (edgeLabel? point.rest).bind nonempty?).map decode

/-- A label whose normal form an edge's line can hold behind its target. -/
structure EdgeFits (target handle label : Text) : Prop where
  carriage : '\r' ∉ normal label
  brace : opensLabel (normal label) = false
  targetBrace : opensLabel target = false
  reached : labelBehind target handle label = some (normal label)

instance {target handle label : Text} : Decidable (EdgeFits target handle label) :=
  decidable_of_iff ('\r' ∉ normal label ∧ opensLabel (normal label) = false ∧
      opensLabel target = false ∧ labelBehind target handle label = some (normal label))
    ⟨fun ⟨hcarriage, hbrace, htarget, hreached⟩ => ⟨hcarriage, hbrace, htarget, hreached⟩,
      fun h => ⟨h.carriage, h.brace, h.targetBrace, h.reached⟩⟩

theorem labelBehind_eq {target handle : Text} (hn : '\n' ∉ target)
    (hm : mentions handleStart target = false) (hb : ∃ c ∈ target, isBlank c = false)
    (hh : IsName handle) (hl : normal label ≠ []) :
    labelBehind target handle label = some (normal label) := by
  have hne : encode label ≠ [] := by
    intro hnil
    have hdecode := decode_encode label
    rw [hnil] at hdecode
    exact hl hdecode.symm
  obtain ⟨c, rest, hc⟩ := List.exists_cons_of_ne_nil hne
  rw [labelBehind, target?_edgeRest hn hm hb hh, Option.bind_some, edgeLabel?_writtenLabel,
    Option.map_some, Option.bind_some, ← decode_encode, hc]
  rfl

/-- A written target with nothing in its name, or its lane's, that is read as something else. -/
structure PlainTarget (target : Text) : Prop where
  handle : mentions handleStart target = false
  brace : opensLabel target = false

/-- Behind a plain target only the label itself can do harm. -/
theorem edgeFits_iff {target handle : Text} (hn : '\n' ∉ target) (hp : PlainTarget target)
    (hb : ∃ c ∈ target, isBlank c = false) (hh : IsName handle) (hl : normal label ≠ []) :
    EdgeFits target handle label ↔ '\r' ∉ normal label ∧ opensLabel (normal label) = false :=
  ⟨fun h => ⟨h.carriage, h.brace⟩, fun ⟨hcarriage, hopens⟩ =>
    ⟨hcarriage, hopens, hp.brace, labelBehind_eq hn hp.handle hb hh hl⟩⟩

theorem eq_of_middle {α : Type} [DecidableEq α] {x y : α} {before after left right : List α}
    (h : before ++ after = left ++ right) (hm : before ++ x :: after = left ++ y :: right) :
    x = y := by
  have hplain := congrArg (List.count x) h
  have hmore := congrArg (List.count x) hm
  rw [List.count_append, List.count_append] at hplain
  rw [List.count_append, List.count_append, List.count_cons_self, List.count_cons] at hmore
  split at hmore
  · next heq => exact (beq_iff_eq.1 heq).symm
  · omega

/-- The edges of a text, and those of its lines with one more that draws an edge. -/
theorem edges_inserted {source target : Reference} {sourceHandle targetHandle : Text}
    {label : Option Text} (hb : ∀ other ∈ above ++ line :: below, BreakFree other)
    (hlines : segments text = above ++ below)
    (hread : Line.read line = .edge source target sourceHandle targetHandle label) :
    ∃ before edge after, (Graph.ofText text).edges.map Edge.content = before ++ after ∧
      (Graph.ofText (newline.join (above ++ line :: below))).edges.map Edge.content =
        before ++ edge :: after ∧ edge.label = label := by
  rw [Graph.edges_ofText, Graph.edges_ofText, readings_join newline (by simp) hb, readings, hlines,
    List.map_append, List.map_append, List.map_cons, hread]
  exact edges_around _ _ _ _ _ _ _

/-- A line that draws an edge with a label puts the edge in. -/
theorem edgeInserted_of_read {source target : Reference} {sourceHandle targetHandle : Text}
    (hb : ∀ other ∈ above ++ line :: below, BreakFree other)
    (hlines : segments text = above ++ below)
    (hread : Line.read line = .edge source target sourceHandle targetHandle (some label)) :
    EdgeInserted (Graph.ofText text) (Graph.ofText (newline.join (above ++ line :: below)))
      label := by
  have hold := drawn_ofText text
  rw [hlines] at hold
  have hinert : Inert (Line.read line) := by
    rw [hread]
    trivial
  obtain ⟨hnodes, hlanes⟩ := unchanged_around hold (drawn_join newline hb) hinert
  exact ⟨edges_inserted hb hlines hread, hnodes, fun lane => by rw [hlanes]⟩

/-- If one edge more has the label, then it is the edge that the line draws. -/
theorem eq_of_edgeInserted {source target : Reference} {sourceHandle targetHandle : Text}
    {found : Option Text} (hb : ∀ other ∈ above ++ line :: below, BreakFree other)
    (hlines : segments text = above ++ below)
    (hread : Line.read line = .edge source target sourceHandle targetHandle found)
    (h : EdgeInserted (Graph.ofText text) (Graph.ofText (newline.join (above ++ line :: below)))
      label) : found = some label := by
  obtain ⟨before, edge, after, hplain, hmore, hlabel⟩ := h.edges
  obtain ⟨left, drawn, right, hleft, hmiddle, hdrawn⟩ := edges_inserted hb hlines hread
  have hsame := eq_of_middle (hplain.symm.trans hleft) (hmore.symm.trans hmiddle)
  rw [← hdrawn, ← hsame, hlabel]

/-- The label of a new edge reads back just when the edge's line can hold it behind the target. -/
theorem edgeInserted_iff {source sourceHandle target targetHandle : Text}
    (hb : ∀ other ∈ above ++ below, BreakFree other) (hlines : segments text = above ++ below)
    (hs : IsName source) (hsh : IsName sourceHandle) (hth : IsName targetHandle)
    (ht : BreakFree target) (hne : ∃ c ∈ target, isBlank c = false)
    (hline : line = renderEdge source sourceHandle target targetHandle (some label)) :
    EdgeInserted (Graph.ofText text) (Graph.ofText (newline.join (above ++ line :: below)))
      (normal label) ↔ EdgeFits target targetHandle label := by
  obtain ⟨point, hpoint⟩ := Option.isSome_iff_exists.1 (target?_isSome (some label) ht.1 hne hth)
  have hbreak : '\r' ∉ normal label → BreakFree line := by
    intro hr
    rw [hline]
    exact breakFree_renderEdge hs hsh hth ht (by simpa using hr)
  have hclosed : BreakFree line → (laneOpen? (trim line) = none ↔
      opensLabel target = false ∧ opensLabel (normal label) = false) := by
    intro hfree
    rw [hline] at hfree ⊢
    simpa using laneOpen?_renderEdge hs hsh hth hfree.1
  have hread : laneOpen? (trim line) = none → Line.read line =
      .edge (.ofText source) (.ofText point.name) (lower (trim sourceHandle))
        (lower (trim point.handle)) (labelBehind target targetHandle label) := by
    intro hopen
    rw [hline] at hopen ⊢
    rw [read_renderEdge hs hsh hopen hpoint, labelBehind, hpoint, Option.bind_some]
  constructor
  · intro h
    have hcarriage := not_mem_of_edgeInserted h
    have hbreaks := breakFree_insert hb (hbreak hcarriage)
    -- A line that opens a lane draws no edge, so that there is none more.
    have hopen : laneOpen? (trim line) = none := by
      cases hfound : laneOpen? (trim line) with
      | none => rfl
      | some found =>
        have hold := drawn_ofText text
        rw [hlines] at hold
        obtain ⟨ends, hends⟩ := exists_of_edgeInserted hold (drawn_join newline hbreaks) h
        obtain ⟨_, _, hlane⟩ := Option.map_eq_some_iff.1 hfound
        rw [Line.read, hfound, ← hlane] at hends
        cases hends
    obtain ⟨htarget, hlabel⟩ := (hclosed (hbreak hcarriage)).1 hopen
    exact ⟨hcarriage, hlabel, htarget, eq_of_edgeInserted hbreaks hlines (hread hopen) h⟩
  · intro h
    have hbreaks := breakFree_insert hb (hbreak h.carriage)
    have hedge := hread ((hclosed (hbreak h.carriage)).2 ⟨h.targetBrace, h.brace⟩)
    rw [h.reached] at hedge
    exact edgeInserted_of_read hbreaks hlines hedge

namespace Patch

variable {session next : Session} {operation : Operation} {edit : Edit} {change : Change}
  {edge : NewEdge} {result : Result} {fault : Fault}

/-- Some block of a lane is closed in a text. -/
def HasClosedBlock (text lane : Text) : Prop := ∃ above line below,
  segments text = above ++ line :: below ∧ Line.read line = .laneClose ∧
    openLane (above.map Line.read) = some lane

/-- The id that the first node that is put into a text is given. -/
def firstId (text : Text) : Except Fault Text := (Session.ofText text).bind Session.nextId

theorem exists_span (h : HasClosedBlock text lane) :
    ∃ span, (LineIndex.scan (segments text)).laneSpans.get? lane = some span := by
  obtain ⟨above, line, below, hlines, hclose, hopen⟩ := h
  have hbelow : (openBelow above).map Prod.fst = some lane := by
    rw [openBelow, map_fst_openFrom]
    exact hopen
  obtain ⟨⟨_, position⟩, hopening, rfl⟩ := Option.map_eq_some_iff.1 hbelow
  rw [hlines]
  exact Option.isSome_iff_exists.1 (LineIndex.isSome_laneSpan hclose hopening)

theorem applyChanges_applied (hs : Session.ofText text = .ok session)
    (hop : operation.edit? = .ok edit) (hp : session.perform edit = .ok (.applied change next)) :
    applyChanges text [operation] = .ok ⟨next.text, [⟨operation.op, .applied change⟩]⟩ := by
  simp [applyChanges, hs, Session.run, Session.step, hop, hp, bind, Except.bind, pure, Except.pure]

theorem applyChanges_skipped {reason : SkipReason} (hs : Session.ofText text = .ok session)
    (hop : operation.edit? = .ok edit) (hp : session.perform edit = .ok (.skipped reason session)) :
    applyChanges text [operation] = .ok ⟨session.text, [⟨operation.op, .skipped reason⟩]⟩ := by
  simp [applyChanges, hs, Session.run, Session.step, hop, hp, bind, Except.bind, pure, Except.pure]

theorem isName_of_mem (h : id ∈ (Graph.ofText text).nodes.map (·.id)) : IsName id := by
  rw [drawn_ids (drawn_ofText text)] at h
  exact isName_of_mem_nodeIds h

/-- A node can be put into every lane with a closed block, and is read with the normal form of its
label just when its line can hold it. -/
theorem insertNode_reads_back {after before : Option Text} (hb : UniformBreaks text)
    (hl : normal label ≠ [])
    (hop : operation.edit? = .ok (.insertNode lane shape (some label) .empty after before))
    (hlane : HasClosedBlock text lane) (hid : firstId text = .ok id) :
    ∃ result, applyChanges text [operation] = .ok result ∧
      result.entries = [⟨operation.op, .applied (.addedNode label id lane)⟩] ∧
      (NodeInserted (Graph.ofText text) (Graph.ofText result.code) id (normal label) ↔
        Fits label) := by
  obtain ⟨session, hs, hnext⟩ : ∃ session, Session.ofText text = .ok session ∧
      session.nextId = .ok id := by
    cases hs : Session.ofText text with
    | error fault => simp [firstId, hs, Except.bind] at hid
    | ok session => exact ⟨session, rfl, by simpa [firstId, hs, Except.bind] using hid⟩
  obtain ⟨hlines, hindex⟩ := lines_ofText hb hs
  obtain ⟨span, hspan⟩ := exists_span hlane
  rcases Session.insertNode_cases hindex lane shape (some label) .empty after before with
    ⟨hnone, _⟩ | ⟨fault, hfault, _⟩ | ⟨above, below, hparts, _, _, happlied⟩
  · rw [hindex.laneSpans, hlines, hspan] at hnone
    cases hnone
  · rw [hnext] at hfault
    cases hfault
  · obtain ⟨rfl, _⟩ := Session.nextId_eq_ok hnext
    refine ⟨_, applyChanges_applied hs hop happlied, rfl, ?_⟩
    have hhighest := (ofText_eq_ok hb hs).2
    have hfresh := freshId_not_mem hnext (hlines ▸ hhighest.bound)
    have hold := drawn_ofText text
    rw [← hlines, hparts] at hold
    rw [hparts] at hfresh
    refine nodeInserted_iff (fun line hmem => ?_) hold (isName_freshId session) hfresh hl rfl
    exact breakFree_of_mem_segments (hlines ▸ hparts ▸ hmem)

/-- An edge that is put in between nodes of the text is read with the normal form of its label just
when its line can hold it behind the target's name. -/
theorem insertEdge_reads_back (hb : UniformBreaks text) (hl : normal label ≠ [])
    (hop : operation.edit? = .ok (.insertEdge edge)) (hlabel : edge.label = some label)
    (hsource : edge.source ∈ (Graph.ofText text).nodes.map (·.id))
    (htarget : edge.target ∈ (Graph.ofText text).nodes.map (·.id))
    (hsh : IsName edge.sourceHandle) (hth : IsName edge.targetHandle)
    (hs : Session.ofText text = .ok session)
    (hlane : session.index.nodeLanes.get? edge.source = some lane)
    (hr : applyChanges text [operation] = .ok result)
    (ha : result.entries = [⟨operation.op, .applied change⟩]) :
    (EdgeInserted (Graph.ofText text) (Graph.ofText result.code) (normal label) ↔
      EdgeFits (session.targetName lane edge.target) edge.targetHandle label) ∧
    (PlainTarget (session.targetName lane edge.target) →
      (EdgeFits (session.targetName lane edge.target) edge.targetHandle label ↔
        '\r' ∉ normal label ∧ opensLabel (normal label) = false)) := by
  obtain ⟨hlines, hindex⟩ := lines_ofText hb hs
  have hname := isName_of_mem htarget
  rcases Session.insertEdge_cases hindex edge with
    ⟨reason, hskip⟩ | ⟨found, above, below, hparts, hfound, happlied⟩
  · rw [applyChanges_skipped hs hop (congrArg Except.ok hskip)] at hr
    cases hr
    cases ha
  · rw [applyChanges_applied hs hop (congrArg Except.ok happlied)] at hr
    cases hr
    cases hfound.symm.trans hlane
    have hbreaks : ∀ line ∈ session.lines, BreakFree line := fun line hmem =>
      breakFree_of_mem_segments (hlines ▸ hmem)
    have hfree := breakFree_targetName lane hindex hbreaks hname
    have hblank := exists_targetName session lane hname
    refine ⟨?_, fun hplain => edgeFits_iff hfree.1 hplain hblank hth hl⟩
    refine edgeInserted_iff (fun line hmem => ?_) (hlines ▸ hparts) (isName_of_mem hsource) hsh hth
      hfree hblank ?_
    · exact hbreaks line (hparts ▸ hmem)
    · rw [Session.edgeLine, hlabel]

/-- What is put in with a label is read with its normal form just when its line can hold it. -/
theorem label_reads_back_iff {text label : Text} (hb : UniformBreaks text) (hl : normal label ≠ []) :
    (∀ operation lane shape after before id,
      operation.edit? = .ok (.insertNode lane shape (some label) .empty after before) →
      HasClosedBlock text lane → firstId text = .ok id →
      ∃ result, applyChanges text [operation] = .ok result ∧
        result.entries = [⟨operation.op, .applied (.addedNode label id lane)⟩] ∧
        (NodeInserted (Graph.ofText text) (Graph.ofText result.code) id (normal label) ↔
          Fits label)) ∧
    ∀ operation edge session lane result change,
      operation.edit? = .ok (.insertEdge edge) → edge.label = some label →
      edge.source ∈ (Graph.ofText text).nodes.map (·.id) →
      edge.target ∈ (Graph.ofText text).nodes.map (·.id) →
      IsName edge.sourceHandle → IsName edge.targetHandle →
      Session.ofText text = .ok session →
      session.index.nodeLanes.get? edge.source = some lane →
      applyChanges text [operation] = .ok result →
      result.entries = [⟨operation.op, .applied change⟩] →
      (EdgeInserted (Graph.ofText text) (Graph.ofText result.code) (normal label) ↔
        EdgeFits (session.targetName lane edge.target) edge.targetHandle label) ∧
      (PlainTarget (session.targetName lane edge.target) →
        (EdgeFits (session.targetName lane edge.target) edge.targetHandle label ↔
          '\r' ∉ normal label ∧ opensLabel (normal label) = false)) := by
  refine ⟨fun operation lane shape after before id hop hlane hid => ?_, ?_⟩
  · exact insertNode_reads_back hb hl hop hlane hid
  · intro operation edge session lane result change hop hlabel hsource htarget hsh hth hs hlane hr ha
    exact insertEdge_reads_back hb hl hop hlabel hsource htarget hsh hth hs hlane hr ha

/-- An operation that draws an edge with a label in the sample. -/
def sampleConnection : Operation where
  op := "insertEdge"
  newEdge := some ⟨"n2", "n1", some "go", "right", "left"⟩

theorem hasClosedBlock_sample : HasClosedBlock sample "a" :=
  ⟨["a \x7b", "n1: circle label:\"x\"", "n1.handle(right) -> n2.handle(left)", "n2: circle"],
    "\x7d", ["b \x7b", "\x7d", ""], by decide +kernel, rfl, by decide +kernel⟩

/-- A label that both lines can hold. -/
theorem label_reads_back_sample : (∃ result, applyChanges sample [sampleInsertion] = .ok result ∧
      NodeInserted (Graph.ofText sample) (Graph.ofText result.code) "n3" "go") ∧
    ∃ result, applyChanges sample [sampleConnection] = .ok result ∧
      EdgeInserted (Graph.ofText sample) (Graph.ofText result.code) "go" := by
  have hbreaks : UniformBreaks sample := by decide +kernel
  have hlabel : normal "go" ≠ [] := by decide +kernel
  obtain ⟨hnode, hedge⟩ := label_reads_back_iff hbreaks hlabel
  constructor
  · obtain ⟨result, hr, _, hiff⟩ := hnode sampleInsertion "a" .rectangle none none "n3" rfl
      hasClosedBlock_sample (by decide +kernel)
    exact ⟨result, hr, hiff.2 (by decide +kernel)⟩
  · have hstart : (Session.ofText sample).toOption.map (fun session =>
        (session.index.nodeLanes.get? "n2", session.targetName "a" "n1")) =
          some (some "a".toList, "n1".toList) := by decide +kernel
    have happlied : (applyChanges sample [sampleConnection]).toOption.map (·.entries) =
        some [⟨sampleConnection.op, .applied (.addedEdge "n2" "n1" (some "go"))⟩] := by
      decide +kernel
    cases hs : Session.ofText sample with
    | error fault => simp [hs, Except.toOption] at hstart
    | ok session =>
      cases hr : applyChanges sample [sampleConnection] with
      | error fault => simp [hr, Except.toOption] at happlied
      | ok result =>
        rw [hs] at hstart
        rw [hr] at happlied
        obtain ⟨hlane, hname⟩ := Prod.mk.inj (Option.some.inj hstart)
        refine ⟨result, rfl, (hedge sampleConnection ⟨"n2", "n1", some "go", "right", "left"⟩ session
          "a" result _ rfl rfl (by decide +kernel) (by decide +kernel) (by decide) (by decide) hs hlane
          hr (Option.some.inj happlied)).1.2 ?_⟩
        rw [hname]
        decide +kernel

/-- An operation that puts in a node with an arrow in its label. -/
def arrowInsertion : Operation where
  op := "insertNode"
  laneId := some "a"
  newNode := some ⟨none, some "a->b", .empty⟩

/-- The line of a label with an arrow in it is written, but no node is read in it. -/
theorem arrow_label_not_read : ¬ ∀ (text label : Text) (operation : Operation) (lane : Text)
    (shape : Shape) (after before : Option Text) (id : Text), UniformBreaks text → normal label ≠ [] →
    operation.edit? = .ok (.insertNode lane shape (some label) .empty after before) →
    HasClosedBlock text lane → firstId text = .ok id →
    ∃ result, applyChanges text [operation] = .ok result ∧
      NodeInserted (Graph.ofText text) (Graph.ofText result.code) id (normal label) := by
  intro h
  obtain ⟨result, hr, hinserted⟩ := h sample "a->b" arrowInsertion "a" .rectangle none none "n3"
    (by decide +kernel) (by decide +kernel) rfl hasClosedBlock_sample (by decide +kernel)
  have hold : (Graph.ofText sample).nodes.length = 2 := by decide +kernel
  have hnew : (applyChanges sample [arrowInsertion]).toOption.map (fun result =>
      (Graph.ofText result.code).nodes.length) = some 2 := by decide +kernel
  rw [hr] at hnew
  have hsame : (Graph.ofText result.code).nodes.length = 2 := Option.some.inj hnew
  have hcount := hinserted.count
  omega

end Patch

end Swimlane
