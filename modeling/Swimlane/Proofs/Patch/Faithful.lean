import Swimlane.Proofs.Diagram.EdgeLine
import Swimlane.Proofs.Patch.Numbering

/-! Clean edits of a session that is faithful to its lines, and that it stays so: the index that is
kept up to date by shifts is always the one that a new scan of the lines gives. -/
namespace Swimlane.Patch

open Text Line

variable {c : Char} {session next : Session} {id lane source target line new : Text} {shape : Shape}
  {label after before : Option Text} {attributes : Attributes} {change : Change} {edit : Edit}
  {lines above below : List Text} {position : Int} {edge : NewEdge} {number : Nat}

/-- Lines that declare each node once, under a number no higher than the last that was given, and
whose lanes have no name that can be taken for something else. -/
structure Sound (lines : List Text) (lastId : Nat) : Prop where
  breaks : ∀ line ∈ lines, BreakFree line
  distinct : (nodeIds lines).Nodup
  lanes : ∀ line ∈ lines, ∀ id label, Line.read line = .laneOpen id label →
    mentions arrow line = false ∧ '\x7b' ∉ id
  numbers : ∀ id ∈ nodeIds lines, ∃ number ≤ lastId, LineIndex.sequentialNumber id = .ok number

/-- A session with sound lines and their index. -/
structure Faithful (session : Session) : Prop extends Sound session.lines session.lastId where
  index : session.Indexed

/-- Attributes with names for keys and values that no line can take for something else. -/
def CleanAttributes (attributes : Attributes) : Prop :=
  ∀ entry ∈ attributes.entries, IsName entry.1 ∧ CleanValue entry.2

/-- An edit that names nodes, attributes and handles by names and writes clean values. -/
def Edit.IsClean : Edit → Prop
  | .insertNode _ _ label properties _ _ =>
    (∀ text ∈ label, CleanValue text) ∧ CleanAttributes properties
  | .removeNode _ => True
  | .updateNode _ updates => CleanAttributes updates
  | .insertEdge edge => IsName edge.source ∧ IsName edge.target ∧ IsName edge.sourceHandle ∧
      IsName edge.targetHandle ∧ ∀ text ∈ edge.label, CleanValue text
  | .removeEdge source target => IsName source ∧ IsName target

instance : DecidablePred CleanAttributes := fun attributes =>
  inferInstanceAs (Decidable (∀ entry ∈ attributes.entries, IsName entry.1 ∧ CleanValue entry.2))

instance : DecidablePred Edit.IsClean
  | .insertNode _ _ label properties _ _ =>
    inferInstanceAs (Decidable ((∀ text ∈ label, CleanValue text) ∧ CleanAttributes properties))
  | .removeNode _ => isTrue trivial
  | .updateNode _ updates => inferInstanceAs (Decidable (CleanAttributes updates))
  | .insertEdge edge =>
    inferInstanceAs (Decidable (IsName edge.source ∧ IsName edge.target ∧
      IsName edge.sourceHandle ∧ IsName edge.targetHandle ∧ ∀ text ∈ edge.label, CleanValue text))
  | .removeEdge source target => inferInstanceAs (Decidable (IsName source ∧ IsName target))

/-- An operation that asks for a clean edit, or for none. -/
def Operation.IsClean (operation : Operation) : Prop :=
  ∀ edit, operation.edit? = .ok edit → edit.IsClean

instance : DecidablePred Operation.IsClean := fun operation =>
  match h : operation.edit? with
  | .ok edit => decidable_of_iff edit.IsClean
      ⟨fun hc _ he => Except.ok.inj (h.symm.trans he) ▸ hc, fun hc => hc edit h⟩
  | .error _ => isTrue fun _ he => by simp [h] at he

theorem nodeId?_of_read (h : Line.read line = .node id shape attributes) :
    nodeId? (Line.read line) = some id := by
  rw [h]
  rfl

theorem exists_of_nodeId? (h : nodeId? (Line.read line) = some id) :
    ∃ shape attributes, Line.read line = .node id shape attributes := by
  cases hr : Line.read line <;> simp only [hr, nodeId?, reduceCtorEq, Option.some.injEq] at h
  exact ⟨_, _, by rw [h]⟩

/-- A node that is declared has a name for an id. -/
theorem isName_of_mem_nodeIds (h : id ∈ nodeIds lines) : IsName id := by
  obtain ⟨declared, hdeclared, hid⟩ := List.mem_filterMap.1 h
  obtain ⟨line, _, rfl⟩ := List.mem_map.1 hdeclared
  obtain ⟨shape, attributes, hread⟩ := exists_of_nodeId? hid
  obtain ⟨head, _, _, _, _, hhead, _⟩ := exists_nodeHead_of_read hread
  cases hhead with
  | intro hm hname hg => exact hname

theorem fitsAll_newAttributes {properties : Attributes} (hl : ∀ text ∈ label, Fits text)
    (hp : CleanAttributes properties) : FitsAll (Session.newAttributes label properties) := by
  intro entry hmem
  rcases List.mem_append.1 hmem with hmem | hmem
  · obtain ⟨text, htext, rfl⟩ := List.mem_map.1 hmem
    exact ⟨isName_label, hl text (Option.mem_toList.1 htext)⟩
  · obtain ⟨hk, hv⟩ := hp entry hmem
    exact ⟨hk, fits_of_clean hv⟩

theorem isName_freshId (session : Session) : IsName session.freshId := by
  refine ⟨by simp [Session.freshId], fun c hc => ?_⟩
  rcases List.mem_cons.1 hc with rfl | hc
  · decide
  · exact isWord_of_mem_ofNat hc

/-- The line of a new node with clean attributes declares the node. -/
theorem exists_read_newNode (session : Session) (shape : Shape) {properties : Attributes}
    (hl : ∀ text ∈ label, CleanValue text) (hp : CleanAttributes properties) :
    BreakFree (renderNode session.freshId shape (Session.newAttributes label properties)) ∧
      ∃ attributes, Line.read (renderNode session.freshId shape
        (Session.newAttributes label properties)) = .node session.freshId shape attributes := by
  have hfit := fitsAll_newAttributes (fun text htext => fits_of_clean (hl text htext)) hp
  have hname := isName_freshId session
  have hbreak := breakFree_renderNode shape hname fun entry hmem =>
    ⟨(hfit entry hmem).1, (hfit entry hmem).2.carriage⟩
  exact ⟨hbreak, read_of_declares (declares_renderNode shape hname hfit) hbreak.1⟩

/-- The line of a node declares the node after clean updates. -/
theorem nodeId?_updateAll {updates : Attributes} (h : nodeId? (Line.read line) = some id)
    (hb : BreakFree line) (hc : CleanAttributes updates)
    (hu : updateAll line updates.entries = .ok new) :
    nodeId? (Line.read new) = some id ∧ BreakFree new := by
  obtain ⟨shape, attributes, hread⟩ := exists_of_nodeId? h
  have hfit : FitsAll updates.entries := fun entry hmem =>
    ⟨(hc entry hmem).1, fits_of_clean (hc entry hmem).2⟩
  obtain ⟨⟨other, hnew⟩, hfree⟩ := declares_updateAll (declares_of_read hb.1 hread) hb hfit hu
  obtain ⟨written, hwritten⟩ := read_of_declares hnew hfree.1
  exact ⟨nodeId?_of_read hwritten, hfree⟩

/-- The next id is new to lines whose ids have no higher number than the last that was given. -/
theorem freshId_not_mem (hid : session.nextId = .ok id) (h : ∀ id ∈ nodeIds session.lines,
    ∃ number ≤ session.lastId, LineIndex.sequentialNumber id = .ok number) :
    session.freshId ∉ nodeIds session.lines := by
  intro hmem
  obtain ⟨number, hle, hnumber⟩ := h _ hmem
  rw [Session.freshId, sequentialNumber_ofNat (Session.nextId_eq_ok hid).2] at hnumber
  cases hnumber
  omega

/-- A lane that is open below some lines is opened by one of them. -/
theorem exists_of_openBelow (h : openBelow lines = some (lane, position)) :
    ∃ line ∈ lines, ∃ label, Line.read line = .laneOpen lane label := by
  induction lines using List.reverseRecOn with
  | nil => simp [openBelow, openFrom] at h
  | append_singleton rest line ih =>
    rw [openBelow_concat] at h
    have hrest : openBelow rest = some (lane, position) →
        ∃ other ∈ rest ++ [line], ∃ label, Line.read other = .laneOpen lane label := by
      intro ho
      obtain ⟨other, hmem, hread⟩ := ih ho
      exact ⟨other, List.mem_append_left _ hmem, hread⟩
    cases hr : Line.read line with
    | laneOpen id label =>
      simp only [hr, openAfter, Option.some.injEq, Prod.mk.injEq] at h
      exact ⟨line, by simp, label, by rw [hr, h.1]⟩
    | laneClose => simp [hr, openAfter] at h
    | _ => exact hrest (by simpa [hr, openAfter] using h)

/-- The lane of a node is the default one or is opened by a line. -/
theorem laneBelow_cases (lines : List Text) : laneBelow lines = defaultLane ∨
    ∃ line ∈ lines, ∃ label, Line.read line = .laneOpen (laneBelow lines) label := by
  cases h : openBelow lines with
  | none => exact Or.inl (by rw [laneBelow, h]; rfl)
  | some opening =>
    rw [laneBelow_of_open h]
    exact Or.inr (exists_of_openBelow h)

/-- A lane that an index has for a node is the default one or is opened by a line. -/
theorem nodeLane_cases (h : (LineIndex.scan lines).nodeLanes.get? id = some lane) :
    lane = defaultLane ∨ ∃ line ∈ lines, ∃ label, Line.read line = .laneOpen lane label := by
  have hsome : ((LineIndex.scan lines).nodeLines.get? id).isSome := by
    rw [(LineIndex.isSome_get?_scan _ _).1, ← (LineIndex.isSome_get?_scan _ _).2, h]
    rfl
  obtain ⟨position, hposition⟩ := Option.isSome_iff_exists.1 hsome
  obtain ⟨above, node, below, rfl, _, _, hbelow, _⟩ := LineIndex.exists_nodeLine hposition
  have hlane : laneBelow above = lane := Option.some.inj (hbelow.symm.trans h)
  rw [← hlane]
  rcases laneBelow_cases above with hdefault | ⟨line, hmem, label, hread⟩
  · exact Or.inl hdefault
  · exact Or.inr ⟨line, List.mem_append_left _ hmem, label, hread⟩

/-- What an edge writes for its target ends in the target and has the characters of a lane. -/
theorem targetName_cases (h : session.Indexed) (lane target : Text) :
    session.targetName lane target = target ∨
    ∃ other line label, line ∈ session.lines ∧ Line.read line = .laneOpen other label ∧
      session.targetName lane target = other ++ '.' :: target := by
  rw [Session.targetName]
  cases hlane : session.index.nodeLanes.get? target with
  | none => exact Or.inl rfl
  | some other =>
    simp only
    split
    · exact Or.inl rfl
    · next hwritten =>
      simp only [Bool.or_eq_true, decide_eq_true_eq, not_or] at hwritten
      rw [h.nodeLanes] at hlane
      rcases nodeLane_cases hlane with hdefault | ⟨line, hmem, label, hread⟩
      · exact absurd hdefault hwritten.2
      · exact Or.inr ⟨other, line, label, hmem, hread, by simp⟩

theorem breakFree_targetName (lane : Text) (h : session.Indexed) (hb : ∀ line ∈ session.lines, BreakFree line)
    (ht : IsName target) : BreakFree (session.targetName lane target) := by
  rcases targetName_cases h lane target with hname | ⟨other, line, label, hmem, hread, hname⟩
  · rw [hname]
    exact breakFree_name ht
  · have hdot : BreakFree ['.'] := by decide
    rw [hname]
    exact breakFree_append (breakFree_of_subset (fun c => mem_of_read_laneOpen hread) (hb line hmem))
      (breakFree_append hdot (breakFree_name ht))

theorem exists_targetName (session : Session) (lane : Text) (ht : IsName target) :
    ∃ c ∈ session.targetName lane target, isBlank c = false := by
  obtain ⟨c, more, rfl⟩ := List.exists_cons_of_ne_nil ht.1
  have hc := isBlank_of_isWord (ht.2 c (by simp))
  refine ⟨c, ?_, hc⟩
  rw [Session.targetName]
  split
  · split <;> simp
  · simp

theorem opensLabel_targetName (hf : Faithful session) (ht : IsName target) :
    opensLabel (session.targetName lane target) = false := by
  apply opensLabel_eq_false_of_not_mem
  have htarget : '\x7b' ∉ target := fun hm => absurd (ht.2 _ hm) (by decide)
  rcases targetName_cases hf.index lane target with hname | ⟨other, line, label, hmem, hread, hname⟩
  · rwa [hname]
  · have hother := (hf.lanes line hmem other label hread).2
    rw [hname]
    intro hm
    rcases List.mem_append.1 hm with hm | hm
    · exact hother hm
    · rcases List.mem_cons.1 hm with hm | hm
      · exact absurd hm (by decide)
      · exact htarget hm

theorem breakFree_edgeLine (lane : Text) (hf : Faithful session) (he : (Edit.insertEdge edge).IsClean) :
    BreakFree (session.edgeLine lane edge) := by
  obtain ⟨hs, ht, hsh, hth, hl⟩ := he
  exact breakFree_renderEdge hs hsh hth (breakFree_targetName lane hf.index hf.breaks ht)
    fun text htext => (fits_of_clean (hl text htext)).carriage

/-- A clean edge of a faithful session is read as an edge from its source. -/
theorem exists_read_edgeLine (lane : Text) (hf : Faithful session) (he : (Edit.insertEdge edge).IsClean) :
    ∃ point, target? (edgeRest (session.targetName lane edge.target) edge.targetHandle edge.label) =
        some point ∧
      Line.read (session.edgeLine lane edge) = .edge (.ofText edge.source) (.ofText point.name)
        (lower (trim edge.sourceHandle)) (lower (trim point.handle))
        (((edgeLabel? point.rest).bind nonempty?).map Escaped.decode) := by
  have hbreak := breakFree_edgeLine lane hf he
  obtain ⟨hs, ht, hsh, hth, hl⟩ := he
  have hname := breakFree_targetName lane hf.index hf.breaks ht
  obtain ⟨point, hpoint⟩ := Option.isSome_iff_exists.1
    (target?_isSome edge.label hname.1 (exists_targetName session lane ht) hth)
  have hopen := (laneOpen?_renderEdge hs hsh hth hbreak.1).2
    ⟨opensLabel_targetName hf ht, fun text htext => (fits_of_clean (hl text htext)).label⟩
  exact ⟨point, hpoint, read_renderEdge hs hsh hopen hpoint⟩

/-- A line that is found as an edge declares no node and no lane. -/
theorem inert_of_isEdgeBetween (hb : BreakFree line)
    (hl : ∀ id label, Line.read line = .laneOpen id label → mentions arrow line = false)
    (h : isEdgeBetween source target line = true) : Inert (Line.read line) := by
  have harrow := mentions_of_isEdgeBetween h
  cases hr : Line.read line with
  | laneOpen id label => simp [hl id label hr] at harrow
  | laneClose => exact (trim_ne_close_of_isEdgeBetween h (trim_of_read_close hr)).elim
  | node id shape attributes =>
    obtain ⟨head, rest, rfl, hh, hrest⟩ := declares_of_read hb.1 hr
    simp [mentions_arrow_append_nodeHead hh hrest.arrow] at harrow
  | edge source target sourceHandle targetHandle label => trivial
  | skipped text kind => trivial

theorem nodeIds_middle (above below : List Text) (line : Text) :
    nodeIds (above ++ line :: below) =
      nodeIds above ++ ((nodeId? (Line.read line)).toList ++ nodeIds below) := by
  rw [nodeIds_append, nodeIds_cons]

theorem sound_remove (h : Sound (above ++ line :: below) number) : Sound (above ++ below) number := by
  have hsub : ∀ other ∈ above ++ below, other ∈ above ++ line :: below := by
    intro other hmem
    rw [List.mem_append, List.mem_cons]
    exact (List.mem_append.1 hmem).imp_right Or.inr
  have hids : (nodeIds (above ++ below)).Sublist (nodeIds (above ++ line :: below)) := by
    rw [nodeIds_middle, nodeIds_append]
    exact List.Sublist.append_left (List.sublist_append_right _ _) _
  exact ⟨fun other hmem => h.breaks other (hsub other hmem), h.distinct.sublist hids,
    fun other hmem => h.lanes other (hsub other hmem), fun id hid => h.numbers id (hids.subset hid)⟩

/-- A line that opens no lane may be put in if what it declares is new and numbered. -/
theorem sound_insert {lastId : Nat} (h : Sound (above ++ below) number) (hle : number ≤ lastId)
    (hb : BreakFree line) (hl : laneId? (Line.read line) = none)
    (hid : ∀ id ∈ nodeId? (Line.read line), id ∉ nodeIds (above ++ below) ∧
      ∃ other ≤ lastId, LineIndex.sequentialNumber id = .ok other) :
    Sound (above ++ line :: below) lastId := by
  refine ⟨fun other hmem => ?_, ?_, fun other hmem => ?_, fun id hmem => ?_⟩
  · rcases List.mem_append.1 hmem with hm | hm
    · exact h.breaks other (List.mem_append_left _ hm)
    · rcases List.mem_cons.1 hm with rfl | hm
      · exact hb
      · exact h.breaks other (List.mem_append_right _ hm)
  · rw [nodeIds_middle]
    cases hr : nodeId? (Line.read line) with
    | none => simpa [nodeIds_append] using h.distinct
    | some id =>
      rw [Option.toList_some, List.singleton_append, List.nodup_middle, ← nodeIds_append,
        List.nodup_cons]
      exact ⟨(hid id hr).1, h.distinct⟩
  · rcases List.mem_append.1 hmem with hm | hm
    · exact h.lanes other (List.mem_append_left _ hm)
    · rcases List.mem_cons.1 hm with rfl | hm
      · intro id label hread
        simp [hread, laneId?] at hl
      · exact h.lanes other (List.mem_append_right _ hm)
  · have hold : id ∈ nodeIds (above ++ below) →
        ∃ other ≤ lastId, LineIndex.sequentialNumber id = .ok other := by
      intro hm
      obtain ⟨other, ho, hnumber⟩ := h.numbers id hm
      exact ⟨other, ho.trans hle, hnumber⟩
    rw [nodeIds_middle] at hmem
    rw [nodeIds_append] at hold
    rcases List.mem_append.1 hmem with hm | hm
    · exact hold (List.mem_append_left _ hm)
    · rcases List.mem_append.1 hm with hm | hm
      · exact (hid id (Option.mem_toList.1 hm)).2
      · exact hold (List.mem_append_right _ hm)

theorem sound_replace (h : Sound (above ++ line :: below) number)
    (hl : nodeId? (Line.read line) = some id) (hn : nodeId? (Line.read new) = some id)
    (hb : BreakFree new) : Sound (above ++ new :: below) number := by
  have hdistinct := h.distinct
  have hnumber := h.numbers id
  rw [nodeIds_middle, hl, Option.toList_some, List.singleton_append, List.nodup_middle,
    ← nodeIds_append, List.nodup_cons] at hdistinct
  rw [nodeIds_middle, hl] at hnumber
  refine sound_insert (sound_remove h) (Nat.le_refl _) hb ?_ fun other hother => ?_
  · obtain ⟨_, _, hread⟩ := exists_of_nodeId? hn
    rw [hread]
    rfl
  · rw [hn, Option.mem_some_iff] at hother
    subst hother
    exact ⟨hdistinct.1, hnumber (by simp)⟩

/-- What an applied edit makes of a session: where its line stands, and what the line declares. -/
inductive Edited (session : Session) : Edit → Change → Session → Prop
  | insertNode {above below : List Text} {lane : Text} {shape : Shape} {label : Option Text}
      {properties attributes : Attributes} {after before : Option Text}
      (hlines : session.lines = above ++ below) (hlane : laneBelow above = lane)
      (hid : session.nextId = .ok session.freshId)
      (hread : Line.read (renderNode session.freshId shape
        (Session.newAttributes label properties)) = .node session.freshId shape attributes)
      (hbreak : BreakFree (renderNode session.freshId shape
        (Session.newAttributes label properties))) :
      Edited session (.insertNode lane shape label properties after before)
        (.addedNode (label.getD session.freshId) session.freshId lane)
        (session.withNode above below lane shape (Session.newAttributes label properties))
  | removeNode {above below : List Text} {line id : Text}
      (hlines : session.lines = above ++ line :: below)
      (hid : nodeId? (Line.read line) = some id) :
      Edited session (.removeNode id) (.removedNode id) { session with
        lines := above ++ below
        index := (session.index.forgetNode id).shift (above.length + 1) (-1) }
  | updateNode {above below : List Text} {line id new : Text} {updates : Attributes}
      (hlines : session.lines = above ++ line :: below)
      (hid : nodeId? (Line.read line) = some id) (hnew : nodeId? (Line.read new) = some id)
      (hbreak : BreakFree new) :
      Edited session (.updateNode id updates) (.updatedNode id updates.keys)
        { session with lines := above ++ new :: below }
  | insertEdge {above below : List Text} {lane : Text} {edge : NewEdge}
      (hlines : session.lines = above ++ below)
      (hinert : Inert (Line.read (session.edgeLine lane edge)))
      (hbreak : BreakFree (session.edgeLine lane edge)) :
      Edited session (.insertEdge edge) (.addedEdge edge.source edge.target edge.label)
        { session with
          lines := above ++ session.edgeLine lane edge :: below
          index := session.index.shift above.length 1 }
  | removeEdge {above below : List Text} {line source target : Text}
      (hlines : session.lines = above ++ line :: below)
      (hinert : Inert (Line.read line)) :
      Edited session (.removeEdge source target) (.removedEdge source target) { session with
        lines := above ++ below
        index := session.index.shift (above.length + 1) (-1) }

/-- A clean edit of a faithful session finds its line, is skipped, or runs out of numbers. -/
theorem perform_cases (hf : Faithful session) (hc : edit.IsClean) :
    (∃ fault, session.nextId = .error fault ∧ session.perform edit = .error fault) ∨
    (∃ reason, session.perform edit = .ok (.skipped reason session)) ∨
    ∃ change next, session.perform edit = .ok (.applied change next) ∧
      Edited session edit change next := by
  cases edit with
  | insertNode lane shape label properties after before =>
    rcases Session.insertNode_cases hf.index lane shape label properties after before with
      ⟨_, hskip⟩ | hfault | ⟨above, below, hlines, hlane, hid, happlied⟩
    · exact Or.inr (Or.inl ⟨_, hskip⟩)
    · exact Or.inl hfault
    · obtain ⟨hbreak, attributes, hread⟩ := exists_read_newNode session shape hc.1 hc.2
      exact Or.inr (Or.inr ⟨_, _, happlied, .insertNode hlines hlane hid hread hbreak⟩)
  | removeNode id =>
    rcases Session.removeNode_cases hf.index id with
      ⟨_, hskip⟩ | ⟨above, line, below, hlines, hid, _, happlied⟩
    · exact Or.inr (Or.inl ⟨_, hskip⟩)
    · exact Or.inr (Or.inr ⟨_, _, happlied, .removeNode hlines hid⟩)
  | updateNode id updates =>
    rcases Session.updateNode_cases hf.index id updates with
      hskip | ⟨above, line, below, new, hlines, hid, hupdate, happlied⟩
    · exact Or.inr (Or.inl hskip)
    · obtain ⟨hnew, hfree⟩ := nodeId?_updateAll hid (hf.breaks line (by simp [hlines])) hc hupdate
      exact Or.inr (Or.inr ⟨_, _, happlied, .updateNode hlines hid hnew hfree⟩)
  | insertEdge edge =>
    rcases Session.insertEdge_cases hf.index edge with
      ⟨reason, hskip⟩ | ⟨lane, above, below, hlines, _, happlied⟩
    · exact Or.inr (Or.inl ⟨reason, congrArg Except.ok hskip⟩)
    · obtain ⟨_, _, hread⟩ := exists_read_edgeLine lane hf hc
      exact Or.inr (Or.inr ⟨_, _, congrArg Except.ok happlied,
        .insertEdge hlines (by rw [hread]; trivial) (breakFree_edgeLine lane hf hc)⟩)
  | removeEdge source target =>
    rcases Session.removeEdge_cases session source target with
      ⟨_, hskip⟩ | ⟨above, line, below, hlines, hedge, _, happlied⟩
    · exact Or.inr (Or.inl ⟨_, hskip⟩)
    · have hmem : line ∈ session.lines := by simp [hlines]
      exact Or.inr (Or.inr ⟨_, _, happlied, .removeEdge hlines (inert_of_isEdgeBetween
        (hf.breaks line hmem) (fun id label hread => (hf.lanes line hmem id label hread).1) hedge)⟩)

/-- An edit leaves a faithful session faithful. -/
theorem faithful_edited (hf : Faithful session) (he : Edited session edit change next) :
    Faithful next := by
  have hs := hf.toSound
  have hi := hf.index
  cases he with
  | insertNode hlines hlane hid hread hbreak =>
    have hnode := nodeId?_of_read hread
    have hfresh := freshId_not_mem hid hf.numbers
    rw [hlines] at hs hfresh
    have hbelow := fun hm => hfresh (nodeIds_append ▸ List.mem_append_right _ hm)
    refine ⟨sound_insert hs (Nat.le_succ _) hbreak (by rw [hread]; rfl) fun id hmem => ?_, ?_⟩
    · rw [hnode, Option.mem_some_iff] at hmem
      subst hmem
      exact ⟨hfresh, _, Nat.le_refl _, sequentialNumber_ofNat (Session.nextId_eq_ok hid).2⟩
    · rw [Session.Indexed, hlines] at hi
      subst hlane
      exact hi.shift.addNode.trans (LineIndex.scan_insert_node hnode hbelow).symm
  | removeNode hlines hid =>
    have hdistinct := hf.distinct
    rw [hlines, nodeIds_middle, hid, Option.toList_some, List.singleton_append,
      List.nodup_middle, ← nodeIds_append, List.nodup_cons] at hdistinct
    rw [hlines] at hs
    rw [Session.Indexed, hlines] at hi
    exact ⟨sound_remove hs, hi.forgetNode.shift.trans
      (LineIndex.scan_remove_node hid hdistinct.1).symm⟩
  | updateNode hlines hid hnew hbreak =>
    rw [hlines] at hs
    rw [Session.Indexed, hlines, ← LineIndex.scan_replace hid hnew] at hi
    exact ⟨sound_replace hs hid hnew hbreak, hi⟩
  | insertEdge hlines hinert hbreak =>
    rw [hlines] at hs
    rw [Session.Indexed, hlines] at hi
    refine ⟨sound_insert hs (Nat.le_refl _) hbreak (laneId?_of_inert hinert) fun id hmem => ?_,
      hi.shift.trans (LineIndex.scan_insert_inert hinert).symm⟩
    simp [nodeId?_of_inert hinert] at hmem
  | removeEdge hlines hinert =>
    rw [hlines] at hs
    rw [Session.Indexed, hlines] at hi
    exact ⟨sound_remove hs, hi.shift.trans (LineIndex.scan_remove_inert hinert).symm⟩

/-- A step is an edit, or leaves the session as it is. -/
theorem step_cases {operation : Operation} {entry : Entry} (hf : Faithful session)
    (hc : operation.IsClean) (h : session.step operation = .ok (next, entry)) :
    next = session ∧ entry.isApplied = false ∨ ∃ edit change, operation.edit? = .ok edit ∧
      session.perform edit = .ok (.applied change next) ∧
      entry = ⟨operation.op, .applied change⟩ ∧ Edited session edit change next := by
  rcases Session.step_ok h with
    ⟨reason, _, rfl, rfl⟩ | ⟨edit, reason, _, _, rfl, rfl⟩ | ⟨edit, change, he, happlied, rfl⟩
  · exact Or.inl ⟨rfl, rfl⟩
  · exact Or.inl ⟨rfl, rfl⟩
  · rcases perform_cases hf (hc edit he) with
      ⟨fault, _, hfault⟩ | ⟨reason, hskip⟩ | ⟨made, after, hmade, hedited⟩
    · simp [hfault] at happlied
    · simp [hskip] at happlied
    · rw [happlied] at hmade
      cases hmade
      exact Or.inr ⟨edit, change, he, happlied, rfl, hedited⟩

theorem faithful_step {operation : Operation} {entry : Entry} (hf : Faithful session)
    (hc : operation.IsClean) (h : session.step operation = .ok (next, entry)) : Faithful next := by
  rcases step_cases hf hc h with ⟨rfl, _⟩ | ⟨_, _, _, _, _, hedited⟩
  · exact hf
  · exact faithful_edited hf hedited

theorem faithful_run {operations : List Operation} {entries : List Entry} (hf : Faithful session)
    (hc : ∀ operation ∈ operations, operation.IsClean)
    (h : session.run operations = .ok (next, entries)) : Faithful next := by
  induction operations generalizing session entries with
  | nil =>
    cases h
    exact hf
  | cons operation rest ih =>
    obtain ⟨after, entry, more, hstep, hrest, rfl⟩ := Session.run_cons_eq_ok.1 h
    exact ih (faithful_step hf (hc operation (by simp)) hstep)
      (fun other hother => hc other (List.mem_cons_of_mem _ hother)) hrest

theorem faithful_trace {operations : List Operation} (hf : Faithful session)
    (hc : ∀ operation ∈ operations, operation.IsClean) :
    ∀ step ∈ (session.trace operations).steps, Faithful step.1 := by
  induction operations generalizing session with
  | nil => simp [Session.trace]
  | cons operation rest ih =>
    intro step hmem
    rw [Session.trace] at hmem
    cases hs : session.step operation with
    | error fault => simp [hs] at hmem
    | ok result =>
      obtain ⟨after, entry⟩ := result
      have hafter := faithful_step hf (hc operation (by simp)) hs
      simp only [hs, List.mem_cons] at hmem
      rcases hmem with rfl | hmem
      · exact hafter
      · exact ih hafter (fun other hother => hc other (List.mem_cons_of_mem _ hother)) step hmem

end Swimlane.Patch
