import Swimlane.Proofs.Patch.GivenIds

/-! The removal of a node takes out the last line that declares the node. The session knows of no
other, so that the rest of a batch takes the node for gone; a new session finds the one before. -/
namespace Swimlane

open Text Line

variable {β κ : Type} {key : β → κ} {k : κ} {old new : List β}

/-- The list without the last of its items that has a key. -/
def LosesLast (key : β → κ) (k : κ) (old new : List β) : Prop :=
  ∃ before item after, old = before ++ item :: after ∧ key item = k ∧
    (∀ other ∈ after, key other ≠ k) ∧ new = before ++ after

theorem LosesLast.count [BEq κ] [LawfulBEq κ] (h : LosesLast key k old new) :
    (old.map key).count k = (new.map key).count k + 1 := by
  obtain ⟨before, item, after, rfl, rfl, -, rfl⟩ := h
  simp only [List.map_append, List.map_cons, List.count_append, List.count_cons_self]
  omega

theorem LosesLast.subset (h : LosesLast key k old new) : new ⊆ old := by
  obtain ⟨before, item, after, rfl, -, -, rfl⟩ := h
  intro other hother
  rw [List.mem_append, List.mem_cons]
  exact (List.mem_append.1 hother).imp_right Or.inr

/-- The id of the node that a line declares. -/
def declaredId? (line : Text) : Option Text := nodeId? (Line.read line)

/-- Lines that lose the last declaration of a node draw a graph that loses the node. -/
theorem losesLast_nodes {graph less : Graph} {id : Text} {lines rest : List Text}
    (hold : Drawn graph lines) (hnew : Drawn less rest)
    (h : LosesLast declaredId? (some id) lines rest) :
    LosesLast Node.id id graph.nodes less.nodes := by
  obtain ⟨above, line, below, rfl, hid, hlast, rfl⟩ := h
  obtain ⟨shape, attributes, hread⟩ := Patch.exists_of_nodeId? hid
  refine ⟨nodesFrom Classifier.byWords.nodeKind none (above.map Line.read),
    nodeBelow above id shape attributes,
    nodesFrom Classifier.byWords.nodeKind (openLane (above.map Line.read)) (below.map Line.read),
    ?_, rfl, ?_, ?_⟩
  · rw [hold.nodes, List.map_append, nodesFrom_append, List.map_cons, hread]
    rfl
  · intro node hnode hsame
    have hmem : id ∈ (below.map Line.read).filterMap nodeId? := by
      rw [← map_id_nodesFrom]
      exact List.mem_map.2 ⟨node, hnode, hsame⟩
    obtain ⟨declared, hdeclared, hother⟩ := List.mem_filterMap.1 hmem
    obtain ⟨other, hbelow, rfl⟩ := List.mem_map.1 hdeclared
    exact hlast other hbelow hother
  · rw [hnew.nodes, List.map_append, nodesFrom_append]
    rfl

namespace Patch

variable {session next last : Session} {operation second : Operation}
  {operations : List Operation} {entry : Entry} {entries : List Entry} {change : Change}
  {text id op : Text} {result : Result} {edit : Edit} {splice : Splice}

/-- What the removal of a node makes of a text. -/
inductive Removal (op id text : Text) : Result → Prop
  | applied {lines : List Text} (hlines : LosesLast declaredId? (some id) (segments text) lines)
      (hnodes : LosesLast Node.id id (Graph.ofText text).nodes
        (Graph.ofText ((Newline.ofText text).join lines)).nodes) :
      Removal op id text
        ⟨(Newline.ofText text).join lines, [⟨op, .applied (.removedNode id)⟩]⟩
  | skipped (hnone : id ∉ (Graph.ofText text).nodes.map Node.id) :
      Removal op id text ⟨text, [⟨op, .skipped (.nodeNotFound id)⟩]⟩

/-- The nodes that are left were there before. -/
theorem Removal.subset (h : Removal op id text result) :
    (Graph.ofText result.code).nodes ⊆ (Graph.ofText text).nodes := by
  cases h with
  | applied hlines hnodes => exact hnodes.subset
  | skipped hnone => exact fun _ hnode => hnode

theorem text_ofText (h : Session.ofText text = .ok session) : session.text = text := by
  rw [(ofText_starts h).1, Session.text]
  exact join_split _ text

/-- A node that is removed from a text with line breaks of one kind is not found, or the last line
that declares it is taken out; the line breaks stay of one kind. -/
theorem removal (hb : UniformBreaks text) (he : operation.edit? = .ok (.removeNode id))
    (hs : Session.ofText text = .ok session) : ∃ result,
      applyChanges text [operation] = .ok result ∧ UniformBreaks result.code ∧
        Removal operation.op id text result := by
  obtain ⟨hsession, -⟩ := ofText_eq_ok hb hs
  have hindexed : session.Indexed := by
    rw [hsession]
    exact LineIndex.Same.refl _
  have hlines : session.lines = segments text := by rw [hsession]
  have hnewline : session.newline = Newline.ofText text := by rw [hsession]
  have hbreaks : ∀ line ∈ segments text, BreakFree line := fun line => breakFree_of_mem_segments
  rw [applyChanges, hs]
  simp only [bind, Except.bind, Session.run, Session.step, he, Session.perform]
  rcases Session.removeNode_cases hindexed id with
    ⟨hnone, hskip⟩ | ⟨above, line, below, hmiddle, hid, hlast, happlied⟩
  · rw [hskip]
    refine ⟨_, rfl, ?_, ?_⟩ <;> simp only [text_ofText hs]
    · exact hb
    · apply Removal.skipped
      intro hmem
      rw [drawn_ids (drawn_ofText text), ← hlines, ← (LineIndex.isSome_get?_scan _ id).1,
        ← hindexed.nodeLines, hnone] at hmem
      cases hmem
  · rw [happlied]
    rw [hlines] at hmiddle
    have hless : ∀ other ∈ above ++ below, BreakFree other := by
      intro other hother
      apply hbreaks
      rw [hmiddle, List.mem_append, List.mem_cons]
      exact (List.mem_append.1 hother).imp_right Or.inr
    have hloses : LosesLast declaredId? (some id) (segments text) (above ++ below) := by
      refine ⟨above, line, below, hmiddle, hid, fun other hother hsame => hlast ?_, rfl⟩
      exact List.mem_filterMap.2 ⟨_, List.mem_map.2 ⟨other, hother, rfl⟩, hsame⟩
    refine ⟨_, rfl, ?_, ?_⟩ <;> simp only [Session.text, hnewline]
    · exact uniformBreaks_join _ hless
    · exact .applied hloses (losesLast_nodes (drawn_ofText text) (drawn_join _ hless) hloses)

/-- A text that declares nothing new is taken if the first one was. -/
theorem exists_ofText {code : Text} (hs : Session.ofText text = .ok session)
    (h : declaredIds code ⊆ declaredIds text) : ∃ next, Session.ofText code = .ok next := by
  rcases ofText_cases code with ⟨next, hnext, _⟩ | ⟨⟨other, hother, hlong⟩, _⟩
  · exact ⟨next, hnext⟩
  · exact absurd hlong (not_overlong_of_highest (ofText_starts hs).2 (h hother))

/-- The index does not know the node, and no node will be given its id. -/
structure Gone (id : Text) (session : Session) : Prop where
  absent : session.index.nodeLines.get? id = none
  passed : ∀ number, session.lastId < number → numberedId number ≠ id

namespace Session

theorem bounded_step (hb : session.Bounded) (h : session.step operation = .ok (next, entry)) :
    next.Bounded := by
  rcases step_eq_ok h with ⟨rfl, _⟩ | ⟨edit, splice, change, _, hs, _, _, rfl, _⟩
  · exact hb
  · exact bounded_after hb hs

theorem bounded_run (hb : session.Bounded) (h : session.run operations = .ok (last, entries)) :
    last.Bounded := by
  induction operations generalizing session entries with
  | nil =>
    cases h
    exact hb
  | cons operation rest ih =>
    obtain ⟨after, entry, more, hstep, hrest, rfl⟩ := run_cons_eq_ok.1 h
    exact ih (bounded_step hb hstep) hrest

theorem bounded_ofText (h : Session.ofText text = .ok session) : session.Bounded := by
  obtain ⟨hsession, hhighest⟩ := ofText_starts h
  intro other place hother
  apply hhighest.bound
  rw [← (LineIndex.isSome_get?_scan _ other).1]
  rw [hsession] at hother
  simp [hother]

end Session

/-- A node that is removed is gone: its number is not above those that were given. -/
theorem gone_of_removed (hb : session.Bounded) (he : operation.edit? = .ok (.removeNode id))
    (h : session.step operation = .ok (next, ⟨operation.op, .applied change⟩)) : Gone id next := by
  rcases Session.step_eq_ok h with ⟨_, _, reason, hentry⟩ | ⟨edit, splice, made, hedit, hs, _, _, rfl, _⟩
  · cases hentry
  · rw [he, Except.ok.injEq] at hedit
    subst hedit
    cases Session.spliced hs with
    | removeNode hplace =>
      obtain ⟨bound, hle, hnumber⟩ := hb id _ hplace
      constructor
      · simp [Session.after, Session.indexAfter, LineIndex.forgetNode]
      · intro number hlt hsame
        have hbound := number_of_numberedId (hsame ▸ hnumber)
        simp only [Session.after, Edit.newIds] at hlt
        omega

theorem gone_after (hg : Gone id session) (hs : session.splice? edit = some splice) :
    Gone id (session.after edit splice) := by
  constructor
  · cases hget : (session.after edit splice).index.nodeLines.get? id with
    | none => rfl
    | some place =>
      rcases Session.nodeLines_after hs hget with ⟨hold, _⟩ | ⟨hnext, _⟩
      · rw [hg.absent] at hold
        cases hold
      · exact absurd (Session.nextId_eq_ok hnext).1.symm (hg.passed _ (Nat.lt_succ_self _))
  · intro number hlt
    simp only [Session.after] at hlt
    exact hg.passed number (by omega)

/-- No operation brings a node back. -/
theorem gone_step (hg : Gone id session) (h : session.step operation = .ok (next, entry)) :
    Gone id next := by
  rcases Session.step_eq_ok h with ⟨rfl, _⟩ | ⟨edit, splice, change, _, hs, _, _, rfl, _⟩
  · exact hg
  · exact gone_after hg hs

theorem gone_run (hg : Gone id session) (h : session.run operations = .ok (last, entries)) :
    Gone id last := by
  induction operations generalizing session entries with
  | nil =>
    cases h
    exact hg
  | cons operation rest ih =>
    obtain ⟨after, entry, more, hstep, hrest, rfl⟩ := Session.run_cons_eq_ok.1 h
    exact ih (gone_step hg hstep) hrest

/-- The removal of a node that is gone is skipped and changes nothing. -/
theorem step_of_gone (hg : Gone id session) (he : operation.edit? = .ok (.removeNode id)) :
    session.step operation = .ok (session, ⟨operation.op, .skipped (.nodeNotFound id)⟩) := by
  simp only [Session.step, he, Session.perform, Session.removeNode, hg.absent, bind, Except.bind,
    pure, Except.pure]

/-- Faithful lines do not declare a node that is gone. -/
theorem not_mem_of_gone (hg : Gone id session) (hf : Faithful session) :
    id ∉ (Graph.ofText session.text).nodes.map Node.id := by
  rw [Session.text, drawn_ids (drawn_join _ hf.breaks), ← (LineIndex.isSome_get?_scan _ id).1,
    ← hf.index.nodeLines, hg.absent]
  exact Bool.false_ne_true

/-- A new call takes out the last declaration that is left, if there is one. -/
theorem removal_again (hb : UniformBreaks text) (he : operation.edit? = .ok (.removeNode id))
    (hsecond : second.edit? = .ok (.removeNode id)) (h : applyChanges text [operation] = .ok result) :
    Removal operation.op id text result ∧ ∃ again,
      applyChanges result.code [second] = .ok again ∧ Removal second.op id result.code again := by
  obtain ⟨session, _, _, hs, _, _⟩ := applyChanges_eq_ok h
  obtain ⟨made, hmade, huniform, hremoval⟩ := removal hb he hs
  rw [h, Except.ok.injEq] at hmade
  subst hmade
  have hsubset : declaredIds result.code ⊆ declaredIds text := by
    rw [declaredIds_eq huniform, declaredIds_eq hb]
    exact List.map_subset _ hremoval.subset
  obtain ⟨start, hstart⟩ := exists_ofText hs hsubset
  obtain ⟨again, hagain, _, hlater⟩ := removal huniform hsecond hstart
  exact ⟨hremoval, again, hagain, hlater⟩

/-- A node that is declared at most once is absent after its removal. -/
theorem Removal.absent (h : Removal op id text result)
    (hcount : ((Graph.ofText text).nodes.map Node.id).count id ≤ 1) :
    id ∉ (Graph.ofText result.code).nodes.map Node.id := by
  cases h with
  | applied hlines hnodes =>
    have hless := hnodes.count
    exact List.count_eq_zero.1 (by dsimp only; omega)
  | skipped hnone => exact hnone

theorem Removal.eq_skipped (h : Removal op id text result)
    (habsent : id ∉ (Graph.ofText text).nodes.map Node.id) :
    result = ⟨text, [⟨op, .skipped (.nodeNotFound id)⟩]⟩ := by
  cases h with
  | applied hlines hnodes =>
    have hless := hnodes.count
    rw [List.count_eq_zero.2 habsent] at hless
    omega
  | skipped hnone => rfl

/-- A removal takes out the last declaration of a node. In a text with line breaks of one kind one
that is declared once is absent after it, and a new call then leaves the text as it is; of several
declarations a new call takes out the one before. In the same batch a second removal is always
skipped, and a clean batch on a tidy text leaves no declaration of the node. -/
theorem removed_last_declaration (he : operation.edit? = .ok (.removeNode id))
    (hsecond : second.edit? = .ok (.removeNode id)) :
    (∀ result, UniformBreaks text → applyChanges text [operation] = .ok result →
      Removal operation.op id text result ∧
      ∃ again, applyChanges result.code [second] = .ok again ∧
        Removal second.op id result.code again ∧
        (((Graph.ofText text).nodes.map Node.id).count id ≤ 1 →
          id ∉ (Graph.ofText result.code).nodes.map Node.id ∧
          again = ⟨result.code, [⟨second.op, .skipped (.nodeNotFound id)⟩]⟩)) ∧
    ∀ first session next middle earlier between entries more change,
      Session.ofText text = .ok first → first.run earlier = .ok (session, entries) →
      session.step operation = .ok (next, ⟨operation.op, .applied change⟩) →
      next.run between = .ok (middle, more) →
      middle.step second = .ok (middle, ⟨second.op, .skipped (.nodeNotFound id)⟩) ∧
      (Tidy text → (∀ other ∈ earlier ++ between, other.IsClean) →
        id ∉ (Graph.ofText middle.text).nodes.map Node.id) := by
  constructor
  · intro result hb hr
    obtain ⟨hremoval, again, hagain, hlater⟩ := removal_again hb he hsecond hr
    refine ⟨hremoval, again, hagain, hlater, fun hcount => ?_⟩
    have habsent := hremoval.absent hcount
    exact ⟨habsent, hlater.eq_skipped habsent⟩
  · intro first session next middle earlier between entries more change hs hrun hstep hmore
    have hbounded := Session.bounded_run (Session.bounded_ofText hs) hrun
    have hgone := gone_run (gone_of_removed hbounded he hstep) hmore
    refine ⟨step_of_gone hgone hsecond, fun ht hc => not_mem_of_gone hgone ?_⟩
    have hclean : operation.IsClean := by
      intro edit hedit
      rw [he, Except.ok.injEq] at hedit
      subst hedit
      trivial
    have hbefore := faithful_run (faithful_ofText ht hs)
      (fun other hother => hc other (List.mem_append_left _ hother)) hrun
    exact faithful_run (faithful_step hbefore hclean hstep)
      (fun other hother => hc other (List.mem_append_right _ hother)) hmore

def firstRemoval : Operation where
  op := "removeNode"
  nodeId := some "n1"

theorem removed_last_declaration_sample : ∃ result, applyChanges sample [firstRemoval] = .ok result ∧
    UniformBreaks sample ∧ ((Graph.ofText sample).nodes.map Node.id).count "n1".toList = 1 ∧
    result.entries = [⟨"removeNode", .applied (.removedNode "n1")⟩] ∧
    "n1".toList ∉ (Graph.ofText result.code).nodes.map Node.id ∧
    applyChanges result.code [firstRemoval] =
      .ok ⟨result.code, [⟨"removeNode", .skipped (.nodeNotFound "n1")⟩]⟩ := by
  have hedit : firstRemoval.edit? = .ok (.removeNode "n1") := rfl
  have hentries : (applyChanges sample [firstRemoval]).toOption.map Result.entries =
      some [⟨"removeNode", .applied (.removedNode "n1")⟩] := by decide +kernel
  have hbreaks : UniformBreaks sample := by decide +kernel
  have hcount : ((Graph.ofText sample).nodes.map Node.id).count "n1".toList = 1 := by
    decide +kernel
  cases h : applyChanges sample [firstRemoval] with
  | error fault => simp [h, Except.toOption] at hentries
  | ok result =>
    rw [h] at hentries
    obtain ⟨-, again, hagain, -, honce⟩ :=
      (removed_last_declaration hedit hedit).1 result hbreaks h
    obtain ⟨habsent, rfl⟩ := honce (Nat.le_of_eq hcount)
    exact ⟨result, rfl, hbreaks, hcount, Option.some.inj hentries, habsent, hagain⟩

/-- A node that is declared in two lanes. -/
def twiceDeclared : Text := "a \x7b\nn1: circle\n\x7d\nb \x7b\nn1: diamond\n\x7d\n"

/-- The first declaration of the node is left, and the next call takes it out. -/
theorem removed_node_remains : UniformBreaks twiceDeclared ∧
    (applyChanges twiceDeclared [firstRemoval]).toOption.map (fun result =>
      (result.entries.map Entry.isApplied,
        ((Graph.ofText result.code).nodes.map fun node => (node.id, node.lane)),
        (applyChanges result.code [firstRemoval]).toOption.map fun again =>
          again.entries.map Entry.isApplied)) =
      some ([true], [("n1".toList, "a".toList)], some [true]) := by
  decide +kernel

end Patch

end Swimlane
