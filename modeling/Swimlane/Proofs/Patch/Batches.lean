import Swimlane.Proofs.Patch.Rescan

/-! Operations in one batch, and in two of which the second starts from the text that the first left:
what is read anew from that text is alike to what the one batch has at hand. -/
namespace Swimlane.Patch

open Text Line

variable {session other next : Session} {text id lane line : Text} {edit : Edit} {change : Change}
  {above below lines : List Text} {operation : Operation} {operations : List Operation}
  {entries : List Entry}

/-- Sessions that cannot be told apart by editing them: a session with no line is as good as one with
one blank line, and the line end does not count where there are no two lines to part. -/
structure Alike (session other : Session) : Prop where
  lastId : session.lastId = other.lastId
  index : session.index.Same other.index
  lines : session.lines = other.lines ∧ (session.newline = other.newline ∨ session.lines.length ≤ 1) ∨
    session.lines = [] ∧ other.lines = [[]]

theorem text_alike (h : Alike session other) : session.text = other.text := by
  rcases h.lines with ⟨hlines, hnewline | hlength⟩ | ⟨hempty, hblank⟩
  · rw [Session.text, Session.text, hlines, hnewline]
  · rw [Session.text, Session.text, ← hlines]
    cases hl : session.lines with
    | nil => rfl
    | cons line rest =>
      cases rest with
      | nil => rfl
      | cons second rest => simp [hl] at hlength
  · rw [Session.text, Session.text, hempty, hblank]
    rfl

/-- What alike sessions make of one edit. -/
inductive AlikeEffect : Except Fault Effect → Except Fault Effect → Prop
  | fault (fault : Fault) : AlikeEffect (.error fault) (.error fault)
  | skipped (reason : SkipReason) {session other : Session} (h : Alike session other) :
      AlikeEffect (.ok (.skipped reason session)) (.ok (.skipped reason other))
  | applied (change : Change) {session other : Session} (h : Alike session other) :
      AlikeEffect (.ok (.applied change session)) (.ok (.applied change other))

/-- A lane's brace stands below the line that opens the lane. -/
theorem length_of_laneSpan {span : Span} (h : session.Indexed)
    (hl : session.index.laneSpans.get? lane = some span) : 2 ≤ session.lines.length := by
  rw [h.laneSpans] at hl
  obtain ⟨above, close, below, hlines, _, _, hopen⟩ := LineIndex.exists_laneSpan hl
  have habove := openBelow_lt hopen
  rw [hlines, List.length_append, List.length_cons]
  omega

/-- Sessions with a lane have the same lines and line ends. -/
theorem same_of_laneSpan {span : Span} (ha : Alike session other) (h : session.Indexed)
    (hl : session.index.laneSpans.get? lane = some span) :
    session.lines = other.lines ∧ session.newline = other.newline := by
  have hlength := length_of_laneSpan h hl
  rcases ha.lines with ⟨hlines, hnewline | hle⟩ | ⟨hempty, _⟩
  · exact ⟨hlines, hnewline⟩
  · omega
  · simp [hempty] at hlength

theorem lineIn?_same {index other : LineIndex} (h : index.Same other) :
    index.lineIn? = other.lineIn? := by
  funext lane id
  rw [LineIndex.lineIn?, LineIndex.lineIn?, h.nodeLanes, h.nodeLines]

theorem insertLine_alike (position : Int) (line : Text) (ha : Alike session other)
    (hs : session.lines = other.lines ∧ session.newline = other.newline) :
    Alike (session.insertLine position line) (other.insertLine position line) :=
  ⟨ha.lastId, ha.index.shift, Or.inl ⟨by simp [Session.insertLine, hs.1], Or.inl hs.2⟩⟩

theorem removeLine_alike {position : Int} (ha : Alike session other)
    (hl : session.lines = other.lines) (hlt : position.toNat < session.lines.length) :
    ∃ after final, session.removeLine position = .ok after ∧ other.removeLine position = .ok final ∧
      Alike after final := by
  rw [Session.removeLine, Session.removeLine, if_pos hlt, if_pos (hl ▸ hlt)]
  refine ⟨_, _, rfl, rfl, ha.lastId, ha.index.shift, Or.inl ⟨by simp [hl], ?_⟩⟩
  rcases ha.lines with ⟨_, hnewline | hle⟩ | ⟨hempty, _⟩
  · exact Or.inl hnewline
  · exact Or.inr ((List.length_eraseIdx_le _ _).trans hle)
  · simp [hempty] at hlt

theorem lines_of_nodeLine {position : Int} (ha : Alike session other) (h : session.Indexed)
    (hl : session.index.nodeLines.get? id = some position) :
    session.lines = other.lines ∧ position.toNat < session.lines.length := by
  obtain ⟨above, line, below, hlines, hpos, _, _⟩ := Session.exists_nodeLine h hl
  have hlt : position.toNat < session.lines.length := by
    rw [hlines, hpos]
    simp
  rcases ha.lines with ⟨hsame, _⟩ | ⟨hempty, _⟩
  · exact ⟨hsame, hlt⟩
  · simp [hempty] at hlines

theorem insertNode_alike {lane : Text} {shape : Shape} {label after before : Option Text}
    {properties : Attributes} (ha : Alike session other) (h : session.Indexed) :
    AlikeEffect (session.insertNode lane shape label properties after before)
      (other.insertNode lane shape label properties after before) := by
  simp only [Session.insertNode, ← ha.index.laneSpans]
  cases hspan : session.index.laneSpans.get? lane with
  | none => exact .skipped _ ha
  | some span =>
    have hsame := same_of_laneSpan ha h hspan
    have hnext : session.nextId = other.nextId := by
      rw [Session.nextId, Session.nextId, ha.lastId]
    have hposition : session.insertionLine lane span after before =
        other.insertionLine lane span after before := by
      rw [Session.insertionLine, Session.insertionLine, lineIn?_same ha.index]
    simp only [← hnext, ← hposition, ← ha.lastId]
    cases hid : session.nextId with
    | error fault => exact .fault fault
    | ok id =>
      have hgrown := insertLine_alike (session.insertionLine lane span after before)
        (renderNode id shape (Session.newAttributes label properties)) ha hsame
      exact .applied _ ⟨rfl, hgrown.index.addNode, hgrown.lines⟩

theorem removeNode_alike (ha : Alike session other) (h : session.Indexed) :
    AlikeEffect (session.removeNode id) (other.removeNode id) := by
  simp only [Session.removeNode, ← ha.index.nodeLines]
  cases hline : session.index.nodeLines.get? id with
  | none => exact .skipped _ ha
  | some position =>
    obtain ⟨hlines, hlt⟩ := lines_of_nodeLine ha h hline
    have hforgotten : Alike { session with index := session.index.forgetNode id }
        { other with index := other.index.forgetNode id } :=
      ⟨ha.lastId, ha.index.forgetNode, ha.lines⟩
    obtain ⟨after, final, hafter, hfinal, halike⟩ := removeLine_alike hforgotten hlines hlt
    simp only [hafter, hfinal]
    exact .applied _ halike

theorem updateNode_alike {updates : Attributes} (ha : Alike session other) (h : session.Indexed) :
    AlikeEffect (session.updateNode id updates) (other.updateNode id updates) := by
  simp only [Session.updateNode, ← ha.index.nodeLines]
  cases hline : session.index.nodeLines.get? id with
  | none => exact .skipped _ ha
  | some position =>
    obtain ⟨hlines, hlt⟩ := lines_of_nodeLine ha h hline
    simp only [← hlines, List.getElem?_eq_getElem hlt]
    cases hnew : updateAll session.lines[position.toNat] updates.entries with
    | error reason => exact .skipped reason ha
    | ok new =>
      refine .applied _ ⟨ha.lastId, ha.index, Or.inl ⟨rfl, ?_⟩⟩
      rcases ha.lines with ⟨_, hnewline⟩ | ⟨hempty, _⟩
      · simpa using hnewline
      · simp [hempty] at hlt

theorem insertEdge_alike {edge : NewEdge} (ha : Alike session other) (h : session.Indexed) :
    AlikeEffect (.ok (session.insertEdge edge)) (.ok (other.insertEdge edge)) := by
  have htarget : ∀ lane, session.targetName lane edge.target = other.targetName lane edge.target := by
    intro lane
    rw [Session.targetName, Session.targetName, ha.index.nodeLanes]
  simp only [Session.insertEdge, ← ha.index.nodeLanes, ← ha.index.laneSpans, ← htarget]
  cases hlane : session.index.nodeLanes.get? edge.source with
  | none => exact .skipped _ ha
  | some lane =>
    cases hspan : session.index.laneSpans.get? lane with
    | none =>
      simp only [hspan]
      exact .skipped _ ha
    | some span =>
      simp only [hspan]
      exact .applied _ (insertLine_alike _ _ ha (same_of_laneSpan ha h hspan))

/-- A blank line is no edge, so that it does not count where no other line is. -/
theorem removeEdge_alike {source target : Text} (ha : Alike session other) :
    AlikeEffect (session.removeEdge source target) (other.removeEdge source target) := by
  simp only [Session.removeEdge]
  rcases ha.lines with ⟨hlines, _⟩ | ⟨hempty, hblank⟩
  · rw [← hlines]
    cases hfind : session.lines.findIdx? (isEdgeBetween source target) with
    | none => exact .skipped _ ha
    | some position =>
      obtain ⟨hlt, _⟩ := List.findIdx?_eq_some_iff_getElem.1 hfind
      have hnat : (position : Int).toNat < session.lines.length := by simpa using hlt
      obtain ⟨after, final, hafter, hfinal, halike⟩ := removeLine_alike ha hlines hnat
      simp only [hafter, hfinal]
      exact .applied _ halike
  · have hnone : isEdgeBetween source target [] = false := by
      cases hedge : isEdgeBetween source target [] with
      | false => rfl
      | true => exact absurd (mentions_of_isEdgeBetween hedge) (by decide)
    simp only [hempty, hblank, List.findIdx?_nil, List.findIdx?_cons, hnone]
    exact .skipped _ ha

theorem perform_alike (ha : Alike session other) (h : session.Indexed) (edit : Edit) :
    AlikeEffect (session.perform edit) (other.perform edit) := by
  cases edit with
  | insertNode => exact insertNode_alike ha h
  | removeNode => exact removeNode_alike ha h
  | updateNode => exact updateNode_alike ha h
  | insertEdge => exact insertEdge_alike ha h
  | removeEdge => exact removeEdge_alike ha

/-- Alike sessions stay alike after an operation and record the same of it. -/
theorem step_alike (ha : Alike session other) (h : session.Indexed) (operation : Operation) :
    (∃ fault, session.step operation = .error fault ∧ other.step operation = .error fault) ∨
    ∃ after final entry, session.step operation = .ok (after, entry) ∧
      other.step operation = .ok (final, entry) ∧ Alike after final := by
  rw [Session.step, Session.step]
  cases operation.edit? with
  | error reason => exact Or.inr ⟨_, _, _, rfl, rfl, ha⟩
  | ok edit =>
    have heffect := perform_alike ha h edit
    revert heffect
    simp only
    generalize session.perform edit = effect
    generalize other.perform edit = final
    intro heffect
    cases heffect with
    | fault fault => exact Or.inl ⟨fault, rfl, rfl⟩
    | skipped reason halike => exact Or.inr ⟨_, _, _, rfl, rfl, halike⟩
    | applied change halike => exact Or.inr ⟨_, _, _, rfl, rfl, halike⟩

theorem run_alike (ha : Alike session other) (hf : Faithful session)
    (hc : ∀ operation ∈ operations, operation.IsClean) :
    (∃ fault, session.run operations = .error fault ∧ other.run operations = .error fault) ∨
    ∃ last final entries, session.run operations = .ok (last, entries) ∧
      other.run operations = .ok (final, entries) ∧ Alike last final := by
  induction operations generalizing session other with
  | nil => exact Or.inr ⟨_, _, _, rfl, rfl, ha⟩
  | cons operation rest ih =>
    rw [Session.run, Session.run]
    rcases step_alike ha hf.index operation with
      ⟨fault, hfault, hother⟩ | ⟨after, final, entry, hstep, hother, halike⟩
    · rw [hfault, hother]
      exact Or.inl ⟨fault, rfl, rfl⟩
    · have hafter := faithful_step hf (hc operation (by simp)) hstep
      rw [hstep, hother]
      rcases ih halike hafter fun next hnext => hc next (List.mem_cons_of_mem _ hnext) with
        ⟨fault, hfault, hlast⟩ | ⟨last, other, entries, hrun, hlast, hend⟩
      · refine Or.inl ⟨fault, ?_, ?_⟩
        · simp [hfault, bind, Except.bind]
        · simp [hlast, bind, Except.bind]
      · refine Or.inr ⟨last, other, entry :: entries, ?_, ?_, hend⟩
        · simp [hrun, bind, Except.bind, pure, Except.pure]
        · simp [hlast, bind, Except.bind, pure, Except.pure]

theorem run_append {first second : List Operation} : session.run (first ++ second) = (do
    let (middle, entries) ← session.run first
    let (last, more) ← middle.run second
    return (last, entries ++ more)) := by
  induction first generalizing session with
  | nil =>
    simp only [List.nil_append, Session.run, bind, Except.bind, pure, Except.pure]
    cases session.run second <;> rfl
  | cons operation rest ih =>
    rw [List.cons_append, Session.run, Session.run]
    cases session.step operation with
    | error fault => rfl
    | ok result =>
      simp only [bind, Except.bind, ih, pure, Except.pure]
      cases result.1.run rest with
      | error fault => rfl
      | ok pair =>
        simp only
        cases pair.1.run second <;> rfl

/-- An operation that removes no node whose id is `n` and a number. -/
def Operation.KeepsNumbers (operation : Operation) : Prop :=
  ∀ id, operation.edit? = .ok (.removeNode id) → sequentialDigits? id = none

instance : DecidablePred Operation.KeepsNumbers := fun operation =>
  match h : operation.edit? with
  | .ok (.removeNode removed) => decidable_of_iff (sequentialDigits? removed = none)
      ⟨fun hr _ he => by cases h.symm.trans he; exact hr, fun hk => hk removed h⟩
  | .ok (.insertNode _ _ _ _ _ _) | .ok (.updateNode _ _) | .ok (.insertEdge _)
  | .ok (.removeEdge _ _) | .error _ => isTrue fun _ he => by simp [h] at he

/-- The last number that was given is the highest that is in use. -/
def Numbered (session : Session) : Prop := Highest (nodeIds session.lines) session.lastId

theorem numbered_edited (hn : Numbered session) (hf : Faithful session)
    (hk : ∀ id, edit = .removeNode id → sequentialDigits? id = none)
    (he : Edited session edit change next) : Numbered next := by
  have hbound := (faithful_edited hf he).numbers
  refine ⟨hbound, ?_⟩
  cases he with
  | @insertNode above below lane shape label properties attributes after before hlines hlane hid
      hread hbreak =>
    refine Or.inr ⟨session.freshId, ?_, sequentialNumber_ofNat (Session.nextId_eq_ok hid).2⟩
    simp only [Session.withNode]
    rw [nodeIds_middle, nodeId?_of_read hread]
    simp
  | @removeNode above below line id hlines hid =>
    rcases hn.reached with hzero | ⟨other, hother, hnumber⟩
    · exact Or.inl hzero
    · rw [hlines, nodeIds_middle, hid] at hother
      simp only [Option.toList_some, List.mem_append, List.mem_cons, List.not_mem_nil,
        or_false] at hother
      simp only [nodeIds_append, List.mem_append]
      rcases hother with hm | rfl | hm
      · exact Or.inr ⟨other, Or.inl hm, hnumber⟩
      · left
        rw [sequentialNumber_of_not_sequential (hk other rfl)] at hnumber
        exact (Except.ok.inj hnumber).symm
      · exact Or.inr ⟨other, Or.inr hm, hnumber⟩
  | @updateNode above below line id new updates hlines hid hnew hbreak =>
    have hreached := hn.reached
    rw [hlines, nodeIds_middle, hid] at hreached
    rwa [nodeIds_middle, hnew]
  | @insertEdge above below lane edge hlines hinert hbreak =>
    have hreached := hn.reached
    rw [hlines] at hreached
    simp only [nodeIds_middle, nodeId?_of_inert hinert]
    simpa [nodeIds_append] using hreached
  | @removeEdge above below line source target hlines hinert =>
    have hreached := hn.reached
    rw [hlines, nodeIds_middle, nodeId?_of_inert hinert] at hreached
    simpa [nodeIds_append] using hreached

theorem numbered_run {last : Session} (hn : Numbered session) (hf : Faithful session)
    (hc : ∀ operation ∈ operations, operation.IsClean)
    (hk : ∀ operation ∈ operations, operation.KeepsNumbers)
    (hr : session.run operations = .ok (last, entries)) : Numbered last ∧ Faithful last := by
  induction operations generalizing session entries with
  | nil =>
    cases hr
    exact ⟨hn, hf⟩
  | cons operation rest ih =>
    obtain ⟨after, entry, more, hs, hrest, rfl⟩ := Session.run_cons_eq_ok.1 hr
    have hclean := hc operation (by simp)
    have hafter : Numbered after := by
      rcases step_cases hf hclean hs with ⟨rfl, _⟩ | ⟨edit, change, hedit, _, _, hedited⟩
      · exact hn
      · exact numbered_edited hn hf (fun id he => hk operation (by simp) id (he ▸ hedit)) hedited
    exact ih hafter (faithful_step hf hclean hs)
      (fun next hnext => hc next (List.mem_cons_of_mem _ hnext))
      (fun next hnext => hk next (List.mem_cons_of_mem _ hnext)) hrest

/-- The lines of a text that was joined, and its line end if there are two lines. -/
theorem split_text (hb : ∀ line ∈ session.lines, BreakFree line) (hne : session.lines ≠ []) :
    (Newline.ofText session.text).split session.text = session.lines ∧
      (session.newline = Newline.ofText session.text ∨ session.lines.length ≤ 1) := by
  by_cases hlength : 2 ≤ session.lines.length
  · have hnewline := ofText_join session.newline hb (Or.inr hlength)
    rw [Session.text, hnewline]
    exact ⟨split_join hne hb, Or.inl rfl⟩
  · have hlf : session.text = Newline.lf.join session.lines := by
      rw [Session.text]
      cases hl : session.lines with
      | nil => exact absurd hl hne
      | cons line rest =>
        cases rest with
        | nil => rfl
        | cons second rest => simp [hl] at hlength
    rw [hlf, ofText_join .lf hb (Or.inl rfl)]
    exact ⟨split_join hne hb, Or.inr (by omega)⟩

/-- A session that starts from the text of another is alike to it. -/
theorem ofText_text (hn : Numbered session) (hf : Faithful session) :
    ∃ other, Session.ofText session.text = .ok other ∧ Alike session other := by
  have hstart : ∀ {lines : List Text}, nodeIds lines = nodeIds session.lines →
      (LineIndex.scan lines).highestId = .ok session.lastId := by
    intro lines hids
    rw [highestId_eq_ok_iff (LineIndex.Same.refl _), hids]
    exact hn
  rw [Session.ofText]
  by_cases hne : session.lines = []
  · have htext : session.text = [] := by
      rw [Session.text, hne]
      rfl
    have hlines : (Newline.ofText session.text).split session.text = [[]] := by
      rw [htext]
      rfl
    have hids : nodeIds [[]] = nodeIds session.lines := by
      rw [hne]
      decide
    rw [hlines, hstart hids]
    have hscan : (LineIndex.scan session.lines).Same (LineIndex.scan [[]]) := by
      rw [hne]
      exact LineIndex.Same.refl _
    exact ⟨_, rfl, rfl, hf.index.trans hscan, Or.inr ⟨hne, rfl⟩⟩
  · obtain ⟨hlines, hnewline⟩ := split_text hf.breaks hne
    rw [hlines, hstart rfl]
    exact ⟨_, rfl, rfl, hf.index, Or.inl ⟨rfl, hnewline⟩⟩

/-- Both batches in one run lead to what the second makes of the text that the first left. -/
theorem applyChanges_append {first second : List Operation} (ht : Tidy text)
    (hf : ∀ operation ∈ first, operation.IsClean) (hs : ∀ operation ∈ second, operation.IsClean)
    (hk : ∀ operation ∈ first, operation.KeepsNumbers) :
    applyChanges text (first ++ second) = (do
      let start ← applyChanges text first
      let rest ← applyChanges start.code second
      return ⟨rest.code, start.entries ++ rest.entries⟩) := by
  rw [applyChanges, applyChanges]
  cases hsession : Session.ofText text with
  | error fault => rfl
  | ok session =>
    have hfaithful := faithful_ofText ht hsession
    have hnumbered : Numbered session := by
      obtain ⟨heq, hhighest⟩ := ofText_eq_ok ht.breaks hsession
      rw [heq]
      exact hhighest
    simp only [bind, Except.bind, run_append]
    cases hrun : session.run first with
    | error fault => rfl
    | ok pair =>
      obtain ⟨middle, entries⟩ := pair
      obtain ⟨hn, hm⟩ := numbered_run hnumbered hfaithful hf hk hrun
      obtain ⟨other, hother, halike⟩ := ofText_text hn hm
      simp only [pure, Except.pure, applyChanges, hother, bind, Except.bind]
      rcases run_alike halike hm hs with
        ⟨fault, hfault, hagain⟩ | ⟨last, final, more, hlast, hfinal, hend⟩
      · rw [hfault, hagain]
      · rw [hlast, hfinal]
        simp only [text_alike hend]

/-- A batch of clean operations equals two calls, the second on the text of the first: the code is
the same and the logs are joined. -/
theorem applyChanges_batches {first second : List Operation} (ht : Tidy text)
    (hf : ∀ operation ∈ first, operation.IsClean) (hs : ∀ operation ∈ second, operation.IsClean)
    (hk : ∀ operation ∈ first, operation.KeepsNumbers) :
    (applyChanges text (first ++ second)).map (fun result => (result.code, result.log)) = (do
      let start ← applyChanges text first
      let rest ← applyChanges start.code second
      return (rest.code, start.log ++ rest.log)) := by
  rw [applyChanges_append ht hf hs hk]
  cases applyChanges text first with
  | error fault => rfl
  | ok start =>
    simp only [bind, Except.bind]
    cases applyChanges start.code second with
    | error fault => rfl
    | ok rest => simp [pure, Except.pure, Except.map, Result.log]

theorem applyChanges_batches_sample : (applyChanges sample sampleOperations).isOk = true ∧
    (applyChanges sample (sampleOperations.take 4 ++ sampleOperations.drop 4)).map
        (fun result => (result.code, result.log)) = (do
      let start ← applyChanges sample (sampleOperations.take 4)
      let rest ← applyChanges start.code (sampleOperations.drop 4)
      return (rest.code, start.log ++ rest.log)) :=
  ⟨by decide +kernel, applyChanges_batches (by decide +kernel) (by decide +kernel)
    (by decide +kernel) (by decide +kernel)⟩

end Swimlane.Patch
