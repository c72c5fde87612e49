import Swimlane.Proofs.Patch.Faithful

/-! The index of a session that starts from a tidy text is that of a new scan, after every edit. -/
namespace Swimlane.Patch

open Text Line

variable {session : Session} {text : Text} {number : Nat}

/-- A text with line breaks of one kind that declares no node twice, and in which no line that opens
a lane has an arrow and no lane a brace in its name. -/
structure Tidy (text : Text) : Prop where
  breaks : UniformBreaks text
  distinct : ((Graph.ofText text).nodes.map (·.id)).Nodup
  lanes : ∀ source ∈ sourceLines text, ∀ id ∈ laneId? source.line,
    mentions arrow source.text = false ∧ '\x7b' ∉ id

instance : DecidablePred Tidy := fun text =>
  decidable_of_iff (UniformBreaks text ∧ ((Graph.ofText text).nodes.map (·.id)).Nodup ∧
      ∀ source ∈ sourceLines text, ∀ id ∈ laneId? source.line,
        mentions arrow source.text = false ∧ '\x7b' ∉ id)
    ⟨fun ⟨hbreaks, hdistinct, hlanes⟩ => ⟨hbreaks, hdistinct, hlanes⟩,
      fun h => ⟨h.breaks, h.distinct, h.lanes⟩⟩

theorem sound_of_tidy {text : Text} (h : Tidy text) (hn : Highest (nodeIds (segments text)) number) :
    Sound (segments text) number := by
  refine ⟨fun line => breakFree_of_mem_segments, ?_, fun line hmem id label hread => ?_, hn.bound⟩
  · have hdistinct := h.distinct
    rwa [Graph.nodes_ofText, map_id_nodesFrom] at hdistinct
  · have hne : trim line ≠ [] := by
      intro hnil
      have hskip := read_blank hnil
      simp [hread, isSkipped] at hskip
    obtain ⟨number, hsource⟩ := mem_sourceLines hmem hne
    obtain ⟨harrow, hbrace⟩ := h.lanes _ hsource id (by rw [hread]; rfl)
    exact ⟨mentions_arrow_trim harrow, hbrace⟩

/-- A session starts with the lines of its text, their index and the highest number in it. -/
theorem ofText_starts (hs : Session.ofText text = .ok session) :
    session = ⟨Newline.ofText text, (Newline.ofText text).split text,
        LineIndex.scan ((Newline.ofText text).split text), session.lastId⟩ ∧
      Highest (nodeIds ((Newline.ofText text).split text)) session.lastId := by
  rw [Session.ofText] at hs
  split at hs
  · next lastId hhighest =>
    cases hs
    exact ⟨rfl, (highestId_eq_ok_iff (LineIndex.Same.refl _)).1 hhighest⟩
  · cases hs

theorem ofText_eq_ok (h : UniformBreaks text) (hs : Session.ofText text = .ok session) :
    session = ⟨Newline.ofText text, segments text, LineIndex.scan (segments text), session.lastId⟩ ∧
      Highest (nodeIds (segments text)) session.lastId := by
  rw [← split_eq_segments h]
  exact ofText_starts hs

theorem lines_ofText (hb : UniformBreaks text) (hs : Session.ofText text = .ok session) :
    session.lines = segments text ∧ session.Indexed := by
  rw [(ofText_eq_ok hb hs).1]
  exact ⟨rfl, LineIndex.Same.refl _⟩

theorem faithful_ofText {text : Text} (h : Tidy text) (hs : Session.ofText text = .ok session) :
    Faithful session := by
  obtain ⟨hsession, hhighest⟩ := ofText_eq_ok h.breaks hs
  rw [hsession]
  exact ⟨sound_of_tidy h hhighest, LineIndex.Same.refl _⟩

theorem applyChanges_eq_ok {operations : List Operation} {result : Result}
    (h : applyChanges text operations = .ok result) : ∃ session last entries,
      Session.ofText text = .ok session ∧ session.run operations = .ok (last, entries) ∧
        result = ⟨last.text, entries⟩ := by
  rw [applyChanges] at h
  cases hs : Session.ofText text with
  | error fault => simp [hs, bind, Except.bind] at h
  | ok session =>
    cases hr : session.run operations with
    | error fault => simp [hs, hr, bind, Except.bind] at h
    | ok pair =>
      obtain ⟨last, entries⟩ := pair
      simp only [hs, hr, bind, Except.bind, pure, Except.pure, Except.ok.injEq] at h
      exact ⟨session, last, entries, rfl, hr, h.symm⟩

theorem run_singleton {operation : Operation} {last : Session} {entries : List Entry}
    (h : session.run [operation] = .ok (last, entries)) :
    ∃ entry, session.step operation = .ok (last, entry) ∧ entries = [entry] := by
  obtain ⟨after, entry, more, hstep, hrest, rfl⟩ := Session.run_cons_eq_ok.1 h
  cases hrest
  exact ⟨entry, hstep, rfl⟩

/-- After every operation on a tidy text the index that was kept up to date is that of the lines. -/
theorem index_same_scan {text : Text} {operations : List Operation} {first : Session}
    (ht : Tidy text) (hc : ∀ operation ∈ operations, operation.IsClean)
    (hs : Session.ofText text = .ok first) :
    ∀ session ∈ first :: (first.trace operations).steps.map Prod.fst,
      session.index.Same (LineIndex.scan session.lines) := by
  have hfirst := faithful_ofText ht hs
  intro session hmem
  rcases List.mem_cons.1 hmem with rfl | hmem
  · exact hfirst.index
  · obtain ⟨step, hstep, rfl⟩ := List.mem_map.1 hmem
    exact (faithful_trace hfirst hc step hstep).index

/-- A lane with two nodes and an edge, and a lane without. -/
def sample : Text :=
  "a \x7b\nn1: circle label:\"x\"\nn1.handle(right) -> n2.handle(left)\nn2: circle\n\x7d\nb \x7b\n\x7d\n"

/-- A batch with an operation of each kind. -/
def sampleOperations : List Operation := [
  { op := "insertNode"
    laneId := some "a"
    afterNodeId := some "n1"
    newNode := some ⟨none, some "say \"hi\"\nthere", .ofList [("owner", "me")]⟩ },
  { op := "insertEdge", newEdge := some ⟨"n3", "n2", some "go", "right", "left"⟩ },
  { op := "updateNode"
    nodeId := some "n2"
    updates := some (.ofList [("shape", "diamond"), ("label", "y")]) },
  { op := "removeEdge", newEdge := some ⟨"n1", "n2", none, "right", "left"⟩ },
  { op := "removeNode", nodeId := some "n1" }]

theorem index_same_scan_sample : ∃ first, Session.ofText sample = .ok first ∧
    (first.trace sampleOperations).entries.map Entry.isApplied = [true, true, true, true, true] ∧
    ∀ session ∈ first :: (first.trace sampleOperations).steps.map Prod.fst,
      session.index.Same (LineIndex.scan session.lines) := by
  have happlied : (Session.ofText sample).toOption.map (fun first =>
      (first.trace sampleOperations).entries.map Entry.isApplied) =
        some [true, true, true, true, true] := by decide +kernel
  cases hs : Session.ofText sample with
  | error fault => simp [hs, Except.toOption] at happlied
  | ok first =>
    rw [hs] at happlied
    exact ⟨first, rfl, Option.some.inj happlied,
      index_same_scan (by decide +kernel) (by decide +kernel) hs⟩

end Swimlane.Patch
