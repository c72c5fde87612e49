import Swimlane.Proofs.Diagram.Pieces

/-! Attributes that are set in a line, and lists of attributes that are written and read: the last value
of a key counts. -/
namespace Swimlane

open Text Escaped

variable {line : Text} {updates : List (Text × Text)}

theorem pieces_attributes {attributes : List (Text × Text)} (hk : ∀ entry ∈ attributes, IsName entry.1) :
    pieces (attributes.flatMap fun entry => ' ' :: renderAttribute entry.1 entry.2) =
      attributes.flatMap fun entry => [.plain [' '], .written entry.1 entry.2] := by
  have hblank : isWord ' ' = false := by decide
  induction attributes with
  | nil => simp [pieces]
  | cons entry rest ih =>
    obtain ⟨hfirst, hrest⟩ := List.forall_mem_cons.1 hk
    rw [List.flatMap_cons, List.cons_append, pieces_sign hblank, pieces_renderAttribute hfirst, ih hrest]
    rfl

/-- Attributes that are written one after the other are read with the normal forms of their values. -/
theorem readAttributes_attributes {attributes : List (Text × Text)}
    (hk : ∀ entry ∈ attributes, IsName entry.1) :
    readAttributes (attributes.flatMap fun entry => ' ' :: renderAttribute entry.1 entry.2) =
      .ofList (attributes.map fun entry => (entry.1, normal entry.2)) := by
  have hentries : ∀ attributes : List (Text × Text),
      (attributes.flatMap fun entry => [.plain [' '], .written entry.1 entry.2]).filterMap
        Piece.attribute? = attributes.map fun entry => (entry.1, normal entry.2) := by
    intro attributes
    induction attributes with
    | nil => rfl
    | cons entry rest ih =>
      have hfirst : [.plain [' '], Piece.written entry.1 entry.2].filterMap Piece.attribute? =
          [(entry.1, decode (encode entry.2))] := rfl
      rw [List.flatMap_cons, List.filterMap_append, ih, hfirst, decode_encode]
      rfl
  rw [readAttributes, pieces_attributes hk, hentries]

theorem readAttributes_blank (line : Text) : readAttributes (' ' :: line) = readAttributes line := by
  rw [← readAttributes_trimLeft, trimLeft_blank (by decide), readAttributes_trimLeft]

/-- Attributes with blanks between them are read in the same way. -/
theorem readAttributes_join {attributes : List (Text × Text)} (hk : ∀ entry ∈ attributes, IsName entry.1) :
    readAttributes (join " " (attributes.map fun entry => renderAttribute entry.1 entry.2)) =
      .ofList (attributes.map fun entry => (entry.1, normal entry.2)) := by
  rw [← readAttributes_attributes hk]
  cases attributes with
  | nil => rfl
  | cons entry rest =>
    rw [List.map_cons, join_cons, List.flatMap_map, List.flatMap_cons, List.cons_append, readAttributes_blank]
    rfl

/-- A list of attributes reads back: the keys stand in the order in which they first appear, each with the
normal form of its last value, and what was written of that value is written of it again. -/
theorem attributes_roundtrip {pairs : List (Text × Text)} (hk : ∀ pair ∈ pairs, IsName pair.1) :
    let found := readAttributes (join " " (pairs.map fun pair => renderAttribute pair.1 pair.2))
    found.keys = keysOf Prod.fst pairs ∧
      (∀ key, found.get? key = (lastWith? Prod.fst pairs key).map fun pair => normal pair.2) ∧
      (∀ key, (found.get? key).map encode = (lastWith? Prod.fst pairs key).map fun pair => encode pair.2) ∧
      ∀ value, encode (decode (encode value)) = encode value := by
  have hfound := readAttributes_join hk
  have hvalues : ∀ key, (readAttributes (join " " (pairs.map fun pair => renderAttribute pair.1 pair.2))).get?
      key = (lastWith? Prod.fst pairs key).map fun pair => normal pair.2 := by
    intro key
    rw [hfound, OrderedMap.get?_ofPairs]
  refine ⟨?_, hvalues, fun key => ?_, encode_decode_encode⟩
  · rw [hfound, OrderedMap.keys_ofPairs]
  · rw [hvalues, Option.map_map]
    congr 1
    funext pair
    exact (congrArg encode (decode_encode pair.2)).symm.trans (encode_decode_encode pair.2)

/-- Values with quotation marks, backslashes and outer blanks; one key stands twice. -/
def markedPairs : List (Text × Text) :=
  [("label", "say \"hi\" \\"), ("note", " k:\"v\\\" "), ("label", "\n\\ a \"b\\")]

theorem attributes_roundtrip_marked : (∀ pair ∈ markedPairs, IsName pair.1) ∧
    ∃ found, found = readAttributes (join " " (markedPairs.map fun pair => renderAttribute pair.1 pair.2)) ∧
      found.keys = ["label".toList, "note".toList] ∧ found.get? "label".toList = some "\\ a \"b\\".toList ∧
      found.get? "note".toList = some "k:\"v\\\"".toList := by
  have hk : ∀ pair ∈ markedPairs, IsName pair.1 := by decide
  obtain ⟨hkeys, hvalues, _⟩ := attributes_roundtrip hk
  exact ⟨hk, _, rfl, hkeys.trans (by decide), (hvalues _).trans (by decide +kernel),
    (hvalues _).trans (by decide +kernel)⟩

/-- A line with some attributes set one after the other. -/
def setAttributes (line : Text) (updates : List (Text × Text)) : Text :=
  updates.foldl (fun line update => setAttribute line update.1 update.2) line

theorem marksInside_setAttributes (hm : MarksInside line) (hk : ∀ update ∈ updates, IsName update.1) :
    MarksInside (setAttributes line updates) := by
  induction updates generalizing line with
  | nil => exact hm
  | cons update rest ih =>
    obtain ⟨hfirst, hrest⟩ := List.forall_mem_cons.1 hk
    exact ih (marksInside_setAttribute hm hfirst update.2) hrest

theorem setAttributes_concat (line : Text) (updates : List (Text × Text)) (update : Text × Text) :
    setAttributes line (updates ++ [update]) =
      setAttribute (setAttributes line updates) update.1 update.2 := by
  rw [setAttributes, List.foldl_concat]
  rfl

theorem distinct_setAttributes (hm : MarksInside line) (hk : ∀ update ∈ updates, IsName update.1)
    (hd : ((writtenAttributes line).map Prod.fst).Nodup) :
    ((writtenAttributes (setAttributes line updates)).map Prod.fst).Nodup := by
  induction updates generalizing line with
  | nil => exact hd
  | cons update rest ih =>
    obtain ⟨hfirst, hrest⟩ := List.forall_mem_cons.1 hk
    refine ih (marksInside_setAttribute hm hfirst update.2) hrest ?_
    rw [writtenAttributes_setAttribute hm hfirst]
    exact nodup_putEntry hd

/-- If no key stands twice in a line, the values that are set in it are read from it, beside those that
were there. -/
theorem readAttributes_setAttributes (hm : MarksInside line) (hk : ∀ update ∈ updates, IsName update.1)
    (hd : ((writtenAttributes line).map Prod.fst).Nodup) : readAttributes (setAttributes line updates) =
      .ofList ((readAttributes line).entries ++ updates.map fun update => (update.1, normal update.2)) := by
  induction updates using List.reverseRecOn with
  | nil => rw [List.map_nil, List.append_nil, OrderedMap.ofList_entries, setAttributes, List.foldl_nil]
  | append_singleton rest update ih =>
    rw [List.forall_mem_append, List.forall_mem_singleton] at hk
    have hmarks := marksInside_setAttributes hm hk.1
    have hdistinct := distinct_setAttributes hm hk.1 hd
    have hset : readAttributes (setAttributes line (rest ++ [update])) =
        (readAttributes (setAttributes line rest)).insert update.1 (normal update.2) := by
      rw [setAttributes_concat, readAttributes, ← writtenAttributes,
        writtenAttributes_setAttribute hmarks hk.2, ← OrderedMap.insert_ofList hdistinct]
      rfl
    rw [hset, ih hk.1, List.map_append, ← List.append_assoc, List.map_singleton, OrderedMap.ofList_concat]

end Swimlane
