import Swimlane.Proofs.Diagram.NodeUpdate

/-! A node's line as a record: what is left of it and what it declares when it is updated, key by key. -/
namespace Swimlane

open Text Escaped Line Patch

namespace Line

variable {left text key old new : Text}

/-- What follows a name can be written anew, if none of its braces opens a lane then. -/
theorem shut_replace (hk : IsName key) (hn : Closed old → Closed new)
    (h : Shut (left ++ (key ++ old))) : Shut (left ++ (key ++ new)) := by
  have hopen : '\x7b' ∉ key := not_mem_name hk (by decide)
  obtain ⟨k, more, rfl⟩ := List.exists_cons_of_ne_nil hk.1
  rw [List.mem_cons, not_or] at hopen
  -- The first sign behind the blanks is that of the name, or one that stands before it.
  cases hl : trimLeft left with
  | nil =>
    have htrim : ∀ rest : Text, trimLeft (left ++ (k :: more ++ rest)) = k :: (more ++ rest) := by
      intro rest
      rw [trimLeft_append_name hk, hl]
      rfl
    rw [shut_iff (htrim _), takeWhile_append_name hk] at h ⊢
    refine ⟨fun he => absurd he.symm hopen.1, h.2.imp_right fun hc => ?_⟩
    rw [closed_append_iff hopen.2] at hc ⊢
    exact hn hc
  | cons c rest =>
    have htrim : ∀ text : Text,
        trimLeft (left ++ (k :: more ++ text)) = c :: (rest ++ (k :: more) ++ text) := by
      intro text
      rw [trimLeft_append_name hk, hl]
      simp
    have hword : ∃ d ∈ (rest ++ (k :: more)).getLast?, isWord d = true := by
      refine ⟨(k :: more).getLast hk.1, ?_, hk.2 _ (List.getLast_mem hk.1)⟩
      rw [List.getLast?_append_of_ne_nil _ hk.1, List.getLast?_eq_some_getLast hk.1]
      rfl
    have hblank : ∃ d ∈ rest ++ (k :: more), isBlank d = false :=
      ⟨k, by simp, isBlank_of_isWord (hk.2 k List.mem_cons_self)⟩
    rw [shut_iff (htrim _), takeWhile_append_name hk, blocks_append hblank] at h ⊢
    refine ⟨h.1, h.2.imp_right fun hc => ?_⟩
    exact closed_append (closed_of_append_left hword hc) (hn (closed_of_append hc))

/-- A name and what follows it can be written behind a blank at the end. -/
theorem shut_append (hk : IsName key) (hn : Closed new) (h : Shut left) :
    Shut (left ++ ' ' :: (key ++ new)) := by
  have hopen : '\x7b' ∉ ' ' :: key := by
    rw [List.mem_cons, not_or]
    exact ⟨by decide, not_mem_name hk (by decide)⟩
  have hclosed : Closed (' ' :: (key ++ new)) := closed_append (closed_of_not_mem hopen) hn
  cases hl : trimLeft left with
  | nil =>
    obtain ⟨k, more, rfl⟩ := List.exists_cons_of_ne_nil hk.1
    have htrim : trimLeft (left ++ ' ' :: (k :: more ++ new)) = k :: (more ++ new) := by
      rw [trimLeft_margin (trimLeft_eq_nil_iff.1 hl), trimLeft_blank (by decide)]
      exact trimLeft_name hk
    rw [shut_iff htrim]
    have hmore : Closed (more ++ new) := hclosed.2.2
    refine ⟨fun he => absurd he ?_, Or.inr hmore⟩
    rintro rfl
    simp at hopen
  | cons c rest =>
    have htrim : trimLeft (left ++ ' ' :: (key ++ new)) = c :: (rest ++ ' ' :: (key ++ new)) := by
      rw [trimLeft_append (by simp [hl]), hl]
      rfl
    rw [shut_iff hl] at h
    rw [shut_iff htrim]
    refine ⟨fun hc => (blocks_append (exists_of_blocks (h.1 hc))).2 (h.1 hc), ?_⟩
    refine h.2.imp (fun hm => ?_) fun hc => closed_append hc hclosed
    rw [List.takeWhile_append]
    split
    · exact List.mem_append_left _ (List.takeWhile_subset _ hm)
    · exact hm

end Line

variable {line head text blanks id key value margin gap rest : Text} {shape other : Shape}
  {updates : List (Text × Text)} {attributes : Attributes}

/-- What stands behind the shape of a node's line, up to its last sign. Its quotation marks stand in
attributes. -/
structure Remainder (text : Text) : Prop where
  word : text.head?.any isWord = false
  last : ∀ c ∈ text.getLast?, isBlank c = false
  marks : MarksInside text

theorem trimRight_remainder (hr : Remainder text) : trimRight text = text := trimRight_eq_self hr.last

/-- What stands first stays first: before a key that is found there is something else. -/
theorem head?_setAttribute (hr : Remainder text) (key value : Text) :
    (setAttribute text key value).head?.any isWord = false := by
  have hword := hr.word
  rcases setAttribute_cases text key value with
    ⟨left, between, body, right, htext, hkey, _, hset⟩ | hset
  · have hleft : left ≠ [] := by
      rintro rfl
      obtain ⟨c, more, rfl⟩ := List.exists_cons_of_ne_nil hkey.1
      simp [htext, hkey.2 c List.mem_cons_self] at hword
    rw [htext, List.head?_append_of_ne_nil _ hleft] at hword
    rwa [hset, List.head?_append_of_ne_nil _ hleft]
  · rw [hset, trimRight_remainder hr]
    cases text with
    | nil => simp; decide
    | cons c more => simpa using hword

theorem getLast?_writtenValue (text value : Text) : (text ++ writtenValue value).getLast? = some '"' := by
  simp [writtenValue, List.getLast?_append, List.getLast?_cons]

theorem getLast?_setAttribute (hr : Remainder text) (key value : Text) :
    ∀ c ∈ (setAttribute text key value).getLast?, isBlank c = false := by
  have hmark : isBlank '"' = false := by decide
  intro c hc
  rcases setAttribute_cases text key value with
    ⟨left, between, body, right, htext, hkey, _, hset⟩ | hset
  · rw [hset] at hc
    cases right with
    | nil =>
      rw [List.append_nil, ← List.append_assoc, getLast?_writtenValue, Option.mem_some_iff] at hc
      exact hc ▸ hmark
    | cons d more =>
      apply hr.last c
      rw [htext]
      simpa [List.getLast?_append, List.getLast?_cons] using hc
  · rw [hset, List.append_cons, ← List.append_assoc, getLast?_writtenValue, Option.mem_some_iff] at hc
    exact hc ▸ hmark

theorem remainder_setAttribute (hr : Remainder text) (hk : IsName key) (value : Text) :
    Remainder (setAttribute text key value) :=
  ⟨head?_setAttribute hr key value, getLast?_setAttribute hr key value,
    marksInside_setAttribute hr.marks hk value⟩

theorem pieces_remainder (hh : NodeHead id shape head) (hr : Remainder text)
    (hb : ∀ c ∈ blanks, isBlank c = true) : MarksInside (head ++ (text ++ blanks)) ∧
      pieces (head ++ (text ++ blanks)) = pieces head ++ (pieces text ++ pieces blanks) := by
  have hhead : '"' ∉ head := nodeHead_not_mem hh (by decide) (by decide) (by decide)
  have hend : '"' ∉ blanks := fun hm => absurd (hb _ hm) (by decide)
  have hfirst : ([] ++ blanks).head?.any isWord = false := not_isWord_append_blanks rfl hb
  exact pieces_between hhead hr.marks hend (fun _ => hr.word) fun _ => hfirst

/-- An attribute is set in what stands behind the head, as if nothing stood around it. -/
theorem setAttribute_remainder (hh : NodeHead id shape head) (hr : Remainder text)
    (hb : ∀ c ∈ blanks, isBlank c = true) (key value : Text) : ∃ right : Text,
      (∀ c ∈ right, isBlank c = true) ∧
      setAttribute (head ++ (text ++ blanks)) key value =
        head ++ (setAttribute text key value ++ right) := by
  have hhead : '"' ∉ head := nodeHead_not_mem hh (by decide) (by decide) (by decide)
  have hend : '"' ∉ blanks := fun hm => absurd (hb _ hm) (by decide)
  have hparts := (pieces_remainder hh hr hb).2
  obtain ⟨above, below, hslot⟩ := exists_slot key text
  cases hslot with
  | @inPlace _ _ gap body h hf =>
    have hwhole : pieces (head ++ (text ++ blanks)) =
        (pieces head ++ above) ++ .attribute key gap body :: (below ++ pieces blanks) := by
      rw [hparts, h]
      simp
    have hfree : ∀ piece ∈ pieces head ++ above, piece.hasKey key = false :=
      List.forall_mem_append.2 ⟨hasKey_of_not_mem hhead, hf⟩
    refine ⟨blanks, hb, ?_⟩
    rw [setAttribute_slot (.inPlace hwhole hfree), setAttribute_slot (.inPlace h hf)]
    simp [source_pieces]
  | atEnd hf =>
    have hfree : ∀ piece ∈ pieces (head ++ (text ++ blanks)), piece.hasKey key = false := by
      rw [hparts]
      exact List.forall_mem_append.2 ⟨hasKey_of_not_mem hhead,
        List.forall_mem_append.2 ⟨hf, hasKey_of_not_mem hend⟩⟩
    obtain ⟨c, hc, hword⟩ := nodeHead_isWord hh
    have htrim : trimRight (head ++ (text ++ blanks)) = head ++ trimRight text := by
      rw [← List.append_assoc, trimRight_margin hb, trimRight_append ⟨c, hc, isBlank_of_isWord hword⟩]
    refine ⟨[], by simp, ?_⟩
    rw [setAttribute_slot (.atEnd hfree), setAttribute_slot (.atEnd hf), htrim]
    simp [source_pieces]

/-- A node's line: its margin, its identifier, the blanks behind the colon, its shape, and the rest. -/
def nodeText (margin id gap : Text) (shape : Shape) (rest : Text) : Text :=
  margin ++ (id ++ ':' :: (gap ++ shape.name)) ++ rest

/-- An update that a node's line can take: its key is a name, and a shape is one that there is. -/
def Takes (update : Text × Text) : Prop :=
  IsName update.1 ∧ (update.1 = "shape".toList → (Shape.ofName? update.2).isSome)

instance : DecidablePred Takes := fun update =>
  inferInstanceAs (Decidable (IsName update.1 ∧
    (update.1 = "shape".toList → (Shape.ofName? update.2).isSome)))

/-- The updates that set attributes. -/
def attributeUpdates (updates : List (Text × Text)) : List (Text × Text) :=
  updates.filter (·.1 ≠ "shape".toList)

/-- The shape of a node after some updates. -/
def shapeAfter (shape : Shape) (updates : List (Text × Text)) : Shape :=
  (((OrderedMap.ofList updates).get? "shape".toList).bind Shape.ofName?).getD shape

theorem isName_attributeUpdates (hu : ∀ update ∈ updates, Takes update) :
    ∀ update ∈ attributeUpdates updates, IsName update.1 :=
  fun update hupdate => (hu update (List.mem_of_mem_filter hupdate)).1

theorem remainder_setAttributes (hr : Remainder text) (hk : ∀ update ∈ updates, IsName update.1) :
    Remainder (setAttributes text updates) := by
  induction updates generalizing text with
  | nil => exact hr
  | cons update rest ih =>
    obtain ⟨hfirst, hrest⟩ := List.forall_mem_cons.1 hk
    exact ih (remainder_setAttribute hr hfirst update.2) hrest

theorem shapeAfter_concat {update : Text × Text} (hu : Takes update) :
    shapeAfter shape (updates ++ [update]) = if update.1 = "shape".toList
      then (Shape.ofName? update.2).getD (shapeAfter shape updates) else shapeAfter shape updates := by
  rw [shapeAfter, OrderedMap.ofList_concat, OrderedMap.get?_insert]
  split
  · next hkey =>
    obtain ⟨other, hother⟩ := Option.isSome_iff_exists.1 (hu.2 hkey.symm)
    rw [if_pos hkey.symm, Option.bind_some, hother]
    rfl
  · next hkey =>
    rw [if_neg (Ne.symm hkey)]
    rfl

theorem attributeUpdates_concat {update : Text × Text} :
    attributeUpdates (updates ++ [update]) = if update.1 = "shape".toList
      then attributeUpdates updates else attributeUpdates updates ++ [update] := by
  rw [attributeUpdates, List.filter_append]
  split
  · next hkey =>
    have hnone : [update].filter (·.1 ≠ "shape".toList) = [] :=
      List.filter_eq_nil_iff.2 (List.forall_mem_singleton.2 fun h => of_decide_eq_true h hkey)
    rw [hnone, List.append_nil, attributeUpdates]
  · next hkey =>
    have hall : [update].filter (·.1 ≠ "shape".toList) = [update] :=
      List.filter_eq_self.2 (List.forall_mem_singleton.2 (decide_eq_true hkey))
    rw [hall, attributeUpdates]

theorem updateAll_concat {update : Text × Text} : updateAll line (updates ++ [update]) =
    (updateAll line updates).bind fun line => updateLine line update.1 update.2 := by
  rw [updateAll, List.foldlM_append]
  simp only [List.foldlM_cons, List.foldlM_nil, bind_pure]
  rfl

section Run

variable (hm : ∀ c ∈ margin, isBlank c = true) (hid : IsName id) (hg : ∀ c ∈ gap, isBlank c = true)

include hm hid hg

theorem updateLine_nodeText {update : Text × Text} (hr : Remainder text)
    (hb : ∀ c ∈ blanks, isBlank c = true) (hu : Takes update) : ∃ right : Text,
      (∀ c ∈ right, isBlank c = true) ∧
      updateLine (nodeText margin id gap shape (text ++ blanks)) update.1 update.2 =
        .ok (if update.1 = "shape".toList
          then nodeText margin id gap ((Shape.ofName? update.2).getD shape) (text ++ blanks)
          else nodeText margin id gap shape (setAttribute text update.1 update.2 ++ right)) := by
  rw [updateLine]
  split
  · next hkey =>
    obtain ⟨other, hother⟩ := Option.isSome_iff_exists.1 (hu.2 hkey)
    refine ⟨blanks, hb, ?_⟩
    rw [hother, nodeText]
    exact congrArg Except.ok (setShape_append hm hid hg (not_isWord_append_blanks hr.word hb))
  · obtain ⟨right, hblank, hset⟩ := setAttribute_remainder (.intro hm hid hg) hr hb update.1 update.2
    exact ⟨right, hblank, congrArg Except.ok hset⟩

/-- Updates change the shape of a node's line and set attributes in what stands behind it. -/
theorem updateAll_nodeText (hr : Remainder text) (hb : ∀ c ∈ blanks, isBlank c = true)
    (hu : ∀ update ∈ updates, Takes update) : ∃ right : Text, (∀ c ∈ right, isBlank c = true) ∧
      updateAll (nodeText margin id gap shape (text ++ blanks)) updates =
        .ok (nodeText margin id gap (shapeAfter shape updates)
          (setAttributes text (attributeUpdates updates) ++ right)) := by
  -- By the last update, since of several shapes the last is the one that stands.
  induction updates using List.reverseRecOn with
  | nil => exact ⟨blanks, hb, rfl⟩
  | append_singleton rest update ih =>
    rw [List.forall_mem_append, List.forall_mem_singleton] at hu
    obtain ⟨right, hright, hrest⟩ := ih hu.1
    have hremainder := remainder_setAttributes hr (isName_attributeUpdates hu.1)
    obtain ⟨last, hlast, hupdate⟩ := updateLine_nodeText hm hid hg hremainder hright hu.2
    rw [updateAll_concat, hrest, Except.bind, hupdate, shapeAfter_concat hu.2, attributeUpdates_concat]
    split
    · exact ⟨right, hright, rfl⟩
    · exact ⟨last, hlast, by rw [setAttributes_concat]⟩

end Run

/-- What stands behind a shape, and blanks before it, in a line that is read as a node's. -/
structure Legible (gap text : Text) : Prop where
  arrow : mentions arrow text = false
  line : '\n' ∉ trimLeft text
  lane : '\n' ∈ gap ∨ Shut text

theorem arrow_setAttribute (h : mentions arrow text = false) (hr : Remainder text) (hk : IsName key)
    (hv : mentions arrow (normal value) = false) : mentions arrow (setAttribute text key value) = false := by
  rcases setAttribute_cases text key value with
    ⟨left, between, body, right, htext, _, _, hset⟩ | hset
  · have hright : right <:+: text :=
      ⟨left ++ (key ++ (between ++ '"' :: (body ++ ['"']))), [], by simp [htext]⟩
    have hleft : left ++ key <:+: text :=
      ⟨[], between ++ '"' :: (body ++ '"' :: right), by simp [htext]⟩
    rw [hset, ← List.append_assoc]
    exact mentions_arrow_written (mentions_arrow_of_isInfix hleft h) hv
      (mentions_arrow_of_isInfix hright h)
  · have hwritten : mentions arrow (' ' :: key ++ (writtenValue value ++ [])) = false :=
      mentions_arrow_written (tail_name hk).arrow hv rfl
    rw [List.append_nil, List.cons_append] at hwritten
    rw [hset, trimRight_remainder hr]
    exact mentions_arrow_append h hwritten (Or.inr (by simp))

theorem line_setAttribute (h : '\n' ∉ trimLeft text) (hr : Remainder text) (hk : IsName key) :
    '\n' ∉ trimLeft (setAttribute text key value) := by
  have hkey : '\n' ∉ key := not_mem_name hk (by decide)
  have hvalue : '\n' ∉ writtenValue value := not_mem_writtenValue not_mem_normal (by decide)
  rcases setAttribute_cases text key value with
    ⟨left, between, body, right, htext, _, _, hset⟩ | hset
  · rw [htext, trimLeft_append_name hk] at h
    rw [hset, trimLeft_append_name hk]
    simp only [List.mem_append, List.mem_cons, not_or] at h ⊢
    exact ⟨h.1, hkey, hvalue, h.2.2.2.2.2.2⟩
  · rw [hset, trimRight_remainder hr, List.append_cons, trimLeft_append_name hk]
    simp only [List.mem_append, not_or]
    refine ⟨fun hm => ?_, hkey, hvalue⟩
    by_cases htrim : trimLeft text = []
    · rw [trimLeft_margin (trimLeft_eq_nil_iff.1 htrim)] at hm
      exact absurd hm (by decide)
    · rw [trimLeft_append htrim] at hm
      exact (List.mem_append.1 hm).elim h (by decide)

theorem shut_setAttribute (h : Shut text) (hr : Remainder text) (hk : IsName key)
    (hv : opensLabel (normal value) = false) : Shut (setAttribute text key value) := by
  have hclosed := closed_writtenValue hv
  rcases setAttribute_cases text key value with
    ⟨left, between, body, right, htext, _, _, hset⟩ | hset
  · rw [hset]
    refine shut_replace hk (fun hold => ?_) (htext ▸ h)
    exact closed_append hclosed (closed_of_append (closed_of_append hold).2).2
  · rw [hset, trimRight_remainder hr]
    exact shut_append hk hclosed h

theorem legible_setAttribute (hl : Legible gap text) (hr : Remainder text) (hk : IsName key)
    (hv : Quotable value) : Legible gap (setAttribute text key value) :=
  ⟨arrow_setAttribute hl.arrow hr hk hv.arrow, line_setAttribute hl.line hr hk,
    hl.lane.imp_right fun hs => shut_setAttribute hs hr hk hv.label⟩

theorem legible_setAttributes (hl : Legible gap text) (hr : Remainder text)
    (hq : ∀ update ∈ updates, IsName update.1 ∧ Quotable update.2) :
    Legible gap (setAttributes text updates) := by
  induction updates generalizing text with
  | nil => exact hl
  | cons update rest ih =>
    obtain ⟨⟨hk, hv⟩, hrest⟩ := List.forall_mem_cons.1 hq
    exact ih (legible_setAttribute hl hr hk hv) (remainder_setAttribute hr hk update.2) hrest

theorem laneOpen?_nodeHead (hid : IsName id) (hg : ∀ c ∈ gap, isBlank c = true) (hn : '\n' ∉ trimLeft text) :
    laneOpen? (id ++ ':' :: (gap ++ shape.name) ++ text) = none ↔ '\n' ∈ gap ∨ Shut text := by
  have hhead := nodeHead_bare shape hid hg
  obtain ⟨c, hc, hword⟩ := nodeHead_isWord hhead
  have hgap : '\n' ∈ id ++ ':' :: (gap ++ shape.name) ↔ '\n' ∈ gap := by
    have hname := (breakFree_name hid).1
    have hshape := (breakFree_name (isName_name shape)).1
    simp [hname, hshape]
  rw [laneOpen?_append_eq_none_iff (nodeHead_not_mem hhead (by decide) (by decide) (by decide))
    ⟨c, hc, isBlank_of_isWord hword⟩ hn, hgap]

/-- A node's line is read with the attributes behind its shape. -/
theorem read_nodeText (hm : ∀ c ∈ margin, isBlank c = true) (hid : IsName id)
    (hg : ∀ c ∈ gap, isBlank c = true) (hb : ∀ c ∈ blanks, isBlank c = true) (hr : Remainder text)
    (hl : Legible gap text) :
    read (nodeText margin id gap shape (text ++ blanks)) = .node id shape (readAttributes text) := by
  have htrim : trimRight (text ++ blanks) = text := by
    rw [trimRight_margin hb, trimRight_remainder hr]
  have harrow : mentions arrow (text ++ blanks) = false := mentions_arrow_append_blanks hl.arrow hb
  have hopen : laneOpen? (trim (nodeText margin id gap shape (text ++ blanks))) = none := by
    rw [nodeText, trim_append_nodeHead hm hid hg, htrim]
    exact (laneOpen?_nodeHead hid hg hl.line).2 hl.lane
  rw [nodeText] at hopen ⊢
  rw [read_nodeHead (.intro hm hid hg) (not_isWord_append_blanks hr.word hb) harrow
    (htrim.symm ▸ hl.line) hopen, htrim, readAttributes_trimLeft]

/-- A line with a node's head, and no quotation mark behind it but those of attributes. -/
theorem exists_nodeText (h : nodeHead? (trim line) = some (id, shape, rest))
    (hmarks : MarksInside (trimLeft rest)) : ∃ margin gap blanks : Text,
      (∀ c ∈ margin, isBlank c = true) ∧ IsName id ∧ (∀ c ∈ gap, isBlank c = true) ∧
      (∀ c ∈ blanks, isBlank c = true) ∧ line = nodeText margin id gap shape (rest ++ blanks) ∧
      trim line = id ++ ':' :: (gap ++ shape.name) ++ rest ∧ Remainder rest := by
  obtain ⟨margin, gap, blanks, hline, hcut, hm, hid, hg, hb, hword⟩ := exists_margins_of_nodeHead? h
  refine ⟨margin, gap, blanks, hm, hid, hg, hb, hline, hcut, hword, fun c hc => ?_,
    marksInside_of_trimLeft hmarks⟩
  have hne : rest ≠ [] := by
    rintro rfl
    simp at hc
  have hlast : c ∈ (trim line).getLast? := by rwa [hcut, List.getLast?_append_of_ne_nil _ hne]
  exact (trimmed_trim line).2 c hlast

theorem legible_of_read (hid : IsName id) (hg : ∀ c ∈ gap, isBlank c = true)
    (hcut : trim line = id ++ ':' :: (gap ++ shape.name) ++ rest) (hw : rest.head?.any isWord = false)
    (h : read line = .node id shape attributes) :
    Legible gap rest ∧ attributes = readAttributes rest := by
  obtain ⟨hopen, hnode⟩ := read_eq_node_iff.1 h
  obtain ⟨harrow, _, _, tail, hhead, hbreak, hfound⟩ := node?_eq_some_iff.1 hnode
  have hrest : nodeHead? (trim line) = some (id, shape, rest) :=
    nodeHead?_eq_some_iff.2 ⟨gap, by simp [hcut], hid, hg, hw⟩
  cases hrest.symm.trans hhead
  cases hfound
  have hsuffix : rest <:+ trim line := ⟨_, hcut.symm⟩
  rw [hcut] at hopen
  exact ⟨⟨mentions_arrow_of_isInfix hsuffix.isInfix harrow, hbreak,
    (laneOpen?_nodeHead hid hg hbreak).1 hopen⟩, readAttributes_trimLeft rest⟩

/-- Attributes with those of the updates set. -/
def overridden (attributes : Attributes) (updates : List (Text × Text)) : Attributes :=
  .ofList (attributes.entries ++ (attributeUpdates updates).map fun update => (update.1, normal update.2))

theorem keys_overridden {updates : Attributes} : (overridden attributes updates.entries).keys =
    attributes.keys ++ updates.keys.filter fun key => key ≠ "shape".toList ∧ key ∉ attributes.keys := by
  have hkeys : ((attributeUpdates updates.entries).map fun update =>
      (update.1, normal update.2)).map Prod.fst = updates.keys.filter (· ≠ "shape".toList) := by
    rw [List.map_map, attributeUpdates, OrderedMap.keys, List.filter_map]
    rfl
  have hdistinct : (updates.keys.filter (· ≠ "shape".toList)).Nodup := updates.distinct.filter _
  rw [overridden, OrderedMap.keys_append (hkeys ▸ hdistinct), hkeys, List.filter_filter]
  congr 2
  funext key
  rw [Bool.and_comm, ← Bool.decide_and]

theorem get?_overridden : (overridden attributes updates).get? key = if key = "shape".toList
    then attributes.get? key
    else (((OrderedMap.ofList updates).get? key).map normal).or (attributes.get? key) := by
  induction updates using List.reverseRecOn with
  | nil =>
    have hsame : overridden attributes [] = attributes := by
      rw [overridden, attributeUpdates, List.filter_nil, List.map_nil, List.append_nil,
        OrderedMap.ofList_entries]
    have hnone : (OrderedMap.ofList ([] : List (Text × Text))).get? key = none := rfl
    rw [hsame, hnone, Option.map_none, Option.none_or, ite_self]
  | append_singleton rest update ih =>
    rw [overridden, attributeUpdates_concat, OrderedMap.ofList_concat, OrderedMap.get?_insert]
    by_cases hkey : update.1 = "shape".toList
    · rw [if_pos hkey, ← overridden, ih]
      by_cases hshape : key = "shape".toList
      · rw [if_pos hshape, if_pos hshape]
      · rw [if_neg hshape, if_neg hshape, if_neg (hkey ▸ hshape)]
    · rw [if_neg hkey, List.map_append, ← List.append_assoc, List.map_singleton, OrderedMap.ofList_concat,
        OrderedMap.get?_insert, ← overridden, ih]
      by_cases hsame : key = update.1
      · rw [if_pos hsame, if_pos hsame, if_neg (hsame ▸ hkey), Option.map_some, Option.some_or]
      · rw [if_neg hsame, if_neg hsame]

/-- Updates of a node's line override its record: the shape and the attributes that are sent change, all
else that is read of the line stays. -/
theorem updateAll_record {updates : Attributes} (hread : read line = .node id shape attributes)
    (hrest : nodeHead? (trim line) = some (id, shape, rest)) (hmarks : MarksInside (trimLeft rest))
    (hkeys : ((writtenAttributes (trimLeft rest)).map Prod.fst).Nodup)
    (htakes : ∀ update ∈ updates.entries, Takes update)
    (hvalues : ∀ update ∈ updates.entries, update.1 ≠ "shape".toList →
      mentions arrow update.2 = false ∧ '\x7b' ∉ update.2) :
    ∃ new found, updateAll line updates.entries = .ok new ∧
      read new = .node id (((updates.get? "shape".toList).bind Shape.ofName?).getD shape) found ∧
      found.keys = attributes.keys ++
        (updates.keys.filter fun key => key ≠ "shape".toList ∧ key ∉ attributes.keys) ∧
      ∀ key, found.get? key = if key = "shape".toList then attributes.get? key
        else ((updates.get? key).map normal).or (attributes.get? key) := by
  obtain ⟨margin, gap, blanks, hm, hid, hg, hb, hline, hcut, hremainder⟩ := exists_nodeText hrest hmarks
  obtain ⟨hlegible, rfl⟩ := legible_of_read hid hg hcut hremainder.word hread
  rw [writtenAttributes_trimLeft] at hkeys
  obtain ⟨right, hright, hupdate⟩ := updateAll_nodeText hm hid hg hremainder hb htakes
  have hquotable : ∀ update ∈ attributeUpdates updates.entries, IsName update.1 ∧ Quotable update.2 := by
    intro update hmem
    obtain ⟨hentry, hkey⟩ := List.mem_filter.1 hmem
    obtain ⟨harrow, hbrace⟩ := hvalues update hentry (of_decide_eq_true hkey)
    exact ⟨(htakes update hentry).1, quotable_of_not_mentions harrow hbrace⟩
  have hnames := isName_attributeUpdates htakes
  have hnew : read (nodeText margin id gap (shapeAfter shape updates.entries)
      (setAttributes rest (attributeUpdates updates.entries) ++ right)) =
        .node id (shapeAfter shape updates.entries) (overridden (readAttributes rest) updates.entries) := by
    rw [read_nodeText hm hid hg hright (remainder_setAttributes hremainder hnames)
      (legible_setAttributes hlegible hremainder hquotable),
      readAttributes_setAttributes hremainder.marks hnames hkeys, overridden]
  have hsent : OrderedMap.ofList updates.entries = updates := OrderedMap.ofList_entries updates
  refine ⟨_, _, hline ▸ hupdate, hnew.trans ?_, keys_overridden, fun key => ?_⟩
  · rw [shapeAfter, hsent]
  · rw [get?_overridden, hsent]

/-- A line with stray words, another sign, an escaped mark and blanks at its end. -/
def strayLine : Text := "  n1: circle  stray label = \"a \\\" b\"  note:\"x y\"  "

def strayRest : Text := "  stray label = \"a \\\" b\"  note:\"x y\""

def strayUpdates : Attributes :=
  .ofList [("label", " new \"b\"\n"), ("shape", "diamond"), ("owner", "me \\")]

theorem updateAll_record_stray : ∃ new found, updateAll strayLine strayUpdates.entries = .ok new ∧
    read new = .node "n1" .diamond found ∧ found.keys = ["label".toList, "note".toList, "owner".toList] ∧
    found.get? "label".toList = some "new \"b\"".toList ∧ found.get? "note".toList = some "x y".toList ∧
    found.get? "owner".toList = some "me \\".toList := by
  have hrest : nodeHead? (trim strayLine) = some ("n1".toList, .circle, strayRest) := by decide +kernel
  have hread : read strayLine = .node "n1" .circle (readAttributes (trimLeft strayRest)) :=
    read_eq_node_iff.2 ⟨Option.isNone_iff_eq_none.1 (by decide +kernel), node?_eq_some_iff.2
      ⟨by decide +kernel, _, _, _, hrest, by decide +kernel, rfl⟩⟩
  have htakes : ∀ update ∈ strayUpdates.entries, Takes update := by decide +kernel
  obtain ⟨new, found, hnew, hfound, hkeys, hvalues⟩ :=
    updateAll_record hread hrest (by decide +kernel) (by decide +kernel) htakes (by decide +kernel)
  exact ⟨new, found, hnew, hfound, hkeys.trans (by decide +kernel), (hvalues _).trans (by decide +kernel),
    (hvalues _).trans (by decide +kernel), (hvalues _).trans (by decide +kernel)⟩

end Swimlane
