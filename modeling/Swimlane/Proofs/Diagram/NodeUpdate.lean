import Swimlane.Proofs.Diagram.Attributes

/-! Attributes as they are written, and updates of a node's line: it declares the same node again. -/
namespace Swimlane

open Text Escaped Line Patch

variable {c : Char} {text line head rest id key gap body value : Text} {shape other : Shape}
  {piece : Piece} {parts : List Piece}

/-- A value that cannot be taken for an arrow, for the opening of a lane or for a line's end. -/
structure CleanValue (value : Text) : Prop where
  arrow : mentions arrow value = false
  brace : '\x7b' ∉ value
  carriage : '\r' ∉ value

instance : DecidablePred CleanValue := fun value =>
  decidable_of_iff (mentions arrow value = false ∧ '\x7b' ∉ value ∧ '\r' ∉ value)
    ⟨fun ⟨harrow, hbrace, hcarriage⟩ => ⟨harrow, hbrace, hcarriage⟩,
      fun h => ⟨h.arrow, h.brace, h.carriage⟩⟩

/-- A value whose normal form a node's line can hold between quotation marks. -/
structure Fits (value : Text) : Prop where
  arrow : mentions arrow (normal value) = false
  label : opensLabel (normal value) = false
  carriage : '\r' ∉ normal value

instance : DecidablePred Fits := fun value =>
  decidable_of_iff (mentions arrow (normal value) = false ∧ opensLabel (normal value) = false ∧
      '\r' ∉ normal value)
    ⟨fun ⟨harrow, hlabel, hcarriage⟩ => ⟨harrow, hlabel, hcarriage⟩,
      fun h => ⟨h.arrow, h.label, h.carriage⟩⟩

/-- A value whose normal form is taken for no arrow and for no opening of a lane. -/
structure Quotable (value : Text) : Prop where
  arrow : mentions arrow (normal value) = false
  label : opensLabel (normal value) = false

instance : DecidablePred Quotable := fun value =>
  decidable_of_iff (mentions arrow (normal value) = false ∧ opensLabel (normal value) = false)
    ⟨fun ⟨harrow, hlabel⟩ => ⟨harrow, hlabel⟩, fun h => ⟨h.arrow, h.label⟩⟩

theorem Fits.quotable (h : Fits value) : Quotable value := ⟨h.arrow, h.label⟩

theorem quotable_of_not_mentions (ha : mentions arrow value = false) (hb : '\x7b' ∉ value) :
    Quotable value := by
  refine ⟨?_, opensLabel_eq_false_of_not_mem fun hm => ?_⟩
  · cases hm : mentions arrow (normal value) with
    | false => rfl
    | true =>
      rw [arrow] at hm ha
      simp [mentions_of_mentions_normal (by decide) (by decide) hm] at ha
  · exact (mem_of_mem_normal hm).elim (by decide) hb

theorem fits_of_clean (h : CleanValue value) : Fits value := by
  obtain ⟨harrow, hlabel⟩ := quotable_of_not_mentions h.arrow h.brace
  exact ⟨harrow, hlabel, fun hm => (mem_of_mem_normal hm).elim (by decide) h.carriage⟩

theorem not_mem_writtenValue (hv : c ∉ normal value) (hc : c ∉ [':', '"', '\\']) :
    c ∉ writtenValue value := by
  intro hm
  simp only [writtenValue, List.mem_cons, List.mem_append, List.not_mem_nil, or_false,
    encode_eq] at hm hc
  rcases hm with hm | hm | hm | hm
  · exact hc (Or.inl hm)
  · exact hc (Or.inr (Or.inl hm))
  · rcases mem_of_mem_escape hm with hm | hm
    · exact hc (Or.inr (Or.inr hm))
    · exact hv hm
  · exact hc (Or.inr (Or.inl hm))

theorem breakFree_writtenValue (h : '\r' ∉ normal value) : BreakFree (writtenValue value) :=
  ⟨not_mem_writtenValue not_mem_normal (by decide), not_mem_writtenValue h (by decide)⟩

theorem mentions_arrow_encode (value : Text) :
    mentions arrow (encode value) = mentions arrow (normal value) := by
  rw [Bool.eq_iff_iff, encode_eq]
  exact mentions_escape (by decide) (by decide)

theorem mentions_arrow_writtenValue (h : mentions arrow (normal value) = false) :
    mentions arrow (writtenValue value) = false := by
  have hencode : mentions arrow (encode value) = false := (mentions_arrow_encode value).trans h
  have hstart : mentions arrow [':', '"'] = false := by decide
  have hmark : mentions arrow ['"'] = false := by decide
  have hend : mentions arrow (encode value ++ ['"']) = false :=
    mentions_arrow_append hencode hmark (Or.inr (by simp))
  have hwritten : mentions arrow ([':', '"'] ++ (encode value ++ ['"'])) = false :=
    mentions_arrow_append hstart hend (Or.inl (by simp))
  exact hwritten

theorem closed_encode : Closed (encode value ++ '"' :: rest) ↔
    opensLabel (normal value) = false ∧ Closed rest := by
  rw [closed_append_cons (by decide) (by decide) (by decide), encode_eq, opensLabel_escape]

theorem closed_writtenValue (h : opensLabel (normal value) = false) :
    Closed (writtenValue value) := by
  have hstart : Closed [':', '"'] := closed_of_not_mem (by decide)
  exact closed_append hstart (closed_encode.2 ⟨h, trivial⟩)

/-- A part that ends in a word, and holds no mark, ends before the value of a key or in the key. -/
theorem exists_of_append_between {left between more : Text} (hm : '"' ∉ head)
    (hw : ∃ c ∈ head.getLast?, isWord c = true) (hb : ∀ c ∈ between, isWord c = false)
    (h : head ++ rest = left ++ (between ++ '"' :: more)) : ∃ tail, left = head ++ tail := by
  rcases List.append_eq_append_iff.1 h with ⟨tail, hl, _⟩ | ⟨tail, hhead, hright⟩
  · exact ⟨tail, hl⟩
  · cases tail using List.reverseRecOn with
    | nil => exact ⟨[], by simpa using hhead.symm⟩
    | append_singleton tail c =>
      have hc : isWord c = true := by
        obtain ⟨d, hd, hword⟩ := hw
        rw [hhead, ← List.append_assoc, List.getLast?_concat, Option.mem_some_iff] at hd
        exact hd ▸ hword
      have hnot : c ∉ between := fun hmem => by simp [hb c hmem] at hc
      rcases List.append_eq_append_iff.1 hright with ⟨other, htail, hmark⟩ | ⟨other, hbetween, _⟩
      · cases other with
        | nil => exact absurd (by rw [List.append_nil] at htail; simp [← htail]) hnot
        | cons d other =>
          have hd : d = '"' := (List.cons.inj hmark).1.symm
          exact absurd (by rw [hhead, htail, hd]; simp) hm
      · exact absurd (by simp [hbetween]) hnot

theorem tail_of_append (h : Tail (head ++ rest))
    (hw : head ≠ [] → ∃ c ∈ head.getLast?, isWord c = true) : Tail head := by
  cases head with
  | nil => exact ⟨rfl, rfl, trivial⟩
  | cons c more =>
    refine ⟨by simpa using h.word, mentions_arrow_of_isInfix ?_ h.arrow,
      closed_of_append_left (hw (by simp)) h.closed⟩
    exact (List.prefix_append _ rest).isInfix

theorem mentions_arrow_written (hl : mentions arrow head = false)
    (hv : mentions arrow (normal value) = false) (hr : mentions arrow rest = false) :
    mentions arrow (head ++ (writtenValue value ++ rest)) = false := by
  have hend : (writtenValue value).getLast? ≠ some '-' := by
    simp [writtenValue, List.getLast?_append, List.getLast?_cons]
  exact mentions_arrow_append hl (mentions_arrow_append (mentions_arrow_writtenValue hv) hr (Or.inl hend))
    (Or.inr (by simp [writtenValue]))

/-- A written value can stand behind what ends in a word, and at the head itself. -/
theorem tail_writtenValue (hr : Tail rest) (hv : Quotable value) (harrow : mentions arrow text = false)
    (hclosed : Closed text) : Tail (rest ++ (writtenValue value ++ text)) := by
  refine ⟨?_, mentions_arrow_written hr.arrow hv.arrow harrow,
    closed_append hr.closed (closed_append (closed_writtenValue hv.label) hclosed)⟩
  cases rest with
  | nil => simp [writtenValue]; decide
  | cons c more => simpa using hr.word

theorem tail_name (hk : IsName key) : Tail (' ' :: key) := by
  have hnot : ∀ c, isBlank c = false → isWord c = false → c ∉ ' ' :: key := by
    intro c hb hw hm
    rcases List.mem_cons.1 hm with rfl | hm
    · exact absurd hb (by decide)
    · exact not_mem_name hk hw hm
  exact ⟨by simp; decide, mentions_arrow_of_not_mem (hnot _ (by decide) (by decide)),
    closed_of_not_mem (hnot _ (by decide) (by decide))⟩

theorem tail_append (hl : Tail head) (hr : Tail rest)
    (h : head.getLast? ≠ some '-' ∨ rest.head? ≠ some '>') : Tail (head ++ rest) := by
  refine ⟨?_, mentions_arrow_append hl.arrow hr.arrow h, closed_append hl.closed hr.closed⟩
  cases head with
  | nil => exact hr.word
  | cons c more => simpa using hl.word

theorem tail_renderAttribute (hk : IsName key) (hv : Quotable value) :
    Tail (' ' :: renderAttribute key value) := by
  have h : Tail (' ' :: key ++ (writtenValue value ++ [])) :=
    tail_writtenValue (tail_name hk) hv (by decide) trivial
  simpa [renderAttribute_eq] using h

/-- An attribute can be set in what stands behind a node's head. -/
theorem declares_setAttribute (h : Declares id shape line) (hk : IsName key) (hv : Quotable value) :
    Declares id shape (setAttribute line key value) := by
  obtain ⟨head, rest, rfl, hh, hr⟩ := h
  rcases setAttribute_cases (head ++ rest) key value with
    ⟨left, between, body, right, hline, hkey, hbetween, hset⟩ | hset
  · have hmark : '"' ∉ head := nodeHead_not_mem hh (by decide) (by decide) (by decide)
    rw [← List.append_assoc left] at hline
    obtain ⟨more, hmore⟩ :=
      exists_of_append_between hmark (nodeHead_isWord hh) hbetween hline
    have hrest : rest = more ++ (between ++ '"' :: (body ++ '"' :: right)) := by
      rw [hmore, List.append_assoc] at hline
      exact List.append_cancel_left hline
    have htail : Tail more := by
      refine tail_of_append (hrest ▸ hr) fun hne => ?_
      have hlast := congrArg List.getLast? hmore
      have hc := List.getLast?_eq_some_getLast hkey.1
      rw [List.getLast?_append_of_ne_nil _ hkey.1, List.getLast?_append_of_ne_nil _ hne] at hlast
      exact ⟨_, hlast ▸ hc, hkey.2 _ (List.getLast_mem hkey.1)⟩
    have hright : right <:+: rest := ⟨more ++ between ++ '"' :: body ++ ['"'], [], by simp [hrest]⟩
    refine ⟨head, more ++ (writtenValue value ++ right), ?_, hh, tail_writtenValue htail hv
      (mentions_arrow_of_isInfix hright hr.arrow) ?_⟩
    · rw [hset, ← List.append_assoc left, hmore, List.append_assoc]
    · have hclosed := hr.closed
      rw [hrest] at hclosed
      exact (closed_of_append (closed_of_append (closed_of_append hclosed)).2).2
  · obtain ⟨c, hc, hw⟩ := nodeHead_isWord hh
    refine ⟨head, trimRight rest ++ ' ' :: renderAttribute key value, ?_, hh, ?_⟩
    · rw [hset, trimRight_append ⟨c, hc, isBlank_of_isWord hw⟩, List.append_assoc,
        renderAttribute_eq]
    · exact tail_append (tail_trimRight hr) (tail_renderAttribute hk hv) (Or.inr (by simp))

theorem breakFree_append (hl : BreakFree head) (hr : BreakFree rest) : BreakFree (head ++ rest) :=
  ⟨fun hm => (List.mem_append.1 hm).elim hl.1 hr.1, fun hm => (List.mem_append.1 hm).elim hl.2 hr.2⟩

theorem breakFree_of_subset (hs : ∀ c ∈ head, c ∈ rest) (h : BreakFree rest) : BreakFree head :=
  ⟨fun hm => h.1 (hs _ hm), fun hm => h.2 (hs _ hm)⟩

theorem breakFree_name (hk : IsName key) : BreakFree key :=
  ⟨not_mem_name hk (by decide), not_mem_name hk (by decide)⟩

/-- A line with another value has the characters of the line, of the attribute, and blanks. -/
theorem not_mem_setAttribute (hl : c ∉ line) (hk : c ∉ key) (hv : c ∉ writtenValue value)
    (hb : c ≠ ' ') : c ∉ setAttribute line key value := by
  rcases setAttribute_cases line key value with
    ⟨left, between, body, right, rfl, _, _, hset⟩ | hset
  · rw [hset]
    simp only [List.mem_append, List.mem_cons, not_or] at hl ⊢
    exact ⟨hl.1, hk, hv, hl.2.2.2.2.2.2⟩
  · obtain ⟨right, hright, _⟩ := exists_trimRight line
    rw [hright, List.mem_append, not_or] at hl
    rw [hset]
    simp only [List.mem_append, List.mem_cons, not_or]
    exact ⟨hl.1, hb, hk, hv⟩

theorem breakFree_setAttribute (hl : BreakFree line) (hk : IsName key) (hv : '\r' ∉ normal value) :
    BreakFree (setAttribute line key value) := by
  have hkey := breakFree_name hk
  have hvalue := breakFree_writtenValue hv
  exact ⟨not_mem_setAttribute hl.1 hkey.1 hvalue.1 (by decide),
    not_mem_setAttribute hl.2 hkey.2 hvalue.2 (by decide)⟩

theorem setShape_append {margin gap : Text} (hm : ∀ c ∈ margin, isBlank c = true) (hid : IsName id)
    (hg : ∀ c ∈ gap, isBlank c = true) (hr : rest.head?.any isWord = false) :
    setShape (margin ++ (id ++ ':' :: (gap ++ shape.name)) ++ rest) other =
      margin ++ (id ++ ':' :: (gap ++ other.name)) ++ rest := by
  have hcolon : isWord ':' = false := by decide
  have hne : id.isEmpty = false := by simpa using hid.1
  have hdrop : (margin ++ (id ++ ':' :: (gap ++ (shape.name ++ rest)))).dropWhile isBlank =
      id ++ ':' :: (gap ++ (shape.name ++ rest)) :=
    (trimLeft_margin hm).trans (trimLeft_name hid)
  simp only [List.append_assoc, List.cons_append]
  rw [setShape, takeWhile_margin hm hid, hdrop, takeWhile_name hid hcolon, dropWhile_name hid hcolon]
  simp only [hne, Bool.false_eq_true, if_false, after?, if_true]
  rw [trimLeft_margin hg, trimLeft_name (isName_name shape), leadingShape?_name hr,
    takeWhile_margin hg (isName_name shape)]
  simp

theorem declares_setShape (h : Declares id shape line) : Declares id other (setShape line other) := by
  obtain ⟨head, rest, rfl, hh, hr⟩ := h
  cases hh with
  | intro hm hid hg =>
    rw [setShape_append hm hid hg hr.word]
    exact ⟨_, rest, rfl, .intro hm hid hg, hr⟩

/-- A line with another shape has the characters of the line and of the shape's name. -/
theorem not_mem_setShape (hl : c ∉ line) (hn : c ∉ other.name) : c ∉ setShape line other := by
  have hstart : line.takeWhile isBlank ++ line.dropWhile isBlank = line :=
    List.takeWhile_append_dropWhile
  have hid := List.takeWhile_append_dropWhile (p := isWord) (l := line.dropWhile isBlank)
  rw [setShape]
  split
  · exact hl
  · split
    · exact hl
    · next rest hrest =>
      have hgap := List.takeWhile_append_dropWhile (p := isBlank) (l := rest)
      split
      · next found after hshape =>
        have hfound : rest.dropWhile isBlank = found.name ++ after :=
          (eq_of_leadingShape? hshape).1
        rw [← hstart, ← hid, after?_eq_some hrest, ← hgap, hfound] at hl
        simp only [List.mem_append, not_or] at hl ⊢
        exact ⟨⟨⟨⟨⟨hl.1, hl.2.1⟩, hl.2.2.1⟩, hl.2.2.2.1⟩, hn⟩, hl.2.2.2.2.2⟩
      · exact hl

theorem breakFree_setShape (hl : BreakFree line) : BreakFree (setShape line other) := by
  have hname := breakFree_name (isName_name other)
  exact ⟨not_mem_setShape hl.1 hname.1, not_mem_setShape hl.2 hname.2⟩

/-- Attributes that a node's line can hold. -/
def FitsAll (attributes : List (Text × Text)) : Prop :=
  ∀ entry ∈ attributes, IsName entry.1 ∧ Fits entry.2

/-- A node's line declares the node after each of its updates. -/
theorem declares_updateLine {new : Text} (h : Declares id shape line) (hl : BreakFree line)
    (hk : IsName key) (hv : Fits value) (hu : updateLine line key value = .ok new) :
    (∃ other, Declares id other new) ∧ BreakFree new := by
  rw [updateLine] at hu
  split at hu
  · split at hu
    · cases hu
      exact ⟨⟨_, declares_setShape h⟩, breakFree_setShape hl⟩
    · cases hu
  · cases hu
    exact ⟨⟨_, declares_setAttribute h hk hv.quotable⟩, breakFree_setAttribute hl hk hv.carriage⟩

theorem declares_updateAll {new : Text} {updates : List (Text × Text)} (h : Declares id shape line)
    (hl : BreakFree line) (hfit : FitsAll updates) (hu : updateAll line updates = .ok new) :
    (∃ other, Declares id other new) ∧ BreakFree new := by
  induction updates generalizing line shape with
  | nil =>
    cases hu
    exact ⟨⟨_, h⟩, hl⟩
  | cons update rest ih =>
    obtain ⟨hk, hv⟩ := hfit update (by simp)
    cases hfirst : updateLine line update.1 update.2 with
    | error reason => simp [updateAll, hfirst, bind, Except.bind] at hu
    | ok first =>
      obtain ⟨⟨other, hother⟩, hbreak⟩ := declares_updateLine h hl hk hv hfirst
      refine ih hother hbreak (fun other hmem => hfit other (List.mem_cons_of_mem _ hmem)) ?_
      simpa [updateAll, hfirst, bind, Except.bind] using hu

theorem renderNode_eq (id : Text) (shape : Shape) (attributes : List (Text × Text)) :
    renderNode id shape attributes = indent ++ (id ++ ':' :: ([' '] ++ shape.name)) ++
      attributes.flatMap fun entry => ' ' :: renderAttribute entry.1 entry.2 := by
  rw [renderNode, join_cons, List.flatMap_map]
  simp

theorem isBlank_of_mem_indent : ∀ c ∈ indent, isBlank c = true := List.all_eq_true.1 (by decide)

theorem isBlank_of_mem_gap : ∀ c ∈ [' '], isBlank c = true := List.all_eq_true.1 (by decide)

theorem nodeHead_indent (hid : IsName id) :
    NodeHead id shape (indent ++ (id ++ ':' :: ([' '] ++ shape.name))) :=
  .intro isBlank_of_mem_indent hid isBlank_of_mem_gap

theorem tail_attributes {attributes : List (Text × Text)}
    (hq : ∀ entry ∈ attributes, IsName entry.1 ∧ Quotable entry.2) :
    Tail (attributes.flatMap fun entry => ' ' :: renderAttribute entry.1 entry.2) := by
  induction attributes with
  | nil => exact ⟨rfl, rfl, trivial⟩
  | cons entry rest ih =>
    obtain ⟨⟨hk, hv⟩, hrest⟩ := List.forall_mem_cons.1 hq
    refine tail_append (tail_renderAttribute hk hv) (ih hrest) (Or.inl ?_)
    simp [renderAttribute, List.getLast?_append, List.getLast?_cons]

theorem declares_renderNode {attributes : List (Text × Text)} (shape : Shape) (hid : IsName id)
    (hfit : FitsAll attributes) : Declares id shape (renderNode id shape attributes) :=
  ⟨_, _, renderNode_eq id shape attributes, nodeHead_indent hid,
    tail_attributes fun entry hentry => ⟨(hfit entry hentry).1, (hfit entry hentry).2.quotable⟩⟩

/-- A new node's line has the characters of its names and its values, blanks and a colon. -/
theorem not_mem_renderNode {attributes : List (Text × Text)} (hid : c ∉ id) (hn : c ∉ shape.name)
    (h : ∀ entry ∈ attributes, c ∉ entry.1 ∧ c ∉ writtenValue entry.2) (hb : c ≠ ' ')
    (hc : c ≠ ':') : c ∉ renderNode id shape attributes := by
  have hindent : c ∉ indent := by simpa [indent] using hb
  rw [renderNode_eq, List.mem_append, not_or]
  constructor
  · simp only [List.mem_append, List.mem_cons, List.not_mem_nil, not_or]
    exact ⟨hindent, hid, hc, ⟨hb, not_false⟩, hn⟩
  · intro hm
    obtain ⟨entry, hentry, hm⟩ := List.mem_flatMap.1 hm
    obtain ⟨hkey, hvalue⟩ := h entry hentry
    rw [renderAttribute_eq, List.mem_cons, List.mem_append] at hm
    rcases hm with hm | hm | hm
    · exact hb hm
    · exact hkey hm
    · exact hvalue hm

theorem lineFeed_not_mem_renderNode {attributes : List (Text × Text)} (shape : Shape) (hid : IsName id)
    (hk : ∀ entry ∈ attributes, IsName entry.1) : '\n' ∉ renderNode id shape attributes :=
  not_mem_renderNode (breakFree_name hid).1 (breakFree_name (isName_name shape)).1
    (fun entry hentry => ⟨(breakFree_name (hk entry hentry)).1,
      not_mem_writtenValue not_mem_normal (by decide)⟩) (by decide) (by decide)

/-- A node's line has no line break beside those that are left in the normal forms of its values. -/
theorem breakFree_renderNode {attributes : List (Text × Text)} (shape : Shape) (hid : IsName id)
    (h : ∀ entry ∈ attributes, IsName entry.1 ∧ '\r' ∉ normal entry.2) :
    BreakFree (renderNode id shape attributes) :=
  ⟨lineFeed_not_mem_renderNode shape hid fun entry hentry => (h entry hentry).1,
    not_mem_renderNode (breakFree_name hid).2 (breakFree_name (isName_name shape)).2
      (fun entry hentry => ⟨(breakFree_name (h entry hentry).1).2,
        not_mem_writtenValue (h entry hentry).2 (by decide)⟩) (by decide) (by decide)⟩

theorem isName_label : IsName "label".toList := by decide

/-- A new node's line reads back with the normal forms of its values. -/
theorem read_renderNode {attributes : List (Text × Text)} (shape : Shape) (hid : IsName id)
    (hq : ∀ entry ∈ attributes, IsName entry.1 ∧ Quotable entry.2) :
    read (renderNode id shape attributes) =
      .node id shape (.ofList (attributes.map fun entry => (entry.1, normal entry.2))) := by
  have hk : ∀ entry ∈ attributes, IsName entry.1 := fun entry hentry => (hq entry hentry).1
  have hbreak := lineFeed_not_mem_renderNode shape hid hk
  rw [renderNode_eq] at hbreak ⊢
  rw [read_append (nodeHead_indent hid) (tail_attributes hq) fun hm => hbreak (List.mem_append_right _ hm),
    readAttributes_trimLeft, readAttributes_trimRight, readAttributes_attributes hk]

/-- A line that declares a node has no value that can be taken for something else. -/
theorem quotable_of_declares (h : Declares id shape (head ++ (encode value ++ '"' :: rest))) :
    Quotable value := by
  obtain ⟨start, tail, hline, hstart, htail⟩ := h
  have harrow := mentions_arrow_append_nodeHead hstart htail.arrow
  have hclosed := closed_append_nodeHead hstart htail.closed
  rw [← hline] at harrow hclosed
  have hencode : mentions arrow (encode value) = false :=
    mentions_arrow_of_isInfix ⟨head, '"' :: rest, by simp⟩ harrow
  exact ⟨(mentions_arrow_encode value).symm.trans hencode, (closed_encode.1 (closed_of_append hclosed)).1⟩

theorem quotable_of_read_renderNode {attributes : List (Text × Text)} {other : Shape}
    {found : Attributes} (hid : IsName id) (hk : ∀ entry ∈ attributes, IsName entry.1)
    (h : read (renderNode id shape attributes) = .node key other found) :
    ∀ entry ∈ attributes, Quotable entry.2 := by
  intro entry hentry
  have hdeclares := declares_of_read (lineFeed_not_mem_renderNode shape hid hk) h
  obtain ⟨before, after, rfl⟩ := List.append_of_mem hentry
  have hcut : renderNode id shape (before ++ entry :: after) =
      (indent ++ (id ++ ':' :: ([' '] ++ shape.name)) ++
        (before.flatMap fun entry => ' ' :: renderAttribute entry.1 entry.2) ++
          ' ' :: (entry.1 ++ [':', '"'])) ++ (encode entry.2 ++ '"' ::
            after.flatMap fun entry => ' ' :: renderAttribute entry.1 entry.2) := by
    rw [renderNode_eq]
    simp [renderAttribute_eq, writtenValue]
  exact quotable_of_declares (hcut ▸ hdeclares)

end Swimlane
