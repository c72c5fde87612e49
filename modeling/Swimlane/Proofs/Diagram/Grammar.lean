import Swimlane.Proofs.Diagram.Comments

/-! The grammar of a line. Each kind of line has a shape of its own, and a line is read as the first kind
that it has the shape of. -/
namespace Swimlane.Line

open Text

variable {c : Char} {line text before rest name label id : Text} {shape : Shape} {kind : SkipKind}
  {written : Option Text}

/-- What lets a brace open a lane: only blanks stand behind it, up to the end or to a number sign. -/
def Vacant (rest : Text) : Prop := ∀ c ∈ rest.takeWhile (· ≠ '#'), isBlank c = true

-- Named, as a search may find a check of all characters instead.
instance : DecidablePred Vacant := fun rest => List.decidableBAll _ (rest.takeWhile (· ≠ '#'))

/-- What stands behind the first number sign. -/
def behindSign (rest : Text) : Text := (rest.dropWhile (· ≠ '#')).drop 1

/-- A brace that opens a lane; one in the first place opens none. -/
structure LaneBrace (line before rest : Text) : Prop where
  cut : line = before ++ '\x7b' :: rest
  inside : before ≠ []
  vacant : Vacant rest

structure FirstLaneBrace (line before rest : Text) : Prop extends LaneBrace line before rest where
  first : ∀ other more, LaneBrace line other more → before.length ≤ other.length

def LaneShape (line : Text) : Prop := ∃ before rest, LaneBrace line before rest

/-- An identifier, a colon, blanks and a shape that ends with its name; no arrow. -/
structure NodeShape (line id : Text) (shape : Shape) : Prop where
  arrow : ¬ arrow <:+: line
  head : ∃ gap rest, line = id ++ ':' :: (gap ++ (shape.name ++ rest)) ∧ IsName id ∧
    (∀ c ∈ gap, isBlank c = true) ∧ ∀ c ∈ rest.head?, isWord c = false

/-- Two names with a handle each, and an arrow between them, blanks around it apart. -/
def ArrowShape (line : Text) : Prop := ∃ source sourceHandle gap margin target targetHandle rest,
  line = writtenEnd source sourceHandle
    (gap ++ (arrow ++ (margin ++ writtenEnd target targetHandle rest))) ∧
  source ≠ [] ∧ IsHandle sourceHandle ∧ (∀ c ∈ gap, isBlank c = true) ∧
  (∀ c ∈ margin, isBlank c = true) ∧ target ≠ [] ∧ IsHandle targetHandle

def LoopShape (line : Text) : Prop := ∃ gap rest, line = "loop".toList ++ (gap ++ '[' :: rest) ∧
  ∀ c ∈ gap, isBlank c = true

/-- Why a line is passed over: it is a comment, else it begins as a loop, else it is not recognised. -/
inductive SkippedAs (line : Text) : SkipKind → Prop
  | comment (hc : line.head? = some '#') : SkippedAs line .comment
  | loop (hc : line.head? ≠ some '#') (hl : LoopShape line) : SkippedAs line .loop
  | unrecognized (hc : line.head? ≠ some '#') (hl : ¬ LoopShape line) : SkippedAs line .unrecognized

theorem laneLabel?_eq (hn : '\n' ∉ rest) :
    laneLabel? rest = if Vacant rest then some (trimLeft (behindSign rest)) else none := by
  induction rest with
  | nil => rfl
  | cons c more ih =>
    rw [List.mem_cons, not_or] at hn
    by_cases hc : c = '#'
    · subst hc
      have hmore : '\n' ∉ trimLeft more := fun hm => hn.2 (List.dropWhile_subset _ hm)
      have hsign : trimLeft ('#' :: more) = '#' :: more := trimLeft_eq_self (by simp; decide)
      simp [laneLabel?, hsign, hmore, Vacant, behindSign]
    · by_cases hb : isBlank c = true
      · have hlabel : laneLabel? (c :: more) = laneLabel? more := by
          rw [laneLabel?, trimLeft_blank hb, ← laneLabel?]
        have hvacant : Vacant (c :: more) ↔ Vacant more := by simp [Vacant, hc, hb]
        have hbehind : behindSign (c :: more) = behindSign more := by simp [behindSign, hc]
        simp only [hlabel, hvacant, hbehind, ih hn.2]
      · have hvacant : ¬ Vacant (c :: more) := by simp [Vacant, hc, hb]
        rw [if_neg hvacant]
        exact laneLabel?_eq_none ⟨c, by rw [trimLeft_eq_self (by simpa using hb)]; rfl, hc⟩

theorem laneOpenFrom?_cons (hn : '\n' ∉ before.reverse ++ c :: rest) :
    laneOpenFrom? before (c :: rest) = if c = '\x7b' ∧ before ≠ [] ∧ Vacant rest then
      some (trimRight before.reverse, trimLeft (behindSign rest))
    else laneOpenFrom? (c :: before) rest := by
  simp only [List.mem_append, List.mem_reverse, List.mem_cons, not_or] at hn
  have hname : '\n' ∉ before.dropWhile isBlank := fun hm => hn.1 (List.dropWhile_subset _ hm)
  rw [laneOpenFrom?, laneLabel?_eq hn.2.2]
  by_cases hvacant : Vacant rest
  · simp [hvacant, hname, trimRight]
  · simp [hvacant]

/-- Cuts of a line at two braces are the same if they are equally long. -/
theorem LaneBrace.unique {other more : Text} (h : LaneBrace line before rest)
    (ho : LaneBrace line other more) (hl : before.length = other.length) :
    before = other ∧ rest = more := by
  obtain ⟨hbefore, hrest⟩ := List.append_inj (h.cut.symm.trans ho.cut) hl
  exact ⟨hbefore, (List.cons.inj hrest).2⟩

theorem FirstLaneBrace.unique {other more : Text} (h : FirstLaneBrace line before rest)
    (ho : FirstLaneBrace line other more) : before = other ∧ rest = more :=
  h.toLaneBrace.unique ho.toLaneBrace
    (Nat.le_antisymm (h.first _ _ ho.toLaneBrace) (ho.first _ _ h.toLaneBrace))

theorem exists_firstLaneBrace (h : LaneBrace line before rest) :
    ∃ upper more, FirstLaneBrace line upper more := by
  induction hl : before.length using Nat.strong_induction_on generalizing before rest with
  | _ length ih =>
    by_cases hfirst : ∀ other more, LaneBrace line other more → before.length ≤ other.length
    · exact ⟨before, rest, h, hfirst⟩
    · simp only [not_forall, Nat.not_le] at hfirst
      obtain ⟨other, more, ho, hlt⟩ := hfirst
      exact ih other.length (hl ▸ hlt) ho rfl

/-- The search stops at the first brace that opens a lane, if none stands in what was passed. -/
theorem laneOpenFrom?_eq_some_iff (hn : '\n' ∉ before.reverse ++ text)
    (hb : ∀ other more, LaneBrace (before.reverse ++ text) other more → before.length ≤ other.length) :
    laneOpenFrom? before text = some (name, label) ↔ ∃ upper rest,
      FirstLaneBrace (before.reverse ++ text) upper rest ∧
        name = trimRight upper ∧ label = trimLeft (behindSign rest) := by
  induction text generalizing before with
  | nil =>
    refine iff_of_false (by simp [laneOpenFrom?]) ?_
    rintro ⟨upper, rest, hfirst, _⟩
    have hlength := congrArg List.length hfirst.cut
    have hle := hb _ _ hfirst.toLaneBrace
    simp at hlength
    omega
  | cons c rest ih =>
    rw [laneOpenFrom?_cons hn]
    split
    · next hopen =>
      obtain ⟨rfl, hne, hvacant⟩ := hopen
      have hfirst : FirstLaneBrace (before.reverse ++ '\x7b' :: rest) before.reverse rest :=
        ⟨⟨rfl, by simpa using hne, hvacant⟩, by simpa using hb⟩
      rw [Option.some.injEq, Prod.mk.injEq]
      constructor
      · rintro ⟨rfl, rfl⟩
        exact ⟨_, _, hfirst, rfl, rfl⟩
      · rintro ⟨upper, more, hother, rfl, rfl⟩
        obtain ⟨rfl, rfl⟩ := hfirst.unique hother
        exact ⟨rfl, rfl⟩
    · next hopen =>
      have hline : (c :: before).reverse ++ rest = before.reverse ++ c :: rest := by simp
      rw [← hline] at hn hb ⊢
      refine ih hn fun other more ho => ?_
      -- A brace here would have been taken.
      have hne : before.length ≠ other.length := by
        intro he
        have hcut := ho.cut
        rw [hline] at hcut
        obtain ⟨hbefore, hrest⟩ := List.append_inj hcut (by simpa using he)
        obtain ⟨rfl, rfl⟩ := List.cons.inj hrest
        exact hopen ⟨rfl, by simpa [← hbefore] using ho.inside, ho.vacant⟩
      have hle := hb _ _ ho
      rw [List.length_cons]
      omega

/-- The id of a lane stands before the first brace that opens one, its label behind the number sign. -/
theorem laneOpen?_trim_eq_some_iff (hn : '\n' ∉ line) :
    laneOpen? (trim line) = some (.laneOpen id written) ↔ ∃ before rest,
      FirstLaneBrace (trim line) before rest ∧ id = trim before ∧
        written = nonempty? (trim (behindSign rest)) := by
  have hbreak : '\n' ∉ trim line := fun hm => hn (mem_of_mem_trim hm)
  have hfrom : ∀ {name label : Text}, laneOpenFrom? [] (trim line) = some (name, label) ↔
      ∃ upper rest, FirstLaneBrace (trim line) upper rest ∧ name = trimRight upper ∧
        label = trimLeft (behindSign rest) :=
    laneOpenFrom?_eq_some_iff (by simpa using hbreak) (by simp)
  have hname : ∀ {before rest : Text}, LaneBrace (trim line) before rest →
      trimRight before = trim before := by
    intro before rest hbrace
    obtain ⟨c, more, rfl⟩ := List.exists_cons_of_ne_nil hbrace.inside
    rw [trim, trimLeft_eq_self]
    intro d hd
    exact (trimmed_trim line).1 d (by rw [hbrace.cut]; exact hd)
  have hlabel : ∀ text : Text, trim (trimLeft text) = trim text := by
    intro text
    rw [trim, trim, trimLeft_eq_self head?_trimLeft]
  rw [laneOpen?, Option.map_eq_some_iff]
  constructor
  · rintro ⟨⟨name, label⟩, hopen, hline⟩
    obtain ⟨before, rest, hfirst, rfl, rfl⟩ := hfrom.1 hopen
    rw [laneOpen.injEq] at hline
    refine ⟨before, rest, hfirst, ?_, ?_⟩
    · rw [← hline.1, hname hfirst.toLaneBrace]
    · rw [← hline.2, hlabel]
  · rintro ⟨before, rest, hfirst, rfl, rfl⟩
    refine ⟨_, hfrom.2 ⟨before, rest, hfirst, rfl, rfl⟩, ?_⟩
    dsimp only
    rw [hname hfirst.toLaneBrace, hlabel]

theorem laneOpen?_trim_eq_none_iff (hn : '\n' ∉ line) :
    laneOpen? (trim line) = none ↔ ¬ LaneShape (trim line) := by
  constructor
  · rintro hnone ⟨before, rest, hbrace⟩
    obtain ⟨upper, more, hfirst⟩ := exists_firstLaneBrace hbrace
    have hsome := (laneOpen?_trim_eq_some_iff hn).2 ⟨upper, more, hfirst, rfl, rfl⟩
    simp [hnone] at hsome
  · intro hshape
    cases hopen : laneOpen? (trim line) with
    | none => rfl
    | some opened =>
      obtain ⟨⟨name, label⟩, _, rfl⟩ := Option.map_eq_some_iff.1 hopen
      obtain ⟨before, rest, hfirst, _⟩ := (laneOpen?_trim_eq_some_iff hn).1 hopen
      exact absurd ⟨before, rest, hfirst.toLaneBrace⟩ hshape

theorem node?_eq_some_iff_shape (hn : '\n' ∉ text) :
    (∃ attributes, node? text = some (.node id shape attributes)) ↔ NodeShape text id shape := by
  have hword : ∀ {rest : Text}, rest.head?.any isWord = false ↔ ∀ c ∈ rest.head?, isWord c = false := by
    intro rest
    cases rest <;> simp
  constructor
  · rintro ⟨attributes, hnode⟩
    obtain ⟨harrow, name, other, rest, hhead, _, heq⟩ := node?_eq_some_iff.1 hnode
    cases heq
    obtain ⟨gap, htext, hid, hgap, hrest⟩ := nodeHead?_eq_some_iff.1 hhead
    refine ⟨fun hm => ?_, gap, rest, htext, hid, hgap, hword.1 hrest⟩
    simp [mentions_iff.2 hm] at harrow
  · rintro ⟨harrow, gap, rest, htext, hid, hgap, hrest⟩
    have hmentions : mentions arrow text = false := by
      rw [← Bool.not_eq_true]
      exact fun hm => harrow (mentions_iff.1 hm)
    have hbreak : '\n' ∉ trimLeft rest := by
      intro hm
      rw [htext] at hn
      simp [List.dropWhile_subset _ hm] at hn
    exact ⟨_, node?_eq_some_iff.2 ⟨hmentions, id, shape, rest,
      nodeHead?_eq_some_iff.2 ⟨gap, htext, hid, hgap, hword.2 hrest⟩, hbreak, rfl⟩⟩

theorem node?_eq_none_iff_shape (hn : '\n' ∉ text) :
    node? text = none ↔ ∀ id shape, ¬ NodeShape text id shape := by
  constructor
  · intro hnone id shape hshape
    obtain ⟨attributes, hnode⟩ := (node?_eq_some_iff_shape hn).2 hshape
    simp [hnone] at hnode
  · intro hshape
    cases hnode : node? text with
    | none => rfl
    | some declared =>
      obtain ⟨id, shape, attributes, rfl⟩ := exists_of_node? hnode
      exact absurd ((node?_eq_some_iff_shape hn).1 ⟨attributes, hnode⟩) (hshape id shape)

/-- Blanks behind the arrow count to the second name. -/
theorem edgeShape_iff : EdgeShape text ↔ ArrowShape text := by
  constructor
  · rintro ⟨gap, behind, rest, hgap, hfirst, hsecond⟩
    cases hfirst with
    | intro hsource hsourceHandle =>
      cases hsecond with
      | intro htarget htargetHandle =>
        exact ⟨_, _, gap, [], _, _, rest, rfl, hsource, hsourceHandle, hgap, by simp, htarget,
          htargetHandle⟩
  · rintro ⟨source, sourceHandle, gap, margin, target, targetHandle, rest, rfl, hsource, hsourceHandle,
      hgap, _, htarget, htargetHandle⟩
    exact ⟨gap, _, rest, hgap, .intro hsource hsourceHandle,
      namedHandle_append margin (.intro htarget htargetHandle)⟩

theorem isLoop_iff : isLoop text = true ↔ LoopShape text := by
  constructor
  · intro h
    rw [isLoop] at h
    split at h
    · next rest hrest =>
      obtain ⟨gap, hgap, hblank⟩ := exists_trimLeft rest
      obtain ⟨more, hmore⟩ := List.head?_eq_some_iff.1 (of_decide_eq_true h)
      refine ⟨gap, more, ?_, hblank⟩
      rw [after?_eq_some hrest, ← hmore, ← hgap]
    · simp at h
  · rintro ⟨gap, rest, rfl, hgap⟩
    have hbracket : trimLeft ('[' :: rest) = '[' :: rest := trimLeft_eq_self (by simp; decide)
    rw [isLoop, after?_append]
    simp [trimLeft_margin hgap, hbracket]

theorem skippedAs_iff : SkippedAs text kind ↔ kind = skipKind text := by
  rw [skipKind]
  constructor
  · intro h
    cases h with
    | comment hc => simp [hc]
    | loop hc hl => simp [hc, isLoop_iff.2 hl]
    | unrecognized hc hl => simp [hc, isLoop_iff, hl]
  · rintro rfl
    split
    · next hc => exact .comment hc
    · next hc =>
      split
      · next hl => exact .loop hc (isLoop_iff.1 hl)
      · next hl => exact .unrecognized hc fun hloop => hl (isLoop_iff.2 hloop)

theorem read_eq_laneOpen_iff :
    read line = .laneOpen id written ↔ laneOpen? (trim line) = some (.laneOpen id written) := by
  have hfit := firstFit_read line
  generalize read line = declared at hfit ⊢
  cases hfit <;> simp_all

theorem read_eq_laneClose_iff :
    read line = .laneClose ↔ laneOpen? (trim line) = none ∧ trim line = ['\x7d'] := by
  have hfit := firstFit_read line
  generalize read line = declared at hfit ⊢
  cases hfit <;> simp_all

theorem read_isLaneOpen_iff :
    (∃ id label, read line = .laneOpen id label) ↔ laneOpen? (trim line) ≠ none := by
  have hfit := firstFit_read line
  generalize read line = declared at hfit ⊢
  cases hfit <;> simp_all

theorem read_isNode_iff : (∃ attributes, read line = .node id shape attributes) ↔
    laneOpen? (trim line) = none ∧ trim line ≠ ['\x7d'] ∧
      ∃ attributes, node? (trim line) = some (.node id shape attributes) := by
  have hfit := firstFit_read line
  generalize read line = declared at hfit ⊢
  cases hfit <;> simp_all

theorem read_isEdge_iff :
    (∃ source target sourceHandle targetHandle label,
      read line = .edge source target sourceHandle targetHandle label) ↔
    laneOpen? (trim line) = none ∧ trim line ≠ ['\x7d'] ∧ node? (trim line) = none ∧
      (edge? (trim line)).isSome := by
  have hfit := firstFit_read line
  generalize read line = declared at hfit ⊢
  cases hfit <;> simp_all

theorem read_eq_skipped_iff : read line = .skipped text kind ↔
    text = trim line ∧ laneOpen? (trim line) = none ∧ trim line ≠ ['\x7d'] ∧
      node? (trim line) = none ∧ edge? (trim line) = none ∧ kind = skipKind (trim line) := by
  have hfit := firstFit_read line
  generalize read line = declared at hfit ⊢
  cases hfit <;> simp_all [@eq_comm _ text, @eq_comm _ kind]

/-- A line is read as the first kind that it has the shape of: a lane's opening, with the text before the
first brace that can open one and the label behind the number sign, then a closing brace, a node, an edge;
any other line is passed over, as a comment, as a loop, or as one that is not recognised. -/
theorem read_iff_grammar (hn : '\n' ∉ line) :
    (∀ id label, read line = .laneOpen id label ↔ ∃ before rest,
      FirstLaneBrace (trim line) before rest ∧ id = trim before ∧
        label = nonempty? (trim (behindSign rest))) ∧
    ((∃ id label, read line = .laneOpen id label) ↔ LaneShape (trim line)) ∧
    (read line = .laneClose ↔ ¬ LaneShape (trim line) ∧ trim line = ['\x7d']) ∧
    (∀ id shape, (∃ attributes, read line = .node id shape attributes) ↔
      ¬ LaneShape (trim line) ∧ trim line ≠ ['\x7d'] ∧ NodeShape (trim line) id shape) ∧
    ((∃ source target sourceHandle targetHandle label,
        read line = .edge source target sourceHandle targetHandle label) ↔
      ¬ LaneShape (trim line) ∧ trim line ≠ ['\x7d'] ∧
        (∀ id shape, ¬ NodeShape (trim line) id shape) ∧ ArrowShape (trim line)) ∧
    (∀ text kind, read line = .skipped text kind ↔
      text = trim line ∧ ¬ LaneShape (trim line) ∧ trim line ≠ ['\x7d'] ∧
        (∀ id shape, ¬ NodeShape (trim line) id shape) ∧ ¬ ArrowShape (trim line) ∧
        SkippedAs (trim line) kind) := by
  have hbreak : '\n' ∉ trim line := fun hm => hn (mem_of_mem_trim hm)
  have hlane := laneOpen?_trim_eq_none_iff hn
  have hnode := node?_eq_none_iff_shape hbreak
  have hedge : (edge? (trim line)).isSome ↔ ArrowShape (trim line) :=
    (edge?_isSome_iff hbreak).trans edgeShape_iff
  refine ⟨fun id label => ?_, ?_, ?_, fun id shape => ?_, ?_, fun text kind => ?_⟩
  · rw [read_eq_laneOpen_iff, laneOpen?_trim_eq_some_iff hn]
  · rw [read_isLaneOpen_iff, ne_eq, hlane, not_not]
  · rw [read_eq_laneClose_iff, hlane]
  · rw [read_isNode_iff, hlane, node?_eq_some_iff_shape hbreak]
  · rw [read_isEdge_iff, hlane, hnode, hedge]
  · rw [read_eq_skipped_iff, hlane, hnode, skippedAs_iff, ← hedge, Option.not_isSome_iff_eq_none]

/-- Of several braces the first that can open a lane does so, and the label begins behind the first number
sign after it. -/
theorem read_iff_grammar_braces : '\n' ∉ " a \x7b b \x7b # x \x7b # y ".toList ∧ ∃ before rest,
    FirstLaneBrace (trim " a \x7b b \x7b # x \x7b # y ".toList) before rest ∧
      "a \x7b b".toList = trim before ∧ some "x \x7b # y".toList = nonempty? (trim (behindSign rest)) :=
  have hn : '\n' ∉ " a \x7b b \x7b # x \x7b # y ".toList := by decide
  ⟨hn, ((read_iff_grammar hn).1 _ _).1 rfl⟩

end Swimlane.Line
