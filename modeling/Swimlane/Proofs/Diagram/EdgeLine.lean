import Swimlane.Proofs.Diagram.NodeUpdate

/-! Lines that draw an edge: how they are written and read, and how one is found to be removed. -/
namespace Swimlane.Line

open Text Escaped Patch

variable {c : Char} {text name rest source target sourceHandle targetHandle handle : Text}
  {blanks mark : Text} {label : Option Text}

/-- What a handle begins with. -/
def handleStart : Text := ".handle("

/-- What can stand between the parentheses of a handle. -/
def IsHandle (handle : Text) : Prop := handle ≠ [] ∧ ')' ∉ handle

/-- What a label in brackets begins with. -/
def labelStart : Text := "[label"

/-- A label in brackets as it stands behind an edge. -/
def writtenLabel : Option Text → Text
  | some label => ' ' :: (labelStart ++ '=' :: '"' :: (encode label ++ ['"', ']']))
  | none => []

/-- What may stand before a node's name: nothing, or the name of a lane and a point. -/
inductive LaneMark : Text → Prop
  | none : LaneMark []
  | lane {lane : Text} (h : IsName lane) : LaneMark (lane ++ ['.'])

/-- What is written of an edge behind its arrow. -/
def edgeRest (target handle : Text) (label : Option Text) : Text :=
  ' ' :: (target ++ (handleStart ++ (handle ++ ')' :: writtenLabel label)))

theorem renderEndPoint_eq (name handle : Text) :
    renderEndPoint name handle = name ++ (handleStart ++ (handle ++ [')'])) := by
  have h : renderEndPoint name handle = name ++ handleStart ++ handle ++ [')'] := rfl
  rw [h, List.append_assoc, List.append_assoc]

theorem renderEdge_eq (source sourceHandle target targetHandle : Text) (label : Option Text) :
    renderEdge source sourceHandle target targetHandle label = indent ++ (source ++
      (handleStart ++ (sourceHandle ++ ')' :: ' ' ::
        (arrow ++ edgeRest target targetHandle label)))) := by
  have hlabel : renderEdge source sourceHandle target targetHandle label =
      indent ++ renderEndPoint source sourceHandle ++ (' ' :: (arrow ++ [' '])) ++
        renderEndPoint target targetHandle ++ writtenLabel label := by
    cases label with
    | none => exact (List.append_nil _).symm
    | some label =>
      have hsome : renderEdge source sourceHandle target targetHandle (some label) =
          indent ++ renderEndPoint source sourceHandle ++ (' ' :: (arrow ++ [' '])) ++
            renderEndPoint target targetHandle ++ (' ' :: (labelStart ++ ['=', '"'])) ++
            encode label ++ ['"', ']'] := rfl
      rw [hsome, writtenLabel]
      simp only [List.append_assoc, List.cons_append, List.nil_append]
  rw [hlabel, renderEndPoint_eq, renderEndPoint_eq, edgeRest]
  simp only [List.append_assoc, List.cons_append, List.nil_append]

theorem handle?_eq_none (h : ∀ rest, text ≠ handleStart ++ rest) : handle? text = none := by
  rw [handle?, Option.bind_eq_none_iff]
  intro rest hrest
  exact absurd (after?_eq_some hrest) (h rest)

theorem isHandle_of_isName (hh : IsName handle) : IsHandle handle :=
  ⟨hh.1, fun hm => absurd (hh.2 ')' hm) (by decide)⟩

theorem handle?_eq_some_iff : handle? text = some (handle, rest) ↔
    text = handleStart ++ (handle ++ ')' :: rest) ∧ IsHandle handle := by
  constructor
  · intro h
    obtain ⟨more, hmore, hhandle⟩ := Option.bind_eq_some_iff.1 h
    have hcut := List.takeWhile_append_dropWhile (p := (· ≠ ')')) (l := more)
    dsimp only at hhandle
    split at hhandle
    · simp at hhandle
    · next mark after hafter =>
      split at hhandle
      · simp at hhandle
      · next hne =>
        cases hhandle
        obtain rfl : mark = ')' := by
          have hhead := List.head?_dropWhile_not (· ≠ ')') more
          rw [hafter, List.head?_cons] at hhead
          simpa using hhead
        refine ⟨?_, by simpa using hne, fun hm => ?_⟩
        · rw [after?_eq_some hmore, ← hafter, hcut]
          rfl
        · simpa using List.all_eq_true.1 List.all_takeWhile _ hm
  · rintro ⟨rfl, hne, hfree⟩
    have hword : ∀ c ∈ handle, (c ≠ ')') := fun c hc he => hfree (he ▸ hc)
    have htake : (handle ++ ')' :: rest).takeWhile (· ≠ ')') = handle := by
      rw [List.takeWhile_append_of_pos (by simpa using hword), List.takeWhile_cons_of_neg (by simp),
        List.append_nil]
    have hdrop : (handle ++ ')' :: rest).dropWhile (· ≠ ')') = ')' :: rest := by
      rw [List.dropWhile_append_of_pos (by simpa using hword), List.dropWhile_cons_of_neg (by simp)]
    have hafter : after? ".handle(" (handleStart ++ (handle ++ ')' :: rest)) =
        some (handle ++ ')' :: rest) := after?_append handleStart _
    rw [handle?, hafter, Option.bind_some]
    simp only [htake, hdrop]
    simp [hne]

theorem handle?_append (hh : IsHandle handle) :
    handle? (handleStart ++ (handle ++ ')' :: rest)) = some (handle, rest) :=
  handle?_eq_some_iff.2 ⟨rfl, hh⟩

/-- No handle begins inside a name that mentions none. -/
theorem handle?_suffix (hm : mentions handleStart name = false) (hs : text <:+ name) (hne : text ≠ []) :
    handle? (text ++ '.' :: rest) = none := by
  have hpart : ∀ more, text ≠ handleStart ++ more := by
    intro more he
    have hmentions : mentions handleStart name = true := by
      apply mentions_iff.2
      exact (List.prefix_append _ more).isInfix.trans (he ▸ hs.isInfix)
    simp [hmentions] at hm
  apply handle?_eq_none
  intro more he
  rcases List.append_eq_append_iff.1 he with ⟨tail, htext, htail⟩ | ⟨tail, htext, _⟩
  · cases tail with
    | nil => exact hpart [] (by simpa using htext.symm)
    | cons d tail =>
      obtain ⟨first, others, rfl⟩ := List.exists_cons_of_ne_nil hne
      have hd : d = '.' := (List.cons.inj htail).1.symm
      have hothers : "handle(".toList = others ++ d :: tail := (List.cons.inj htext).2
      exact absurd (show '.' ∈ "handle(".toList by rw [hothers, hd]; simp) (by decide)
  · exact hpart tail htext

theorem endPointFrom?_append {α : Type} {lead : EndPoint → Option α} {before : Text}
    (hn : '\n' ∉ name) (hm : mentions handleStart name = false) :
    endPointFrom? lead before (name ++ '.' :: rest) =
      endPointFrom? lead (name.reverse ++ before) ('.' :: rest) := by
  suffices h : ∀ right before, right <:+ name → endPointFrom? lead before (right ++ '.' :: rest) =
      endPointFrom? lead (right.reverse ++ before) ('.' :: rest) from h name before List.suffix_rfl
  intro right
  induction right with
  | nil => simp
  | cons c more ih =>
    intro before hs
    have hc : c ≠ '\n' := fun he => hn (hs.subset (he ▸ List.mem_cons_self))
    have hnone : (if before.isEmpty = true then none else handle? (c :: (more ++ '.' :: rest))) =
        none := by
      split
      · rfl
      · exact handle?_suffix hm hs (by simp)
    rw [List.cons_append, endPointFrom?]
    simp only [hnone, Option.bind_none, if_neg hc]
    rw [ih (c :: before) ((List.suffix_cons c more).trans hs)]
    simp

/-- The end of an edge is read where its handle is written. -/
theorem endPointFrom?_handle {α : Type} {lead : EndPoint → Option α} {found : α}
    (hn : '\n' ∉ name) (hm : mentions handleStart name = false) (hne : name ≠ [])
    (hh : IsHandle handle) (hl : lead ⟨name, handle, rest⟩ = some found) :
    endPointFrom? lead [] (name ++ (handleStart ++ (handle ++ ')' :: rest))) = some found := by
  have hdot : handleStart ++ (handle ++ ')' :: rest) =
      '.' :: ("handle(".toList ++ (handle ++ ')' :: rest)) := rfl
  rw [hdot, endPointFrom?_append hn hm, endPointFrom?, ← hdot, handle?_append hh]
  simp [hne, hl]

theorem endPointFrom?_isSome (before rest : Text) (hn : '\n' ∉ name) (hh : IsHandle handle)
    (hne : before ≠ [] ∨ name ≠ []) :
    (endPointFrom? some before (name ++ (handleStart ++ (handle ++ ')' :: rest)))).isSome := by
  induction name generalizing before with
  | nil =>
    have hbefore : before ≠ [] := hne.resolve_right (by simp)
    have hdot : handleStart ++ (handle ++ ')' :: rest) =
        '.' :: ("handle(".toList ++ (handle ++ ')' :: rest)) := rfl
    rw [List.nil_append, hdot, endPointFrom?, ← hdot, handle?_append hh]
    simp [hbefore]
  | cons c more ih =>
    have hc : c ≠ '\n' := fun he => hn (he ▸ List.mem_cons_self)
    rw [List.cons_append, endPointFrom?]
    split
    · rfl
    · rw [if_neg hc]
      exact ih _ (fun hmem => hn (List.mem_cons_of_mem c hmem)) (Or.inl (by simp))

/-- The end that an arrow points to is read up to its handle. -/
theorem target?_edgeRest (hn : '\n' ∉ target) (hm : mentions handleStart target = false)
    (hb : ∃ c ∈ target, isBlank c = false) (hh : IsName handle) :
    target? (edgeRest target handle label) = some ⟨trimLeft target, handle, writtenLabel label⟩ := by
  have hne : trimLeft target ≠ [] := by
    obtain ⟨c, hc, hblank⟩ := hb
    intro hnil
    simp [trimLeft_eq_nil_iff.1 hnil c hc] at hblank
  have hsuffix : trimLeft target <:+ target := List.dropWhile_suffix _
  have hmentions : mentions handleStart (trimLeft target) = false := by
    cases h : mentions handleStart (trimLeft target) with
    | false => rfl
    | true => exact absurd (hm.symm.trans (mentions_of_isInfix hsuffix.isInfix h)) (by simp)
  rw [target?, edgeRest, trimLeft_blank (by decide), trimLeft_append hne]
  rw [endPointFrom?_handle (fun hmem => hn (hsuffix.subset hmem)) hmentions hne
    (isHandle_of_isName hh) rfl]

theorem target?_isSome (label : Option Text) (hn : '\n' ∉ target) (hb : ∃ c ∈ target, isBlank c = false)
    (hh : IsName handle) : (target? (edgeRest target handle label)).isSome := by
  have hne : trimLeft target ≠ [] := by
    obtain ⟨c, hc, hblank⟩ := hb
    intro hnil
    simp [trimLeft_eq_nil_iff.1 hnil c hc] at hblank
  have hbreak : '\n' ∉ trimLeft target := fun hmem => hn (List.dropWhile_subset isBlank hmem)
  obtain ⟨point, hpoint⟩ := Option.isSome_iff_exists.1
    (endPointFrom?_isSome [] (writtenLabel label) hbreak (isHandle_of_isName hh) (Or.inr hne))
  rw [target?, edgeRest, trimLeft_blank (by decide), trimLeft_append hne, hpoint]
  rfl

theorem edgeLabel?_writtenLabel : edgeLabel? (writtenLabel label) = label.map encode := by
  cases label with
  | none => rfl
  | some label =>
    have htrim : trimLeft (writtenLabel (some label)) =
        labelStart ++ '=' :: '"' :: (encode label ++ ['"', ']']) := by
      rw [writtenLabel, trimLeft_blank (by decide)]
      rfl
    have hafter : after? "[label" (trimLeft (writtenLabel (some label))) =
        some ('=' :: '"' :: (encode label ++ ['"', ']'])) := by
      rw [htrim]
      exact after?_append labelStart _
    have hvalue : valueAfter? ('=' :: '"' :: (encode label ++ ['"', ']'])) =
        some (['=', '"'], encode label, [']']) := by
      have hb : isBlank '=' = false := by decide
      have hm : isBlank '"' = false := by decide
      simp [valueAfter?, hb, hm, body?_encode]
    rw [edgeLabel?, hafter, Option.bind_some, hvalue]
    rfl

/-- The written edge without its indent is trimmed. -/
theorem trim_renderEdge (hs : IsName source) :
    trim (renderEdge source sourceHandle target targetHandle label) = source ++
      (handleStart ++ (sourceHandle ++ ')' :: ' ' ::
        (arrow ++ edgeRest target targetHandle label))) := by
  rw [renderEdge_eq, ← List.append_nil (indent ++ _)]
  refine trim_margins isBlank_of_mem_indent (by simp) ⟨fun c hc => ?_, fun c hc => ?_⟩
  · rw [List.head?_append_of_ne_nil _ hs.1] at hc
    exact isBlank_of_isWord (hs.2 c (List.mem_of_mem_head? hc))
  · have hlast : c = ')' ∨ c = ']' := by
      cases label with
      | none =>
        left
        simpa [edgeRest, writtenLabel, List.getLast?_append, List.getLast?_cons, eq_comm] using hc
      | some label =>
        right
        simpa [edgeRest, writtenLabel, List.getLast?_append, List.getLast?_cons, eq_comm] using hc
    rcases hlast with rfl | rfl <;> decide

theorem mem_writtenLabel (h : c ∈ writtenLabel label) :
    (∃ text ∈ label, c ∈ normal text) ∨ c ∈ " [label=\"]\\".toList := by
  cases label with
  | none => simp [writtenLabel] at h
  | some label =>
    have hstart : c ∈ labelStart → c ∈ " [label=\"]\\".toList :=
      fun hm => (show labelStart ⊆ " [label=\"]\\".toList by decide) hm
    have hencode : c ∈ encode label → c = '\\' ∨ c ∈ normal label := by
      rw [encode_eq]
      exact mem_of_mem_escape
    simp only [writtenLabel, List.mem_cons, List.mem_append, List.not_mem_nil, or_false] at h
    simp only [Option.mem_def, Option.some.injEq, exists_eq_left']
    rcases h with rfl | h | rfl | rfl | h | rfl | rfl
    · exact Or.inr (by decide)
    · exact Or.inr (hstart h)
    · exact Or.inr (by decide)
    · exact Or.inr (by decide)
    · rcases hencode h with rfl | h
      · exact Or.inr (by decide)
      · exact Or.inl h
    · exact Or.inr (by decide)
    · exact Or.inr (by decide)

/-- An edge's line has the characters of its names and its label, and those of its signs. -/
theorem not_mem_renderEdge (hs : c ∉ source) (hsh : c ∉ sourceHandle) (ht : c ∉ target)
    (hth : c ∉ targetHandle) (hl : c ∉ writtenLabel label) (hc : c ∉ " .handle()->".toList) :
    c ∉ renderEdge source sourceHandle target targetHandle label := by
  have hsign : ∀ {signs : Text}, signs ⊆ " .handle()->".toList → c ∉ signs := fun hsub hm => hc (hsub hm)
  have hindent : c ∉ indent := hsign (by decide)
  have hhandle : c ∉ handleStart := hsign (by decide)
  have harrow : c ∉ ')' :: ' ' :: arrow := hsign (by decide)
  simp only [List.mem_cons, not_or] at harrow
  rw [renderEdge_eq, edgeRest]
  simp only [List.mem_append, List.mem_cons, not_or]
  exact ⟨hindent, hs, hhandle, hsh, harrow.1, harrow.2.1, harrow.2.2, harrow.2.1, ht, hhandle, hth,
    harrow.1, hl⟩

theorem lineFeed_not_mem_writtenLabel : '\n' ∉ writtenLabel label := by
  intro hm
  rcases mem_writtenLabel hm with ⟨text, _, hm⟩ | hm
  · exact not_mem_normal hm
  · exact absurd hm (by decide)

theorem lineFeed_not_mem_renderEdge (hs : IsName source) (hsh : IsName sourceHandle)
    (hth : IsName targetHandle) (ht : '\n' ∉ target) :
    '\n' ∉ renderEdge source sourceHandle target targetHandle label :=
  not_mem_renderEdge (breakFree_name hs).1 (breakFree_name hsh).1 ht (breakFree_name hth).1
    lineFeed_not_mem_writtenLabel (by decide)

theorem breakFree_renderEdge (hs : IsName source) (hsh : IsName sourceHandle)
    (hth : IsName targetHandle) (ht : BreakFree target)
    (hl : ∀ text ∈ label, '\r' ∉ normal text) :
    BreakFree (renderEdge source sourceHandle target targetHandle label) := by
  have hlabel : '\r' ∉ writtenLabel label := by
    intro hm
    rcases mem_writtenLabel hm with ⟨text, htext, hm⟩ | hm
    · exact hl text htext hm
    · exact absurd hm (by decide)
  exact ⟨lineFeed_not_mem_renderEdge hs hsh hth ht.1, not_mem_renderEdge (breakFree_name hs).2
    (breakFree_name hsh).2 ht.2 (breakFree_name hth).2 hlabel (by decide)⟩

theorem closed_edgeRest (hth : IsName targetHandle) : Closed (edgeRest target targetHandle label) ↔
    opensLabel target = false ∧ ∀ text ∈ label, opensLabel (normal text) = false := by
  have hdot : edgeRest target targetHandle label = ' ' :: (target ++ '.' ::
      (handleStart.tail ++ (targetHandle ++ ')' :: writtenLabel label))) := rfl
  have hname : '\x7b' ∉ targetHandle := not_mem_name hth (by decide)
  have hlabel : Closed (')' :: writtenLabel label) ↔
      ∀ text ∈ label, opensLabel (normal text) = false := by
    cases label with
    | none => simp [writtenLabel, Closed]
    | some label =>
      have hend : Closed [']'] := closed_of_not_mem (by decide)
      have hstart : ')' :: writtenLabel (some label) = (')' :: ' ' :: (labelStart ++ ['=', '"'])) ++
          (encode label ++ '"' :: [']']) := by
        simp [writtenLabel]
      rw [hstart, closed_append_iff (by decide), closed_encode]
      simp [hend]
  rw [hdot, ← List.singleton_append, closed_append_iff (by decide),
    closed_append_cons (by decide) (by decide) (by decide), closed_append_iff (by decide),
    closed_append_iff hname, hlabel]

/-- An edge's line opens a lane only through its target or its label. -/
theorem laneOpen?_renderEdge (hs : IsName source) (hsh : IsName sourceHandle)
    (hth : IsName targetHandle)
    (hb : '\n' ∉ renderEdge source sourceHandle target targetHandle label) :
    laneOpen? (trim (renderEdge source sourceHandle target targetHandle label)) = none ↔
      opensLabel target = false ∧ ∀ text ∈ label, opensLabel (normal text) = false := by
  have hn : '\n' ∉ trim (renderEdge source sourceHandle target targetHandle label) :=
    fun hm => hb (mem_of_mem_trim hm)
  have hbrace : ∀ {name : Text}, (∀ c ∈ name, isWord c = true) → '\x7b' ∉ name :=
    fun hword hm => absurd (hword _ hm) (by decide)
  obtain ⟨c, more, rfl⟩ := List.exists_cons_of_ne_nil hs.1
  have hmore := hbrace fun d hd => hs.2 d (List.mem_cons_of_mem c hd)
  have harrow : ')' :: ' ' :: (arrow ++ edgeRest target targetHandle label) =
      [')', ' ', '-', '>'] ++ edgeRest target targetHandle label := rfl
  rw [trim_renderEdge hs, List.cons_append] at hn ⊢
  rw [laneOpen?_eq_none_iff hn, harrow, closed_append_iff hmore, closed_append_iff (by decide),
    closed_append_iff (hbrace hsh.2), closed_append_iff (by decide), closed_edgeRest hth]

/-- An edge's line is read as an edge from its source if it opens no lane. -/
theorem read_renderEdge {point : EndPoint} (hs : IsName source) (hsh : IsName sourceHandle)
    (hopen : laneOpen? (trim (renderEdge source sourceHandle target targetHandle label)) = none)
    (hpoint : target? (edgeRest target targetHandle label) = some point) :
    read (renderEdge source sourceHandle target targetHandle label) =
      .edge (.ofText source) (.ofText point.name) (lower (trim sourceHandle))
        (lower (trim point.handle)) (((edgeLabel? point.rest).bind nonempty?).map decode) := by
  have hclose : trim (renderEdge source sourceHandle target targetHandle label) ≠ ['\x7d'] := by
    have hmem : ')' ∈ renderEdge source sourceHandle target targetHandle label := by
      apply mem_of_mem_trim
      rw [trim_renderEdge hs]
      simp
    exact trim_ne_close hmem (by decide) (by decide)
  have hnode : node? (trim (renderEdge source sourceHandle target targetHandle label)) = none := by
    have harrow : mentions arrow
        (trim (renderEdge source sourceHandle target targetHandle label)) = true := by
      rw [trim_renderEdge hs, mentions_iff]
      refine ⟨source ++ handleStart ++ sourceHandle ++ [')', ' '],
        edgeRest target targetHandle label, ?_⟩
      simp
    rw [node?, if_pos harrow]
  have hsource : '\n' ∉ source := (breakFree_name hs).1
  have hmentions : mentions handleStart source = false := by
    cases h : mentions handleStart source with
    | false => rfl
    | true =>
      have hdot : '.' ∈ source := (mentions_iff.1 h).subset (by decide)
      exact absurd (hs.2 '.' hdot) (by decide)
  have hlead : edgeFrom? ⟨source, sourceHandle, ' ' :: (arrow ++ edgeRest target targetHandle label)⟩ =
      some (.edge (.ofText source) (.ofText point.name) (lower (trim sourceHandle))
        (lower (trim point.handle)) (((edgeLabel? point.rest).bind nonempty?).map decode)) := by
    have hskip : trimLeft (' ' :: (arrow ++ edgeRest target targetHandle label)) =
        arrow ++ edgeRest target targetHandle label := trimLeft_blank (by decide)
    rw [edgeFrom?, hskip, after?_append, Option.bind_some, hpoint]
    rfl
  have hedge := endPointFrom?_handle hsource hmentions hs.1 (isHandle_of_isName hsh) hlead
  rw [← trim_renderEdge hs, ← edge?] at hedge
  rw [read, hopen]
  simp only [if_neg hclose, hnode, Option.none_or, hedge]

theorem isWord_of_mem_mark {mark : Text} (h : LaneMark mark) (hc : c ∈ mark) :
    isWord c = true ∨ c = '.' := by
  cases h with
  | none => cases hc
  | lane hl => exact (List.mem_append.1 hc).imp (hl.2 c) List.mem_singleton.1

theorem mem_blankTails_iff : text ∈ blankTails rest ↔
    ∃ blanks, rest = blanks ++ text ∧ ∀ c ∈ blanks, isBlank c = true := by
  constructor
  · intro h
    induction rest with
    | nil =>
      rw [List.mem_singleton.1 h]
      exact ⟨[], rfl, by simp⟩
    | cons c more ih =>
      rw [blankTails] at h
      rcases List.mem_cons.1 h with rfl | h
      · exact ⟨[], rfl, by simp⟩
      · split at h
        · next hc =>
          obtain ⟨blanks, rfl, hblanks⟩ := ih h
          exact ⟨c :: blanks, rfl, List.forall_mem_cons.2 ⟨hc, hblanks⟩⟩
        · simp at h
  · rintro ⟨blanks, rfl, hb⟩
    induction blanks with
    | nil => cases text <;> simp [blankTails]
    | cons c more ih =>
      rw [List.cons_append, blankTails, if_pos (hb c List.mem_cons_self)]
      exact List.mem_cons_of_mem _ (ih fun d hd => hb d (List.mem_cons_of_mem c hd))

theorem mem_laneTails_iff : text ∈ laneTails rest ↔ ∃ mark, rest = mark ++ text ∧ LaneMark mark := by
  constructor
  · intro h
    have hcut := List.takeWhile_append_dropWhile (p := isWord) (l := rest)
    rw [laneTails] at h
    split at h
    · next tail htail =>
      split at h
      · rw [List.mem_singleton.1 h]
        exact ⟨[], rfl, .none⟩
      · next hne =>
        rcases List.mem_cons.1 h with rfl | h
        · exact ⟨[], rfl, .none⟩
        · rw [List.mem_singleton.1 h]
          refine ⟨rest.takeWhile isWord ++ ['.'], ?_, .lane ⟨by simpa using hne, fun c hc => ?_⟩⟩
          · rw [List.append_assoc, List.singleton_append, ← htail, hcut]
          · exact List.all_eq_true.1 List.all_takeWhile c hc
    · rw [List.mem_singleton.1 h]
      exact ⟨[], rfl, .none⟩
  · rintro ⟨mark, rfl, hm⟩
    cases hm with
    | none =>
      rw [List.nil_append, laneTails]
      split
      · split <;> simp
      · simp
    | @lane lane hl =>
      have hdot : isWord '.' = false := by decide
      have hpoint : lane ++ ['.'] ++ text = lane ++ '.' :: text := by simp
      rw [laneTails, hpoint, takeWhile_name hl hdot, dropWhile_name hl hdot]
      simp [hl.1]

/-- A node's name can start behind blanks, and behind one lane after them. -/
theorem mem_nameStarts_iff : text ∈ nameStarts rest ↔ ∃ blanks mark,
    rest = blanks ++ (mark ++ text) ∧ (∀ c ∈ blanks, isBlank c = true) ∧ LaneMark mark := by
  rw [nameStarts, List.mem_flatMap]
  constructor
  · rintro ⟨start, hstart, htext⟩
    obtain ⟨blanks, rfl, hb⟩ := mem_blankTails_iff.1 hstart
    obtain ⟨mark, rfl, hm⟩ := mem_laneTails_iff.1 htext
    exact ⟨blanks, mark, rfl, hb, hm⟩
  · rintro ⟨blanks, mark, rfl, hb, hm⟩
    exact ⟨_, mem_blankTails_iff.2 ⟨blanks, rfl, hb⟩, mem_laneTails_iff.2 ⟨mark, rfl, hm⟩⟩

theorem suffix_of_mem_nameStarts (h : text ∈ nameStarts rest) : text <:+ rest := by
  obtain ⟨blanks, mark, rfl, _⟩ := mem_nameStarts_iff.1 h
  exact (List.suffix_append mark text).trans (List.suffix_append blanks _)

/-- A line that is found as an edge has an arrow. -/
theorem mentions_of_isEdgeBetween (h : isEdgeBetween source target text = true) :
    mentions arrow text = true := by
  obtain ⟨start, hstart, hbetween⟩ := List.any_eq_true.1 h
  split at hbetween
  · next rest hrest =>
    obtain ⟨⟨handle, after⟩, hhandle, harrow⟩ := Option.bind_eq_some_iff.1 hrest
    obtain ⟨more, hmore, hafter⟩ := Option.bind_eq_some_iff.1 hhandle
    have hline : after <:+ text := (suffix_of_handle? hafter).trans
      ((after?_eq_some hmore ▸ List.suffix_append source more).trans
        (suffix_of_mem_nameStarts hstart))
    have htrim : arrow ++ rest <:+ after := after?_eq_some harrow ▸ List.dropWhile_suffix isBlank
    exact mentions_iff.2 ((List.prefix_append arrow rest).isInfix.trans (htrim.trans hline).isInfix)
  · simp at hbetween

theorem trim_ne_close_of_isEdgeBetween (h : isEdgeBetween source target text = true) :
    trim text ≠ ['\x7d'] := by
  have harrow := mentions_iff.1 (mentions_of_isEdgeBetween h)
  exact trim_ne_close (harrow.subset (show '-' ∈ arrow by decide)) (by decide) (by decide)

/-- A name with a lane before a point mentions no handle. -/
theorem mentions_handle_dotted {lane : Text} (hl : '.' ∉ lane) (ht : IsName target) :
    mentions handleStart (lane ++ '.' :: target) = false := by
  have hdot : '.' ∉ target := not_mem_name ht (by decide)
  have hparen : '(' ∉ target := not_mem_name ht (by decide)
  cases h : mentions handleStart (lane ++ '.' :: target) with
  | false => rfl
  | true =>
    obtain ⟨left, right, heq⟩ := mentions_iff.1 h
    have hstart : handleStart = '.' :: "handle(".toList := rfl
    rw [hstart, List.append_assoc, List.cons_append] at heq
    obtain ⟨_, _, htarget⟩ := (List.append_cons_inj_of_notMem hl hdot).1 heq.symm
    exact absurd (htarget ▸ List.mem_append_left right (by decide)) hparen

theorem trim_dotted {lane : Text} (ht : IsName target) :
    trim (lane ++ '.' :: target) = trimLeft lane ++ '.' :: target := by
  have hleft : trimLeft (lane ++ '.' :: target) = trimLeft lane ++ '.' :: target := by
    by_cases hne : trimLeft lane = []
    · rw [hne, trimLeft_margin (trimLeft_eq_nil_iff.1 hne), trimLeft_eq_self (by simp; decide)]
      rfl
    · exact trimLeft_append hne
  rw [trim, hleft]
  apply trimRight_eq_self
  intro c hc
  have hlast := List.getLast?_eq_some_getLast ht.1
  rw [List.getLast?_append_of_ne_nil _ (by simp), List.getLast?_cons, hlast] at hc
  have hmem : c = target.getLast ht.1 := by simpa [eq_comm] using hc
  exact isBlank_of_isWord (hmem ▸ ht.2 _ (List.getLast_mem ht.1))

theorem trim_name (hk : IsName name) : trim name = name := by
  refine trim_eq_self ⟨fun c hc => ?_, fun c hc => ?_⟩
  · exact isBlank_of_isWord (hk.2 c (List.mem_of_mem_head? hc))
  · exact isBlank_of_isWord (hk.2 c (List.mem_of_getLast? hc))

/-- A name without a lane refers to the node of that name. -/
theorem reference_name (hk : IsName name) : Reference.ofText name = ⟨name, none⟩ := by
  have hsplit : name.splitOn '.' = [name] :=
    List.splitOn_eq_singleton (not_mem_name hk (by decide))
  rw [Reference.ofText, trim_name hk, hsplit]
  rfl

theorem reference_dotted {lane : Text} (hl : '.' ∉ lane) (ht : IsName target) :
    Reference.ofText (trimLeft (lane ++ '.' :: target)) = ⟨target, some (trimLeft lane)⟩ := by
  have htrim : trim (trimLeft (lane ++ '.' :: target)) = trimLeft lane ++ '.' :: target := by
    rw [← trim_dotted ht, trim, trim, trimLeft_eq_self head?_trimLeft]
  have hleft : '.' ∉ trimLeft lane := fun hm => hl (List.dropWhile_subset _ hm)
  have hsplit : (trimLeft lane ++ '.' :: target).splitOn '.' = [trimLeft lane, target] := by
    rw [List.splitOn_append_cons_self, List.splitOn_eq_singleton hleft,
      List.splitOn_eq_singleton (not_mem_name ht (by decide))]
    rfl
  rw [Reference.ofText, htrim, hsplit]
  rfl

end Swimlane.Line
