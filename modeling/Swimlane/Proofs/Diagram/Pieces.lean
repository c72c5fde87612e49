import Mathlib.Data.List.Induction
import Swimlane.Proofs.Diagram.NodeLine
import Swimlane.Proofs.OrderedMap

/-! How a line is cut at its attributes: its pieces can be put together again and written anew, and an
attribute has one place in it. -/
namespace Swimlane

open Text Escaped Line

variable {c sign : Char} {text line left right blanks more key gap body after value : Text}
  {piece : Piece} {parts above below : List Piece}

/-- What is written of an attribute after its key. -/
def writtenValue (value : Text) : Text := ':' :: '"' :: (encode value ++ ['"'])

theorem renderAttribute_eq (key value : Text) :
    renderAttribute key value = key ++ writtenValue value := by
  simp [renderAttribute, writtenValue]

theorem body?_append (h : body? text = some (body, after)) (rest : Text) :
    body? (body ++ '"' :: rest) = some (body, rest) := by
  fun_induction body? text generalizing body with
  | case1 => simp at h
  | case2 => simp_all [body?_mark]
  | case3 => simp at h
  | case4 => simp at h
  | case5 c more _ hc ih =>
    obtain ⟨⟨found, _⟩, hfound, heq⟩ := Option.map_eq_some_iff.1 h
    simp only [Prod.mk.injEq] at heq
    obtain ⟨rfl, rfl⟩ := heq
    rw [List.cons_append, List.cons_append, body?_backslash (by assumption), ih hfound]
    rfl
  | case6 c more hm hb ih =>
    obtain ⟨⟨found, _⟩, hfound, heq⟩ := Option.map_eq_some_iff.1 h
    simp only [Prod.mk.injEq] at heq
    obtain ⟨rfl, rfl⟩ := heq
    rw [List.cons_append, body?_cons hm hb, ih hfound]
    rfl

theorem takeWhile_blanks (hb : ∀ c ∈ blanks, isBlank c = true) (hc : isBlank c = false) :
    (blanks ++ c :: text).takeWhile isBlank = blanks := by
  rw [List.takeWhile_append_of_pos hb, List.takeWhile_cons_of_neg (by simp [hc]), List.append_nil]

theorem dropWhile_blanks (hb : ∀ c ∈ blanks, isBlank c = true) (hc : isBlank c = false) :
    (blanks ++ c :: text).dropWhile isBlank = c :: text := by
  rw [List.dropWhile_append_of_pos hb, List.dropWhile_cons_of_neg (by simp [hc])]

theorem isBlank_of_sign (h : sign = ':' ∨ sign = '=') : isBlank sign = false := by
  rcases h with rfl | rfl <;> decide

theorem valueAfter?_eq_some_iff : valueAfter? text = some (gap, body, after) ↔
    ∃ blanks sign more rest, text = blanks ++ sign :: (more ++ '"' :: rest) ∧
      gap = blanks ++ sign :: (more ++ ['"']) ∧ (∀ c ∈ blanks, isBlank c = true) ∧
      (sign = ':' ∨ sign = '=') ∧ (∀ c ∈ more, isBlank c = true) ∧ body? rest = some (body, after) := by
  have hblank : ∀ (other : Text), ∀ c ∈ other.takeWhile isBlank, isBlank c = true :=
    fun other => List.all_eq_true.1 List.all_takeWhile
  constructor
  · intro h
    have htext := List.takeWhile_append_dropWhile (p := isBlank) (l := text)
    unfold valueAfter? at h
    split at h
    · simp at h
    · next sign tail htail =>
      split at h
      · next hsign =>
        have hmore := List.takeWhile_append_dropWhile (p := isBlank) (l := tail)
        dsimp only at h
        split at h
        · simp at h
        · next mark rest hrest =>
          split at h
          · next hmark =>
            obtain ⟨⟨found, _⟩, hfound, heq⟩ := Option.map_eq_some_iff.1 h
            simp only [Prod.mk.injEq] at heq
            obtain ⟨rfl, rfl, rfl⟩ := heq
            refine ⟨_, sign, tail.takeWhile isBlank, rest, ?_, ?_, hblank text, by simpa using hsign,
              hblank tail, hfound⟩
            · rw [hrest, hmark] at hmore
              rw [hmore, ← htail, htext]
            · simp [hmark]
          · simp at h
      · simp at h
  · rintro ⟨blanks, sign, more, rest, rfl, rfl, hb, hs, hm, hbody⟩
    have hmark : isBlank '"' = false := by decide
    have hsign := isBlank_of_sign hs
    rw [valueAfter?, takeWhile_blanks hb hsign, dropWhile_blanks hb hsign]
    simp only [takeWhile_blanks hm hmark, dropWhile_blanks hm hmark, hbody]
    rcases hs with rfl | rfl <;> simp

/-- A value is read the same whatever stands behind its closing mark. -/
theorem valueAfter?_append (h : valueAfter? text = some (gap, body, after)) (rest : Text) :
    valueAfter? (gap ++ (body ++ '"' :: rest)) = some (gap, body, rest) := by
  obtain ⟨blanks, sign, more, tail, _, rfl, hb, hs, hm, hbody⟩ := valueAfter?_eq_some_iff.1 h
  exact valueAfter?_eq_some_iff.2
    ⟨blanks, sign, more, body ++ '"' :: rest, by simp, rfl, hb, hs, hm, body?_append hbody rest⟩

/-- Between the key of an attribute and its opening mark stands no part of a name. -/
theorem exists_between_of_valueAfter? (h : valueAfter? text = some (gap, body, after)) :
    ∃ between, gap = between ++ ['"'] ∧ ∀ c ∈ between, isWord c = false := by
  obtain ⟨blanks, sign, more, _, _, rfl, hb, hs, hm, _⟩ := valueAfter?_eq_some_iff.1 h
  have hsign : isWord sign = false := by
    rcases hs with rfl | rfl <;> decide
  refine ⟨blanks ++ sign :: more, by simp, fun c hc => ?_⟩
  rcases List.mem_append.1 hc with hc | hc
  · exact isWord_of_isBlank (hb c hc)
  · rcases List.mem_cons.1 hc with rfl | hc
    · exact hsign
    · exact isWord_of_isBlank (hm c hc)

theorem not_isWord_of_valueAfter? (h : valueAfter? text = some (gap, body, after)) :
    text.head?.any isWord = false := by
  obtain ⟨between, rfl, hb⟩ := exists_between_of_valueAfter? h
  rw [eq_of_valueAfter? h]
  cases between with
  | nil => simp; decide
  | cons c more => simpa using hb c List.mem_cons_self

theorem isName_takeWhile (hc : isWord c = true) : IsName (c :: text.takeWhile isWord) :=
  ⟨by simp, List.forall_mem_cons.2 ⟨hc, List.all_eq_true.1 List.all_takeWhile⟩⟩

theorem head?_dropWhile_isWord (text : Text) : (text.dropWhile isWord).head?.any isWord = false := by
  have h := List.head?_dropWhile_not isWord text
  cases hd : (text.dropWhile isWord).head? with
  | none => rfl
  | some c => simpa [hd] using h

theorem pieces_sign (h : isWord c = false) : pieces (c :: text) = .plain [c] :: pieces text := by
  rw [pieces, if_neg (by simp [h])]

theorem takeWhile_word (hk : IsName key) (h : text.head?.any isWord = false) :
    (key ++ text).takeWhile isWord = key := by
  cases text with
  | nil => simpa using hk.2
  | cons c more => exact takeWhile_name hk (by simpa using h)

theorem dropWhile_word (hk : IsName key) (h : text.head?.any isWord = false) :
    (key ++ text).dropWhile isWord = text := by
  cases text with
  | nil => simpa using hk.2
  | cons c more => exact dropWhile_name hk (by simpa using h)

/-- A word is the key of an attribute if a value follows it, else it has no meaning. -/
theorem pieces_name (hk : IsName key) (h : text.head?.any isWord = false) :
    pieces (key ++ text) = match valueAfter? text with
      | some (gap, body, after) => .attribute key gap body :: pieces after
      | none => .plain key :: pieces text := by
  have htake := takeWhile_word hk h
  have hdrop := dropWhile_word hk h
  obtain ⟨c, more, rfl⟩ := List.exists_cons_of_ne_nil hk.1
  have hc : isWord c = true := hk.2 c List.mem_cons_self
  rw [List.cons_append, List.takeWhile_cons_of_pos hc] at htake
  rw [List.cons_append, List.dropWhile_cons_of_pos hc] at hdrop
  rw [List.cons_append, pieces, if_pos hc]
  split
  · next hvalue =>
    rw [hdrop] at hvalue
    rw [hvalue, htake]
  · next hvalue =>
    rw [hdrop] at hvalue
    rw [hvalue, htake, hdrop]

theorem valueAfter?_written (value rest : Text) : valueAfter? ([':', '"'] ++ (encode value ++ '"' :: rest)) =
    some ([':', '"'], encode value, rest) :=
  valueAfter?_eq_some_iff.2
    ⟨[], ':', [], _, rfl, rfl, by simp, Or.inl rfl, by simp, body?_encode value rest⟩

/-- An attribute is read back from the line that it is written in. -/
theorem pieces_renderAttribute (hk : IsName key) :
    pieces (renderAttribute key value ++ text) =
      .attribute key [':', '"'] (encode value) :: pieces text := by
  have htext : renderAttribute key value ++ text = key ++ ([':', '"'] ++ (encode value ++ '"' :: text)) := by
    simp [renderAttribute]
  have hvalue := valueAfter?_written value text
  rw [htext, pieces_name hk (not_isWord_of_valueAfter? hvalue), hvalue]

theorem pieces_signs (h : ∀ c ∈ left, isWord c = false) :
    pieces (left ++ text) = (left.map fun c => .plain [c]) ++ pieces text := by
  induction left with
  | nil => rfl
  | cons c more ih =>
    rw [List.cons_append, pieces_sign (h c List.mem_cons_self),
      ih fun d hd => h d (List.mem_cons_of_mem c hd)]
    rfl

/-- What ends in blanks is no value if it is none without them. -/
theorem valueAfter?_of_append_blanks (hb : ∀ c ∈ blanks, isBlank c = true)
    (h : valueAfter? (text ++ blanks) = some (gap, body, after)) :
    ∃ rest, valueAfter? text = some (gap, body, rest) := by
  have hcut : text ++ blanks = (gap ++ (body ++ ['"'])) ++ after := by
    rw [eq_of_valueAfter? h]
    simp
  have hfirst : ∀ rest, text = (gap ++ (body ++ ['"'])) ++ rest →
      valueAfter? text = some (gap, body, rest) := by
    rintro rest rfl
    have hvalue := valueAfter?_append h rest
    simpa using hvalue
  -- The value ends in its mark, so that it cannot reach into the blanks.
  rcases List.append_eq_append_iff.1 hcut with ⟨tail, hvalue, hblanks⟩ | ⟨rest, htext, _⟩
  · cases tail using List.reverseRecOn with
    | nil => exact ⟨[], hfirst [] (by rw [hvalue, List.append_nil, List.append_nil])⟩
    | append_singleton others c =>
      have hc : c = '"' := by
        have hlast := congrArg List.getLast? hvalue
        simpa [List.getLast?_append] using hlast.symm
      exact absurd (hb c (by rw [hblanks]; simp)) (by rw [hc]; decide)
  · exact ⟨rest, hfirst rest htext⟩

/-- The blanks at the end of a text are pieces of their own. -/
theorem pieces_append_blanks (hb : ∀ c ∈ blanks, isBlank c = true) :
    pieces (text ++ blanks) = pieces text ++ blanks.map fun c => .plain [c] := by
  have hword : ∀ c ∈ blanks, isWord c = false := fun c hc => isWord_of_isBlank (hb c hc)
  fun_induction pieces text with
  | case1 =>
    have hsigns : pieces (blanks ++ []) = (blanks.map fun c => .plain [c]) ++ pieces [] :=
      pieces_signs hword
    simpa [pieces] using hsigns
  | case2 c rest hc key gap body after hvalue ih =>
    have hmore := valueAfter?_append hvalue (after ++ blanks)
    have htext : c :: rest ++ blanks = key ++ (gap ++ (body ++ '"' :: (after ++ blanks))) := by
      have hcut : c :: rest = key ++ rest.dropWhile isWord := by simp [key]
      rw [hcut, eq_of_valueAfter? hvalue]
      simp
    rw [htext, pieces_name (isName_takeWhile hc) (not_isWord_of_valueAfter? hmore), hmore]
    simp only [ih]
    rfl
  | case3 c rest hc key hvalue ih =>
    have htext : c :: rest ++ blanks = key ++ (rest.dropWhile isWord ++ blanks) := by
      rw [← List.append_assoc]
      simp [key]
    have hnone : valueAfter? (rest.dropWhile isWord ++ blanks) = none := by
      cases hv : valueAfter? (rest.dropWhile isWord ++ blanks) with
      | none => rfl
      | some found =>
        obtain ⟨other, hother⟩ := valueAfter?_of_append_blanks hb hv
        simp [hvalue] at hother
    have hhead : (rest.dropWhile isWord ++ blanks).head?.any isWord = false := by
      have hrest := head?_dropWhile_isWord rest
      cases hd : rest.dropWhile isWord with
      | nil =>
        cases blanks with
        | nil => rfl
        | cons d more => simpa using hword d List.mem_cons_self
      | cons d more => simpa [hd] using hrest
    rw [htext, pieces_name (isName_takeWhile hc) hhead, hnone]
    simp only [ih]
    rfl
  | case4 c rest hc ih =>
    rw [List.cons_append, pieces_sign (by simpa using hc), ih, List.cons_append]

/-- Every quotation mark of the text stands in an attribute. -/
def MarksInside (text : Text) : Prop := ∀ part, .plain part ∈ pieces text → '"' ∉ part

instance : DecidablePred MarksInside := fun text =>
  decidable_of_iff (∀ piece ∈ pieces text, piece = .plain piece.source → '"' ∉ piece.source)
    ⟨fun h _ hpart => h _ hpart rfl, fun h _ hpiece heq => h _ (heq ▸ hpiece)⟩

/-- Pieces that a text can be cut into: words, other signs but no quotation mark, and attributes. No
word goes on into the next piece. -/
inductive Cut : List Piece → Prop
  | nil : Cut []
  | word {text : Text} {parts : List Piece} (hk : IsName text)
      (hn : (parts.flatMap Piece.source).head?.any isWord = false) (h : Cut parts) :
      Cut (.plain text :: parts)
  | sign {c : Char} {parts : List Piece} (hw : isWord c = false) (hm : c ≠ '"') (h : Cut parts) :
      Cut (.plain [c] :: parts)
  | pair {key gap body : Text} {parts : List Piece} (hk : IsName key)
      (hv : ∀ rest, valueAfter? (gap ++ (body ++ '"' :: rest)) = some (gap, body, rest))
      (h : Cut parts) : Cut (.attribute key gap body :: parts)

theorem source_plain (text : Text) : Piece.source (.plain text) = text := rfl

theorem source_attribute (key gap body rest : Text) :
    Piece.source (.attribute key gap body) ++ rest = key ++ (gap ++ (body ++ '"' :: rest)) := by
  simp [Piece.source]

theorem exists_isWord_of_append {between : Text} (hk : IsName key)
    (h : key ++ text = between ++ '"' :: more) : ∃ c ∈ between, isWord c = true := by
  obtain ⟨c, tail, rfl⟩ := List.exists_cons_of_ne_nil hk.1
  have hc : isWord c = true := hk.2 c List.mem_cons_self
  cases between with
  | nil =>
    rw [(List.cons.inj h).1] at hc
    exact absurd hc (by decide)
  | cons d others => exact ⟨c, by simp [(List.cons.inj h).1], hc⟩

/-- Before the first quotation mark stands the key of its attribute. -/
theorem exists_isWord_of_mark {between : Text} (h : Cut parts)
    (heq : parts.flatMap Piece.source = between ++ '"' :: text) : ∃ c ∈ between, isWord c = true := by
  induction h generalizing between with
  | nil => simp at heq
  | word hk => exact exists_isWord_of_append hk heq
  | pair hk =>
    rw [List.flatMap_cons, source_attribute] at heq
    exact exists_isWord_of_append hk heq
  | sign _ hm _ ih =>
    cases between with
    | nil => exact absurd (List.cons.inj heq).1 hm
    | cons d others =>
      obtain ⟨c, hc, hword⟩ := ih (List.cons.inj heq).2
      exact ⟨c, List.mem_cons_of_mem d hc, hword⟩

theorem valueAfter?_source (h : Cut parts) : valueAfter? (parts.flatMap Piece.source) = none := by
  cases hv : valueAfter? (parts.flatMap Piece.source) with
  | none => rfl
  | some found =>
    obtain ⟨gap, body, after⟩ := found
    obtain ⟨between, rfl, hb⟩ := exists_between_of_valueAfter? hv
    have heq := eq_of_valueAfter? hv
    rw [List.append_assoc, List.append_assoc] at heq
    obtain ⟨c, hc, hw⟩ := exists_isWord_of_mark h heq
    simp [hb c hc] at hw

/-- Pieces that are put together are cut again as they were. -/
theorem pieces_source (h : Cut parts) : pieces (parts.flatMap Piece.source) = parts := by
  induction h with
  | nil => simp [pieces]
  | sign hw _ _ ih => rw [List.flatMap_cons, Piece.source, List.singleton_append, pieces_sign hw, ih]
  | word hk hn h ih =>
    rw [List.flatMap_cons, Piece.source, pieces_name hk hn, valueAfter?_source h, ih]
  | pair hk hv _ ih =>
    rw [List.flatMap_cons, source_attribute, pieces_name hk (not_isWord_of_valueAfter? (hv _)), hv]
    simp only [ih]

theorem cut_pieces (h : MarksInside text) : Cut (pieces text) := by
  unfold MarksInside at h
  fun_induction pieces text with
  | case1 => exact .nil
  | case2 c rest hc key gap body after hvalue ih =>
    exact .pair (isName_takeWhile hc) (valueAfter?_append hvalue)
      (ih fun part hm => h part (List.mem_cons_of_mem _ hm))
  | case3 c rest hc key hvalue ih =>
    refine .word (isName_takeWhile hc) ?_ (ih fun part hm => h part (List.mem_cons_of_mem _ hm))
    rw [source_pieces]
    exact head?_dropWhile_isWord rest
  | case4 c rest hc ih =>
    have hm : c ≠ '"' := fun he => h [c] List.mem_cons_self (he ▸ List.mem_cons_self)
    exact .sign (by simpa using hc) hm (ih fun part hm => h part (List.mem_cons_of_mem _ hm))

theorem marksInside_of_cut (h : Cut parts) : MarksInside (parts.flatMap Piece.source) := by
  rw [MarksInside, pieces_source h]
  induction h with
  | nil => simp
  | word hk _ _ ih =>
    rintro part (_ | ⟨_, hm⟩)
    · exact not_mem_name hk (by decide)
    · exact ih part hm
  | sign _ hm _ ih =>
    rintro part (_ | ⟨_, hmem⟩)
    · simpa using hm.symm
    · exact ih part hmem
  | pair _ _ _ ih =>
    rintro part (_ | ⟨_, hmem⟩)
    exact ih part hmem

theorem cut_append (ha : Cut above) (hb : Cut below)
    (h : (above.flatMap Piece.source).getLast?.any isWord = true →
      (below.flatMap Piece.source).head?.any isWord = false) : Cut (above ++ below) := by
  have hlast : ∀ {first rest : Text}, rest.getLast?.any isWord = true →
      (first ++ rest).getLast?.any isWord = true := by
    intro first rest hrest
    obtain ⟨c, hc, hword⟩ := (Option.any_eq_true _ _).1 hrest
    simp [List.getLast?_append, hc, hword]
  induction ha with
  | nil => exact hb
  | sign hw hm _ ih => exact .sign hw hm (ih fun hrest => h (hlast hrest))
  | pair hk hv _ ih => exact .pair hk hv (ih fun hrest => h (hlast hrest))
  -- Only a word at the very end could go on into the pieces below.
  | @word text parts hk hn _ ih =>
    rw [List.cons_append]
    refine .word hk ?_ (ih fun hrest => h (hlast hrest))
    rw [List.flatMap_append]
    cases hparts : parts.flatMap Piece.source with
    | nil =>
      apply h
      rw [List.flatMap_cons, hparts, List.append_nil, Piece.source, List.getLast?_eq_some_getLast hk.1]
      exact hk.2 _ (List.getLast_mem hk.1)
    | cons c more => simpa [hparts] using hn

/-- The value of an attribute can be written anew. -/
theorem cut_replace {other : Text} (hk : IsName key)
    (h : Cut (above ++ .attribute key gap body :: below))
    (hv : ∀ rest, valueAfter? (other ++ (value ++ '"' :: rest)) = some (other, value, rest)) :
    Cut (above ++ .attribute key other value :: below) := by
  induction above with
  | nil =>
    cases h with
    | pair _ _ h => exact .pair hk hv h
  | cons piece rest ih =>
    rw [List.cons_append] at h ⊢
    cases h with
    | sign hw hm h => exact .sign hw hm (ih h)
    | pair hk hv h => exact .pair hk hv (ih h)
    | word hk' hn h =>
      refine .word hk' ?_ (ih h)
      rw [List.flatMap_append, List.flatMap_cons, source_attribute] at hn ⊢
      cases hrest : rest.flatMap Piece.source with
      | nil =>
        rw [hrest, List.nil_append, List.head?_append_of_ne_nil _ hk.1] at hn
        rwa [List.nil_append, List.head?_append_of_ne_nil _ hk.1]
      | cons c more => simpa [hrest] using hn

/-- Two texts are cut one by one, if no word goes on from the first into the second. -/
theorem pieces_append (hl : MarksInside left) (hr : MarksInside right)
    (h : left.getLast?.any isWord = true → right.head?.any isWord = false) :
    MarksInside (left ++ right) ∧ pieces (left ++ right) = pieces left ++ pieces right := by
  have hcut : Cut (pieces left ++ pieces right) :=
    cut_append (cut_pieces hl) (cut_pieces hr) (by simpa [source_pieces] using h)
  have hsource : (pieces left ++ pieces right).flatMap Piece.source = left ++ right := by
    rw [List.flatMap_append, source_pieces, source_pieces]
  exact ⟨hsource ▸ marksInside_of_cut hcut, hsource ▸ pieces_source hcut⟩

theorem exists_pieces_trimRight (text : Text) : ∃ blanks : Text, (∀ c ∈ blanks, isBlank c = true) ∧
    pieces text = pieces (trimRight text) ++ blanks.map fun c => .plain [c] := by
  obtain ⟨blanks, htext, hb⟩ := exists_trimRight text
  exact ⟨blanks, hb, by rw [← pieces_append_blanks hb, ← htext]⟩

theorem marksInside_trimRight (h : MarksInside text) : MarksInside (trimRight text) := by
  obtain ⟨blanks, _, hparts⟩ := exists_pieces_trimRight text
  intro part hpart
  exact h part (hparts ▸ List.mem_append_left _ hpart)

/-- The attributes of a line with the values that are read, in the order in which they are written. -/
def writtenAttributes (line : Text) : List (Text × Text) := (pieces line).filterMap Piece.attribute?

theorem filterMap_signs (text : Text) :
    (text.map fun c => Piece.plain [c]).filterMap Piece.attribute? = [] := by
  simp [Piece.attribute?]

theorem writtenAttributes_trimLeft (text : Text) :
    writtenAttributes (trimLeft text) = writtenAttributes text := by
  obtain ⟨blanks, htext, hb⟩ := exists_trimLeft text
  have hword : ∀ c ∈ blanks, isWord c = false := fun c hc => isWord_of_isBlank (hb c hc)
  rw [writtenAttributes, writtenAttributes]
  conv_rhs => rw [htext, pieces_signs hword, List.filterMap_append, filterMap_signs, List.nil_append]

theorem writtenAttributes_trimRight (text : Text) :
    writtenAttributes (trimRight text) = writtenAttributes text := by
  obtain ⟨blanks, _, hparts⟩ := exists_pieces_trimRight text
  rw [writtenAttributes, writtenAttributes, hparts, List.filterMap_append, filterMap_signs, List.append_nil]

theorem readAttributes_trimLeft (text : Text) : readAttributes (trimLeft text) = readAttributes text :=
  congrArg OrderedMap.ofList (writtenAttributes_trimLeft text)

theorem readAttributes_trimRight (text : Text) : readAttributes (trimRight text) = readAttributes text :=
  congrArg OrderedMap.ofList (writtenAttributes_trimRight text)

theorem marksInside_of_trimLeft (h : MarksInside (trimLeft text)) : MarksInside text := by
  obtain ⟨blanks, htext, hb⟩ := exists_trimLeft text
  have hword : ∀ c ∈ blanks, isWord c = false := fun c hc => isWord_of_isBlank (hb c hc)
  intro part hpart
  rw [htext, pieces_signs hword] at hpart
  rcases List.mem_append.1 hpart with hpart | hpart
  · obtain ⟨c, hc, rfl⟩ : ∃ c ∈ blanks, [c] = part := by simpa using hpart
    intro hmark
    rw [← List.mem_singleton.1 hmark] at hc
    exact absurd (hb _ hc) (by decide)
  · exact h part hpart

/-- A text without quotation marks has no attribute. -/
theorem plain_of_not_mem (h : '"' ∉ text) :
    ∀ piece ∈ pieces text, ∃ part : Text, piece = .plain part ∧ '"' ∉ part := by
  intro piece hpiece
  have hsource : ∀ c ∈ piece.source, c ∈ text := by
    intro c hc
    rw [← source_pieces text]
    exact List.mem_flatMap.2 ⟨piece, hpiece, hc⟩
  rcases piece with part | ⟨key, gap, body⟩
  · exact ⟨part, rfl, fun hmark => h (hsource _ hmark)⟩
  · exact absurd (hsource '"' (by simp [Piece.source])) h

theorem marksInside_of_not_mem (h : '"' ∉ text) : MarksInside text := by
  intro part hpart
  obtain ⟨other, heq, hmark⟩ := plain_of_not_mem h _ hpart
  cases heq
  exact hmark

theorem hasKey_of_not_mem (h : '"' ∉ text) : ∀ piece ∈ pieces text, piece.hasKey key = false := by
  intro piece hpiece
  obtain ⟨part, rfl, _⟩ := plain_of_not_mem h piece hpiece
  rfl

/-- A text is cut as it stands between two others without quotation marks. -/
theorem pieces_between (hl : '"' ∉ left) (ht : MarksInside text) (hr : '"' ∉ right)
    (hfirst : left.getLast?.any isWord = true → text.head?.any isWord = false)
    (hlast : (left ++ text).getLast?.any isWord = true → right.head?.any isWord = false) :
    MarksInside (left ++ (text ++ right)) ∧
      pieces (left ++ (text ++ right)) = pieces left ++ (pieces text ++ pieces right) := by
  obtain ⟨hmarks, hparts⟩ := pieces_append (marksInside_of_not_mem hl) ht hfirst
  obtain ⟨hall, hcut⟩ := pieces_append hmarks (marksInside_of_not_mem hr) hlast
  rw [List.append_assoc] at hall hcut
  exact ⟨hall, by rw [hcut, hparts, List.append_assoc]⟩

/-- Where an attribute with a key is written in a line: in place of the first that is there, or at the
end. The pieces above and below stay. -/
inductive Slot (key line : Text) : List Piece → List Piece → Prop
  | inPlace {above below : List Piece} {gap body : Text}
      (h : pieces line = above ++ .attribute key gap body :: below)
      (hf : ∀ piece ∈ above, piece.hasKey key = false) : Slot key line above below
  | atEnd (hf : ∀ piece ∈ pieces line, piece.hasKey key = false) :
      Slot key line (pieces (trimRight line) ++ [.plain [' ']]) []

/-- An attribute as a piece of the line that it is written in. -/
def Piece.written (key value : Text) : Piece := .attribute key [':', '"'] (encode value)

theorem source_written (key value : Text) : (Piece.written key value).source = renderAttribute key value := by
  simp [Piece.written, Piece.source, renderAttribute]

theorem replacePiece?_append (hf : ∀ piece ∈ above, piece.hasKey key = false) :
    replacePiece? key text (above ++ .attribute key gap body :: below) =
      some (above ++ .plain text :: below) := by
  induction above with
  | nil => simp [replacePiece?, Piece.hasKey]
  | cons piece rest ih =>
    obtain ⟨hpiece, hrest⟩ := List.forall_mem_cons.1 hf
    rw [List.cons_append, replacePiece?, hpiece, ih hrest]
    rfl

theorem replacePiece?_eq_none (hf : ∀ piece ∈ parts, piece.hasKey key = false) :
    replacePiece? key text parts = none := by
  induction parts with
  | nil => rfl
  | cons piece rest ih =>
    obtain ⟨hpiece, hrest⟩ := List.forall_mem_cons.1 hf
    rw [replacePiece?, hpiece, ih hrest]
    rfl

theorem exists_slot (key line : Text) : ∃ above below, Slot key line above below := by
  cases hfind : (pieces line).find? (·.hasKey key) with
  | none => exact ⟨_, _, .atEnd (by simpa using hfind)⟩
  | some piece =>
    obtain ⟨hkey, above, below, hparts, hfree⟩ := List.find?_eq_some_iff_append.1 hfind
    have hf : ∀ other ∈ above, other.hasKey key = false := by simpa using hfree
    rcases piece with text | ⟨other, gap, body⟩
    · simp [Piece.hasKey] at hkey
    · have hother : other = key := by simpa [Piece.hasKey] using hkey
      exact ⟨above, below, .inPlace (hother ▸ hparts) hf⟩

/-- Setting an attribute writes it in its place. -/
theorem setAttribute_slot (h : Slot key line above below) (value : Text) :
    setAttribute line key value = (above ++ .written key value :: below).flatMap Piece.source := by
  cases h with
  | inPlace h hf =>
    rw [setAttribute, h, replacePiece?_append hf]
    simp [source_written, source_plain]
  | atEnd hf =>
    rw [setAttribute, replacePiece?_eq_none hf]
    simp [source_written, source_pieces, source_plain]

theorem slot_free (h : Slot key line above below) : ∀ piece ∈ above, piece.hasKey key = false := by
  cases h with
  | inPlace _ hf => exact hf
  | atEnd hf =>
    obtain ⟨blanks, _, hparts⟩ := exists_pieces_trimRight line
    rw [List.forall_mem_append]
    refine ⟨fun piece hp => hf piece ?_, by simp [Piece.hasKey]⟩
    rw [hparts]
    exact List.mem_append_left _ hp

/-- A line with its quotation marks in attributes is cut around the place as before. -/
theorem cut_slot (hm : MarksInside line) (hk : IsName key) (h : Slot key line above below)
    (value : Text) : Cut (above ++ .written key value :: below) := by
  cases h with
  | inPlace h hf => exact cut_replace hk (h ▸ cut_pieces hm) (valueAfter?_written value)
  | atEnd hf =>
    have hwritten : Cut [.plain [' '], .written key value] :=
      .sign (by decide) (by decide) (.pair hk (valueAfter?_written value) .nil)
    have hcut := cut_append (cut_pieces (marksInside_trimRight hm)) hwritten fun _ => by
      simp [Piece.source]
      decide
    simpa using hcut

/-- A written attribute stands in the line where its place was. -/
theorem pieces_setAttribute (hm : MarksInside line) (hk : IsName key) (h : Slot key line above below)
    (value : Text) : pieces (setAttribute line key value) = above ++ .written key value :: below := by
  rw [setAttribute_slot h, pieces_source (cut_slot hm hk h value)]

theorem marksInside_setAttribute (hm : MarksInside line) (hk : IsName key) (value : Text) :
    MarksInside (setAttribute line key value) := by
  obtain ⟨above, below, h⟩ := exists_slot key line
  rw [setAttribute_slot h]
  exact marksInside_of_cut (cut_slot hm hk h value)

theorem not_mem_keys_of_free (h : ∀ piece ∈ parts, piece.hasKey key = false) :
    key ∉ (parts.filterMap Piece.attribute?).map Prod.fst := by
  intro hkey
  obtain ⟨entry, hentry, hfst⟩ := List.mem_map.1 hkey
  obtain ⟨piece, hpiece, hattribute⟩ := List.mem_filterMap.1 hentry
  have hfree := h piece hpiece
  rcases piece with part | ⟨other, gap, body⟩
  · simp [Piece.attribute?] at hattribute
  · simp only [Piece.attribute?, Option.some.injEq] at hattribute
    simp [Piece.hasKey, ← hfst, ← hattribute] at hfree

/-- To set an attribute in a line is to put its entry in the list of them. -/
theorem writtenAttributes_setAttribute (hm : MarksInside line) (hk : IsName key) (value : Text) :
    writtenAttributes (setAttribute line key value) =
      putEntry key (normal value) (writtenAttributes line) := by
  obtain ⟨above, below, hslot⟩ := exists_slot key line
  have hwritten : (Piece.written key value).attribute? = some (key, normal value) := by
    rw [Piece.written, Piece.attribute?, decode_encode]
  have hfree := not_mem_keys_of_free (slot_free hslot)
  rw [writtenAttributes, pieces_setAttribute hm hk hslot, List.filterMap_append,
    List.filterMap_cons_some hwritten]
  cases hslot with
  | @inPlace _ _ gap body hparts =>
    have hfound : (Piece.attribute key gap body).attribute? = some (key, decode body) := rfl
    rw [writtenAttributes, hparts, List.filterMap_append, List.filterMap_cons_some hfound,
      putEntry_middle hfree]
  | atEnd hnone =>
    have hend : [Piece.plain [' ']].filterMap Piece.attribute? = [] := rfl
    rw [List.filterMap_append, hend, List.append_nil] at hfree ⊢
    have hkey : key ∉ (writtenAttributes line).map Prod.fst := not_mem_keys_of_free hnone
    rw [← writtenAttributes, writtenAttributes_trimRight, putEntry_of_not_mem hkey, List.filterMap_nil]

/-- Between the key of an attribute and its opening mark stands no part of a name. -/
def HasGap : Piece → Prop
  | .plain _ => True
  | .attribute key gap _ =>
    IsName key ∧ ∃ between, gap = between ++ ['"'] ∧ ∀ c ∈ between, isWord c = false

theorem hasGap_of_mem_pieces (h : piece ∈ pieces text) : HasGap piece := by
  fun_induction pieces text with
  | case1 => simp at h
  | case2 c rest hc key gap body after hvalue ih =>
    rcases List.mem_cons.1 h with rfl | h
    · exact ⟨isName_takeWhile hc, exists_between_of_valueAfter? hvalue⟩
    · exact ih h
  | case3 c rest hc key hvalue ih =>
    rcases List.mem_cons.1 h with rfl | h
    · trivial
    · exact ih h
  | case4 c rest hc ih =>
    rcases List.mem_cons.1 h with rfl | h
    · trivial
    · exact ih h

/-- What setting an attribute changes: the gap and the value of one with the key, or the end. -/
theorem setAttribute_cases (line key value : Text) :
    (∃ left between body right, line = left ++ (key ++ (between ++ '"' :: (body ++ '"' :: right))) ∧
      IsName key ∧ (∀ c ∈ between, isWord c = false) ∧
      setAttribute line key value = left ++ (key ++ (writtenValue value ++ right))) ∨
    setAttribute line key value = trimRight line ++ ' ' :: (key ++ writtenValue value) := by
  obtain ⟨above, below, hslot⟩ := exists_slot key line
  rw [setAttribute_slot hslot]
  cases hslot with
  | @inPlace _ _ gap body h =>
    have hmem : .attribute key gap body ∈ pieces line := by simp [h]
    have hgap := hasGap_of_mem_pieces hmem
    obtain ⟨hkey, between, rfl, hbetween⟩ := hgap
    refine Or.inl ⟨above.flatMap Piece.source, between, body, below.flatMap Piece.source,
      ?_, hkey, hbetween, ?_⟩
    · rw [← source_pieces line, h]
      simp [Piece.source]
    · simp [source_written, renderAttribute_eq]
  | atEnd => exact Or.inr (by simp [source_written, source_pieces, source_plain, renderAttribute_eq])

end Swimlane
