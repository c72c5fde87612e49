import Swimlane.Diagram.Render
import Swimlane.Patch.Session
import Swimlane.Proofs.Diagram.LaneLine

/-! Lines that declare a node: how they are read, written and updated. -/
namespace Swimlane

open Text Escaped

/-- A name in a diagram: word characters, at least one. -/
def IsName (text : Text) : Prop := text ≠ [] ∧ ∀ c ∈ text, isWord c = true

instance : DecidablePred IsName := fun text =>
  decidable_of_iff (text ≠ [] ∧ text.all isWord = true) (and_congr_right' List.all_eq_true)

namespace Line

variable {c : Char} {text line head rest id key value handle : Text} {shape other : Shape}
  {attributes : Attributes}

theorem after?_eq_none {start : Text} (hs : start ≠ []) (h : start.head? ≠ text.head?) :
    after? start text = none := by
  cases start with
  | nil => exact absurd rfl hs
  | cons a start =>
    cases text with
    | nil => rfl
    | cons c rest => simp [after?, show a ≠ c by simpa using h]

theorem isWord_of_mem_name (h : c ∈ shape.name) : isWord c = true := by
  have hall : shape.name.all isWord = true := by
    cases shape <;> decide
  exact List.all_eq_true.1 hall c h

theorem isName_name (shape : Shape) : IsName shape.name := by
  refine ⟨?_, fun c hc => isWord_of_mem_name hc⟩
  cases shape <;> decide

/-- The names of the shapes differ in their first letters. -/
theorem head?_name_ne (h : other ≠ shape) : other.name.head? ≠ shape.name.head? := by
  cases other <;> cases shape <;> first | exact absurd rfl h | decide

theorem after?_name (h : other ≠ shape) : after? other.name (shape.name ++ rest) = none := by
  apply after?_eq_none (isName_name other).1
  rw [List.head?_append_of_ne_nil _ (isName_name shape).1]
  exact head?_name_ne h

theorem leadingShape?_name (hr : rest.head?.any isWord = false) :
    leadingShape? (shape.name ++ rest) = some (shape, rest) := by
  have hself : (after? shape.name (shape.name ++ rest)).bind (fun rest =>
      if rest.head?.any isWord then none else some (shape, rest)) = some (shape, rest) := by
    simp [after?_append, hr]
  rw [leadingShape?]
  cases shape <;> simp [Shape.all, List.findSome?, hself, after?_name]

theorem eq_of_leadingShape? (h : leadingShape? text = some (shape, rest)) :
    text = shape.name ++ rest ∧ rest.head?.any isWord = false := by
  obtain ⟨other, _, hother⟩ := List.exists_of_findSome?_eq_some h
  obtain ⟨after, hafter, hif⟩ := Option.bind_eq_some_iff.1 hother
  split at hif
  · simp at hif
  · next hw =>
    simp only [Option.some.injEq, Prod.mk.injEq] at hif
    obtain ⟨rfl, rfl⟩ := hif
    exact ⟨after?_eq_some hafter, by simpa using hw⟩

/-- What a node's line begins with: blanks, an identifier, a colon, blanks and a shape. -/
inductive NodeHead (id : Text) (shape : Shape) : Text → Prop
  | intro {margin gap : Text} (hm : ∀ c ∈ margin, isBlank c = true) (hid : IsName id)
      (hg : ∀ c ∈ gap, isBlank c = true) :
      NodeHead id shape (margin ++ (id ++ ':' :: (gap ++ shape.name)))

/-- What may stand behind the head of a node's line. -/
structure Tail (rest : Text) : Prop where
  word : rest.head?.any isWord = false
  arrow : mentions arrow rest = false
  closed : Closed rest

/-- A line that declares a node, whatever attributes it has. -/
def Declares (id : Text) (shape : Shape) (line : Text) : Prop :=
  ∃ head rest, line = head ++ rest ∧ NodeHead id shape head ∧ Tail rest

theorem not_mem_name (hid : IsName id) (hc : isWord c = false) : c ∉ id :=
  fun hm => by simp [hid.2 c hm] at hc

theorem takeWhile_name (hid : IsName id) (hc : isWord c = false) :
    (id ++ c :: rest).takeWhile isWord = id := by
  rw [List.takeWhile_append_of_pos hid.2, List.takeWhile_cons_of_neg (by simp [hc]),
    List.append_nil]

theorem dropWhile_name (hid : IsName id) (hc : isWord c = false) :
    (id ++ c :: rest).dropWhile isWord = c :: rest := by
  rw [List.dropWhile_append_of_pos hid.2, List.dropWhile_cons_of_neg (by simp [hc])]

theorem trimLeft_name (hid : IsName id) : trimLeft (id ++ rest) = id ++ rest := by
  obtain ⟨hne, hall⟩ := hid
  cases id with
  | nil => exact absurd rfl hne
  | cons c more => exact trimLeft_eq_self (by simp [isBlank_of_isWord (hall c (by simp))])

theorem trimLeft_append_name (hid : IsName id) (text rest : Text) :
    trimLeft (text ++ (id ++ rest)) = trimLeft text ++ (id ++ rest) := by
  by_cases ht : trimLeft text = []
  · rw [ht, trimLeft_margin (trimLeft_eq_nil_iff.1 ht), trimLeft_name hid, List.nil_append]
  · exact trimLeft_append ht

theorem takeWhile_append_name (hid : IsName id) (text rest : Text) :
    (text ++ (id ++ rest)).takeWhile isBlank = text.takeWhile isBlank := by
  obtain ⟨d, others, rfl⟩ := List.exists_cons_of_ne_nil hid.1
  have hblank : isBlank d = false := isBlank_of_isWord (hid.2 d List.mem_cons_self)
  induction text with
  | nil => simp [hblank]
  | cons c more ih =>
    by_cases hc : isBlank c = true
    · rw [List.cons_append, List.takeWhile_cons_of_pos hc, List.takeWhile_cons_of_pos hc, ih]
    · rw [List.cons_append, List.takeWhile_cons_of_neg hc, List.takeWhile_cons_of_neg hc]

/-- The margin of a text that goes on with a name. -/
theorem takeWhile_margin {margin : Text} (hm : ∀ c ∈ margin, isBlank c = true) (hid : IsName id)
    (rest : Text) : (margin ++ (id ++ rest)).takeWhile isBlank = margin := by
  rw [takeWhile_append_name hid, List.takeWhile_eq_self_iff.2 hm]

theorem nodeHead?_eq_some_iff : nodeHead? text = some (id, shape, rest) ↔
    ∃ gap, text = id ++ ':' :: (gap ++ (shape.name ++ rest)) ∧ IsName id ∧
      (∀ c ∈ gap, isBlank c = true) ∧ rest.head?.any isWord = false := by
  constructor
  · intro h
    rw [nodeHead?] at h
    split at h
    · simp at h
    · next hne =>
      obtain ⟨after, hafter, hshape⟩ := Option.bind_eq_some_iff.1 h
      obtain ⟨⟨found, more⟩, hfound, heq⟩ := Option.map_eq_some_iff.1 hshape
      simp only [Prod.mk.injEq] at heq
      obtain ⟨rfl, rfl, rfl⟩ := heq
      obtain ⟨htext, hword⟩ := eq_of_leadingShape? hfound
      obtain ⟨gap, hgap, hblank⟩ := exists_trimLeft after
      refine ⟨gap, ?_, ⟨by simpa using hne, fun c hc => ?_⟩, hblank, hword⟩
      · rw [← htext, ← hgap]
        have hsplit := List.takeWhile_append_dropWhile (p := isWord) (l := text)
        rw [after?_eq_some hafter] at hsplit
        exact hsplit.symm
      · exact List.all_eq_true.1 List.all_takeWhile c hc
  · rintro ⟨gap, rfl, hid, hgap, hword⟩
    have hcolon : isWord ':' = false := by decide
    have hne : id.isEmpty = false := by simpa using hid.1
    rw [nodeHead?, takeWhile_name hid hcolon, dropWhile_name hid hcolon, hne]
    simp only [Bool.false_eq_true, if_false, after?, if_true, Option.bind_some]
    rw [trimLeft_margin hgap, trimLeft_name (isName_name shape), leadingShape?_name hword]
    rfl

theorem node?_eq_some_iff {found : Line} : node? text = some found ↔
    mentions arrow text = false ∧ ∃ id shape rest, nodeHead? text = some (id, shape, rest) ∧
      '\n' ∉ trimLeft rest ∧ found = .node id shape (readAttributes (trimLeft rest)) := by
  rw [node?]
  split
  · next h => simp [h]
  · next h =>
    cases hn : nodeHead? text with
    | none => simp
    | some parts =>
      obtain ⟨id, shape, rest⟩ := parts
      by_cases hbreak : '\n' ∈ trimLeft rest
      · simp [h, hbreak]
      · simp [h, hbreak, eq_comm]

theorem suffix_of_handle? (h : handle? text = some (handle, rest)) : rest <:+ text := by
  obtain ⟨more, hmore, hhandle⟩ := Option.bind_eq_some_iff.1 h
  dsimp only at hhandle
  split at hhandle
  · simp at hhandle
  · next c after hafter =>
    split at hhandle
    · simp at hhandle
    · cases hhandle
      have hsuffix := (List.suffix_cons c rest).trans (hafter ▸ List.dropWhile_suffix (· ≠ ')'))
      rw [after?_eq_some hmore]
      exact hsuffix.trans (List.suffix_append _ more)

/-- An end of an edge that is read leads on with a rest of the text. -/
theorem exists_of_endPointFrom? {α : Type} {lead : EndPoint → Option α} {before : Text}
    {found : α} (h : endPointFrom? lead before text = some found) :
    ∃ point, lead point = some found ∧ point.rest <:+ text := by
  induction text generalizing before with
  | nil => simp [endPointFrom?] at h
  | cons c rest ih =>
    rw [endPointFrom?] at h
    split at h
    · next hlead =>
      obtain ⟨⟨handle, after⟩, hhandle, hpoint⟩ := Option.bind_eq_some_iff.1 hlead
      refine ⟨_, hpoint.trans h, ?_⟩
      split at hhandle
      · simp at hhandle
      · exact suffix_of_handle? hhandle
    · split at h
      · simp at h
      · obtain ⟨point, hpoint, hsuffix⟩ := ih h
        exact ⟨point, hpoint, hsuffix.trans (List.suffix_cons c rest)⟩

theorem exists_of_edge? {found : Line} (h : edge? text = some found) :
    ∃ source target sourceHandle targetHandle label,
      found = .edge source target sourceHandle targetHandle label := by
  obtain ⟨source, hsource, _⟩ := exists_of_endPointFrom? h
  obtain ⟨rest, _, hrest⟩ := Option.bind_eq_some_iff.1 hsource
  obtain ⟨target, _, rfl⟩ := Option.map_eq_some_iff.1 hrest
  exact ⟨_, _, _, _, _, rfl⟩

theorem node?_close : node? ['\x7d'] = none := by
  have hhead : nodeHead? ['\x7d'] = none := by decide
  simp [node?, hhead]

theorem exists_of_node? {found : Line} (h : node? text = some found) :
    ∃ id shape attributes, found = .node id shape attributes := by
  obtain ⟨_, id, shape, rest, _, _, rfl⟩ := node?_eq_some_iff.1 h
  exact ⟨_, _, _, rfl⟩

/-- The first that fits of a lane, a closing brace, a node and an edge; else the line is passed over. -/
inductive FirstFit (line : Text) : Line → Prop
  | laneOpen {id : Text} {label : Option Text}
      (hl : laneOpen? (trim line) = some (.laneOpen id label)) : FirstFit line (.laneOpen id label)
  | laneClose (hl : laneOpen? (trim line) = none) (hc : trim line = ['\x7d']) : FirstFit line .laneClose
  | node {id : Text} {shape : Shape} {attributes : Attributes} (hl : laneOpen? (trim line) = none)
      (hc : trim line ≠ ['\x7d']) (hn : node? (trim line) = some (.node id shape attributes)) :
      FirstFit line (.node id shape attributes)
  | edge {source target : Reference} {sourceHandle targetHandle : Text} {label : Option Text}
      (hl : laneOpen? (trim line) = none) (hc : trim line ≠ ['\x7d']) (hn : node? (trim line) = none)
      (he : edge? (trim line) = some (.edge source target sourceHandle targetHandle label)) :
      FirstFit line (.edge source target sourceHandle targetHandle label)
  | skipped (hl : laneOpen? (trim line) = none) (hc : trim line ≠ ['\x7d'])
      (hn : node? (trim line) = none) (he : edge? (trim line) = none) :
      FirstFit line (.skipped (trim line) (skipKind (trim line)))

theorem firstFit_read (line : Text) : FirstFit line (read line) := by
  rw [read]
  cases hlane : laneOpen? (trim line) with
  | some opened =>
    obtain ⟨⟨name, label⟩, _, rfl⟩ := Option.map_eq_some_iff.1 hlane
    exact .laneOpen hlane
  | none =>
    by_cases hclose : trim line = ['\x7d']
    · simpa only [if_pos hclose] using .laneClose hlane hclose
    · simp only [if_neg hclose]
      cases hnode : node? (trim line) with
      | some declared =>
        obtain ⟨id, shape, attributes, rfl⟩ := exists_of_node? hnode
        exact .node hlane hclose hnode
      | none =>
        cases hedge : edge? (trim line) with
        | some declared =>
          obtain ⟨source, target, sourceHandle, targetHandle, label, rfl⟩ := exists_of_edge? hedge
          exact .edge hlane hclose hnode hedge
        | none => exact .skipped hlane hclose hnode hedge

theorem read_eq_node_iff : read line = .node id shape attributes ↔
    laneOpen? (trim line) = none ∧ node? (trim line) = some (.node id shape attributes) := by
  have hfit := firstFit_read line
  constructor
  · intro h
    rw [h] at hfit
    cases hfit with
    | node hl _ hn => exact ⟨hl, hn⟩
  · rintro ⟨hl, hn⟩
    generalize read line = declared at hfit ⊢
    cases hfit with
    | laneOpen ho => simp [hl] at ho
    | laneClose _ hc => simp [hc, node?_close] at hn
    | node _ _ hd => exact Option.some.inj (hd.symm.trans hn)
    | edge _ _ hd _ => simp [hd] at hn
    | skipped _ _ hd _ => simp [hd] at hn

theorem laneOpen?_of_read {label : Option Text} (h : read line = .laneOpen id label) :
    laneOpen? (trim line) = some (.laneOpen id label) := by
  have hfit := firstFit_read line
  rw [h] at hfit
  cases hfit with
  | laneOpen hl => exact hl

theorem trim_of_read_close (h : read line = .laneClose) : trim line = ['\x7d'] := by
  have hfit := firstFit_read line
  rw [h] at hfit
  cases hfit with
  | laneClose _ hc => exact hc

/-- A line that closes a lane has no character but its brace and blanks. -/
theorem trim_ne_close (hc : c ∈ line) (hb : isBlank c = false) (hne : c ≠ '\x7d') :
    trim line ≠ ['\x7d'] := by
  intro hclose
  obtain ⟨left, right, hline, hl, hr⟩ := exists_margins line
  rw [hline, hclose] at hc
  simp only [List.mem_append, List.mem_singleton] at hc
  rcases hc with (hc | hc) | hc
  · simp [hl c hc] at hb
  · exact hne hc
  · simp [hr c hc] at hb

theorem mem_of_laneOpenFrom? {before name label : Text}
    (h : laneOpenFrom? before text = some (name, label)) (hc : c ∈ name) : c ∈ before ∨ c ∈ text := by
  induction text generalizing before with
  | nil => simp [laneOpenFrom?] at h
  | cons d rest ih =>
    have hmore : laneOpenFrom? (d :: before) rest = some (name, label) → c ∈ before ∨ c ∈ d :: rest := by
      intro hrest
      rcases ih hrest with hm | hm
      · rcases List.mem_cons.1 hm with rfl | hm
        · exact Or.inr List.mem_cons_self
        · exact Or.inl hm
      · exact Or.inr (List.mem_cons_of_mem d hm)
    rw [laneOpenFrom?] at h
    split at h
    · dsimp only at h
      split at h
      · split at h
        · simp at h
        · simp only [Option.some.injEq, Prod.mk.injEq] at h
          rw [← h.1, List.mem_reverse] at hc
          exact Or.inl (List.dropWhile_subset _ hc)
      · exact hmore h
    · exact hmore h

/-- The id of a lane stands in the line that opens it. -/
theorem mem_of_read_laneOpen {label : Option Text} (h : read line = .laneOpen id label)
    (hc : c ∈ id) : c ∈ line := by
  obtain ⟨⟨name, written⟩, hfrom, hopen⟩ := Option.map_eq_some_iff.1 (laneOpen?_of_read h)
  simp only [Line.laneOpen.injEq] at hopen
  rcases mem_of_laneOpenFrom? hfrom (hopen.1 ▸ hc) with hm | hm
  · simp at hm
  · exact mem_of_mem_trim hm

theorem nodeHead_isWord (h : NodeHead id shape head) : ∃ c ∈ head.getLast?, isWord c = true := by
  cases h with
  | intro hm hid hg =>
    obtain ⟨hne, hall⟩ := isName_name shape
    refine ⟨shape.name.getLast hne, ?_, hall _ (List.getLast_mem hne)⟩
    simp [List.getLast?_append, List.getLast?_cons, List.getLast?_eq_some_getLast hne]

/-- The head of a node's line has only blanks, word characters and its colon. -/
theorem nodeHead_mem (h : NodeHead id shape head) (hc : c ∈ head) :
    isBlank c = true ∨ isWord c = true ∨ c = ':' := by
  cases h with
  | intro hm hid hg =>
    simp only [List.mem_append, List.mem_cons] at hc
    rcases hc with hc | hc | hc | hc | hc
    · exact Or.inl (hm c hc)
    · exact Or.inr (Or.inl (hid.2 c hc))
    · exact Or.inr (Or.inr hc)
    · exact Or.inl (hg c hc)
    · exact Or.inr (Or.inl (isWord_of_mem_name hc))

theorem nodeHead_not_mem (h : NodeHead id shape head) (hb : isBlank c = false)
    (hw : isWord c = false) (hc : c ≠ ':') : c ∉ head := by
  intro hm
  rcases nodeHead_mem h hm with h | h | h
  · simp [h] at hb
  · simp [h] at hw
  · exact hc h

theorem mentions_arrow_of_not_mem (h : '-' ∉ text) : mentions arrow text = false := by
  cases hm : mentions arrow text with
  | false => rfl
  | true => exact absurd ((mentions_iff.1 hm).subset (by simp [arrow])) h

theorem mentions_arrow_of_blanks (h : ∀ c ∈ text, isBlank c = true) :
    mentions arrow text = false := by
  apply mentions_arrow_of_not_mem
  intro hm
  exact absurd (h '-' hm) (by decide)

theorem mentions_arrow_of_isInfix (h : text <:+: line) (hl : mentions arrow line = false) :
    mentions arrow text = false := by
  cases hm : mentions arrow text with
  | false => rfl
  | true => simp [mentions_of_isInfix h hm] at hl

theorem mentions_arrow_append (ht : mentions arrow text = false) (hr : mentions arrow rest = false)
    (h : text.getLast? ≠ some '-' ∨ rest.head? ≠ some '>') :
    mentions arrow (text ++ rest) = false := by
  cases hm : mentions arrow (text ++ rest) with
  | false => rfl
  | true =>
    rcases mentions_pair_append.1 hm with hm | hm | ⟨hlast, hhead⟩
    · exact absurd (hm.symm.trans ht) (by simp)
    · exact absurd (hm.symm.trans hr) (by simp)
    · rcases h with h | h
      · exact absurd hlast h
      · exact absurd hhead h

theorem mentions_arrow_append_blanks (h : mentions arrow text = false)
    (hb : ∀ c ∈ rest, isBlank c = true) : mentions arrow (text ++ rest) = false := by
  refine mentions_arrow_append h (mentions_arrow_of_blanks hb) (Or.inr fun hhead => ?_)
  exact absurd (hb '>' (List.mem_of_mem_head? hhead)) (by decide)

theorem mentions_arrow_append_nodeHead (hh : NodeHead id shape head)
    (hr : mentions arrow rest = false) : mentions arrow (head ++ rest) = false := by
  have hdash : '-' ∉ head := nodeHead_not_mem hh (by decide) (by decide) (by decide)
  apply mentions_arrow_append (mentions_arrow_of_not_mem hdash) hr
  exact Or.inl fun hlast => hdash (List.mem_of_getLast? hlast)

theorem closed_append_nodeHead (hh : NodeHead id shape head) (hr : Closed rest) :
    Closed (head ++ rest) :=
  closed_append (closed_of_not_mem (nodeHead_not_mem hh (by decide) (by decide) (by decide))) hr

theorem nodeHead_bare {gap : Text} (shape : Shape) (hid : IsName id)
    (hg : ∀ c ∈ gap, isBlank c = true) : NodeHead id shape (id ++ ':' :: (gap ++ shape.name)) := by
  have hhead : NodeHead id shape ([] ++ (id ++ ':' :: (gap ++ shape.name))) :=
    .intro (by simp) hid hg
  exact hhead

theorem trim_append_nodeHead {margin gap : Text} (hm : ∀ c ∈ margin, isBlank c = true)
    (hid : IsName id) (hg : ∀ c ∈ gap, isBlank c = true) :
    trim (margin ++ (id ++ ':' :: (gap ++ shape.name)) ++ rest) =
      id ++ ':' :: (gap ++ shape.name) ++ trimRight rest := by
  obtain ⟨c, hc, hw⟩ := nodeHead_isWord (nodeHead_bare shape hid hg)
  rw [trim, List.append_assoc, trimLeft_margin hm, List.append_assoc, trimLeft_name hid,
    ← List.append_assoc, trimRight_append ⟨c, hc, isBlank_of_isWord hw⟩]

theorem isWord_head?_trimRight (h : rest.head?.any isWord = false) :
    (trimRight rest).head?.any isWord = false := by
  obtain ⟨right, hright, _⟩ := exists_trimRight rest
  cases ht : trimRight rest with
  | nil => rfl
  | cons c more =>
    rw [hright, ht] at h
    simpa using h

theorem mentions_arrow_trimRight (h : mentions arrow rest = false) :
    mentions arrow (trimRight rest) = false := by
  obtain ⟨right, hright, _⟩ := exists_trimRight rest
  exact mentions_arrow_of_isInfix ⟨[], right, by simpa using hright.symm⟩ h

theorem tail_trimRight (h : Tail rest) : Tail (trimRight rest) := by
  obtain ⟨right, hright, hblank⟩ := exists_trimRight rest
  exact ⟨isWord_head?_trimRight h.word, mentions_arrow_trimRight h.arrow,
    closed_of_append_blanks hblank (hright ▸ h.closed)⟩

theorem mentions_arrow_trim (h : mentions arrow (trim line) = false) :
    mentions arrow line = false := by
  obtain ⟨left, right, hline, hleft, hright⟩ := exists_margins line
  have hend : ∀ {blanks : Text}, (∀ c ∈ blanks, isBlank c = true) → ∀ c, isBlank c = false →
      c ∉ blanks := fun hblanks c hc hm => by simp [hblanks c hm] at hc
  rw [hline]
  refine mentions_arrow_append (mentions_arrow_append (mentions_arrow_of_blanks hleft) h
    (Or.inl fun hlast => ?_)) (mentions_arrow_of_blanks hright) (Or.inr fun hhead => ?_)
  · exact hend hleft '-' (by decide) (List.mem_of_getLast? hlast)
  · exact hend hright '>' (by decide) (List.mem_of_mem_head? hhead)

/-- A line that opens no lane is read as a node's with the attributes that are written behind its shape. -/
theorem read_nodeHead (hh : NodeHead id shape head) (hw : rest.head?.any isWord = false)
    (ha : mentions arrow rest = false) (hn : '\n' ∉ trimLeft (trimRight rest))
    (hl : laneOpen? (trim (head ++ rest)) = none) :
    read (head ++ rest) = .node id shape (readAttributes (trimLeft (trimRight rest))) := by
  refine read_eq_node_iff.2 ⟨hl, ?_⟩
  cases hh with
  | intro hm hid hg =>
    rw [trim_append_nodeHead hm hid hg]
    exact node?_eq_some_iff.2 ⟨mentions_arrow_append_nodeHead (nodeHead_bare shape hid hg)
      (mentions_arrow_trimRight ha), id, shape, trimRight rest,
      nodeHead?_eq_some_iff.2 ⟨_, by simp, hid, hg, isWord_head?_trimRight hw⟩, hn, rfl⟩

/-- A node is read with the attributes that are written behind its shape. -/
theorem read_append (hh : NodeHead id shape head) (hr : Tail rest) (hn : '\n' ∉ rest) :
    read (head ++ rest) = .node id shape (readAttributes (trimLeft (trimRight rest))) := by
  refine read_nodeHead hh hr.word hr.arrow (fun hm => ?_) (laneOpen?_eq_none ?_)
  · obtain ⟨right, hright, _⟩ := exists_trimRight rest
    exact hn (hright ▸ List.mem_append_left right (List.dropWhile_subset _ hm))
  · cases hh with
    | intro hm hid hg =>
      rw [trim_append_nodeHead hm hid hg]
      exact closed_append_nodeHead (nodeHead_bare shape hid hg) (tail_trimRight hr).closed

theorem read_of_declares (h : Declares id shape line) (hn : '\n' ∉ line) :
    ∃ attributes, read line = .node id shape attributes := by
  obtain ⟨head, rest, rfl, hh, hr⟩ := h
  exact ⟨_, read_append hh hr fun hm => hn (List.mem_append_right head hm)⟩

theorem not_isWord_append_blanks {blanks : Text} (h : text.head?.any isWord = false)
    (hb : ∀ c ∈ blanks, isBlank c = true) : (text ++ blanks).head?.any isWord = false := by
  cases text with
  | nil =>
    cases blanks with
    | nil => rfl
    | cons c more => simpa using isWord_of_isBlank (hb c List.mem_cons_self)
  | cons c more => simpa using h

/-- A line with a node's head: its margin, the head, what follows it, and the blanks at the end. -/
theorem exists_margins_of_nodeHead? (h : nodeHead? (trim line) = some (id, shape, rest)) :
    ∃ margin gap blanks : Text, line = margin ++ (id ++ ':' :: (gap ++ shape.name)) ++ (rest ++ blanks) ∧
      trim line = id ++ ':' :: (gap ++ shape.name) ++ rest ∧ (∀ c ∈ margin, isBlank c = true) ∧ IsName id ∧
      (∀ c ∈ gap, isBlank c = true) ∧ (∀ c ∈ blanks, isBlank c = true) ∧ rest.head?.any isWord = false := by
  obtain ⟨gap, htrim, hid, hg, hword⟩ := nodeHead?_eq_some_iff.1 h
  obtain ⟨margin, blanks, hline, hm, hb⟩ := exists_margins line
  have hcut : trim line = id ++ ':' :: (gap ++ shape.name) ++ rest := by
    rw [htrim]
    simp
  refine ⟨margin, gap, blanks, ?_, hcut, hm, hid, hg, hb, hword⟩
  rw [hline, hcut]
  simp

/-- A line that is read as a node's is its head and a rest, with the blanks that end the line. -/
theorem exists_nodeHead_of_read (h : read line = .node id shape attributes) :
    ∃ head gap rest right, line = head ++ (rest ++ right) ∧ NodeHead id shape head ∧
      trim line = id ++ ':' :: (gap ++ (shape.name ++ rest)) ∧
      (rest ++ right).head?.any isWord = false ∧ ∀ c ∈ right, isBlank c = true := by
  obtain ⟨_, hnode⟩ := read_eq_node_iff.1 h
  obtain ⟨_, found, other, rest, hhead, _, heq⟩ := node?_eq_some_iff.1 hnode
  cases heq
  obtain ⟨margin, gap, right, hline, htrim, hm, hid, hgap, hr, hword⟩ := exists_margins_of_nodeHead? hhead
  exact ⟨_, gap, rest, right, hline, .intro hm hid hgap, by simp [htrim],
    not_isWord_append_blanks hword hr, hr⟩

theorem declares_of_read (hn : '\n' ∉ line) (h : read line = .node id shape attributes) :
    Declares id shape line := by
  obtain ⟨hlane, hnode⟩ := read_eq_node_iff.1 h
  have harrow := (node?_eq_some_iff.1 hnode).1
  obtain ⟨head, gap, rest, right, hline, hhead, htrim, hword, hr⟩ := exists_nodeHead_of_read h
  refine ⟨head, rest ++ right, hline, hhead, hword, ?_, ?_⟩
  · have hrest : rest <:+: trim line := ⟨id ++ ':' :: (gap ++ shape.name), [], by simp [htrim]⟩
    exact mentions_arrow_append_blanks (mentions_arrow_of_isInfix hrest harrow) hr
  · have hid : IsName id := by
      cases hhead with
      | intro _ hid _ => exact hid
    obtain ⟨c, more, hc⟩ := List.exists_cons_of_ne_nil hid.1
    have hbreak : '\n' ∉ trim line := fun hm => hn (mem_of_mem_trim hm)
    rw [htrim, hc, List.cons_append] at hlane hbreak
    have hclosed := (laneOpen?_eq_none_iff hbreak).1 hlane
    have hbrace : '\x7b' ∉ right := fun hm => absurd (hr _ hm) (by decide)
    exact closed_append (closed_of_append (closed_of_append (closed_of_append hclosed).2))
      (closed_of_not_mem hbrace)

end Line

end Swimlane
