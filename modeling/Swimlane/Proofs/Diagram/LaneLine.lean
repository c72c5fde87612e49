import Swimlane.Diagram.Line
import Swimlane.Proofs.Text.Breaks
import Swimlane.Proofs.Text.Escape

/-! Which braces open a lane: one with nothing behind it but blanks, or a number sign after them. -/
namespace Swimlane.Line

open Text Escaped

variable {c : Char} {text left core before rest : Text}

/-- Whether what follows a brace keeps it from opening a lane. -/
def Blocks (rest : Text) : Prop := ∃ c ∈ (trimLeft rest).head?, c ≠ '#'

/-- No brace of the text opens a lane. -/
def Closed : Text → Prop
  | [] => True
  | c :: rest => (c = '\x7b' → Blocks rest) ∧ Closed rest

/-- Whether a brace with a label's number sign after it stands in a text. -/
def opensLabel : Text → Bool
  | [] => false
  | c :: rest => (c = '\x7b' && (trimLeft rest).head? = some '#') || opensLabel rest

theorem laneLabel?_eq_none_iff (hn : '\n' ∉ rest) : laneLabel? rest = none ↔ Blocks rest := by
  cases ht : trimLeft rest with
  | nil => simp [laneLabel?, Blocks, ht]
  | cons d tail =>
    have htail : '\n' ∉ trimLeft tail := by
      intro hmem
      have hd : '\n' ∈ trimLeft rest := by
        rw [ht]
        exact List.mem_cons_of_mem d (List.dropWhile_subset _ hmem)
      exact hn (List.dropWhile_subset isBlank hd)
    simp [laneLabel?, Blocks, ht, htail]

theorem laneLabel?_eq_none (h : Blocks rest) : laneLabel? rest = none := by
  obtain ⟨c, hc, hne⟩ := h
  cases ht : trimLeft rest with
  | nil => simp [ht] at hc
  | cons d tail =>
    rw [ht, List.head?_cons, Option.mem_some_iff] at hc
    subst hc
    simp [laneLabel?, ht, hne]

theorem laneOpenFrom?_eq_none (h : Closed text) : laneOpenFrom? before text = none := by
  induction text generalizing before with
  | nil => rfl
  | cons c rest ih =>
    rw [laneOpenFrom?]
    split
    · next hc =>
      simp only [Bool.and_eq_true, decide_eq_true_eq] at hc
      simp only [laneLabel?_eq_none (h.1 hc.1)]
      exact ih h.2
    · exact ih h.2

theorem laneOpenFrom?_cons_eq_none_iff (hne : before ≠ []) (hb : '\n' ∉ before.dropWhile isBlank)
    (hn : '\n' ∉ rest) : laneOpenFrom? before (c :: rest) = none ↔
      (c = '\x7b' → Blocks rest) ∧ laneOpenFrom? (c :: before) rest = none := by
  rw [laneOpenFrom?]
  by_cases hc : c = '\x7b'
  · cases hl : laneLabel? rest with
    | some label =>
      have hblocks : ¬ Blocks rest := fun h => by simp [laneLabel?_eq_none h] at hl
      simp [hc, hne, hb, hblocks]
    | none =>
      have hblocks : Blocks rest := (laneLabel?_eq_none_iff hn).1 hl
      simp [hc, hblocks]
  · simp [hc]

theorem laneOpenFrom?_eq_none_iff (hne : before ≠ []) (hb : '\n' ∉ before) (hn : '\n' ∉ text) :
    laneOpenFrom? before text = none ↔ Closed text := by
  induction text generalizing before with
  | nil => exact iff_of_true rfl trivial
  | cons c rest ih =>
    rw [List.mem_cons, not_or] at hn
    have hmore : '\n' ∉ c :: before := by
      rw [List.mem_cons, not_or]
      exact ⟨hn.1, hb⟩
    rw [laneOpenFrom?_cons_eq_none_iff hne (fun hm => hb (List.dropWhile_subset _ hm)) hn.2,
      ih (by simp) hmore hn.2, Closed]

/-- A line opens no lane if none of its braces does; one in the first place does not count. -/
theorem laneOpen?_eq_none_iff (hn : '\n' ∉ c :: rest) :
    laneOpen? (c :: rest) = none ↔ Closed rest := by
  have hfirst : laneOpenFrom? [] (c :: rest) = laneOpenFrom? [c] rest := by
    simp [laneOpenFrom?]
  rw [List.mem_cons, not_or] at hn
  rw [laneOpen?, Option.map_eq_none_iff, hfirst]
  exact laneOpenFrom?_eq_none_iff (by simp) (by simpa using hn.1) hn.2

theorem laneOpen?_eq_none (h : Closed text) : laneOpen? text = none := by
  rw [laneOpen?, laneOpenFrom?_eq_none h]
  rfl

theorem closed_of_not_mem (h : '\x7b' ∉ text) : Closed text := by
  induction text with
  | nil => trivial
  | cons c rest ih =>
    refine ⟨fun hc => ?_, ih fun hm => h (List.mem_cons_of_mem c hm)⟩
    exact absurd (hc ▸ List.mem_cons_self) h

/-- A character that is no blank settles what follows a brace before it. -/
theorem blocks_append (h : ∃ c ∈ text, isBlank c = false) :
    Blocks (text ++ rest) ↔ Blocks text := by
  have hne : trimLeft text ≠ [] := by
    obtain ⟨c, hc, hb⟩ := h
    intro hnil
    simp [trimLeft_eq_nil_iff.1 hnil c hc] at hb
  rw [Blocks, Blocks, trimLeft_append hne]
  cases ht : trimLeft text with
  | nil => exact absurd ht hne
  | cons d tail => simp

theorem exists_of_blocks (h : Blocks text) : ∃ c ∈ text, isBlank c = false := by
  obtain ⟨c, hc, _⟩ := h
  exact ⟨c, List.dropWhile_subset _ (List.mem_of_mem_head? hc), head?_trimLeft c hc⟩

theorem closed_append (ht : Closed text) (hr : Closed rest) : Closed (text ++ rest) := by
  induction text with
  | nil => exact hr
  | cons c more ih =>
    refine ⟨fun hc => ?_, ih ht.2⟩
    exact (blocks_append (exists_of_blocks (ht.1 hc))).2 (ht.1 hc)

theorem closed_of_append (h : Closed (text ++ rest)) : Closed rest := by
  induction text with
  | nil => exact h
  | cons c more ih => exact ih h.2

/-- A part that ends in a word has what follows its braces in itself. -/
theorem closed_of_append_left (hw : ∃ c ∈ text.getLast?, isWord c = true)
    (h : Closed (text ++ rest)) : Closed text := by
  induction text with
  | nil => trivial
  | cons c more ih =>
    cases more with
    | nil =>
      obtain ⟨d, hd, hw⟩ := hw
      have he : c = d := by simpa using hd
      subst he
      refine ⟨fun hc => ?_, trivial⟩
      rw [hc] at hw
      exact absurd hw (by decide)
    | cons d tail =>
      rw [List.getLast?_cons_cons] at hw
      refine ⟨fun hc => ?_, ih hw h.2⟩
      obtain ⟨e, he, hword⟩ := hw
      refine (blocks_append ⟨e, List.mem_of_getLast? he, isBlank_of_isWord hword⟩).1 (h.1 hc)

theorem closed_of_append_blanks (hb : ∀ c ∈ rest, isBlank c = true)
    (h : Closed (text ++ rest)) : Closed text := by
  induction text with
  | nil => trivial
  | cons c more ih =>
    refine ⟨fun hc => ?_, ih h.2⟩
    have hblocks : Blocks (more ++ rest) := h.1 hc
    obtain ⟨d, hd, hblank⟩ := exists_of_blocks hblocks
    rcases List.mem_append.1 hd with hd | hd
    · exact (blocks_append ⟨d, hd, hblank⟩).1 hblocks
    · simp [hb d hd] at hblank

/-- Before a character that is no blank only a label's number sign lets a brace open a lane. -/
theorem closed_append_cons (hb : isBlank c = false) (hs : c ≠ '#') (ho : c ≠ '\x7b') :
    Closed (text ++ c :: rest) ↔ opensLabel text = false ∧ Closed rest := by
  induction text with
  | nil => simp [Closed, opensLabel, ho]
  | cons d more ih =>
    have hblocks : Blocks (more ++ c :: rest) ↔ (trimLeft more).head? ≠ some '#' := by
      cases ht : trimLeft more with
      | nil =>
        rw [Blocks, trimLeft_margin (trimLeft_eq_nil_iff.1 ht), trimLeft_eq_self (by simp [hb])]
        simp [hs]
      | cons e tail =>
        rw [Blocks, trimLeft_append (by simp [ht]), ht]
        simp
    rw [List.cons_append, Closed, ih, hblocks, opensLabel]
    by_cases hd : d = '\x7b' <;> simp [hd, and_assoc]

theorem closed_append_iff (h : '\x7b' ∉ text) : Closed (text ++ rest) ↔ Closed rest :=
  ⟨closed_of_append, closed_append (closed_of_not_mem h)⟩

theorem opensLabel_escape (text : Text) : opensLabel (escape text) = opensLabel text := by
  induction text with
  | nil => rfl
  | cons c rest ih =>
    have hhead : (trimLeft (escape rest)).head? = some '#' ↔ (trimLeft rest).head? = some '#' := by
      rw [trimLeft_escape]
      exact head?_escape (by decide) (by decide)
    rw [escape_cons, escapeChar]
    split
    · next h =>
      have hc : c ≠ '\x7b' := by rcases h with rfl | rfl <;> decide
      simp [opensLabel, hc, ih]
    · simp [opensLabel, ih, hhead]

theorem opensLabel_eq_false_of_not_mem (h : '\x7b' ∉ text) : opensLabel text = false := by
  induction text with
  | nil => rfl
  | cons c rest ih =>
    have hc : c ≠ '\x7b' := fun he => h (he ▸ List.mem_cons_self)
    simp [opensLabel, hc, ih fun hm => h (List.mem_cons_of_mem c hm)]

theorem laneOpenFrom?_append (hb : '\x7b' ∉ left) :
    laneOpenFrom? before (left ++ text) = laneOpenFrom? (left.reverse ++ before) text := by
  induction left generalizing before with
  | nil => rfl
  | cons c more ih =>
    rw [List.mem_cons, not_or] at hb
    rw [List.cons_append, laneOpenFrom?, if_neg (by simp [Ne.symm hb.1]), ih hb.2]
    simp

/-- A lane's name stands on one line. -/
theorem laneOpenFrom?_of_break (h : '\n' ∈ before.dropWhile isBlank) :
    laneOpenFrom? before text = none := by
  induction text generalizing before with
  | nil => rfl
  | cons c rest ih =>
    have hmore : '\n' ∈ (c :: before).dropWhile isBlank := by
      by_cases hc : isBlank c = true
      · rwa [List.dropWhile_cons_of_pos hc]
      · rw [List.dropWhile_cons_of_neg hc]
        exact List.mem_cons_of_mem c (List.dropWhile_subset _ h)
    have hname : (before.dropWhile isBlank).reverse.contains '\n' = true := by simpa using h
    rw [laneOpenFrom?, ih hmore]
    simp only [hname]
    split
    · split <;> rfl
    · rfl

/-- No brace opens a lane behind some blanks and what stands before them on one line. If a line breaks
in the blanks, only a brace that follows them can. -/
def Shut (text : Text) : Prop := ∀ c rest, trimLeft text = c :: rest →
  (c = '\x7b' → Blocks rest) ∧ ('\n' ∈ text.takeWhile isBlank ∨ Closed rest)

theorem shut_iff (h : trimLeft text = c :: rest) : Shut text ↔
    (c = '\x7b' → Blocks rest) ∧ ('\n' ∈ text.takeWhile isBlank ∨ Closed rest) := by
  refine ⟨fun hs => hs c rest h, fun hs d more hd => ?_⟩
  obtain ⟨rfl, rfl⟩ := List.cons.inj (h.symm.trans hd)
  exact hs

theorem shut_of_blanks (h : trimLeft text = []) : Shut text := fun c rest hc => by simp [h] at hc

/-- Behind a part without braces a lane is opened, unless a line breaks before. -/
theorem laneOpen?_append_eq_none_iff (hb : '\x7b' ∉ core) (hl : ∃ c ∈ core.getLast?, isBlank c = false)
    (hn : '\n' ∉ trimLeft text) : laneOpen? (core ++ text) = none ↔ '\n' ∈ core ∨ Shut text := by
  have hne : core ≠ [] := by
    rintro rfl
    simp at hl
  have hcore : core.reverse.dropWhile isBlank = core.reverse := by
    obtain ⟨c, hc, hblank⟩ := hl
    apply trimLeft_eq_self
    intro d hd
    rw [List.head?_reverse] at hd
    rwa [Option.mem_unique hd hc]
  rw [laneOpen?, Option.map_eq_none_iff, laneOpenFrom?_append hb, List.append_nil]
  -- What stands before a brace is a lane's name, without the blanks at its end: a line break in the part
  -- itself is in every name, one in the blanks is in each but that of a brace right behind them.
  by_cases hbreak : '\n' ∈ core
  · exact iff_of_true (laneOpenFrom?_of_break (by rw [hcore]; simpa using hbreak)) (Or.inl hbreak)
  · have hblanks : ∀ c ∈ text.takeWhile isBlank, isBlank c = true :=
      List.all_eq_true.1 List.all_takeWhile
    have hopen : '\x7b' ∉ text.takeWhile isBlank := fun hm => absurd (hblanks _ hm) (by decide)
    have htext : text.takeWhile isBlank ++ trimLeft text = text := List.takeWhile_append_dropWhile
    have hbefore : ((text.takeWhile isBlank).reverse ++ core.reverse).dropWhile isBlank = core.reverse := by
      rw [List.dropWhile_append_of_pos (by simpa using hblanks), hcore]
    have hskip : laneOpenFrom? core.reverse text =
        laneOpenFrom? ((text.takeWhile isBlank).reverse ++ core.reverse) (trimLeft text) := by
      rw [← laneOpenFrom?_append hopen, htext]
    rw [or_iff_right hbreak, hskip]
    cases ht : trimLeft text with
    | nil => exact iff_of_true rfl (shut_of_blanks ht)
    | cons c rest =>
      have hc : isBlank c = false := by
        have hhead : ∀ d ∈ (trimLeft text).head?, isBlank d = false := head?_trimLeft
        exact hhead c (by simp [ht])
      have hrest : '\n' ∉ rest := fun hm => hn (ht ▸ List.mem_cons_of_mem c hm)
      have hfirst : '\n' ≠ c := by
        rintro rfl
        exact absurd hc (by decide)
      rw [laneOpenFrom?_cons_eq_none_iff (by simp [hne]) (by simpa [hbefore] using hbreak) hrest,
        shut_iff ht]
      refine and_congr_right fun _ => ?_
      by_cases hsp : '\n' ∈ text.takeWhile isBlank
      · refine iff_of_true (laneOpenFrom?_of_break ?_) (Or.inl hsp)
        rw [List.dropWhile_cons_of_neg (by simp [hc])]
        simp [hsp]
      · rw [or_iff_right hsp, laneOpenFrom?_eq_none_iff (by simp) _ hrest]
        simp [hfirst, hsp, hbreak]

end Swimlane.Line
