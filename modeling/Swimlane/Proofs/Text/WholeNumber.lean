import Mathlib.Data.Nat.Digits.Defs
import Swimlane.Proofs.Text.Blanks
import Swimlane.Text.WholeNumber

/-! Which texts write a whole number, and which number each of them writes. -/
namespace Swimlane.Text

/-- Digits with at most one low line between each two, and the same digits without the lines. -/
inductive Grouped : (written digits : Text) → Prop
  | last {c : Char} (hc : isDecimalDigit c = true) : Grouped [c] [c]
  | digit {c : Char} {written digits : Text} (hc : isDecimalDigit c = true)
      (h : Grouped written digits) : Grouped (c :: written) (c :: digits)
  | line {c : Char} {written digits : Text} (hc : isDecimalDigit c = true)
      (h : Grouped written digits) : Grouped (c :: '_' :: written) (c :: digits)

/-- A magnitude under a sign, or under none. -/
inductive Signed (magnitude : Int) : (sign : Text) → (value : Int) → Prop
  | bare : Signed magnitude [] magnitude
  | plus : Signed magnitude ['+'] magnitude
  | minus : Signed magnitude ['-'] (-magnitude)

/-- A text that writes a whole number: digits, not too many, under their sign, and blanks around
them. -/
inductive WritesWhole : Text → Int → Prop
  | intro {left sign written digits right : Text} {value : Int}
      (hl : ∀ c ∈ left, isMargin c = true) (hr : ∀ c ∈ right, isMargin c = true)
      (hs : Signed (digitsValue digits) sign value) (hw : Grouped written digits)
      (hd : digits.length ≤ maxDigits) : WritesWhole (left ++ (sign ++ written) ++ right) value

variable {c : Char} {p : Char → Bool} {text left right core written digits sign : Text} {value : Int}

theorem digitValue_lt (c : Char) : (digitValue? c).getD 0 < 10 := by
  cases h : digitValue? c with
  | none => decide
  | some number =>
    obtain ⟨start, hfind, rfl⟩ := Option.map_eq_some_iff.1 h
    have hrange := List.find?_some hfind
    simp only [Bool.and_eq_true, decide_eq_true_eq] at hrange
    rw [Option.getD_some]
    omega

theorem digitsValue_lt (digits : Text) : digitsValue digits < 10 ^ digits.length := by
  induction digits using List.reverseRecOn with
  | nil => decide
  | append_singleton rest c ih =>
    have hc := digitValue_lt c
    rw [digitsValue, List.foldl_append, ← digitsValue, List.length_append, List.length_singleton,
      Nat.pow_succ]
    simp only [List.foldl_cons, List.foldl_nil]
    omega

/-- A number is written with no more digits than were read. -/
theorem length_ofNat_digitsValue_le (h : digits.length ≤ maxDigits) :
    (ofNat (digitsValue digits)).length ≤ maxDigits :=
  Nat.toDigits_length 10 _ maxDigits (by decide)
    ((digitsValue_lt digits).trans_le (Nat.pow_le_pow_right (by decide) h))

theorem isBlank_of_isDecimalDigit (h : isDecimalDigit c = true) : isBlank c = false := by
  have hcodes : blankCodes.all (fun code => !isDecimalDigit (Char.ofNat code)) = true := by
    decide +kernel
  cases hb : isBlank c with
  | false => rfl
  | true =>
    have hc := List.all_eq_true.1 hcodes c.toNat (mem_blankCodes hb)
    simp [Char.ofNat_toNat, h] at hc

theorem isBlank_of_isMargin (h : isMargin c = true) : isBlank c = true := by
  rw [isMargin] at h
  split at h
  · rw [isBlank, inRanges_iff]
    simp only [Bool.or_eq_true, beq_iff_eq, Bool.and_eq_true, decide_eq_true_eq] at h
    rcases h with rfl | h
    · exact ⟨(0x1C, 0x20), by decide, by decide⟩
    · exact ⟨(0x09, 0x0D), by decide, h⟩
  · exact h

theorem isMargin_of_isDecimalDigit (h : isDecimalDigit c = true) : isMargin c = false := by
  refine Bool.eq_false_iff.2 fun hm => ?_
  exact Bool.false_ne_true ((isBlank_of_isDecimalDigit h).symm.trans (isBlank_of_isMargin hm))

theorem Grouped.head? (h : Grouped written digits) :
    ∃ c ∈ written.head?, isDecimalDigit c = true := by
  cases h with
  | last hc | digit hc _ | line hc _ => exact ⟨_, rfl, hc⟩

theorem Grouped.getLast? (h : Grouped written digits) :
    ∃ c ∈ written.getLast?, isDecimalDigit c = true := by
  induction h with
  | last hc => exact ⟨_, rfl, hc⟩
  | digit hc _ ih | line hc _ ih =>
    obtain ⟨c, hlast, hdigit⟩ := ih
    refine ⟨c, ?_, hdigit⟩
    simp [List.getLast?_cons, Option.mem_def.1 hlast]

theorem groupedDigits?_eq_some : groupedDigits? written = some digits ↔ Grouped written digits := by
  constructor
  · intro h
    fun_induction groupedDigits? written generalizing digits with
    | case1 => cases h
    | case2 c hc =>
      obtain rfl := Option.some.inj h
      exact .last hc
    | case3 | case5 | case7 => cases h
    | case4 c rest hc ih =>
      obtain ⟨digits, hrest, rfl⟩ := Option.map_eq_some_iff.1 h
      exact .line hc (ih hrest)
    | case6 c rest _ _ hc ih =>
      obtain ⟨digits, hrest, rfl⟩ := Option.map_eq_some_iff.1 h
      exact .digit hc (ih hrest)
  · intro h
    induction h with
    | last hc => simp [groupedDigits?, hc]
    | @digit c written digits hc h ih =>
      obtain ⟨next, hnext, hdigit⟩ := h.head?
      obtain ⟨rest, rfl⟩ := List.head?_eq_some_iff.1 hnext
      have hline : next ≠ '_' := by
        rintro rfl
        exact absurd hdigit (by decide)
      rw [groupedDigits?, if_pos hc, ih]
      · rfl
      · simp
      · simpa using hline
    | line hc h ih => simp [groupedDigits?, hc, ih]

theorem dropWhile_margin (hl : ∀ c ∈ left, p c = true) (hc : ∀ c ∈ core.head?, p c = false) :
    (left ++ core).dropWhile p = core := by
  rw [List.dropWhile_append_of_pos hl]
  cases core with
  | nil => rfl
  | cons c rest => exact List.dropWhile_cons_of_neg (by simp [hc c rfl])

/-- What is left of a text whose ends are dropped. -/
theorem exists_ends (p : Char → Bool) (text : Text) :
    ∃ left right, text = left ++ ((text.dropWhile p).reverse.dropWhile p).reverse ++ right ∧
      (∀ c ∈ left, p c = true) ∧ ∀ c ∈ right, p c = true := by
  refine ⟨text.takeWhile p, ((text.dropWhile p).reverse.takeWhile p).reverse, ?_, ?_, ?_⟩
  · rw [List.append_assoc, ← List.reverse_append, List.takeWhile_append_dropWhile,
      List.reverse_reverse, List.takeWhile_append_dropWhile]
  · exact fun c hc => List.all_eq_true.1 List.all_takeWhile c hc
  · exact fun c hc => List.all_eq_true.1 List.all_takeWhile c (List.mem_reverse.1 hc)

theorem ends_dropped (hl : ∀ c ∈ left, p c = true) (hr : ∀ c ∈ right, p c = true)
    (hfirst : ∃ c ∈ core.head?, p c = false) (hlast : ∃ c ∈ core.getLast?, p c = false) :
    (((left ++ core ++ right).dropWhile p).reverse.dropWhile p).reverse = core := by
  obtain ⟨first, hfirst, hp⟩ := hfirst
  obtain ⟨last, hlast, hq⟩ := hlast
  have hstart : ∀ c ∈ (core ++ right).head?, p c = false := by
    intro c hc
    rw [List.head?_append, Option.mem_def.1 hfirst] at hc
    obtain rfl := Option.some.inj hc
    exact hp
  have hend : ∀ c ∈ core.reverse.head?, p c = false := by
    intro c hc
    rw [List.head?_reverse] at hc
    obtain rfl := Option.mem_unique hlast hc
    exact hq
  rw [List.append_assoc, dropWhile_margin hl hstart, List.reverse_append,
    dropWhile_margin (fun c hc => hr c (List.mem_reverse.1 hc)) hend, List.reverse_reverse]

theorem writesWhole_of_wholeNumber? (h : wholeNumber? text = some value) :
    WritesWhole text value := by
  obtain ⟨left, right, heq, hl, hr⟩ := exists_ends isMargin text
  rw [wholeNumber?] at h
  generalize ((text.dropWhile isMargin).reverse.dropWhile isMargin).reverse = core at h heq
  subst heq
  dsimp only at h
  obtain ⟨digits, hdigits, hvalue⟩ := Option.bind_eq_some_iff.1 h
  have hgrouped := groupedDigits?_eq_some.1 hdigits
  by_cases hmany : maxDigits < digits.length
  · simp [hmany] at hvalue
  · rw [if_neg hmany] at hvalue
    obtain rfl := Option.some.inj hvalue
    have hd := Nat.le_of_not_lt hmany
    split at hgrouped
    · exact @WritesWhole.intro left ['-'] _ _ right _ hl hr .minus hgrouped hd
    · exact @WritesWhole.intro left ['+'] _ _ right _ hl hr .plus hgrouped hd
    · exact @WritesWhole.intro left [] _ _ right _ hl hr .bare hgrouped hd

theorem Signed.first (hs : Signed (digitsValue digits) sign value) (hw : Grouped written digits) :
    ∃ c ∈ (sign ++ written).head?, isMargin c = false := by
  cases hs with
  | bare =>
    obtain ⟨c, hc, hdigit⟩ := hw.head?
    exact ⟨c, hc, isMargin_of_isDecimalDigit hdigit⟩
  | plus | minus => exact ⟨_, rfl, by decide⟩

theorem wholeNumber?_of_writesWhole (h : WritesWhole text value) :
    wholeNumber? text = some value := by
  obtain @⟨left, sign, written, digits, right, _, hl, hr, hs, hw, hd⟩ := h
  obtain ⟨last, hlast, hdigit⟩ := hw.getLast?
  have hcore := ends_dropped hl hr (hs.first hw)
    ⟨last, by simp [List.getLast?_append, Option.mem_def.1 hlast], isMargin_of_isDecimalDigit hdigit⟩
  have hread := groupedDigits?_eq_some.2 hw
  have hfew : ¬ maxDigits < digits.length := Nat.not_lt.2 hd
  rw [wholeNumber?, hcore]
  cases hs with
  | plus | minus => simp [hread, hfew]
  | bare =>
    obtain ⟨first, hfirst, hdigit⟩ := hw.head?
    obtain ⟨rest, rfl⟩ := List.head?_eq_some_iff.1 hfirst
    have hminus : first ≠ '-' := fun heq => absurd (heq ▸ hdigit) (by decide)
    have hplus : first ≠ '+' := fun heq => absurd (heq ▸ hdigit) (by decide)
    simp [hread, hfew, hminus, hplus]

/-- A text is read as a whole number exactly if it writes one. -/
theorem wholeNumber?_eq_some : wholeNumber? text = some value ↔ WritesWhole text value :=
  ⟨writesWhole_of_wholeNumber?, wholeNumber?_of_writesWhole⟩

end Swimlane.Text
