import Mathlib.Data.List.Induction
import Mathlib.Data.List.Infix
import Mathlib.Data.List.TakeWhile
import Swimlane.Text.DecimalDigit
import Swimlane.Text.Word

/-! Blanks around a text, the characters of names, and pieces that stand in a text. -/
namespace Swimlane.Text

variable {c : Char} {text left right piece : Text}

theorem inRanges_iff {ranges : List (Nat × Nat)} :
    inRanges ranges c = true ↔ ∃ range ∈ ranges, range.1 ≤ c.toNat ∧ c.toNat ≤ range.2 := by
  simp [inRanges]

/-- The codes of all blanks. -/
def blankCodes : List Nat :=
  blankRanges.flatMap fun range => List.range' range.1 (range.2 + 1 - range.1)

theorem mem_blankCodes (h : isBlank c = true) : c.toNat ∈ blankCodes := by
  obtain ⟨range, hr, hfirst, hlast⟩ := inRanges_iff.1 h
  refine List.mem_flatMap.2 ⟨range, hr, List.mem_range'_1.2 ?_⟩
  omega

theorem isWord_of_isBlank (h : isBlank c = true) : isWord c = false := by
  have hcodes : blankCodes.all (fun code => !isWord (Char.ofNat code)) = true := by
    decide +kernel
  have hc := List.all_eq_true.1 hcodes c.toNat (mem_blankCodes h)
  simpa [Char.ofNat_toNat] using hc

theorem isBlank_of_isWord (h : isWord c = true) : isBlank c = false := by
  cases hb : isBlank c with
  | false => rfl
  | true => simp [isWord_of_isBlank hb] at h

theorem isWord_of_isDigit (h : c.isDigit = true) : isWord c = true := by
  have hlt : c.toNat < 128 := by
    simp only [Char.isDigit, Bool.and_eq_true, decide_eq_true_eq] at h
    have hle : c.val.toNat ≤ (57 : UInt32).toNat := UInt32.le_iff_toNat_le.1 h.2
    exact Nat.lt_of_le_of_lt hle (by decide)
  simp [isWord, hlt, Char.isAlphanum, h]

theorem isWord_of_mem_ofNat {n : Nat} (h : c ∈ ofNat n) : isWord c = true :=
  isWord_of_isDigit (Nat.isDigit_of_mem_toDigits (by decide) (by decide) h)

/-- A text that neither begins nor ends with a blank. -/
def Trimmed (text : Text) : Prop :=
  (∀ c ∈ text.head?, isBlank c = false) ∧ ∀ c ∈ text.getLast?, isBlank c = false

theorem trimLeft_margin (h : ∀ c ∈ left, isBlank c = true) :
    trimLeft (left ++ text) = trimLeft text :=
  List.dropWhile_append_of_pos h

theorem trimLeft_eq_self (h : ∀ c ∈ text.head?, isBlank c = false) : trimLeft text = text := by
  cases text with
  | nil => rfl
  | cons c rest => simp [trimLeft, h c (by simp)]

theorem trimLeft_eq_nil_iff : trimLeft text = [] ↔ ∀ c ∈ text, isBlank c = true :=
  List.dropWhile_eq_nil_iff

theorem trimLeft_append (h : trimLeft left ≠ []) :
    trimLeft (left ++ right) = trimLeft left ++ right := by
  rw [trimLeft, List.dropWhile_append, if_neg]
  · rfl
  · rwa [List.isEmpty_iff]

theorem trimRight_concat : trimRight (text ++ [c]) =
    if isBlank c = true then trimRight text else text ++ [c] := by
  by_cases h : isBlank c = true <;> simp [trimRight, h]

theorem trimRight_margin (h : ∀ c ∈ right, isBlank c = true) :
    trimRight (text ++ right) = trimRight text := by
  induction right using List.reverseRecOn with
  | nil => simp
  | append_singleton rest c ih =>
    rw [← List.append_assoc, trimRight_concat, if_pos (h c (by simp))]
    exact ih fun d hd => h d (by simp [hd])

theorem trimRight_eq_self (h : ∀ c ∈ text.getLast?, isBlank c = false) :
    trimRight text = text := by
  induction text using List.reverseRecOn with
  | nil => rfl
  | append_singleton rest c _ => simp [trimRight_concat, h c (by simp)]

/-- The end of a text is trimmed no further than to a part that is not blank. -/
theorem trimRight_append (h : ∃ c ∈ text.getLast?, isBlank c = false) :
    trimRight (text ++ right) = text ++ trimRight right := by
  induction right using List.reverseRecOn with
  | nil =>
    obtain ⟨c, hc, hb⟩ := h
    have hself : trimRight text = text := by
      apply trimRight_eq_self
      intro d hd
      rwa [Option.mem_unique hd hc]
    simpa [trimRight] using hself
  | append_singleton rest c ih =>
    rw [← List.append_assoc, trimRight_concat, trimRight_concat]
    split
    · exact ih
    · simp

theorem exists_trimLeft (text : Text) :
    ∃ left, text = left ++ trimLeft text ∧ ∀ c ∈ left, isBlank c = true :=
  ⟨text.takeWhile isBlank, List.takeWhile_append_dropWhile.symm,
    fun c hc => List.all_eq_true.1 List.all_takeWhile c hc⟩

theorem exists_trimRight (text : Text) :
    ∃ right, text = trimRight text ++ right ∧ ∀ c ∈ right, isBlank c = true := by
  induction text using List.reverseRecOn with
  | nil => exact ⟨[], rfl, by simp⟩
  | append_singleton rest c ih =>
    rw [trimRight_concat]
    split
    · next hc =>
      obtain ⟨right, heq, hr⟩ := ih
      refine ⟨right ++ [c], by rw [← List.append_assoc, ← heq], ?_⟩
      intro d hd
      rcases List.mem_append.1 hd with hd | hd
      · exact hr d hd
      · rwa [List.mem_singleton.1 hd]
    · exact ⟨[], by simp, by simp⟩

/-- Only blanks are lost by trimming. -/
theorem exists_margins (text : Text) :
    ∃ left right, text = left ++ trim text ++ right ∧
      (∀ c ∈ left, isBlank c = true) ∧ ∀ c ∈ right, isBlank c = true := by
  obtain ⟨left, hleft, hl⟩ := exists_trimLeft text
  obtain ⟨right, hright, hr⟩ := exists_trimRight (trimLeft text)
  refine ⟨left, right, ?_, hl, hr⟩
  rw [List.append_assoc, trim, ← hright, ← hleft]

theorem head?_trimLeft : ∀ c ∈ (trimLeft text).head?, isBlank c = false := by
  intro c hc
  have h := List.head?_dropWhile_not isBlank text
  rw [trimLeft] at hc
  rw [Option.mem_def.1 hc] at h
  simpa using h

theorem getLast?_trimRight : ∀ c ∈ (trimRight text).getLast?, isBlank c = false := by
  intro c hc
  rw [trimRight, List.getLast?_reverse] at hc
  exact head?_trimLeft c hc

theorem trimmed_trim (text : Text) : Trimmed (trim text) := by
  refine ⟨?_, getLast?_trimRight⟩
  intro c hc
  obtain ⟨right, heq, _⟩ := exists_trimRight (trimLeft text)
  refine head?_trimLeft c (?_ : c ∈ (trimLeft text).head?)
  rw [heq]
  rw [trim] at hc
  simp [Option.mem_def.1 hc]

theorem trim_margins (hl : ∀ c ∈ left, isBlank c = true) (hr : ∀ c ∈ right, isBlank c = true)
    (h : Trimmed text) : trim (left ++ text ++ right) = text := by
  rw [trim, List.append_assoc, trimLeft_margin hl]
  cases text with
  | nil =>
    have hnil : trimLeft right = [] := by
      exact trimLeft_eq_nil_iff.2 hr
    simp [hnil, trimRight]
  | cons c rest =>
    rw [trimLeft_eq_self (by simpa using h.1), trimRight_margin hr, trimRight_eq_self h.2]

theorem trim_margin_cons (hl : ∀ c ∈ left, isBlank c = true) (hc : isBlank c = false) :
    trim (left ++ c :: text) = c :: trimRight text := by
  have hstart : trimLeft (c :: text) = [c] ++ text := trimLeft_eq_self (by simpa using hc)
  rw [trim, trimLeft_margin hl, hstart, trimRight_append ⟨c, rfl, hc⟩]
  rfl

theorem trim_eq_self (h : Trimmed text) : trim text = text := by
  have hmargins : trim ([] ++ text ++ []) = text := trim_margins (by simp) (by simp) h
  simpa using hmargins

@[simp] theorem trim_trim (text : Text) : trim (trim text) = trim text :=
  trim_eq_self (trimmed_trim text)

theorem isInfix_trim (text : Text) : trim text <:+: text := by
  obtain ⟨left, right, heq, _⟩ := exists_margins text
  exact ⟨left, right, heq.symm⟩

theorem mem_of_mem_trim (h : c ∈ trim text) : c ∈ text := (isInfix_trim text).subset h

theorem trim_eq_nil_iff : trim text = [] ↔ ∀ c ∈ text, isBlank c = true := by
  constructor
  · intro h c hc
    obtain ⟨left, right, heq, hl, hr⟩ := exists_margins text
    rw [heq, h, List.append_nil] at hc
    exact (List.mem_append.1 hc).elim (hl c) (hr c)
  · intro h
    cases ht : trim text with
    | nil => rfl
    | cons c rest =>
      have hhead : isBlank c = false := (trimmed_trim text).1 c (by simp [ht])
      rw [h c (mem_of_mem_trim (by simp [ht]))] at hhead
      cases hhead

theorem mentions_iff : mentions piece text = true ↔ piece <:+: text := by
  induction text with
  | nil => simp [mentions]
  | cons c rest ih =>
    rw [mentions, Bool.or_eq_true, ih, List.isPrefixOf_iff_prefix, List.infix_cons_iff]

theorem mentions_of_isInfix (h : left <:+: right) (hp : mentions piece left = true) :
    mentions piece right = true :=
  mentions_iff.2 ((mentions_iff.1 hp).trans h)

theorem join_cons (between first : Text) (parts : List Text) :
    join between (first :: parts) = first ++ parts.flatMap (between ++ ·) := by
  induction parts generalizing first with
  | nil => simp [join]
  | cons second rest ih =>
    have hrest := ih second
    rw [join] at hrest
    rw [join, List.intercalate_cons_cons, hrest]
    simp

end Swimlane.Text
