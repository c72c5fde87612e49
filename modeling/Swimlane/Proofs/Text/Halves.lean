import Swimlane.Text.Halves

/-! A text that keeps halves gives back the signs that it was made of. -/
namespace Swimlane.Text

variable {c d : Char} {text rest plain : Text}

theorem toNat_lt (c : Char) : c.toNat < 0x110000 := by
  rcases c.valid with h | ⟨_, h⟩
  · have hlt : c.toNat < 0xD800 := h
    omega
  · exact h

/-- No character is a half of another. -/
theorem not_half (c : Char) : c.toNat < 0xD800 ∨ 0xE000 ≤ c.toNat := c.valid.imp id And.left

/-- A character that stands for itself wherever it is in a text that keeps halves. -/
def Whole (c : Char) : Prop := c ≠ halfMark ∧ halfNamed? c = none

instance : DecidablePred Whole := fun c => inferInstanceAs (Decidable (c ≠ halfMark ∧ halfNamed? c = none))

theorem halfNamed?_halfName (number : Fin 0x800) : halfNamed? (halfName number) = some number := by
  have hnumber := number.isLt
  have hvalid : (0xE000 + number.val).isValidChar := Or.inr ⟨by omega, by omega⟩
  have hname : (halfName number).toNat = 0xE000 + number := by
    rw [halfName, Char.ofNat, dif_pos hvalid]
    rfl
  have hrange : 0xE000 ≤ (halfName number).toNat ∧ (halfName number).toNat < 0xE800 := by omega
  rw [halfNamed?, dif_pos hrange]
  simp only [hname, Option.some.injEq]
  exact Fin.ext (Nat.add_sub_cancel_left ..)

theorem halfNamed?_halfMark : halfNamed? halfMark = none := by decide

theorem signs_cons (h : c ≠ halfMark) (rest : Text) : signs (c :: rest) = .char c :: signs rest := by
  cases rest with
  | nil => rfl
  | cons d more => rw [signs, if_neg h]

/-- The text of a sign, with more behind it. -/
theorem signs_kept (sign : Sign) (rest : Text) : signs (sign.kept ++ rest) = sign :: signs rest := by
  cases sign with
  | char c =>
    rw [Sign.kept]
    split
    · next h =>
      rw [h, List.cons_append, List.singleton_append, signs, if_pos rfl, if_pos rfl]
    · next h => exact signs_cons h rest
  | half number =>
    have hname := halfNamed?_halfName number
    have hne : halfName number ≠ halfMark := by
      intro h
      rw [h, halfNamed?_halfMark] at hname
      cases hname
    rw [Sign.kept, List.cons_append, List.singleton_append, signs, if_pos rfl, if_neg hne, hname]

theorem signs_ofSigns (list : List Sign) : signs (ofSigns list) = list := by
  induction list with
  | nil => rfl
  | cons sign more ih => rw [ofSigns, List.flatMap_cons, signs_kept, ← ofSigns, ih]

theorem signs_keep (text : Text) : signs (keep text) = text.map .char := signs_ofSigns _

theorem map_shown_char (text : Text) : (text.map Sign.char).map Sign.shown = text := by
  rw [List.map_map]
  exact List.map_id text

theorem shown_keep (text : Text) : shown (keep text) = text := by
  rw [shown, signs_keep, map_shown_char]

/-- What is read before a character that stands for itself does not hang on what is behind it. -/
theorem signs_append_cons (h : Whole c) (text rest : Text) :
    signs (text ++ c :: rest) = signs text ++ .char c :: signs rest := by
  fun_induction signs text with
  | case1 => exact signs_cons h.1 rest
  | case2 d =>
    rw [List.singleton_append, signs]
    split
    · next hd => rw [if_neg h.1, h.2, hd, signs_cons h.1]; rfl
    · rw [signs_cons h.1]; rfl
  | case3 more ih => rw [List.cons_append, List.cons_append, signs, if_pos rfl, if_pos rfl, ih]; rfl
  | case4 d more hd number hn ih =>
    rw [List.cons_append, List.cons_append, signs, if_pos rfl, if_neg hd, hn, ih]; rfl
  | case5 d more hd hn ih =>
    rw [List.cons_append, List.cons_append, signs, if_pos rfl, if_neg hd, hn, ← List.cons_append, ih]
    rfl
  | case6 d e more hd ih =>
    rw [List.cons_append, List.cons_append, signs, if_neg hd, ← List.cons_append, ih]
    rfl

theorem shown_append_cons (h : Whole c) (text rest : Text) :
    shown (text ++ c :: rest) = shown text ++ c :: shown rest := by
  rw [shown, signs_append_cons h, List.map_append, List.map_cons]
  rfl

theorem keep_cons (c : Char) (text : Text) : keep (c :: text) = (Sign.char c).kept ++ keep text := rfl

theorem keep_append_cons (h : c ≠ halfMark) (text rest : Text) :
    keep (text ++ c :: rest) = keep text ++ c :: keep rest := by
  induction text with
  | nil =>
    rw [List.nil_append, keep_cons, Sign.kept, if_neg h]
    rfl
  | cons d more ih => rw [List.cons_append, keep_cons, ih, keep_cons, List.append_assoc]

theorem mem_keep : c ∈ keep text ↔ c ∈ text := by
  induction text with
  | nil => rfl
  | cons d more ih =>
    rw [keep_cons, List.mem_append, ih, List.mem_cons, Sign.kept]
    split
    · next h => simp [h]
    · simp

/-- What is done on both sides of a separator alike is done line by line. -/
theorem map_join {f : Text → Text} (hnil : f [] = [])
    (happend : ∀ text rest, f (text ++ c :: rest) = f text ++ c :: f rest) (lines : List Text) :
    f (join [c] lines) = join [c] (lines.map f) := by
  induction lines with
  | nil => exact hnil
  | cons line more ih =>
    cases more with
    | nil => simp [join]
    | cons next more =>
      simp only [join, List.map_cons, List.intercalate_cons_cons, List.append_assoc,
        List.singleton_append] at ih ⊢
      rw [happend, ih]

theorem shown_join (h : Whole c) (lines : List Text) :
    shown (join [c] lines) = join [c] (lines.map shown) := map_join rfl (shown_append_cons h) lines

theorem keep_join (h : c ≠ halfMark) (lines : List Text) :
    keep (join [c] lines) = join [c] (lines.map keep) := map_join rfl (keep_append_cons h) lines

end Swimlane.Text
