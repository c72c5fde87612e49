import Swimlane.Proofs.Text.Blanks
import Swimlane.Text.Escaped

/-! What writing a value between quotation marks keeps of it, and that it reads back. -/
namespace Swimlane.Text

variable {a b c : Char} {text rest : Text}

theorem mentions_pair_cons : mentions [a, b] (c :: rest) = true ↔
    c = a ∧ rest.head? = some b ∨ mentions [a, b] rest = true := by
  cases rest with
  | nil => simp [mentions]
  | cons d tail =>
    rw [mentions, Bool.or_eq_true, List.isPrefixOf_iff_prefix, List.cons_prefix_cons,
      List.cons_prefix_cons, List.head?_cons, Option.some.injEq, eq_comm (a := a),
      eq_comm (a := b)]
    exact or_congr_left (and_congr_right fun _ => and_iff_left List.nil_prefix)

/-- A piece of two characters stands in a joined text as it does in the parts, or across them. -/
theorem mentions_pair_append : mentions [a, b] (text ++ rest) = true ↔
    mentions [a, b] text = true ∨ mentions [a, b] rest = true ∨
      text.getLast? = some a ∧ rest.head? = some b := by
  induction text with
  | nil => simp [mentions]
  | cons c more ih =>
    rw [List.cons_append, mentions_pair_cons, mentions_pair_cons, ih]
    cases more with
    | nil => simp [mentions]; tauto
    | cons d tail => simp [List.getLast?_cons_cons]; tauto

end Swimlane.Text

namespace Swimlane.Escaped

open Text

variable {a b c : Char} {text rest : Text}

def escapeChar (c : Char) : Text := if c = '\\' ∨ c = '"' then ['\\', c] else [c]

/-- A backslash before each quotation mark and each backslash. -/
def escape (text : Text) : Text := text.flatMap escapeChar

theorem escape_cons : escape (c :: text) = escapeChar c ++ escape text := rfl

theorem escape_append : escape (text ++ rest) = escape text ++ escape rest :=
  List.flatMap_append

theorem trimLeft_escape (text : Text) : trimLeft (escape text) = escape (trimLeft text) := by
  induction text with
  | nil => rfl
  | cons c rest ih =>
    rw [escape_cons, escapeChar]
    split
    · next h =>
      have hc : isBlank c = false := by rcases h with rfl | rfl <;> decide
      have hb : isBlank '\\' = false := by decide
      simp [trimLeft, hc, hb, escape_cons, escapeChar, h]
    · next h =>
      by_cases hc : isBlank c = true
      · simpa [trimLeft, hc] using ih
      · simp [trimLeft, hc, escape_cons, escapeChar, h]

theorem trimRight_escape (text : Text) : trimRight (escape text) = escape (trimRight text) := by
  induction text using List.reverseRecOn with
  | nil => rfl
  | append_singleton rest c ih =>
    have hone : escape [c] = escapeChar c := by simp [escape]
    rw [escape_append, hone, escapeChar]
    split
    · next h =>
      have hc : ¬ isBlank c = true := by rcases h with rfl | rfl <;> decide
      rw [trimRight_concat, if_neg hc, escape_append, hone, escapeChar, if_pos h,
        List.append_cons, trimRight_concat, if_neg hc, List.append_assoc]
    · next h =>
      rw [trimRight_concat, trimRight_concat]
      split
      · exact ih
      · rw [escape_append, hone, escapeChar, if_neg h]

/-- Writing a value is normalising it and then escaping it. -/
theorem encode_eq (text : Text) : encode text = escape (normal text) := by
  have hflat : text.flatMap encodeChar =
      escape (text.map fun c => if c = '\n' then ' ' else c) := by
    rw [escape, List.flatMap_map]
    apply List.flatMap_congr
    intro c _
    by_cases hn : c = '\n' <;> simp [encodeChar, escapeChar, hn]
  rw [encode, normal, hflat, trim, trim, trimLeft_escape, trimRight_escape]

theorem mem_of_mem_escape (h : c ∈ escape text) : c = '\\' ∨ c ∈ text := by
  obtain ⟨d, hd, hc⟩ := List.mem_flatMap.1 h
  rw [escapeChar] at hc
  split at hc <;> simp at hc <;> grind

theorem not_mem_normal : '\n' ∉ normal text := by
  intro h
  obtain ⟨c, _, hc⟩ := List.mem_map.1 (mem_of_mem_trim h)
  split at hc
  · exact absurd hc (by decide)
  · next hne => exact hne hc

theorem normal_normal (text : Text) : normal (normal text) = normal text := by
  have hsame : (normal text).map (fun c => if c = '\n' then ' ' else c) = normal text := by
    rw [List.map_congr_left fun c hc => if_neg fun he => not_mem_normal (he ▸ hc), List.map_id']
  rw [normal, hsame]
  exact trim_trim _

theorem mem_of_mem_normal (h : c ∈ normal text) : c = ' ' ∨ c ∈ text := by
  obtain ⟨d, hd, hc⟩ := List.mem_map.1 (mem_of_mem_trim h)
  split at hc
  · exact Or.inl hc.symm
  · exact Or.inr (hc ▸ hd)

theorem head?_escape (hb : b ≠ '\\') (hm : b ≠ '"') :
    (escape text).head? = some b ↔ text.head? = some b := by
  cases text with
  | nil => rfl
  | cons c rest =>
    rw [escape_cons, escapeChar]
    split
    · next h =>
      have hc : c ≠ b := fun he => (he ▸ h).elim hb hm
      simp [hc, hb.symm]
    · simp

/-- Escapes neither part nor make a piece of two characters that are not escaped. -/
theorem mentions_escape (ha : a ≠ '\\' ∧ a ≠ '"') (hb : b ≠ '\\' ∧ b ≠ '"') :
    mentions [a, b] (escape text) = true ↔ mentions [a, b] text = true := by
  induction text with
  | nil => rfl
  | cons c rest ih =>
    rw [escape_cons, escapeChar, mentions_pair_cons]
    split
    · next h =>
      have hc : c ≠ a := fun he => (he ▸ h).elim ha.1 ha.2
      rw [List.cons_append, List.singleton_append, mentions_pair_cons, mentions_pair_cons, ih]
      simp [hc, ha.1.symm]
    · rw [List.singleton_append, mentions_pair_cons, ih, head?_escape hb.1 hb.2]

theorem mentions_of_mentions_normal (ha : a ≠ ' ') (hb : b ≠ ' ')
    (h : mentions [a, b] (normal text) = true) : mentions [a, b] text = true := by
  have hmap := mentions_of_isInfix (isInfix_trim _) h
  clear h
  induction text with
  | nil => simp [mentions] at hmap
  | cons c rest ih =>
    rw [List.map_cons, mentions_pair_cons] at hmap
    rw [mentions_pair_cons]
    rcases hmap with ⟨hc, hrest⟩ | hmap
    · left
      have hc' : c = a := by
        split at hc
        · exact absurd hc.symm ha
        · exact hc
      cases rest with
      | nil => simp at hrest
      | cons d tail =>
        rw [List.map_cons, List.head?_cons, Option.some.injEq] at hrest
        split at hrest
        · exact absurd hrest.symm hb
        · exact ⟨hc', by simp [hrest]⟩
    · exact Or.inr (ih hmap)

theorem mem_of_mem_decode (h : c ∈ decode text) : c ∈ text := by
  fun_induction decode text with
  | case1 => exact h
  | case2 => exact h
  | case3 rest ih =>
    simp only [List.mem_cons] at h ⊢
    exact h.imp_right (Or.imp_right ih)
  | case4 d rest hd ih =>
    simp only [List.mem_cons] at h ⊢
    exact Or.inr (h.imp_right ih)
  | case5 c rest hc ih =>
    simp only [List.mem_cons] at h ⊢
    exact h.imp_right ih

/-- An escape stands for one character, so only nothing reads as nothing. -/
theorem decode_eq_nil_iff : decode text = [] ↔ text = [] := by
  fun_cases decode text <;> simp

theorem decode_cons (h : c ≠ '\\') : decode (c :: rest) = c :: decode rest := by
  rw [decode.eq_def]
  simp [h]

theorem decode_backslash (h : c ≠ '\n') : decode ('\\' :: c :: rest) = c :: decode rest := by
  rw [decode.eq_def]
  simp [h]

theorem decode_escape (h : '\n' ∉ text) : decode (escape text) = text := by
  induction text with
  | nil => rfl
  | cons c rest ih =>
    have hc : c ≠ '\n' := fun he => h (by simp [he])
    have hrest := ih fun hm => h (List.mem_cons_of_mem c hm)
    rw [escape_cons, escapeChar]
    split
    · rw [List.cons_append, List.singleton_append, decode_backslash hc, hrest]
    · next hq =>
      have hb : c ≠ '\\' := fun he => hq (Or.inl he)
      rw [List.singleton_append, decode_cons hb, hrest]

/-- A written value reads back as its normal form. -/
theorem decode_encode (text : Text) : decode (encode text) = normal text := by
  rw [encode_eq, decode_escape not_mem_normal]

/-- What is written of a value is written again of the value that it is read as. -/
theorem encode_decode_encode (text : Text) : encode (decode (encode text)) = encode text := by
  rw [decode_encode, encode_eq, normal_normal, encode_eq]

theorem body?_mark : body? ('"' :: rest) = some ([], rest) := by
  rw [body?.eq_def]
  simp

theorem body?_cons (hm : c ≠ '"') (hb : c ≠ '\\') : body? (c :: rest) =
    (body? rest).map fun (body, after) => (c :: body, after) := by
  rw [body?.eq_def]
  simp [hm, hb]

theorem body?_backslash (h : c ≠ '\n') : body? ('\\' :: c :: rest) =
    (body? rest).map fun (body, after) => ('\\' :: c :: body, after) := by
  rw [body?.eq_def]
  simp [h]

theorem body?_escape (h : '\n' ∉ text) :
    body? (escape text ++ '"' :: rest) = some (escape text, rest) := by
  induction text with
  | nil => exact body?_mark
  | cons c more ih =>
    have hc : c ≠ '\n' := fun he => h (by simp [he])
    have hmore := ih fun hm => h (List.mem_cons_of_mem c hm)
    rw [escape_cons, escapeChar]
    split
    · rw [List.cons_append, List.cons_append, List.singleton_append, List.cons_append,
        body?_backslash hc, hmore]
      rfl
    · next hq =>
      have hb : c ≠ '\\' := fun he => hq (Or.inl he)
      have hm : c ≠ '"' := fun he => hq (Or.inr he)
      rw [List.singleton_append, List.cons_append, body?_cons hm hb, hmore]
      rfl

/-- A written value ends at the next quotation mark that is not its own. -/
theorem body?_encode (text rest : Text) :
    body? (encode text ++ '"' :: rest) = some (encode text, rest) := by
  rw [encode_eq]
  exact body?_escape not_mem_normal

end Swimlane.Escaped
