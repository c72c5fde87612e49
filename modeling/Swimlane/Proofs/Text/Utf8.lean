import Swimlane.Proofs.Text.Halves
import Swimlane.Text.Utf8

/-! The bytes of a text read back as the text. -/
namespace Swimlane.Utf8

open Text

variable {c : Char} {n mark position : Nat} {text : Text} {rest : Bytes}

theorem toNat_octet (h : mark + n < 0x100) : (octet mark n).toNat = mark + n := by
  rw [octet, UInt8.toNat_ofNat']
  exact Nat.mod_eq_of_lt h

/-- A byte that goes on with a character adds its bits. -/
theorem decodeFrom_octet {done : Text} {begun : Partial} (hn : n < 0x40)
    (hl : begun.low ≤ 0x80 + n) (hh : 0x80 + n ≤ begun.high) :
    decodeFrom done position (some begun) (octet 0x80 n :: rest) =
      if begun.missing ≤ 1 then
        decodeFrom (Char.ofNat (begun.bits * 0x40 + n) :: done) (position + 1) none rest
      else
        decodeFrom done (position + 1) (some ⟨begun.byte, begun.position, begun.read + 1,
          begun.missing - 1, 0x80, 0xBF, begun.bits * 0x40 + n⟩) rest := by
  have hbyte : (octet 0x80 n).toNat = 0x80 + n := toNat_octet (by omega)
  have hmod : (0x80 + n) % 0x40 = n := by omega
  have hbounds : (decide (0x80 + n < begun.low) || decide (begun.high < 0x80 + n)) = false := by
    simp only [Bool.or_eq_false_iff, decide_eq_false_iff_not]
    omega
  rw [decodeFrom]
  simp only [hbyte, hmod, hbounds, Bool.false_eq_true, if_false]

/-- A first byte with more to come. -/
theorem decodeFrom_first {done : Text} {missing low high : Nat} (hn : 0x80 ≤ mark + n)
    (hb : mark + n < 0x100) (hc : continuation? (mark + n) = some (missing, low, high)) :
    decodeFrom done position none (octet mark n :: rest) = decodeFrom done (position + 1)
      (some ⟨octet mark n, position, 1, missing, low, high, (mark + n) % Nat.pow 2 (6 - missing)⟩)
      rest := by
  have hbyte := toNat_octet hb
  rw [decodeFrom]
  simp only [hbyte, if_neg (Nat.not_lt.2 hn), hc]

/-- The first of three bytes, and the bounds of the second, which leave out the halves. -/
theorem continuation?_three (hlow : 0x800 ≤ n) (hhigh : n < 0x10000) (hh : n < 0xD800 ∨ 0xE000 ≤ n) :
    ∃ low high, continuation? (0xE0 + n / 0x1000) = some (2, low, high) ∧
      low ≤ 0x80 + n / 0x40 % 0x40 ∧ 0x80 + n / 0x40 % 0x40 ≤ high := by
  rw [continuation?]
  split
  · omega
  split
  · exact ⟨_, _, rfl, by omega, by omega⟩
  split
  · exact ⟨_, _, rfl, by omega, by omega⟩
  split
  · exact ⟨_, _, rfl, by omega, by omega⟩
  · omega

/-- The first of four bytes, and the bounds of the second, which leave out what is too great. -/
theorem continuation?_four (hlow : 0x10000 ≤ n) (hhigh : n < 0x110000) :
    ∃ low high, continuation? (0xF0 + n / 0x40000) = some (3, low, high) ∧
      low ≤ 0x80 + n / 0x1000 % 0x40 ∧ 0x80 + n / 0x1000 % 0x40 ≤ high := by
  rw [continuation?]
  split
  · omega
  split
  · omega
  split
  · omega
  split
  · omega
  split
  · exact ⟨_, _, rfl, by omega, by omega⟩
  split
  · exact ⟨_, _, rfl, by omega, by omega⟩
  split
  · exact ⟨_, _, rfl, by omega, by omega⟩
  · omega

/-- The bytes of a character read as the character. -/
theorem decodeFrom_encodeChar (done : Text) (c : Char) (position : Nat) (rest : Bytes) : ∃ next,
    decodeFrom done position none (encodeChar c ++ rest) = decodeFrom (c :: done) next none rest := by
  have hlt := toNat_lt c
  have hhalf := not_half c
  simp only [encodeChar]
  split
  · next h =>
    refine ⟨position + 1, ?_⟩
    have hbyte : (octet 0 c.toNat).toNat = c.toNat := by
      rw [toNat_octet (by omega), Nat.zero_add]
    rw [List.singleton_append, decodeFrom]
    simp only [hbyte, if_pos h, Char.ofNat_toNat]
  split
  · next h =>
    have hc : continuation? (0xC0 + c.toNat / 0x40) = some (1, 0x80, 0xBF) := if_pos (by omega)
    have hbits : (0xC0 + c.toNat / 0x40) % Nat.pow 2 (6 - 1) * 0x40 + c.toNat % 0x40 = c.toNat := by
      simp only [Nat.pow_eq, Nat.reduceSub, Nat.reducePow]
      omega
    refine ⟨position + 1 + 1, ?_⟩
    rw [List.cons_append, List.singleton_append, decodeFrom_first (by omega) (by omega) hc,
      decodeFrom_octet (by omega) (by simp) (by simp; omega)]
    simp only [Nat.le_refl, if_true, hbits, Char.ofNat_toNat]
  split
  · next h =>
    obtain ⟨low, high, hc, hl, hh⟩ := continuation?_three (n := c.toNat) (by omega) h hhalf
    have hbits : ((0xE0 + c.toNat / 0x1000) % Nat.pow 2 (6 - 2) * 0x40 + c.toNat / 0x40 % 0x40) * 0x40 +
        c.toNat % 0x40 = c.toNat := by
      simp only [Nat.pow_eq, Nat.reduceSub, Nat.reducePow]
      omega
    refine ⟨position + 1 + 1 + 1, ?_⟩
    rw [List.cons_append, List.cons_append, List.singleton_append,
      decodeFrom_first (by omega) (by omega) hc, decodeFrom_octet (by omega) hl hh, if_neg (by simp),
      decodeFrom_octet (by omega) (by simp) (by simp; omega)]
    simp only [Nat.add_one_sub_one, Nat.le_refl, if_true, hbits, Char.ofNat_toNat]
  · next h =>
    obtain ⟨low, high, hc, hl, hh⟩ := continuation?_four (n := c.toNat) (by omega) hlt
    have hbits : (((0xF0 + c.toNat / 0x40000) % Nat.pow 2 (6 - 3) * 0x40 + c.toNat / 0x1000 % 0x40) *
        0x40 + c.toNat / 0x40 % 0x40) * 0x40 + c.toNat % 0x40 = c.toNat := by
      simp only [Nat.pow_eq, Nat.reduceSub, Nat.reducePow]
      omega
    refine ⟨position + 1 + 1 + 1 + 1, ?_⟩
    rw [List.cons_append, List.cons_append, List.cons_append, List.singleton_append,
      decodeFrom_first (by omega) (by omega) hc, decodeFrom_octet (by omega) hl hh, if_neg (by simp),
      decodeFrom_octet (by omega) (by simp) (by simp; omega), if_neg (by simp),
      decodeFrom_octet (by omega) (by simp) (by simp; omega)]
    simp only [Nat.add_one_sub_one, Nat.le_refl, if_true, hbits, Char.ofNat_toNat]

theorem decodeFrom_encode (done text : Text) (position : Nat) :
    decodeFrom done position none (encode text) = .ok (done.reverse ++ text) := by
  induction text generalizing done position with
  | nil => simp [encode, decodeFrom]
  | cons c more ih =>
    obtain ⟨next, hnext⟩ := decodeFrom_encodeChar done c position (encode more)
    rw [encode, List.flatMap_cons, ← encode, hnext, ih, List.reverse_cons, List.append_assoc,
      List.singleton_append]

/-- The bytes of a text read as the text. -/
theorem decode_encode (text : Text) : decode (encode text) = .ok text := decodeFrom_encode [] text 0

theorem encode_injective {text other : Text} (h : encode text = encode other) : text = other := by
  have hread := decode_encode text
  rw [h, decode_encode] at hread
  exact (Except.ok.inj hread).symm

theorem firstHalves?_cases (position : Nat) (list : List Sign) :
    (∃ plain : Text, list = plain.map .char ∧ firstHalves? position list = none) ∨
    (∃ number, Sign.half number ∈ list) ∧ ∃ error, firstHalves? position list = some error := by
  induction list generalizing position with
  | nil => exact Or.inl ⟨[], rfl, rfl⟩
  | cons sign rest ih =>
    cases sign with
    | char c =>
      rcases ih (position + 1) with ⟨plain, rfl, hnone⟩ | ⟨⟨number, hmem⟩, hsome⟩
      · exact Or.inl ⟨c :: plain, rfl, hnone⟩
      · exact Or.inr ⟨⟨number, List.mem_cons_of_mem _ hmem⟩, hsome⟩
    | half number => exact Or.inr ⟨⟨number, List.mem_cons_self⟩, _, rfl⟩

/-- A text that keeps halves has bytes if there is none to keep: the bytes of its characters. -/
theorem encodeKept_cases (text : Text) :
    (∃ plain : Text, signs text = plain.map .char ∧ encodeKept text = .ok (encode plain)) ∨
    (∃ number, Sign.half number ∈ signs text) ∧ ∃ error, encodeKept text = .error error := by
  rw [encodeKept, shown]
  rcases firstHalves?_cases 0 (signs text) with ⟨plain, hplain, hnone⟩ | ⟨hhalf, error, hsome⟩
  · exact Or.inl ⟨plain, hplain, by rw [hnone, hplain, map_shown_char]⟩
  · exact Or.inr ⟨hhalf, error, by rw [hsome]⟩

end Swimlane.Utf8
