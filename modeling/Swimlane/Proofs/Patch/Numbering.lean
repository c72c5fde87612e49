import Swimlane.Proofs.Patch.Edits

/-! The numbers of the ids: which can be read, and the highest in use. -/
namespace Swimlane.Patch

open Text Line

variable {c : Char} {number count : Nat} {id : Text} {ids lines : List Text}
  {session : Session}

theorem digitValue?_of_isDigit (h : c.isDigit = true) :
    digitValue? c = some (c.toNat - '0'.toNat) := by
  have hrange : 48 ≤ c.toNat ∧ c.toNat < 58 := by
    simp only [Char.isDigit, Bool.and_eq_true, decide_eq_true_eq] at h
    obtain ⟨hlow, hhigh⟩ := h
    have hle : (48 : UInt32).toNat ≤ c.val.toNat := UInt32.le_iff_toNat_le.1 hlow
    have hge : c.val.toNat ≤ (57 : UInt32).toNat := UInt32.le_iff_toNat_le.1 hhigh
    exact ⟨hle, Nat.lt_of_le_of_lt hge (by decide)⟩
  rw [digitValue?, digitZeros, List.find?_cons_of_pos]
  · rfl
  · simp only [Bool.and_eq_true, decide_eq_true_eq]
    exact hrange

theorem digitsValue_eq_ofDigitChars {digits : Text} (h : ∀ c ∈ digits, c.isDigit = true) :
    digitsValue digits = Nat.ofDigitChars 10 digits 0 := by
  rw [digitsValue, Nat.ofDigitChars_eq_foldl]
  apply List.foldl_ext
  intro value c hc
  simp [digitValue?_of_isDigit (h c hc)]

/-- The digits of a number write the number. -/
theorem digitsValue_ofNat (number : Nat) : digitsValue (ofNat number) = number := by
  have hdigits : ∀ c ∈ ofNat number, c.isDigit = true := fun c hc =>
    Nat.isDigit_of_mem_toDigits (by decide) (by decide) hc
  rw [digitsValue_eq_ofDigitChars hdigits, ofNat, Nat.ofDigitChars_ten_toDigits]

theorem ofNat_ne_nil (number : Nat) : ofNat number ≠ [] := Nat.toDigits_ne_nil

theorem sequentialDigits?_ofNat (number : Nat) :
    sequentialDigits? ('n' :: ofNat number) = some (ofNat number) := by
  have hdigits : (ofNat number).all isDecimalDigit = true := by
    rw [List.all_eq_true]
    intro c hc
    have hd := Nat.isDigit_of_mem_toDigits (by decide) (by decide) hc
    simp [isDecimalDigit, digitValue?_of_isDigit hd]
  simp [sequentialDigits?, ofNat_ne_nil, hdigits]

theorem sequentialNumber_ofNat (h : (ofNat number).length ≤ maxDigits) :
    LineIndex.sequentialNumber ('n' :: ofNat number) = .ok number := by
  rw [LineIndex.sequentialNumber, sequentialDigits?_ofNat]
  simp only [if_neg (Nat.not_lt.2 h), digitsValue_ofNat]

theorem sequentialNumber_of_not_sequential (h : sequentialDigits? id = none) :
    LineIndex.sequentialNumber id = .ok 0 := by
  rw [LineIndex.sequentialNumber, h]

/-- An id that is `n` and more digits than are read. -/
def Overlong (id : Text) : Prop := ∃ digits ∈ sequentialDigits? id, maxDigits < digits.length

theorem sequentialNumber_of_overlong (h : Overlong id) :
    ∃ count, LineIndex.sequentialNumber id = .error (.reading count) := by
  obtain ⟨digits, hdigits, hlong⟩ := h
  rw [LineIndex.sequentialNumber, Option.mem_def.1 hdigits]
  exact ⟨digits.length, if_pos hlong⟩

theorem exists_sequentialNumber (h : ¬ Overlong id) :
    ∃ number, LineIndex.sequentialNumber id = .ok number := by
  rw [LineIndex.sequentialNumber]
  cases hdigits : sequentialDigits? id with
  | none => exact ⟨0, rfl⟩
  | some digits => exact ⟨digitsValue digits, if_neg fun hlong => h ⟨digits, hdigits, hlong⟩⟩

/-- No id has a higher number, and one has this unless it is zero. -/
structure Highest (ids : List Text) (number : Nat) : Prop where
  bound : ∀ id ∈ ids, ∃ other ≤ number, LineIndex.sequentialNumber id = .ok other
  reached : number = 0 ∨ ∃ id ∈ ids, LineIndex.sequentialNumber id = .ok number

theorem foldlM_highest : ids.foldlM (fun highest id =>
      return max highest (← LineIndex.sequentialNumber id)) count = .ok number ↔
    count ≤ number ∧ (∀ id ∈ ids, ∃ other ≤ number, LineIndex.sequentialNumber id = .ok other) ∧
      (number = count ∨ ∃ id ∈ ids, LineIndex.sequentialNumber id = .ok number) := by
  induction ids generalizing count with
  | nil =>
    simp only [List.foldlM_nil, pure, Except.pure, Except.ok.injEq, List.not_mem_nil,
      false_implies, implies_true, false_and, exists_false, or_false, true_and]
    omega
  | cons id rest ih =>
    rw [List.foldlM_cons]
    cases hid : LineIndex.sequentialNumber id with
    | error limit =>
      simp [bind, Except.bind, hid]
    | ok first =>
      change rest.foldlM _ (max count first) = _ ↔ _
      rw [ih, List.forall_mem_cons]
      constructor
      · rintro ⟨hle, hrest, hreached⟩
        refine ⟨by omega, ⟨⟨first, by omega, hid⟩, hrest⟩, ?_⟩
        rcases hreached with rfl | ⟨other, hother, hnumber⟩
        · rcases Nat.le_total count first with hcount | hcount
          · exact Or.inr ⟨id, by simp, by rw [hid, Nat.max_eq_right hcount]⟩
          · exact Or.inl (Nat.max_eq_left hcount)
        · exact Or.inr ⟨other, List.mem_cons_of_mem id hother, hnumber⟩
      · rintro ⟨hle, ⟨⟨other, hother, hfirst⟩, hrest⟩, hreached⟩
        rw [hid, Except.ok.injEq] at hfirst
        refine ⟨by omega, hrest, ?_⟩
        rcases hreached with rfl | ⟨last, hlast, hnumber⟩
        · exact Or.inl (by omega)
        · rcases List.mem_cons.1 hlast with rfl | hlast
          · rw [hid, Except.ok.injEq] at hnumber
            exact Or.inl (by omega)
          · exact Or.inr ⟨last, hlast, hnumber⟩

theorem not_overlong_of_highest (h : Highest ids number) (hid : id ∈ ids) :
    ¬ Overlong id := by
  intro hlong
  obtain ⟨count, herror⟩ := sequentialNumber_of_overlong hlong
  obtain ⟨other, _, hok⟩ := h.bound id hid
  rw [herror] at hok
  cases hok

theorem highest_unique {other : Nat} (h : Highest ids number) (ho : Highest ids other) :
    number = other := by
  have hle : ∀ {a b : Nat}, Highest ids a → Highest ids b → a ≤ b := by
    rintro a b ha hb
    rcases ha.reached with rfl | ⟨id, hmem, hnumber⟩
    · exact Nat.zero_le b
    · obtain ⟨bound, hbound, hid⟩ := hb.bound id hmem
      rw [hnumber, Except.ok.injEq] at hid
      omega
  exact Nat.le_antisymm (hle h ho) (hle ho h)

/-- The highest number is found unless an id is too long to be read. -/
theorem highest_cases (ids : List Text) (count : Nat) :
    (∃ number, ids.foldlM (fun highest id =>
        return max highest (← LineIndex.sequentialNumber id)) count = .ok number) ∨
    ∃ id ∈ ids, ∃ digits, Overlong id ∧ ids.foldlM (fun highest id =>
        return max highest (← LineIndex.sequentialNumber id)) count = .error (.reading digits) := by
  induction ids generalizing count with
  | nil => exact Or.inl ⟨count, rfl⟩
  | cons id rest ih =>
    rw [List.foldlM_cons]
    by_cases hlong : Overlong id
    · obtain ⟨digits, hid⟩ := sequentialNumber_of_overlong hlong
      exact Or.inr ⟨id, by simp, digits, hlong, by rw [hid]; rfl⟩
    · obtain ⟨first, hid⟩ := exists_sequentialNumber hlong
      rw [hid]
      change (∃ number, rest.foldlM _ (max count first) = _) ∨ _
      rcases ih (max count first) with hok | ⟨other, hmem, digits, hother, herror⟩
      · exact Or.inl hok
      · exact Or.inr ⟨other, List.mem_cons_of_mem id hmem, digits, hother, herror⟩

theorem mem_keys_of_same {index : LineIndex} (h : index.Same (LineIndex.scan lines)) :
    id ∈ index.nodeLines.keys ↔ id ∈ nodeIds lines := by
  rw [← (LineIndex.isSome_get?_scan lines id).1, ← h.nodeLines, OrderedMap.isSome_get?]

/-- The highest id of an index is the highest that its lines declare. -/
theorem highestId_eq_ok_iff {index : LineIndex} (h : index.Same (LineIndex.scan lines)) :
    index.highestId = .ok number ↔ Highest (nodeIds lines) number := by
  rw [LineIndex.highestId, foldlM_highest]
  simp only [mem_keys_of_same h, Nat.zero_le, true_and]
  exact ⟨fun ⟨hbound, hreached⟩ => ⟨hbound, hreached⟩, fun ⟨hbound, hreached⟩ => ⟨hbound, hreached⟩⟩

end Swimlane.Patch
