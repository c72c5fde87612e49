import Swimlane.Json.Reader
import Swimlane.Proofs.Json.Excess
import Swimlane.Proofs.OrderedMap
import Swimlane.Proofs.Text.WholeNumber

/-! What is read from JSON text with so much room is nested no deeper and has no number with too many
digits. A text that opens more lists than there is room for is not read. -/
namespace Swimlane.Json

open Text (maxDigits ofNat length_ofNat_digitsValue_le)

variable {room left start position : Nat} {join : List Text.Sign → Text} {value : Json} {c : Char}
  {source rest : Text} {excess : Excess} {expected : Expected} {around : List Open}
  {list : List (Nat × Token)}

/-- A value with nothing too much. -/
def Fits (room : Nat) (value : Json) : Prop := ∀ excess, ¬ Exceeds room value excess

theorem fits_succ : Fits (room + 1) value ↔ (∀ n, value = .int n → ¬ Overlong n) ∧
    (∀ items, value = .arr items → ∀ item ∈ items, Fits room item) ∧
    ∀ fields, value = .obj fields → ∀ field ∈ fields, Fits room field.2 := by
  simp only [Fits, exceeds_succ]
  constructor
  · intro h
    refine ⟨fun n hv hn => h .digits (.inl ⟨n, hv, hn, rfl⟩), fun items hv item hm excess he => ?_,
      fun fields hv field hm excess he => ?_⟩
    · exact h excess (.inr (.inl ⟨items, hv, item, hm, he⟩))
    · exact h excess (.inr (.inr ⟨fields, hv, field, hm, he⟩))
  · rintro ⟨hint, harr, hobj⟩ excess
      (⟨n, hv, hn, -⟩ | ⟨items, hv, item, hm, he⟩ | ⟨fields, hv, field, hm, he⟩)
    · exact hint n hv hn
    · exact harr items hv item hm excess he
    · exact hobj fields hv field hm excess he

theorem fits_arr {items : List Json} (h : ∀ item ∈ items, Fits room item) :
    Fits (room + 1) (.arr items) := by
  refine fits_succ.2 ⟨fun _ => Json.noConfusion, fun found hv => ?_, fun _ => Json.noConfusion⟩
  cases hv
  exact h

theorem fits_obj {fields : List (Text × Json)} (h : ∀ field ∈ fields, Fits room field.2) :
    Fits (room + 1) (.obj fields) := by
  refine fits_succ.2 ⟨fun _ => Json.noConfusion, fun _ => Json.noConfusion, fun found hv => ?_⟩
  cases hv
  exact h

/-- A value with no parts, and no number of too many digits. -/
def Plain (value : Json) : Prop := ∀ room, Fits (room + 1) value

theorem plain_of_ne (hi : ∀ n, value ≠ .int n) (ha : ∀ items, value ≠ .arr items)
    (ho : ∀ fields, value ≠ .obj fields) : Plain value := fun _ =>
  fits_succ.2 ⟨fun n h => absurd h (hi n), fun items h => absurd h (ha items),
    fun fields h => absurd h (ho fields)⟩

theorem plain_int {n : Int} (h : ¬ Overlong n) : Plain (.int n) := by
  refine fun _ => fits_succ.2 ⟨fun m hv => ?_, fun _ => Json.noConfusion, fun _ => Json.noConfusion⟩
  cases hv
  exact h

theorem plain_str (text : Text) : Plain (.str text) :=
  plain_of_ne (fun _ => Json.noConfusion) (fun _ => Json.noConfusion) fun _ => Json.noConfusion

theorem readString_ne_scalar (start : Nat) (units : List Nat) (position : Nat) (text : Text) :
    (readString start units position text).1 ≠ .scalar value := by
  fun_induction readString start units position text <;> first | assumption | exact Token.noConfusion

theorem plain_of_token {parts : NumberParts} (h : parts.token position = .scalar value) :
    Plain value := by
  rw [NumberParts.token] at h
  split at h
  · split at h
    · cases h
    · next hfew =>
      cases h
      refine plain_int fun hlong => ?_
      have hshort := length_ofNat_digitsValue_le (Nat.not_lt.1 hfew)
      rw [Overlong] at hlong
      split at hlong <;> simp at hlong <;> omega
  · cases h
    exact plain_of_ne (fun _ => Json.noConfusion) (fun _ => Json.noConfusion) fun _ => Json.noConfusion

theorem plain_of_words {word : Text} (h : (word, value) ∈ words) : Plain value := by
  simp only [words, List.mem_cons, Prod.mk.injEq, List.not_mem_nil, or_false] at h
  rcases h with ⟨-, rfl⟩ | ⟨-, rfl⟩ | ⟨-, rfl⟩ | ⟨-, rfl⟩ | ⟨-, rfl⟩ | ⟨-, rfl⟩ <;>
    exact plain_of_ne (fun _ => Json.noConfusion) (fun _ => Json.noConfusion) fun _ => Json.noConfusion

theorem plain_of_lexeme (h : (lexeme position c rest).1 = .scalar value) : Plain value := by
  rw [lexeme.eq_def] at h
  split at h
  iterate 6 cases h
  · exact (readString_ne_scalar _ _ _ _ h).elim
  · split at h
    · next hfind =>
      cases h
      exact plain_of_words (List.mem_of_find?_eq_some hfind)
    · split at h
      · exact plain_of_token h
      · cases h

theorem plain_of_mem_tokens (h : (position, .scalar value) ∈ tokens start source) : Plain value := by
  fun_induction tokens start source with
  | case1 => simp at h
  | case2 start c rest hspace ih => exact ih h
  | case3 start c rest hspace token more hlexeme ih =>
    rcases List.mem_cons.1 h with heq | h
    · cases heq
      exact plain_of_lexeme (congrArg Prod.fst hlexeme)
    · exact ih h

theorem mem_gatherFields {field : Text × Json} {read : List (Text × Json)}
    (h : field ∈ gatherFields read) : field ∈ read := by
  have hall : ∀ (fields kept : List (Text × Json)),
      field ∈ fields.foldl (fun fields entry => putEntry entry.1 entry.2 fields) kept →
        field ∈ kept ∨ field ∈ fields := by
    intro fields
    induction fields with
    | nil => exact fun kept h => .inl h
    | cons first rest ih =>
      intro kept h
      rcases ih _ h with h | h
      · exact (mem_putEntry h).elim (fun heq => .inr (heq ▸ List.mem_cons_self)) .inl
      · exact .inr (List.mem_cons_of_mem first h)
  exact (hall _ _ h).elim (fun h => by cases h) List.mem_reverse.1

/-- What is read so far, with room for so many values inside it. -/
def Frames (room : Nat) : (left : Nat) → List Open → Prop
  | left, [] => left = room
  | left, .items read :: around =>
    (∀ value ∈ read, Fits (left + 1) value) ∧ Frames room (left + 1) around
  | left, .fields read _ :: around =>
    (∀ field ∈ read, Fits (left + 1) field.2) ∧ Frames room (left + 1) around

def Ready (left : Nat) (around : List Open) : Expected → Prop
  | .value => True
  | .valueOrClose => around ≠ []
  | .nameOrClose => 0 < left
  | .name read | .colon read _ => 0 < left ∧ ∀ field ∈ read, Fits left field.2
  | .after value => Fits (left + 1) value

theorem frames_length (h : Frames room left around) : left + around.length = room := by
  induction around generalizing left with
  | nil => exact h
  | cons frame around ih =>
    cases frame with
    | items read | fields read name =>
      have := ih h.2
      rw [List.length_cons]
      omega

theorem exists_left (h : Frames room left around) (hroom : ¬ room ≤ around.length) :
    ∃ less, left = less + 1 := by
  have := frames_length h
  exact ⟨left - 1, by omega⟩

theorem forall_gatherFields {read : List (Text × Json)} (h : ∀ field ∈ read, Fits room field.2) :
    ∀ field ∈ gatherFields read, Fits room field.2 := fun field hm => h field (mem_gatherFields hm)

/-- What is read fits if all that was read before does. -/
theorem fits_of_assemble (h : assemble room join expected around list = .ok value)
    (hlist : ∀ entry ∈ list, ∀ value, entry.2 = .scalar value → Plain value)
    (hf : Frames room left around) (hr : Ready left around expected) : Fits (room + 1) value := by
  fun_induction assemble room join expected around list generalizing left
  -- a list is opened
  case case3 hroom ih | case5 hroom ih =>
    obtain ⟨less, rfl⟩ := exists_left hf hroom
    exact ih h (List.forall_mem_cons.1 hlist).2 ⟨by simp, hf⟩ (List.cons_ne_nil _ _)
  -- an object is opened
  case case7 hroom ih | case9 hroom ih =>
    obtain ⟨less, rfl⟩ := exists_left hf hroom
    exact ih h (List.forall_mem_cons.1 hlist).2 hf less.succ_pos
  -- a string, and any other value without parts
  case case10 ih | case11 ih => exact ih h (List.forall_mem_cons.1 hlist).2 hf (plain_str _ _)
  case case12 ih | case13 ih =>
    obtain ⟨hplain, hrest⟩ := List.forall_mem_cons.1 hlist
    exact ih h hrest hf (hplain _ rfl left)
  -- a list and an object without parts
  case case16 ih =>
    obtain ⟨frame, around, rfl⟩ := List.exists_cons_of_ne_nil hr
    cases frame with
    | items read | fields read name =>
      exact ih h (List.forall_mem_cons.1 hlist).2 hf.2 (fits_arr (by simp))
  case case19 ih => exact ih h (List.forall_mem_cons.1 hlist).2 hf (fits_obj (by simp))
  -- the name of a field, and the colon behind it
  case case20 ih => exact ih h (List.forall_mem_cons.1 hlist).2 hf ⟨hr, by simp⟩
  case case21 ih => exact ih h (List.forall_mem_cons.1 hlist).2 hf hr
  case case26 ih =>
    obtain ⟨less, rfl⟩ := Nat.exists_eq_succ_of_ne_zero hr.1.ne'
    exact ih h (List.forall_mem_cons.1 hlist).2 ⟨hr.2, hf⟩ trivial
  -- the whole text
  case case28 =>
    cases h
    exact hf ▸ hr
  -- one more item or field, and the last one
  case case30 ih =>
    exact ih h (List.forall_mem_cons.1 hlist).2 ⟨List.forall_mem_cons.2 ⟨hr, hf.1⟩, hf.2⟩ trivial
  case case31 ih =>
    have hread : ∀ item ∈ _ :: _, Fits (left + 1) item := List.forall_mem_cons.2 ⟨hr, hf.1⟩
    exact ih h (List.forall_mem_cons.1 hlist).2 hf.2
      (fits_arr fun item hm => hread item (List.mem_reverse.1 hm))
  case case32 ih =>
    exact ih h (List.forall_mem_cons.1 hlist).2 hf.2
      ⟨Nat.succ_pos _, List.forall_mem_cons.2 ⟨hr, hf.1⟩⟩
  case case33 ih =>
    exact ih h (List.forall_mem_cons.1 hlist).2 hf.2
      (fits_obj (forall_gatherFields (List.forall_mem_cons.2 ⟨hr, hf.1⟩)))
  all_goals cases h

/-- What is read with so much room nests no deeper, and has no number with too many digits. -/
theorem fits_of_readWith (h : readWith room join source = .ok value) : Fits (room + 1) value := by
  rw [readWith] at h
  split at h
  · cases h
  · split at h
    · next hassemble =>
      cases h
      have hroot : Frames room room [] := rfl
      refine fits_of_assemble hassemble (fun entry hm value hv => ?_) hroot trivial
      obtain ⟨position, token⟩ := entry
      cases hv
      exact plain_of_mem_tokens hm
    · cases h
    · cases h

end Swimlane.Json
