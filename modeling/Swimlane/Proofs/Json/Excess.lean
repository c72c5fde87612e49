import Swimlane.Json.Value
import Swimlane.Proofs.Outcomes

/-! Which values have a text in a message: those with no number of too many digits in them, and nothing
nested too deep. -/
namespace Swimlane.Json

open Text (maxDigits ofNat)

variable {quote : Text → Text} {room : Nat} {value : Json} {text : Text} {excess : Excess} {n : Int}

/-- A value that stands inside another, so many lists and objects down. -/
inductive Inside (part : Json) : (level : Nat) → Json → Prop
  | here : Inside part 0 part
  | item {level : Nat} {item : Json} {items : List Json} (hm : item ∈ items)
      (h : Inside part level item) : Inside part (level + 1) (.arr items)
  | field {level : Nat} {name : Text} {value : Json} {fields : List (Text × Json)}
      (hm : (name, value) ∈ fields) (h : Inside part level value) :
      Inside part (level + 1) (.obj fields)

theorem Inside.trans {part value whole : Json} {inner outer : Nat} (h : Inside part inner value)
    (hw : Inside value outer whole) : Inside part (inner + outer) whole := by
  induction hw with
  | here => exact h
  | item hm _ ih => exact .item hm ih
  | field hm _ ih => exact .field hm ih

/-- The value of a field stands inside the object. -/
theorem inside_of_field? {fields : List (Text × Json)} {name : Text}
    (h : field? fields name = some value) : Inside value 1 (.obj fields) := by
  obtain ⟨above, below, rfl, -⟩ := List.lookup_eq_some_iff.1 h
  exact .field (List.mem_append_right above List.mem_cons_self) .here

theorem inside_of_field {fields : List (Text × Json)} {name : Text} (h : field fields name = value)
    (hv : value ≠ .null) : Inside value 1 (.obj fields) := by
  rw [field] at h
  cases hf : field? fields name with
  | none =>
    rw [hf] at h
    exact absurd h.symm hv
  | some found =>
    rw [hf] at h
    exact inside_of_field? (hf.trans (congrArg some h))

/-- A number that has no text. -/
def Overlong (n : Int) : Prop := maxDigits < (ofNat n.natAbs).length

/-- What there is too much of in a value, if there is room for so many values one inside the other. -/
inductive Exceeds (room : Nat) (value : Json) : Excess → Prop
  | digits {level : Nat} {n : Int} (h : Inside (.int n) level value) (hn : Overlong n) :
      Exceeds room value .digits
  | depth {part : Json} (h : Inside part room value) : Exceeds room value .depth

theorem literalsWith_eq (quote : Text → Text) (room : Nat) (items : List Json) :
    literalsWith quote room items = items.mapM (literalWith quote room) := by
  induction items with
  | nil => rfl
  | cons item rest ih => simp only [literalsWith, List.mapM_cons, ih]

/-- A field of an object as it stands in a message. -/
def literalField (quote : Text → Text) (room : Nat) (field : Text × Json) : Except Excess Text :=
  literalWith quote room field.2 >>= fun part => pure (quote field.1 ++ ": " ++ part)

theorem literalFieldsWith_eq (quote : Text → Text) (room : Nat) (fields : List (Text × Json)) :
    literalFieldsWith quote room fields = fields.mapM (literalField quote room) := by
  induction fields with
  | nil => rfl
  | cons field rest ih =>
    obtain ⟨name, value⟩ := field
    simp only [literalFieldsWith, List.mapM_cons, ih, literalField, bind_assoc, pure_bind]

theorem exceeds_zero (value : Json) : Exceeds 0 value .depth := .depth .here

/-- Too much of something is in the value itself or in a part of it, which has less room. -/
theorem exceeds_succ : Exceeds (room + 1) value excess ↔
    (∃ n, value = .int n ∧ Overlong n ∧ excess = .digits) ∨
    (∃ items, value = .arr items ∧ ∃ item ∈ items, Exceeds room item excess) ∨
    ∃ fields, value = .obj fields ∧ ∃ field ∈ fields, Exceeds room field.2 excess := by
  constructor
  · rintro (⟨h, hn⟩ | h)
    · cases h with
      | here => exact .inl ⟨_, rfl, hn, rfl⟩
      | item hm h => exact .inr (.inl ⟨_, rfl, _, hm, .digits h hn⟩)
      | field hm h => exact .inr (.inr ⟨_, rfl, _, hm, .digits h hn⟩)
    · cases h with
      | item hm h => exact .inr (.inl ⟨_, rfl, _, hm, .depth h⟩)
      | field hm h => exact .inr (.inr ⟨_, rfl, _, hm, .depth h⟩)
  · rintro (⟨n, rfl, hn, rfl⟩ | ⟨items, rfl, item, hm, h⟩ | ⟨fields, rfl, ⟨name, value⟩, hm, h⟩)
    · exact .digits .here hn
    · cases h with
      | digits h hn => exact .digits (.item hm h) hn
      | depth h => exact .depth (.item hm h)
    · cases h with
      | digits h hn => exact .digits (.field hm h) hn
      | depth h => exact .depth (.field hm h)

theorem intText_failsBy (n : Int) :
    FailsBy (intText n) fun excess => excess = .digits ∧ Overlong n := by
  rw [intText]
  split
  · next hn => exact .throw _ ⟨rfl, hn⟩
  · next hn => exact (FailsBy.ok _).congr fun _ => iff_of_false id fun h => hn h.2

/-- A value stands without a text just if there is too much of something in it. -/
theorem literalWith_failsBy (quote : Text → Text) (room : Nat) (value : Json) :
    FailsBy (literalWith quote room value) (Exceeds room value) := by
  induction room generalizing value with
  | zero =>
    rw [literalWith]
    exact .throw _ (exceeds_zero value)
  | succ room ih =>
    have hplain : (∀ n, value ≠ .int n) → (∀ items, value ≠ .arr items) →
        (∀ fields, value ≠ .obj fields) → ∀ excess, False ↔ Exceeds (room + 1) value excess := by
      intro hi ha ho excess
      rw [exceeds_succ]
      simp [hi, ha, ho]
    cases value with
    | int n =>
      refine (intText_failsBy n).congr fun excess => ?_
      rw [exceeds_succ]
      simp [and_comm]
    | arr items =>
      rw [literalWith, literalsWith_eq]
      refine ((FailsBy.mapM fun item _ => ih item).bind fun _ _ => .ok _).congr fun excess => ?_
      rw [exceeds_succ]
      simp
    | obj fields =>
      rw [literalWith, literalFieldsWith_eq]
      refine ((FailsBy.mapM fun field _ => (ih field.2).bind fun _ _ => .ok _).bind
        fun _ _ => .ok _).congr fun excess => ?_
      rw [exceeds_succ]
      simp
    | bool value => cases value <;> exact (FailsBy.ok _).congr (hplain nofun nofun nofun)
    | _ => exact (FailsBy.ok _).congr (hplain nofun nofun nofun)

/-- What keeps a value from having a text: a string always has one, itself. -/
def Unshown (room : Nat) (value : Json) (excess : Excess) : Prop :=
  (∀ text, value ≠ .str text) ∧ Exceeds room value excess

/-- A value has a text unless there is too much of something in it. -/
theorem displayWith_failsBy (quote : Text → Text) (room : Nat) (value : Json) :
    FailsBy (displayWith quote room value) (Unshown room value) := by
  cases value with
  | str text => exact (FailsBy.ok text).congr fun _ => iff_of_false id fun h => h.1 text rfl
  | _ => exact (literalWith_failsBy quote room _).congr fun _ => (and_iff_right nofun).symm

end Swimlane.Json
