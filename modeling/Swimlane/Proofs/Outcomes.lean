import Mathlib.Data.List.Forall2

/-! When a computation that may end in an error comes to a value, and when to an error. -/
namespace Swimlane

variable {ε ε' α β : Type} {result : Except ε α} {error : ε} {a : α} {b : β}

theorem bind_eq_ok {next : α → Except ε β} :
    result >>= next = .ok b ↔ ∃ a, result = .ok a ∧ next a = .ok b := by
  cases result <;> simp [bind, Except.bind]

theorem bind_eq_error {next : α → Except ε β} :
    result >>= next = .error error ↔
      result = .error error ∨ ∃ a, result = .ok a ∧ next a = .error error := by
  cases result <;> simp [bind, Except.bind]

theorem map_eq_ok {f : α → β} : result.map f = .ok b ↔ ∃ a, result = .ok a ∧ f a = b := by
  cases result <;> simp [Except.map]

theorem mapError_eq_ok {f : ε → ε'} : result.mapError f = .ok a ↔ result = .ok a := by
  cases result with
  | error error => exact iff_of_false (fun h => by cases h) fun h => by cases h
  | ok found =>
    rw [Except.mapError, Except.ok.injEq, Except.ok.injEq]

/-- A list comes to the values of its items, in order. -/
theorem mapM_eq_ok {items : List α} {found : List β} {f : α → Except ε β} :
    items.mapM f = .ok found ↔ List.Forall₂ (fun item b => f item = .ok b) items found := by
  induction items generalizing found with
  | nil => simp [pure, Except.pure, eq_comm]
  | cons item rest ih =>
    simp only [List.mapM_cons, bind_eq_ok, ih, pure, Except.pure, Except.ok.injEq,
      List.forall₂_cons_left_iff]
    constructor
    · rintro ⟨b, hb, bs, hrest, rfl⟩
      exact ⟨b, bs, hb, hrest, rfl⟩
    · rintro ⟨b, bs, hb, hrest, rfl⟩
      exact ⟨b, hb, bs, hrest, rfl⟩

/-- A computation that ends in an error just if there is a cause for one, and then in one that has a
cause. -/
structure FailsBy (result : Except ε α) (cause : ε → Prop) : Prop where
  of_error : ∀ error, result = .error error → cause error
  of_ok : ∀ a, result = .ok a → ∀ error, ¬ cause error

namespace FailsBy

variable {p q : ε → Prop}

theorem exists_iff (h : FailsBy result p) : (∃ a, result = .ok a) ↔ ∀ error, ¬ p error := by
  constructor
  · rintro ⟨a, ha⟩
    exact h.of_ok a ha
  · intro hnone
    cases hr : result with
    | ok a => exact ⟨a, rfl⟩
    | error error => exact absurd (h.of_error error hr) (hnone error)

theorem congr (h : FailsBy result p) (hpq : ∀ error, p error ↔ q error) : FailsBy result q :=
  ⟨fun error he => (hpq error).1 (h.of_error error he),
    fun a ha error hq => h.of_ok a ha error ((hpq error).2 hq)⟩

theorem ok (a : α) : FailsBy (.ok a : Except ε α) fun _ => False :=
  ⟨fun _ he => (by cases he), fun _ _ _ => id⟩

theorem throw (e : ε) (h : p e) : FailsBy (.error e : Except ε α) p :=
  ⟨fun _ he => (by cases he; exact h), fun _ ha => (by cases ha)⟩

theorem bind {next : α → Except ε β} (h : FailsBy result p)
    (hn : ∀ a, result = .ok a → FailsBy (next a) q) :
    FailsBy (result >>= next) fun error => p error ∨ q error := by
  refine ⟨fun error he => ?_, fun b hb error => ?_⟩
  · rcases bind_eq_error.1 he with he | ⟨a, ha, he⟩
    · exact .inl (h.of_error error he)
    · exact .inr ((hn a ha).of_error error he)
  · obtain ⟨a, ha, hb⟩ := bind_eq_ok.1 hb
    exact not_or.2 ⟨h.of_ok a ha error, (hn a ha).of_ok b hb error⟩

theorem mapError (h : FailsBy result p) (f : ε → ε') :
    FailsBy (result.mapError f) fun error => ∃ cause, error = f cause ∧ p cause := by
  cases hr : result with
  | ok a => exact (ok a).congr fun _ => iff_of_false id fun ⟨cause, _, hp⟩ => h.of_ok a hr cause hp
  | error cause => exact throw _ ⟨cause, rfl, h.of_error cause hr⟩

theorem map (h : FailsBy result p) (f : α → β) : FailsBy (f <$> result) p := by
  have hbind := h.bind fun a _ => ok (f a)
  rw [map_eq_pure_bind]
  exact hbind.congr fun error => or_iff_left id

/-- A list fails by what an item of it fails by. -/
theorem mapM {items : List α} {f : α → Except ε β} {p : α → ε → Prop}
    (h : ∀ item ∈ items, FailsBy (f item) (p item)) :
    FailsBy (items.mapM f) fun error => ∃ item ∈ items, p item error := by
  induction items with
  | nil => exact (ok []).congr fun error => by simp
  | cons item rest ih =>
    obtain ⟨hitem, hrest⟩ := List.forall_mem_cons.1 h
    rw [List.mapM_cons]
    refine (hitem.bind fun b _ => (ih hrest).bind fun bs _ => ok (b :: bs)).congr fun error => ?_
    simp

end FailsBy

end Swimlane
