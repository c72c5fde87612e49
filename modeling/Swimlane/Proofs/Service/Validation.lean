import Mathlib.Algebra.Order.Floor.Semifield
import Mathlib.Data.Rat.Floor
import Swimlane.Proofs.Service.Calls

/-! What is read from a validation, whatever JSON it comes in, and which replies end in no result and in
no error of the service: those that are nested too deep, have an infinite number where a whole one is
read, or tell of an error in a value that is nested too deep for a text. -/
namespace Swimlane

namespace Double

theorem scaled_two (n : Nat) (exponent : Int) :
    ((scaled 2 n exponent).num : ℚ) / (scaled 2 n exponent).den = n * 2 ^ exponent := by
  rw [scaled]
  split
  · next h =>
    obtain ⟨power, rfl⟩ := Int.eq_ofNat_of_zero_le h
    simp
  · next h =>
    obtain ⟨power, hpower⟩ := Int.eq_ofNat_of_zero_le (Int.neg_nonneg_of_nonpos (by omega : exponent ≤ 0))
    rw [← Int.neg_neg exponent, hpower]
    simp [div_eq_mul_inv]

/-- What is kept of a finite number is its whole part, under its sign. -/
theorem truncate?_finite (negative : Bool) (significand : Nat) (exponent : Int) :
    (finite negative significand exponent).truncate? =
      some (if negative then -(⌊(significand : ℚ) * 2 ^ exponent⌋₊ : Int)
        else ⌊(significand : ℚ) * 2 ^ exponent⌋₊) := by
  rw [← scaled_two, Nat.floor_div_eq_div, truncate?]

end Double

namespace Service

open Json (Excess Inside Overlong Unshown)
open Text

variable {value : Json} {n : Int} {room : Nat} {fields : List (Text × Json)} {issue : Issue}
  {counts : Counts} {validation : Validation} {overflow : Overflow} {settings : Settings} {url : Text}
  {reply : Reply}

/-- A value with a whole number in it, and that number. -/
inductive HasWhole : Json → Int → Prop
  | int (n : Int) : HasWhole (.int n) n
  | bool (holds : Bool) : HasWhole (.bool holds) holds.toNat
  | float (negative : Bool) (significand : Nat) (exponent : Int) :
      HasWhole (.float (.finite negative significand exponent))
        (if negative then -(⌊(significand : ℚ) * 2 ^ exponent⌋₊ : Int)
          else ⌊(significand : ℚ) * 2 ^ exponent⌋₊)
  | text {text : Text} {n : Int} (h : WritesWhole text n) : HasWhole (.str text) n

/-- A value reads as the whole number in it, and as zero if there is none. -/
def ReadsAs (value : Json) (n : Int) : Prop := HasWhole value n ∨ (∀ m, ¬ HasWhole value m) ∧ n = 0

def IsInfinite (value : Json) : Prop := ∃ negative, value = .float (.infinite negative)

theorem wholeNumber_of_hasWhole (h : HasWhole value n) : wholeNumber value = .ok n := by
  cases h with
  | int n => rfl
  | bool holds => cases holds <;> rfl
  | float negative significand exponent =>
    rw [wholeNumber, Double.truncate?_finite]
    · rfl
    · simp
  | text h => rw [wholeNumber, wholeNumber?_eq_some.2 h, Option.getD_some]

/-- Only an infinite number is not read. -/
theorem wholeNumber_cases (value : Json) :
    (IsInfinite value ∧ wholeNumber value = .error .infinity) ∨
      ¬ IsInfinite value ∧ ∃ n, ReadsAs value n ∧ wholeNumber value = .ok n := by
  have hzero : (∀ m, ¬ HasWhole value m) → wholeNumber value = .ok 0 → ¬ IsInfinite value →
      ¬ IsInfinite value ∧ ∃ n, ReadsAs value n ∧ wholeNumber value = .ok n :=
    fun hnone hread hfinite => ⟨hfinite, 0, Or.inr ⟨hnone, rfl⟩, hread⟩
  have hwhole : ∀ {n}, HasWhole value n → ¬ IsInfinite value →
      ¬ IsInfinite value ∧ ∃ n, ReadsAs value n ∧ wholeNumber value = .ok n :=
    fun h hfinite => ⟨hfinite, _, Or.inl h, wholeNumber_of_hasWhole h⟩
  cases value with
  | null => exact Or.inr (hzero (by rintro m ⟨⟩) rfl (by rintro ⟨_, ⟨⟩⟩))
  | arr items => exact Or.inr (hzero (by rintro m ⟨⟩) rfl (by rintro ⟨_, ⟨⟩⟩))
  | obj fields => exact Or.inr (hzero (by rintro m ⟨⟩) rfl (by rintro ⟨_, ⟨⟩⟩))
  | bool holds => exact Or.inr (hwhole (.bool holds) (by rintro ⟨_, ⟨⟩⟩))
  | int n => exact Or.inr (hwhole (.int n) (by rintro ⟨_, ⟨⟩⟩))
  | str text =>
    refine Or.inr ?_
    cases h : wholeNumber? text with
    | some n => exact hwhole (.text (wholeNumber?_eq_some.1 h)) (by rintro ⟨_, ⟨⟩⟩)
    | none =>
      refine hzero ?_ (by rw [wholeNumber, h, Option.getD_none]) (by rintro ⟨_, ⟨⟩⟩)
      rintro m ⟨hwrites⟩
      rw [wholeNumber?_eq_some.2 ‹_›] at h
      cases h
  | float number =>
    cases number with
    | finite negative significand exponent =>
      exact Or.inr (hwhole (.float negative significand exponent) (by rintro ⟨_, ⟨⟩⟩))
    | infinite negative => exact Or.inl ⟨⟨negative, rfl⟩, rfl⟩
    | notANumber => exact Or.inr (hzero (by rintro m ⟨⟩) rfl (by rintro ⟨_, ⟨⟩⟩))

theorem wholeNumber_failsBy (value : Json) :
    FailsBy (wholeNumber value) fun overflow => overflow = .infinity ∧ IsInfinite value := by
  rcases wholeNumber_cases value with ⟨hi, h⟩ | ⟨hi, n, -, h⟩
  · rw [h]
    exact .throw _ ⟨rfl, hi⟩
  · rw [h]
    exact (FailsBy.ok n).congr fun _ => iff_of_false id fun h => hi h.2

theorem wholeNumber_eq_ok : wholeNumber value = .ok n ↔ ¬ IsInfinite value ∧ ReadsAs value n := by
  constructor
  · intro h
    rcases wholeNumber_cases value with ⟨-, herror⟩ | ⟨hi, m, hm, hread⟩
    · cases herror.symm.trans h
    · cases hread.symm.trans h
      exact ⟨hi, hm⟩
  · rintro ⟨hi, h | ⟨hnone, rfl⟩⟩
    · exact wholeNumber_of_hasWhole h
    · rcases wholeNumber_cases value with ⟨hinfinite, -⟩ | ⟨-, m, hm | ⟨-, rfl⟩, hread⟩
      · exact absurd hinfinite hi
      · exact absurd hm (hnone m)
      · exact hread

theorem textOf_failsBy (room : Nat) (value : Json) : FailsBy (textOf room value) fun overflow =>
    ∃ excess, overflow = .excess excess ∧ Unshown room value excess :=
  (Json.displayWith_failsBy Json.quoteKept room value).mapError Overflow.excess

/-- The value that tells of an error: an object has it under a name, anything else is it. -/
def told : Json → Json
  | .obj fields => (Json.field? fields "message").getD (.str [])
  | value => value

/-- An error as it is told, with its line if it is an object. -/
inductive ReadsIssue (room : Nat) : Json → Issue → Prop
  | object {fields : List (Text × Json)} {line : Int} {message : Text}
      (hl : ReadsAs (Json.field fields "line") line)
      (hm : (told (.obj fields)).displayKept room = .ok message) :
      ReadsIssue room (.obj fields) ⟨line, message⟩
  | other {value : Json} {message : Text} (h : ∀ fields, value ≠ .obj fields)
      (hm : (told value).displayKept room = .ok message) : ReadsIssue room value ⟨0, message⟩

structure ReadsCounts (fields : List (Text × Json)) (counts : Counts) : Prop where
  lanes : ReadsAs (Json.field fields "lanes") counts.lanes
  nodes : ReadsAs (Json.field fields "nodes") counts.nodes
  edges : ReadsAs (Json.field fields "edges") counts.edges

/-- What an object says of a diagram: the first fifty errors and warnings, in order, and the counts if
they are in an object. -/
structure ReadsValidation (room : Nat) (fields : List (Text × Json)) (validation : Validation) :
    Prop where
  valid : validation.valid = (Json.field fields "valid").holds
  errors : match Json.field fields "errors" with
    | .arr errors => List.Forall₂ (ReadsIssue room) (errors.take 50) validation.errors
    | _ => validation.errors = []
  warnings : match Json.field fields "warnings" with
    | .arr warnings => validation.warnings = warnings.take 50
    | _ => validation.warnings = []
  stats : match Json.field fields "stats" with
    | .obj counted => ∃ counts, validation.stats = some counts ∧ ReadsCounts counted counts
    | _ => validation.stats = none

/-- An error with an infinite line, or without a text. -/
inductive IssueOverflows (room : Nat) (error : Json) : Overflow → Prop
  | line {fields : List (Text × Json)} (he : error = .obj fields)
      (hi : IsInfinite (Json.field fields "line")) : IssueOverflows room error .infinity
  | message {excess : Excess} (hu : Unshown room (told error) excess) :
      IssueOverflows room error (.excess excess)

def CountsOverflow (fields : List (Text × Json)) : Prop :=
  IsInfinite (Json.field fields "lanes") ∨ IsInfinite (Json.field fields "nodes") ∨
    IsInfinite (Json.field fields "edges")

/-- What there is too much of in one of the first fifty errors, or in the counts. -/
inductive Overflows (room : Nat) (fields : List (Text × Json)) : Overflow → Prop
  | error {errors : List Json} {error : Json} {overflow : Overflow}
      (he : Json.field fields "errors" = .arr errors) (hm : error ∈ errors.take 50)
      (ho : IssueOverflows room error overflow) : Overflows room fields overflow
  | count {counted : List (Text × Json)} (hs : Json.field fields "stats" = .obj counted)
      (ho : CountsOverflow counted) : Overflows room fields .infinity

theorem issue_failsBy (room : Nat) (value : Json) :
    FailsBy (Issue.ofJson room value) (IssueOverflows room value) := by
  have hother : (∀ fields, value ≠ .obj fields) → ∀ overflow,
      (∃ excess, overflow = .excess excess ∧ Unshown room (told value) excess) ↔
        IssueOverflows room value overflow := by
    intro hne overflow
    constructor
    · rintro ⟨excess, rfl, hu⟩
      exact .message hu
    · rintro (⟨he, -⟩ | ⟨hu⟩)
      · exact absurd he (hne _)
      · exact ⟨_, rfl, hu⟩
  cases value with
  | obj fields =>
    refine ((wholeNumber_failsBy _).bind fun _ _ => (textOf_failsBy room _).bind
      fun _ _ => .ok _).congr fun overflow => ?_
    constructor
    · rintro (⟨rfl, hi⟩ | ⟨excess, rfl, hu⟩ | h)
      · exact .line rfl hi
      · exact .message hu
      · exact h.elim
    · rintro (⟨⟨⟩, hi⟩ | ⟨hu⟩)
      · exact .inl ⟨rfl, hi⟩
      · exact .inr (.inl ⟨_, rfl, hu⟩)
  | _ => exact ((textOf_failsBy room _).bind fun _ _ => .ok _).congr fun overflow =>
      (or_iff_left id).trans (hother nofun overflow)

theorem textOf_eq_ok {text : Text} :
    textOf room value = .ok text ↔ value.displayKept room = .ok text := mapError_eq_ok

theorem issue_eq_ok : Issue.ofJson room value = .ok issue ↔
    ¬ IssueOverflows room value .infinity ∧ ReadsIssue room value issue := by
  have hother : (∀ fields, value ≠ .obj fields) → Issue.ofJson room value =
      (textOf room value >>= fun message => pure ⟨0, message⟩) → told value = value →
      (Issue.ofJson room value = .ok issue ↔
        ¬ IssueOverflows room value .infinity ∧ ReadsIssue room value issue) := by
    intro hne hread htold
    rw [hread, bind_eq_ok]
    constructor
    · rintro ⟨message, hm, ⟨⟩⟩
      refine ⟨?_, .other hne (htold.symm ▸ textOf_eq_ok.1 hm)⟩
      rintro ⟨he, -⟩
      exact hne _ he
    · rintro ⟨-, hreads⟩
      cases hreads with
      | object => exact absurd rfl (hne _)
      | other _ hm => exact ⟨_, textOf_eq_ok.2 (htold ▸ hm), rfl⟩
  cases value with
  | obj fields =>
    rw [Issue.ofJson]
    simp only [bind_eq_ok, wholeNumber_eq_ok, textOf_eq_ok, pure, Except.pure, Except.ok.injEq]
    constructor
    · rintro ⟨line, ⟨hfinite, hline⟩, message, hm, rfl⟩
      refine ⟨?_, .object hline hm⟩
      rintro ⟨⟨⟩, hi⟩
      exact hfinite hi
    · rintro ⟨hfinite, hreads⟩
      cases hreads with
      | object hline hm => exact ⟨_, ⟨fun hi => hfinite (.line rfl hi), hline⟩, _, hm, rfl⟩
      | other hne => exact absurd rfl (hne fields)
  | _ => exact hother nofun rfl rfl

theorem counts_failsBy (fields : List (Text × Json)) : FailsBy (Counts.ofFields fields)
    fun overflow => overflow = .infinity ∧ CountsOverflow fields :=
  ((wholeNumber_failsBy _).bind fun _ _ => (wholeNumber_failsBy _).bind fun _ _ =>
    (wholeNumber_failsBy _).bind fun _ _ => .ok _).congr fun overflow => by
      simp only [CountsOverflow, and_or_left, or_false]

theorem counts_eq_ok :
    Counts.ofFields fields = .ok counts ↔ ¬ CountsOverflow fields ∧ ReadsCounts fields counts := by
  simp only [Counts.ofFields, bind_eq_ok, wholeNumber_eq_ok, pure, Except.pure, Except.ok.injEq,
    CountsOverflow, not_or]
  constructor
  · rintro ⟨lanes, ⟨hl, hlanes⟩, nodes, ⟨hn, hnodes⟩, edges, ⟨he, hedges⟩, rfl⟩
    exact ⟨⟨hl, hn, he⟩, hlanes, hnodes, hedges⟩
  · rintro ⟨⟨hl, hn, he⟩, hlanes, hnodes, hedges⟩
    exact ⟨_, ⟨hl, hlanes⟩, _, ⟨hn, hnodes⟩, _, ⟨he, hedges⟩, rfl⟩

theorem mem_firstItems {item : Json} :
    item ∈ firstItems value ↔ ∃ items, value = .arr items ∧ item ∈ items.take 50 := by
  cases value with
  | arr items => simp [firstItems, Json.arr?, maxIssues]
  | _ => simp [firstItems, Json.arr?]

theorem stats_failsBy (value : Json) : FailsBy (value.obj?.mapM Counts.ofFields)
    fun overflow => overflow = .infinity ∧ ∃ counted, value = .obj counted ∧ CountsOverflow counted := by
  cases value with
  | obj counted => exact ((counts_failsBy counted).map some).congr fun overflow => by simp
  | _ => exact (FailsBy.ok none).congr fun overflow => by simp

/-- An object gives no result just if there is too much of something in it. -/
theorem ofFields_failsBy (room : Nat) (fields : List (Text × Json)) :
    FailsBy (Validation.ofFields room fields) (Overflows room fields) := by
  refine ((FailsBy.mapM fun item _ => issue_failsBy room item).bind fun _ _ =>
    (stats_failsBy _).bind fun _ _ => .ok _).congr fun overflow => ?_
  constructor
  · rintro (⟨error, hm, ho⟩ | ⟨rfl, counted, hs, ho⟩ | h)
    · obtain ⟨errors, he, hm⟩ := mem_firstItems.1 hm
      exact .error he hm ho
    · exact .count hs ho
    · exact h.elim
  · rintro (⟨he, hm, ho⟩ | ⟨hs, ho⟩)
    · exact .inl ⟨_, mem_firstItems.2 ⟨_, he, hm⟩, ho⟩
    · exact .inr (.inl ⟨rfl, _, hs, ho⟩)

theorem errors_eq_ok {issues : List Issue} : (firstItems value).mapM (Issue.ofJson room) = .ok issues ↔
    (∀ error ∈ firstItems value, ¬ IssueOverflows room error .infinity) ∧
      match value with
      | .arr errors => List.Forall₂ (ReadsIssue room) (errors.take 50) issues
      | _ => issues = [] := by
  simp only [mapM_eq_ok, issue_eq_ok, List.forall₂_and_left]
  refine and_congr_right fun _ => ?_
  cases value with
  | arr errors => rfl
  | _ => simp [firstItems, Json.arr?]

theorem stats_eq_ok {stats : Option Counts} : value.obj?.mapM Counts.ofFields = .ok stats ↔
    (∀ counted, value = .obj counted → ¬ CountsOverflow counted) ∧
      match value with
      | .obj counted => ∃ counts, stats = some counts ∧ ReadsCounts counted counts
      | _ => stats = none := by
  cases value with
  | obj counted =>
    simp only [Json.obj?, Option.mapM_some, map_eq_pure_bind, bind_eq_ok, counts_eq_ok, pure,
      Except.pure, Except.ok.injEq]
    constructor
    · rintro ⟨counts, ⟨hfinite, hreads⟩, rfl⟩
      refine ⟨?_, counts, rfl, hreads⟩
      rintro _ ⟨⟩
      exact hfinite
    · rintro ⟨hfinite, counts, rfl, hreads⟩
      exact ⟨counts, ⟨hfinite counted rfl, hreads⟩, rfl⟩
  | _ => simp [Json.obj?, pure, Except.pure, eq_comm]

theorem firstItems_eq {items : List Json} : items = firstItems value ↔
    match value with
    | .arr found => items = found.take 50
    | _ => items = [] := by
  cases value <;> rfl

/-- An object gives a result unless a number in it is infinite, and that result is what it says. -/
theorem ofFields_eq_ok : Validation.ofFields room fields = .ok validation ↔
    ¬ Overflows room fields .infinity ∧ ReadsValidation room fields validation := by
  simp only [Validation.ofFields, bind_eq_ok, errors_eq_ok, stats_eq_ok, pure, Except.pure,
    Except.ok.injEq]
  constructor
  · rintro ⟨errors, ⟨hfinite, herrors⟩, stats, ⟨hcounted, hstats⟩, rfl⟩
    refine ⟨?_, rfl, herrors, firstItems_eq.1 rfl, hstats⟩
    rintro (⟨he, hm, ho⟩ | ⟨hs, ho⟩)
    · exact hfinite _ (mem_firstItems.2 ⟨_, he, hm⟩) ho
    · exact hcounted _ hs ho
  · rintro ⟨hfinite, hvalid, herrors, hwarnings, hstats⟩
    refine ⟨_, ⟨fun error hm ho => ?_, herrors⟩, _, ⟨fun counted hs ho => ?_, hstats⟩, ?_⟩
    · obtain ⟨errors, he, hm⟩ := mem_firstItems.1 hm
      exact hfinite (.error he hm ho)
    · exact hfinite (.count hs ho)
    · rw [← hvalid, ← firstItems_eq.2 hwarnings]

/-- What tells of an error is the empty string, or stands in the error. -/
theorem told_cases (error : Json) : told error = .str [] ∨ ∃ level, Inside (told error) level error := by
  cases error with
  | obj fields =>
    rw [told]
    cases h : Json.field? fields "message" with
    | none => exact .inl rfl
    | some message => exact .inr ⟨1, Json.inside_of_field? h⟩
  | _ => exact .inr ⟨0, .here⟩

/-- What tells of an error in a reply has no number with too many digits. -/
theorem not_digits_of_gives (hg : Gives room reply fields) (showing : Nat) :
    ¬ Overflows showing fields (.excess .digits) := by
  intro h
  cases h with
  | @error errors error _ he hm ho =>
    cases ho with
    | message hu =>
      obtain ⟨hne, hn, hlong⟩ := hu
      rcases told_cases error with htold | ⟨level, htold⟩
      · exact hne [] htold
      · have herror : Inside error 1 (.arr errors) := .item (List.mem_of_mem_take hm) .here
        exact not_overlong_of_gives hg
          (((hn.trans htold).trans herror).trans (Json.inside_of_field he nofun)) hlong

/-- What a reply to a validation comes to. -/
inductive ValidationOutcome (depths : Json.Depths) (reply : Reply) :
    Except CallFailure Validation → Prop
  | read {fields : List (Text × Json)} {validation : Validation}
      (hg : Gives depths.reading reply fields)
      (ho : ∀ overflow, ¬ Overflows depths.showing fields overflow)
      (hr : ReadsValidation depths.showing fields validation) :
      ValidationOutcome depths reply (.ok validation)
  | unavailable {error : ServiceError} (hg : ∀ fields, ¬ Gives depths.reading reply fields)
      (hd : ¬ TooDeep depths.reading reply) : ValidationOutcome depths reply (.error (.service error))
  | tooDeep (hd : TooDeep depths.reading reply) :
      ValidationOutcome depths reply (.error (.overflow (.excess .depth)))
  | overflow {fields : List (Text × Json)} {overflow : Overflow}
      (hg : Gives depths.reading reply fields) (ho : Overflows depths.showing fields overflow)
      (hn : overflow ≠ .excess .digits) :
      ValidationOutcome depths reply (.error (.overflow overflow))

theorem validationOutcome (settings : Settings) (url : Text) (reply : Reply) :
    ValidationOutcome settings.depths reply (readValidation settings url reply) := by
  have houtcome := fieldsOutcome settings.depths.reading url reply
  rw [readValidation]
  generalize reply.fields _ _ = result at houtcome ⊢
  cases houtcome with
  | unavailable hg hd => exact .unavailable hg hd
  | tooDeep hd => exact .tooDeep hd
  | @read fields hg =>
    have hfails := ofFields_failsBy settings.depths.showing fields
    cases hread : Validation.ofFields settings.depths.showing fields with
    | ok validation =>
      change ValidationOutcome _ _ ((Validation.ofFields _ _).mapError CallFailure.overflow)
      rw [hread]
      exact .read hg (hfails.of_ok validation hread) (ofFields_eq_ok.1 hread).2
    | error overflow =>
      have ho := hfails.of_error overflow hread
      change ValidationOutcome _ _ ((Validation.ofFields _ _).mapError CallFailure.overflow)
      rw [hread]
      exact .overflow hg ho fun h => not_digits_of_gives hg _ (h ▸ ho)

end Service

end Swimlane
