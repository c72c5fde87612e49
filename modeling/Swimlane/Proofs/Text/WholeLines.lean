import Swimlane.Proofs.Text.Breaks
import Swimlane.Proofs.Text.Blanks

/-! Whole lines of a text, each with the break behind it, and what is written on those that are not
blank. -/
namespace Swimlane.Text

variable {text body mark line rest : Text} {lines : List Text} {p : Text → Bool}

/-- The lines in one pass, each with its break; a carriage return and a line feed are one break. -/
def wholeLines : Text → List Text
  | '\r' :: '\n' :: rest => ['\r', '\n'] :: wholeLines rest
  | c :: rest =>
    if c = '\r' ∨ c = '\n' then [c] :: wholeLines rest
    else (wholeLines rest).modifyHead (c :: ·)
  | [] => [[]]

/-- The lines that are not blank, without their outer blanks. -/
def writtenLines (text : Text) : List Text := (numberedLines text).map NumberedLine.text

/-- A line with the break that ends it. -/
inductive Ended : Text → Prop
  | intro {body mark : Text} (hb : BreakFree body)
      (hm : mark = ['\n'] ∨ mark = ['\r'] ∨ mark = ['\r', '\n']) : Ended (body ++ mark)

/-- Lines with their breaks, of which only the last may have none. -/
inductive Broken : List Text → Prop
  | nil : Broken []
  | last {body : Text} (hb : BreakFree body) : Broken [body]
  | cons {line : Text} {rest : List Text} (hl : Ended line) (hr : Broken rest) : Broken (line :: rest)

/-- What ends a line: nothing, if it is the last. -/
def IsMark (mark : Text) : Prop := mark = [] ∨ mark = ['\n'] ∨ mark = ['\r'] ∨ mark = ['\r', '\n']

theorem IsMark.blank (h : IsMark mark) : ∀ c ∈ mark, isBlank c = true := by
  rcases h with rfl | rfl | rfl | rfl <;> exact List.all_eq_true.1 (by decide)

theorem wholeLines_ne_nil (text : Text) : wholeLines text ≠ [] := by
  fun_induction wholeLines text with
  | case3 c rest hpair hc ih => simpa [List.modifyHead_eq_nil_iff] using ih
  | _ => simp

theorem flatten_wholeLines (text : Text) : (wholeLines text).flatten = text := by
  fun_induction wholeLines text with
  | case1 rest ih => simp [ih]
  | case2 c rest hpair hc ih => simp [ih]
  | case3 c rest hpair hc ih =>
    obtain ⟨line, more, hlines⟩ := List.exists_cons_of_ne_nil (wholeLines_ne_nil rest)
    simpa [hlines] using ih
  | case4 => rfl

theorem broken_wholeLines (text : Text) : Broken (wholeLines text) := by
  fun_induction wholeLines text with
  | case1 rest ih => exact .cons (@Ended.intro [] ['\r', '\n'] (by decide) (by simp)) ih
  | case2 c rest hpair hc ih =>
    refine .cons (@Ended.intro [] [c] (by decide) ?_) ih
    rcases hc with rfl | rfl <;> simp
  | case3 c rest hpair hc ih =>
    rw [not_or] at hc
    generalize wholeLines rest = lines at ih
    cases ih with
    | nil => exact .nil
    | last hb => exact .last (hb.cons hc.1 hc.2)
    | cons hl hr =>
      cases hl with
      | intro hb hm => exact .cons (.intro (hb.cons hc.1 hc.2) hm) hr
  | case4 => exact .last (by decide)

theorem Broken.filter (h : Broken lines) : Broken (lines.filter p) := by
  induction h with
  | nil => exact .nil
  | @last body hb =>
    by_cases hp : p body = true
    · rw [List.filter_cons_of_pos hp]
      exact .last hb
    · rw [List.filter_cons_of_neg hp]
      exact .nil
  | @cons line rest hl _ ih =>
    by_cases hp : p line = true
    · rw [List.filter_cons_of_pos hp]
      exact .cons hl ih
    · rw [List.filter_cons_of_neg hp]
      exact ih

theorem trim_append_blanks (h : ∀ c ∈ mark, isBlank c = true) : trim (text ++ mark) = trim text := by
  obtain ⟨left, right, heq, hl, hr⟩ := exists_margins text
  have hends : ∀ c ∈ right ++ mark, isBlank c = true := by
    intro c hc
    exact (List.mem_append.1 hc).elim (hr c) (h c)
  have htrim := trim_margins hl hends (trimmed_trim text)
  rwa [← List.append_assoc, ← heq] at htrim

theorem texts_numbered (parts : List Text) (number : Nat) :
    ((parts.zipIdx number).filterMap fun part =>
      (nonempty? (trim part.1)).map (NumberedLine.mk part.2 ·)).map NumberedLine.text =
        (parts.map trim).filter (· ≠ []) := by
  induction parts generalizing number with
  | nil => rfl
  | cons part rest ih =>
    rw [List.zipIdx_cons, List.map_cons]
    cases ht : trim part with
    | nil =>
      rw [List.filterMap_cons_none (by simp [ht, nonempty?]), ih]
      simp
    | cons c more =>
      rw [List.filterMap_cons_some (b := ⟨number, c :: more⟩) (by simp [ht, nonempty?]),
        List.map_cons, ih]
      simp

theorem writtenLines_eq (text : Text) :
    writtenLines text = ((segments text).map trim).filter (· ≠ []) := texts_numbered _ 1

theorem segments_append (h : BreakFree body) :
    segments (body ++ text) = (segments text).modifyHead (body ++ ·) := by
  induction body with
  | nil => cases h : segments text <;> simp [h]
  | cons c more ih =>
    obtain ⟨hn, hr⟩ := h
    rw [List.mem_cons, not_or] at hn hr
    rw [List.cons_append, segments_cons (Ne.symm hr.1) (Ne.symm hn.1), ih ⟨hn.2, hr.2⟩,
      List.modifyHead_modifyHead]
    rfl

theorem segments_return (h : rest.head? ≠ some '\n') :
    segments ('\r' :: rest) = [] :: segments rest := by
  have hjoin : joinBreakPairs ('\r' :: rest) = '\r' :: joinBreakPairs rest := by
    rw [joinBreakPairs]
    rintro more - rfl
    exact h rfl
  rw [segments, unifyBreaks, hjoin, List.map_cons, if_pos rfl, List.splitOn_cons_eq_if_modifyHead,
    if_pos (by simp)]
  rfl

/-- A break ends a line. One blank line is lost if a carriage return comes to stand before a line
feed. -/
theorem segments_mark (rest : Text) (hm : mark = ['\n'] ∨ mark = ['\r'] ∨ mark = ['\r', '\n']) :
    ∃ below, segments (mark ++ rest) = [] :: below ∧
      (segments rest = below ∨ segments rest = [] :: below) := by
  rcases hm with rfl | rfl | rfl
  · exact ⟨_, segments_feed rest, Or.inl rfl⟩
  · by_cases h : rest.head? = some '\n'
    · obtain ⟨more, rfl⟩ : ∃ more, rest = '\n' :: more := by
        cases rest with
        | nil => simp at h
        | cons c more => exact ⟨more, by simpa using h⟩
      exact ⟨_, segments_pair more, Or.inr (segments_feed more)⟩
    · exact ⟨_, segments_return h, Or.inl rfl⟩
  · exact ⟨_, segments_pair rest, Or.inl rfl⟩

/-- A line with its break adds what is written on it. -/
theorem writtenLines_append (h : Ended line) :
    writtenLines (line ++ rest) = [trim line].filter (· ≠ []) ++ writtenLines rest := by
  cases h with
  | @intro body mark hb hm =>
    have hblank := IsMark.blank (Or.inr hm)
    obtain ⟨below, hmark, hrest⟩ := segments_mark rest hm
    have hbelow : ((segments rest).map trim).filter (· ≠ []) =
        (below.map trim).filter (· ≠ []) := by
      rcases hrest with hrest | hrest
      · rw [hrest]
      · rw [hrest]
        rfl
    rw [writtenLines_eq, writtenLines_eq, hbelow, List.append_assoc, segments_append hb, hmark,
      trim_append_blanks hblank, List.modifyHead_cons, List.append_nil, List.map_cons,
      ← List.singleton_append, List.filter_append]

/-- Lines that are left out leave what is written on the others. -/
theorem writtenLines_flatten (h : Broken lines) :
    writtenLines lines.flatten = (lines.map trim).filter (· ≠ []) := by
  induction h with
  | nil => rfl
  | @last body hb =>
    rw [List.flatten_singleton, writtenLines_eq, segments_line hb]
  | @cons line rest hl _ ih =>
    rw [List.flatten_cons, writtenLines_append hl, ih, List.map_cons, ← List.filter_append,
      List.singleton_append]

/-- A whole line is a line with its mark. -/
theorem wholeLines_segments (text : Text) :
    List.Forall₂ (fun whole line => ∃ mark, whole = line ++ mark ∧ IsMark mark) (wholeLines text)
      (segments text) := by
  fun_induction wholeLines text with
  | case1 rest ih =>
    rw [segments_pair]
    exact .cons ⟨_, rfl, by simp [IsMark]⟩ ih
  | case2 c rest hpair hc ih =>
    have hsegments : segments (c :: rest) = [] :: segments rest := by
      rcases hc with rfl | rfl
      · refine segments_return fun hhead => ?_
        obtain ⟨more, rfl⟩ := List.head?_eq_some_iff.1 hhead
        exact hpair more rfl rfl
      · exact segments_feed rest
    rw [hsegments]
    exact .cons ⟨[c], rfl, by rcases hc with rfl | rfl <;> simp [IsMark]⟩ ih
  | case3 c rest hpair hc ih =>
    rw [not_or] at hc
    rw [segments_cons hc.1 hc.2]
    generalize wholeLines rest = wholes at ih
    generalize segments rest = parts at ih
    cases ih with
    | nil => exact .nil
    | cons hhead htail =>
      obtain ⟨mark, rfl, hmark⟩ := hhead
      exact .cons ⟨mark, rfl, hmark⟩ htail
  | case4 => exact .cons ⟨[], rfl, Or.inl rfl⟩ .nil

end Swimlane.Text
