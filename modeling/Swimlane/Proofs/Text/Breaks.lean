import Swimlane.Proofs.Text.Blanks
import Swimlane.Text.Lines

/-! The parts of a text between its line breaks, and texts in which all breaks are of one kind. -/
namespace Swimlane.Text

variable {c : Char} {text line rest : Text} {lines : List Text} {newline : Newline}

/-- The parts between line breaks of any kind, in order. -/
def segments (text : Text) : List Text := (unifyBreaks text).splitOn '\n'

/-- Whether every carriage return and every line feed stands in a pair of the two. -/
def onlyPairs : Text → Bool
  | '\r' :: '\n' :: rest => onlyPairs rest
  | c :: rest => c ≠ '\r' && c ≠ '\n' && onlyPairs rest
  | [] => true

/-- All line breaks are line feeds, or all are pairs. -/
def UniformBreaks (text : Text) : Prop := '\r' ∉ text ∨ onlyPairs text = true

instance : DecidablePred UniformBreaks := fun text =>
  inferInstanceAs (Decidable ('\r' ∉ text ∨ onlyPairs text = true))

def BreakFree (line : Text) : Prop := '\n' ∉ line ∧ '\r' ∉ line

instance : DecidablePred BreakFree := fun line =>
  inferInstanceAs (Decidable ('\n' ∉ line ∧ '\r' ∉ line))

theorem BreakFree.cons (hr : c ≠ '\r') (hn : c ≠ '\n') (h : BreakFree line) :
    BreakFree (c :: line) := by
  obtain ⟨hfeed, hreturn⟩ := h
  exact ⟨by simp [hfeed, Ne.symm hn], by simp [hreturn, Ne.symm hr]⟩

theorem joinBreakPairs_append (hl : '\n' ∉ line) (hr : line.getLast? ≠ some '\r') :
    joinBreakPairs (line ++ rest) = line ++ joinBreakPairs rest := by
  induction line with
  | nil => rfl
  | cons c more ih =>
    have hmore : '\n' ∉ more := fun h => hl (List.mem_cons_of_mem c h)
    cases more with
    | nil =>
      have hc : c ≠ '\r' := by simpa using hr
      rw [List.singleton_append, joinBreakPairs]
      · rfl
      · intro tail hpair
        exact absurd hpair hc
    | cons d tail =>
      have hd : d ≠ '\n' := fun h => hmore (by simp [h])
      rw [List.cons_append, joinBreakPairs, ih hmore (by simpa using hr)]
      · rfl
      · intro tail hc hpair
        exact hd (List.cons.inj hpair).1

theorem joinBreakPairs_append_pair (hl : '\n' ∉ line) :
    joinBreakPairs (line ++ '\r' :: '\n' :: rest) = line ++ '\n' :: joinBreakPairs rest := by
  induction line with
  | nil => rfl
  | cons c more ih =>
    have hmore : '\n' ∉ more := fun h => hl (List.mem_cons_of_mem c h)
    rw [List.cons_append, joinBreakPairs, ih hmore]
    · rfl
    · intro tail hc hpair
      cases more with
      | nil => simp at hpair
      | cons d tail =>
        simp only [List.cons_append, List.cons.injEq] at hpair
        exact hmore (by simp [hpair.1])

theorem joinBreakPairs_eq_self (hl : '\n' ∉ line) : joinBreakPairs line = line := by
  induction line with
  | nil => rfl
  | cons c more ih =>
    have hmore : '\n' ∉ more := fun h => hl (List.mem_cons_of_mem c h)
    rw [joinBreakPairs, ih hmore]
    intro tail hc hpair
    exact hmore (by simp [hpair])

/-- A part without line feeds is cut at its carriage returns. -/
theorem splitOn_unified (hl : '\n' ∉ line) :
    (line.map fun c => if c = '\r' then '\n' else c).splitOn '\n' = line.splitOn '\r' := by
  induction line with
  | nil => rfl
  | cons c more ih =>
    have hc : c ≠ '\n' := fun h => hl (by simp [h])
    have hmore : '\n' ∉ more := fun h => hl (List.mem_cons_of_mem c h)
    rw [List.map_cons, List.splitOn_cons_eq_if_modifyHead, List.splitOn_cons_eq_if_modifyHead,
      ih hmore]
    by_cases hr : c = '\r' <;> simp [hr, hc]

theorem segments_append_lf (hl : '\n' ∉ line) (hr : line.getLast? ≠ some '\r') :
    segments (line ++ '\n' :: rest) = line.splitOn '\r' ++ segments rest := by
  have hrest : joinBreakPairs ('\n' :: rest) = '\n' :: joinBreakPairs rest := rfl
  rw [segments, unifyBreaks, joinBreakPairs_append hl hr, hrest, List.map_append, List.map_cons,
    if_neg (by decide), List.splitOn_append_cons_self, splitOn_unified hl]
  rfl

theorem segments_append_pair (hl : '\n' ∉ line) :
    segments (line ++ '\r' :: '\n' :: rest) = line.splitOn '\r' ++ segments rest := by
  rw [segments, unifyBreaks, joinBreakPairs_append_pair hl, List.map_append, List.map_cons,
    if_neg (by decide), List.splitOn_append_cons_self, splitOn_unified hl]
  rfl

theorem segments_eq_splitOn (hl : '\n' ∉ line) : segments line = line.splitOn '\r' := by
  rw [segments, unifyBreaks, joinBreakPairs_eq_self hl, splitOn_unified hl]

theorem segments_line (h : BreakFree line) : segments line = [line] := by
  rw [segments_eq_splitOn h.1, List.splitOn_eq_singleton h.2]

theorem segments_feed (rest : Text) : segments ('\n' :: rest) = [] :: segments rest :=
  segments_append_lf List.not_mem_nil (by simp)

theorem segments_pair (rest : Text) : segments ('\r' :: '\n' :: rest) = [] :: segments rest :=
  segments_append_pair List.not_mem_nil

theorem segments_cons (hr : c ≠ '\r') (hn : c ≠ '\n') :
    segments (c :: rest) = (segments rest).modifyHead (c :: ·) := by
  rw [segments, unifyBreaks, joinBreakPairs]
  · rw [List.map_cons, if_neg hr, List.splitOn_cons_eq_if_modifyHead, if_neg (by simpa using hn)]
    rfl
  · intro tail hc
    exact absurd hc hr

/-- Joined lines are parted again, and a line is parted where it holds carriage returns. -/
theorem segments_join (newline : Newline) (hne : lines ≠ [])
    (h : ∀ line ∈ lines, '\n' ∉ line ∧ line.getLast? ≠ some '\r') :
    segments (newline.join lines) = lines.flatMap fun line => line.splitOn '\r' := by
  induction lines with
  | nil => exact absurd rfl hne
  | cons line more ih =>
    obtain ⟨hl, hr⟩ := h line (by simp)
    cases more with
    | nil =>
      simp only [Newline.join, Text.join, List.intercalate_singleton, List.flatMap_cons,
        List.flatMap_nil, List.append_nil]
      exact segments_eq_splitOn hl
    | cons next tail =>
      have hmore := ih (by simp) fun line hline => h line (List.mem_cons_of_mem _ hline)
      rw [List.flatMap_cons, ← hmore, Newline.join, Text.join, List.intercalate_cons_cons]
      cases newline with
      | lf =>
        simpa [Newline.text, Newline.join, Text.join] using segments_append_lf hl hr
      | crlf =>
        simpa [Newline.text, Newline.join, Text.join] using segments_append_pair hl

/-- Lines without breaks are the segments of the text that they join to. -/
theorem segments_join_lines (newline : Newline) (hne : lines ≠ [])
    (h : ∀ line ∈ lines, BreakFree line) : segments (newline.join lines) = lines := by
  have hsegments := segments_join newline hne fun line hline =>
    ⟨(h line hline).1, fun hlast => (h line hline).2 (List.mem_of_getLast? hlast)⟩
  have hsingle : ∀ parts : List Text, (∀ part ∈ parts, BreakFree part) →
      parts.flatMap (fun part => part.splitOn '\r') = parts := by
    intro parts hparts
    induction parts with
    | nil => rfl
    | cons part rest ih =>
      rw [List.flatMap_cons, List.splitOn_eq_singleton (hparts part (by simp)).2,
        ih fun other hother => hparts other (List.mem_cons_of_mem _ hother)]
      rfl
  rw [hsegments, hsingle lines h]

/-- Further down, numbers are higher. -/
theorem pairwise_zipIdx (lines : List Text) (number : Nat) :
    (lines.zipIdx number).Pairwise fun part later => part.2 < later.2 := by
  rw [← List.pairwise_map, List.zipIdx_map_snd]
  exact List.pairwise_lt_range'

theorem not_mem_of_mem_splitOn {sep : Char} (h : line ∈ text.splitOn sep) : sep ∉ line := by
  induction text generalizing line with
  | nil =>
    rw [List.splitOn_nil, List.mem_singleton] at h
    simp [h]
  | cons c rest ih =>
    rw [List.splitOn_cons_eq_if_modifyHead] at h
    split at h
    · rcases List.mem_cons.1 h with rfl | h
      · simp
      · exact ih h
    · next hc =>
      cases hs : rest.splitOn sep with
      | nil => exact absurd hs (List.splitOn_ne_nil sep rest)
      | cons first others =>
        rw [hs, List.modifyHead_cons, List.mem_cons] at h
        rcases h with rfl | h
        · have hfirst : sep ∉ first := ih (by simp [hs])
          have hne : sep ≠ c := fun he => hc (by simp [he])
          simp [hfirst, hne]
        · exact ih (by simp [hs, h])

theorem mem_of_mem_splitOn {sep : Char} (h : line ∈ text.splitOn sep) (hc : c ∈ line) :
    c ∈ text := by
  induction text generalizing line with
  | nil =>
    rw [List.splitOn_nil, List.mem_singleton] at h
    simp [h] at hc
  | cons d rest ih =>
    rw [List.splitOn_cons_eq_if_modifyHead] at h
    split at h
    · rcases List.mem_cons.1 h with rfl | h
      · simp at hc
      · exact List.mem_cons_of_mem d (ih h hc)
    · cases hs : rest.splitOn sep with
      | nil => exact absurd hs (List.splitOn_ne_nil sep rest)
      | cons first others =>
        rw [hs, List.modifyHead_cons, List.mem_cons] at h
        rcases h with rfl | h
        · rcases List.mem_cons.1 hc with rfl | hc
          · simp
          · exact List.mem_cons_of_mem d (ih (by simp [hs]) hc)
        · exact List.mem_cons_of_mem d (ih (by simp [hs, h]) hc)

theorem breakFree_of_mem_segments (h : line ∈ segments text) : BreakFree line := by
  refine ⟨not_mem_of_mem_splitOn h, ?_⟩
  intro hr
  have hmem := mem_of_mem_splitOn h hr
  obtain ⟨c, _, hc⟩ := List.mem_map.1 hmem
  split at hc
  · exact absurd hc (by decide)
  · next hne => exact hne hc

theorem mentions_pair_of_onlyPairs (h : onlyPairs text = true) (hr : '\r' ∈ text) :
    mentions ['\r', '\n'] text = true := by
  fun_induction onlyPairs text with
  | case1 rest ih => simp [mentions]
  | case2 c rest hc ih =>
    simp only [Bool.and_eq_true, decide_eq_true_eq, ne_eq] at h
    have hrest : '\r' ∈ rest := by
      rcases List.mem_cons.1 hr with hr | hr
      · exact absurd hr.symm h.1.1
      · exact hr
    simp [mentions, ih h.2 hrest]
  | case3 => simp at hr

theorem splitAtPairs_eq_segments (h : onlyPairs text = true) :
    splitAtPairs text = segments text := by
  fun_induction onlyPairs text with
  | case1 rest ih =>
    rw [splitAtPairs, ih h, segments_pair]
  | case2 c rest hc ih =>
    simp only [Bool.and_eq_true, decide_eq_true_eq, ne_eq] at h
    rw [splitAtPairs, ih h.2, segments_cons h.1.1 h.1.2]
    exact hc
  | case3 => rfl

theorem unifyBreaks_eq_self (hr : '\r' ∉ text) : unifyBreaks text = text := by
  induction text with
  | nil => rfl
  | cons c rest ih =>
    have hc : c ≠ '\r' := fun h => hr (by simp [h])
    have hrest := ih fun h => hr (List.mem_cons_of_mem c h)
    rw [unifyBreaks, joinBreakPairs]
    · rw [List.map_cons, if_neg hc]
      exact congrArg (c :: ·) hrest
    · intro tail hpair
      exact absurd hpair hc

/-- The lines that are edited are the parts that are read. -/
theorem split_eq_segments (h : UniformBreaks text) :
    (Newline.ofText text).split text = segments text := by
  by_cases hp : mentions ['\r', '\n'] text = true
  · have hr : '\r' ∈ text := (mentions_iff.1 hp).subset (by simp)
    rw [Newline.ofText, if_pos hp, Newline.split]
    exact splitAtPairs_eq_segments (h.resolve_left fun hn => hn hr)
  · have hr : '\r' ∉ text := by
      intro hr
      rcases h with h | h
      · exact h hr
      · exact hp (mentions_pair_of_onlyPairs h hr)
    rw [Newline.ofText, if_neg hp, Newline.split, segments, unifyBreaks_eq_self hr]

theorem splitAtPairs_append (hr : '\r' ∉ line) :
    splitAtPairs (line ++ '\r' :: '\n' :: rest) = line :: splitAtPairs rest := by
  induction line with
  | nil => rfl
  | cons c more ih =>
    have hc : c ≠ '\r' := fun h => hr (by simp [h])
    rw [List.cons_append, splitAtPairs, ih fun h => hr (List.mem_cons_of_mem c h)]
    · rfl
    · intro tail hpair
      exact absurd hpair hc

theorem splitAtPairs_eq_singleton (hr : '\r' ∉ line) : splitAtPairs line = [line] := by
  induction line with
  | nil => rfl
  | cons c more ih =>
    have hc : c ≠ '\r' := fun h => hr (by simp [h])
    rw [splitAtPairs, ih fun h => hr (List.mem_cons_of_mem c h)]
    · rfl
    · intro tail hpair
      exact absurd hpair hc

/-- Lines without breaks are the lines of the text that they join to. -/
theorem split_join (hne : lines ≠ []) (h : ∀ line ∈ lines, BreakFree line) :
    newline.split (newline.join lines) = lines := by
  cases newline with
  | lf => exact List.splitOn_intercalate '\n' (fun line hline => (h line hline).1) hne
  | crlf =>
    induction lines with
    | nil => exact absurd rfl hne
    | cons line more ih =>
      have hr := (h line (by simp)).2
      cases more with
      | nil =>
        simpa [Newline.join, Text.join, Newline.split] using splitAtPairs_eq_singleton hr
      | cons next tail =>
        have hmore := ih (by simp) fun line hline => h line (List.mem_cons_of_mem _ hline)
        rw [Newline.split, Newline.join, Text.join] at hmore
        rw [Newline.split, Newline.join, Text.join, List.intercalate_cons_cons, Newline.text,
          List.append_assoc]
        exact (splitAtPairs_append hr).trans (congrArg (line :: ·) hmore)

theorem splitAtPairs_ne_nil (text : Text) : splitAtPairs text ≠ [] := by
  fun_induction splitAtPairs text with
  | case1 rest ih => simp
  | case2 c rest hc ih => simpa [List.modifyHead_eq_nil_iff] using ih
  | case3 => simp

theorem join_modifyHead (hne : lines ≠ []) :
    newline.join (lines.modifyHead (c :: ·)) = c :: newline.join lines := by
  obtain ⟨line, more, rfl⟩ := List.exists_cons_of_ne_nil hne
  cases more with
  | nil => simp [Newline.join, Text.join]
  | cons next tail => simp [Newline.join, Text.join, List.intercalate_cons_cons]

/-- The lines of any text join to the text again. -/
theorem join_split (newline : Newline) (text : Text) :
    newline.join (newline.split text) = text := by
  cases newline with
  | lf => exact List.intercalate_splitOn '\n'
  | crlf =>
    rw [Newline.split]
    fun_induction splitAtPairs text with
    | case1 rest ih =>
      obtain ⟨line, more, hlines⟩ := List.exists_cons_of_ne_nil (splitAtPairs_ne_nil rest)
      rw [hlines] at ih ⊢
      rw [Newline.join, Text.join, List.intercalate_cons_cons]
      rw [Newline.join, Text.join] at ih
      rw [ih]
      rfl
    | case2 c rest hc ih => rw [join_modifyHead (splitAtPairs_ne_nil rest), ih]
    | case3 => rfl

theorem mem_join {c : Char} (h : c ∈ newline.join lines) :
    c ∈ newline.text ∨ ∃ line ∈ lines, c ∈ line := by
  induction lines with
  | nil => simp [Newline.join, Text.join] at h
  | cons line more ih =>
    cases more with
    | nil =>
      rw [Newline.join, Text.join, List.intercalate_singleton] at h
      exact Or.inr ⟨line, by simp, h⟩
    | cons next tail =>
      rw [Newline.join, Text.join, List.intercalate_cons_cons, List.mem_append,
        List.mem_append] at h
      rcases h with (h | h) | h
      · exact Or.inr ⟨line, by simp, h⟩
      · exact Or.inl h
      · rcases ih h with h | ⟨other, hother, hc⟩
        · exact Or.inl h
        · exact Or.inr ⟨other, List.mem_cons_of_mem _ hother, hc⟩

theorem mem_join_of_mem {c : Char} (h : line ∈ lines) (hc : c ∈ line) : c ∈ newline.join lines := by
  induction lines with
  | nil => simp at h
  | cons first more ih =>
    cases more with
    | nil => simpa [Newline.join, Text.join, ← List.mem_singleton.1 h] using hc
    | cons next tail =>
      rw [Newline.join, Text.join, List.intercalate_cons_cons, List.mem_append, List.mem_append]
      rcases List.mem_cons.1 h with rfl | h
      · exact Or.inl (Or.inl hc)
      · exact Or.inr (ih h)

/-- The lines of a text have no other characters than the text. -/
theorem mem_of_mem_split {c : Char} (h : line ∈ newline.split text) (hc : c ∈ line) : c ∈ text := by
  rw [← join_split newline text]
  exact mem_join_of_mem h hc

theorem carriage_not_mem_join (h : ∀ line ∈ lines, '\r' ∉ line) : '\r' ∉ Newline.lf.join lines := by
  intro hr
  rcases mem_join hr with hr | ⟨line, hline, hr⟩
  · simp [Newline.text] at hr
  · exact h line hline hr

/-- The line end of joined lines is found again if it stands between two of them. -/
theorem ofText_join (newline : Newline) (h : ∀ line ∈ lines, BreakFree line)
    (htwo : newline = .lf ∨ 2 ≤ lines.length) :
    Newline.ofText (newline.join lines) = newline := by
  cases newline with
  | lf =>
    have hp : mentions ['\r', '\n'] (Newline.lf.join lines) ≠ true := by
      intro hp
      have hr : '\r' ∈ Newline.lf.join lines := (mentions_iff.1 hp).subset (by simp)
      exact carriage_not_mem_join (fun line hline => (h line hline).2) hr
    rw [Newline.ofText, if_neg hp]
  | crlf =>
    cases lines with
    | nil => simp at htwo
    | cons line more =>
      cases more with
      | nil => simp at htwo
      | cons next tail =>
        have hp : mentions ['\r', '\n'] (Newline.crlf.join (line :: next :: tail)) = true := by
          rw [mentions_iff, Newline.join, Text.join, List.intercalate_cons_cons]
          exact ⟨line, _, rfl⟩
        rw [Newline.ofText, if_pos hp]

theorem onlyPairs_append (h : BreakFree line) : onlyPairs (line ++ rest) = onlyPairs rest := by
  induction line with
  | nil => rfl
  | cons c more ih =>
    obtain ⟨hn, hr⟩ := h
    have hmore : BreakFree more :=
      ⟨fun hm => hn (List.mem_cons_of_mem c hm), fun hm => hr (List.mem_cons_of_mem c hm)⟩
    have hne : c ≠ '\r' ∧ c ≠ '\n' := ⟨fun he => hr (by simp [he]), fun he => hn (by simp [he])⟩
    rw [List.cons_append, onlyPairs, ih hmore]
    · simp [hne]
    · intro tail hc
      exact absurd hc hne.1

/-- The line breaks of joined lines are all of the kind that parts them. -/
theorem uniformBreaks_join (newline : Newline) (h : ∀ line ∈ lines, BreakFree line) :
    UniformBreaks (newline.join lines) := by
  cases newline with
  | lf => exact Or.inl (carriage_not_mem_join fun line hline => (h line hline).2)
  | crlf =>
    right
    induction lines with
    | nil => rfl
    | cons line more ih =>
      have hmore := ih fun other hother => h other (List.mem_cons_of_mem _ hother)
      have hline := h line (by simp)
      cases more with
      | nil =>
        rw [Newline.join, Text.join, List.intercalate_singleton, ← List.append_nil line,
          onlyPairs_append hline]
        rfl
      | cons next tail =>
        rw [Newline.join, Text.join, List.intercalate_cons_cons, List.append_assoc,
          onlyPairs_append hline]
        exact hmore

/-- The text with a pair of a carriage return and a line feed in place of every line feed. -/
def pairBreaks (text : Text) : Text := text.flatMap fun c => if c = '\n' then ['\r', '\n'] else [c]

theorem pairBreaks_eq_self (h : '\n' ∉ text) : pairBreaks text = text := by
  induction text with
  | nil => rfl
  | cons c rest ih =>
    rw [List.mem_cons, not_or] at h
    rw [pairBreaks, List.flatMap_cons, if_neg (Ne.symm h.1)]
    exact congrArg (c :: ·) (ih h.2)

/-- Joined lines have pairs in place of line feeds if they are joined by pairs. -/
theorem pairBreaks_join (h : ∀ line ∈ lines, '\n' ∉ line) :
    pairBreaks (Newline.lf.join lines) = Newline.crlf.join lines := by
  induction lines with
  | nil => rfl
  | cons line more ih =>
    have hline := pairBreaks_eq_self (h line (by simp))
    have hmore := ih fun other hother => h other (List.mem_cons_of_mem _ hother)
    cases more with
    | nil => simpa [Newline.join, Text.join] using hline
    | cons next tail =>
      rw [pairBreaks] at hline hmore
      rw [Newline.join, Text.join] at hmore ⊢
      rw [Newline.join, Text.join, List.intercalate_cons_cons, List.intercalate_cons_cons,
        pairBreaks, List.flatMap_append, List.flatMap_append, hline, hmore]
      rfl

/-- A text with a line feed has two lines. -/
theorem two_le_length_splitOn (h : '\n' ∈ text) : 2 ≤ (text.splitOn '\n').length := by
  have hjoin := join_split .lf text
  rw [Newline.split] at hjoin
  by_contra hlength
  cases hl : text.splitOn '\n' with
  | nil => exact List.splitOn_ne_nil '\n' text hl
  | cons line more =>
    cases more with
    | nil =>
      have hline : '\n' ∉ line := not_mem_of_mem_splitOn (hl ▸ List.mem_singleton_self line)
      rw [hl, Newline.join, Text.join, List.intercalate_singleton] at hjoin
      exact hline (hjoin ▸ h)
    | cons next tail =>
      rw [hl, List.length_cons, List.length_cons] at hlength
      omega

/-- A text is cut into the same lines when its line feeds become pairs. -/
theorem split_pairBreaks (hr : '\r' ∉ text) : Newline.ofText text = .lf ∧
    Newline.ofText (pairBreaks text) = (if '\n' ∈ text then .crlf else .lf) ∧
    (Newline.ofText (pairBreaks text)).split (pairBreaks text) = Newline.lf.split text := by
  have hfree : ∀ line ∈ Newline.lf.split text, BreakFree line := fun line hline =>
    ⟨not_mem_of_mem_splitOn hline, fun hc => hr (mem_of_mem_splitOn hline hc)⟩
  have hpairs : pairBreaks text = Newline.crlf.join (Newline.lf.split text) := by
    rw [← pairBreaks_join fun line hline => (hfree line hline).1, join_split]
  have hlf : Newline.ofText text = .lf := by
    rw [← join_split .lf text]
    exact ofText_join .lf hfree (Or.inl rfl)
  refine ⟨hlf, ?_⟩
  by_cases hn : '\n' ∈ text
  · have hcrlf : Newline.ofText (pairBreaks text) = .crlf := by
      rw [hpairs]
      exact ofText_join .crlf hfree (Or.inr (two_le_length_splitOn hn))
    rw [if_pos hn]
    refine ⟨hcrlf, ?_⟩
    rw [hcrlf, hpairs]
    exact split_join (List.splitOn_ne_nil '\n' text) hfree
  · rw [if_neg hn, pairBreaks_eq_self hn, hlf]
    exact ⟨rfl, rfl⟩

end Swimlane.Text
