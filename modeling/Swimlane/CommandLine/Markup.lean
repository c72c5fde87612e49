import Swimlane.Text.Basic

/-! Text with style tags in brackets, and plain text made safe to stand in it. -/
namespace Swimlane.CommandLine.Markup

/-- What may stand first in a tag. -/
def opensTag (c : Char) : Bool :=
  ('a' ≤ c && c ≤ 'z') || c = '#' || c = '/' || c = '@'

/-- The tag that the text starts with, and the text after it. Tags hold no opening bracket. -/
def tag? : Text → Option (Text × Text)
  | '[' :: c :: rest =>
    if opensTag c then
      match rest.dropWhile fun d => d != '[' && d != ']' with
      | ']' :: after =>
        some ('[' :: c :: (rest.takeWhile fun d => d != '[' && d != ']') ++ [']'], after)
      | _ => none
    else none
  | _ => none

theorem eq_of_tag? {text tag rest : Text} (h : tag? text = some (tag, rest)) :
    text = tag ++ rest := by
  unfold tag? at h
  split at h
  · next c tail =>
    split at h
    · split at h
      · next after hafter =>
        simp only [Option.some.injEq, Prod.mk.injEq] at h
        obtain ⟨rfl, rfl⟩ := h
        have hsplit := List.takeWhile_append_dropWhile
          (p := fun d : Char => d != '[' && d != ']') (l := tail)
        rw [hafter] at hsplit
        simpa using hsplit.symm
      · simp at h
    · simp at h
  · simp at h

theorem tag?_ne_nil {text tag rest : Text} (h : tag? text = some (tag, rest)) : tag ≠ [] := by
  unfold tag? at h
  grind

def backslashes (count : Nat) : Text := List.replicate count '\\'

/-- Puts a backslash before every tag and doubles the backslashes in front of it. `pending` counts
the backslashes just read. -/
def escapeTags (pending : Nat) : Text → Text
  | [] => backslashes pending
  | c :: rest =>
    if c = '\\' then escapeTags (pending + 1) rest
    else
      match _h : tag? (c :: rest) with
      | some (tag, after) => backslashes (2 * pending + 1) ++ tag ++ escapeTags 0 after
      | none => backslashes pending ++ c :: escapeTags 0 rest
  termination_by text => text.length
  decreasing_by
    · simp
    · have htag := List.length_pos_iff.2 (tag?_ne_nil _h)
      have heq := congrArg List.length (eq_of_tag? _h)
      simp only [List.length_append] at heq
      omega
    · simp

/-- The number of backslashes at the end of a text. -/
def finalBackslashes (text : Text) : Nat := (text.reverse.takeWhile (· == '\\')).length

/-- Plain text as it is written in markup. A single backslash at the end is doubled. -/
def escape (text : Text) : Text :=
  let written := escapeTags 0 text
  if finalBackslashes written = 1 then written ++ ['\\'] else written

/-- Markup in a style. -/
def styled (style markup : Text) : Text :=
  ('[' :: style ++ [']']) ++ markup ++ ('[' :: '/' :: style ++ [']'])

end Swimlane.CommandLine.Markup
