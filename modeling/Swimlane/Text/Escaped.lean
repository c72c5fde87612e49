import Swimlane.Text.Basic

/-! Text inside double quotation marks, where a backslash stands before a mark or a backslash. -/
namespace Swimlane.Escaped

variable {text body rest : Text}

/-- A line feed has no escape and becomes a blank. -/
def encodeChar (c : Char) : Text :=
  if c = '\\' || c = '"' then ['\\', c] else if c = '\n' then [' '] else [c]

/-- The written form of a value, without outer blanks. -/
def encode (text : Text) : Text := Text.trim (text.flatMap encodeChar)

/-- The value that survives writing: line feeds become blanks and outer blanks go. -/
def normal (text : Text) : Text :=
  Text.trim (text.map fun c => if c = '\n' then ' ' else c)

/-- Drops the backslash of each escape; one before a line feed or at the end is no escape. -/
def decode : Text → Text
  | [] => []
  | c :: rest =>
    if c = '\\' then
      match rest with
      | [] => [c]
      | d :: rest => if d = '\n' then c :: d :: decode rest else d :: decode rest
    else c :: decode rest

/-- The text up to the closing mark, escapes and all, and what follows the mark. -/
def body? : Text → Option (Text × Text)
  | [] => none
  | c :: rest =>
    if c = '"' then some ([], rest)
    else if c = '\\' then
      match rest with
      | [] => none
      | d :: rest =>
        if d = '\n' then none
        else (body? rest).map fun (body, after) => (c :: d :: body, after)
    else (body? rest).map fun (body, after) => (c :: body, after)

/-- Nothing of the text is lost. -/
theorem eq_of_body? (h : body? text = some (body, rest)) : text = body ++ '"' :: rest := by
  fun_induction body? text generalizing body <;> simp_all
  all_goals
    obtain ⟨b, a, h, rfl, rfl⟩ := h
    simp_all

end Swimlane.Escaped
