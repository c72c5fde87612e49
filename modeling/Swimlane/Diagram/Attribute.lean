import Swimlane.OrderedMap
import Swimlane.Text.Escaped
import Swimlane.Text.Word

/-! Attributes of a line, `key:"value"` or `key="value"`, read from the line and set in it. -/
namespace Swimlane

open Text Escaped

/-- The attributes by key, in order of first appearance. -/
abbrev Attributes := OrderedMap Text Text

/-- What stands between a key and its value, up to the opening mark; then the value as written and
the rest of the line. -/
def valueAfter? (text : Text) : Option (Text × Text × Text) :=
  let blanks := text.takeWhile isBlank
  match text.dropWhile isBlank with
  | [] => none
  | sign :: rest =>
    if sign = ':' || sign = '=' then
      let more := rest.takeWhile isBlank
      match rest.dropWhile isBlank with
      | [] => none
      | mark :: rest =>
        if mark = '"' then
          (body? rest).map fun (body, after) => (blanks ++ sign :: more ++ [mark], body, after)
        else none
    else none

theorem eq_of_valueAfter? {text gap body rest : Text}
    (h : valueAfter? text = some (gap, body, rest)) : text = gap ++ body ++ '"' :: rest := by
  unfold valueAfter? at h
  split at h
  · simp at h
  · next sign tail htail =>
    split at h
    · dsimp only at h
      split at h
      · simp at h
      · next mark after hafter =>
        split at h
        · obtain ⟨⟨b, a⟩, hb, heq⟩ := Option.map_eq_some_iff.1 h
          simp only [Prod.mk.injEq] at heq
          obtain ⟨rfl, rfl, rfl⟩ := heq
          have htext := List.takeWhile_append_dropWhile (p := isBlank) (l := text)
          have hrest := List.takeWhile_append_dropWhile (p := isBlank) (l := tail)
          rw [hafter, eq_of_body? hb] at hrest
          rw [htail, ← hrest] at htext
          simpa [hrest] using htext.symm
        · simp at h
    · simp at h

/-- A stretch of a line: an attribute with all that is written of it, or text of no meaning. -/
inductive Piece
  | plain (text : Text)
  | attribute (key gap body : Text)
  deriving DecidableEq, Repr

def Piece.source : Piece → Text
  | .plain text => text
  | .attribute key gap body => key ++ gap ++ body ++ ['"']

/-- Cuts a line at its attributes. A key is a whole word. -/
def pieces : Text → List Piece
  | [] => []
  | c :: rest =>
    if isWord c then
      let key := c :: rest.takeWhile isWord
      match _h : valueAfter? (rest.dropWhile isWord) with
      | some (gap, body, after) => .attribute key gap body :: pieces after
      | none => .plain key :: pieces (rest.dropWhile isWord)
    else .plain [c] :: pieces rest
  termination_by text => text.length
  decreasing_by
    · have hle := (List.dropWhile_sublist (p := isWord) (l := rest)).length_le
      have heq := congrArg List.length (eq_of_valueAfter? _h)
      simp only [List.length_append, List.length_cons] at heq ⊢
      omega
    · have hle := (List.dropWhile_sublist (p := isWord) (l := rest)).length_le
      simp only [List.length_cons]
      omega
    · simp

/-- Nothing of the line is lost. -/
theorem source_pieces (text : Text) : (pieces text).flatMap Piece.source = text := by
  fun_induction pieces text with
  | case1 => rfl
  | case2 c rest hc key gap body after h ih =>
    simp only [List.flatMap_cons, ih, Piece.source]
    have hrest := List.takeWhile_append_dropWhile (p := isWord) (l := rest)
    rw [eq_of_valueAfter? h] at hrest
    simpa [key] using hrest
  | case3 c rest hc key h ih =>
    simp only [List.flatMap_cons, ih, Piece.source, key]
    simp
  | case4 c rest hc ih => simp [Piece.source, ih]

def Piece.attribute? : Piece → Option (Text × Text)
  | .plain _ => none
  | .attribute key _ body => some (key, decode body)

/-- The attributes of a line; the last value of a repeated key counts. -/
def readAttributes (text : Text) : Attributes :=
  .ofList ((pieces text).filterMap Piece.attribute?)

/-- An attribute as it is written. -/
def renderAttribute (key value : Text) : Text := key ++ ":\"" ++ encode value ++ "\""

def Piece.hasKey (key : Text) : Piece → Bool
  | .plain _ => false
  | .attribute other _ _ => other = key

/-- Puts `text` in place of the first piece with the key, if there is one. -/
def replacePiece? (key text : Text) : List Piece → Option (List Piece)
  | [] => none
  | piece :: rest =>
    if piece.hasKey key then some (.plain text :: rest)
    else (replacePiece? key text rest).map (piece :: ·)

/-- Writes an attribute in place of the first one with its key, or at the end of the line. -/
def setAttribute (line key value : Text) : Text :=
  let written := renderAttribute key value
  match replacePiece? key written (pieces line) with
  | some replaced => replaced.flatMap Piece.source
  | none => trimRight line ++ " " ++ written

end Swimlane
