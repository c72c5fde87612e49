/-! Text as a list of characters: blanks, trimming, and the search for a piece of text. -/
namespace Swimlane

/-- Text is kept as its characters, in order. -/
abbrev Text := List Char

instance : Coe String Text := ⟨String.toList⟩

instance : LawfulBEq Text := inferInstance

namespace Text

variable {c : Char} {text : Text}

def inRanges (ranges : List (Nat × Nat)) (c : Char) : Bool :=
  ranges.any fun (first, last) => first ≤ c.toNat && c.toNat ≤ last

/-- The blanks of every script, the line breaks among them. -/
def blankRanges : List (Nat × Nat) :=
  [(0x09, 0x0D), (0x1C, 0x20), (0x85, 0x85), (0xA0, 0xA0), (0x1680, 0x1680), (0x2000, 0x200A),
   (0x2028, 0x2029), (0x202F, 0x202F), (0x205F, 0x205F), (0x3000, 0x3000)]

def isBlank (c : Char) : Bool := inRanges blankRanges c

def trimLeft (text : Text) : Text := text.dropWhile isBlank

def trimRight (text : Text) : Text := (text.reverse.dropWhile isBlank).reverse

def trim (text : Text) : Text := trimRight (trimLeft text)

/-- Whether `piece` stands anywhere in the text. -/
def mentions (piece : Text) : Text → Bool
  | [] => piece.isEmpty
  | c :: rest => piece.isPrefixOf (c :: rest) || mentions piece rest

/-- The rest of the text after `start`, if it begins so. -/
def after? : (start text : Text) → Option Text
  | [], text => some text
  | _ :: _, [] => none
  | a :: start, c :: rest => if a = c then after? start rest else none

/-- The parts, with `between` between each two. -/
def join (between : Text) (parts : List Text) : Text := List.intercalate between parts

/-- The text unless it is empty. -/
def nonempty? : Text → Option Text
  | [] => none
  | text => some text

theorem nonempty?_eq_some {value : Text} (h : nonempty? text = some value) :
    text = value ∧ value ≠ [] := by
  cases text with
  | nil => simp [nonempty?] at h
  | cons c rest =>
    cases h
    simp

theorem after?_eq_some {start rest : Text} (h : after? start text = some rest) :
    text = start ++ rest := by
  fun_induction after? start text <;> simp_all

theorem after?_append (start rest : Text) : after? start (start ++ rest) = some rest := by
  induction start <;> simp_all [after?]

theorem trimLeft_blank (h : isBlank c = true) : trimLeft (c :: text) = trimLeft text := by
  simp [trimLeft, h]

end Text

end Swimlane
