import Swimlane.Json.Reader
import Swimlane.Json.Writer
import Swimlane.Proofs.OrderedMap
import Swimlane.Proofs.Text.Blanks
import Swimlane.Proofs.Text.Halves

/-! JSON text of strings, and of objects that hold strings, reads back as what was written. -/
namespace Swimlane.Json

open Text (join_cons toNat_lt not_half map_shown_char signs_keep)

variable {c d : Char} {n start position room : Nat} {read : List Nat} {rest : Text}

theorem hexValue?_hexDigit (h : n < 16) : hexValue? (hexDigit n) = some n := by
  have hall : ∀ n < 16, hexValue? (hexDigit n) = some n := by decide
  exact hall n h

/-- The four digits of a number below 65536 write the number. -/
theorem exists_hexDigits (h : n < 0x10000) : ∃ a b c d, hexDigits 4 n = [a, b, c, d] ∧
    hexUnit? [a, b, c, d] = some n := by
  refine ⟨_, _, _, _, rfl, ?_⟩
  simp only [hexUnit?, List.length_cons, List.length_nil, List.take_succ_cons, List.take_zero,
    List.foldl_cons, List.foldl_nil, hexValue?_hexDigit (Nat.mod_lt _ (by decide : 0 < 16)),
    bind, Option.bind, pure]
  simp
  omega

/-- The numbers that stand for a character in a string: itself, or the two halves of one beyond 16
bits. -/
def units (c : Char) : List Nat :=
  if c.toNat < 0x10000 then [c.toNat]
  else [0xD800 + (c.toNat - 0x10000) / 0x400, 0xDC00 + (c.toNat - 0x10000) % 0x400]

/-- An escape of four digits is read as their number if more text stands behind it. -/
theorem readString_escapeUnit (h : n < 0x10000) :
    readString start read position (escapeUnit n ++ d :: rest) =
      readString start (n :: read) (position + 6) (d :: rest) := by
  obtain ⟨a, b, c, e, hdigits, hunit⟩ := exists_hexDigits h
  have hescape : escapeUnit n ++ d :: rest = '\\' :: 'u' :: a :: b :: c :: e :: d :: rest := by
    rw [escapeUnit, hdigits]
    rfl
  rw [hescape, readString]
  case heq => exact hunit
  simp

theorem length_escapeUnit (h : n < 0x10000) : (escapeUnit n).length = 6 := by
  obtain ⟨a, b, c, e, hdigits, _⟩ := exists_hexDigits h
  rw [escapeUnit, hdigits]
  rfl

theorem readString_escapePair {first second : Nat} (hf : first < 0x10000) (hs : second < 0x10000) :
    readString start read position (escapeUnit first ++ (escapeUnit second ++ d :: rest)) =
      readString start (second :: first :: read)
        (position + ((escapeUnit first).length + (escapeUnit second).length)) (d :: rest) := by
  have hcons : escapeUnit second ++ d :: rest = '\\' :: ((escapeUnit second).tail ++ d :: rest) := rfl
  rw [hcons, readString_escapeUnit hf, ← hcons, readString_escapeUnit hs, length_escapeUnit hf,
    length_escapeUnit hs]

/-- An escape of one letter is read as the character that it stands for. -/
theorem readString_simple {e : Char} (hu : e ≠ 'u') (he : simpleEscape? e = some c) :
    readString start read position ('\\' :: e :: rest) =
      readString start (c.toNat :: read) (position + 2) rest := by
  rw [readString]
  case x_1 => exact fun _ _ _ _ _ hsame _ => hu hsame
  case x_2 => exact hu
  simp [he]

theorem readString_plain (hq : c ≠ '"') (hb : c ≠ '\\') (hc : 0x20 ≤ c.toNat) :
    readString start read position (c :: rest) =
      readString start (c.toNat :: read) (position + 1) rest := by
  have hlow : ¬ c.toNat < 0x20 := by omega
  rw [readString.eq_def]
  simp only [if_neg hq, if_neg hb, if_neg hlow]

/-- An escaped character is read as its numbers. -/
theorem readString_escapeChar (c : Char) :
    readString start read position (escapeChar c ++ d :: rest) =
      readString start ((units c).reverse ++ read) (position + (escapeChar c).length) (d :: rest) := by
  have hsmall : ∀ {code : Nat}, c.toNat = code → code < 0x10000 → units c = [code] := by
    intro code hcode hlt
    rw [units, hcode, if_pos hlt]
  rw [escapeChar]
  iterate 5
    split
    · next h =>
      subst h
      exact readString_simple (by decide) rfl
  split
  · next h =>
    rw [hsmall h (by decide)]
    exact readString_simple (c := Char.ofNat 0x0C) (by decide) rfl
  split
  · next h =>
    rw [hsmall h (by decide)]
    exact readString_simple (c := Char.ofNat 0x08) (by decide) rfl
  split
  · next hquote hback _ _ _ _ _ h =>
    simp only [Bool.and_eq_true, decide_eq_true_eq] at h
    rw [hsmall rfl (by omega)]
    exact readString_plain hquote hback h.1
  split
  · next h =>
    rw [hsmall rfl h, readString_escapeUnit h, length_escapeUnit h]
    rfl
  · next h =>
    have hlt := toNat_lt c
    have hfirst : 0xD800 + (c.toNat - 0x10000) / 0x400 < 0x10000 := by omega
    have hsecond : 0xDC00 + (c.toNat - 0x10000) % 0x400 < 0x10000 := by omega
    rw [units, if_neg h]
    dsimp only
    rw [List.append_assoc, readString_escapePair hfirst hsecond, List.length_append]
    rfl

/-- A string is read up to its closing mark. -/
theorem readString_text (text : Text) :
    readString start read position (text.flatMap escapeChar ++ '"' :: rest) =
      (.string (Text.Sign.ofUnits (read.reverse ++ text.flatMap units)),
        position + (text.flatMap escapeChar).length) := by
  induction text generalizing read position with
  | nil =>
    rw [readString.eq_def]
    simp
  | cons c more ih =>
    obtain ⟨d, behind, hbehind⟩ : ∃ d behind, more.flatMap escapeChar ++ '"' :: rest = d :: behind :=
      List.exists_cons_of_ne_nil (by simp)
    rw [List.flatMap_cons, List.append_assoc, hbehind, readString_escapeChar, ← hbehind, ih,
      List.flatMap_cons, List.length_append, List.reverse_append, List.reverse_reverse,
      List.append_assoc, Nat.add_assoc]

/-- The numbers of a character make up the character again. -/
theorem ofUnits_units (c : Char) (more : List Nat) :
    Text.Sign.ofUnits (units c ++ more) = .char c :: Text.Sign.ofUnits more := by
  have hlt := toNat_lt c
  have hhalf := not_half c
  rw [units]
  split
  · next h =>
    have hwhole : ¬ (0xD800 ≤ c.toNat ∧ c.toNat < 0xE000) := by omega
    have hunit : Text.Sign.ofUnit c.toNat = .char c := by
      rw [Text.Sign.ofUnit, dif_neg hwhole, Char.ofNat_toNat]
    cases more with
    | nil => simp [Text.Sign.ofUnits, hunit]
    | cons second rest =>
      have hpair : (0xD800 ≤ c.toNat && c.toNat < 0xDC00 && 0xDC00 ≤ second && second < 0xE000) =
          false := by
        simp only [Bool.and_eq_false_iff, decide_eq_false_iff_not]
        omega
      rw [List.singleton_append, Text.Sign.ofUnits, if_neg (by simp [hpair]), hunit]
  · next h =>
    have hsum : 0x10000 + (0xD800 + (c.toNat - 0x10000) / 0x400 - 0xD800) * 0x400 +
        (0xDC00 + (c.toNat - 0x10000) % 0x400 - 0xDC00) = c.toNat := by omega
    have hpair : (0xD800 ≤ 0xD800 + (c.toNat - 0x10000) / 0x400 &&
        0xD800 + (c.toNat - 0x10000) / 0x400 < 0xDC00 &&
        0xDC00 ≤ 0xDC00 + (c.toNat - 0x10000) % 0x400 &&
        0xDC00 + (c.toNat - 0x10000) % 0x400 < 0xE000) = true := by
      simp only [Bool.and_eq_true, decide_eq_true_eq]
      omega
    rw [List.cons_append, List.singleton_append, Text.Sign.ofUnits, if_pos hpair, hsum,
      Char.ofNat_toNat]

theorem ofUnits_flatMap (text : Text) :
    Text.Sign.ofUnits (text.flatMap units) = text.map .char := by
  induction text with
  | nil => rfl
  | cons c more ih => rw [List.flatMap_cons, ofUnits_units, ih, List.map_cons]

theorem lexeme_mark (position : Nat) (rest : Text) : lexeme position '"' rest =
    ((readString position [] (position + 1) rest).1,
      (readString position [] (position + 1) rest).2 - position) := by
  simp [lexeme]

theorem stringText_keep (text : Text) :
    stringText (Text.keep text) = '"' :: text.flatMap escapeChar ++ ['"'] := by
  rw [stringText, signs_keep, List.flatMap_map]
  rfl

/-- A written string is one token, and then come those of the text behind it. -/
theorem tokens_stringText (position : Nat) (text rest : Text) : ∃ place,
    tokens position (stringText (Text.keep text) ++ rest) =
      (position, .string (text.map .char)) :: tokens place rest := by
  have hmark : isSpace '"' = false := by decide
  have hcut : stringText (Text.keep text) ++ rest = '"' :: (text.flatMap escapeChar ++ '"' :: rest) := by
    simp [stringText_keep]
  have hmore : position + 1 + (text.flatMap escapeChar).length - position =
      (text.flatMap escapeChar).length + 1 := by omega
  have hdrop : (text.flatMap escapeChar ++ '"' :: rest).drop ((text.flatMap escapeChar).length + 1) =
      rest := by
    rw [List.drop_length_add_append]
    rfl
  refine ⟨position + 1 + ((text.flatMap escapeChar).length + 1), ?_⟩
  rw [hcut, tokens, hmark, lexeme_mark, readString_text, List.reverse_nil, List.nil_append,
    ofUnits_flatMap]
  simp only [hmore, hdrop]
  rfl

theorem tokens_space (position : Nat) (rest : Text) :
    tokens position (' ' :: rest) = tokens (position + 1) rest := by
  have hspace : isSpace ' ' = true := by decide
  rw [tokens, hspace, if_pos rfl]

/-- A sign between values is one token. -/
theorem tokens_sign {token : Token} (hs : isSpace c = false)
    (hl : lexeme position c rest = (token, 0)) :
    tokens position (c :: rest) = (position, token) :: tokens (position + 1) rest := by
  rw [tokens, hs, hl]
  rfl

/-- Fields that hold strings. -/
def stringFields (fields : List (Text × Text)) : List (Text × Json) :=
  fields.map fun (name, text) => (name, .str text)

/-- A field with a string as it is written. -/
def fieldText (field : Text × Text) : Text := stringText field.1 ++ ": " ++ stringText field.2

/-- An object with strings as it is written. -/
def objectText (fields : List (Text × Text)) : Text :=
  "\x7b" ++ Text.join ", " (fields.map fieldText) ++ "\x7d"

theorem compactFields_stringFields (room : Nat) (fields : List (Text × Text)) :
    compactFields room (stringFields fields) = .ok (fields.map fieldText) := by
  induction fields with
  | nil => rfl
  | cons field rest ih =>
    have hfield : compactFields room (stringFields (field :: rest)) =
        compactFields room (stringFields rest) >>= fun more => pure (fieldText field :: more) := rfl
    rw [hfield, ih]
    rfl

/-- An object of strings can be written wherever there is room for one. -/
theorem compact_stringFields (h : 0 < room) (fields : List (Text × Text)) :
    (Json.obj (stringFields fields)).compact room = .ok (objectText fields) := by
  obtain ⟨less, rfl⟩ := Nat.exists_eq_succ_of_ne_zero h.ne'
  rw [compact, compactFields_stringFields]
  rfl

/-- A field as it stands among those whose texts keep halves. -/
def keptField (field : Text × Text) : Text × Text := (Text.keep field.1, Text.keep field.2)

/-- The tokens of a written field. -/
theorem tokens_fieldText (position : Nat) (field : Text × Text) (rest : Text) : ∃ first second third,
    tokens position (fieldText (keptField field) ++ rest) = (position, .string (field.1.map .char)) ::
      (first, .colon) :: (second, .string (field.2.map .char)) :: tokens third rest := by
  obtain ⟨first, hname⟩ := tokens_stringText position field.1
    (':' :: ' ' :: (stringText (Text.keep field.2) ++ rest))
  obtain ⟨third, htext⟩ := tokens_stringText (first + 2) field.2 rest
  refine ⟨first, first + 2, third, ?_⟩
  have hcut : fieldText (keptField field) ++ rest =
      stringText (Text.keep field.1) ++ ':' :: ' ' :: (stringText (Text.keep field.2) ++ rest) := by
    simp [fieldText, keptField]
  rw [hcut, hname, tokens_sign (by decide) rfl, tokens_space, htext]

/-- What stands behind a field of a written object. -/
def objectRest (fields : List (Text × Text)) : Text :=
  ((fields.map keptField).map fieldText).flatMap (", ".toList ++ ·) ++ ['\x7d']

theorem objectRest_cons (field : Text × Text) (rest : List (Text × Text)) :
    objectRest (field :: rest) = ',' :: ' ' :: (fieldText (keptField field) ++ objectRest rest) := by
  rw [objectRest, List.map_cons, List.map_cons, List.flatMap_cons, List.append_assoc,
    List.append_assoc]
  rfl

/-- The last value of an object's field, and the fields behind it, close the object. -/
theorem assemble_fields (room : Nat) (read : List (Text × Json)) (name text : Text)
    (fields : List (Text × Text)) (position : Nat) :
    assemble room (List.map Text.Sign.shown) (.after (.str text)) [.fields read name]
      (tokens position (objectRest fields)) =
      .ok (.obj (gatherFields ((stringFields fields).reverse ++ (name, .str text) :: read))) := by
  induction fields generalizing read name text position with
  | nil =>
    change assemble _ _ _ _ (tokens position ['\x7d']) = _
    rw [tokens_sign (by decide) rfl, tokens]
    rfl
  | cons field rest ih =>
    obtain ⟨first, second, third, htokens⟩ :=
      tokens_fieldText (position + 2) field (objectRest rest)
    rw [objectRest_cons, tokens_sign (by decide) rfl, tokens_space, htokens]
    have hfields : (stringFields (field :: rest)).reverse ++ (name, .str text) :: read =
        (stringFields rest).reverse ++ (field.1, .str field.2) :: (name, .str text) :: read := by
      simp [stringFields]
    have hsteps : ∀ later, assemble room (List.map Text.Sign.shown) (.after (.str text))
        [.fields read name] ((position, .comma) :: (position + 2, .string (field.1.map .char)) ::
          (first, .colon) :: (second, .string (field.2.map .char)) :: later) =
        assemble room (List.map Text.Sign.shown)
          (.after (.str ((field.2.map .char).map Text.Sign.shown)))
          [.fields ((name, .str text) :: read) ((field.1.map .char).map Text.Sign.shown)] later :=
      fun _ => rfl
    rw [hfields, hsteps, map_shown_char, map_shown_char]
    exact ih ((name, .str text) :: read) field.1 field.2 third

theorem gatherFields_reverse {fields : List (Text × Json)} (h : (fields.map Prod.fst).Nodup) :
    gatherFields fields.reverse = fields := by
  rw [gatherFields, List.reverse_reverse]
  induction fields using List.reverseRecOn with
  | nil => rfl
  | append_singleton rest field ih =>
    rw [List.map_append, List.nodup_append] at h
    rw [List.foldl_append, ih h.1]
    refine putEntry_of_not_mem fun hmem => ?_
    exact h.2.2 _ hmem _ (by simp) rfl

/-- An object of strings reads back from its text. -/
theorem read_objectText {fields : List (Text × Text)} (hne : fields ≠ [])
    (h : (fields.map Prod.fst).Nodup) (room : Nat) :
    Json.read (room + 1) (objectText (fields.map keptField)) = .ok (.obj (stringFields fields)) := by
  obtain ⟨field, rest, rfl⟩ := List.exists_cons_of_ne_nil hne
  have hcut : objectText ((field :: rest).map keptField) =
      '\x7b' :: (fieldText (keptField field) ++ objectRest rest) := by
    rw [objectText, List.map_cons, List.map_cons, join_cons, List.append_assoc, List.append_assoc]
    rfl
  obtain ⟨first, second, third, htokens⟩ := tokens_fieldText 1 field (objectRest rest)
  have hassemble := assemble_fields (room + 1) [] field.1 field.2 rest third
  have hnames : ((stringFields (field :: rest)).map Prod.fst).Nodup := by
    rw [stringFields, List.map_map]
    exact h
  have hgather : gatherFields ((stringFields rest).reverse ++ [(field.1, .str field.2)]) =
      stringFields (field :: rest) := by
    rw [← gatherFields_reverse hnames]
    simp [stringFields]
  rw [hgather] at hassemble
  have hsteps : ∀ later, assemble (room + 1) (List.map Text.Sign.shown) .value []
      ((0, .openObject) :: (0 + 1, .string (field.1.map .char)) :: (first, .colon) ::
        (second, .string (field.2.map .char)) :: later) =
      assemble (room + 1) (List.map Text.Sign.shown)
        (.after (.str ((field.2.map .char).map Text.Sign.shown)))
        [.fields [] ((field.1.map .char).map Text.Sign.shown)] later := fun _ => rfl
  rw [Json.read, readWith, hcut, if_neg (by simp), tokens_sign (by decide) rfl, htokens, hsteps,
    map_shown_char, map_shown_char, hassemble]

end Swimlane.Json
