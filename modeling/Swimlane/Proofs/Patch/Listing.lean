import Swimlane.Patch.Operation
import Swimlane.Proofs.Json.Excess

/-! Which batches are read as operations: those with objects in all places for objects, each of whose
words has a text. -/
namespace Swimlane.Patch

open Json (Unshown)

variable {α β : Type} {room : Nat} {value : Json} {name : Text} {fields : List (Text × Json)}

/-- A value that is not an object, where an object is asked for and is not left out. -/
def Misfilled : Json → Prop
  | .null | .obj _ => False
  | _ => True

/-- A value that cannot be read as an operation. -/
def MalformedOperation : Json → Prop
  | .obj fields =>
    Misfilled (Json.field fields "newNode") ∨ Misfilled (Json.field fields "newEdge") ∨
      Misfilled (Json.field fields "updates") ∨
      ∃ node, Json.field fields "newNode" = .obj node ∧ Misfilled (Json.field node "properties")
  | _ => True

/-- A value that cannot be read as a list of operations. -/
def MalformedBatch : Json → Prop
  | .arr items => ∃ item ∈ items, MalformedOperation item
  | .obj fields => fields ≠ []
  | _ => True

/-- A word that may be left out. -/
def optionalWord : Json → List Json
  | .null => []
  | value => [value]

/-- A word that has a default. -/
def wordOrDefault (value : Json) : List Json := if value.holds then [value] else []

/-- The values in an object, all of them words. -/
def wordsIn (value : Json) : List Json := (value.obj?.getD []).map Prod.snd

theorem wordsIn_eq (value : Json) : value.obj?.elim [] (List.map Prod.snd) = wordsIn value := by
  cases value <;> rfl

theorem obj?_eq_some : value.obj? = some fields ↔ value = .obj fields := by
  cases value <;> simp [Json.obj?]

def nodeWords (fields : List (Text × Json)) : List Json :=
  optionalWord (Json.field fields "shape") ++ optionalWord (Json.field fields "label") ++
    wordsIn (Json.field fields "properties")

def edgeWords (fields : List (Text × Json)) : List Json :=
  wordOrDefault (Json.field fields "from") ++ wordOrDefault (Json.field fields "to") ++
    optionalWord (Json.field fields "label") ++ wordOrDefault (Json.field fields "fromHandle") ++
    wordOrDefault (Json.field fields "toHandle")

/-- The values that an operation takes as texts. -/
def operationWords (fields : List (Text × Json)) : List Json :=
  wordOrDefault (Json.field fields "op") ++ optionalWord (Json.field fields "nodeId") ++
    optionalWord (Json.field fields "afterNodeId") ++
    optionalWord (Json.field fields "beforeNodeId") ++ optionalWord (Json.field fields "laneId") ++
    (Json.field fields "newNode").obj?.elim [] nodeWords ++
    (Json.field fields "newEdge").obj?.elim [] edgeWords ++ wordsIn (Json.field fields "updates")

/-- The values that the operations of a batch take as texts. -/
def batchWords (batch : Json) : List Json :=
  (batch.arr?.getD []).flatMap fun item => item.obj?.elim [] operationWords

/-- Why values are not read: they are malformed, or one of their words has no text. -/
def Cause (room : Nat) (malformed : Prop) (words : List Json) : Unlisted → Prop
  | .malformed _ => malformed
  | .excess kind => ∃ word ∈ words, Unshown room word kind

/-- A reading that fails if what it reads is malformed or a word has no text, and then for that. -/
def Reads (room : Nat) (malformed : Prop) (words : List Json) (result : Except Unlisted α) : Prop :=
  FailsBy result (Cause room malformed words)

namespace Reads

variable {p q : Prop} {words more : List Json} {result : Except Unlisted α}

theorem ok (a : α) : Reads room False [] (.ok a) :=
  (FailsBy.ok a).congr fun error => by cases error <;> simp [Cause]

theorem malformed {error : OperationError} :
    Reads room True [] (.error (.malformed error) : Except _ α) :=
  .throw _ trivial

theorem bind {next : α → Except Unlisted β} (h : Reads room p words result)
    (hn : ∀ a, result = .ok a → Reads room q more (next a)) :
    Reads room (p ∨ q) (words ++ more) (result >>= next) := by
  refine (FailsBy.bind h hn).congr fun error => ?_
  cases error <;> simp [Cause, or_and_right, exists_or]

theorem map (h : Reads room p words result) (f : α → β) : Reads room p words (f <$> result) :=
  FailsBy.map h f

theorem mapM {items : List α} {f : α → Except Unlisted β} {p : α → Prop} {words : α → List Json}
    (h : ∀ item ∈ items, Reads room (p item) (words item) (f item)) :
    Reads room (∃ item ∈ items, p item) (items.flatMap words) (items.mapM f) := by
  refine (FailsBy.mapM h).congr fun error => ?_
  cases error with
  | malformed => rfl
  | excess kind =>
    simp only [Cause, List.mem_flatMap]
    exact ⟨fun ⟨item, hm, word, hw, hu⟩ => ⟨word, ⟨item, hm, hw⟩, hu⟩,
      fun ⟨word, ⟨item, hm, hw⟩, hu⟩ => ⟨item, hm, word, hw, hu⟩⟩

theorem congr (h : Reads room p words result) (hp : p ↔ q) (hw : words = more) :
    Reads room q more result := by
  rwa [← hw, ← propext hp]

end Reads

theorem reads_textOf (room : Nat) (value : Json) :
    Reads room False [value] (textOf (Json.display room) value) := by
  refine ((Json.displayWith_failsBy Json.quote room value).mapError Unlisted.excess).congr
    fun error => ?_
  cases error <;> simp [Cause]

theorem reads_textUnlessNull (room : Nat) (value : Json) :
    Reads room False (optionalWord value) (textUnlessNull (Json.display room) value) := by
  cases value with
  | null => exact .ok none
  | _ => exact (reads_textOf room _).map some

theorem reads_textOr (room : Nat) (default : Text) (value : Json) :
    Reads room False (wordOrDefault value) (textOr (Json.display room) default value) := by
  rw [textOr, wordOrDefault]
  split
  · exact reads_textOf room value
  · exact .ok default

theorem reads_textFields (room : Nat) (fields : List (Text × Json)) :
    Reads room False (fields.map Prod.snd) (textFields (Json.display room) fields) := by
  have hfields : Reads room (∃ field ∈ fields, False) (fields.flatMap fun field => [field.2])
      (textFields (Json.display room) fields) :=
    (Reads.mapM fun field _ => (reads_textOf room field.2).map (field.1, ·)).map _
  exact hfields.congr (by simp) (List.map_eq_flatMap.symm)

/-- A field for an object is misfilled, or what is found is the object in it. -/
theorem Reads.objectField {next : Option (List (Text × Json)) → Except Unlisted α} {p : Prop}
    {words : List Json} (name : Text) (h : Reads room p words (next value.obj?)) :
    Reads room (Misfilled value ∨ p) words (objectField name value >>= next) := by
  cases value with
  | null | obj => exact h.congr (false_or p).symm.to_iff rfl
  | _ => exact Reads.bind .malformed nofun

theorem reads_optional {f : List (Text × Json) → Except Unlisted α}
    {p : List (Text × Json) → Prop} {words : List (Text × Json) → List Json}
    (h : ∀ fields, Reads room (p fields) (words fields) (f fields))
    (found : Option (List (Text × Json))) :
    Reads room (∃ fields, found = some fields ∧ p fields) (found.elim [] words) (found.mapM f) := by
  cases found with
  | none => exact (Reads.ok none).congr (by simp) rfl
  | some fields => exact ((h fields).map some).congr (by simp) rfl

theorem reads_newNode (room : Nat) (fields : List (Text × Json)) :
    Reads room (Misfilled (Json.field fields "properties")) (nodeWords fields)
      (NewNode.ofFields (Json.display room) fields) :=
  (Reads.objectField _ ((reads_textUnlessNull room _).bind fun _ _ =>
    (reads_textUnlessNull room _).bind fun _ _ =>
      (reads_textFields room _).bind fun _ _ => .ok _)).congr (by simp)
      (by simp [nodeWords, wordsIn])

theorem reads_newEdge (room : Nat) (fields : List (Text × Json)) :
    Reads room False (edgeWords fields) (NewEdge.ofFields (Json.display room) fields) :=
  ((reads_textOr room _ _).bind fun _ _ => (reads_textOr room _ _).bind fun _ _ =>
    (reads_textUnlessNull room _).bind fun _ _ => (reads_textOr room _ _).bind fun _ _ =>
      (reads_textOr room _ _).bind fun _ _ => .ok _).congr (by simp) (by simp [edgeWords])

namespace Operation

theorem reads_ofFields (room : Nat) (fields : List (Text × Json)) :
    Reads room (MalformedOperation (.obj fields)) (operationWords fields)
      (ofFields (Json.display room) fields) := by
  refine (Reads.objectField _ (.objectField _ (.objectField _
    ((reads_textOr room _ _).bind fun _ _ => (reads_textUnlessNull room _).bind fun _ _ =>
      (reads_textUnlessNull room _).bind fun _ _ => (reads_textUnlessNull room _).bind fun _ _ =>
      (reads_textUnlessNull room _).bind fun _ _ =>
      (reads_optional (reads_newNode room) _).bind fun _ _ =>
      (reads_optional (reads_newEdge room) _).bind fun _ _ =>
      (reads_optional (reads_textFields room) _).bind fun _ _ => .ok _)))).congr ?_ ?_
  · simp only [MalformedOperation, or_false, false_or, and_false, exists_false, obj?_eq_some]
  · simp only [operationWords, wordsIn_eq, List.append_assoc, List.append_nil]

theorem reads_ofJson (room : Nat) (value : Json) :
    Reads room (MalformedOperation value) (value.obj?.elim [] operationWords)
      (ofJson (Json.display room) value) := by
  cases value with
  | obj fields => exact reads_ofFields room fields
  | _ => exact .malformed

/-- A batch fails to be read just if it is malformed or a word in it has no text. -/
theorem reads_listOfJson (room : Nat) (batch : Json) :
    Reads room (MalformedBatch batch) (batchWords batch) (listOfJson room batch) := by
  cases batch with
  | arr items => exact .mapM fun item _ => reads_ofJson room item
  | obj fields =>
    cases fields with
    | nil => exact (Reads.ok []).congr (by simp [MalformedBatch]) rfl
    | cons field rest => exact Reads.malformed.congr (by simp [MalformedBatch]) rfl
  | _ => exact .malformed

/-- A batch is read unless it is malformed or a word in it has no text. -/
theorem exists_listOfJson {batch : Json} :
    (∃ operations, listOfJson room batch = .ok operations) ↔
      ¬ MalformedBatch batch ∧ ∀ word ∈ batchWords batch, ∀ excess, ¬ Unshown room word excess := by
  rw [(reads_listOfJson room batch).exists_iff]
  constructor
  · intro h
    exact ⟨h (.malformed .notASequence), fun word hw excess hu => h (.excess excess) ⟨word, hw, hu⟩⟩
  · rintro ⟨hm, hwords⟩ (error | excess)
    · exact hm
    · exact fun ⟨word, hw, hu⟩ => hwords word hw excess hu

end Operation

end Swimlane.Patch
