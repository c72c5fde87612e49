/-! Maps that list their keys in the order of first insertion. -/
namespace Swimlane

universe u v w

variable {κ : Type u} {β : Type v} {γ : Type w} [DecidableEq κ] {k l : κ} {b : β}
  {xs : List (κ × β)}

/-- Puts an entry in place of the one with its key, or at the end if there is none. -/
def putEntry (k : κ) (b : β) : List (κ × β) → List (κ × β)
  | [] => [(k, b)]
  | (l, c) :: rest => if l = k then (k, b) :: rest else (l, c) :: putEntry k b rest

theorem mem_keys_putEntry :
    l ∈ (putEntry k b xs).map Prod.fst ↔ l = k ∨ l ∈ xs.map Prod.fst := by
  induction xs with
  | nil => simp [putEntry]
  | cons x rest ih =>
    obtain ⟨m, c⟩ := x
    by_cases h : m = k
    · simp [putEntry, h]
    · simp only [putEntry, h, if_false, List.map_cons, List.mem_cons, ih]
      exact or_left_comm

theorem nodup_putEntry (h : (xs.map Prod.fst).Nodup) :
    ((putEntry k b xs).map Prod.fst).Nodup := by
  induction xs with
  | nil => simp [putEntry]
  | cons x rest ih =>
    obtain ⟨m, c⟩ := x
    rw [List.map_cons, List.nodup_cons] at h
    by_cases hm : m = k
    · subst hm
      simpa [putEntry] using h
    · simp only [putEntry, hm, if_false, List.map_cons, List.nodup_cons]
      exact ⟨fun hk => (mem_keys_putEntry.1 hk).elim hm h.1, ih h.2⟩

theorem lookup_cons_eq_if (x : κ × β) :
    (x :: xs).lookup l = if l = x.1 then some x.2 else xs.lookup l := by
  rw [List.lookup_cons]
  by_cases h : l = x.1
  · simp [h]
  · simp [h, beq_false_of_ne h]

theorem lookup_putEntry :
    (putEntry k b xs).lookup l = if l = k then some b else xs.lookup l := by
  induction xs with
  | nil => simp [putEntry, lookup_cons_eq_if]
  | cons x rest ih =>
    by_cases hx : x.1 = k
    · by_cases hl : l = k <;> simp [putEntry, hx, hl, lookup_cons_eq_if]
    · by_cases hl : l = x.1
      · simp [putEntry, hx, hl, lookup_cons_eq_if]
      · simp [putEntry, hx, hl, lookup_cons_eq_if, ih]

theorem lookup_eraseKey :
    (xs.filter (·.1 ≠ k)).lookup l = if l = k then none else xs.lookup l := by
  induction xs with
  | nil => simp
  | cons x rest ih =>
    by_cases hx : x.1 = k
    · rw [List.filter_cons_of_neg (by simp [hx]), ih, lookup_cons_eq_if]
      by_cases hl : l = k <;> simp [hl, hx]
    · rw [List.filter_cons_of_pos (by simp [hx]), lookup_cons_eq_if, lookup_cons_eq_if, ih]
      by_cases hl : l = x.1 <;> simp [hl, hx]

theorem lookup_mapValues (f : β → γ) :
    (xs.map fun e => (e.1, f e.2)).lookup l = (xs.lookup l).map f := by
  induction xs with
  | nil => rfl
  | cons x rest ih =>
    rw [List.map_cons, lookup_cons_eq_if, lookup_cons_eq_if, ih]
    by_cases hl : l = x.1 <;> simp [hl]

/-- No key stands twice among the entries. -/
structure OrderedMap (κ : Type u) (β : Type v) where
  entries : List (κ × β)
  distinct : (entries.map Prod.fst).Nodup

namespace OrderedMap

def empty : OrderedMap κ β := ⟨[], List.nodup_nil⟩

instance : Inhabited (OrderedMap κ β) := ⟨empty⟩

def keys (m : OrderedMap κ β) : List κ := m.entries.map Prod.fst

def values (m : OrderedMap κ β) : List β := m.entries.map Prod.snd

def get? (m : OrderedMap κ β) (k : κ) : Option β := m.entries.lookup k

def contains (m : OrderedMap κ β) (k : κ) : Bool := (m.get? k).isSome

/-- A new key goes to the end, a known one keeps its place. -/
def insert (m : OrderedMap κ β) (k : κ) (b : β) : OrderedMap κ β :=
  ⟨putEntry k b m.entries, nodup_putEntry m.distinct⟩

def erase (m : OrderedMap κ β) (k : κ) : OrderedMap κ β where
  entries := m.entries.filter (·.1 ≠ k)
  distinct := m.distinct.sublist (List.Sublist.map _ List.filter_sublist)

def mapValues (f : β → γ) (m : OrderedMap κ β) : OrderedMap κ γ where
  entries := m.entries.map fun e => (e.1, f e.2)
  distinct := by simpa [Function.comp_def] using m.distinct

/-- Of several entries with one key the first gives the place and the last the value. -/
def ofList (entries : List (κ × β)) : OrderedMap κ β :=
  entries.foldl (fun m e => m.insert e.1 e.2) empty

variable {m : OrderedMap κ β}

@[simp] theorem get?_empty : (empty : OrderedMap κ β).get? k = none := rfl

@[simp] theorem get?_insert : (m.insert k b).get? l = if l = k then some b else m.get? l :=
  lookup_putEntry

@[simp] theorem get?_erase : (m.erase k).get? l = if l = k then none else m.get? l :=
  lookup_eraseKey

@[simp] theorem get?_mapValues (f : β → γ) : (m.mapValues f).get? l = (m.get? l).map f :=
  lookup_mapValues f

omit [DecidableEq κ] in
@[simp] theorem keys_mapValues (f : β → γ) : (m.mapValues f).keys = m.keys := by
  simp [keys, mapValues, Function.comp_def]

end OrderedMap

end Swimlane
