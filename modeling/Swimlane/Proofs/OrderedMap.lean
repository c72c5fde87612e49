import Mathlib.Data.List.Induction
import Mathlib.Data.List.Nodup
import Swimlane.OrderedMap

/-! What maps in order of insertion hold: their keys, and the values under them. -/
namespace Swimlane

universe u v w

variable {κ : Type u} {β : Type v} {γ : Type w} [DecidableEq κ] {k : κ} {b : β}
  {xs : List (κ × β)}

theorem putEntry_map (f : β → γ) : (putEntry k b xs).map (fun e => (e.1, f e.2)) =
    putEntry k (f b) (xs.map fun e => (e.1, f e.2)) := by
  induction xs with
  | nil => rfl
  | cons x rest ih =>
    by_cases h : x.1 = k <;> simp [putEntry, h, ih]

theorem putEntry_of_not_mem (h : k ∉ xs.map Prod.fst) : putEntry k b xs = xs ++ [(k, b)] := by
  induction xs with
  | nil => rfl
  | cons x rest ih =>
    rw [List.map_cons, List.mem_cons, not_or] at h
    simp [putEntry, Ne.symm h.1, ih h.2]

theorem putEntry_middle {c : β} {ys : List (κ × β)} (h : k ∉ xs.map Prod.fst) :
    putEntry k b (xs ++ (k, c) :: ys) = xs ++ (k, b) :: ys := by
  induction xs with
  | nil => simp [putEntry]
  | cons x rest ih =>
    rw [List.map_cons, List.mem_cons, not_or] at h
    simp [putEntry, Ne.symm h.1, ih h.2]

theorem keys_putEntry : (putEntry k b xs).map Prod.fst =
    if k ∈ xs.map Prod.fst then xs.map Prod.fst else xs.map Prod.fst ++ [k] := by
  split
  · next h =>
    induction xs with
    | nil => simp at h
    | cons x rest ih =>
      by_cases hx : x.1 = k
      · simp [putEntry, hx]
      · have hrest : k ∈ rest.map Prod.fst := (List.mem_cons.1 h).resolve_left (Ne.symm hx)
        simp only [putEntry, hx, if_false, List.map_cons, ih hrest]
  · next h =>
    rw [putEntry_of_not_mem h, List.map_append]
    rfl

theorem mem_putEntry {x : κ × β} (h : x ∈ putEntry k b xs) : x = (k, b) ∨ x ∈ xs := by
  induction xs with
  | nil => exact Or.inl (List.mem_singleton.1 h)
  | cons y rest ih =>
    rw [putEntry] at h
    split at h
    · rcases List.mem_cons.1 h with h | h
      · exact Or.inl h
      · exact Or.inr (List.mem_cons_of_mem y h)
    · rcases List.mem_cons.1 h with rfl | h
      · exact Or.inr List.mem_cons_self
      · exact (ih h).imp_right (List.mem_cons_of_mem y)

theorem lookup_of_mem (hd : (xs.map Prod.fst).Nodup) (h : (k, b) ∈ xs) : xs.lookup k = some b := by
  induction xs with
  | nil => simp at h
  | cons x rest ih =>
    rw [List.map_cons, List.nodup_cons] at hd
    rw [lookup_cons_eq_if]
    rcases List.mem_cons.1 h with rfl | h
    · simp
    · have hne : k ≠ x.1 := by
        rintro rfl
        exact hd.1 (List.mem_map.2 ⟨_, h, rfl⟩)
      rw [if_neg hne]
      exact ih hd.2 h

/-- Of entries with distinct keys just one has a key that is there. -/
theorem filter_of_mem_keys (hd : (xs.map Prod.fst).Nodup) (h : k ∈ xs.map Prod.fst) :
    ∃ b, xs.filter (fun x => x.1 = k) = [(k, b)] := by
  induction xs with
  | nil => simp at h
  | cons x rest ih =>
    rw [List.map_cons, List.nodup_cons] at hd
    by_cases hx : x.1 = k
    · refine ⟨x.2, ?_⟩
      rw [List.filter_cons_of_pos (by simp [hx]), List.filter_eq_nil_iff.2]
      · rw [← hx]
      · intro y hy hk
        have hyk : y.1 = k := by simpa using hk
        exact hd.1 (List.mem_map.2 ⟨y, hy, hyk.trans hx.symm⟩)
    · obtain ⟨b, hb⟩ := ih hd.2 ((List.mem_cons.1 h).resolve_left (Ne.symm hx))
      exact ⟨b, by rw [List.filter_cons_of_neg (by simp [hx]), hb]⟩

namespace OrderedMap

variable {m : OrderedMap κ β}

theorem mapValues_insert (f : β → γ) :
    (m.insert k b).mapValues f = (m.mapValues f).insert k (f b) := by
  simp only [insert, mapValues, putEntry_map]

theorem isSome_get? : (m.get? k).isSome ↔ k ∈ m.keys := by
  simp [get?, keys]

theorem contains_iff : m.contains k = true ↔ k ∈ m.keys := isSome_get?

theorem ofList_concat (x : κ × β) : ofList (xs ++ [x]) = (ofList xs).insert x.1 x.2 :=
  List.foldl_concat ..

theorem mem_keys_ofList : k ∈ (ofList xs).keys ↔ k ∈ xs.map Prod.fst := by
  induction xs using List.reverseRecOn with
  | nil => rfl
  | append_singleton rest x ih =>
    rw [ofList_concat, keys, insert, mem_keys_putEntry, List.map_append, List.mem_append, ← ih,
      or_comm]
    simp [keys]

theorem mem_of_mem_ofList {x : κ × β} (h : x ∈ (ofList xs).entries) : x ∈ xs := by
  induction xs using List.reverseRecOn with
  | nil => exact h
  | append_singleton rest y ih =>
    rw [ofList_concat] at h
    rcases mem_putEntry h with rfl | h
    · simp
    · exact List.mem_append_left _ (ih h)

/-- A map from entries with distinct keys lists them as they are. -/
theorem entries_ofList (h : (xs.map Prod.fst).Nodup) : (ofList xs).entries = xs := by
  induction xs using List.reverseRecOn with
  | nil => rfl
  | append_singleton rest x ih =>
    rw [List.map_append, List.nodup_append'] at h
    have hrest := ih h.1
    have hnot : x.1 ∉ rest.map Prod.fst := fun hm => h.2.2 hm (by simp)
    rw [ofList_concat]
    exact (congrArg (putEntry x.1 x.2) hrest).trans (putEntry_of_not_mem hnot)

omit [DecidableEq κ] in
theorem eq_of_entries {n : OrderedMap κ β} (h : m.entries = n.entries) : m = n := by
  cases m
  cases n
  cases h
  rfl

omit [DecidableEq κ] in
theorem mapValues_mapValues {δ : Type w} (f : β → γ) (g : γ → δ) :
    (m.mapValues f).mapValues g = m.mapValues (g ∘ f) := by
  apply eq_of_entries
  simp [mapValues, Function.comp_def]

omit [DecidableEq κ] in
theorem mapValues_id {f : β → β} (h : ∀ b, f b = b) : m.mapValues f = m := by
  apply eq_of_entries
  simp [mapValues, h]

theorem mapValues_erase (f : β → γ) : (m.erase k).mapValues f = (m.mapValues f).erase k := by
  apply eq_of_entries
  simp [erase, mapValues, List.filter_map, Function.comp_def]

theorem erase_comm (m : OrderedMap κ β) (k l : κ) : (m.erase k).erase l = (m.erase l).erase k := by
  apply eq_of_entries
  simp only [erase, List.filter_filter, Bool.and_comm]

/-- A new key is last, so that nothing is left of it when it is taken out. -/
theorem erase_insert (h : m.get? k = none) : (m.insert k b).erase k = m := by
  have hkey : k ∉ m.keys := by
    rw [← isSome_get?, h]
    simp
  have hother : ∀ x ∈ m.entries, x.1 ≠ k := by
    rintro x hx rfl
    exact hkey (List.mem_map.2 ⟨x, hx, rfl⟩)
  apply eq_of_entries
  simp only [insert, erase, putEntry_of_not_mem hkey, List.filter_append]
  rw [List.filter_eq_self.2 (by simpa using hother)]
  simp

theorem ofList_entries (m : OrderedMap κ β) : ofList m.entries = m :=
  eq_of_entries (entries_ofList m.distinct)

theorem insert_ofList (h : (xs.map Prod.fst).Nodup) : (ofList xs).insert k b = ofList (putEntry k b xs) := by
  apply eq_of_entries
  rw [entries_ofList (nodup_putEntry h)]
  exact congrArg (putEntry k b) (entries_ofList h)

theorem get?_of_mem (h : (k, b) ∈ m.entries) : m.get? k = some b := lookup_of_mem m.distinct h

theorem mem_of_get? (h : m.get? k = some b) : (k, b) ∈ m.entries := by
  obtain ⟨left, right, hentries, _⟩ := List.lookup_eq_some_iff.1 h
  rw [hentries]
  simp

/-- Of the entries of a list the last one with a key gives the value. -/
theorem get?_ofList_middle {left right : List (κ × β)} (h : k ∉ right.map Prod.fst) :
    (ofList (left ++ (k, b) :: right)).get? k = some b := by
  induction right using List.reverseRecOn with
  | nil => simp [ofList_concat]
  | append_singleton rest x ih =>
    rw [List.map_append, List.mem_append, not_or] at h
    have hne : k ≠ x.1 := fun he => h.2 (by simp [he])
    rw [← List.cons_append, ← List.append_assoc, ofList_concat, get?_insert, if_neg hne]
    exact ih h.1

theorem keys_insert : (m.insert k b).keys = if k ∈ m.keys then m.keys else m.keys ++ [k] :=
  keys_putEntry

/-- The keys of a map stand in the order in which the entries first have them. -/
theorem keys_ofList : (ofList xs).keys = (xs.map Prod.fst).eraseDups := by
  induction xs using List.reverseRecOn with
  | nil => rfl
  | append_singleton rest x ih =>
    rw [ofList_concat, keys_insert, List.map_append, List.eraseDups_append, ih]
    by_cases h : x.1 ∈ rest.map Prod.fst
    · rw [if_pos (List.mem_eraseDups.2 h)]
      simp [List.removeAll, h]
    · rw [if_neg fun hm => h (List.mem_eraseDups.1 hm)]
      simp [List.removeAll, h, List.eraseDups_cons]

/-- The last entry with a key gives the value. -/
theorem get?_ofList : (ofList xs).get? k = (xs.filter (·.1 = k)).getLast?.map Prod.snd := by
  induction xs using List.reverseRecOn with
  | nil => rfl
  | append_singleton rest x ih =>
    rw [ofList_concat, get?_insert, List.filter_append, ih]
    by_cases hx : x.1 = k
    · simp [hx]
    · simp [hx, Ne.symm hx]

theorem filter_key (h : k ∈ m.keys) : ∃ b, m.entries.filter (fun x => x.1 = k) = [(k, b)] :=
  filter_of_mem_keys m.distinct h

end OrderedMap

theorem nodup_eraseDups (keys : List κ) : keys.eraseDups.Nodup := by
  have hkeys := (OrderedMap.ofList (keys.map fun key => (key, ()))).distinct
  rw [← OrderedMap.keys, OrderedMap.keys_ofList, List.map_map] at hkeys
  simpa [Function.comp_def] using hkeys

theorem eraseDups_of_nodup {keys : List κ} (h : keys.Nodup) : keys.eraseDups = keys := by
  induction keys with
  | nil => rfl
  | cons key rest ih =>
    rw [List.nodup_cons] at h
    have hrest : rest.filter (fun other => !other == key) = rest := by
      rw [List.filter_eq_self]
      intro other hother
      have hne : other ≠ key := fun he => h.1 (he ▸ hother)
      simpa using hne
    rw [List.eraseDups_cons, hrest, ih h.2]

/-- New entries that are added to a map come behind those that were there. -/
theorem OrderedMap.keys_append {m : OrderedMap κ β} (h : (xs.map Prod.fst).Nodup) :
    (ofList (m.entries ++ xs)).keys = m.keys ++ (xs.map Prod.fst).filter (· ∉ m.keys) := by
  have hnew : (xs.map Prod.fst).removeAll m.keys = (xs.map Prod.fst).filter (· ∉ m.keys) := by
    simp [List.removeAll]
  rw [keys_ofList, List.map_append, List.eraseDups_append, eraseDups_of_nodup m.distinct, ← keys, hnew,
    eraseDups_of_nodup (h.filter _)]

section Items

variable {key : β → κ} {items : List β} {item : β}

/-- The keys of some items, each once, in the order in which they first appear. -/
def keysOf (key : β → κ) (items : List β) : List κ := (items.map key).eraseDups

/-- The last of the items with a key. -/
def lastWith? (key : β → κ) (items : List β) (k : κ) : Option β :=
  (items.filter (key · = k)).getLast?

theorem mem_keysOf : k ∈ keysOf key items ↔ k ∈ items.map key := List.mem_eraseDups

theorem isSome_lastWith? : (lastWith? key items k).isSome ↔ k ∈ items.map key := by
  rw [lastWith?, List.getLast?_isSome, ← List.length_pos_iff, List.length_filter_pos_iff]
  simp

theorem lastWith?_eq_none_iff : lastWith? key items k = none ↔ k ∉ items.map key := by
  rw [← isSome_lastWith?, Option.not_isSome_iff_eq_none]

theorem key_of_lastWith? (h : lastWith? key items k = some item) : key item = k := by
  have hmem := List.mem_of_getLast? h
  simpa using (List.mem_filter.1 hmem).2

theorem find?_key_eq_none (hk : k ∉ items.map key) : items.find? (key · = k) = none := by
  rw [List.find?_eq_none]
  intro item hitem heq
  exact hk (List.mem_map.2 ⟨item, hitem, by simpa using heq⟩)

theorem exists_find?_key (hk : k ∈ items.map key) :
    ∃ item ∈ items, items.find? (key · = k) = some item ∧ key item = k := by
  cases hfind : items.find? (key · = k) with
  | none =>
    obtain ⟨item, hitem, hkey⟩ := List.mem_map.1 hk
    exact absurd hkey (by simpa using List.find?_eq_none.1 hfind item hitem)
  | some item =>
    exact ⟨item, List.mem_of_find?_eq_some hfind, rfl, by simpa using List.find?_some hfind⟩

namespace OrderedMap

theorem keys_ofPairs (f : β → γ) : (ofList (items.map fun item => (key item, f item))).keys =
    keysOf key items := by
  rw [keys_ofList, List.map_map]
  rfl

theorem keys_ofItems : (ofList (items.map fun item => (key item, item))).keys =
    keysOf key items := keys_ofPairs _

theorem get?_ofPairs (f : β → γ) : (ofList (items.map fun item => (key item, f item))).get? k =
    (lastWith? key items k).map f := by
  rw [get?_ofList, List.filter_map, List.getLast?_map, Option.map_map]
  rfl

theorem get?_ofItems : (ofList (items.map fun item => (key item, item))).get? k =
    lastWith? key items k := by
  rw [get?_ofPairs, Option.map_id']

/-- Of the items that have a key, the last with this one gives the value. -/
theorem get?_ofSome {key? : β → Option κ} (f : β → γ) :
    (ofList (items.filterMap fun item => (key? item).map (·, f item))).get? k =
      (lastWith? key? items (some k)).map f := by
  rw [get?_ofList, lastWith?]
  induction items using List.reverseRecOn with
  | nil => rfl
  | append_singleton rest item ih =>
    rw [List.filterMap_append, List.filter_append, List.filter_append]
    by_cases h : key? item = some k
    · simp [h]
    · cases hk : key? item with
      | none => simpa [hk] using ih
      | some other =>
        have hne : other ≠ k := fun he => h (hk.trans (congrArg some he))
        simpa [hk, hne] using ih

end OrderedMap

end Items

end Swimlane
