import Mathlib.Data.List.AList
import Bria.Go.Values

/-!
# Go maps

A Go map as an association list with distinct keys. The order of a map is not specified, and
nothing here depends on it: what a map has is what its lookups return. A nil map is an empty one.
`update` is a `range` loop that assigns or deletes the entry it is at, `rekey` gives the entries other
keys and values, and a check in a `range` loop is a `forM` over the entries.
-/

namespace Bria.Go

open List

/-- A map. -/
abbrev Map (K V : Type) : Type := AList fun _ : K => V

namespace Map

variable {K V W : Type} {k' : K} {v v' : V} {f : K → K}

theorem keys_filterMap_sublist (f : K → V → Option W) (l : List (Σ _ : K, V)) :
    (l.filterMap fun e => (f e.1 e.2).map (Sigma.mk e.1) : List (Σ _ : K, W)).keys.Sublist
      l.keys := by
  induction l with
  | nil => exact .slnil
  | cons e l ih =>
    cases hf : f e.1 e.2 with
    | none =>
      simp only [filterMap_cons, hf, Option.map_none, keys_cons]
      exact ih.cons e.1
    | some w =>
      simp only [filterMap_cons, hf, Option.map_some, keys_cons]
      exact ih.cons_cons e.1

/-- A `range` loop that assigns a value to the entry it is at, or deletes the entry. -/
def update (m : Map K V) (f : K → V → Option W) : Map K W where
  entries := m.entries.filterMap fun e => (f e.1 e.2).map (Sigma.mk e.1)
  nodupKeys :=
    List.Nodup.sublist (keys_filterMap_sublist f m.entries) m.nodupKeys

/-- A loop that deletes nothing leaves the number of entries. -/
theorem length_update (m : Map K V) (f : K → V → W) :
    (m.update fun k v => some (f k v)).entries.length = m.entries.length := by
  simp [update]

variable [DecidableEq K]

/-- Maps are compared entry by entry, in a way that can be evaluated. -/
instance [DecidableEq V] : DecidableEq (Map K V) := fun m m' =>
  decidable_of_iff (m.entries = m'.entries) AList.ext_iff.symm

theorem lookup_insert (m : Map K V) (k k' : K) (v : V) :
    (m.insert k v).lookup k' = if k' = k then some v else m.lookup k' := by
  split
  · rename_i h
    rw [h, AList.lookup_insert]
  rename_i h
  exact AList.lookup_insert_ne h

theorem lookup_erase (m : Map K V) (k k' : K) :
    (m.erase k).lookup k' = if k' = k then none else m.lookup k' := by
  split
  · rename_i h
    rw [h, AList.lookup_erase]
  rename_i h
  exact AList.lookup_erase_ne h

variable {m : Map K V} {k : K}

/-- What is found after an assignment is the value assigned, or it was there. -/
theorem of_lookup_insert (h : (m.insert k v).lookup k' = some v') :
    k' = k ∧ v = v' ∨ m.lookup k' = some v' := by
  rw [lookup_insert] at h
  split at h
  · exact .inl ⟨‹_›, Option.some.inj h⟩
  · exact .inr h

/-- What is found after `delete` was there, under another key. -/
theorem of_lookup_erase (h : (m.erase k).lookup k' = some v') : k' ≠ k ∧ m.lookup k' = some v' := by
  rw [lookup_erase] at h
  split at h
  · cases h
  · exact ⟨‹_›, h⟩

theorem mem_entries :
    Sigma.mk k v ∈ m.entries ↔ m.lookup k = some v :=
  AList.mem_lookup_iff.symm

theorem perm_entries (h : m.lookup k = some v) :
    m.entries.Perm (⟨k, v⟩ :: (m.erase k).entries) := by
  obtain ⟨v', front, back, -, hsplit, herase⟩ :=
    exists_of_kerase (mem_keys_of_mem (mem_entries.mpr h))
  have hv : m.lookup k = some v' := mem_entries.mp (by simp [hsplit])
  obtain rfl := Option.mem_unique h hv
  change m.entries.Perm (⟨k, v⟩ :: List.kerase k m.entries)
  rw [herase, hsplit]
  exact perm_middle

theorem lookup_update (m : Map K V) (f : K → V → Option W) (k : K) :
    (m.update f).lookup k = (m.lookup k).bind (f k) := by
  ext w
  rw [← mem_entries]
  simp only [update, mem_filterMap, Option.map_eq_some_iff, Sigma.mk.injEq, heq_eq_eq,
    Option.bind_eq_some_iff]
  constructor
  · rintro ⟨⟨k', v⟩, hmem, w', hw, rfl, rfl⟩
    exact ⟨v, mem_entries.mp hmem, hw⟩
  rintro ⟨v, hv, hw⟩
  exact ⟨⟨k, v⟩, mem_entries.mpr hv, w, hw, rfl, rfl⟩

/-- A check of every entry passes exactly when it passes for what the lookups return. -/
theorem forM_entries_eq_ok {ε : Type} {f : (Σ _ : K, V) → Except ε Unit} :
    forM m.entries f = .ok () ↔ ∀ k v, m.lookup k = some v → f ⟨k, v⟩ = .ok () := by
  rw [forM_eq_ok]
  constructor
  · exact fun h k v hv => h ⟨k, v⟩ (mem_entries.mpr hv)
  · exact fun h e he => h e.1 e.2 (mem_entries.mp he)

variable {l : List (Σ _ : K, V)}

/-- Assignments to other keys leave a key alone. -/
theorem lookup_foldl_insert_of_notMem (h : k ∉ l.keys)
    (m : Map K V) : (l.foldl (fun m e => m.insert e.1 e.2) m).lookup k = m.lookup k := by
  induction l generalizing m with
  | nil => rfl
  | cons e l ih =>
    rw [keys_cons, mem_cons, not_or] at h
    rw [foldl_cons, ih h.2, lookup_insert, if_neg h.1]

/-- Assignments to distinct keys all stay. -/
theorem lookup_foldl_insert (hl : l.NodupKeys) (h : Sigma.mk k v ∈ l) :
    (l.foldl (fun m e => m.insert e.1 e.2) m).lookup k = some v := by
  induction l generalizing m with
  | nil => cases h
  | cons e l ih =>
    rw [foldl_cons]
    obtain ⟨hnew, hl⟩ := nodupKeys_cons.mp hl
    rcases mem_cons.mp h with rfl | h
    · rw [lookup_foldl_insert_of_notMem hnew, AList.lookup_insert]
    · exact ih hl h

/-- Assignments to distinct new keys add as many entries. -/
theorem length_foldl_insert (hl : l.NodupKeys) (hnew : ∀ k ∈ l.keys, k ∉ m) :
    (l.foldl (fun m e => m.insert e.1 e.2) m).entries.length = l.length + m.entries.length := by
  induction l generalizing m with
  | nil => simp
  | cons e l ih =>
    obtain ⟨hfresh, hl⟩ := nodupKeys_cons.mp hl
    have he : e.1 ∉ m := hnew e.1 (by simp)
    have hrest : ∀ k ∈ l.keys, k ∉ m.insert e.1 e.2 := by
      intro k hk hmem
      rcases (AList.mem_insert m).mp hmem with rfl | hmem
      · exact hfresh hk
      · exact hnew k (by simp [hk]) hmem
    rw [foldl_cons, ih hl hrest, AList.entries_insert_of_notMem he, length_cons, length_cons]
    omega

/-- The entries under other keys and with other values, such as they come back from a file. A file in
which two of them have the same key is not read. -/
def rekey (m : Map K V) (f : K → K) (g : V → W) : Map K W :=
  (m.entries.map fun e => ⟨f e.1, g e.2⟩ : List (Σ _ : K, W)).toAList

/-- What a map has after that is one of its entries. -/
theorem lookup_rekey {g : V → W} {w : W} (h : (m.rekey f g).lookup k = some w) :
    ∃ k' v, m.lookup k' = some v ∧ f k' = k ∧ g v = w := by
  have hmem : Sigma.mk k w ∈ m.entries.map fun e => (⟨f e.1, g e.2⟩ : Σ _ : K, W) := by
    rw [rekey, AList.lookup, List.toAList, dlookup_dedupKeys] at h
    exact of_mem_dlookup h
  obtain ⟨⟨k', v⟩, hentry, heq⟩ := mem_map.mp hmem
  obtain ⟨hk, hw⟩ := Sigma.mk.inj heq
  exact ⟨k', v, mem_entries.mp hentry, hk, eq_of_heq hw⟩

/-- Keys and values that come back as they are make the same map. -/
theorem rekey_eq_self {g : V → V} (h : ∀ k v, m.lookup k = some v → f k = k ∧ g v = v) :
    m.rekey f g = m := by
  have hdedup : ∀ l : List (Σ _ : K, V), l.NodupKeys → l.dedupKeys = l := by
    intro l hl
    induction l with
    | nil => rfl
    | cons e l ih =>
      obtain ⟨hnew, hl⟩ := nodupKeys_cons.mp hl
      rw [dedupKeys_cons, ih hl, kinsert_def, kerase_of_notMem_keys hnew]
  have hentries : (m.entries.map fun e => ⟨f e.1, g e.2⟩ : List (Σ _ : K, V)) = m.entries := by
    conv_rhs => rw [← map_id m.entries]
    refine map_congr_left fun e he => ?_
    obtain ⟨hkey, hvalue⟩ := h e.1 e.2 (mem_entries.mp he)
    rw [hkey, hvalue, id]
  refine AList.ext ?_
  rw [rekey, hentries]
  exact hdedup m.entries m.nodupKeys

end Map

export Map (lookup_insert mem_entries lookup_erase of_lookup_insert lookup_update of_lookup_erase)

end Bria.Go
