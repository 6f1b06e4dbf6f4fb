import Mathlib.Data.List.Basic

/-!
# Slices of rows

Functions on slices by index, and columns of metadata beside them: a column is empty or has a value
for every row, and a missing value is the zero one. The lemmas say what stands at an index
afterwards, which is the same for the rows and for their columns.
-/

namespace Bria.Go

open List

variable {α : Type} {x : α}

/-! ## Indices -/

/-- The last index of a value. -/
def lastIndex [DecidableEq α] (x : α) : List α → Option Nat
  | [] => none
  | a :: rest =>
    match lastIndex x rest with
    | some i => some (i + 1)
    | none => if a = x then some 0 else none

variable {l : List α}

theorem lastIndex_eq_none [DecidableEq α] : lastIndex x l = none ↔ x ∉ l := by
  induction l with
  | nil => simp [lastIndex]
  | cons a rest ih =>
    cases hrest : lastIndex x rest with
    | some i =>
      have hmem : ¬x ∉ rest := fun h => by simp [ih.mpr h] at hrest
      simp only [lastIndex, hrest, mem_cons, reduceCtorEq, false_iff, not_not]
      exact .inr (not_not.mp hmem)
    | none =>
      have hmem := ih.mp hrest
      simp only [lastIndex, hrest, mem_cons, hmem, or_false]
      split
      · rename_i ha
        exact iff_of_false nofun fun h => h ha.symm
      rename_i ha
      exact iff_of_true rfl fun h => ha h.symm

variable {i : Nat}

/-- At its last index the value stands, and after it it does not. -/
theorem lastIndex_eq_some [DecidableEq α] (h : lastIndex x l = some i) :
    l[i]? = some x ∧ ∀ j, i < j → l[j]? ≠ some x := by
  induction l generalizing i with
  | nil => cases h
  | cons a rest ih =>
    cases hrest : lastIndex x rest with
    | some k =>
      simp only [lastIndex, hrest, Option.some.injEq] at h
      obtain rfl := h
      obtain ⟨hat, hafter⟩ := ih hrest
      refine ⟨by simpa using hat, fun j hj => ?_⟩
      obtain ⟨j, rfl⟩ : ∃ j', j = j' + 1 := ⟨j - 1, by omega⟩
      simpa using hafter j (by omega)
    | none =>
      simp only [lastIndex, hrest] at h
      split at h
      · rename_i ha
        obtain rfl := Option.some.inj h
        refine ⟨by simp [ha], fun j hj => ?_⟩
        obtain ⟨j, rfl⟩ : ∃ j', j = j' + 1 := ⟨j - 1, by omega⟩
        intro hmem
        rw [getElem?_cons_succ] at hmem
        exact lastIndex_eq_none.mp hrest (mem_of_getElem? hmem)
      · cases h

/-! ## Insertion -/

/-- A slice with a value put in at an index: `append`, `copy` one further, and an assignment. -/
def insertAt (l : List α) (i : Nat) (x : α) : List α := l.take i ++ x :: l.drop i

theorem length_insertAt (l : List α) (i : Nat) (x : α) :
    (insertAt l i x).length = l.length + 1 := by
  simp only [insertAt, length_append, length_cons, length_take, length_drop]
  omega

theorem getElem?_insertAt (x : α) (h : i ≤ l.length) (j : Nat) :
    (insertAt l i x)[j]? = if j < i then l[j]? else if j = i then some x else l[j - 1]? := by
  have hlength : (l.take i).length = i := by rw [length_take]; omega
  rw [insertAt, getElem?_append, hlength]
  split
  · rename_i hj
    rw [getElem?_take_of_lt hj]
  split
  · rename_i hj
    simp [hj]
  rename_i hlt hne
  obtain ⟨k, hk⟩ : ∃ k, j - i = k + 1 := ⟨j - i - 1, by omega⟩
  rw [hk, getElem?_cons_succ, getElem?_drop]
  congr 1
  omega

variable {p : α → Bool}

/-- A filter that drops the new value does not see the insertion. -/
theorem filter_insertAt_neg (hx : p x = false) (l : List α) (i : Nat) :
    (insertAt l i x).filter p = l.filter p := by
  rw [insertAt, filter_append, filter_cons_of_neg (by simp [hx]), ← filter_append, take_append_drop]

/-! ## Removal -/

/-- A slice without the values at some indices, which are removed one after another. -/
def removeEach (indices : List Nat) (l : List α) : List α := indices.foldl List.eraseIdx l

/-- A filter that drops the value at an index does not see that it is removed. -/
theorem filter_eraseIdx
    (h : ∀ x, l[i]? = some x → p x = false) : (l.eraseIdx i).filter p = l.filter p := by
  induction l generalizing i with
  | nil => rfl
  | cons a rest ih =>
    cases i with
    | zero =>
      have ha : p a = false := h a rfl
      rw [eraseIdx_cons_zero, filter_cons_of_neg (by simp [ha])]
    | succ i =>
      have hrest := ih (i := i) fun x hx => h x (by simpa using hx)
      rw [eraseIdx_cons_succ, filter_cons, filter_cons, hrest]

variable {indices : List Nat}

/-- Removing from the back removes what stood at the indices at the start: a filter that drops it
does not see the removal. -/
theorem filter_removeEach
    (hback : indices.Pairwise (· > ·)) (h : ∀ i ∈ indices, ∀ x, l[i]? = some x → p x = false) :
    (removeEach indices l).filter p = l.filter p := by
  induction indices generalizing l with
  | nil => rfl
  | cons i rest ih =>
    obtain ⟨hi, hrest⟩ := pairwise_cons.mp hback
    have hsame : ∀ j ∈ rest, ∀ x, (l.eraseIdx i)[j]? = some x → p x = false := by
      intro j hj x hx
      rw [getElem?_eraseIdx, if_pos (hi j hj)] at hx
      exact h j (mem_cons_of_mem i hj) x hx
    rw [removeEach, foldl_cons, ← removeEach, ih hrest hsame]
    exact filter_eraseIdx fun x hx => h i mem_cons_self x hx

/-- A slice is shorter by the number of values removed from the back. -/
theorem length_removeEach (hback : indices.Pairwise (· > ·)) (h : ∀ i ∈ indices, i < l.length) :
    (removeEach indices l).length + indices.length = l.length := by
  induction indices generalizing l with
  | nil => rfl
  | cons i rest ih =>
    obtain ⟨hi, hrest⟩ := pairwise_cons.mp hback
    have hlt := h i mem_cons_self
    have hlength : (l.eraseIdx i).length = l.length - 1 := length_eraseIdx_of_lt hlt
    have hih := ih (l := l.eraseIdx i) hrest fun j hj => by
      have hji := hi j hj
      rw [hlength]
      omega
    rw [removeEach, foldl_cons, ← removeEach, length_cons]
    omega

/-- What is left is in its old order. -/
theorem removeEach_sublist (indices : List Nat) (l : List α) : (removeEach indices l).Sublist l := by
  induction indices generalizing l with
  | nil => exact .refl l
  | cons i rest ih => exact (ih _).trans (eraseIdx_sublist l i)

theorem mem_of_mem_removeEach (h : x ∈ removeEach indices l) : x ∈ l :=
  (removeEach_sublist indices l).mem h

/-- A value at an index that is not removed is left. -/
theorem mem_removeEach {j : Nat} (hback : indices.Pairwise (· > ·)) (hj : j ∉ indices)
    (h : l[j]? = some x) : x ∈ removeEach indices l := by
  induction indices generalizing l j with
  | nil => exact mem_of_getElem? h
  | cons i rest ih =>
    obtain ⟨hi, hrest⟩ := pairwise_cons.mp hback
    rw [mem_cons, not_or] at hj
    rcases Nat.lt_or_gt_of_ne hj.1 with hlt | hgt
    · exact ih hrest hj.2 (by rwa [getElem?_eraseIdx, if_pos hlt])
    -- It moves one place to the front, where the other removals are still before it.
    refine ih (j := j - 1) hrest (fun hmem => ?_) ?_
    · have hlt := hi _ hmem
      omega
    · rwa [getElem?_eraseIdx, if_neg (by omega), Nat.sub_add_cancel (by omega)]

/-! ## Columns -/

/-- A column of metadata: none, or a value for each of `n` rows. -/
def IsColumn (column : List α) (n : Nat) : Prop := column = [] ∨ column.length = n

/-- A column that is there: `make` makes one of zero values. -/
def madeColumn (column : List α) (n : Nat) (zero : α) : List α :=
  if column.isEmpty then replicate n zero else column

/-- What `f` makes of a column that is there. -/
def onColumn (f : List α → List α) (column : List α) : List α :=
  if column.isEmpty then column else f column

theorem getD_madeColumn (column : List α) (n : Nat) (zero : α) (i : Nat) :
    (madeColumn column n zero).getD i zero = column.getD i zero := by
  unfold madeColumn
  split
  · rename_i hempty
    rw [List.isEmpty_iff.mp hempty, getD_nil, getD_eq_getElem?_getD, getElem?_replicate]
    split
    · rfl
    · rfl
  · rfl

theorem length_madeColumn {column : List α} {n : Nat} (zero : α) (h : IsColumn column n) :
    (madeColumn column n zero).length = n := by
  unfold madeColumn
  split
  · exact length_replicate
  rename_i hset
  refine h.resolve_left fun hempty => hset ?_
  rw [hempty]
  rfl

end Bria.Go
