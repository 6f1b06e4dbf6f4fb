import Mathlib.Data.List.Forall2
import Mathlib.Data.List.Nodup
import Bria.Go.Values

/-!
# Append-only tables

A table is a list of rows that are found by a key, each as the first row that matches. An update
writes a row in place or appends rows, so a table never loses a row. `Evolves R` is the relation
between a table before and after: every row of the first is related by `R` to the row at its place
in the second, which may have more. A row that is found before is found afterwards, moved by `R`
(`Evolves.find?`).

A table's rows are validated by a loop that remembers the keys it has seen and the number of the
row before. `scan_ok_iff` is the meaning of such a loop: the keys are distinct and the numbers
increase.
-/

namespace Bria.Table

open List

variable {α β : Type} {a new : α} {l rows : List α} {P : α → Prop}

/-- Writes `new` over the first row that matches. -/
def replaceFirst (p : α → Bool) (new : α) : List α → List α
  | [] => []
  | a :: l => if p a then new :: l else a :: replaceFirst p new l

variable {p : α → Bool}

/-- The row that a search finds, and what a write over it leaves in place. -/
theorem replaceFirst_split (h : l.find? p = some a) :
    ∃ front back, l = front ++ a :: back ∧ (∀ x ∈ front, p x = false) ∧
      ∀ new, replaceFirst p new l = front ++ new :: back := by
  induction l with
  | nil => simp at h
  | cons b l ih =>
    rw [find?_cons] at h
    cases hb : p b with
    | true =>
      simp only [hb, Option.some.injEq] at h
      subst h
      exact ⟨[], l, rfl, by simp, fun new => by simp [replaceFirst, hb]⟩
    | false =>
      simp only [hb] at h
      obtain ⟨front, back, rfl, hfront, hnew⟩ := ih h
      exact ⟨b :: front, back, rfl, forall_mem_cons.mpr ⟨hb, hfront⟩,
        fun new => by simp [replaceFirst, hb, hnew]⟩

/-- The row just written is found again when it still matches. -/
theorem find?_replaceFirst_self (h : l.find? p = some a) (hnew : p new) :
    (replaceFirst p new l).find? p = some new := by
  obtain ⟨front, back, -, hfront, heq⟩ := replaceFirst_split h
  rw [heq, find?_append, find?_eq_none.mpr (by simpa using hfront)]
  simp [hnew]

/-- A write in place that keeps a column keeps the column of the table. -/
theorem map_replaceFirst {f : α → β} (h : l.find? p = some a) (hnew : f new = f a) :
    (replaceFirst p new l).map f = l.map f := by
  obtain ⟨front, back, rfl, -, heq⟩ := replaceFirst_split h
  simp [heq, hnew]

/-- What holds of the row written and of the rows of the table holds after the write. -/
theorem forall_mem_written (hnew : P new) (hl : ∀ x ∈ l, P x) :
    ∀ x ∈ replaceFirst p new l, P x := by
  induction l with
  | nil => exact hl
  | cons a l ih =>
    rw [forall_mem_cons] at hl
    unfold replaceFirst
    split_ifs
    · exact forall_mem_cons.mpr ⟨hnew, hl.2⟩
    · exact forall_mem_cons.mpr ⟨hl.1, ih hl.2⟩

theorem replaceFirst_append (hl : ∀ x ∈ l, p x = false) (ha : p a) :
    replaceFirst p new (l ++ [a]) = l ++ [new] := by
  induction l with
  | nil => simp [replaceFirst, ha]
  | cons b l ih =>
    rw [forall_mem_cons] at hl
    simp [replaceFirst, hl.1, ih hl.2]

variable {f : α → α}

/-- If a pass over the table undoes a write, it undoes it at the row written. -/
theorem eq_of_map_replaceFirst (h : l.find? p = some a) (heq : (replaceFirst p new l).map f = l) :
    f new = a := by
  obtain ⟨front, back, hl, -, hwrite⟩ := replaceFirst_split h
  rw [hwrite, hl, map_append, map_cons] at heq
  have htail := (append_inj heq (by rw [length_map])).2
  exact (List.cons.inj htail).1

/-- A pass that keeps every row but the one written, and undoes the write there. -/
theorem map_replaceFirst_eq_self (h : l.find? p = some a) (hnew : f new = a)
    (hf : ∀ x ∈ l, f x = x) : (replaceFirst p new l).map f = l := by
  obtain ⟨front, back, hl, -, hwrite⟩ := replaceFirst_split h
  have hfront : front.map f = front := by
    rw [map_congr_left fun x hx => hf x (by simp [hl, hx]), map_id']
  have hback : back.map f = back := by
    rw [map_congr_left fun x hx => hf x (by simp [hl, hx]), map_id']
  rw [hwrite, hl, map_append, map_cons, hnew, hfront, hback]

theorem mem_replaceFirst_new (h : l.find? p = some a) (new : α) : new ∈ replaceFirst p new l := by
  obtain ⟨front, back, -, -, heq⟩ := replaceFirst_split h
  simp [heq]

/-- What a write in place keeps of every row. -/
theorem forall_mem_replaceFirst (h : l.find? p = some a) (hiff : P new ↔ P a) :
    (∀ x ∈ replaceFirst p new l, P x) ↔ ∀ x ∈ l, P x := by
  obtain ⟨front, back, rfl, -, heq⟩ := replaceFirst_split h
  simp only [heq, forall_mem_append, forall_mem_cons, hiff]

/-- A write in place changes a count by the rows written. -/
theorem countP_replaceFirst (new : α) (h : l.find? p = some a) (q : α → Bool) :
    (replaceFirst p new l).countP q + (if q a then 1 else 0) =
      l.countP q + if q new then 1 else 0 := by
  obtain ⟨front, back, rfl, -, heq⟩ := replaceFirst_split h
  simp only [heq, countP_append, countP_cons]
  omega

/-- A row with a new key at the end. -/
theorem nodup_append_row {key : α → β} (h : (l.map key).Nodup) (hfresh : ∀ x ∈ l, key x ≠ key a) :
    ((l ++ [a]).map key).Nodup := by
  rw [map_append, nodup_append]
  refine ⟨h, nodup_singleton _, fun b hb c hc hbc => ?_⟩
  obtain ⟨x, hx, rfl⟩ := mem_map.mp hb
  rw [map_singleton, mem_singleton] at hc
  exact hfresh x hx (hbc.trans hc)

/-- A row with a later number at the end. -/
theorem pairwise_append_row {number : α → Nat} {n : Nat} (h : (n :: l.map number).Pairwise (· < ·))
    (hle : ∀ x ∈ l, number x < number a) (hlt : n < number a) :
    (n :: (l ++ [a]).map number).Pairwise (· < ·) := by
  rw [map_append, ← cons_append, pairwise_append]
  refine ⟨h, pairwise_singleton _ _, fun b hb c hc => ?_⟩
  rw [map_singleton, mem_singleton] at hc
  rcases mem_cons.mp hb with rfl | hb
  · exact hc ▸ hlt
  obtain ⟨x, hx, rfl⟩ := mem_map.mp hb
  exact hc ▸ hle x hx

theorem find?_of_mem [DecidableEq β] {key : α → β} (hnodup : (l.map key).Nodup) (ha : a ∈ l) :
    l.find? (fun b => key b = key a) = some a := by
  induction l with
  | nil => simp at ha
  | cons b l ih =>
    rw [map_cons, nodup_cons] at hnodup
    rcases mem_cons.mp ha with rfl | ha
    · simp
    have hne : key b ≠ key a := fun h => hnodup.1 (h ▸ mem_map_of_mem ha)
    rw [find?_cons_of_neg (by simpa using hne)]
    exact ih hnodup.2 ha

theorem length_replaceFirst (p : α → Bool) (new : α) (l : List α) :
    (replaceFirst p new l).length = l.length := by
  induction l with
  | nil => rfl
  | cons a l ih => by_cases ha : p a <;> simp [replaceFirst, ha, ih]

/-- The rows of `l` moved by `R` to the first rows of `l'`. -/
def Evolves (R : α → α → Prop) (l l' : List α) : Prop :=
  ∃ kept added, l' = kept ++ added ∧ List.Forall₂ R l kept

variable {R S : α → α → Prop} {l l' : List α}

/-- Rows appended to a table leave the others where they are. -/
theorem Evolves.append (hR : ∀ a ∈ l, R a a) (added : List α) : Evolves R l (l ++ added) :=
  ⟨l, added, rfl, forall₂_same.mpr hR⟩

/-- A table that does not change evolves by a reflexive move. -/
theorem Evolves.refl (hR : ∀ a ∈ l, R a a) : Evolves R l l :=
  ⟨l, [], (append_nil l).symm, forall₂_same.mpr hR⟩

/-- A write over the row that a search finds, row by row. -/
theorem forall₂_replaceFirst (h : l.find? p = some a) (hnew : R a new) (hR : ∀ b ∈ l, R b b) :
    List.Forall₂ R l (replaceFirst p new l) := by
  obtain ⟨front, back, rfl, -, heq⟩ := replaceFirst_split h
  rw [heq]
  have hfront : List.Forall₂ R front front :=
    forall₂_same.mpr fun b hb => hR b (mem_append_left _ hb)
  have hback : List.Forall₂ R back back :=
    forall₂_same.mpr fun b hb => hR b (mem_append_right _ (mem_cons_of_mem _ hb))
  exact rel_append hfront (List.Forall₂.cons hnew hback)

theorem Evolves.replaceFirst (h : l.find? p = some a) (hnew : R a new) (hR : ∀ b ∈ l, R b b) :
    Evolves R l (replaceFirst p new l) :=
  ⟨_, [], (append_nil _).symm, forall₂_replaceFirst h hnew hR⟩

theorem forall₂_trans {l₁ l₂ l3 : List α} (htrans : ∀ {a b c}, R a b → R b c → R a c)
    (h : List.Forall₂ R l₁ l₂) (h' : List.Forall₂ R l₂ l3) : List.Forall₂ R l₁ l3 := by
  induction h generalizing l3 with
  | nil =>
    cases h'
    exact .nil
  | cons hab _ ih =>
    cases h' with
    | cons hbc hrest => exact .cons (htrans hab hbc) (ih hrest)

/-- A pass over every row. -/
theorem Evolves.map (h : ∀ a ∈ l, R a (f a)) : Evolves R l (l.map f) := by
  refine ⟨l.map f, [], (append_nil _).symm, ?_⟩
  rw [forall₂_map_right_iff]
  exact forall₂_same.mpr h

/-- Both relations of two passes in a row. -/
theorem Evolves.map_right (h : Evolves R l l') :
    Evolves (fun a c => ∃ b, R a b ∧ c = f b) l (l'.map f) := by
  obtain ⟨kept, added, rfl, hk⟩ := h
  refine ⟨kept.map f, added.map f, map_append, ?_⟩
  rw [forall₂_map_right_iff]
  exact hk.imp fun a b hab => ⟨b, hab, rfl⟩

/-- The row found by a search that moves respect, in both tables. -/
theorem find?_of_forall₂ (h : List.Forall₂ R l l') (hp : ∀ a b, R a b → p b = p a)
    (ha : l.find? p = some a) : ∃ b, l'.find? p = some b ∧ R a b := by
  induction h with
  | nil => simp at ha
  | @cons x y l l' hxy _ ih =>
    rw [find?_cons] at ha ⊢
    rw [hp x y hxy]
    cases hx : p x with
    | true =>
      simp only [hx, Option.some.injEq] at ha ⊢
      exact ⟨y, rfl, ha ▸ hxy⟩
    | false =>
      simp only [hx] at ha ⊢
      exact ih ha

theorem Evolves.find? (h : Evolves R l l') (hp : ∀ a b, R a b → p b = p a)
    (ha : l.find? p = some a) : ∃ b, l'.find? p = some b ∧ R a b := by
  obtain ⟨kept, added, rfl, hk⟩ := h
  obtain ⟨b, hb, hab⟩ := find?_of_forall₂ hk hp ha
  exact ⟨b, by rw [find?_append, hb]; rfl, hab⟩

/-! ## Validating scans -/

section Scan

variable {ε κ σ : Type} {step : σ → α → Except ε σ} {V : α → Prop} {key : α → κ} {number : α → Nat}
  {seen : σ → List κ} {previous : σ → Nat} {advance : σ → α → σ}

/-- The meaning of a validating loop, from any values of its variables. Each turn passes when the
row itself is valid, its key is new and its number is above the one before. -/
theorem scan_ok_iff
    (hstep : ∀ s a s', step s a = .ok s' ↔
      V a ∧ key a ∉ seen s ∧ previous s < number a ∧ s' = advance s a)
    (hseen : ∀ s a, seen (advance s a) = key a :: seen s)
    (hprevious : ∀ s a, previous (advance s a) = number a) {s s' : σ} :
    rows.foldlM step s = .ok s' ↔
      (∀ a ∈ rows, V a) ∧ (rows.map key).Nodup ∧ (∀ a ∈ rows, key a ∉ seen s) ∧
        (previous s :: rows.map number).Pairwise (· < ·) ∧ s' = rows.foldl advance s := by
  induction rows generalizing s with
  | nil => simp [pure, Except.pure, eq_comm]
  | cons a rows ih =>
    simp only [foldlM_cons, Go.bind_eq_ok, hstep, ih, foldl_cons, map_cons,
      forall_mem_cons, nodup_cons]
    constructor
    · rintro ⟨_, ⟨ha, hnew, hlt, rfl⟩, hall, hnodup, hfresh, hpair, rfl⟩
      simp only [hseen, hprevious, mem_cons, not_or] at hfresh hpair
      have hge := (pairwise_cons.mp hpair).1
      refine ⟨⟨ha, hall⟩, ⟨fun hmem => ?_, hnodup⟩, ⟨hnew, fun x hx => (hfresh x hx).2⟩, ?_, rfl⟩
      · obtain ⟨x, hx, hkey⟩ := mem_map.mp hmem
        exact (hfresh x hx).1 hkey
      refine pairwise_cons.mpr ⟨fun n hn => ?_, hpair⟩
      rcases mem_cons.mp hn with rfl | hn
      · exact hlt
      · exact Nat.lt_trans hlt (hge n hn)
    · rintro ⟨⟨ha, hall⟩, ⟨hkey, hnodup⟩, ⟨hnew, hfresh⟩, hpair, rfl⟩
      rw [pairwise_cons] at hpair
      refine ⟨advance s a, ⟨ha, hnew, hpair.1 _ mem_cons_self, rfl⟩, hall, hnodup, ?_,
        by rw [hprevious]; exact hpair.2, rfl⟩
      intro x hx
      rw [hseen, mem_cons, not_or]
      exact ⟨fun hid => hkey (hid ▸ mem_map_of_mem hx), hfresh x hx⟩

/-- The meaning of a validating loop that compares each row with the rows before it. Each turn passes
when the row itself is valid and no row before it clashes with it. -/
theorem scan_fresh_ok_iff {fresh : σ → α → Prop} {D : α → α → Prop}
    (hstep : ∀ s a s', step s a = .ok s' ↔ V a ∧ fresh s a ∧ s' = advance s a)
    (hfresh : ∀ s a b, fresh (advance s a) b ↔ D a b ∧ fresh s b) {s s' : σ} :
    rows.foldlM step s = .ok s' ↔
      (∀ a ∈ rows, V a) ∧ rows.Pairwise D ∧ (∀ a ∈ rows, fresh s a) ∧
        s' = rows.foldl advance s := by
  induction rows generalizing s with
  | nil => simp [pure, Except.pure, eq_comm]
  | cons a rows ih =>
    simp only [foldlM_cons, Go.bind_eq_ok, hstep, ih, foldl_cons, forall_mem_cons, pairwise_cons]
    constructor
    · rintro ⟨_, ⟨ha, hnew, rfl⟩, hall, hpair, hrest, rfl⟩
      exact ⟨⟨ha, hall⟩, ⟨fun b hb => ((hfresh s a b).mp (hrest b hb)).1, hpair⟩,
        ⟨hnew, fun b hb => ((hfresh s a b).mp (hrest b hb)).2⟩, rfl⟩
    rintro ⟨⟨ha, hall⟩, ⟨hclash, hpair⟩, ⟨hnew, hrest⟩, rfl⟩
    exact ⟨advance s a, ⟨ha, hnew, rfl⟩, hall, hpair,
      fun b hb => (hfresh s a b).mpr ⟨hclash b hb, hrest b hb⟩, rfl⟩

end Scan

end Bria.Table
