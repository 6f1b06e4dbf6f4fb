import Mathlib.Data.List.Basic
import Mathlib.Tactic.Linarith

/-!
# Windows over a list of instants

Elements that have an instant are counted in half-open windows `[start, start + width)`. There are two
reasons for a bound of `n` elements in every window. Either each element is put at the end of the list
only if fewer than `n` elements are less than `width` before it (`count_append_le`), or any two
elements are `gap` apart and the window is `n` gaps wide (`count_le_of_gap`).
-/

namespace Bria.Window

open List

variable {α : Type} (time : α → Int) (start width : Int) {a : α} {gap : Int}

/-- How many elements are in a window. -/
def count (l : List α) : Nat := l.countP fun a => start ≤ time a && time a < start + width

/-- How many elements are less than `width` before an instant, or after it. -/
def recent (now : Int) (l : List α) : Nat := l.countP fun a => now - width < time a

variable {time start width} {l l' : List α} {n : Nat}

/-- A part of the list has fewer elements in each window. -/
theorem count_le_of_sublist (h : l.Sublist l') : count time start width l ≤ count time start width l' :=
  h.countP_le

/-- If the last element is in a window, then all others that are in it are recent. -/
theorem count_le_recent (ha : time a < start + width) :
    count time start width l ≤ recent time width (time a) l := by
  refine countP_mono_left fun b _ hb => ?_
  simp only [Bool.and_eq_true, decide_eq_true_eq] at hb ⊢
  omega

/-- One more element at the end, when fewer than `n` others are recent. -/
theorem count_append_le (hl : count time start width l ≤ n)
    (hrecent : recent time width (time a) l < n) : count time start width (l ++ [a]) ≤ n := by
  have hsplit : count time start width (l ++ [a]) =
      count time start width l + count time start width [a] := countP_append
  by_cases ha : start ≤ time a ∧ time a < start + width
  · -- The others in the window are recent.
    have hothers : count time start width l ≤ recent time width (time a) l := count_le_recent ha.2
    have hone : count time start width [a] ≤ 1 := countP_le_length
    omega
  have hnone : count time start width [a] = 0 := by
    simp only [count, countP_singleton, Bool.and_eq_true, decide_eq_true_eq, if_neg ha]
  omega

/-- From the first to the last of a list whose elements are apart there are as many gaps as there are
elements after the first. -/
theorem gaps_le (h : (a :: l).Pairwise fun b c => time b + gap ≤ time c) {last : Int}
    (hlast : ∀ b ∈ a :: l, time b < last) : time a + l.length * gap < last := by
  induction l generalizing a with
  | nil => simpa using hlast a mem_cons_self
  | cons b l ih =>
    obtain ⟨ha, hl⟩ := pairwise_cons.mp h
    have hfirst : time a + gap ≤ time b := ha b mem_cons_self
    have hrest : time b + l.length * gap < last := ih hl fun c hc => hlast c (mem_cons_of_mem a hc)
    have hlength : ((b :: l).length : Int) * gap = l.length * gap + gap := by
      push_cast [length_cons]
      rw [add_mul, one_mul]
    rw [hlength]
    omega

/-- Elements that are `gap` apart, in windows of `n` gaps. -/
theorem count_le_of_gap (hgap : 0 < gap) (h : l.Pairwise fun b c => time b + gap ≤ time c) :
    count time start (n * gap) l ≤ n := by
  unfold count
  rw [countP_eq_length_filter]
  -- The elements in the window are apart as well.
  have hpairwise := h.filter fun a => start ≤ time a && time a < start + n * gap
  have hin : ∀ a ∈ l.filter fun a => start ≤ time a && time a < start + n * gap,
      start ≤ time a ∧ time a < start + n * gap := by
    intro a ha
    simpa using (mem_filter.mp ha).2
  generalize hkept : (l.filter fun a => start ≤ time a && time a < start + n * gap) = kept
    at hpairwise hin
  cases kept with
  | nil => exact Nat.zero_le n
  | cons a rest =>
    have hgaps := gaps_le hpairwise fun b hb => (hin b hb).2
    have hstart := (hin a mem_cons_self).1
    have hlength : (rest.length : Int) * gap < n * gap := by omega
    have hlt : (rest.length : Int) < n := lt_of_mul_lt_mul_right hlength hgap.le
    rw [length_cons]
    omega

end Bria.Window
