import Mathlib.Algebra.BigOperators.Intervals
import Mathlib.Algebra.Order.Interval.Finset.SuccPred
import Mathlib.Tactic.Abel

set_option relaxedAutoImplicit false
set_option autoImplicit false

/-!
# Rolling sums over circular buffers

A *rolling sum* keeps the sum of the last `w` values of a stream without re-adding them: the
values are stored in a circular buffer of `w` cells, value number `k` in cell `k % w`, and once
the buffer is full each new value replaces the value it overwrites in the sum. The buffer starts
with arbitrary contents, of which no trace reaches the sum.

## Main definitions

* `RollingSum.Window` — the running sum and the circular buffer.
* `RollingSum.Window.push` — account for value number `k`.
* `RollingSum.Window.Tracks` — the window holds exactly the last `w` of the first `k` values.

## Main results

* `RollingSum.Window.Tracks.push` — pushing value number `k` moves the window on by one.
-/

open Finset

namespace RollingSum

/-- A running sum together with the circular buffer of the values in it. -/
structure Window (w : ℕ) (α : Type*) where
  /-- The running sum. -/
  sum : α
  /-- The circular buffer. -/
  buf : Fin w → α

namespace Window

variable {w : ℕ} [NeZero w] {α : Type*} [AddCommGroup α]

/-- The cell of value number `k`. -/
def cell (w : ℕ) [NeZero w] (k : ℕ) : Fin w := ⟨k % w, Nat.mod_lt k (NeZero.pos w)⟩

/-- Account for value number `k`: while the buffer fills the value is added and stored, after
that the value stored in its cell is taken out of the sum first. -/
def push (s : Window w α) (k : ℕ) (x : α) : Window w α :=
  if k < w then
    ⟨s.sum + x, Function.update s.buf (cell w k) x⟩
  else
    ⟨s.sum - s.buf (cell w k) + x, Function.update s.buf (cell w k) x⟩

/-- The sum without the value that value number `k` replaces. -/
def rest (s : Window w α) (k : ℕ) : α := if k < w then s.sum else s.sum - s.buf (cell w k)

/-- A push adds the new value to what remains of the sum. -/
lemma push_sum (s : Window w α) (k : ℕ) (x : α) : (s.push k x).sum = s.rest k + x := by
  unfold push rest
  split <;> rfl

/-- After the first `k` values of the stream `x` the window holds the last `w` of them. -/
structure Tracks (s : Window w α) (x : ℕ → α) (k : ℕ) : Prop where
  /-- The sum is that of the last `w` values. -/
  sum_eq : s.sum = ∑ i ∈ Ico (k - w) k, x i
  /-- Each of the last `w` values is in its cell. -/
  buf_eq : ∀ i, i < k → k ≤ i + w → s.buf (cell w i) = x i

/-- Two value numbers less than `w` apart have different cells. -/
lemma cell_ne {i k : ℕ} (hik : i < k) (hkw : k < i + w) : cell w i ≠ cell w k := by
  intro h
  have hmod : k % w = i % w := (congrArg Fin.val h).symm
  have hdvd : w ∣ k - i := Nat.dvd_of_mod_eq_zero (Nat.sub_mod_eq_zero_of_mod_eq hmod)
  have := Nat.le_of_dvd (by omega) hdvd
  omega

/-- A value number and the one `w` later share their cell. -/
lemma cell_sub {k : ℕ} (hk : w ≤ k) : cell w (k - w) = cell w k := by
  apply Fin.ext
  simp only [cell]
  conv_rhs => rw [← Nat.sub_add_cancel hk, Nat.add_mod_right]

/-- The window over an empty stream tracks it, whatever the buffer contains. -/
lemma tracks_zero (buf : Fin w → α) (x : ℕ → α) : Tracks ⟨0, buf⟩ x 0 where
  sum_eq := by simp
  buf_eq := by intro i hi; omega

/-- The buffer after a push: the new value in its cell, the others as they were. -/
lemma push_buf (s : Window w α) (k : ℕ) (x : α) :
    (s.push k x).buf = Function.update s.buf (cell w k) x := by
  unfold push
  split <;> rfl

/-- **A push moves the window on by one value.**

**Proof sketch.** While `k < w` nothing leaves the window and the interval of summation grows at
its right end only. After that the value leaving the window is number `k - w`, which is the one
stored in the cell of `k`; the interval loses its left end and gains its right end. The cells of
the other values in the window differ from the cell written. -/
lemma Tracks.push {s : Window w α} {x : ℕ → α} {k : ℕ} (h : s.Tracks x k) :
    (s.push k (x k)).Tracks x (k + 1) where
  sum_eq := by
    by_cases hk : k < w
    · have hlow : k + 1 - w = k - w := by omega
      simp only [Window.push, if_pos hk, h.sum_eq, hlow]
      rw [sum_Ico_succ_top (by omega)]
    · have hold : s.buf (cell w k) = x (k - w) := by
        rw [← cell_sub (by omega)]
        exact h.buf_eq _ (by have := NeZero.pos w; omega) (by omega)
      have hlow : k + 1 - w = k - w + 1 := by omega
      have hhead : ∑ i ∈ Ico (k - w) k, x i = x (k - w) + ∑ i ∈ Ico (k - w + 1) k, x i :=
        sum_eq_sum_Ico_succ_bot (by have := NeZero.pos w; omega) x
      simp only [Window.push, if_neg hk, h.sum_eq, hold, hlow]
      rw [sum_Ico_succ_top (by have := NeZero.pos w; omega), hhead]
      abel
  buf_eq := by
    intro i hi hiw
    rw [push_buf]
    rcases Nat.lt_succ_iff_lt_or_eq.mp hi with hlt | rfl
    · rw [Function.update_of_ne (cell_ne hlt (by omega))]
      exact h.buf_eq i hlt (by omega)
    · rw [Function.update_self]

/-- Storing the value just pushed once more changes nothing. -/
lemma update_push_buf (s : Window w α) (k : ℕ) (x : α) :
    Function.update (s.push k x).buf (cell w k) x = (s.push k x).buf := by
  rw [push_buf, Function.update_idem]

end Window

end RollingSum
