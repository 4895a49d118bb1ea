import Mathlib.Data.List.Range
import Mathlib.Logic.Function.Iterate

/-!
# CloudProfiler.Rotation

Positions that go round (library layer, nothing here mentions the profiler):
the position after the last one is the first.

* `next_mod`, `iterate_next` — the position after a number of steps;
* `exists_iterate_next` — every position comes up within one round.
-/

namespace CloudProfiler

namespace Rotation

variable {n i q : Nat}

/-- The position after `i`, of `n`. -/
def next (n i : Nat) : Nat := if i + 1 = n then 0 else i + 1

theorem next_lt (h : i < n) : next n i < n := by
  unfold next
  split <;> omega

theorem next_mod (hn : 0 < n) (m : Nat) : next n (m % n) = (m + 1) % n := by
  rw [next, ← Nat.mod_add_mod]
  split
  · next hlast => rw [hlast, Nat.mod_self]
  · next hlast =>
    have hlt := Nat.mod_lt m hn
    exact (Nat.mod_eq_of_lt (by omega)).symm

theorem iterate_next (hi : i < n) (k : Nat) : (next n)^[k] i = (i + k) % n := by
  induction k with
  | zero => exact (Nat.mod_eq_of_lt hi).symm
  | succ k ih => rw [Function.iterate_succ_apply', ih, next_mod (by omega), Nat.add_assoc]

/-- Each position comes up within one round, counted from any other. -/
theorem exists_iterate_next (hi : i < n) (hq : q < n) : ∃ k < n, (next n)^[k] i = q := by
  by_cases h : i ≤ q
  · refine ⟨q - i, by omega, ?_⟩
    rw [iterate_next hi, Nat.add_sub_cancel' h, Nat.mod_eq_of_lt hq]
  · refine ⟨n - i + q, by omega, ?_⟩
    rw [iterate_next hi, show i + (n - i + q) = q + n by omega, Nat.add_mod_right,
      Nat.mod_eq_of_lt hq]

end Rotation

end CloudProfiler
