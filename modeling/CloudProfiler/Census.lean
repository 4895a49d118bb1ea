import Mathlib.Algebra.BigOperators.Group.Finset.Piecewise
import Mathlib.Algebra.Order.BigOperators.Group.Finset

/-!
# CloudProfiler.Census

Counting over a numbered family (library layer, nothing here mentions the
profiler).

`tally w n f` is the total weight of `f 0, …, f (n - 1)`: the number of
threads at a program point, the number of tokens they hold, the number of
objects in a certain phase.  Steps of a system update one member or add a
new one; the two rules `tally_update` and `tally_grow` say what that does to
the total, so that a conservation law over many threads is an equation
between natural numbers at each step.
-/

namespace CloudProfiler

universe u

variable {α : Type u} {w w' : α → Nat} {n t : Nat} {f : Nat → α} {a : α}

/-- Total weight of the first `n` members of a family. -/
def tally (w : α → Nat) (n : Nat) (f : Nat → α) : Nat := ∑ i ∈ Finset.range n, w (f i)

@[simp] theorem tally_zero : tally w 0 f = 0 := rfl

/-- One member changes. -/
theorem tally_update (ht : t < n) (a : α) :
    tally w n (Function.update f t a) + w (f t) = tally w n f + w a := by
  have hmem : t ∈ Finset.range n := Finset.mem_range.mpr ht
  have hrest : ∑ i ∈ (Finset.range n).erase t, w (Function.update f t a i) =
      ∑ i ∈ (Finset.range n).erase t, w (f i) :=
    Finset.sum_congr rfl fun i hi => by rw [Function.update_of_ne (Finset.ne_of_mem_erase hi)]
  have hnew := Finset.add_sum_erase (Finset.range n) (fun i => w (Function.update f t a i)) hmem
  have hold := Finset.add_sum_erase (Finset.range n) (fun i => w (f i)) hmem
  simp only [Function.update_self] at hnew
  simp only [tally]
  omega

/-- One member changes, as an equation for the new total. -/
theorem tally_update_eq (ht : t < n) (a : α) :
    tally w n (Function.update f t a) = tally w n f + w a - w (f t) := by
  have := tally_update (w := w) (f := f) ht a
  omega

/-- A member changes to one of the same weight. -/
theorem tally_update_same (h : w a = w (f t)) : tally w n (Function.update f t a) = tally w n f := by
  refine Finset.sum_congr rfl fun i _ => ?_
  by_cases hi : i = t
  · subst hi
    rw [Function.update_self, h]
  · rw [Function.update_of_ne hi]

/-- Two families with the same weights. -/
theorem tally_congr {β : Type u} {v : β → Nat} {g : Nat → β} (h : ∀ i, i < n → w (f i) = v (g i)) :
    tally w n f = tally v n g :=
  Finset.sum_congr rfl fun i hi => h i (Finset.mem_range.mp hi)

/-- A new member is added. -/
theorem tally_grow (w : α → Nat) (n : Nat) (f : Nat → α) (a : α) :
    tally w (n + 1) (Function.update f n a) = tally w n f + w a := by
  have hrest : ∑ i ∈ Finset.range n, w (Function.update f n a i) = ∑ i ∈ Finset.range n, w (f i) :=
    Finset.sum_congr rfl fun i hi => by
      rw [Function.update_of_ne (Nat.ne_of_lt (Finset.mem_range.mp hi))]
  rw [tally, Finset.sum_range_succ, Function.update_self, hrest]
  rfl

/-- A member that was not counted yet is counted. -/
theorem tally_succ (w : α → Nat) (n : Nat) (f : Nat → α) :
    tally w (n + 1) f = tally w n f + w (f n) :=
  Finset.sum_range_succ _ _

/-- No member has a weight. -/
theorem tally_eq_zero : tally w n f = 0 ↔ ∀ i, i < n → w (f i) = 0 := by
  simp [tally, Finset.sum_eq_zero_iff]

/-- A member weighs at most as much as all together. -/
theorem le_tally (ht : t < n) : w (f t) ≤ tally w n f :=
  Finset.single_le_sum (f := fun i => w (f i)) (fun _ _ => Nat.zero_le _)
    (Finset.mem_range.mpr ht)

/-- Two members together weigh at most as much as all together. -/
theorem add_le_tally {t' : Nat} (hne : t ≠ t') (ht : t < n) (ht' : t' < n) :
    w (f t) + w (f t') ≤ tally w n f := by
  have hsub : ({t, t'} : Finset Nat) ⊆ Finset.range n := by
    intro i hi
    simp only [Finset.mem_insert, Finset.mem_singleton] at hi
    obtain rfl | rfl := hi <;> simpa
  calc w (f t) + w (f t') = ∑ i ∈ ({t, t'} : Finset Nat), w (f i) := by
        rw [Finset.sum_pair hne]
    _ ≤ tally w n f := Finset.sum_le_sum_of_subset hsub

/-- Members of weight at most one weigh at most as much as there are, and
as much only if each of them weighs one. -/
theorem tally_le_card (h : ∀ i, i < n → w (f i) ≤ 1) :
    tally w n f ≤ n ∧ (tally w n f = n → ∀ i, i < n → w (f i) = 1) := by
  induction n with
  | zero => simp
  | succ n ih =>
      obtain ⟨hle, heq⟩ := ih fun i hi => h i (by omega)
      have hn := h n (by omega)
      rw [tally_succ]
      refine ⟨by omega, fun htot i hi => ?_⟩
      obtain hi | rfl := Nat.lt_succ_iff_lt_or_eq.mp hi
      · exact heq (by omega) i hi
      · omega

/-- A total of one is due to one member. -/
theorem tally_pos (h : 0 < tally w n f) : ∃ i, i < n ∧ 0 < w (f i) := by
  by_contra hno
  have hall : ∀ i, i < n → w (f i) = 0 := fun i hi =>
    Nat.eq_zero_of_not_pos fun hp => hno ⟨i, hi, hp⟩
  rw [tally_eq_zero.mpr hall] at h
  exact Nat.lt_irrefl 0 h

end CloudProfiler
