import Mathlib.Data.BitVec

/-!
# CloudProfiler.Sense

Sense reversal on lines that only toggle (library layer, nothing here
mentions the profiler).  A line is a bit of a register; who waits for the
next toggle compares it with a variable that it reverses each time.

* `sense n` — the level of a line that was toggled `n` times;
* `pin_toggle_self`, `pin_toggle_of_ne`, `pin_clear_self`, `pin_clear_of_ne`
  — what toggling or clearing a bit does to the bits of the register;
* `sense_reached` — a line that is at most one toggle behind shows the
  expected level only when it has caught up.
-/

namespace CloudProfiler

/-- Bit `p` of a register. -/
def pin {w : Nat} (target : BitVec w) (p : Nat) : BitVec w := (target >>> p) &&& 1

/-- `target ^= 1 << p`. -/
def toggle {w : Nat} (target : BitVec w) (p : Nat) : BitVec w := target ^^^ (1#w <<< p)

/-- `target &= ~(1 << p)`. -/
def clear {w : Nat} (target : BitVec w) (p : Nat) : BitVec w := target &&& ~~~(1#w <<< p)

/-- `x = !x`. -/
def reverseSense {w : Nat} (x : BitVec w) : BitVec w := if x = 0 then 1 else 0

/-- The level of a line that was low and toggled `n` times since. -/
def sense (w n : Nat) : BitVec w := if n % 2 = 0 then 0 else 1

section Sense

variable {w p q m n : Nat} {target : BitVec w}

theorem pin_eq (target : BitVec w) (p : Nat) : pin target p = if target.getLsbD p then 1 else 0 := by
  refine BitVec.eq_of_getLsbD_eq fun i hi => ?_
  by_cases h0 : i = 0
  · subst h0
    by_cases hb : target.getLsbD p = true
    · simp [pin, hb, hi]
    · simp [pin, hb]
  · by_cases hb : target.getLsbD p = true
    · simp [pin, hb, h0]
    · simp [pin, hb, h0]

theorem reverseSense_sense (n : Nat) : reverseSense (sense w n) = sense w (n + 1) := by
  unfold reverseSense sense
  obtain h | h := Nat.mod_two_eq_zero_or_one n
  · simp [h, Nat.add_mod]
  · simp [h, Nat.add_mod]

theorem getLsbD_one_shift_of_ne (hpq : p ≠ q) : (1#w <<< p).getLsbD q = false := by
  simp only [BitVec.getLsbD_shiftLeft, BitVec.getLsbD_one]
  obtain h | h := Nat.lt_or_gt_of_ne hpq
  · simp [show q - p ≠ 0 by omega]
  · simp [h]

/-- Toggling a bit reverses it. -/
theorem pin_toggle_self (hp : p < w) : pin (toggle target p) p = reverseSense (pin target p) := by
  have hbit : (toggle target p).getLsbD p = !target.getLsbD p := by
    simp [toggle, hp]
  rw [pin_eq, pin_eq, hbit]
  by_cases hb : target.getLsbD p = true
  · simp [hb, reverseSense]
  · simp [hb, reverseSense]

/-- The other bits stay. -/
theorem pin_toggle_of_ne (hpq : p ≠ q) : pin (toggle target p) q = pin target q := by
  have hbit : (toggle target p).getLsbD q = target.getLsbD q := by
    rw [toggle, BitVec.getLsbD_xor, getLsbD_one_shift_of_ne hpq, Bool.xor_false]
  rw [pin_eq, pin_eq, hbit]

/-- A cleared bit is low. -/
theorem pin_clear_self (target : BitVec w) (p : Nat) : pin (clear target p) p = 0 := by
  have hbit : (clear target p).getLsbD p = false := by
    have hpos : p < w → 0 < w := by omega
    simpa [clear] using fun _ hp => ⟨hp, hpos hp⟩
  rw [pin_eq, hbit]
  rfl

/-- The other bits stay. -/
theorem pin_clear_of_ne (hpq : p ≠ q) (hq : q < w) : pin (clear target p) q = pin target q := by
  have hbit : (clear target p).getLsbD q = target.getLsbD q := by
    rw [clear, BitVec.getLsbD_and, BitVec.getLsbD_not, getLsbD_one_shift_of_ne hpq]
    simp [hq]
  rw [pin_eq, pin_eq, hbit]

/-- A line that is at most one toggle behind shows the expected level only
when it has caught up. -/
theorem sense_reached (hw : 0 < w) (hle : m ≤ n) (hlag : n ≤ m + 1) (h : sense w m = sense w n) :
    m = n := by
  by_contra hne
  obtain rfl : n = m + 1 := by omega
  have hbit := congrArg (BitVec.getLsbD · 0) h
  unfold sense at hbit
  obtain hm | hm := Nat.mod_two_eq_zero_or_one m
  · simp [hm, Nat.add_mod, hw] at hbit
  · simp [hm, Nat.add_mod, hw] at hbit

end Sense

end CloudProfiler
