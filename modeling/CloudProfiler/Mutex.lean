import Mathlib.Logic.Function.Basic

/-!
# CloudProfiler.Mutex

Threads that lock and unlock a mutex by hand (library layer, nothing here
mentions the profiler).  `P` are the program points of a thread and `inside`
those where it ought to hold the mutex.

* `Mutex.Moves` — what a step of a thread may do to the mutex;
* `Mutex.Held` — the mutex is held by the thread that is inside;
* `Mutex.Held.step` — the rule: such steps keep it.
-/

namespace CloudProfiler

namespace Mutex

variable {P : Type} {inside : P → Bool} {pc : Nat → P} {m m' : Option Nat} {t u : Nat} {p : P}

/-- A step of thread `t` to the point `p` uses the mutex well: it locks it
when it is free, unlocks it from inside, or leaves it alone. -/
inductive Moves (inside : P → Bool) (pc : Nat → P) (m : Option Nat) (t : Nat) (p : P) :
    Option Nat → Prop
  | keep (hp : inside p = inside (pc t)) : Moves inside pc m t p m
  | lock (hfree : m = none) (hp : inside p = true) : Moves inside pc m t p (some t)
  | unlock (hin : inside (pc t) = true) (hp : inside p = false) : Moves inside pc m t p none

/-- The mutex is held by the thread that is inside, and by nobody else. -/
def Held (inside : P → Bool) (pc : Nat → P) (m : Option Nat) : Prop :=
  ∀ t, m = some t ↔ inside (pc t) = true

theorem Held.init (hpc : ∀ t, inside (pc t) = false) : Held inside pc none := fun t => by
  simp [hpc t]

/-- At most one thread is inside. -/
theorem Held.uniq (h : Held inside pc m) (ht : inside (pc t) = true) (hu : inside (pc u) = true) :
    t = u := by
  have hm := (h t).mpr ht
  rw [(h u).mpr hu] at hm
  exact (Option.some.inj hm).symm

/-- When the mutex is free, nobody is inside. -/
theorem Held.outside (h : Held inside pc none) (t : Nat) : inside (pc t) = false := by
  rw [← Bool.not_eq_true]
  exact fun ht => nomatch (h t).mpr ht

/-- **The rule**: steps that use the mutex well keep it with the thread that
is inside. -/
theorem Held.step (h : Held inside pc m) (hs : Moves inside pc m t p m') :
    Held inside (Function.update pc t p) m' := by
  intro u
  by_cases hu : u = t
  · subst hu
    rw [Function.update_self]
    cases hs with
    | keep hp =>
        rw [hp]
        exact h u
    | lock hfree hp => simp [hp]
    | unlock hin hp => simp [hp]
  · rw [Function.update_of_ne hu]
    cases hs with
    | keep hp => exact h u
    | lock hfree hp =>
        subst hfree
        simp [h.outside u, Ne.symm hu]
    | unlock hin hp =>
        have hout : inside (pc u) ≠ true := fun hin' => hu (h.uniq hin' hin)
        simp [hout]

end Mutex

end CloudProfiler
