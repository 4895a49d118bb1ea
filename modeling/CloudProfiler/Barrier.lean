import CloudProfiler.Run
import Mathlib.Algebra.GroupWithZero.Nat
import Mathlib.Logic.Function.Basic

/-!
# CloudProfiler.Barrier

The barrier of the frequency measurements (`barrier.cpp`).  Each thread counts
its own calls of `barrier_wait` and waits until no counter is lower.  The
counters are never reset: a fast thread may enter its next call while slow
ones still read the counters.  They are 64 bits wide and will overflow, as
`barrier.h` says.

* `barrierStep` — the atomic steps of a thread;
* `BarrierInv` — no thread is more than one call ahead, and how far a thread
  has read the counters;
* `barrier_separates` — the phases are separate, up to the overflow.
-/

namespace CloudProfiler

/-- `MAX_ALLOC_NR_THREADS`. -/
def maxAllocNrThreads : Nat := 4096

/-- Where a thread is. -/
inductive BarrierPc
  /-- Not in `barrier_wait`. -/
  | idle
  /-- Has counted the call, `my_level` is not read yet. -/
  | load
  /-- In the loop, about to read the counter of `thr`. -/
  | scan (myLevel : UInt64) (thr : Nat)
  deriving DecidableEq

structure BarrierThread where
  pc : BarrierPc
  /-- The calls of `barrier_wait` that it has entered. -/
  waits : Nat

structure Barrier where
  nrThreads : Nat
  ctr : Nat → UInt64
  threads : Nat → BarrierThread

namespace Barrier

/-- A read of the array of counters. -/
def read (s : Barrier) (i : Nat) : Option UInt64 :=
  if i < maxAllocNrThreads then some (s.ctr i) else none

def goto (s : Barrier) (tid : Nat) (pc : BarrierPc) : Barrier :=
  { s with threads := Function.update s.threads tid ⟨pc, (s.threads tid).waits⟩ }

end Barrier

/-- `barrier_init`, before any call of `barrier_wait`. -/
def barrierInit (ctr : Nat → UInt64) (nrThreads : Nat) : Barrier where
  nrThreads := nrThreads
  ctr i := if i < nrThreads then 0 else ctr i
  threads _ := ⟨.idle, 0⟩

/-- The next atomic step of the thread `tid`; `none` outside the array. -/
def barrierStep (s : Barrier) (tid : Nat) : Option Barrier :=
  match (s.threads tid).pc with
  | .idle =>
      (s.read tid).map fun c =>
        { s with
          ctr := Function.update s.ctr tid (c + 1)
          threads := Function.update s.threads tid ⟨.load, (s.threads tid).waits + 1⟩ }
  | .load => (s.read tid).map fun c => s.goto tid (.scan c 0)
  | .scan myLevel thr =>
      if thr < s.nrThreads then
        (s.read thr).map fun c =>
          if c < myLevel then s else s.goto tid (.scan myLevel (thr + 1))
      else some (s.goto tid .idle)

/-- The steps of the threads, none of which enters its `2 ^ 64`-th call. -/
def FewWaits (s : Barrier) (tid : Nat) : Prop :=
  tid < s.nrThreads ∧ ((s.threads tid).pc = .idle → (s.threads tid).waits + 1 < 2 ^ 64)

instance : DecidableRel FewWaits := fun _ _ => inferInstanceAs (Decidable (_ ∧ _))

/-- The steps of the threads. -/
def OfThreads (s : Barrier) (tid : Nat) : Prop := tid < s.nrThreads

instance : DecidableRel OfThreads := fun _ _ => inferInstanceAs (Decidable (_ < _))

/-! ## the invariant -/

/-- The counters that the thread has found to be high enough. -/
def BarrierPc.passed (nrThreads : Nat) : BarrierPc → Nat
  | .idle => nrThreads
  | .load => 0
  | .scan _ thr => thr

/-- The value of `my_level` is the thread's own counter. -/
def BarrierPc.LevelOk (c : UInt64) : BarrierPc → Prop
  | .scan myLevel _ => myLevel = c
  | _ => True

structure BarrierInv (n : Nat) (s : Barrier) : Prop where
  size : s.nrThreads = n
  ctr : ∀ t < n, (s.ctr t).toNat = (s.threads t).waits
  level : ∀ t < n, (s.threads t).pc.LevelOk (s.ctr t)
  near : ∀ t < n, ∀ j < n, (s.threads t).waits ≤ (s.threads j).waits + 1
  passed : ∀ t < n, ∀ j < n, j < (s.threads t).pc.passed n →
    (s.threads t).waits ≤ (s.threads j).waits

section Barrier

variable {n t : Nat} {s s' : Barrier}

theorem barrierInit_inv (ctr : Nat → UInt64) (n : Nat) : BarrierInv n (barrierInit ctr n) where
  size := rfl
  ctr t ht := by simp [barrierInit, ht]
  level _ _ := trivial
  near _ _ _ _ := Nat.zero_le _
  passed _ _ _ _ _ := Nat.zero_le _

/-- What a step does: the thread enters a call, or moves on in it. -/
theorem barrierStep_cases (h : barrierStep s t = some s') :
    ((s.threads t).pc = .idle ∧
        s' = { s with
          ctr := Function.update s.ctr t (s.ctr t + 1)
          threads := Function.update s.threads t ⟨.load, (s.threads t).waits + 1⟩ }) ∨
      ((s.threads t).pc = .load ∧ s' = s.goto t (.scan (s.ctr t) 0)) ∨
      ∃ myLevel thr, (s.threads t).pc = .scan myLevel thr ∧
        (thr < s.nrThreads ∧ s.ctr thr < myLevel ∧ s' = s ∨
          thr < s.nrThreads ∧ ¬ s.ctr thr < myLevel ∧ s' = s.goto t (.scan myLevel (thr + 1)) ∨
          s.nrThreads ≤ thr ∧ s' = s.goto t .idle) := by
  have hread {i : Nat} {c : UInt64} (hc : s.read i = some c) : c = s.ctr i := by
    unfold Barrier.read at hc
    split at hc
    · exact (Option.some.inj hc).symm
    · cases hc
  unfold barrierStep at h
  split at h
  · next hpc =>
    obtain ⟨c, hc, rfl⟩ := Option.map_eq_some_iff.mp h
    rw [hread hc]
    exact .inl ⟨hpc, rfl⟩
  · next hpc =>
    obtain ⟨c, hc, rfl⟩ := Option.map_eq_some_iff.mp h
    rw [hread hc]
    exact .inr (.inl ⟨hpc, rfl⟩)
  · next myLevel thr hpc =>
    refine .inr (.inr ⟨myLevel, thr, hpc, ?_⟩)
    split at h
    · next hthr =>
      obtain ⟨c, hc, rfl⟩ := Option.map_eq_some_iff.mp h
      rw [hread hc]
      by_cases hlow : s.ctr thr < myLevel
      · exact .inl ⟨hthr, hlow, if_pos hlow⟩
      · exact .inr (.inl ⟨hthr, hlow, if_neg hlow⟩)
    · next hthr => exact .inr (.inr ⟨Nat.not_lt.mp hthr, (Option.some.inj h).symm⟩)

/-- A thread that moves on in its call keeps the invariant, if what it has
found is so. -/
theorem BarrierInv.goto {pc : BarrierPc} (hs : BarrierInv n s) (hlevel : pc.LevelOk (s.ctr t))
    (hpassed : ∀ j < n, j < pc.passed n → (s.threads t).waits ≤ (s.threads j).waits) :
    BarrierInv n (s.goto t pc) := by
  have hwaits (j : Nat) : ((s.goto t pc).threads j).waits = (s.threads j).waits := by
    unfold Barrier.goto
    by_cases hj : j = t
    · simp [hj]
    · simp [Function.update_of_ne hj]
  have hpc {j : Nat} (hj : j ≠ t) : (s.goto t pc).threads j = s.threads j :=
    Function.update_of_ne hj ..
  have hself : ((s.goto t pc).threads t).pc = pc := by simp [Barrier.goto]
  refine ⟨hs.size, fun u hu => ?_, fun u hu => ?_, fun u hu j hj => ?_, fun u hu j hj hlt => ?_⟩
  · rw [hwaits]
    exact hs.ctr u hu
  · by_cases hut : u = t
    · subst hut
      rw [hself]
      exact hlevel
    · rw [hpc hut]
      exact hs.level u hu
  · rw [hwaits, hwaits]
    exact hs.near u hu j hj
  · rw [hwaits, hwaits]
    by_cases hut : u = t
    · subst hut
      rw [hself] at hlt
      exact hpassed j hj hlt
    · rw [hpc hut] at hlt
      exact hs.passed u hu j hj hlt

/-- A thread enters a call when all others have entered its last one. -/
theorem BarrierInv.enter (hs : BarrierInv n s) (ht : t < n) (hpc : (s.threads t).pc = .idle)
    (hfew : (s.threads t).waits + 1 < 2 ^ 64) :
    BarrierInv n
      { s with
        ctr := Function.update s.ctr t (s.ctr t + 1)
        threads := Function.update s.threads t ⟨.load, (s.threads t).waits + 1⟩ } := by
  have hlast : ∀ j < n, (s.threads t).waits ≤ (s.threads j).waits := fun j hj =>
    hs.passed t ht j hj (by rw [hpc]; exact hj)
  refine ⟨hs.size, fun u hu => ?_, fun u hu => ?_, fun u hu j hj => ?_, fun u hu j hj hlt => ?_⟩
  · by_cases hut : u = t
    · subst hut
      have hctr := hs.ctr u hu
      simp only [Function.update_self]
      rw [UInt64.toNat_add, hctr]
      exact Nat.mod_eq_of_lt hfew
    · simp only [Function.update_of_ne hut]
      exact hs.ctr u hu
  · by_cases hut : u = t
    · subst hut
      simp [BarrierPc.LevelOk]
    · simp only [Function.update_of_ne hut]
      exact hs.level u hu
  · have hnear := hs.near u hu j hj
    have hlastj := hlast j hj
    by_cases hut : u = t <;> by_cases hjt : j = t <;>
      simp only [hut, hjt, Function.update_self, Function.update_of_ne, ne_eq,
        not_false_eq_true] at * <;>
      omega
  · by_cases hut : u = t
    · subst hut
      simp [BarrierPc.passed] at hlt
    · simp only [Function.update_of_ne hut] at hlt ⊢
      have hle := hs.passed u hu j hj hlt
      by_cases hjt : j = t
      · subst hjt
        simp only [Function.update_self]
        omega
      · rw [Function.update_of_ne hjt]
        exact hle

theorem BarrierInv.step (hs : BarrierInv n s) (hok : FewWaits s t) (h : barrierStep s t = some s') :
    BarrierInv n s' := by
  obtain ⟨ht, hfew⟩ := hok
  rw [hs.size] at ht
  obtain ⟨hpc, rfl⟩ | ⟨hpc, rfl⟩ | ⟨myLevel, thr, hpc, hcases⟩ := barrierStep_cases h
  · exact hs.enter ht hpc (hfew hpc)
  · exact hs.goto rfl fun j _ hj => absurd hj (Nat.not_lt_zero j)
  · have hlevel : myLevel = s.ctr t := by
      have hok := hs.level t ht
      rw [hpc] at hok
      exact hok
    have hbelow : ∀ j < n, j < thr → (s.threads t).waits ≤ (s.threads j).waits := fun j hj hlt =>
      hs.passed t ht j hj (by rw [hpc]; exact hlt)
    obtain ⟨-, -, rfl⟩ | ⟨hthr, hhigh, rfl⟩ | ⟨hthr, rfl⟩ := hcases
    · exact hs
    · refine hs.goto hlevel fun j hj hlt => ?_
      obtain hlt | rfl := Nat.lt_succ_iff_lt_or_eq.mp hlt
      · exact hbelow j hj hlt
      · rw [← hs.ctr t ht, ← hs.ctr j hj, ← hlevel]
        rw [UInt64.lt_iff_toNat_lt] at hhigh
        exact Nat.not_lt.mp hhigh
    · rw [hs.size] at hthr
      exact hs.goto trivial fun j hj _ => hbelow j hj (Nat.lt_of_lt_of_le hj hthr)

theorem barrier_inv {ctr : Nat → UInt64} (h : Reach barrierStep (barrierInit ctr n) FewWaits s) :
    BarrierInv n s :=
  h.invariant (barrierInit_inv ctr n) fun _ _ _ hs hok hstep => hs.step hok hstep

/-! ## the phases -/

theorem waits_le_step (h : barrierStep s t = some s') (j : Nat) :
    (s.threads j).waits ≤ (s'.threads j).waits := by
  have hgoto (pc : BarrierPc) : (s.threads j).waits ≤ ((s.goto t pc).threads j).waits := by
    unfold Barrier.goto
    by_cases hj : j = t
    · simp [hj]
    · simp [Function.update_of_ne hj]
  obtain ⟨-, rfl⟩ | ⟨-, rfl⟩ | ⟨_, _, -, ⟨-, -, rfl⟩ | ⟨-, -, rfl⟩ | ⟨-, rfl⟩⟩ :=
    barrierStep_cases h
  · by_cases hj : j = t
    · simp [hj]
    · simp [Function.update_of_ne hj]
  · exact hgoto _
  · exact Nat.le_refl _
  · exact hgoto _
  · exact hgoto _

/-- The counters only grow. -/
theorem BarrierInv.ctr_le (hs : BarrierInv n s) (h : Reach barrierStep s FewWaits s') {j : Nat}
    (hj : j < n) : s.ctr j ≤ s'.ctr j := by
  have hrun : BarrierInv n s' ∧ (s.threads j).waits ≤ (s'.threads j).waits :=
    h.invariant (I := fun s' => BarrierInv n s' ∧ (s.threads j).waits ≤ (s'.threads j).waits)
      ⟨hs, Nat.le_refl _⟩
      fun _ _ _ ih hok hstep => ⟨ih.1.step hok hstep, Nat.le_trans ih.2 (waits_le_step hstep j)⟩
  rw [UInt64.le_iff_toNat_le, hs.ctr j hj, hrun.1.ctr j hj]
  exact hrun.2

/-- A thread in its call sees the counter of a thread that has entered it. -/
theorem BarrierInv.not_lt (hs : BarrierInv n s) {myLevel : UInt64} {thr j : Nat} (ht : t < n)
    (hpc : (s.threads t).pc = .scan myLevel thr) (hj : j < n)
    (hle : (s.threads t).waits ≤ (s.threads j).waits) : ¬ s.ctr j < myLevel := by
  have hlevel := hs.level t ht
  rw [hpc] at hlevel
  rw [show myLevel = s.ctr t from hlevel, UInt64.lt_iff_toNat_lt, hs.ctr t ht, hs.ctr j hj]
  exact Nat.not_lt.mpr hle

/-- Only counters of the array are read. -/
theorem BarrierInv.isSome_step (hs : BarrierInv n s) (hn : n ≤ maxAllocNrThreads) (ht : t < n) :
    (barrierStep s t).isSome := by
  have hread {i : Nat} (hi : i < n) : s.read i = some (s.ctr i) :=
    if_pos (Nat.lt_of_lt_of_le hi hn)
  unfold barrierStep
  split
  · rw [hread ht]
    rfl
  · rw [hread ht]
    rfl
  · split
    · next hthr =>
      rw [hs.size] at hthr
      rw [hread hthr]
      rfl
    · rfl

end Barrier

/-- What the barrier is for, between `n` threads. -/
structure BarrierSafe (n : Nat) (s : Barrier) : Prop where
  /-- A thread that has returned from its calls: all have entered as many. -/
  separates : ∀ t < n, (s.threads t).pc = .idle →
    ∀ j < n, (s.threads t).waits ≤ (s.threads j).waits
  near : ∀ i < n, ∀ j < n, (s.ctr i).toNat ≤ (s.ctr j).toNat + 1
  /-- A thread is not held back by one that has entered the same call. -/
  passes : ∀ t < n, ∀ myLevel thr, (s.threads t).pc = .scan myLevel thr →
    ∀ j < n, (s.threads t).waits ≤ (s.threads j).waits → ¬ s.ctr j < myLevel
  /-- The condition of the loop stays false. -/
  released : ∀ t < n, ∀ myLevel thr, (s.threads t).pc = .scan myLevel thr →
    ∀ j < n, ¬ s.ctr j < myLevel →
      ∀ s', Reach barrierStep s FewWaits s' → ¬ s'.ctr j < myLevel
  /-- The array is read within its bounds. -/
  defined : ∀ t < n, (barrierStep s t).isSome

/-- **The barrier** separates the phases, as long as no thread enters its
`2 ^ 64`-th call. -/
theorem barrier_separates (ctr : Nat → UInt64) (n : Nat) (hn : n ≤ maxAllocNrThreads) (s : Barrier)
    (h : Reach barrierStep (barrierInit ctr n) FewWaits s) : BarrierSafe n s := by
  have hs := barrier_inv h
  exact
    { separates := fun t ht hpc j hj => hs.passed t ht j hj (by rw [hpc]; exact hj)
      near := fun i hi j hj => by
        rw [hs.ctr i hi, hs.ctr j hj]
        exact hs.near i hi j hj
      passes := fun t ht _ _ hpc j hj hle => hs.not_lt ht hpc hj hle
      released := fun t _ myLevel _ _ j hj hhigh s' h' hlow =>
        hhigh (UInt64.lt_of_le_of_lt (hs.ctr_le h' hj) hlow)
      defined := fun t ht => hs.isSome_step hn ht }

/-- Two threads: one has returned, the other still reads the counters. -/
theorem barrier_separates_two :
    ∃ s, Reach barrierStep (barrierInit (fun _ => 7) 2) FewWaits s ∧ BarrierSafe 2 s ∧
      (s.threads 0).pc = .idle ∧ (s.threads 1).pc = .scan 1 1 := by
  have hrun : (exec barrierStep FewWaits (barrierInit (fun _ => 7) 2)
      [0, 1, 0, 1, 1, 0, 0, 0]).any
        (fun s => (s.threads 0).pc = .idle ∧ (s.threads 1).pc = .scan 1 1) = true := by
    decide
  obtain ⟨s, hs, hpc⟩ := Reach.of_exec_any _ _ hrun
  exact ⟨s, hs, barrier_separates _ 2 (by decide) s hs, by simpa using hpc⟩

/-! ## the overflow -/

/-- Two threads out of the barrier. -/
def twoThreads (c0 c1 : UInt64) (w0 w1 : Nat) : Barrier where
  nrThreads := 2
  ctr i := if i = 0 then c0 else if i = 1 then c1 else 0
  threads i := ⟨.idle, if i = 0 then w0 else if i = 1 then w1 else 0⟩

/-- A phase in which they take turns. -/
theorem exec_phase (c : UInt64) (k : Nat) :
    exec barrierStep OfThreads (twoThreads c c k k) [0, 1, 0, 1, 0, 0, 0, 1, 1, 1] =
      some (twoThreads (c + 1) (c + 1) (k + 1) (k + 1)) := by
  simp [exec, OfThreads, barrierStep, Barrier.goto, Barrier.read, Function.update,
    maxAllocNrThreads, twoThreads]
  constructor <;> funext i <;> obtain _ | _ | i := i <;> simp

/-- When its counter overflows, a thread passes alone. -/
theorem exec_overflow (k : Nat) :
    exec barrierStep OfThreads (twoThreads 18446744073709551615 18446744073709551615 k k)
        [0, 0, 0, 0, 0] =
      some (twoThreads 0 18446744073709551615 (k + 1) k) := by
  simp [exec, OfThreads, barrierStep, Barrier.goto, Barrier.read, Function.update,
    maxAllocNrThreads, twoThreads]
  constructor <;> funext i <;> obtain _ | _ | i := i <;> simp

theorem reach_phase (k : Nat) :
    Reach barrierStep (barrierInit (fun _ => 0) 2) OfThreads
      (twoThreads (UInt64.ofNat k) (UInt64.ofNat k) k k) := by
  induction k with
  | zero =>
      have hinit : twoThreads (UInt64.ofNat 0) (UInt64.ofNat 0) 0 0 =
          barrierInit (fun _ => 0) 2 := by
        simp [twoThreads, barrierInit]
      rw [hinit]
      exact .init
  | succ k ih =>
      rw [UInt64.ofNat_add]
      exact ih.exec (exec_phase _ k)

/-- In its `2 ^ 64`-th call a thread returns before the other one enters it. -/
theorem barrier_overflows :
    ¬ ∀ (ctr : Nat → UInt64) (n : Nat), n ≤ maxAllocNrThreads → ∀ s,
      Reach barrierStep (barrierInit ctr n) OfThreads s →
        ∀ t < n, (s.threads t).pc = .idle → ∀ j < n, (s.threads t).waits ≤ (s.threads j).waits := by
  intro h
  have hreach := (reach_phase 18446744073709551615).exec (exec_overflow 18446744073709551615)
  have hle := h (fun _ => 0) 2 (by decide) _ hreach 0 (by decide) rfl 1 (by decide)
  exact absurd hle (by decide)

end CloudProfiler
