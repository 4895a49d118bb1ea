import CloudProfiler.Nanos
import CloudProfiler.Rotation
import CloudProfiler.Run
import Mathlib.Tactic.Ring

/-!
# CloudProfiler.Emit.Schedule

The emission of the preloaded tuples (`mt_emitScheduler` of
`cpp_emit/emit.cpp`), one reading of the clock after the other.  In a window of
a millisecond the thread sends as many tuples as the rate per second gives
for it, polling the clock after each, and then polls the clock until the
window is over.

The rate per millisecond is a quotient of integers: what is left of the
division by 1000 is not sent.

* `EmitInv` — the position in the tuples, and the number that was sent;
* `rounds_of_onSchedule` — the number of windows on a clock that is read in
  time;
* `sent_eq_iff` — everything is sent when the rate is divisible.
-/

namespace CloudProfiler

/-- The fields of `sv_vars` that the thread reads. -/
structure EmitVars where
  perSecThroughput : Int64
  emitDur : Int64
  slag : Int64
  timeBudget : Int64

namespace EmitVars

/-- `POLL_ENQUEUE_OVERHEAD`. -/
def pollEnqueueOverhead : Int64 := 1900

/-- `MILLI_S_PER_S`. -/
def milliSPerS : UInt64 := 1000

variable (v : EmitVars)

def perMsThroughput : Int64 :=
  if v.perSecThroughput.toUInt64 > milliSPerS then
    (v.perSecThroughput.toUInt64 / milliSPerS).toInt64
  else v.perSecThroughput

def budgetPerEmission : Int64 := (nanoSPerS / v.perSecThroughput.toUInt64).toInt64

def residuePerEmission : Int64 := v.budgetPerEmission - (pollEnqueueOverhead + v.slag)

/-- `TS_RESIDUE`. -/
def tsResidue : Timespec := ⟨0, v.residuePerEmission, 0, 0, 0⟩

/-- `TS_BUDGET`. -/
def tsBudget : Timespec := ⟨0, v.timeBudget, 0, 0, 0⟩

end EmitVars

/-- At which reading of the clock the thread is. -/
inductive EmitPc
  /-- after emission `i` of the window -/
  | poll (i : Int32)
  /-- at the end of the window -/
  | sync
  | done
  deriving DecidableEq

structure EmitThread (τ : Type) where
  pc : EmitPc
  /-- `iter`, as a position in the vector. -/
  iter : Nat
  curTime : Timespec
  emitEnd : Timespec
  budgetEnd : Timespec
  tsEnd : Timespec
  sent : List τ
  deriving DecidableEq

section EmitThread

variable {τ : Type} (v : EmitVars) (vec : List τ)

/-- The loop of a window, from the test `i < per_ms_throughput` to the next
reading of the clock. -/
def EmitThread.emit (s : EmitThread τ) (i : Int32) : Option (EmitThread τ) :=
  if i.toInt64 < v.perMsThroughput then
    vec[s.iter]?.map fun str =>
      { s with
        pc := .poll i
        iter := Rotation.next vec.length s.iter
        emitEnd := addTS s.emitEnd s.curTime v.tsResidue
        sent := s.sent ++ [str] }
  else some { s with pc := .sync, budgetEnd := addTS s.budgetEnd s.budgetEnd v.tsBudget }

/-- From the barrier to the second reading of the clock; the first is `start`.
The thread exits when there is no budget for an emission; a throughput of zero
is a division by zero. -/
def mtEmitScheduler (start : Timespec) : Option (EmitThread τ) :=
  if v.perSecThroughput = 0 ∨
      v.budgetPerEmission < EmitVars.pollEnqueueOverhead + v.slag then none
  else
    let tsNull : Timespec := ⟨0, 0, 0, 0, 0⟩
    let s : EmitThread τ :=
      { pc := .sync
        iter := 0
        curTime := addTS tsNull start tsNull
        emitEnd := tsNull
        budgetEnd := addTS tsNull start tsNull
        tsEnd := ⟨start.tvSec + v.emitDur, start.tvNsec, 0, 0, 0⟩
        sent := [] }
    s.emit v vec 0

/-- A reading of the clock, and what follows up to the next one. -/
def emitStep (s : EmitThread τ) (now : Timespec) : Option (EmitThread τ) :=
  let s := { s with curTime := now }
  match s.pc with
  | .poll i => if compareTS now s.emitEnd < 0 then some s else s.emit v vec (i + 1)
  | .sync =>
      if compareTS now s.budgetEnd < 0 then some s
      else if compareTS now s.tsEnd ≥ 0 then some { s with pc := .done }
      else s.emit v vec 0
  | .done => none

/-- The reading ends a window. -/
def EmitThread.EndsWindow (s : EmitThread τ) (now : Timespec) : Prop :=
  s.pc = .sync ∧ ¬ compareTS now s.budgetEnd < 0

instance (s : EmitThread τ) (now : Timespec) : Decidable (s.EndsWindow now) :=
  inferInstanceAs (Decidable (_ ∧ _))

/-- The number of rounds of the outer loop. -/
def rounds (tr : List (EmitThread τ × Timespec)) : Nat := tr.countP fun p => p.1.EndsWindow p.2

end EmitThread

/-! ## what has been sent -/

/-- The number of emissions in the window so far. -/
def EmitPc.emissions (perMs : Nat) : EmitPc → Nat
  | .poll i => i.toInt.toNat + 1
  | .sync => perMs
  | .done => 0

/-- The counter of the loop, in a window that is not over. -/
def EmitPc.CounterOk (perMs : Nat) : EmitPc → Prop
  | .poll i => 0 ≤ i.toInt ∧ i.toInt < perMs
  | _ => True

/-- After `r` rounds: the tuples go round. -/
structure EmitInv {τ : Type} (vec : List τ) (perMs r : Nat) (s : EmitThread τ) : Prop where
  iter : s.iter = s.sent.length % vec.length
  sent : ∀ k < s.sent.length, s.sent[k]? = vec[k % vec.length]?
  counter : s.pc.CounterOk perMs
  count : s.sent.length = r * perMs + s.pc.emissions perMs

section Sent

variable {τ : Type} {v : EmitVars} {vec : List τ} {start now : Timespec} {s s' s₀ : EmitThread τ}
  {perMs r : Nat} {tr : List (EmitThread τ × Timespec)}

theorem rounds_concat :
    rounds (tr ++ [(s, now)]) = rounds tr + if s.EndsWindow now then 1 else 0 := by
  simp [rounds, List.countP_append, List.countP_singleton]

/-- What a reading of the clock leads to: polling goes on, the next emission,
the end, or the next window. -/
theorem emitStep_cases (h : emitStep v vec s now = some s') :
    (¬ s.EndsWindow now ∧ s' = { s with curTime := now }) ∨
      (∃ i, s.pc = .poll i ∧ ¬ s.EndsWindow now ∧
        { s with curTime := now }.emit v vec (i + 1) = some s') ∨
      s.EndsWindow now ∧
        (compareTS now s.tsEnd ≥ 0 ∧ s' = { s with curTime := now, pc := .done } ∨
          compareTS now s.tsEnd < 0 ∧ { s with curTime := now }.emit v vec 0 = some s') := by
  unfold emitStep at h
  dsimp only at h
  split at h
  · next i hpc =>
    have hnot : ¬ s.EndsWindow now := fun hends => by
      have hsync := hends.1
      rw [hpc] at hsync
      cases hsync
    split at h
    · exact .inl ⟨hnot, (Option.some.inj h).symm⟩
    · exact .inr (.inl ⟨i, hpc, hnot, h⟩)
  · next hpc =>
    split at h
    · next hlt => exact .inl ⟨fun hends => hends.2 hlt, (Option.some.inj h).symm⟩
    · next hge =>
      split at h
      · next hlast => exact .inr (.inr ⟨⟨hpc, hge⟩, .inl ⟨hlast, (Option.some.inj h).symm⟩⟩)
      · next hnext => exact .inr (.inr ⟨⟨hpc, hge⟩, .inr ⟨Int.not_le.mp hnext, h⟩⟩)
  · cases h

/-- A tuple is sent: the next one, and the first after the last. -/
theorem sent_concat {str : τ} (hiter : s.iter = s.sent.length % vec.length)
    (hsent : ∀ k < s.sent.length, s.sent[k]? = vec[k % vec.length]?)
    (hstr : vec[s.iter]? = some str) :
    ∀ k < (s.sent ++ [str]).length, (s.sent ++ [str])[k]? = vec[k % vec.length]? := by
  intro k hk
  rw [List.length_append, List.length_singleton] at hk
  obtain hlt | rfl := Nat.lt_succ_iff_lt_or_eq.mp hk
  · rw [List.getElem?_append_left hlt]
    exact hsent k hlt
  · rw [List.getElem?_concat_length, ← hiter, hstr]

/-- The loop of a window sends one more tuple, or the window has all of its
tuples. -/
theorem EmitThread.emit_inv {i : Int32} (hperMs : v.perMsThroughput.toInt = perMs)
    (hi : 0 ≤ i.toInt) (hle : i.toInt ≤ perMs) (hiter : s.iter = s.sent.length % vec.length)
    (hsent : ∀ k < s.sent.length, s.sent[k]? = vec[k % vec.length]?)
    (hcount : s.sent.length = r * perMs + i.toInt.toNat) (h : s.emit v vec i = some s') :
    EmitInv vec perMs r s' := by
  unfold EmitThread.emit at h
  split at h
  · next hlt =>
    rw [Int64.lt_iff_toInt_lt, Int32.toInt_toInt64, hperMs] at hlt
    obtain ⟨str, hstr, rfl⟩ := Option.map_eq_some_iff.mp h
    have hpos : 0 < vec.length := by
      obtain ⟨hbound, -⟩ := List.getElem?_eq_some_iff.mp hstr
      omega
    refine ⟨?_, sent_concat hiter hsent hstr, ⟨hi, hlt⟩, ?_⟩
    · simp only [List.length_append, List.length_singleton]
      rw [hiter, Rotation.next_mod hpos]
    · simp only [List.length_append, List.length_singleton, EmitPc.emissions]
      omega
  · next hge =>
    rw [Int64.lt_iff_toInt_lt, Int32.toInt_toInt64, hperMs] at hge
    obtain rfl := Option.some.inj h
    refine ⟨hiter, hsent, trivial, ?_⟩
    simp only [EmitPc.emissions]
    omega

/-- The thread starts with the first tuple of the first window. -/
theorem mtEmitScheduler_cases (h : mtEmitScheduler v vec start = some s₀) :
    ∃ s : EmitThread τ, s.emit v vec 0 = some s₀ ∧ s.iter = 0 ∧ s.sent = [] ∧
      s.budgetEnd = addTS ⟨0, 0, 0, 0, 0⟩ start ⟨0, 0, 0, 0, 0⟩ ∧
      s.tsEnd = ⟨start.tvSec + v.emitDur, start.tvNsec, 0, 0, 0⟩ := by
  unfold mtEmitScheduler at h
  split at h
  · cases h
  · exact ⟨_, h, rfl, rfl, rfl, rfl⟩

theorem mtEmitScheduler_inv (hperMs : v.perMsThroughput.toInt = perMs)
    (h : mtEmitScheduler v vec start = some s) : EmitInv vec perMs 0 s := by
  obtain ⟨s₁, hemit, hiter, hsent, -, -⟩ := mtEmitScheduler_cases h
  have hzero : (0 : Int32).toInt = 0 := rfl
  refine EmitThread.emit_inv hperMs (by omega) (by omega) ?_ ?_ ?_ hemit
  · rw [hiter, hsent, List.length_nil, Nat.zero_mod]
  · simp [hsent]
  · simp [hsent]

theorem EmitInv.step (hperMs : v.perMsThroughput.toInt = perMs) (hint : perMs < 2 ^ 31)
    (hs : EmitInv vec perMs r s) (h : emitStep v vec s now = some s') :
    EmitInv vec perMs (r + if s.EndsWindow now then 1 else 0) s' := by
  obtain ⟨hiter, hsent, hcounter, hcount⟩ := hs
  obtain ⟨hnot, rfl⟩ | ⟨i, hpc, hnot, hemit⟩ | ⟨hends, hcases⟩ := emitStep_cases h
  · rw [if_neg hnot]
    exact ⟨hiter, hsent, hcounter, hcount⟩
  · rw [if_neg hnot, Nat.add_zero]
    rw [hpc] at hcounter hcount
    obtain ⟨hi, hlt⟩ := hcounter
    have hnext : (i + 1).toInt = i.toInt + 1 := by
      rw [Int32.toInt_add, show (1 : Int32).toInt = 1 from rfl]
      exact Int.bmod_eq_of_le (by omega) (by omega)
    simp only [EmitPc.emissions] at hcount
    exact EmitThread.emit_inv (s := { s with curTime := now }) hperMs (by omega) (by omega) hiter
      hsent (by simp only; omega) hemit
  · have hsum : s.sent.length = (r + 1) * perMs := by
      rw [hends.1] at hcount
      rw [hcount, Nat.succ_mul]
      rfl
    rw [if_pos hends]
    obtain ⟨-, rfl⟩ | ⟨-, hemit⟩ := hcases
    · exact ⟨hiter, hsent, trivial, hsum⟩
    · have hzero : (0 : Int32).toInt = 0 := rfl
      exact EmitThread.emit_inv (s := { s with curTime := now }) hperMs (by omega) (by omega)
        hiter hsent (by simp only [hzero]; exact hsum) hemit

theorem emit_inv (hperMs : v.perMsThroughput.toInt = perMs) (hint : perMs < 2 ^ 31)
    (h₀ : mtEmitScheduler v vec start = some s₀) (h : Trace (emitStep v vec) s₀ anyStep tr s) :
    EmitInv vec perMs (rounds tr) s := by
  induction h with
  | init => exact mtEmitScheduler_inv hperMs h₀
  | step _ _ hstep ih =>
      rw [rounds_concat]
      exact ih.step hperMs hint hstep

/-- When the windows are too large for the counter of the loop, none ends. -/
theorem emit_of_large {i : Int32} (hlarge : 2 ^ 31 ≤ v.perMsThroughput.toInt)
    (h : s.emit v vec i = some s') : s'.pc = .poll i := by
  have hlt := i.toInt_lt
  unfold EmitThread.emit at h
  rw [if_pos (by rw [Int64.lt_iff_toInt_lt, Int32.toInt_toInt64]; omega)] at h
  obtain ⟨str, -, rfl⟩ := Option.map_eq_some_iff.mp h
  rfl

theorem pc_of_large (hlarge : 2 ^ 31 ≤ v.perMsThroughput.toInt)
    (h₀ : mtEmitScheduler v vec start = some s₀) (h : Trace (emitStep v vec) s₀ anyStep tr s) :
    ∃ i, s.pc = .poll i := by
  induction h with
  | init =>
      obtain ⟨s₁, hemit, -⟩ := mtEmitScheduler_cases h₀
      exact ⟨0, emit_of_large hlarge hemit⟩
  | step _ _ hstep ih =>
      obtain ⟨i, hpc⟩ := ih
      obtain ⟨-, rfl⟩ | ⟨j, -, -, hemit⟩ | ⟨hends, -⟩ := emitStep_cases hstep
      · exact ⟨i, hpc⟩
      · exact ⟨j + 1, emit_of_large hlarge hemit⟩
      · cases hpc.symm.trans hends.1

theorem toInt_perMsThroughput (h : 1000 < v.perSecThroughput.toInt) :
    v.perMsThroughput.toInt = v.perSecThroughput.toInt / 1000 := by
  have hlt := v.perSecThroughput.toInt_lt
  have hnat := toNat_toUInt64 v.perSecThroughput
  have hmilli : EmitVars.milliSPerS.toNat = 1000 := rfl
  have hgt : v.perSecThroughput.toUInt64 > EmitVars.milliSPerS := by
    rw [gt_iff_lt, UInt64.lt_iff_toNat_lt]
    omega
  have hquot : (v.perSecThroughput.toUInt64 / EmitVars.milliSPerS).toNat =
      v.perSecThroughput.toUInt64.toNat / 1000 := UInt64.toNat_div ..
  rw [EmitVars.perMsThroughput, if_pos hgt, toInt_toInt64 (by omega), hquot]
  omega

/-! ## windows on schedule -/

/-- Every window ends before the next one is over. -/
def OnSchedule (tr : List (EmitThread τ × Timespec)) : Prop :=
  ∀ p ∈ tr, p.2.Normal ∧ (p.1.EndsWindow p.2 → p.2.ns < p.1.budgetEnd.ns + 1000000)

/-- The windows whose end has been computed and not read. -/
def EmitPc.windows : EmitPc → Nat
  | .sync => 1
  | _ => 0

/-- Where the clock is after `r` rounds. -/
structure ScheduleInv (v : EmitVars) (start : Timespec) (r : Nat) (s : EmitThread τ) : Prop where
  normal : s.budgetEnd.Normal
  budgetEnd : s.budgetEnd.ns = start.ns + (r + s.pc.windows) * 1000000
  tsEnd : s.tsEnd = ⟨start.tvSec + v.emitDur, start.tvNsec, 0, 0, 0⟩
  running : s.pc ≠ .done → (r : Int) < 1000 * v.emitDur.toInt
  ended : s.pc = .done → (r : Int) = 1000 * v.emitDur.toInt

/-- The readings of the clock that are represented. -/
structure ClockFits (v : EmitVars) (start : Timespec) : Prop where
  budget : v.timeBudget = 1000000
  normal : start.Normal
  nonneg : 0 ≤ start.ns
  fits : start.ns + v.emitDur.toInt * 1000000000 < nsLimit

theorem ClockFits.tsEnd (hv : ClockFits v start) (hdur : 1 ≤ v.emitDur.toInt)
    (hend : s.tsEnd = ⟨start.tvSec + v.emitDur, start.tvNsec, 0, 0, 0⟩) :
    s.tsEnd.Normal ∧ s.tsEnd.ns = start.ns + v.emitDur.toInt * 1000000000 := by
  obtain ⟨-, ⟨hge, hlt⟩, hnonneg, hfits⟩ := hv
  rw [hend]
  refine ⟨⟨hge, hlt⟩, ?_⟩
  unfold nsLimit at hfits
  unfold Timespec.ns at hnonneg hfits ⊢
  simp only
  rw [Int64.toInt_add, Int.bmod_eq_of_le (by omega) (by omega)]
  omega

theorem EmitThread.emit_schedule {i : Int32} (hv : ClockFits v start)
    (hnormal : s.budgetEnd.Normal) (hbudget : s.budgetEnd.ns = start.ns + r * 1000000)
    (hend : s.tsEnd = ⟨start.tvSec + v.emitDur, start.tvNsec, 0, 0, 0⟩)
    (hr : (r : Int) < 1000 * v.emitDur.toInt) (h : s.emit v vec i = some s') :
    ScheduleInv v start r s' := by
  unfold EmitThread.emit at h
  split at h
  · obtain ⟨str, -, rfl⟩ := Option.map_eq_some_iff.mp h
    exact ⟨hnormal, by rw [hbudget]; simp [EmitPc.windows], hend, fun _ => hr, nofun⟩
  · obtain rfl := Option.some.inj h
    have hms : v.tsBudget = ⟨0, 1000000, 0, 0, 0⟩ := by rw [EmitVars.tsBudget, hv.budget]
    have hnormal' : v.tsBudget.Normal := by
      rw [hms]
      decide
    have hns : v.tsBudget.ns = 1000000 := by
      rw [hms]
      rfl
    have hfits := hv.fits
    refine ⟨normal_addTS hnormal hnormal', ?_, hend, fun _ => hr, nofun⟩
    rw [ns_addTS_of_lt hnormal hnormal' (by omega) (by omega), hbudget, hns]
    simp only [EmitPc.windows]
    omega

theorem ScheduleInv.step (hv : ClockFits v start) (hdur : 1 ≤ v.emitDur.toInt)
    (hs : ScheduleInv v start r s) (hnow : now.Normal)
    (hin : s.EndsWindow now → now.ns < s.budgetEnd.ns + 1000000)
    (h : emitStep v vec s now = some s') :
    ScheduleInv v start (r + if s.EndsWindow now then 1 else 0) s' := by
  obtain ⟨hnormal, hbudget, hend, hrunning, hended⟩ := hs
  obtain ⟨hendNormal, hendNs⟩ := hv.tsEnd hdur hend
  obtain ⟨hnot, rfl⟩ | ⟨i, hpc, hnot, hemit⟩ | ⟨hends, hcases⟩ := emitStep_cases h
  · rw [if_neg hnot]
    exact ⟨hnormal, hbudget, hend, hrunning, hended⟩
  · rw [if_neg hnot, Nat.add_zero]
    rw [hpc] at hbudget hrunning
    exact EmitThread.emit_schedule (s := { s with curTime := now }) hv hnormal
      (by simpa [EmitPc.windows] using hbudget) hend (hrunning nofun) hemit
  · have hearly := hin hends
    have hlate := hends.2
    rw [compareTS_neg_iff hnow hnormal] at hlate
    rw [hends.1] at hbudget hrunning
    simp only [EmitPc.windows] at hbudget
    have hrunning := hrunning nofun
    rw [if_pos hends]
    obtain ⟨hlast, rfl⟩ | ⟨hnext, hemit⟩ := hcases
    · -- the end was read in time: it is the end of this window
      rw [ge_iff_le, ← Int.not_lt, compareTS_neg_iff hnow hendNormal] at hlast
      exact ⟨hnormal, by simpa [EmitPc.windows] using hbudget, hend, fun hne => absurd rfl hne,
        fun _ => by omega⟩
    · rw [compareTS_neg_iff hnow hendNormal] at hnext
      exact EmitThread.emit_schedule (s := { s with curTime := now }) hv hnormal
        (by simpa using hbudget) hend (by omega) hemit

theorem addTS_null {t u : Timespec} (h : t.Normal) :
    (addTS u t ⟨0, 0, 0, 0, 0⟩).Normal ∧ (addTS u t ⟨0, 0, 0, 0, 0⟩).ns = t.ns := by
  have hnull : (⟨0, 0, 0, 0, 0⟩ : Timespec).Normal := by decide
  have hwraps := wraps_addTS (r := u) h hnull
  rw [show (⟨0, 0, 0, 0, 0⟩ : Timespec).ns = 0 from rfl, Int.add_zero] at hwraps
  exact ⟨hwraps.normal, hwraps.ns_eq_iff.mpr ⟨Timespec.le_ns h, Timespec.ns_lt h⟩⟩

/-- On schedule, the number of windows is the number of milliseconds. -/
theorem rounds_of_onSchedule (hv : ClockFits v start) (hdur : 1 ≤ v.emitDur.toInt)
    (h₀ : mtEmitScheduler v vec start = some s₀) (h : Trace (emitStep v vec) s₀ anyStep tr s)
    (hin : OnSchedule tr) (hdone : s.pc = .done) : (rounds tr : Int) = 1000 * v.emitDur.toInt := by
  have hinv : ScheduleInv v start (rounds tr) s := by
    clear hdone
    induction h with
    | init =>
        obtain ⟨s₁, hemit, -, -, hbudget, hend⟩ := mtEmitScheduler_cases h₀
        obtain ⟨hnormal, hns⟩ := addTS_null (u := ⟨0, 0, 0, 0, 0⟩) hv.normal
        rw [← hbudget] at hnormal hns
        refine EmitThread.emit_schedule hv hnormal ?_ hend ?_ hemit
        · simpa [rounds] using hns
        · simp only [rounds, List.countP_nil]
          omega
    | step ht _ hstep ih =>
        rw [rounds_concat]
        obtain ⟨hnow, hends⟩ := hin _ (List.mem_append_right _ (List.mem_singleton_self _))
        exact (ih fun p hp => hin p (List.mem_append_left _ hp)).step hv hdur hnow hends hstep
  exact hinv.ended hdone

end Sent

/-- **The emission** of the tuples for `emit_dur` seconds, in a window for each
millisecond: every tuple is sent, once and in order, exactly when the rate per
second is a multiple of 1000. -/
theorem sent_eq_iff {τ : Type} (v : EmitVars) (vec : List τ) (start : Timespec)
    (s₀ s : EmitThread τ) (tr : List (EmitThread τ × Timespec))
    (hp : 1000 < v.perSecThroughput.toInt) (hdur : 1 ≤ v.emitDur.toInt)
    (hlen : (vec.length : Int) = v.perSecThroughput.toInt * v.emitDur.toInt)
    (h₀ : mtEmitScheduler v vec start = some s₀) (h : Trace (emitStep v vec) s₀ anyStep tr s)
    (hdone : s.pc = .done) (hrounds : (rounds tr : Int) = 1000 * v.emitDur.toInt) :
    s.sent = vec ↔ 1000 ∣ v.perSecThroughput.toInt := by
  have hperMs : v.perMsThroughput.toInt = ((v.perSecThroughput.toInt / 1000).toNat : Nat) := by
    rw [toInt_perMsThroughput hp]
    omega
  by_cases hlarge : 2 ^ 31 ≤ v.perMsThroughput.toInt
  · obtain ⟨i, hpc⟩ := pc_of_large hlarge h₀ h
    rw [hpc] at hdone
    cases hdone
  have hinv := emit_inv hperMs (by omega) h₀ h
  have hcount : (s.sent.length : Int) =
      v.emitDur.toInt * (1000 * (v.perSecThroughput.toInt / 1000)) := by
    have hn := hinv.count
    rw [hdone] at hn
    simp only [EmitPc.emissions, Nat.add_zero] at hn
    rw [hn, Int.natCast_mul, hrounds, ← hperMs, toInt_perMsThroughput hp]
    ring
  constructor
  · intro hsent
    rw [hsent, hlen, mul_comm] at hcount
    exact ⟨_, mul_left_cancel₀ (by omega) hcount⟩
  · rintro hdvd
    have hlength : s.sent.length = vec.length := by
      rw [Int.mul_ediv_cancel' hdvd] at hcount
      have : (s.sent.length : Int) = vec.length := by rw [hcount, hlen, mul_comm]
      omega
    refine List.ext_getElem? fun k => ?_
    by_cases hk : k < s.sent.length
    · rw [hinv.sent k hk, Nat.mod_eq_of_lt (by omega)]
    · rw [List.getElem?_eq_none (by omega), List.getElem?_eq_none (by omega)]

/-! ## a clock that is read in time -/

/-- `m` emissions in a window, each with a wait of `w` nano-seconds, and less
than a millisecond in all. -/
structure Steady (v : EmitVars) (m w : Nat) : Prop where
  perMs : v.perMsThroughput = Int64.ofNat m
  pos : 1 ≤ m
  small : m < 2 ^ 31
  residue : v.tsResidue = ⟨0, Int64.ofNat w, 0, 0, 0⟩
  budget : v.tsBudget = ⟨0, 1000000, 0, 0, 0⟩
  fits : m * w < 1000000

namespace Steady

/-- The clock after `n` nano-seconds, in the first second. -/
def nanos (n : Nat) : Timespec := ⟨0, Int64.ofNat n, 0, 0, 0⟩

/-- The clock after `k` milliseconds. -/
def millis (k : Nat) : Timespec := if k < 1000 then nanos (k * 1000000) else ⟨1, 0, 0, 0, 0⟩

/-- In round `r`, after emission `i` of it; the tuples are the numbers below
`size`. -/
def emitting (m w size r i : Nat) : EmitThread Nat where
  pc := .poll (Int32.ofNat i)
  iter := (r * m + i + 1) % size
  curTime := nanos (r * 1000000 + i * w)
  emitEnd := nanos (r * 1000000 + (i + 1) * w)
  budgetEnd := millis r
  tsEnd := millis 1000
  sent := List.range (r * m + i + 1)

/-- At the end of the round. -/
def waiting (m w size r : Nat) : EmitThread Nat :=
  { emitting m w size r (m - 1) with
    pc := .sync
    curTime := nanos (r * 1000000 + m * w)
    budgetEnd := millis (r + 1) }

/-- At the end of the second. -/
def finished (m w size : Nat) : EmitThread Nat :=
  { waiting m w size 999 with pc := .done, curTime := millis 1000 }

variable {v : EmitVars} {m w size r i : Nat}

theorem toInt_ofNat {n : Nat} (h : n < 1000000000) : (Int64.ofNat n).toInt = n :=
  Int64.toInt_ofNat_of_lt (by omega)

theorem addTS_nanos {m n k : Nat} (h : m + n < 1000000000) :
    addTS (nanos k) (nanos m) (nanos n) = nanos (m + n) := by
  have hcarry : ¬ Int64.ofNat m + Int64.ofNat n ≥ nanoSPerS.toInt64 := by
    rw [← Int64.ofNat_add, ge_iff_le, Int64.le_iff_toInt_le, toInt_nanoSPerS, toInt_ofNat h]
    omega
  unfold addTS nanos
  dsimp only
  rw [if_neg hcarry, Int64.ofNat_add]
  rfl

theorem millis_of_lt {k : Nat} (h : k < 1000) : millis k = nanos (k * 1000000) := if_pos h

/-- The end of a window. -/
theorem addTS_millis (hr : r < 1000) :
    addTS (millis r) (millis r) (nanos 1000000) = millis (r + 1) := by
  obtain hlt | rfl := Nat.lt_succ_iff_lt_or_eq.mp hr
  · rw [millis_of_lt hr, millis_of_lt (by omega), addTS_nanos (by omega), Nat.add_one_mul]
  · decide

theorem compareTS_millis (hr : r < 1000) : compareTS (millis r) (millis 1000) < 0 := by
  have hnsec : (nanos (r * 1000000)).Normal ∧ (nanos (r * 1000000)).ns = r * 1000000 := by
    rw [Timespec.Normal, Timespec.ns, nanos, toInt_ofNat (by omega),
      show (0 : Int64).toInt = 0 from rfl]
    omega
  rw [millis_of_lt hr, compareTS_neg_iff hnsec.1 (by decide), hnsec.2,
    show (millis 1000).ns = 1000000000 by decide]
  omega

theorem not_compareTS_self (t : Timespec) : ¬ compareTS t t < 0 := by simp [compareTS]

theorem lt_perMs_iff (h : Steady v m w) (hi : i < 2 ^ 31) :
    (Int32.ofNat i).toInt64 < v.perMsThroughput ↔ i < m := by
  have hsmall := h.small
  rw [h.perMs, Int64.lt_iff_toInt_lt, Int32.toInt_toInt64, Int32.toInt_ofNat_of_lt (by omega),
    Int64.toInt_ofNat_of_lt (by omega)]
  omega

/-- The tuple of emission `i` of a round, and the one after it. -/
theorem next_tuple (hsize : 1000 * m ≤ size) (hr : r < 1000) (hi : i < m) :
    (List.range size)[(r * m + i) % size]? = some (r * m + i) ∧
      Rotation.next (List.range size).length ((r * m + i) % size) = (r * m + i + 1) % size := by
  have hround : (r + 1) * m ≤ 1000 * m := Nat.mul_le_mul_right m hr
  rw [Nat.succ_mul] at hround
  have hlt : r * m + i < size := by omega
  refine ⟨?_, ?_⟩
  · rw [Nat.mod_eq_of_lt hlt, List.getElem?_range hlt]
  · rw [List.length_range, Rotation.next_mod (by omega)]

theorem fits_wait (h : Steady v m w) (hi : i < m) : (i + 1) * w < 1000000 :=
  (Nat.mul_le_mul_right w hi).trans_lt h.fits

/-- Emission `i` of round `r`, when the clock reads its time. -/
theorem emit_eq (h : Steady v m w) (hsize : 1000 * m ≤ size) (hr : r < 1000) (hi : i < m)
    {s : EmitThread Nat} (hiter : s.iter = (r * m + i) % size)
    {k : Nat} (hcur : s.curTime = nanos (r * 1000000 + i * w)) (hend : s.emitEnd = nanos k)
    (hbudget : s.budgetEnd = millis r) (htsEnd : s.tsEnd = millis 1000)
    (hsent : s.sent = List.range (r * m + i)) :
    s.emit v (List.range size) (Int32.ofNat i) = some (emitting m w size r i) := by
  have hsmall := h.small
  obtain ⟨hstr, hnext⟩ := next_tuple hsize hr hi
  have hwait := h.fits_wait hi
  have hsum : r * 1000000 + i * w + w = r * 1000000 + (i + 1) * w := by
    rw [Nat.succ_mul, Nat.add_assoc]
  have hadd : addTS (nanos k) (nanos (r * 1000000 + i * w)) (nanos w) =
      nanos (r * 1000000 + (i + 1) * w) := by
    rw [addTS_nanos (by omega), hsum]
  unfold EmitThread.emit
  rw [if_pos ((h.lt_perMs_iff (by omega)).mpr hi), hiter, hstr, Option.map_some, hnext, hcur, hend,
    h.residue, ← nanos, hadd, hsent, ← List.range_succ]
  simp [emitting, hbudget, htsEnd]

theorem emitStep_poll {vec : List Nat} {s : EmitThread Nat} {j : Int32} {t : Timespec}
    (hpc : s.pc = .poll j) (hend : s.emitEnd = t) :
    emitStep v vec s t = EmitThread.emit v vec { s with curTime := t } (j + 1) := by
  have hlate : ¬ compareTS t s.emitEnd < 0 := hend ▸ not_compareTS_self t
  simp only [emitStep, hpc, if_neg hlate]

theorem emitStep_sync {vec : List Nat} {s : EmitThread Nat} {t : Timespec}
    (hpc : s.pc = .sync) (hend : s.budgetEnd = t) :
    emitStep v vec s t = if compareTS t s.tsEnd ≥ 0 then some { s with curTime := t, pc := .done }
      else EmitThread.emit v vec { s with curTime := t } 0 := by
  have hlate : ¬ compareTS t s.budgetEnd < 0 := hend ▸ not_compareTS_self t
  simp only [emitStep, hpc, if_neg hlate]

theorem emitStep_emitting (h : Steady v m w) (hsize : 1000 * m ≤ size) (hr : r < 1000)
    (hi : i + 1 < m) : emitStep v (List.range size) (emitting m w size r i)
      (nanos (r * 1000000 + (i + 1) * w)) = some (emitting m w size r (i + 1)) := by
  have hint : Int32.ofNat i + 1 = Int32.ofNat (i + 1) := (Int32.ofNat_add i 1).symm
  refine (emitStep_poll rfl rfl).trans ?_
  rw [hint]
  exact h.emit_eq hsize hr hi rfl rfl rfl rfl rfl rfl

theorem emitStep_last (h : Steady v m w) (hr : r < 1000) :
    emitStep v (List.range size) (emitting m w size r (m - 1)) (nanos (r * 1000000 + m * w)) =
      some (waiting m w size r) := by
  have hsmall := h.small
  have hpos := h.pos
  have hm : m - 1 + 1 = m := by omega
  have hint : Int32.ofNat (m - 1) + 1 = Int32.ofNat m := by
    rw [← hm, Nat.add_sub_cancel]
    exact (Int32.ofNat_add (m - 1) 1).symm
  have hend : (emitting m w size r (m - 1)).emitEnd = nanos (r * 1000000 + m * w) := by
    rw [emitting, hm]
  have hlast : ¬ (Int32.ofNat m).toInt64 < v.perMsThroughput := fun hlt =>
    absurd ((h.lt_perMs_iff h.small).mp hlt) (Nat.lt_irrefl m)
  have hbudget : addTS (millis r) (millis r) v.tsBudget = millis (r + 1) := by
    rw [h.budget]
    exact addTS_millis hr
  rw [emitStep_poll rfl hend, hint, EmitThread.emit, if_neg hlast]
  simp only [waiting, emitting, hbudget]

theorem emitStep_waiting (h : Steady v m w) (hsize : 1000 * m ≤ size) (hr : r < 999) :
    emitStep v (List.range size) (waiting m w size r) (millis (r + 1)) =
      some (emitting m w size (r + 1) 0) := by
  have hpos := h.pos
  have hcount : r * m + (m - 1) + 1 = (r + 1) * m := by
    rw [Nat.succ_mul]
    omega
  have hlt : r + 1 < 1000 := by omega
  have hend : ¬ compareTS (millis (r + 1)) (millis 1000) ≥ 0 :=
    Int.not_le.mpr (compareTS_millis (by omega))
  refine (emitStep_sync rfl rfl).trans ((if_neg hend).trans ?_)
  refine h.emit_eq (i := 0) hsize (by omega) h.pos ?_ ?_ rfl rfl rfl ?_
  · simp only [waiting, emitting, hcount, Nat.add_zero]
  · simp only [waiting, millis_of_lt hlt, Nat.zero_mul, Nat.add_zero]
  · simp only [waiting, emitting, hcount, Nat.add_zero]

theorem endsWindow_waiting : (waiting m w size r).EndsWindow (millis (r + 1)) :=
  ⟨rfl, not_compareTS_self _⟩

theorem not_endsWindow_emitting {t : Timespec} : ¬ (emitting m w size r i).EndsWindow t :=
  fun h => nomatch h.1

variable {tr : List (EmitThread Nat × Timespec)} {s₀ : EmitThread Nat}

/-- The emissions of a round, up to its end. -/
theorem trace_round (h : Steady v m w) (hsize : 1000 * m ≤ size) (hr : r < 1000)
    (ht : Trace (emitStep v (List.range size)) s₀ anyStep tr (emitting m w size r 0)) :
    ∃ tr', Trace (emitStep v (List.range size)) s₀ anyStep tr' (waiting m w size r) ∧
      rounds tr' = rounds tr := by
  have hemissions : ∀ i < m,
      ∃ tr', Trace (emitStep v (List.range size)) s₀ anyStep tr' (emitting m w size r i) ∧
        rounds tr' = rounds tr := by
    intro i hi
    induction i with
    | zero => exact ⟨tr, ht, rfl⟩
    | succ i ih =>
        obtain ⟨tr', ht', hrounds⟩ := ih (by omega)
        refine ⟨_, ht'.step trivial (h.emitStep_emitting hsize hr hi), ?_⟩
        rw [rounds_concat, hrounds, if_neg not_endsWindow_emitting]
        rfl
  have hpos := h.pos
  obtain ⟨tr', ht', hrounds⟩ := hemissions (m - 1) (by omega)
  refine ⟨_, ht'.step trivial (h.emitStep_last hr), ?_⟩
  rw [rounds_concat, hrounds, if_neg not_endsWindow_emitting]
  rfl

/-- The rounds of the second. -/
theorem trace_waiting (h : Steady v m w) (hsize : 1000 * m ≤ size) (hr : r < 1000) :
    ∃ tr, Trace (emitStep v (List.range size)) (emitting m w size 0 0) anyStep tr
      (waiting m w size r) ∧ rounds tr = r := by
  induction r with
  | zero => exact h.trace_round hsize hr .init
  | succ r ih =>
      obtain ⟨tr, ht, hrounds⟩ := ih (by omega)
      have hnext := ht.step trivial (h.emitStep_waiting hsize (by omega))
      obtain ⟨tr', ht', hrounds'⟩ := h.trace_round hsize hr hnext
      exact ⟨tr', ht', by rw [hrounds', rounds_concat, hrounds, if_pos endsWindow_waiting]⟩

/-- After a thousand rounds the second is over. -/
theorem trace_done (h : Steady v m w) (hsize : 1000 * m ≤ size) :
    ∃ tr, Trace (emitStep v (List.range size)) (emitting m w size 0 0) anyStep tr
      (finished m w size) ∧ rounds tr = 1000 := by
  obtain ⟨tr, ht, hrounds⟩ := h.trace_waiting hsize (r := 999) (by decide)
  have hlast : emitStep v (List.range size) (waiting m w size 999) (millis 1000) =
      some (finished m w size) := by
    have hend : compareTS (millis 1000) (millis 1000) ≥ 0 := by decide
    exact (emitStep_sync rfl rfl).trans (if_pos hend)
  refine ⟨_, ht.step trivial hlast, ?_⟩
  rw [rounds_concat, hrounds, if_pos (endsWindow_waiting (r := 999))]

theorem sent_finished (h : 1 ≤ m) : (finished m w size).sent = List.range (1000 * m) := by
  have hcount : 999 * m + (m - 1) + 1 = 1000 * m := by omega
  rw [finished, waiting, emitting, hcount]

end Steady

/-! ## the rates 1500 and 2000 -/

/-- A rate for one second, without slag. -/
def varsAt (rate : Int64) : EmitVars := ⟨rate, 1, 0, 1000000⟩

theorem steady_1500 : Steady (varsAt 1500) 1 664766 where
  perMs := by decide
  pos := by decide
  small := by decide
  residue := by decide
  budget := by decide
  fits := by decide

theorem steady_2000 : Steady (varsAt 2000) 2 498100 where
  perMs := by decide
  pos := by decide
  small := by decide
  residue := by decide
  budget := by decide
  fits := by decide

theorem mtEmitScheduler_1500 : mtEmitScheduler (varsAt 1500) (List.range 1500) (Steady.millis 0) =
    some (Steady.emitting 1 664766 1500 0 0) := by decide +kernel

theorem mtEmitScheduler_2000 : mtEmitScheduler (varsAt 2000) (List.range 2000) (Steady.millis 0) =
    some (Steady.emitting 2 498100 2000 0 0) := by decide +kernel

/-- At a rate of 1500 not all is sent, at one of 2000 all is. -/
theorem sent_eq_iff_two_rates :
    (∃ s, (∃ tr, Trace (emitStep (varsAt 1500) (List.range 1500))
        (Steady.emitting 1 664766 1500 0 0) anyStep tr s) ∧
      (s.sent = List.range 1500 ↔ 1000 ∣ (varsAt 1500).perSecThroughput.toInt)) ∧
    ∃ s, (∃ tr, Trace (emitStep (varsAt 2000) (List.range 2000))
        (Steady.emitting 2 498100 2000 0 0) anyStep tr s) ∧ s.sent = List.range 2000 := by
  obtain ⟨tr, ht, hrounds⟩ := steady_1500.trace_done (show 1000 * 1 ≤ 1500 by decide)
  obtain ⟨tr', ht', hrounds'⟩ := steady_2000.trace_done (show 1000 * 2 ≤ 2000 by decide)
  refine ⟨⟨_, ⟨tr, ht⟩, ?_⟩, _, ⟨tr', ht'⟩, ?_⟩
  · exact sent_eq_iff (varsAt 1500) _ _ _ _ tr (by decide) (by decide)
      (by rw [List.length_range]; decide) mtEmitScheduler_1500 ht rfl (by rw [hrounds]; decide)
  · exact (sent_eq_iff (varsAt 2000) _ _ _ _ tr' (by decide) (by decide)
      (by rw [List.length_range]; decide) mtEmitScheduler_2000 ht' rfl
      (by rw [hrounds']; decide)).mpr (by decide)

/-- At a rate of 1500 a third of the tuples is not sent. -/
theorem sent_rate1500 :
    ∃ tr s₀ s, mtEmitScheduler (varsAt 1500) (List.range 1500) (Steady.millis 0) = some s₀ ∧
      Trace (emitStep (varsAt 1500) (List.range 1500)) s₀ anyStep tr s ∧ s.pc = .done ∧
      (rounds tr : Int) = 1000 * (varsAt 1500).emitDur.toInt ∧
      ((List.range 1500).length : Int) =
        (varsAt 1500).perSecThroughput.toInt * (varsAt 1500).emitDur.toInt ∧
      s.sent.length = 1000 ∧ s.sent ≠ List.range 1500 := by
  obtain ⟨tr, ht, hrounds⟩ := steady_1500.trace_done (show 1000 * 1 ≤ 1500 by decide)
  have hlength : (Steady.finished 1 664766 1500).sent.length = 1000 := by
    rw [Steady.sent_finished (by decide), List.length_range]
  refine ⟨tr, _, _, mtEmitScheduler_1500, ht, rfl, by rw [hrounds]; decide,
    by rw [List.length_range]; decide, hlength, fun heq => ?_⟩
  rw [heq, List.length_range] at hlength
  exact absurd hlength (by decide)

end CloudProfiler
