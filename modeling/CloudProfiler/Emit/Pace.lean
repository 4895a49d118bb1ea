import CloudProfiler.Emit.Schedule
import CloudProfiler.Spacing

/-!
# CloudProfiler.Emit.Pace

How fast the tuples are sent (`mt_emitScheduler` with its poison pills, and
`mt_selfFeeder`, of `cpp_emit/emit.cpp`), on any clock that does not go back.

The three loops are one: windows of a fixed length, a number of emissions for
each window, and a time to wait after each emission.  A thread that is late
runs its windows one after the other without waiting, and still does not get
ahead of them.

* `paceStep` — the loop, and `emitStep_eq` — that of the tuples is one;
* `PaceInv` — windows and emissions against the time that has passed;
* `PaceInv.emits` — the time between two emissions;
* `sender_paced`, `feeder_paced` — the threads keep the pace.
-/

namespace CloudProfiler

/-! ## the loop -/

/-- What sets the pace: `per_ms_throughput`, `residue_per_emission` and
`time_budget`. -/
structure Pace where
  perMs : Int64
  residue : Int64
  budget : Int64

section Loop

variable {τ : Type} (p : Pace) (vec : List τ)

/-- The loop of a window, up to the next reading of the clock. -/
def EmitThread.feed (s : EmitThread τ) (i : Int32) : Option (EmitThread τ) :=
  if i.toInt64 < p.perMs then
    vec[s.iter]?.map fun str =>
      { s with
        pc := .poll i
        iter := Rotation.next vec.length s.iter
        emitEnd := addTS s.emitEnd s.curTime ⟨0, p.residue, 0, 0, 0⟩
        sent := s.sent ++ [str] }
  else some { s with pc := .sync, budgetEnd := addTS s.budgetEnd s.budgetEnd ⟨0, p.budget, 0, 0, 0⟩ }

/-- The beginning, for `dur` seconds; the clock reads `start`. -/
def paceStart (dur : Int64) (start : Timespec) : Option (EmitThread τ) :=
  let tsNull : Timespec := ⟨0, 0, 0, 0, 0⟩
  let s : EmitThread τ :=
    { pc := .sync
      iter := 0
      curTime := addTS tsNull start tsNull
      emitEnd := tsNull
      budgetEnd := addTS tsNull start tsNull
      tsEnd := ⟨start.tvSec + dur, start.tvNsec, 0, 0, 0⟩
      sent := [] }
  s.feed p vec 0

/-- A reading of the clock, and what follows up to the next one. -/
def paceStep (s : EmitThread τ) (now : Timespec) : Option (EmitThread τ) :=
  let s := { s with curTime := now }
  match s.pc with
  | .poll i => if compareTS now s.emitEnd < 0 then some s else s.feed p vec (i + 1)
  | .sync =>
      if compareTS now s.budgetEnd < 0 then some s
      else if compareTS now s.tsEnd ≥ 0 then some { s with pc := .done }
      else s.feed p vec 0
  | .done => none

end Loop

namespace EmitVars

variable (v : EmitVars)

/-- The pace of `mt_emitScheduler`. -/
def pace : Pace := ⟨v.perMsThroughput, v.residuePerEmission, v.timeBudget⟩

/-- The pace of `mt_selfFeeder`: the overhead is zero, and a rate per second is
never taken for one per millisecond. -/
def selfPace : Pace where
  perMs := (v.perSecThroughput.toUInt64 / milliSPerS).toInt64
  residue := v.budgetPerEmission - (0 + v.slag)
  budget := v.timeBudget

end EmitVars

section Threads

variable {τ : Type} (v : EmitVars) (vec : List τ)

/-- `mt_selfFeeder` up to its second reading of the clock.  What it sends is
always the same `sample`. -/
def mtSelfFeeder (sample : τ) (start : Timespec) : Option (EmitThread τ) :=
  if v.perSecThroughput = 0 ∨ v.budgetPerEmission < 0 + v.slag then none
  else paceStart v.selfPace [sample] v.emitDur start

/-- `mt_emitScheduler`, and its loop over the pills once it is there. -/
structure Sender (τ : Type) where
  tuples : EmitThread τ
  pills : Option (EmitThread τ)

/-- A reading of the clock by `mt_emitScheduler`. -/
def senderStep (pills : List τ) (pillDur : Int64) (s : Sender τ) (now : Timespec) :
    Option (Sender τ) :=
  match s.pills with
  | some t => (paceStep v.pace pills t now).map fun t => { s with pills := some t }
  | none =>
      if s.tuples.pc = .done then
        if pillDur > 0 then
          (paceStart v.pace pills pillDur now).map fun t => { s with pills := some t }
        else none
      else (emitStep v vec s.tuples now).map fun t => { s with tuples := t }

end Threads

/-- The loop over the tuples is this one. -/
theorem emitStep_eq {τ : Type} (v : EmitVars) (vec : List τ) :
    emitStep v vec = paceStep v.pace vec := rfl

theorem mtEmitScheduler_eq {τ : Type} (v : EmitVars) (vec : List τ) (start : Timespec) :
    mtEmitScheduler v vec start =
      if v.perSecThroughput = 0 ∨
          v.budgetPerEmission < EmitVars.pollEnqueueOverhead + v.slag then none
      else paceStart v.pace vec v.emitDur start := rfl

/-! ## the invariant -/

/-- A pace that can be kept: windows of a millisecond, emissions that an `int`
counts, and a wait of less than a second after each. -/
structure Pace.Fits (p : Pace) : Prop where
  perMs : 0 ≤ p.perMs.toInt ∧ p.perMs.toInt < 2 ^ 31
  residue : 0 ≤ p.residue.toInt ∧ (0 < p.perMs.toInt → p.residue.toInt < 1000000000)
  budget : p.budget = 1000000

/-- A reading of a clock that is far from the end of its range. -/
structure Timespec.InRange (t : Timespec) : Prop where
  normal : t.Normal
  lt : t.tvSec.toInt < 2 ^ 62

/-- The clock does not go back. -/
structure Later (t now : Timespec) : Prop where
  inRange : now.InRange
  le : t.ns ≤ now.ns

instance (t now : Timespec) : Decidable (Later t now) :=
  decidable_of_iff ((now.Normal ∧ now.tvSec.toInt < 2 ^ 62) ∧ t.ns ≤ now.ns)
    ⟨fun h => ⟨⟨h.1.1, h.1.2⟩, h.2⟩, fun h => ⟨⟨h.inRange.normal, h.inRange.lt⟩, h.le⟩⟩

/-- After `r` rounds of a loop that was begun at `start` and is to end at
`stop`. -/
structure PaceInv {τ : Type} (p : Pace) (vec : List τ) (start : Int) (stop : Timespec) (r : Nat)
    (s : EmitThread τ) : Prop where
  emit : EmitInv vec p.perMs.toInt.toNat r s
  curTime : s.curTime.InRange
  budgetEnd : s.budgetEnd.Normal ∧ s.budgetEnd.ns = start + (r + s.pc.windows) * 1000000
  passed : start + r * 1000000 ≤ s.curTime.ns
  emitEnd : ∀ i, s.pc = .poll i → s.emitEnd.Normal
  tsEnd : s.tsEnd = stop
  ended : s.pc = .done → stop.ns ≤ s.curTime.ns

/-- At the head of the loop of a window, after `i` emissions. -/
structure AtHead {τ : Type} (p : Pace) (vec : List τ) (start : Int) (stop : Timespec) (r i : Nat)
    (s : EmitThread τ) : Prop where
  iter : s.iter = s.sent.length % vec.length
  sent : ∀ k < s.sent.length, s.sent[k]? = vec[k % vec.length]?
  count : s.sent.length = r * p.perMs.toInt.toNat + i
  curTime : s.curTime.InRange
  budgetEnd : s.budgetEnd.Normal ∧ s.budgetEnd.ns = start + r * 1000000
  passed : start + r * 1000000 ≤ s.curTime.ns
  tsEnd : s.tsEnd = stop

section Pace

variable {τ : Type} {p : Pace} {vec : List τ} {start : Int} {stop now : Timespec} {r : Nat}
  {s s' : EmitThread τ}

/-- The loop of a window: the next emission, or its end. -/
theorem AtHead.feed {i : Int32} (hp : p.Fits) (hs : AtHead p vec start stop r i.toInt.toNat s)
    (hi : 0 ≤ i.toInt) (hle : i.toInt ≤ p.perMs.toInt) (h : s.feed p vec i = some s') :
    PaceInv p vec start stop r s' := by
  obtain ⟨hperMs, -⟩ := hp.perMs
  obtain ⟨hresidue, hsecond⟩ := hp.residue
  obtain ⟨hnormal, hlt⟩ := hs.curTime
  have hcount := hs.count
  unfold EmitThread.feed at h
  split at h
  · next hmore =>
    rw [Int64.lt_iff_toInt_lt, Int32.toInt_toInt64] at hmore
    obtain ⟨str, hstr, rfl⟩ := Option.map_eq_some_iff.mp h
    have hsecond := hsecond (by omega)
    have hpos : 0 < vec.length := by
      obtain ⟨hbound, -⟩ := List.getElem?_eq_some_iff.mp hstr
      omega
    have hwait : (⟨0, p.residue, 0, 0, 0⟩ : Timespec).Normal := ⟨hresidue, hsecond⟩
    refine ⟨⟨?_, sent_concat hs.iter hs.sent hstr, ⟨hi, by omega⟩, ?_⟩, ⟨hnormal, hlt⟩, ?_,
      hs.passed, fun _ _ => normal_addTS hnormal hwait, hs.tsEnd, fun h => by cases h⟩
    · simp only [List.length_append, List.length_singleton]
      rw [hs.iter, Rotation.next_mod hpos]
    · simp only [List.length_append, List.length_singleton, EmitPc.emissions]
      omega
    · simpa [EmitPc.windows] using hs.budgetEnd
  · next hdone =>
    rw [Int64.lt_iff_toInt_lt, Int32.toInt_toInt64] at hdone
    obtain rfl := Option.some.inj h
    obtain ⟨hbudget, hbudgetNs⟩ := hs.budgetEnd
    have hms : (⟨0, p.budget, 0, 0, 0⟩ : Timespec).Normal ∧
        (⟨0, p.budget, 0, 0, 0⟩ : Timespec).ns = 1000000 := by
      rw [hp.budget]
      decide
    have hlimit : s.budgetEnd.ns + 1000000 < nsLimit := by
      have hpassed := hs.passed
      have hnsec := hnormal.2
      rw [hbudgetNs]
      unfold Timespec.ns at hpassed
      unfold nsLimit
      omega
    refine ⟨⟨hs.iter, hs.sent, trivial, ?_⟩, ⟨hnormal, hlt⟩, ⟨?_, ?_⟩, hs.passed,
      fun _ h => (by cases h), hs.tsEnd, fun h => by cases h⟩
    · simp only [EmitPc.emissions]
      omega
    · exact normal_addTS hbudget hms.1
    · have hend := ns_addTS_of_lt (r := s.budgetEnd) hbudget hms.1 (by omega) (by omega)
      simp only [hend, hms.2, hbudgetNs, EmitPc.windows]
      omega

/-- A reading of the clock keeps the pace. -/
theorem PaceInv.step (hp : p.Fits) (hstop : stop.Normal) (hs : PaceInv p vec start stop r s)
    (hnow : Later s.curTime now) (h : paceStep p vec s now = some s') :
    ∃ r, PaceInv p vec start stop r s' := by
  obtain ⟨⟨hiter, hsent, hcounter, hcount⟩, -, ⟨hbudget, hbudgetNs⟩, hpassed, hemitEnd, hend,
    hended⟩ := hs
  obtain ⟨hin, hle⟩ := hnow
  obtain ⟨hperMs, hint⟩ := hp.perMs
  unfold paceStep at h
  dsimp only at h
  split at h
  · next i hpc =>
    split at h
    · -- polling goes on
      obtain rfl := Option.some.inj h
      exact ⟨r, ⟨hiter, hsent, hcounter, hcount⟩, hin, ⟨hbudget, hbudgetNs⟩, hpassed.trans hle,
        hemitEnd, hend, fun h => (hended h).trans hle⟩
    · rw [hpc] at hcounter hcount hbudgetNs
      obtain ⟨hi, hlt⟩ := hcounter
      have hnext : (i + 1).toInt = i.toInt + 1 := by
        rw [Int32.toInt_add, show (1 : Int32).toInt = 1 from rfl]
        exact Int.bmod_eq_of_le (by omega) (by omega)
      simp only [EmitPc.emissions] at hcount
      exact ⟨r, AtHead.feed (s := { s with curTime := now }) hp ⟨hiter, hsent,
        by dsimp only; omega, hin, ⟨hbudget, by simpa [EmitPc.windows] using hbudgetNs⟩,
        hpassed.trans hle, hend⟩ (by omega) (by omega) h⟩
  · next hpc =>
    rw [hpc] at hcount hbudgetNs
    simp only [EmitPc.emissions] at hcount
    simp only [EmitPc.windows] at hbudgetNs
    split at h
    · obtain rfl := Option.some.inj h
      refine ⟨r, ⟨hiter, hsent, hcounter, ?_⟩, hin, ⟨hbudget, ?_⟩, hpassed.trans hle, hemitEnd,
        hend, fun h => (hended h).trans hle⟩
      · simpa only [hpc, EmitPc.emissions] using hcount
      · simpa only [hpc, EmitPc.windows] using hbudgetNs
    · -- the window is over
      next hlate =>
      rw [compareTS_neg_iff hin.normal hbudget, not_lt, hbudgetNs] at hlate
      have hsum : s.sent.length = (r + 1) * p.perMs.toInt.toNat := by rw [hcount, Nat.succ_mul]
      have hbudgetNs' : s.budgetEnd.ns = start + ((r + 1 : Nat) : Int) * 1000000 := by
        rw [hbudgetNs]
        push_cast
        rfl
      have hpassed' : start + ((r + 1 : Nat) : Int) * 1000000 ≤ now.ns := by omega
      split at h
      · next hlast =>
        obtain rfl := Option.some.inj h
        rw [hend, ge_iff_le, ← Int.not_lt, compareTS_neg_iff hin.normal hstop, not_lt] at hlast
        exact ⟨r + 1, ⟨hiter, hsent, trivial, hsum⟩, hin,
          ⟨hbudget, by simpa [EmitPc.windows] using hbudgetNs'⟩, hpassed', fun _ h => (by cases h),
          hend, fun _ => hlast⟩
      · have hzero : (0 : Int32).toInt = 0 := rfl
        exact ⟨r + 1, AtHead.feed (s := { s with curTime := now }) (i := 0) hp ⟨hiter, hsent, hsum,
          hin, ⟨hbudget, hbudgetNs'⟩, hpassed', hend⟩ (by omega) (by omega) h⟩
  · cases h

theorem Timespec.InRange.of_ns {t u : Timespec} (h : t.InRange) (hu : u.Normal)
    (hns : u.ns = t.ns) : u.InRange := by
  refine ⟨hu, ?_⟩
  have hlt := h.lt
  have hnsec := h.normal
  unfold Timespec.Normal at hu hnsec
  unfold Timespec.ns at hns
  omega

theorem paceStart_eq {start : Timespec} {dur : Int64} (h : paceStart p vec dur start = some s) :
    ∃ s₁ : EmitThread τ, s₁.feed p vec 0 = some s ∧ s₁.iter = 0 ∧ s₁.sent = [] ∧
      s₁.curTime = addTS ⟨0, 0, 0, 0, 0⟩ start ⟨0, 0, 0, 0, 0⟩ ∧ s₁.budgetEnd = s₁.curTime ∧
      s₁.tsEnd = ⟨start.tvSec + dur, start.tvNsec, 0, 0, 0⟩ :=
  ⟨_, h, rfl, rfl, rfl, rfl, rfl⟩

/-- The loop begins. -/
theorem paceInv_start {start : Timespec} {dur : Int64} (hp : p.Fits) (hstart : start.InRange)
    (h : paceStart p vec dur start = some s) :
    PaceInv p vec start.ns ⟨start.tvSec + dur, start.tvNsec, 0, 0, 0⟩ 0 s := by
  obtain ⟨s₁, hfeed, hiter, hsent, hcur, hbudget, hend⟩ := paceStart_eq h
  obtain ⟨hnormal, hns⟩ := addTS_null (u := ⟨0, 0, 0, 0, 0⟩) hstart.normal
  rw [← hcur] at hnormal hns
  have hin : s₁.curTime.InRange := hstart.of_ns hnormal hns
  have hzero : (0 : Int32).toInt = 0 := rfl
  refine AtHead.feed (i := 0) hp ⟨by simp [hiter, hsent], by simp [hsent], by simp [hsent, hzero],
    hin, ⟨hbudget ▸ hnormal, ?_⟩, ?_, hend⟩ (by omega) (by rw [hzero]; exact hp.perMs.1) hfeed
  · rw [hbudget, hns]
    simp
  · rw [hns]
    simp

/-- As many emissions in the time from `start` to `now` as the windows allow;
one of them is not over. -/
theorem PaceInv.windows (hp : p.Fits) (hs : PaceInv p vec start stop r s) :
    (s.sent.length : Int) ≤ ((s.curTime.ns - start) / 1000000 + 1) * p.perMs.toInt := by
  have hperMs := hp.perMs.1
  have hcount := hs.emit.count
  have hemissions : s.pc.emissions p.perMs.toInt.toNat ≤ p.perMs.toInt.toNat := by
    have hcounter := hs.emit.counter
    cases hpc : s.pc with
    | poll i =>
        rw [hpc] at hcounter
        obtain ⟨hi, hlt⟩ := hcounter
        simp only [EmitPc.emissions]
        omega
    | sync => exact le_rfl
    | done => exact Nat.zero_le _
  have hr : (r : Int) ≤ (s.curTime.ns - start) / 1000000 := by
    have hpassed := hs.passed
    omega
  calc (s.sent.length : Int) ≤ ((r + 1) * p.perMs.toInt.toNat : Nat) := by
        rw [hcount, Nat.succ_mul]
        omega
    _ = (r + 1) * p.perMs.toInt := by
        push_cast
        rw [Int.toNat_of_nonneg hperMs]
    _ ≤ ((s.curTime.ns - start) / 1000000 + 1) * p.perMs.toInt :=
        Int.mul_le_mul_of_nonneg_right (by omega) hperMs

/-- Two loops, one after the other. -/
theorem windows_add {t₁ t₂ now : Int} {m n : Nat} (hp : p.Fits)
    (hm : (m : Int) ≤ ((t₁ - start) / 1000000 + 1) * p.perMs.toInt)
    (hn : (n : Int) ≤ ((now - t₂) / 1000000 + 1) * p.perMs.toInt) (ht : t₁ ≤ t₂) :
    ((m + n : Nat) : Int) ≤ ((now - start) / 1000000 + 2) * p.perMs.toInt := by
  have hquot : (t₁ - start) / 1000000 + 1 + ((now - t₂) / 1000000 + 1) ≤
      (now - start) / 1000000 + 2 := by omega
  have hmul := Int.mul_le_mul_of_nonneg_right hquot hp.perMs.1
  rw [add_mul] at hmul
  omega

end Pace

/-! ## the time between two emissions -/

/-- Up to when the thread waits. -/
def EmitThread.waits {τ : Type} (s : EmitThread τ) : Int :=
  match s.pc with
  | .poll _ => s.emitEnd.ns
  | _ => s.curTime.ns

section Spacing

variable {τ : Type} {p : Pace} {vec : List τ} {start next : Int} {stop now : Timespec} {r : Nat}
  {s s' : EmitThread τ}

/-- The wait after an emission begins at the last reading of the clock. -/
theorem EmitThread.feed_emits {i : Int32} (hp : p.Fits) (hcur : s.curTime.InRange)
    (hi : 0 ≤ i.toInt) (hnext : next ≤ s.curTime.ns) (h : s.feed p vec i = some s') :
    s'.curTime = s.curTime ∧
      Emits p.residue.toInt s.sent s'.sent s.curTime.ns next s'.waits := by
  obtain ⟨hresidue, hsecond⟩ := hp.residue
  unfold EmitThread.feed at h
  split at h
  · next hmore =>
    rw [Int64.lt_iff_toInt_lt, Int32.toInt_toInt64] at hmore
    obtain ⟨str, -, rfl⟩ := Option.map_eq_some_iff.mp h
    have hwait : (⟨0, p.residue, 0, 0, 0⟩ : Timespec).Normal := ⟨hresidue, hsecond (by omega)⟩
    have hwaitNs : (⟨0, p.residue, 0, 0, 0⟩ : Timespec).ns = p.residue.toInt := by
      simp [Timespec.ns]
    refine ⟨rfl, .inr ⟨str, rfl, hnext, ?_⟩⟩
    show (addTS s.emitEnd s.curTime ⟨0, p.residue, 0, 0, 0⟩).ns = _
    rw [← hwaitNs]
    refine ns_addTS_of_lt hcur.normal hwait (by omega) ?_
    have hsec := hcur.lt
    have hnsec := hcur.normal.2
    have hlt := hwait.2
    rw [hwaitNs]
    unfold Timespec.ns nsLimit
    dsimp only at hlt
    omega
  · obtain rfl := Option.some.inj h
    exact ⟨rfl, .inl ⟨rfl, hnext⟩⟩

/-- **The next emission waits for its time**, whatever the clock reads. -/
theorem PaceInv.emits (hp : p.Fits) (hs : PaceInv p vec start stop r s)
    (hnow : Later s.curTime now) (h : paceStep p vec s now = some s') :
    s'.curTime = now ∧ Emits p.residue.toInt s.sent s'.sent now.ns s.waits s'.waits := by
  obtain ⟨hin, hle⟩ := hnow
  obtain ⟨hperMs, hint⟩ := hp.perMs
  have hzero : (0 : Int32).toInt = 0 := rfl
  unfold paceStep at h
  dsimp only at h
  split at h
  · next i hpc =>
    have hwaits : s.waits = s.emitEnd.ns := by rw [EmitThread.waits, hpc]
    rw [hwaits]
    split at h
    · -- polling goes on
      obtain rfl := Option.some.inj h
      exact ⟨rfl, .inl ⟨rfl, by simp [EmitThread.waits, hpc]⟩⟩
    · next hlate =>
      rw [compareTS_neg_iff hin.normal (hs.emitEnd i hpc), not_lt] at hlate
      have hcounter := hs.emit.counter
      rw [hpc] at hcounter
      obtain ⟨hi, hlt⟩ := hcounter
      have hnext : (i + 1).toInt = i.toInt + 1 := by
        rw [Int32.toInt_add, show (1 : Int32).toInt = 1 from rfl]
        exact Int.bmod_eq_of_le (by omega) (by omega)
      exact EmitThread.feed_emits (s := { s with curTime := now }) hp hin (by omega) hlate h
  · next hpc =>
    have hwaits : s.waits = s.curTime.ns := by rw [EmitThread.waits, hpc]
    rw [hwaits]
    split at h
    · obtain rfl := Option.some.inj h
      exact ⟨rfl, .inl ⟨rfl, by simpa [EmitThread.waits, hpc] using hle⟩⟩
    · split at h
      · obtain rfl := Option.some.inj h
        exact ⟨rfl, .inl ⟨rfl, hle⟩⟩
      · exact EmitThread.feed_emits (s := { s with curTime := now }) hp hin (by omega) hle h
  · cases h

theorem paceStart_emits {start : Timespec} {dur : Int64} (hp : p.Fits) (hstart : start.InRange)
    (hnext : next ≤ start.ns) (h : paceStart p vec dur start = some s) :
    s.curTime.ns = start.ns ∧ Emits p.residue.toInt [] s.sent start.ns next s.waits := by
  obtain ⟨s₁, hfeed, -, hsent, hcur, -, -⟩ := paceStart_eq h
  obtain ⟨hnormal, hns⟩ := addTS_null (u := ⟨0, 0, 0, 0, 0⟩) hstart.normal
  rw [← hcur] at hnormal hns
  have hin : s₁.curTime.InRange := hstart.of_ns hnormal hns
  have hdue : next ≤ s₁.curTime.ns := by omega
  have hemits := EmitThread.feed_emits hp hin (by decide) hdue hfeed
  rw [hsent, hns] at hemits
  exact ⟨hemits.1 ▸ hns, hemits.2⟩

end Spacing

/-! ## the threads -/

/-- A slag that makes no difference to the signs, and `TIME_BUDGET`. -/
structure EmitVars.Fits (v : EmitVars) : Prop where
  slag : 0 ≤ v.slag.toInt ∧ v.slag.toInt < 2 ^ 62
  budget : v.timeBudget = 1000000

section Threads

variable {τ : Type} {v : EmitVars} {vec pills : List τ} {sample : τ} {pillDur : Int64}
  {start now : Timespec} {s s₀ : EmitThread τ}

theorem toInt_budgetPerEmission (v : EmitVars) (hne : v.perSecThroughput ≠ 0) :
    0 < v.perSecThroughput.toUInt64.toNat ∧
      v.budgetPerEmission.toInt = (1000000000 / v.perSecThroughput.toUInt64.toNat : Nat) := by
  have hpos : 0 < v.perSecThroughput.toUInt64.toNat := by
    rw [Nat.pos_iff_ne_zero]
    intro hzero
    have hnat := toNat_toUInt64 v.perSecThroughput
    have hlt := v.perSecThroughput.toInt_lt
    have hge := v.perSecThroughput.le_toInt
    exact hne (Int64.toInt_inj.mp (by rw [show (0 : Int64).toInt = 0 from rfl]; omega))
  have hdiv : (nanoSPerS / v.perSecThroughput.toUInt64).toNat =
      1000000000 / v.perSecThroughput.toUInt64.toNat := UInt64.toNat_div ..
  have hle := Nat.div_le_self 1000000000 v.perSecThroughput.toUInt64.toNat
  exact ⟨hpos, by rw [EmitVars.budgetPerEmission, toInt_toInt64 (by omega), hdiv]⟩

/-- A rate that leaves time for the overhead is a pace that can be kept. -/
theorem EmitVars.Fits.pace (hv : v.Fits) (h : mtEmitScheduler v vec start = some s₀) :
    v.pace.Fits ∧ paceStart v.pace vec v.emitDur start = some s₀ := by
  rw [mtEmitScheduler_eq] at h
  split at h
  · cases h
  next hguard =>
  rw [not_or] at hguard
  obtain ⟨hne, hbudget⟩ := hguard
  obtain ⟨hslag, hsmall⟩ := hv.slag
  obtain ⟨hpos, hns⟩ := toInt_budgetPerEmission v hne
  have hover : (EmitVars.pollEnqueueOverhead + v.slag).toInt = 1900 + v.slag.toInt := by
    rw [Int64.toInt_add, show EmitVars.pollEnqueueOverhead.toInt = 1900 from rfl]
    exact Int.bmod_eq_of_le (by omega) (by omega)
  rw [Int64.lt_iff_toInt_lt, hover, hns, not_lt] at hbudget
  have hle := Nat.div_le_self 1000000000 v.perSecThroughput.toUInt64.toNat
  have hrate : v.perSecThroughput.toUInt64.toNat ≤ 1000000000 / 1900 := by
    rw [Nat.le_div_iff_mul_le (by decide), mul_comm, ← Nat.le_div_iff_mul_le hpos]
    omega
  refine ⟨⟨?_, ?_, hv.budget⟩, h⟩
  · show 0 ≤ v.perMsThroughput.toInt ∧ v.perMsThroughput.toInt < 2 ^ 31
    have hnat := toNat_toUInt64 v.perSecThroughput
    have hge := v.perSecThroughput.le_toInt
    have hlt := v.perSecThroughput.toInt_lt
    have hdiv : (v.perSecThroughput.toUInt64 / EmitVars.milliSPerS).toNat =
        v.perSecThroughput.toUInt64.toNat / 1000 := UInt64.toNat_div ..
    rw [EmitVars.perMsThroughput]
    split
    · rw [toInt_toInt64 (by omega), hdiv]
      omega
    · omega
  · show 0 ≤ v.residuePerEmission.toInt ∧
      (0 < v.perMsThroughput.toInt → v.residuePerEmission.toInt < 1000000000)
    have hsub : v.residuePerEmission.toInt =
        v.budgetPerEmission.toInt - (EmitVars.pollEnqueueOverhead + v.slag).toInt := by
      rw [EmitVars.residuePerEmission, Int64.toInt_sub]
      exact Int.bmod_eq_of_le (by omega) (by omega)
    omega

/-- That of `mt_selfFeeder` too. -/
theorem EmitVars.Fits.selfPace (hv : v.Fits) (hrate : 0 ≤ v.perSecThroughput.toInt)
    (hsmall : v.perSecThroughput.toInt < 1000 * 2 ^ 31)
    (h : mtSelfFeeder v sample start = some s₀) :
    v.selfPace.Fits ∧ v.selfPace.perMs.toInt = v.perSecThroughput.toInt / 1000 ∧
      paceStart v.selfPace [sample] v.emitDur start = some s₀ := by
  unfold mtSelfFeeder at h
  split at h
  · cases h
  next hguard =>
  rw [not_or] at hguard
  obtain ⟨hne, hbudget⟩ := hguard
  obtain ⟨hslag, -⟩ := hv.slag
  obtain ⟨hpos, hns⟩ := toInt_budgetPerEmission v hne
  have hzero : (0 + v.slag).toInt = v.slag.toInt := by rw [Int64.zero_add]
  rw [Int64.lt_iff_toInt_lt, hzero, hns, not_lt] at hbudget
  have hnat := toNat_toUInt64 v.perSecThroughput
  have hperMs : v.selfPace.perMs.toInt = v.perSecThroughput.toInt / 1000 := by
    have hdiv : (v.perSecThroughput.toUInt64 / EmitVars.milliSPerS).toNat =
        v.perSecThroughput.toUInt64.toNat / 1000 := UInt64.toNat_div ..
    rw [EmitVars.selfPace, toInt_toInt64 (by omega), hdiv]
    omega
  refine ⟨⟨by omega, ?_, hv.budget⟩, hperMs, h⟩
  have hle := Nat.div_le_self 1000000000 v.perSecThroughput.toUInt64.toNat
  have hsub : v.selfPace.residue.toInt = v.budgetPerEmission.toInt - v.slag.toInt := by
    rw [EmitVars.selfPace, Int64.zero_add, Int64.toInt_sub]
    exact Int.bmod_eq_of_le (by omega) (by omega)
  refine ⟨by omega, fun hsome => ?_⟩
  have hhalf : 1000000000 / v.perSecThroughput.toUInt64.toNat ≤ 1000000000 / 2 :=
    Nat.div_le_div_left (by omega) (by decide)
  omega

/-! ## runs -/

/-- The messages sent, the tuples first. -/
def Sender.sent (s : Sender τ) : List τ := s.tuples.sent ++ s.pills.elim [] EmitThread.sent

/-- The last reading of the clock. -/
def Sender.curTime (s : Sender τ) : Timespec := s.pills.elim s.tuples.curTime EmitThread.curTime

/-- Both loops of the sender are over. -/
def Sender.Done (pillDur : Int64) (s : Sender τ) : Prop :=
  s.tuples.pc = .done ∧ (0 < pillDur.toInt → ∃ t ∈ s.pills, t.pc = .done)

/-- The clock of the sender does not go back. -/
def SenderClock (s : Sender τ) (now : Timespec) : Prop := Later s.curTime now

instance : DecidableRel (@SenderClock τ) :=
  fun s now => inferInstanceAs (Decidable (Later s.curTime now))

/-- When a loop begun at `start` is to end. -/
def loopEnd (start : Timespec) (dur : Int64) : Timespec :=
  ⟨start.tvSec + dur, start.tvNsec, 0, 0, 0⟩

theorem normal_loopEnd {dur : Int64} (h : start.Normal) : (loopEnd start dur).Normal := h

theorem ns_loopEnd {dur : Int64} (h : start.InRange) (hdur : 0 ≤ dur.toInt)
    (hlt : dur.toInt < 2 ^ 62) : (loopEnd start dur).ns = start.ns + dur.toInt * 1000000000 := by
  have hstart := h.lt
  have hge := start.tvSec.le_toInt
  unfold loopEnd Timespec.ns
  dsimp only
  rw [Int64.toInt_add, Int.bmod_eq_of_le (by omega) (by omega)]
  omega

/-- The loop over the pills begins after that over the tuples. -/
structure SenderInv (v : EmitVars) (vec pills : List τ) (pillDur : Int64) (start : Timespec)
    (s : Sender τ) : Prop where
  tuples : ∃ r, PaceInv v.pace vec start.ns (loopEnd start v.emitDur) r s.tuples
  pills : ∀ t ∈ s.pills, s.tuples.pc = .done ∧ 0 < pillDur.toInt ∧
    ∃ start', Later s.tuples.curTime start' ∧
      ∃ r, PaceInv v.pace pills start'.ns (loopEnd start' pillDur) r t

theorem SenderInv.step {s s' : Sender τ} (hp : v.pace.Fits) (hstart : start.InRange)
    (hs : SenderInv v vec pills pillDur start s) (hnow : SenderClock s now)
    (h : senderStep v vec pills pillDur s now = some s') :
    SenderInv v vec pills pillDur start s' := by
  obtain ⟨⟨r, htuples⟩, hpills⟩ := hs
  unfold SenderClock Sender.curTime at hnow
  unfold senderStep at h
  split at h
  · next t ht =>
    obtain ⟨t', hstep, rfl⟩ := Option.map_eq_some_iff.mp h
    obtain ⟨hdone, hdur, start', hlater, r', hinv⟩ := hpills t ht
    rw [ht] at hnow
    obtain ⟨r', hinv⟩ :=
      hinv.step hp (normal_loopEnd hlater.inRange.normal) hnow hstep
    exact ⟨⟨r, htuples⟩, fun _ h => Option.some.inj h ▸ ⟨hdone, hdur, start', hlater, r', hinv⟩⟩
  · next hnone =>
    rw [hnone] at hnow
    split at h
    · next hdone =>
      split at h
      · next hdur =>
        obtain ⟨t, hstep, rfl⟩ := Option.map_eq_some_iff.mp h
        rw [gt_iff_lt, Int64.lt_iff_toInt_lt] at hdur
        refine ⟨⟨r, htuples⟩, fun _ h => Option.some.inj h ▸ ⟨hdone, hdur, now, hnow, 0, ?_⟩⟩
        exact paceInv_start hp hnow.inRange hstep
      · cases h
    · obtain ⟨t, hstep, rfl⟩ := Option.map_eq_some_iff.mp h
      rw [emitStep_eq] at hstep
      refine ⟨htuples.step hp (normal_loopEnd hstart.normal) hnow hstep, fun _ h => ?_⟩
      cases hnone.symm.trans h

/-- Up to when the sender waits. -/
def Sender.waits (s : Sender τ) : Int := s.pills.elim s.tuples.waits EmitThread.waits

/-- Each reading of the clock is followed by one message at most, which was
due. -/
theorem SenderInv.emits {s s' : Sender τ} (hp : v.pace.Fits)
    (hs : SenderInv v vec pills pillDur start s) (hnow : SenderClock s now)
    (h : senderStep v vec pills pillDur s now = some s') :
    s'.curTime.ns = now.ns ∧
      Emits v.pace.residue.toInt s.sent s'.sent now.ns s.waits s'.waits := by
  obtain ⟨⟨r, htuples⟩, hpills⟩ := hs
  unfold SenderClock Sender.curTime at hnow
  unfold senderStep at h
  split at h
  · next t ht =>
    obtain ⟨t', hstep, rfl⟩ := Option.map_eq_some_iff.mp h
    obtain ⟨-, -, start', -, r', hinv⟩ := hpills t ht
    rw [ht] at hnow
    obtain ⟨hcur, hemits⟩ := hinv.emits hp hnow hstep
    refine ⟨congrArg Timespec.ns hcur, ?_⟩
    simpa [Sender.sent, Sender.waits, ht] using hemits.append_left s.tuples.sent
  · next hnone =>
    rw [hnone] at hnow
    split at h
    · next hdone =>
      split at h
      · obtain ⟨t, hstep, rfl⟩ := Option.map_eq_some_iff.mp h
        have hwaits : s.tuples.waits ≤ now.ns := by
          rw [EmitThread.waits, hdone]
          exact hnow.le
        obtain ⟨hcur, hemits⟩ := paceStart_emits hp hnow.inRange hwaits hstep
        refine ⟨hcur, ?_⟩
        simpa [Sender.sent, Sender.waits, hnone] using hemits.append_left s.tuples.sent
      · cases h
    · obtain ⟨t, hstep, rfl⟩ := Option.map_eq_some_iff.mp h
      rw [emitStep_eq] at hstep
      obtain ⟨hcur, hemits⟩ := htuples.emits hp hnow hstep
      refine ⟨?_, ?_⟩
      · simp [Sender.curTime, hnone, hcur]
      · simpa [Sender.sent, Sender.waits, hnone] using hemits

/-- What the messages of a sender come to, when the clock has read `times`
before them. -/
structure SenderPaced (v : EmitVars) (vec pills : List τ) (pillDur : Int64) (start : Int)
    (s : Sender τ) (times : List Int) : Prop where
  /-- A window is a millisecond; each loop has begun one that is not over. -/
  windows : (s.sent.length : Int) ≤
    ((s.curTime.ns - start) / 1000000 + 2) * v.perMsThroughput.toInt
  stamped : Stamped v.residuePerEmission.toInt start s.sent s.curTime.ns s.waits times
  tuples : ∀ k < s.tuples.sent.length, s.tuples.sent[k]? = vec[k % vec.length]?
  pills : ∀ t ∈ s.pills, s.tuples.pc = .done ∧
    ∀ k < t.sent.length, t.sent[k]? = pills[k % pills.length]?
  ends : s.Done pillDur →
    start + (v.emitDur.toInt + max 0 pillDur.toInt) * 1000000000 ≤ s.curTime.ns

theorem SenderInv.paced {s : Sender τ} {times : List Int} (hp : v.pace.Fits)
    (hstart : start.InRange) (hdur : 0 ≤ v.emitDur.toInt) (hlt : v.emitDur.toInt < 2 ^ 62)
    (hpill : pillDur.toInt < 2 ^ 62) (hs : SenderInv v vec pills pillDur start s)
    (hstamped : Stamped v.pace.residue.toInt start.ns s.sent s.curTime.ns s.waits times) :
    SenderPaced v vec pills pillDur start.ns s times := by
  obtain ⟨⟨r, htuples⟩, hpills⟩ := hs
  have hend := ns_loopEnd hstart hdur hlt
  cases ht : s.pills with
  | none =>
      have hcur : s.curTime = s.tuples.curTime := by simp [Sender.curTime, ht]
      have hsent : s.sent.length = s.tuples.sent.length + 0 := by simp [Sender.sent, ht]
      have hzero : ((0 : Nat) : Int) ≤
          ((s.tuples.curTime.ns - s.tuples.curTime.ns) / 1000000 + 1) * v.pace.perMs.toInt := by
        simpa using hp.perMs.1
      have hwindows := windows_add hp (htuples.windows hp) hzero le_rfl
      refine ⟨by rw [hsent, hcur]; exact hwindows, hstamped, htuples.emit.sent,
        fun t h => (by cases ht.symm.trans h), fun hdone => ?_⟩
      have hended := htuples.ended hdone.1
      by_cases hpos : 0 < pillDur.toInt
      · obtain ⟨t, h, -⟩ := hdone.2 hpos
        cases ht.symm.trans h
      · rw [hcur]
        omega
  | some t =>
      have hcur : s.curTime = t.curTime := by simp [Sender.curTime, ht]
      have hsent : s.sent.length = s.tuples.sent.length + t.sent.length := by
        simp [Sender.sent, ht]
      obtain ⟨hpc, hpos, start', hlater, r', hinv⟩ := hpills t ht
      have hwindows := windows_add hp (htuples.windows hp) (hinv.windows hp) hlater.le
      refine ⟨by rw [hsent, hcur]; exact hwindows, hstamped, htuples.emit.sent, fun t' h => ?_,
        fun hdone => ?_⟩
      · obtain rfl := Option.some.inj (ht.symm.trans h)
        exact ⟨hpc, hinv.emit.sent⟩
      · obtain ⟨t', h, hpills⟩ := hdone.2 hpos
        obtain rfl := Option.some.inj (ht.symm.trans h)
        have hended := htuples.ended hpc
        have hended' := hinv.ended hpills
        have hend' := ns_loopEnd hlater.inRange hpos.le hpill
        have hle := hlater.le
        rw [hcur]
        omega

/-- The beginning of a loop, with the time of its first message. -/
theorem stamped_start {p : Pace} {dur : Int64} (hp : p.Fits) (hstart : start.InRange)
    (h : paceStart p vec dur start = some s₀) :
    Stamped p.residue.toInt start.ns s₀.sent s₀.curTime.ns s₀.waits
      (s₀.sent.map fun _ => start.ns) := by
  obtain ⟨hcur, hemits⟩ := paceStart_emits hp hstart le_rfl h
  rw [hcur]
  have hnil : Stamped p.residue.toInt start.ns ([] : List τ) start.ns start.ns [] :=
    stamped_nil le_rfl
  simpa using hnil.emits le_rfl hemits

end Threads

/-- **The sender keeps its pace**, tuples and pills, on any clock that does not
go back: it is never ahead of the windows, however late it was before, and from
the reading of the clock before one message to that before the next
`residue_per_emission` passes. -/
theorem sender_paced {τ : Type} {v : EmitVars} {vec pills : List τ} {pillDur : Int64}
    {start : Timespec} {s₀ : EmitThread τ} {s : Sender τ} {tr : List (Sender τ × Timespec)}
    (hv : v.Fits) (hstart : start.InRange) (hdur : 0 ≤ v.emitDur.toInt)
    (hlt : v.emitDur.toInt < 2 ^ 62) (hpill : pillDur.toInt < 2 ^ 62)
    (h₀ : mtEmitScheduler v vec start = some s₀)
    (h : Trace (senderStep v vec pills pillDur) ⟨s₀, none⟩ SenderClock tr s) :
    SenderPaced v vec pills pillDur start.ns s
      (emittedAt (senderStep v vec pills pillDur) Timespec.ns Sender.sent start.ns ⟨s₀, none⟩
        tr) := by
  obtain ⟨hp, hbegin⟩ := hv.pace h₀
  have hinv : ∀ s, Reach (senderStep v vec pills pillDur) ⟨s₀, none⟩ SenderClock s →
      SenderInv v vec pills pillDur start s := fun s hr => by
    refine hr.invariant ⟨⟨0, paceInv_start hp hstart hbegin⟩, fun t ht => by cases ht⟩ ?_
    exact fun _ _ _ hs hnow hstep => hs.step hp hstart hnow hstep
  refine (hinv s h.reach).paced hp hstart hdur hlt hpill ?_
  refine h.stamped (fun s => s.curTime.ns) ?_ fun s now s' hr hnow hstep => ?_
  · simpa [Sender.sent, Sender.curTime, Sender.waits] using stamped_start hp hstart hbegin
  · obtain ⟨hcur, hemits⟩ := (hinv s hr).emits hp hnow hstep
    exact ⟨hnow.le, hcur, hemits⟩

/-- A clock at a full second. -/
def seconds (k : Int64) : Timespec := ⟨k, 0, 0, 0, 0⟩

/-- Two tuples and a pill, as the clock is late for the second window and for
the pill. -/
theorem sender_paced_late :
    ∃ s : Sender Nat, s.sent = [7, 8, 9] ∧ s.Done 1 ∧
      SenderPaced ⟨1, 2, 0, 1000000⟩ [7, 8] [9] 1 (seconds 0).ns s
        [0, 1000000000, 3000000000] := by
  let s₀ : EmitThread Nat :=
    ⟨.poll 0, 1, seconds 0, ⟨0, 999998100, 0, 0, 0⟩, seconds 0, seconds 2, [7]⟩
  have hbegin : mtEmitScheduler ⟨1, 2, 0, 1000000⟩ [7, 8] (seconds 0) = some s₀ := by decide
  obtain ⟨tr, s, hs, hlast⟩ : ∃ tr s,
      Trace (senderStep ⟨1, 2, 0, 1000000⟩ [7, 8] [9] 1) ⟨s₀, none⟩ SenderClock tr s ∧
      (s.sent == [7, 8, 9] && s.tuples.pc == .done && s.pills.any (·.pc == .done) &&
        emittedAt (senderStep ⟨1, 2, 0, 1000000⟩ [7, 8] [9] 1) Timespec.ns Sender.sent
          (seconds 0).ns ⟨s₀, none⟩ tr == [0, 1000000000, 3000000000]) = true :=
    Trace.of_exec_any [seconds 1, seconds 1, seconds 2, seconds 2, seconds 3, seconds 4, seconds 4]
      (fun tr s => s.sent == [7, 8, 9] && s.tuples.pc == .done && s.pills.any (·.pc == .done) &&
        emittedAt (senderStep ⟨1, 2, 0, 1000000⟩ [7, 8] [9] 1) Timespec.ns Sender.sent
          (seconds 0).ns ⟨s₀, none⟩ tr == [0, 1000000000, 3000000000]) (by decide +kernel)
  simp only [Bool.and_eq_true, beq_iff_eq, Option.any_eq_true] at hlast
  obtain ⟨⟨⟨hsent, htuples⟩, hpills⟩, htimes⟩ := hlast
  have hpaced := sender_paced ⟨by decide, rfl⟩ ⟨by decide, by decide⟩ (by decide) (by decide)
    (by decide) hbegin hs
  rw [htimes] at hpaced
  exact ⟨s, hsent, ⟨htuples, fun _ => hpills⟩, hpaced⟩

/-- What the copies of the sample come to that the self-feeder has pushed. -/
structure FeederPaced {τ : Type} (v : EmitVars) (sample : τ) (start : Int) (s : EmitThread τ)
    (times : List Int) : Prop where
  windows : (s.sent.length : Int) ≤
    ((s.curTime.ns - start) / 1000000 + 1) * v.selfPace.perMs.toInt
  stamped : Stamped v.selfPace.residue.toInt start s.sent s.curTime.ns s.waits times
  copies : ∀ x ∈ s.sent, x = sample
  slow : v.perSecThroughput.toInt < 1000 → s.sent = []
  ends : s.pc = .done → start + v.emitDur.toInt * 1000000000 ≤ s.curTime.ns

/-- **The self-feeder keeps its pace** too, which is nothing for a rate below
1000. -/
theorem feeder_paced {τ : Type} {v : EmitVars} {sample : τ} {start : Timespec}
    {s₀ s : EmitThread τ} {tr : List (EmitThread τ × Timespec)} (hv : v.Fits)
    (hrate : 0 ≤ v.perSecThroughput.toInt)
    (hsmall : v.perSecThroughput.toInt < 1000 * 2 ^ 31) (hstart : start.InRange)
    (hdur : 0 ≤ v.emitDur.toInt) (hlt : v.emitDur.toInt < 2 ^ 62)
    (h₀ : mtSelfFeeder v sample start = some s₀)
    (h : Trace (paceStep v.selfPace [sample]) s₀ (fun s now => Later s.curTime now) tr s) :
    FeederPaced v sample start.ns s
      (emittedAt (paceStep v.selfPace [sample]) Timespec.ns EmitThread.sent start.ns s₀ tr) := by
  obtain ⟨hp, hperMs, hbegin⟩ := hv.selfPace hrate hsmall h₀
  have hall : ∀ s,
      Reach (paceStep v.selfPace [sample]) s₀ (fun s now => Later s.curTime now) s →
      ∃ r, PaceInv v.selfPace [sample] start.ns (loopEnd start v.emitDur) r s := fun s hr => by
    refine hr.invariant
      (I := fun s => ∃ r, PaceInv v.selfPace [sample] start.ns (loopEnd start v.emitDur) r s)
      ⟨0, paceInv_start hp hstart hbegin⟩ fun s now s' hs hnow hstep => ?_
    obtain ⟨r, hs⟩ := hs
    exact hs.step hp (normal_loopEnd hstart.normal) hnow hstep
  obtain ⟨r, hinv⟩ := hall s h.reach
  have hwindows := hinv.windows hp
  refine ⟨hwindows, ?_, fun x hx => ?_, fun hslow => ?_, fun hdone => ?_⟩
  · refine h.stamped (fun s => s.curTime.ns) (stamped_start hp hstart hbegin)
      fun s now s' hr hnow hstep => ?_
    obtain ⟨r, hs⟩ := hall s hr
    obtain ⟨hcur, hemits⟩ := hs.emits hp hnow hstep
    exact ⟨hnow.le, congrArg Timespec.ns hcur, hemits⟩
  · obtain ⟨k, hk, rfl⟩ := List.mem_iff_getElem.mp hx
    have hsent := hinv.emit.sent k hk
    rw [List.length_singleton, Nat.mod_one, List.getElem?_eq_getElem hk] at hsent
    exact Option.some.inj hsent
  · rw [hperMs, show v.perSecThroughput.toInt / 1000 = 0 by omega, mul_zero] at hwindows
    exact List.length_eq_zero_iff.mp (by omega)
  · rw [← ns_loopEnd hstart hdur hlt]
    exact hinv.ended hdone

/-- Two tuples, the second one late. -/
theorem feeder_paced_late :
    ∃ s : EmitThread Nat, s.sent = [7, 7] ∧ s.pc = .done ∧
      FeederPaced ⟨1000, 2, 0, 1000000⟩ 7 (seconds 0).ns s [0, 1000000000] := by
  let s₀ : EmitThread Nat :=
    ⟨.poll 0, 0, seconds 0, ⟨0, 1000000, 0, 0, 0⟩, seconds 0, seconds 2, [7]⟩
  have hbegin : mtSelfFeeder ⟨1000, 2, 0, 1000000⟩ 7 (seconds 0) = some s₀ := by decide
  obtain ⟨tr, s, hs, hlast⟩ : ∃ tr s,
      Trace (paceStep (EmitVars.selfPace ⟨1000, 2, 0, 1000000⟩) [7]) s₀
        (fun s now => Later s.curTime now) tr s ∧
      (s.sent == [7, 7] && s.pc == .done &&
        emittedAt (paceStep (EmitVars.selfPace ⟨1000, 2, 0, 1000000⟩) [7]) Timespec.ns
          EmitThread.sent (seconds 0).ns s₀ tr == [0, 1000000000]) = true :=
    Trace.of_exec_any [seconds 1, seconds 1, seconds 2, seconds 2]
      (fun tr s => s.sent == [7, 7] && s.pc == .done &&
        emittedAt (paceStep (EmitVars.selfPace ⟨1000, 2, 0, 1000000⟩) [7]) Timespec.ns
          EmitThread.sent (seconds 0).ns s₀ tr == [0, 1000000000]) (by decide +kernel)
  simp only [Bool.and_eq_true, beq_iff_eq] at hlast
  obtain ⟨⟨hsent, hdone⟩, htimes⟩ := hlast
  have hpaced := feeder_paced ⟨by decide, rfl⟩ (by decide) (by decide) ⟨by decide, by decide⟩
    (by decide) (by decide) hbegin hs
  rw [htimes] at hpaced
  exact ⟨s, hsent, hdone, hpaced⟩

end CloudProfiler
