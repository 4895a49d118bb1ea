import CloudProfiler.Handler.Periodic
import CloudProfiler.Nanos

/-!
# CloudProfiler.Handler.FlushTime

When a PERIODICCOUNTER channel prints its counter
(`periodic_counter_handler.cpp`): `time_flush` is to stay on the multiples of
the period, after the last event, and what is printed is to account for every
interval it moves past.  The number of skipped intervals is computed in 64
bits and kept in 32.

* `OnSchedule` — what a call owes;
* `FitsNext` — the numbers fit;
* `nextShot_iff` — the arithmetic of the next shot;
* `flush_schedule_iff` — all calls are on schedule if and only if they fit.
-/

namespace CloudProfiler

/-- What the clock delivers. -/
abbrev Reading := {t : Timespec // t.Normal}

namespace PCClosure

/-- The channel was opened, or its period set, at time `start`. -/
structure Programmed (cl : PCClosure) (p : UInt64) (start : Reading) : Prop where
  isOpen : cl.base.isOpen = true
  period : cl.periodicIncNs = p
  nonzero : p ≠ 0
  timeStart : cl.timeStart = start.1
  timeFlush : ∃ r r', cl.timeFlush = addTS r start.1 (periodOfNs r' p)

theorem programmed_init (now : Reading) (t : Timespec) :
    (initPeriodicCounterHandler now.1 t).Programmed nanoSPerS now where
  isOpen := rfl
  period := rfl
  nonzero := by decide
  timeStart := rfl
  timeFlush := ⟨t, t, rfl⟩

theorem programmed_setArg {cl : PCClosure} {v : Int64} (hv : 1 ≤ v) (now : Reading)
    (hopen : cl.base.isOpen = true) (hp : cl.periodicIncNs ≠ 0) :
    ∃ cl', setArgPeriodicCounterHandler now.1 cl (.one 0 v) = some (0, cl') ∧
      cl'.Programmed v.toUInt64 now := by
  obtain ⟨cl', hset, hopen', hper, hstart, hflush, -, -⟩ := setArg_accepted hv now.1 hopen hp
  exact ⟨cl', hset, hopen', hper, toUInt64_ne_zero (one_le_iff.mp hv).2, hstart, hflush⟩

/-- **A call at time `now` is on schedule**: `time_flush` is a positive
multiple of the period after `time_start` and not before `now`, and the lines
printed account for the intervals it was moved past. -/
structure OnSchedule (p : UInt64) (now : Timespec) (cl cl' : PCClosure) : Prop where
  multiple : ∃ k : Int, 0 < k ∧ cl'.timeFlush.ns - cl'.timeStart.ns = k * p.toNat
  notBefore : now.ns ≤ cl'.timeFlush.ns
  reported : ∀ m : Int, cl'.timeFlush.ns - cl.timeFlush.ns = m * p.toNat →
    (cl'.base.total PCLine.intervals : Int) = cl.base.total PCLine.intervals + m

/-- All calls are on schedule. -/
def AllOnSchedule (p : UInt64) : PCClosure → List Reading → Prop
  | _, [] => True
  | cl, now :: nows => ∃ cl', cl.handler now.1 = some cl' ∧ OnSchedule p now.1 cl cl' ∧
      AllOnSchedule p cl' nows

/-- The intervals from `time_flush` to the first shot after `now`. -/
def toNextShot (cl : PCClosure) (now : Timespec) : Int :=
  (now.ns - cl.timeFlush.ns) / cl.periodicIncNs.toNat + 1

/-- If the interval is over at time `now`, the number of intervals to the next
shot fits in 32 bits, their nano-seconds in 64, and its time in a `timespec`. -/
def FitsNext (cl : PCClosure) (now : Timespec) : Prop :=
  cl.Expired now → cl.toNextShot now < 2 ^ 32 ∧
    cl.toNextShot now * cl.periodicIncNs.toNat < 2 ^ 64 ∧
    cl.timeFlush.ns + cl.toNextShot now * cl.periodicIncNs.toNat < nsLimit

instance (cl : PCClosure) (now : Timespec) : Decidable (cl.FitsNext now) :=
  inferInstanceAs (Decidable (_ → _))

/-- All calls fit. -/
def AllFit : PCClosure → List Reading → Prop
  | _, [] => True
  | cl, now :: nows => cl.FitsNext now.1 ∧ ∀ cl' ∈ cl.handler now.1, AllFit cl' nows

instance AllFit.decidable : (cl : PCClosure) → (nows : List Reading) → Decidable (AllFit cl nows)
  | _, [] => .isTrue trivial
  | cl, now :: nows =>
      match hs : cl.handler now.1 with
      | none => decidable_of_iff (cl.FitsNext now.1) (by simp [AllFit, hs])
      | some cl' =>
          have := AllFit.decidable cl' nows
          decidable_of_iff (cl.FitsNext now.1 ∧ AllFit cl' nows) (by simp [AllFit, hs])

end PCClosure

/-! ## the next shot -/

/-- The nano-seconds to the next shot, `e` after the last one with a period of
`p`, as they are computed. -/
def nextShotNs (e p : Nat) : Nat := (1 + e % 2 ^ 64 / p % 2 ^ 32) % 2 ^ 32 * p % 2 ^ 64

/-- The first multiple of the period after `e`. -/
theorem lt_next {e p : Nat} (hp : 0 < p) : e < (e / p + 1) * p := by
  rw [Nat.mul_comm]
  exact Nat.lt_mul_div_succ e hp

/-- **The next shot is right** if and only if the number of intervals fits in
32 bits and their length in 64; otherwise it is before the time it should come
after. -/
theorem nextShot_iff {e p : Nat} (hp : 0 < p) (hp' : p < 2 ^ 64) :
    e ≤ nextShotNs e p ↔ e / p + 1 < 2 ^ 32 ∧ (e / p + 1) * p < 2 ^ 64 := by
  have hdiv : e / p * p ≤ e := Nat.div_mul_le_self e p
  have hlt := lt_next hp (e := e)
  constructor
  · intro hle
    unfold nextShotNs at hle
    have hsmall : e < 2 ^ 64 := lt_of_le_of_lt hle (Nat.mod_lt _ (by decide))
    rw [Nat.mod_eq_of_lt hsmall] at hle
    generalize e / p = q at hdiv hlt hle ⊢
    have hle' : e ≤ (1 + q % 2 ^ 32) % 2 ^ 32 * p := hle.trans (Nat.mod_le _ _)
    have hq : q + 1 < 2 ^ 32 := by
      by_contra hbig
      -- the number of intervals is cut off
      have hcut : (1 + q % 2 ^ 32) % 2 ^ 32 < q := by omega
      have := Nat.mul_lt_mul_of_pos_right hcut hp
      omega
    refine ⟨hq, ?_⟩
    by_contra hbig
    have hr : (1 + q % 2 ^ 32) % 2 ^ 32 = q + 1 := by omega
    rw [hr] at hle
    have hsucc : (q + 1) * p = q * p + p := Nat.succ_mul q p
    omega
  · rintro ⟨hq, hmul⟩
    have hsmall : e < 2 ^ 64 := lt_trans hlt hmul
    unfold nextShotNs
    rw [Nat.mod_eq_of_lt hsmall]
    generalize e / p = q at hlt hq hmul ⊢
    have hr : (1 + q % 2 ^ 32) % 2 ^ 32 = q + 1 := by omega
    rw [hr, Nat.mod_eq_of_lt hmul]
    exact hlt.le

/-- The next shot, if it is right. -/
theorem nextShotNs_eq {e p : Nat} (hp : 0 < p) (hq : e / p + 1 < 2 ^ 32)
    (hmul : (e / p + 1) * p < 2 ^ 64) : nextShotNs e p = (e / p + 1) * p := by
  unfold nextShotNs
  rw [Nat.mod_eq_of_lt (lt_trans (lt_next hp) hmul)]
  generalize e / p = q at hq hmul ⊢
  have hr : (1 + q % 2 ^ 32) % 2 ^ 32 = q + 1 := by omega
  rw [hr, Nat.mod_eq_of_lt hmul]

/-! ## one call -/

namespace PCClosure

section Call

variable {cl cl' : PCClosure} {p : UInt64} {start : Reading} {now : Timespec}

/-- The times are those of a clock, and `time_flush` is a positive multiple of
the period after `time_start`. -/
structure Aligned (cl : PCClosure) (p : UInt64) : Prop where
  isOpen : cl.base.isOpen = true
  period : cl.periodicIncNs = p
  nonzero : p ≠ 0
  normal : cl.timeFlush.Normal
  multiple : ∃ k : Int, 0 < k ∧ cl.timeFlush.ns - cl.timeStart.ns = k * p.toNat

theorem toNat_pos (h : p ≠ 0) : 0 < p.toNat := by
  rw [← UInt64.toNat_inj.ne] at h
  exact Nat.pos_of_ne_zero h

theorem expired_iff (hflush : cl.timeFlush.Normal) (hnow : now.Normal) :
    cl.Expired now ↔ cl.timeFlush.ns < now.ns := by
  obtain ⟨hge, hlt⟩ := hflush
  obtain ⟨hge', hlt'⟩ := hnow
  unfold Expired Timespec.ns
  rw [gt_iff_lt, gt_iff_lt, Int64.lt_iff_toInt_lt, Int64.lt_iff_toInt_lt, ← Int64.toInt_inj]
  omega

/-- The nano-seconds to the next shot, as `PeriodicCounterHandler` computes
them. -/
theorem toNat_nextShot (hexp : cl.timeFlush.ns ≤ now.ns) :
    ((1 + cl.skipped now).toUInt64 * cl.periodicIncNs).toNat =
      nextShotNs (now.ns - cl.timeFlush.ns).toNat cl.periodicIncNs.toNat := by
  have helapsed := @toNat_elapsedNs_subtractTS now cl.timeFlush now
  have hmod : (subtractTS now cl.timeFlush now).elapsedNs.toNat =
      (now.ns - cl.timeFlush.ns).toNat % 2 ^ 64 := by omega
  rw [UInt64.toNat_mul, UInt32.toNat_toUInt64, UInt32.toNat_add, skipped, UInt64.toNat_toUInt32,
    UInt64.toNat_div, hmod]
  rfl

theorem toNextShot_eq (hexp : cl.timeFlush.ns ≤ now.ns) :
    cl.toNextShot now =
      ((now.ns - cl.timeFlush.ns).toNat / cl.periodicIncNs.toNat + 1 : Nat) := by
  rw [toNextShot, Int.natCast_add, Int.natCast_div, Int.toNat_of_nonneg (by omega)]
  rfl

/-- The number of skipped intervals, if it fits. -/
theorem toNat_skipped (hexp : cl.timeFlush.ns ≤ now.ns) (hp : cl.periodicIncNs ≠ 0)
    (hq : cl.toNextShot now < 2 ^ 32)
    (hmul : cl.toNextShot now * cl.periodicIncNs.toNat < 2 ^ 64) :
    ((cl.skipped now).toNat : Int) + 1 = cl.toNextShot now := by
  have helapsed := @toNat_elapsedNs_subtractTS now cl.timeFlush now
  have hlt := lt_next (toNat_pos hp) (e := (now.ns - cl.timeFlush.ns).toNat)
  rw [toNextShot_eq hexp] at hq hmul ⊢
  have hmul' : ((now.ns - cl.timeFlush.ns).toNat / cl.periodicIncNs.toNat + 1) *
      cl.periodicIncNs.toNat < 2 ^ 64 := by exact_mod_cast hmul
  have hmod : (subtractTS now cl.timeFlush now).elapsedNs.toNat =
      (now.ns - cl.timeFlush.ns).toNat := by omega
  rw [skipped, UInt64.toNat_toUInt32, UInt64.toNat_div, hmod]
  generalize (now.ns - cl.timeFlush.ns).toNat / cl.periodicIncNs.toNat = q at hq ⊢
  omega

/-- What the first event after the interval prints accounts for all intervals
up to the next shot. -/
theorem total_intervals (hopen : cl.base.isOpen = true) {n : UInt32} (hn : n.toNat + 1 < 2 ^ 32) :
    (cl.ensureHeader.printSkipped n).1.base.total PCLine.intervals =
      cl.base.total PCLine.intervals + n.toNat + 1 := by
  have hopen₁ : cl.ensureHeader.base.isOpen = true := by simpa using hopen
  have htotal := cl.total_ensureHeader (w := PCLine.intervals) hopen rfl fun _ _ => rfl
  have hskipped : ∀ m : UInt32, (if m > 0 then PCLine.intervals (.skipped m) else 0) = m.toNat := by
    intro m
    split
    · rfl
    · next hzero =>
      have hm : m.toNat = 0 := by simpa [UInt32.lt_iff_toNat_lt] using hzero
      rw [hm]
  rw [(printSkipped_total hopen₁ n).2, hskipped, putCount, ctr_ensureHeader]
  by_cases hctr : cl.ctr = 0
  · have hadd : (n + 1).toNat = n.toNat + 1 := by
      rw [UInt32.toNat_add]
      exact Nat.mod_eq_of_lt hn
    rw [if_pos hctr, if_neg (by rw [hctr]; decide), htotal, hadd]
    rfl
  · have hpos : cl.ctr > 0 := by
      rw [gt_iff_lt, UInt64.lt_iff_toNat_lt]
      exact toNat_pos hctr
    rw [if_neg hctr, if_pos hpos, Base.total_put hopen₁, htotal]
    simp only [PCLine.intervals]
    omega

/-- The time of the next flush, before and after the overflow. -/
theorem ns_timeFlush (h : cl.timeFlush.Normal) (x : UInt64) :
    (cl.timeFlush.ns + x.toNat < nsLimit ∧
      (addTS cl.timeFlush cl.timeFlush (periodOfNs cl.timeFlush x)).ns =
        cl.timeFlush.ns + x.toNat) ∨
    (nsLimit ≤ cl.timeFlush.ns + x.toNat ∧
      (addTS cl.timeFlush cl.timeFlush (periodOfNs cl.timeFlush x)).ns =
        cl.timeFlush.ns + x.toNat - 2 * nsLimit) := by
  have hx : (periodOfNs cl.timeFlush x).ns = x.toNat := ns_periodOfNs x
  by_cases hlt : cl.timeFlush.ns + x.toNat < nsLimit
  · refine .inl ⟨hlt, ?_⟩
    rw [ns_addTS_of_lt h (normal_periodOfNs x) (by omega) (by omega), hx]
  · refine .inr ⟨Int.not_lt.mp hlt, ?_⟩
    rw [ns_addTS_of_le h (normal_periodOfNs x) (by omega), hx]

/-- The first event after the interval, if the numbers fit. -/
theorem handler_of_fits (hopen : cl.base.isOpen = true) (hp : cl.periodicIncNs ≠ 0)
    (hnormal : cl.timeFlush.Normal) (hlt : cl.timeFlush.ns < now.ns) (hexp : cl.Expired now)
    (hfits : cl.FitsNext now) (hs : cl.handler now = some cl') :
    cl'.timeFlush.ns = cl.timeFlush.ns + cl.toNextShot now * cl.periodicIncNs.toNat ∧
      (cl'.base.total PCLine.intervals : Int) =
        cl.base.total PCLine.intervals + cl.toNextShot now ∧
      cl'.base.isOpen = true ∧ cl'.timeFlush.Normal ∧ cl'.timeStart = cl.timeStart ∧
      cl'.periodicIncNs = cl.periodicIncNs := by
  obtain ⟨hq, hmul, hlimit⟩ := hfits hexp
  have hskip := toNat_skipped hlt.le hp hq hmul
  have hshot := toNat_nextShot hlt.le
  have hpos := toNat_pos hp
  have hK := toNextShot_eq hlt.le
  have hcast : ((((now.ns - cl.timeFlush.ns).toNat / cl.periodicIncNs.toNat + 1) *
      cl.periodicIncNs.toNat : Nat) : Int) = cl.toNextShot now * cl.periodicIncNs.toNat := by
    rw [hK, Int.natCast_mul]
  have htotal := total_intervals hopen (n := cl.skipped now) (by omega)
  rw [hK] at hq hmul
  rw [nextShotNs_eq hpos (by exact_mod_cast hq) (by exact_mod_cast hmul)] at hshot
  have hflush := ns_timeFlush hnormal ((1 + cl.skipped now).toUInt64 * cl.periodicIncNs)
  rw [hshot, hcast] at hflush
  obtain ⟨-, hflush⟩ := hflush.resolve_right fun hover => not_lt.mpr hover.1 hlimit
  rw [handler_of_expired hexp hp] at hs
  cases hs
  refine ⟨hflush, ?_, ?_, normal_addTS hnormal (normal_periodOfNs _), ?_, ?_⟩
  · dsimp only
    rw [htotal]
    omega
  · exact (printSkipped_total (w := PCLine.intervals) (by simpa using hopen) _).1
  · simp [printSkipped]
  · simp [printSkipped]

/-- **An event that fits** is on schedule. -/
theorem Aligned.onSchedule (h : cl.Aligned p) (hnow : now.Normal) (hfits : cl.FitsNext now)
    (hs : cl.handler now = some cl') : OnSchedule p now cl cl' ∧ cl'.Aligned p := by
  obtain ⟨hopen, hper, hzero, hnormal, k, hk, hmul⟩ := h
  have hpos := toNat_pos hzero
  by_cases hexp : cl.Expired now
  · have hlt := (expired_iff hnormal hnow).mp hexp
    obtain ⟨hflush, htotal, hopen', hnormal', hstart, hper'⟩ :=
      handler_of_fits hopen (by rwa [hper]) hnormal hlt hexp hfits hs
    have hnext := lt_next hpos (e := (now.ns - cl.timeFlush.ns).toNat)
    have hK := toNextShot_eq hlt.le
    rw [hper] at hflush hper' hK
    have hcast : ((((now.ns - cl.timeFlush.ns).toNat / p.toNat + 1) * p.toNat : Nat) : Int) =
        cl.toNextShot now * p.toNat := by rw [hK, Int.natCast_mul]
    have hKpos : 0 < cl.toNextShot now := by
      rw [hK]
      exact Int.natCast_pos.mpr (Nat.succ_pos _)
    have hmultiple : 0 < k + cl.toNextShot now ∧
        cl'.timeFlush.ns - cl'.timeStart.ns = (k + cl.toNextShot now) * p.toNat := by
      rw [hflush, hstart, Int.add_mul, ← hmul]
      exact ⟨Int.add_pos hk hKpos, by omega⟩
    refine ⟨⟨⟨_, hmultiple⟩, ?_, fun m hm => ?_⟩, ⟨hopen', hper', hzero, hnormal', _, hmultiple⟩⟩
    · omega
    · have hm' : cl.toNextShot now = m :=
        Int.eq_of_mul_eq_mul_right (by omega : (p.toNat : Int) ≠ 0) (by omega)
      rw [htotal, hm']
  · rw [handler_of_not_expired hexp] at hs
    cases hs
    rw [expired_iff hnormal hnow] at hexp
    refine ⟨⟨⟨k, hk, hmul⟩, Int.not_lt.mp hexp, fun m hm => ?_⟩,
      ⟨hopen, hper, hzero, hnormal, k, hk, hmul⟩⟩
    have hm0 : m = 0 := by
      rw [Int.sub_self, zero_eq_mul] at hm
      exact hm.resolve_right (by omega)
    simp [hm0]

/-- **An event that is on schedule** fits. -/
theorem Aligned.fitsNext (h : cl.Aligned p) (hnow : now.Normal)
    (hs : cl.handler now = some cl') (hsched : now.ns ≤ cl'.timeFlush.ns) : cl.FitsNext now := by
  obtain ⟨hopen, hper, hzero, hnormal, -⟩ := h
  intro hexp
  have hp : cl.periodicIncNs ≠ 0 := by rwa [hper]
  have hlt := (expired_iff hnormal hnow).mp hexp
  have hshot := toNat_nextShot hlt.le
  have hpos := toNat_pos hp
  have hsmall : nextShotNs (now.ns - cl.timeFlush.ns).toNat cl.periodicIncNs.toNat < 2 ^ 64 :=
    Nat.mod_lt _ (by decide)
  have hK := toNextShot_eq hlt.le
  rw [handler_of_expired hexp hp] at hs
  cases hs
  have hflush := ns_timeFlush hnormal ((1 + cl.skipped now).toUInt64 * cl.periodicIncNs)
  rw [hshot] at hflush
  have hge := Timespec.le_ns hnow
  have hge' := Timespec.le_ns hnormal
  obtain ⟨hlimit, hflush⟩ | ⟨hover, hflush⟩ := hflush
  · rw [hflush] at hsched
    obtain ⟨hq, hmul⟩ := (nextShot_iff hpos cl.periodicIncNs.toNat_lt).mp
      (show (now.ns - cl.timeFlush.ns).toNat ≤ nextShotNs _ cl.periodicIncNs.toNat by omega)
    rw [nextShotNs_eq hpos hq hmul, Int.natCast_mul] at hlimit
    rw [hK]
    exact ⟨by exact_mod_cast hq, by exact_mod_cast hmul, hlimit⟩
  · -- the seconds have overflowed
    rw [hflush] at hsched
    unfold nsLimit at *
    omega

end Call

end PCClosure

/-! ## all calls -/

namespace PCClosure

section Calls

variable {cl : PCClosure} {p : UInt64} {start : Reading}

/-- **Run lemma**: from an aligned state the calls are on schedule if and only
if they fit. -/
theorem Aligned.allOnSchedule_iff (h : cl.Aligned p) (nows : List Reading) :
    AllOnSchedule p cl nows ↔ AllFit cl nows := by
  induction nows generalizing cl with
  | nil => exact Iff.rfl
  | cons now nows ih =>
      have hp : cl.periodicIncNs ≠ 0 := by
        rw [h.period]
        exact h.nonzero
      obtain ⟨cl', hs⟩ := handler_isSome hp now.1
      constructor
      · rintro ⟨cl₁, hs₁, hsched, hrest⟩
        have hfits := h.fitsNext now.2 hs₁ hsched.notBefore
        refine ⟨hfits, fun cl₂ hs₂ => ?_⟩
        rw [hs₁] at hs₂
        cases hs₂
        exact (ih (h.onSchedule now.2 hfits hs₁).2).mp hrest
      · rintro ⟨hfits, hrest⟩
        obtain ⟨hsched, haligned⟩ := h.onSchedule now.2 hfits hs
        exact ⟨cl', hs, hsched, (ih haligned).mpr (hrest cl' hs)⟩

/-- The first interval ends in time. -/
theorem Programmed.aligned (h : cl.Programmed p start) (hlt : start.1.ns + p.toNat < nsLimit) :
    cl.Aligned p := by
  obtain ⟨hopen, hper, hzero, hstart, r, r', hflush⟩ := h
  have hp : (periodOfNs r' p).ns = p.toNat := ns_periodOfNs p
  refine ⟨hopen, hper, hzero, ?_, 1, Int.one_pos, ?_⟩
  · rw [hflush]
    exact normal_addTS start.2 (normal_periodOfNs p)
  · rw [hflush, hstart, ns_addTS_of_lt start.2 (normal_periodOfNs p) (by omega) (by omega), hp]
    omega

/-- If the first interval does not end in time, no call is on schedule. -/
theorem Programmed.not_onSchedule (h : cl.Programmed p start)
    (hle : nsLimit ≤ start.1.ns + p.toNat) {now : Reading} {cl' : PCClosure}
    (hs : cl.handler now.1 = some cl') : ¬ OnSchedule p now.1 cl cl' := by
  obtain ⟨hopen, hper, hzero, hstart, r, r', hflush⟩ := h
  have hpns : (periodOfNs r' p).ns = p.toNat := ns_periodOfNs p
  have hns : cl.timeFlush.ns = start.1.ns + p.toNat - 2 * nsLimit := by
    rw [hflush, ns_addTS_of_le start.2 (normal_periodOfNs p) (by omega), hpns]
  have hnormal : cl.timeFlush.Normal := by
    rw [hflush]
    exact normal_addTS start.2 (normal_periodOfNs p)
  have hpos := toNat_pos hzero
  have hplt := p.toNat_lt
  have hslt := Timespec.ns_lt start.2
  -- `time_flush` stays before `time_start`
  have hbefore : cl'.timeFlush.ns < cl'.timeStart.ns := by
    by_cases hexp : cl.Expired now.1
    · rw [handler_of_expired hexp (by rwa [hper])] at hs
      cases hs
      have hstart' : (cl.ensureHeader.printSkipped (cl.skipped now.1)).1.timeStart = start.1 := by
        simp [printSkipped, hstart]
      have hxlt := ((1 + cl.skipped now.1).toUInt64 * cl.periodicIncNs).toNat_lt
      have hflush' := ns_timeFlush hnormal ((1 + cl.skipped now.1).toUInt64 * cl.periodicIncNs)
      dsimp only
      rw [hstart']
      unfold nsLimit at *
      omega
    · rw [handler_of_not_expired hexp] at hs
      cases hs
      rw [hns, hstart]
      unfold nsLimit at *
      omega
  rintro ⟨⟨k, hk, hmul⟩, -, -⟩
  have : 0 < k * (p.toNat : Int) := Int.mul_pos hk (by omega)
  omega

/-- **The counter is flushed on schedule** if and only if the first interval
ends in time and the numbers fit in every call. -/
theorem flush_schedule_iff (h : cl.Programmed p start) (nows : List Reading) :
    AllOnSchedule p cl nows ↔
      nows = [] ∨ (start.1.ns + p.toNat < nsLimit ∧ AllFit cl nows) := by
  by_cases hlt : start.1.ns + p.toNat < nsLimit
  · rw [(h.aligned hlt).allOnSchedule_iff]
    refine ⟨fun hfit => .inr ⟨hlt, hfit⟩, ?_⟩
    rintro (rfl | ⟨-, hfit⟩)
    · trivial
    · exact hfit
  · cases nows with
    | nil => exact iff_of_true trivial (.inl rfl)
    | cons now nows =>
        refine iff_of_false ?_ (by simp [hlt])
        rintro ⟨cl', hs, hsched, -⟩
        exact h.not_onSchedule (Int.not_lt.mp hlt) hs hsched

end Calls

/-- A default channel with events after 2.5, 2.6 and 7 seconds. -/
theorem flush_schedule_default :
    AllOnSchedule nanoSPerS (initPeriodicCounterHandler ⟨0, 0, 0, 0, 0⟩ ⟨0, 0, 0, 0, 0⟩)
      [⟨⟨2, 500000000, 0, 0, 0⟩, by decide⟩, ⟨⟨2, 600000000, 0, 0, 0⟩, by decide⟩,
        ⟨⟨7, 0, 0, 0, 0⟩, by decide⟩] := by
  refine (flush_schedule_iff (programmed_init ⟨⟨0, 0, 0, 0, 0⟩, by decide⟩ _) _).mpr (.inr ?_)
  exact ⟨by decide, by decide +kernel⟩

/-- With a period of 1 ns an event 5 seconds after the period was set leaves
`time_flush` behind. -/
theorem flush_schedule_behind : ∃ cl', setArgPeriodicCounterHandler ⟨0, 0, 0, 0, 0⟩
      (initPeriodicCounterHandler ⟨0, 0, 0, 0, 0⟩ ⟨0, 0, 0, 0, 0⟩) (.one 0 1) = some (0, cl') ∧
    cl'.Programmed 1 ⟨⟨0, 0, 0, 0, 0⟩, by decide⟩ ∧
    (∃ cl'', cl'.handler ⟨5, 0, 0, 0, 0⟩ = some cl'' ∧
      cl''.timeFlush.ns < (⟨5, 0, 0, 0, 0⟩ : Timespec).ns) ∧
    ¬ AllOnSchedule 1 cl' [⟨⟨5, 0, 0, 0, 0⟩, by decide⟩] := by
  have hopen : (initPeriodicCounterHandler ⟨0, 0, 0, 0, 0⟩ ⟨0, 0, 0, 0, 0⟩).base.isOpen = true :=
    rfl
  obtain ⟨cl', hset, hprog⟩ := programmed_setArg (show (1 : Int64) ≤ 1 by decide)
    ⟨⟨0, 0, 0, 0, 0⟩, by decide⟩ hopen (by decide)
  have hrun : (setArgPeriodicCounterHandler ⟨0, 0, 0, 0, 0⟩
      (initPeriodicCounterHandler ⟨0, 0, 0, 0, 0⟩ ⟨0, 0, 0, 0, 0⟩) (.one 0 1)).any
        (fun r => (r.2.handler ⟨5, 0, 0, 0, 0⟩).any fun cl'' =>
          decide (cl''.timeFlush.ns < (⟨5, 0, 0, 0, 0⟩ : Timespec).ns)) = true := by
    decide +kernel
  rw [hset, Option.any_some, Option.any_eq_true] at hrun
  obtain ⟨cl'', hs, hbehind⟩ := hrun
  have hlt := of_decide_eq_true hbehind
  refine ⟨cl', hset, hprog, ⟨cl'', hs, hlt⟩, ?_⟩
  rintro ⟨cl₁, hs₁, hsched, -⟩
  cases hs.symm.trans hs₁
  exact absurd hsched.notBefore (not_le.mpr hlt)

end PCClosure

end CloudProfiler
