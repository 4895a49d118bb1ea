import CloudProfiler.Nanos
import Mathlib.Tactic.Linarith

/-!
# CloudProfiler.GcSampling

The period of the thread that samples the garbage collection
(`JavaAgentHandler.cpp`).  The thread keeps the period as a time-stamp and,
after each sample, sleeps for what the sample has left of it.

The period is split into seconds and nano-seconds by `period - 1000`, where
`period % 1000` would be the rest of the division: the two agree below two
seconds.

* `KeepsPeriod` — what the thread is to do;
* `keepsPeriod_iff` — it does so for the periods below two seconds.
-/

namespace CloudProfiler

/-- `ts_temp` of `sampling_thread`. -/
def periodTS (temp : Timespec) (period : Int64) : Timespec :=
  { temp with
    tvSec := if period ≥ 1000 then period / 1000 else 0
    tvNsec := if period ≥ 1000 then (period - 1000) * 1000000 else period * 1000000 }

/-- The end of an iteration of `sampling_thread`, in which the sampler ran from
`start` to `stop`: the nano-seconds to sleep for, if any.  `diff` and
`duration` are the variables as the iteration before left them. -/
def samplingSleep (temp diff duration start stop : Timespec) : Option Int64 :=
  let diff := subtractTS diff start stop
  if compareTS temp diff > 0 then
    some (subtractTS duration diff temp).elapsedNs.toInt64
  else none

/-- The readings of the clock around a sample. -/
structure SampledBetween (start stop : Timespec) : Prop where
  start_normal : start.Normal
  stop_normal : stop.Normal
  le : start.ns ≤ stop.ns
  fits : stop.ns - start.ns < nsLimit

/-- The period is kept: as a time-stamp, and in every iteration. -/
structure KeepsPeriod (period : Int64) : Prop where
  normal : ∀ temp, (periodTS temp period).Normal
  total : ∀ temp, (periodTS temp period).ns = period.toInt * 1000000
  sleeps : ∀ temp diff duration start stop, SampledBetween start stop →
    stop.ns - start.ns < period.toInt * 1000000 →
      ∃ ns, samplingSleep (periodTS temp period) diff duration start stop = some ns ∧
        stop.ns - start.ns + ns.toInt = period.toInt * 1000000
  no_sleep : ∀ temp diff duration start stop, SampledBetween start stop →
    period.toInt * 1000000 ≤ stop.ns - start.ns →
      samplingSleep (periodTS temp period) diff duration start stop = none

section GcSampling

variable (temp diff duration : Timespec) {start stop : Timespec} {period : Int64}

/-- A period of less than a second. -/
theorem periodTS_toInt_of_lt (h0 : 0 ≤ period.toInt) (h : period.toInt < 1000) :
    (periodTS temp period).tvSec.toInt = 0 ∧
      (periodTS temp period).tvNsec.toInt = period.toInt * 1000000 := by
  have hlt : ¬ period ≥ 1000 := by
    rw [ge_iff_le, Int64.le_iff_toInt_le, show (1000 : Int64).toInt = 1000 from rfl]
    omega
  simp only [periodTS, if_neg hlt]
  constructor
  · rfl
  · rw [Int64.toInt_mul, show (1000000 : Int64).toInt = 1000000 from rfl]
    exact Int.bmod_eq_of_le (by omega) (by omega)

/-- A longer one: a second is taken off, whatever the quotient. -/
theorem periodTS_toInt_of_le (h : 1000 ≤ period.toInt) :
    (periodTS temp period).tvSec.toInt = period.toInt / 1000 ∧
      (periodTS temp period).tvNsec.toInt = ((period.toInt - 1000) * 1000000).bmod (2 ^ 64) := by
  have hlt := period.toInt_lt
  have hle : period ≥ 1000 := by
    rw [ge_iff_le, Int64.le_iff_toInt_le, show (1000 : Int64).toInt = 1000 from rfl]
    exact h
  simp only [periodTS, if_pos hle]
  constructor
  · rw [Int64.toInt_div, show (1000 : Int64).toInt = 1000 from rfl,
      Int.tdiv_eq_ediv_of_nonneg (by omega)]
    exact Int.bmod_eq_of_le (by omega) (by omega)
  · rw [Int64.toInt_mul, Int64.toInt_sub, show (1000 : Int64).toInt = 1000 from rfl,
      show (1000000 : Int64).toInt = 1000000 from rfl, Int.bmod_mul_bmod]

theorem periodTS_normal (h0 : 0 ≤ period.toInt) (h : period.toInt < 2000) :
    (periodTS temp period).Normal ∧ (periodTS temp period).ns = period.toInt * 1000000 := by
  unfold Timespec.Normal Timespec.ns
  by_cases hsec : period.toInt < 1000
  · obtain ⟨hs, hn⟩ := periodTS_toInt_of_lt temp h0 hsec
    omega
  · obtain ⟨hs, hn⟩ := periodTS_toInt_of_le temp (show 1000 ≤ period.toInt by omega)
    rw [Int.bmod_eq_of_le (by omega) (by omega)] at hn
    omega

/-- A number of seconds that wraps around to nothing. -/
theorem dvd_of_mul_seconds {q k : Int} (h : 1953125 * q = 36028797018963968 * k) :
    36028797018963968 ∣ q :=
  Int.dvd_of_dvd_mul_right_of_gcd_one (Dvd.intro k h.symm) (by decide +kernel)

/-- From two seconds on the total is wrong.  It is off by a number of seconds
less than `2 ^ 55`, which does not wrap around to nothing. -/
theorem ns_periodTS_ne (h : 2000 ≤ period.toInt) :
    (periodTS temp period).ns ≠ period.toInt * 1000000 := by
  have hlt := period.toInt_lt
  have hpos : 0 < period.toInt / 1000 - 1 := by omega
  have hsmall : period.toInt / 1000 - 1 < 36028797018963968 := by omega
  obtain ⟨hs, hn⟩ := periodTS_toInt_of_le temp (show 1000 ≤ period.toInt by omega)
  obtain ⟨k, hk⟩ := exists_bmod_eq ((period.toInt - 1000) * 1000000)
  rw [Timespec.ns, hs, hn, hk]
  intro htotal
  have hdiv := Int.mul_ediv_add_emod period.toInt 1000
  have hdvd := dvd_of_mul_seconds (q := period.toInt / 1000 - 1) (k := k) (by linarith)
  exact absurd (Int.le_of_dvd hpos hdvd) (Int.not_le.mpr hsmall)

/-- What a sample has taken. -/
theorem SampledBetween.took (h : SampledBetween start stop) :
    (subtractTS diff start stop).Normal ∧
      (subtractTS diff start stop).ns = stop.ns - start.ns := by
  have hwraps := wraps_subtractTS (r := diff) h.start_normal h.stop_normal
  have hle := h.le
  exact ⟨hwraps.normal, hwraps.ns_eq_iff.mpr ⟨by unfold nsLimit; omega, h.fits⟩⟩

/-- The sleep that is requested. -/
theorem toInt_samplingSleep (h : SampledBetween start stop) (htemp : temp.Normal)
    (hlt : temp.ns < 2 ^ 63) :
    (stop.ns - start.ns < temp.ns →
      ∃ ns, samplingSleep temp diff duration start stop = some ns ∧
        stop.ns - start.ns + ns.toInt = temp.ns) ∧
      (temp.ns ≤ stop.ns - start.ns → samplingSleep temp diff duration start stop = none) := by
  obtain ⟨hnormal, hns⟩ := h.took diff
  have hcompare := compareTS_pos_iff htemp hnormal
  unfold samplingSleep
  dsimp only
  constructor
  · intro hless
    rw [if_pos (hcompare.mpr (by omega))]
    refine ⟨_, rfl, ?_⟩
    have hsleep : ((subtractTS duration (subtractTS diff start stop) temp).elapsedNs.toNat : Int) =
        (temp.ns - (subtractTS diff start stop).ns) % 2 ^ 64 := toNat_elapsedNs_subtractTS
    have hle := h.le
    rw [toInt_toInt64 (by omega)]
    omega
  · intro hmore
    rw [if_neg (fun hpos => by have := hcompare.mp hpos; omega)]

end GcSampling

/-- **The period** of the samples is kept below two seconds, and never from
there on. -/
theorem keepsPeriod_iff (period : Int64) (h0 : 0 ≤ period.toInt) :
    KeepsPeriod period ↔ period.toInt < 2000 := by
  constructor
  · intro h
    by_contra hle
    exact ns_periodTS_ne ⟨0, 0, 0, 0, 0⟩ (Int.not_lt.mp hle) (h.total _)
  · intro hlt
    have htemp (temp : Timespec) := periodTS_normal temp h0 hlt
    have hsleep (temp diff duration start stop : Timespec) (h : SampledBetween start stop) :=
      toInt_samplingSleep _ diff duration h (htemp temp).1
        (by rw [(htemp temp).2]; omega)
    simp only [(htemp _).2] at hsleep
    exact
      { normal := fun temp => (htemp temp).1
        total := fun temp => (htemp temp).2
        sleeps := fun temp diff duration start stop h => (hsleep temp diff duration start stop h).1
        no_sleep := fun temp diff duration start stop h =>
          (hsleep temp diff duration start stop h).2 }

theorem keepsPeriod_second_and_half : KeepsPeriod 1500 :=
  (keepsPeriod_iff 1500 (by decide)).mpr (by decide)

/-- With two seconds the time-stamp holds three, and after a sample that took
no time the thread sleeps for three. -/
theorem samplingSleep_two_seconds :
    periodTS ⟨0, 0, 0, 0, 0⟩ 2000 = ⟨2, 1000000000, 0, 0, 0⟩ ∧
      samplingSleep (periodTS ⟨0, 0, 0, 0, 0⟩ 2000) ⟨0, 0, 0, 0, 0⟩ ⟨0, 0, 0, 0, 0⟩
        ⟨7, 0, 0, 0, 0⟩ ⟨7, 0, 0, 0, 0⟩ = some 3000000000 ∧
      ¬ KeepsPeriod 2000 :=
  ⟨by decide, by decide, fun h => absurd (h.normal ⟨0, 0, 0, 0, 0⟩) (by decide)⟩

end CloudProfiler
