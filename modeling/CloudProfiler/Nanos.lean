import CloudProfiler.Time

/-!
# CloudProfiler.Nanos

Time-stamps as integers: a `timespec` stands for a number of nano-seconds, and
the functions of `time.cpp` for the arithmetic on them, up to the overflow of
`tv_sec` and of the conversion to an `uint64_t`.

* `Timespec.ns`, `Timespec.Normal` — the number, and what the clock delivers;
* `ns_addTS_of_lt`, `ns_addTS_of_le` — `addTS` before and after the overflow;
* `toNat_elapsedNs_subtractTS` — the nano-seconds from one time to another;
* `ns_periodOfNs` — the way back;
* `divideTS_exact_iff` — `divideTS` divides, but for the end of one second;
* `wraps_subtractTS`, `compareTS_eq_sign` — differences and the order.
-/

namespace CloudProfiler

/-- The number of nano-seconds. -/
def Timespec.ns (t : Timespec) : Int := t.tvSec.toInt * 1000000000 + t.tvNsec.toInt

/-- The nano-seconds are less than a second. -/
def Timespec.Normal (t : Timespec) : Prop :=
  0 ≤ t.tvNsec.toInt ∧ t.tvNsec.toInt < 1000000000

instance (t : Timespec) : Decidable t.Normal := inferInstanceAs (Decidable (_ ∧ _))

/-- The seconds, of a sum of nano-seconds below the overflow. -/
def nsLimit : Int := 2 ^ 63 * 1000000000

section Nanos

variable {r t t1 t2 start stop : Timespec}

theorem toInt_nanoSPerS : nanoSPerS.toInt64.toInt = 1000000000 := by decide

/-- A wrapped sum differs by a multiple of the modulus. -/
theorem exists_bmod_eq (n : Int) : ∃ k, n.bmod (2 ^ 64) = n - 2 ^ 64 * k :=
  ⟨n.bdiv (2 ^ 64), by have := Int.bmod_add_bdiv n (2 ^ 64); omega⟩

theorem Timespec.ns_lt (h : t.Normal) : t.ns < nsLimit := by
  have := t.tvSec.toInt_lt
  have := h.2
  unfold Timespec.ns nsLimit
  omega

theorem Timespec.le_ns (h : t.Normal) : -nsLimit ≤ t.ns := by
  have := t.tvSec.le_toInt
  have := h.1
  unfold Timespec.ns nsLimit
  omega

/-- The sum of two numbers of nano-seconds. -/
theorem toInt_add_tvNsec (h1 : t1.Normal) (h2 : t2.Normal) :
    (t1.tvNsec + t2.tvNsec).toInt = t1.tvNsec.toInt + t2.tvNsec.toInt := by
  obtain ⟨hge1, hlt1⟩ := h1
  obtain ⟨hge2, hlt2⟩ := h2
  rw [Int64.toInt_add]
  exact Int.bmod_eq_of_le (by omega) (by omega)

/-- What `addTS` computes, with the seconds wrapped. -/
theorem addTS_toInt (h1 : t1.Normal) (h2 : t2.Normal) :
    (addTS r t1 t2).tvSec.toInt = ((t1.ns + t2.ns) / 1000000000).bmod (2 ^ 64) ∧
      (addTS r t1 t2).tvNsec.toInt = (t1.ns + t2.ns) % 1000000000 := by
  have hsum := toInt_add_tvNsec h1 h2
  obtain ⟨hge1, hlt1⟩ := h1
  obtain ⟨hge2, hlt2⟩ := h2
  unfold addTS
  dsimp only
  split
  · next hcarry =>
    rw [ge_iff_le, Int64.le_iff_toInt_le, toInt_nanoSPerS, hsum] at hcarry
    constructor
    · rw [Int64.toInt_add, Int64.toInt_add, show (1 : Int64).toInt = 1 from rfl, Int.bmod_add_bmod]
      congr 1
      unfold Timespec.ns
      omega
    · show (t1.tvNsec + t2.tvNsec - nanoSPerS.toInt64).toInt = _
      rw [Int64.toInt_sub, hsum, toInt_nanoSPerS,
        Int.bmod_eq_of_le (by omega) (by omega)]
      unfold Timespec.ns
      omega
  · next hcarry =>
    rw [ge_iff_le, Int64.le_iff_toInt_le, toInt_nanoSPerS, hsum] at hcarry
    constructor
    · rw [Int64.toInt_add]
      congr 1
      unfold Timespec.ns
      omega
    · show (t1.tvNsec + t2.tvNsec).toInt = _
      rw [hsum]
      unfold Timespec.ns
      omega

theorem normal_addTS (h1 : t1.Normal) (h2 : t2.Normal) : (addTS r t1 t2).Normal := by
  rw [Timespec.Normal, (addTS_toInt h1 h2).2]
  omega

/-- `addTS` adds, if the seconds do not overflow. -/
theorem ns_addTS_of_lt (h1 : t1.Normal) (h2 : t2.Normal) (hpos : 0 ≤ t2.ns)
    (hlt : t1.ns + t2.ns < nsLimit) : (addTS r t1 t2).ns = t1.ns + t2.ns := by
  have hge := Timespec.le_ns h1
  obtain ⟨hsec, hnsec⟩ := addTS_toInt (r := r) h1 h2
  unfold nsLimit at hge hlt
  rw [Timespec.ns, hsec, hnsec, Int.bmod_eq_of_le (by omega) (by omega)]
  omega

/-- `addTS` after the overflow of the seconds. -/
theorem ns_addTS_of_le (h1 : t1.Normal) (h2 : t2.Normal)
    (hle : nsLimit ≤ t1.ns + t2.ns) :
    (addTS r t1 t2).ns = t1.ns + t2.ns - 2 * nsLimit := by
  have hlt1 := Timespec.ns_lt h1
  have hlt2 := Timespec.ns_lt h2
  obtain ⟨hsec, hnsec⟩ := addTS_toInt (r := r) h1 h2
  obtain ⟨k, hk⟩ := exists_bmod_eq ((t1.ns + t2.ns) / 1000000000)
  have hlow := Int.le_bmod (x := (t1.ns + t2.ns) / 1000000000) (m := 2 ^ 64) (by decide)
  have hhigh := Int.bmod_lt (x := (t1.ns + t2.ns) / 1000000000) (m := 2 ^ 64) (by decide)
  unfold nsLimit at hle hlt1 hlt2 ⊢
  rw [Timespec.ns, hsec, hnsec]
  omega

/-- The conversion to unsigned nano-seconds. -/
theorem toNat_toUInt64 (v : Int64) : (v.toUInt64.toNat : Int) = v.toInt % 2 ^ 64 := by
  have hlt := v.toUInt64.toNat_lt
  have hv : v.toInt = (v.toUInt64.toNat : Int).bmod (2 ^ 64) :=
    BitVec.toInt_eq_toNat_bmod v.toBitVec
  obtain ⟨k, hk⟩ := exists_bmod_eq (v.toUInt64.toNat : Int)
  omega

theorem toNat_elapsedNs (t : Timespec) : (t.elapsedNs.toNat : Int) = t.ns % 2 ^ 64 := by
  have hsec := toNat_toUInt64 t.tvSec
  have hnsec := toNat_toUInt64 t.tvNsec
  unfold Timespec.elapsedNs Timespec.ns
  rw [UInt64.toNat_add, UInt64.toNat_mul, show nanoSPerS.toNat = 1000000000 from rfl]
  omega

/-- **The elapsed time** is the difference, modulo `2 ^ 64` nano-seconds. -/
theorem toNat_elapsedNs_subtractTS :
    ((subtractTS r start stop).elapsedNs.toNat : Int) = (stop.ns - start.ns) % 2 ^ 64 := by
  rw [toNat_elapsedNs]
  unfold subtractTS
  split
  · simp only [Timespec.ns, Int64.toInt_add, Int64.toInt_sub, toInt_nanoSPerS,
      show (1 : Int64).toInt = 1 from rfl, Int.bmod_sub_bmod, Int.bmod_add_bmod]
    obtain ⟨k, hk⟩ := exists_bmod_eq (stop.tvSec.toInt - start.tvSec.toInt - 1)
    obtain ⟨j, hj⟩ := exists_bmod_eq (stop.tvNsec.toInt - start.tvNsec.toInt + 1000000000)
    omega
  · simp only [Timespec.ns, Int64.toInt_sub]
    obtain ⟨k, hk⟩ := exists_bmod_eq (stop.tvSec.toInt - start.tvSec.toInt)
    obtain ⟨j, hj⟩ := exists_bmod_eq (stop.tvNsec.toInt - start.tvNsec.toInt)
    omega

/-- A small number keeps its value as a signed one. -/
theorem toInt_toInt64 {x : UInt64} (h : x.toNat < 2 ^ 63) : x.toInt64.toInt = x.toNat := by
  have hx : x.toInt64.toInt = (x.toNat : Int).bmod (2 ^ 64) :=
    BitVec.toInt_eq_toNat_bmod x.toBitVec
  rw [hx]
  exact Int.bmod_eq_of_le (by omega) (by omega)

theorem periodOfNs_toInt (x : UInt64) :
    (periodOfNs r x).tvSec.toInt = x.toNat / 1000000000 ∧
      (periodOfNs r x).tvNsec.toInt = x.toNat % 1000000000 := by
  have hlt := x.toNat_lt
  have hdiv : (x / nanoSPerS).toNat = x.toNat / 1000000000 := UInt64.toNat_div x nanoSPerS
  have hmod : (x % nanoSPerS).toNat = x.toNat % 1000000000 := UInt64.toNat_mod x nanoSPerS
  constructor
  · show (x / nanoSPerS).toInt64.toInt = _
    rw [toInt_toInt64 (by omega), hdiv]
    rfl
  · show (x % nanoSPerS).toInt64.toInt = _
    rw [toInt_toInt64 (by omega), hmod]
    rfl

theorem normal_periodOfNs (x : UInt64) : (periodOfNs r x).Normal := by
  rw [Timespec.Normal, (periodOfNs_toInt x).2]
  omega

theorem ns_periodOfNs (x : UInt64) : (periodOfNs r x).ns = x.toNat := by
  rw [Timespec.ns, (periodOfNs_toInt x).1, (periodOfNs_toInt x).2]
  omega

/-! ## quotients -/

variable {div : Int32}

theorem toNat_divisor (h : 0 < div.toInt) : (div.toInt64.toUInt64.toNat : Int) = div.toInt := by
  have hlt := div.toInt_lt
  rw [toNat_toUInt64, Int32.toInt_toInt64]
  omega

/-- The guard lets the seconds pass. -/
theorem divideTS_of_le (h0 : div ≠ 0) (hsec : t.tvSec.toInt ≤ 18446744073) :
    ∃ tsc, divideTS r t div =
      (0, periodOfNs { r with tsc := tsc } (t.elapsedNs / div.toInt64.toUInt64)) := by
  refine ⟨t.tsc / div.toInt64.toUInt64, ?_⟩
  have hguard : ¬ t.tvSec > (18446744073709551614 / nanoSPerS).toInt64 := by
    rw [gt_iff_lt, Int64.lt_iff_toInt_lt,
      show (18446744073709551614 / nanoSPerS).toInt64.toInt = 18446744073 by decide]
    omega
  rw [divideTS, if_neg (not_or.mpr ⟨h0, hguard⟩)]
  rfl

theorem divideTS_of_lt (hsec : 18446744073 < t.tvSec.toInt) : divideTS r t div = (-1, r) := by
  have hguard : t.tvSec > (18446744073709551614 / nanoSPerS).toInt64 := by
    rw [gt_iff_lt, Int64.lt_iff_toInt_lt,
      show (18446744073709551614 / nanoSPerS).toInt64.toInt = 18446744073 by decide]
    exact hsec
  rw [divideTS, if_pos (.inr hguard)]

/-- The quotient is exact, or refused because the nano-seconds do not fit in
64 bits. -/
structure DividesExactly (result t : Timespec) (div : Int32) : Prop where
  refused : (divideTS result t div).1 = -1 ↔ 2 ^ 64 ≤ t.ns
  returned : t.ns < 2 ^ 64 → (divideTS result t div).1 = 0
  normal : t.ns < 2 ^ 64 → (divideTS result t div).2.Normal
  exact : t.ns < 2 ^ 64 → (divideTS result t div).2.ns = t.ns / div.toInt

/-- **Division**, of a time-stamp that is not negative: the guard looks at the
seconds only, so the sums that overflow within its last second pass it.
Nothing is divided by zero. -/
theorem divideTS_exact_iff (result t : Timespec) (hsec : 0 ≤ t.tvSec.toInt) (hnormal : t.Normal) :
    (∀ div : Int32, 0 < div.toInt →
      (DividesExactly result t div ↔
        ¬ (t.tvSec.toInt = 18446744073 ∧ 709551616 ≤ t.tvNsec.toInt))) ∧
      divideTS result t 0 = (-1, result) := by
  obtain ⟨hn0, hn1⟩ := hnormal
  refine ⟨fun div hdiv => ?_, by rw [divideTS, if_pos (.inl rfl)]⟩
  by_cases hbig : 18446744073 < t.tvSec.toInt
  · -- refused, and too large
    have hns : 2 ^ 64 ≤ t.ns := by
      unfold Timespec.ns
      omega
    have hret : (divideTS result t div).1 = -1 := by rw [divideTS_of_lt hbig]
    refine iff_of_true ⟨iff_of_true hret hns, ?_, ?_, ?_⟩ (by omega) <;> omega
  · have h0 : div ≠ 0 := by
      rintro rfl
      exact absurd hdiv (by decide)
    obtain ⟨tsc, hret⟩ := divideTS_of_le (r := result) h0 (Int.not_lt.mp hbig)
    have hdiv0 := toNat_divisor hdiv
    have helapsed := toNat_elapsedNs t
    constructor
    · intro h hlast
      have hns : 2 ^ 64 ≤ t.ns := by
        unfold Timespec.ns
        omega
      have hminus := h.refused.mpr hns
      rw [hret] at hminus
      cases hminus
    · intro hlast
      have hns : t.ns < 2 ^ 64 := by
        unfold Timespec.ns
        omega
      have hpos : 0 ≤ t.ns := by
        unfold Timespec.ns
        omega
      refine ⟨?_, fun _ => ?_, fun _ => ?_, fun _ => ?_⟩ <;> rw [hret]
      · exact iff_of_false (show (0 : Int) ≠ -1 by decide) (by omega)
      · exact normal_periodOfNs _
      · have hnat : (t.elapsedNs.toNat : Int) = t.ns := by
          rw [helapsed]
          omega
        rw [ns_periodOfNs, UInt64.toNat_div, Int.natCast_ediv, hdiv0, hnat]

theorem divideTS_exact_half :
    DividesExactly ⟨0, 0, 0, 0, 0⟩ ⟨5, 0, 0, 0, 0⟩ 2 ∧
      divideTS ⟨0, 0, 0, 0, 0⟩ ⟨5, 0, 0, 0, 0⟩ 0 = (-1, ⟨0, 0, 0, 0, 0⟩) :=
  have h := divideTS_exact_iff ⟨0, 0, 0, 0, 0⟩ ⟨5, 0, 0, 0, 0⟩ (by decide) (by decide)
  ⟨(h.1 2 (by decide)).mpr (by decide), h.2⟩

/-- Half of a time-stamp of `2 ^ 64` nano-seconds is zero. -/
theorem divideTS_overflows :
    divideTS ⟨0, 0, 0, 0, 0⟩ ⟨18446744073, 709551616, 0, 0, 0⟩ 2 = (0, ⟨0, 0, 0, 0, 0⟩) ∧
      ¬ DividesExactly ⟨0, 0, 0, 0, 0⟩ ⟨18446744073, 709551616, 0, 0, 0⟩ 2 := by
  have hret : divideTS ⟨0, 0, 0, 0, 0⟩ ⟨18446744073, 709551616, 0, 0, 0⟩ 2 =
      (0, ⟨0, 0, 0, 0, 0⟩) := by decide
  refine ⟨hret, fun h => ?_⟩
  have hminus := h.refused.mpr (by decide)
  rw [hret] at hminus
  cases hminus

/-! ## differences and the order -/

/-- `t` holds `n` nano-seconds, the seconds wrapped. -/
structure Timespec.Wraps (t : Timespec) (n : Int) : Prop where
  sec : t.tvSec.toInt = (n / 1000000000).bmod (2 ^ 64)
  nsec : t.tvNsec.toInt = n % 1000000000

/-- The seconds of `n` nano-seconds fit in 64 bits. -/
def NsFits (n : Int) : Prop := -nsLimit ≤ n ∧ n < nsLimit

theorem Timespec.Wraps.normal {n : Int} (h : t.Wraps n) : t.Normal := by
  rw [Timespec.Normal, h.nsec]
  omega

theorem Timespec.Wraps.ns_eq_iff {n : Int} (h : t.Wraps n) : t.ns = n ↔ NsFits n := by
  have hge := Timespec.le_ns h.normal
  have hlt := Timespec.ns_lt h.normal
  constructor
  · intro hn
    rw [hn] at hge hlt
    exact ⟨hge, hlt⟩
  · intro ⟨hge, hlt⟩
    unfold nsLimit at hge hlt
    rw [Timespec.ns, h.sec, h.nsec, Int.bmod_eq_of_le (by omega) (by omega)]
    omega

theorem wraps_addTS (h1 : t1.Normal) (h2 : t2.Normal) : (addTS r t1 t2).Wraps (t1.ns + t2.ns) :=
  ⟨(addTS_toInt h1 h2).1, (addTS_toInt h1 h2).2⟩

theorem toInt_sub_tvNsec (h1 : start.Normal) (h2 : stop.Normal) :
    (stop.tvNsec - start.tvNsec).toInt = stop.tvNsec.toInt - start.tvNsec.toInt := by
  obtain ⟨hge1, hlt1⟩ := h1
  obtain ⟨hge2, hlt2⟩ := h2
  rw [Int64.toInt_sub]
  exact Int.bmod_eq_of_le (by omega) (by omega)

/-- What `subtractTS` computes, also when `stop` is before `start`. -/
theorem wraps_subtractTS (h1 : start.Normal) (h2 : stop.Normal) :
    (subtractTS r start stop).Wraps (stop.ns - start.ns) := by
  have hdiff := toInt_sub_tvNsec h1 h2
  obtain ⟨hge1, hlt1⟩ := h1
  obtain ⟨hge2, hlt2⟩ := h2
  unfold subtractTS
  split
  · next hborrow =>
    rw [Int64.lt_iff_toInt_lt, hdiff, show (0 : Int64).toInt = 0 from rfl] at hborrow
    constructor
    · show (stop.tvSec - start.tvSec - 1).toInt = _
      rw [Int64.toInt_sub, Int64.toInt_sub, show (1 : Int64).toInt = 1 from rfl, Int.bmod_sub_bmod]
      congr 1
      unfold Timespec.ns
      omega
    · show (stop.tvNsec - start.tvNsec + nanoSPerS.toInt64).toInt = _
      rw [Int64.toInt_add, hdiff, toInt_nanoSPerS, Int.bmod_eq_of_le (by omega) (by omega)]
      unfold Timespec.ns
      omega
  · next hborrow =>
    rw [Int64.lt_iff_toInt_lt, hdiff, show (0 : Int64).toInt = 0 from rfl] at hborrow
    constructor
    · show (stop.tvSec - start.tvSec).toInt = _
      rw [Int64.toInt_sub]
      congr 1
      unfold Timespec.ns
      omega
    · show (stop.tvNsec - start.tvNsec).toInt = _
      rw [hdiff]
      unfold Timespec.ns
      omega

/-- The order of time-stamps is the order of their nano-seconds. -/
theorem compareTS_eq_sign (h1 : t1.Normal) (h2 : t2.Normal) :
    compareTS t1 t2 = (t1.ns - t2.ns).sign := by
  obtain ⟨hge1, hlt1⟩ := h1
  obtain ⟨hge2, hlt2⟩ := h2
  unfold compareTS
  simp only [← Int64.toInt_inj, Int64.lt_iff_toInt_lt]
  split
  · next h =>
    rw [Int.sign_eq_zero_iff_zero.mpr]
    unfold Timespec.ns
    omega
  · next hne =>
    split
    · rw [Int.sign_eq_neg_one_of_neg]
      unfold Timespec.ns
      omega
    · rw [Int.sign_eq_one_of_pos]
      unfold Timespec.ns
      omega

theorem compareTS_pos_iff (h1 : t1.Normal) (h2 : t2.Normal) :
    0 < compareTS t1 t2 ↔ t2.ns < t1.ns := by
  rw [compareTS_eq_sign h1 h2, Int.sign_pos_iff]
  omega

theorem compareTS_neg_iff (h1 : t1.Normal) (h2 : t2.Normal) :
    compareTS t1 t2 < 0 ↔ t1.ns < t2.ns := by
  rw [compareTS_eq_sign h1 h2, Int.sign_neg_iff]
  omega

end Nanos

end CloudProfiler
