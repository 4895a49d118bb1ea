import CloudProfiler.Handler.Closed
import CloudProfiler.Nanos

/-!
# CloudProfiler.Handler.XoY

What the parameter handler of XOY takes for a pair of factors
(`XoY_handler.cpp`).  The handler masks a tuple instead of dividing it, which
is right for `0 < X <= Y` with `Y` a power of two.

`checkConsistency` compares unsigned numbers, and looks for the power of two
in a `double`: zero and negative values pass it, and so do the numbers that
are rounded to a power of two.

* `toDouble_eq_two_pow_iff` — what is rounded to a power of two;
* `XoYClosure.Validates` — a value is accepted exactly if it should be;
* `XoYClosure.Consistent` — the factors fit together;
* `xoy_validates_iff` — where the two hold.
-/

namespace CloudProfiler

/-! ## rounding to a double -/

/-- `n` is rounded to `2 ^ k`: below, the numbers are `2 ^ (k - 53)` apart,
and above, `2 ^ (k - 52)`. -/
def NearPow (n k : Nat) : Prop := 2 ^ k - 2 ^ k / 2 ^ 54 ≤ n ∧ n ≤ 2 ^ k + 2 ^ k / 2 ^ 53

instance (n k : Nat) : Decidable (NearPow n k) := inferInstanceAs (Decidable (_ ∧ _))

theorem two_pow_le_of_lt {j k : Nat} (h : j < k) : 2 * 2 ^ j ≤ 2 ^ k := by
  have := Nat.pow_le_pow_right (show 0 < 2 by decide) (Nat.succ_le_of_lt h)
  rwa [Nat.pow_succ, Nat.mul_comm] at this

/-- Below `2 ^ 53` the powers of two stand alone. -/
theorem nearPow_iff_of_lt {n k : Nat} (hn : n < 2 ^ 53) : NearPow n k ↔ n = 2 ^ k := by
  unfold NearPow
  by_cases hk : k < 53
  · have := two_pow_le_of_lt hk
    omega
  · have := Nat.pow_le_pow_right (show 0 < 2 by decide) (Nat.not_lt.mp hk)
    omega

/-- From `2 ^ 53` on, in the steps of the binade. -/
theorem nearPow_iff_of_le {n k e : Nat} (hlo : 2 ^ 53 * 2 ^ e ≤ n) (hhi : n < 2 ^ 54 * 2 ^ e) :
    NearPow n k ↔
      k = 53 + e ∧ n ≤ 2 ^ 53 * 2 ^ e + 2 ^ e ∨ k = 54 + e ∧ 2 ^ 54 * 2 ^ e - 2 ^ e ≤ n := by
  unfold NearPow
  have hpos := Nat.two_pow_pos e
  have h53 := Nat.pow_add 2 53 e
  have h54 := Nat.pow_add 2 54 e
  obtain hk | rfl | hk := Nat.lt_trichotomy k (53 + e)
  · have := two_pow_le_of_lt hk
    omega
  · omega
  · obtain rfl | hk' : k = 54 + e ∨ 54 + e < k := by omega
    · omega
    · have := two_pow_le_of_lt hk'
      omega

/-- A number from `2 ^ 53` on is `q` steps of its binade and a rest. -/
theorem toDouble_of_le {n : Nat} (hn : 2 ^ 53 ≤ n) : ∃ e q r, n = q * (2 * 2 ^ e) + r ∧
    2 ^ 52 ≤ q ∧ q < 2 ^ 53 ∧ r < 2 * 2 ^ e ∧
    toDouble n = (if r > 2 ^ e ∨ r = 2 ^ e ∧ q % 2 = 1 then q + 1 else q) * (2 * 2 ^ e) := by
  have hne : n ≠ 0 := by omega
  have hlog : 53 ≤ n.log2 := (Nat.le_log2 hne).mpr hn
  obtain ⟨e, he⟩ := Nat.exists_eq_add_of_le hlog
  have hlo := Nat.log2_self_le hne
  have hhi := Nat.lt_log2_self (n := n)
  have hsub : n.log2 - 52 = e + 1 := by omega
  have hpow : 2 ^ (e + 1) = 2 * 2 ^ e := by rw [Nat.pow_succ, Nat.mul_comm]
  rw [show n.log2 = 52 + (e + 1) by omega, Nat.pow_add] at hlo
  rw [show n.log2 + 1 = 53 + (e + 1) by omega, Nat.pow_add] at hhi
  refine ⟨e, n / 2 ^ (e + 1), n % 2 ^ (e + 1), ?_, ?_, ?_, ?_, ?_⟩
  · rw [← hpow, Nat.div_add_mod']
  · exact (Nat.le_div_iff_mul_le (Nat.two_pow_pos _)).mpr hlo
  · exact (Nat.div_lt_iff_lt_mul (Nat.two_pow_pos _)).mpr hhi
  · rw [← hpow]
    exact Nat.mod_lt _ (Nat.two_pow_pos _)
  · rw [toDouble, if_neg (by omega), hsub, ← hpow]
    rfl

/-- The lowest number of a binade is what the lowest numbers are rounded to. -/
theorem rounded_eq_low_iff {q r w : Nat} (hq : 2 ^ 52 ≤ q) (hw : 0 < w) :
    (if r > w ∨ r = w ∧ q % 2 = 1 then q + 1 else q) = 2 ^ 52 ↔
      q * (2 * w) + r ≤ 2 ^ 53 * w + w := by
  by_cases hlow : q = 2 ^ 52
  · subst hlow
    split <;> omega
  · have := Nat.mul_le_mul_right (2 * w) (show 2 ^ 52 + 1 ≤ q by omega)
    split <;> omega

/-- The next power of two is what the highest numbers are rounded to. -/
theorem rounded_eq_high_iff {q r w : Nat} (hq : q < 2 ^ 53) (hr : r < 2 * w) :
    (if r > w ∨ r = w ∧ q % 2 = 1 then q + 1 else q) = 2 ^ 53 ↔
      2 ^ 54 * w - w ≤ q * (2 * w) + r := by
  by_cases hhigh : q = 2 ^ 53 - 1
  · subst hhigh
    split <;> omega
  · have := Nat.mul_le_mul_right (2 * w) (show q + 2 ≤ 2 ^ 53 by omega)
    rw [Nat.add_mul] at this
    split <;> omega

/-- **What is rounded to a power of two.** -/
theorem toDouble_eq_two_pow_iff {n k : Nat} : toDouble n = 2 ^ k ↔ NearPow n k := by
  by_cases hn : n < 2 ^ 53
  · rw [nearPow_iff_of_lt hn, toDouble, if_pos hn]
  · obtain ⟨e, q, r, rfl, hlo, hhi, hr, hd⟩ := toDouble_of_le (Nat.not_lt.mp hn)
    have hpos := Nat.two_pow_pos e
    have hq := Nat.mul_le_mul_right (2 * 2 ^ e) hlo
    have hq' := Nat.mul_le_mul_right (2 * 2 ^ e) (Nat.succ_le_of_lt hhi)
    rw [Nat.succ_mul] at hq'
    rw [nearPow_iff_of_le (e := e) (by omega) (by omega), hd, ← rounded_eq_low_iff hlo hpos,
      ← rounded_eq_high_iff hhi hr]
    generalize hp : (if r > 2 ^ e ∨ r = 2 ^ e ∧ q % 2 = 1 then q + 1 else q) = p
    have h53 : 2 ^ (53 + e) = 2 ^ 52 * (2 * 2 ^ e) := by rw [Nat.pow_add]; omega
    have h54 : 2 ^ (54 + e) = 2 ^ 53 * (2 * 2 ^ e) := by rw [Nat.pow_add]; omega
    constructor
    · intro heq
      -- the exponent is one of the two that bound the binade
      have hple : 2 ^ 52 ≤ p ∧ p ≤ 2 ^ 53 := by
        rw [← hp]
        split <;> omega
      have hk : 53 + e ≤ k := by
        rw [← Nat.pow_le_pow_iff_right (a := 2) (by decide), h53, ← heq]
        exact Nat.mul_le_mul_right _ hple.1
      have hk' : k ≤ 54 + e := by
        rw [← Nat.pow_le_pow_iff_right (a := 2) (by decide), h54, ← heq]
        exact Nat.mul_le_mul_right _ hple.2
      obtain rfl | rfl : k = 53 + e ∨ k = 54 + e := by omega
      · exact .inl ⟨rfl, Nat.eq_of_mul_eq_mul_right (by omega) (heq.trans h53)⟩
      · exact .inr ⟨rfl, Nat.eq_of_mul_eq_mul_right (by omega) (heq.trans h54)⟩
    · rintro (⟨rfl, rfl⟩ | ⟨rfl, rfl⟩)
      · exact h53.symm
      · exact h54.symm

/-- **What passes for a power of two**: zero, and what is rounded to one. -/
theorem passesLog2_toDouble_iff {n : Nat} :
    passesLog2 (toDouble n) = true ↔ n = 0 ∨ ∃ k, NearPow n k := by
  have hzero : toDouble n = 0 ↔ n = 0 := by
    by_cases hn : n < 2 ^ 53
    · rw [toDouble, if_pos hn]
    · obtain ⟨e, q, r, -, hlo, -, -, hd⟩ := toDouble_of_le (Nat.not_lt.mp hn)
      refine iff_of_false (fun h0 => ?_) (by omega)
      rw [hd] at h0
      have hpos := Nat.two_pow_pos e
      obtain h | h := Nat.mul_eq_zero.mp h0
      · split at h <;> omega
      · omega
  simp only [passesLog2, Bool.or_eq_true, beq_iff_eq, hzero, ← toDouble_eq_two_pow_iff]
  refine or_congr_right ⟨fun h => ⟨_, h.symm⟩, ?_⟩
  rintro ⟨k, hk⟩
  rw [hk, Nat.log2_two_pow]

/-! ## one argument -/

/-- `v` is a power of two. -/
def IsPow (v : Int64) : Prop := ∃ k : Nat, v.toInt = 2 ^ k

/-- `v` is not a power of two and passes for one: it is zero, or it is rounded
to a power of two as an unsigned number. -/
def Misread (v : Int64) : Prop := ¬ IsPow v ∧ (v = 0 ∨ ∃ k, NearPow v.toUInt64.toNat k)

namespace XoYClosure

/-- The values that are right for an argument: X from 1 to `y_factor`, Y a
power of two from `x_factor` on. -/
def Admits (cl : XoYClosure) (number : Int32) (v : Int64) : Prop :=
  if number = 0 then 0 < v.toInt ∧ v.toInt ≤ cl.yFactor.toNat
  else IsPow v ∧ (cl.xFactor.toNat : Int) ≤ v.toInt

/-- The factors and the mask after argument `number` was set to `v`. -/
def assigned (cl : XoYClosure) (number : Int32) (v : Int64) : UInt64 × UInt64 × UInt64 :=
  if number = 0 then (v.toUInt64, cl.yFactor, cl.yMask)
  else (cl.xFactor, v.toUInt64, v.toUInt64 - 1)

/-- The factors and the mask. -/
def factors (cl : XoYClosure) : UInt64 × UInt64 × UInt64 := (cl.xFactor, cl.yFactor, cl.yMask)

/-- **A value is accepted exactly if it is right**: the factor is updated if
it is accepted, and if not, the factors stay as they are and the channel is
closed. -/
structure Validates (cl : XoYClosure) (a : Arg) : Prop where
  accepts : (setArgXoYHandler cl a).1 = 0 ↔ cl.Admits a.number a.value
  returns : (setArgXoYHandler cl a).1 = 0 ∨ (setArgXoYHandler cl a).1 = -1
  updates : (setArgXoYHandler cl a).1 = 0 →
    (setArgXoYHandler cl a).2.factors = cl.assigned a.number a.value ∧
      (setArgXoYHandler cl a).2.base = cl.base
  refuses : (setArgXoYHandler cl a).1 = -1 → (setArgXoYHandler cl a).2.factors = cl.factors ∧
    (setArgXoYHandler cl a).2.base = cl.base.closeChannel

/-- Where a value is not taken for another one: X is positive, or too large as
an unsigned number; Y is not misread, or too small as an unsigned number. -/
def Clear (cl : XoYClosure) (number : Int32) (v : Int64) : Prop :=
  if number = 0 then 0 < v.toInt ∨ cl.yFactor < v.toUInt64
  else ¬ Misread v ∨ v.toUInt64 < cl.xFactor

/-- `y_factor` passes for a power of two. -/
def Passes (cl : XoYClosure) : Prop := passesLog2 (toDouble cl.yFactor.toNat) = true

/-- The factors fit together. -/
structure Consistent (cl : XoYClosure) : Prop where
  x_pos : 0 < cl.xFactor.toNat
  x_le : cl.xFactor.toNat ≤ cl.yFactor.toNat
  y_pow : ∃ k, cl.yFactor.toNat = 2 ^ k ∧ cl.yMask.toNat = 2 ^ k - 1

variable {cl : XoYClosure} {a : Arg}

/-- The two ways to read a word. -/
theorem toInt_cases (v : Int64) :
    v.toInt = v.toUInt64.toNat ∨ v.toInt < 0 ∧ v.toInt = v.toUInt64.toNat - 2 ^ 64 := by
  have h := toNat_toUInt64 v
  have hlo := v.le_toInt
  have hhi := v.toInt_lt
  omega

theorem isPow_iff {v : Int64} : IsPow v ↔ 0 < v.toInt ∧ ∃ k, v.toUInt64.toNat = 2 ^ k := by
  have hread := toInt_cases v
  have hlt := v.toUInt64.toNat_lt
  constructor
  · rintro ⟨k, hk⟩
    have hpos : (0 : Int) < 2 ^ k := by exact_mod_cast Nat.two_pow_pos k
    have heq : v.toInt = v.toUInt64.toNat := by omega
    exact ⟨by omega, k, by exact_mod_cast heq.symm.trans hk⟩
  · rintro ⟨hpos, k, hk⟩
    refine ⟨k, ?_⟩
    have heq : v.toInt = v.toUInt64.toNat := by omega
    rw [heq, hk]
    push_cast
    rfl

theorem passes_iff {v : Int64} : passesLog2 (toDouble v.toUInt64.toNat) = true ↔
    IsPow v ∨ Misread v := by
  rw [passesLog2_toDouble_iff]
  have hzero : v.toUInt64.toNat = 0 ↔ v = 0 := by
    rw [← Int64.toInt_inj, show (0 : Int64).toInt = 0 by decide]
    have := toNat_toUInt64 v
    have hlo := v.le_toInt
    have hhi := v.toInt_lt
    omega
  have hpow : IsPow v → ∃ k, NearPow v.toUInt64.toNat k := by
    intro h
    obtain ⟨-, k, hk⟩ := isPow_iff.mp h
    exact ⟨k, by rw [hk]; exact Nat.sub_le _ _, by rw [hk]; exact Nat.le_add_right _ _⟩
  rw [hzero, Misread]
  tauto

/-- What the call for one argument comes to. -/
theorem setArg_one (ha : a.number = 0 ∨ a.number = 1) :
    setArgXoYHandler cl a = setOneXoY cl a.number a.value := by
  obtain h | h := ha <;> simp [setArgXoYHandler, h]

/-- Whatever is accepted, the rest is as it should be. -/
theorem validates_iff_accepts (ha : a.number = 0 ∨ a.number = 1) :
    cl.Validates a ↔ ((setOneXoY cl a.number a.value).1 = 0 ↔ cl.Admits a.number a.value) := by
  rw [← setArg_one ha]
  refine ⟨fun h => h.accepts, fun h => ⟨h, ?_, ?_, ?_⟩⟩ <;> rw [setArg_one ha, setOneXoY]
  · split <;> split <;> simp
  · split <;> split <;> simp [factors, assigned, *]
  · split <;> split <;> simp [factors]

/-- Argument 0: what is not above `y_factor` as an unsigned number. -/
theorem setOne_zero_iff (hy : cl.Passes) {v : Int64} :
    (setOneXoY cl 0 v).1 = 0 ↔ v.toUInt64 ≤ cl.yFactor := by
  have h := checkConsistency_eq_true (x := v.toUInt64) (y := cl.yFactor)
  rw [and_iff_left (show passesLog2 (toDouble cl.yFactor.toNat) = true from hy)] at h
  rw [setOneXoY, if_pos rfl, ← h]
  split <;> simp [*]

/-- Argument 1: what is not below `x_factor` as an unsigned number and passes
for a power of two. -/
theorem setOne_one_iff {v : Int64} :
    (setOneXoY cl 1 v).1 = 0 ↔ cl.xFactor ≤ v.toUInt64 ∧ (IsPow v ∨ Misread v) := by
  rw [setOneXoY, if_neg (by decide), ← passes_iff, ← checkConsistency_eq_true]
  split <;> simp [*]

/-- **One argument is validated** exactly if its value is not taken for
another one. -/
theorem validates_iff_clear (hy : cl.Passes) (ha : a.number = 0 ∨ a.number = 1) :
    cl.Validates a ↔ cl.Clear a.number a.value := by
  rw [validates_iff_accepts ha]
  have hread := toInt_cases a.value
  obtain h | h := ha <;> rw [h]
  · rw [setOne_zero_iff hy, Admits, Clear, if_pos rfl, if_pos rfl, UInt64.le_iff_toNat_le,
      UInt64.lt_iff_toNat_lt]
    omega
  · rw [setOne_one_iff, Admits, Clear, if_neg (by decide), if_neg (by decide),
      UInt64.le_iff_toNat_le, UInt64.lt_iff_toNat_lt]
    by_cases hpow : IsPow a.value
    · have hpos := (isPow_iff.mp hpow).1
      have hmis : ¬ Misread a.value := fun h => h.1 hpow
      simp only [hpow, hmis, true_or, and_true, true_and, not_false_eq_true, iff_true]
      omega
    · simp only [hpow, false_or, false_and, iff_false, not_and]
      rw [or_comm, ← Nat.not_le, imp_iff_not_or]

/-! ## all arguments -/

/-- What `setArgXoYHandler` comes to: it refuses the number of the argument or
of the arguments, or sets one of them, or argument 1 and then argument 0. -/
inductive SetArg (cl : XoYClosure) (a : Arg) : Int × XoYClosure → Prop
  | refused : SetArg cl a (-1, { cl with base := cl.base.closeChannel })
  | ignored : SetArg cl a (-1, cl)
  | one (hn : a.number = 0 ∨ a.number = 1) : SetArg cl a (setOneXoY cl a.number a.value)
  | first (hn : a.number = -1) (hpar : a.par 0 = 2) :
      SetArg cl a (-1, (setOneXoY cl 1 (a.par 2).toInt64).2)
  | both (hn : a.number = -1) (hpar : a.par 0 = 2)
      (hret : (setOneXoY cl 1 (a.par 2).toInt64).1 = 0) :
      SetArg cl a (setOneXoY (setOneXoY cl 1 (a.par 2).toInt64).2 0 (a.par 1).toInt64)

/-- A single argument is accepted or refused. -/
theorem setOne_returns (cl : XoYClosure) (number : Int32) (v : Int64) :
    (setOneXoY cl number v).1 = 0 ∨ (setOneXoY cl number v).1 = -1 := by
  unfold setOneXoY
  split <;> split <;> simp

/-- A refused argument closes the channel and changes nothing else. -/
theorem setOne_refused {cl : XoYClosure} {number : Int32} {v : Int64}
    (h : (setOneXoY cl number v).1 = -1) :
    (setOneXoY cl number v).2 = { cl with base := cl.base.closeChannel } := by
  unfold setOneXoY at h ⊢
  split at h <;> split at h <;> simp_all

theorem setArg_cases (cl : XoYClosure) (a : Arg) : SetArg cl a (setArgXoYHandler cl a) := by
  unfold setArgXoYHandler
  split
  · exact .refused
  · split
    · next hn =>
      split
      · exact .ignored
      · next hpar =>
        have hpar' : a.par 0 = 2 := not_not.mp hpar
        dsimp only
        split
        · exact .first hn hpar'
        · next hret => exact .both hn hpar' ((setOne_returns _ _ _).resolve_right hret)
    · exact .one (by tauto)

/-- What a call does to a channel: it writes to the file or closes it, and may
then set arguments. -/
theorem step_cases {cl cl' : XoYClosure} {l : Env × Call} (hs : xoyType.step cl l = some cl') :
    ∃ b, (cl.base.Written b ∨ b = cl.base.closeChannel) ∧ (cl' = { cl with base := b } ∨
      ∃ a ∈ l.2.arg, cl' = (setArgXoYHandler { cl with base := b } a).2) := by
  obtain ⟨env, c⟩ := l
  have hsame : cl.base.Written cl.base := Base.written_refl
  cases c with
  | logTS tuple =>
      simp only [ChannelType.step, ChannelType.logTS] at hs
      split at hs
      · exact ⟨_, .inr rfl, .inl (Option.some.inj hs).symm⟩
      · split at hs
        · exact ⟨cl.base, .inl hsame, .inl (Option.some.inj hs).symm⟩
        · simp only [xoyType, handler, Option.some.injEq] at hs
          split at hs
          · exact ⟨_, .inl (Base.written_put _), .inl hs.symm⟩
          · exact ⟨cl.base, .inl hsame, .inl hs.symm⟩
  | closeChannel | closeAllChannels => exact ⟨_, .inr rfl, .inl (Option.some.inj hs).symm⟩
  | parameterizeChannel a => exact ⟨cl.base, .inl hsame, .inr ⟨a, rfl, (Option.some.inj hs).symm⟩⟩
  | parameterizeChannelStr valid later a =>
      cases valid with
      | true => exact ⟨cl.base, .inl hsame, .inr ⟨a, rfl, (Option.some.inj hs).symm⟩⟩
      | false => exact ⟨_, .inr rfl, .inr ⟨a, rfl, (Option.some.inj hs).symm⟩⟩

theorem passes_init : initXoYHandler.Passes := by
  show passesLog2 (toDouble 16384) = true
  decide +kernel

/-- What passes for a power of two does so after every single argument. -/
theorem Passes.setOne {cl : XoYClosure} (h : cl.Passes) (number : Int32) (v : Int64) :
    (setOneXoY cl number v).2.Passes := by
  unfold setOneXoY
  split
  · split <;> exact h
  · split
    · next hc => exact (checkConsistency_eq_true.mp hc).2
    · exact h

/-- **Step lemma**: whatever is set, `y_factor` passes for a power of two. -/
theorem Passes.step {cl cl' : XoYClosure} {l : Env × Call} (h : cl.Passes)
    (hs : xoyType.step cl l = some cl') : cl'.Passes := by
  obtain ⟨b, -, rfl | ⟨a, -, rfl⟩⟩ := step_cases hs
  · exact h
  · have hb : Passes { cl with base := b } := h
    obtain ⟨r, hr⟩ : ∃ r, setArgXoYHandler { cl with base := b } a = r := ⟨_, rfl⟩
    have hcase := setArg_cases { cl with base := b } a
    rw [hr] at hcase ⊢
    cases hcase with
    | refused | ignored => exact hb
    | one | first => exact hb.setOne _ _
    | both => exact (hb.setOne _ _).setOne _ _

/-- Where no value a call sets is taken for another one: with all arguments
at once, X is compared with the new Y if that is accepted. -/
def ClearArg (cl : XoYClosure) (a : Arg) : Prop :=
  if a.number = -1 then
    a.par 0 = 2 → cl.Clear 1 (a.par 2).toInt64 ∧ (cl.Admits 1 (a.par 2).toInt64 →
      { cl with yFactor := a.par 2 }.Clear 0 (a.par 1).toInt64)
  else a.number = 0 ∨ a.number = 1 → cl.Clear a.number a.value

/-- The guard of a run: no value is taken for another one. -/
def ClearCall (cl : XoYClosure) (l : Env × Call) : Prop := ∀ a ∈ l.2.arg, cl.ClearArg a

theorem Consistent.passes {cl : XoYClosure} (h : cl.Consistent) : cl.Passes := by
  obtain ⟨k, hk, -⟩ := h.y_pow
  refine passesLog2_toDouble_iff.mpr (.inr ⟨k, ?_⟩)
  rw [hk]
  exact ⟨Nat.sub_le _ _, Nat.le_add_right _ _⟩

/-- The file does not matter. -/
theorem Consistent.base {cl : XoYClosure} (h : cl.Consistent) (b : Base (Int64 × Timespec)) :
    Consistent { cl with base := b } :=
  ⟨h.x_pos, h.x_le, h.y_pow⟩

/-- A clear value leaves the factors consistent, whether it is accepted or
not. -/
theorem Consistent.setOne {cl : XoYClosure} (h : cl.Consistent) {number : Int32} {v : Int64}
    (hn : number = 0 ∨ number = 1) (hclear : cl.Clear number v) :
    (setOneXoY cl number v).2.Consistent := by
  have hread := toInt_cases v
  obtain rfl | rfl := hn <;> unfold setOneXoY
  · rw [if_pos rfl]
    rw [Clear, if_pos rfl, UInt64.lt_iff_toNat_lt] at hclear
    split
    · next hc =>
      have hle := UInt64.le_iff_toNat_le.mp (checkConsistency_eq_true.mp hc).1
      refine ⟨?_, hle, h.y_pow⟩
      show 0 < v.toUInt64.toNat
      omega
    · exact h.base _
  · rw [if_neg (by decide)]
    rw [Clear, if_neg (by decide), UInt64.lt_iff_toNat_lt] at hclear
    split
    · next hc =>
      obtain ⟨hle, hpass⟩ := checkConsistency_eq_true.mp hc
      have hle' := UInt64.le_iff_toNat_le.mp hle
      have hpow : IsPow v :=
        (passes_iff.mp hpass).resolve_right (hclear.resolve_right (Nat.not_lt.mpr hle'))
      obtain ⟨-, k, hk⟩ := isPow_iff.mp hpow
      refine ⟨h.x_pos, hle', k, hk, ?_⟩
      show (v.toUInt64 - 1).toNat = 2 ^ k - 1
      rw [UInt64.toNat_sub_of_le, hk]
      · rfl
      · rw [UInt64.le_iff_toNat_le, hk]
        exact Nat.one_le_two_pow
    · exact h.base _

/-- The new Y, if it is accepted. -/
theorem yFactor_setOne {cl : XoYClosure} {v : Int64} (hret : (setOneXoY cl 1 v).1 = 0) :
    (setOneXoY cl 1 v).2.yFactor = v.toUInt64 := by
  rw [setOneXoY, if_neg (by decide)] at hret ⊢
  split at hret
  · next hc => rw [if_pos hc]
  · cases hret

/-- **Step lemma**: clear values keep the factors consistent. -/
theorem Consistent.step {cl cl' : XoYClosure} {l : Env × Call} (h : cl.Consistent)
    (hok : ClearCall cl l) (hs : xoyType.step cl l = some cl') : cl'.Consistent := by
  obtain ⟨b, -, rfl | ⟨a, ha, rfl⟩⟩ := step_cases hs
  · exact h.base b
  · have hb := h.base b
    have hclear : ClearArg { cl with base := b } a := hok a ha
    obtain ⟨r, hr⟩ : ∃ r, setArgXoYHandler { cl with base := b } a = r := ⟨_, rfl⟩
    have hcase := setArg_cases { cl with base := b } a
    rw [hr] at hcase ⊢
    cases hcase with
    | refused => exact h.base _
    | ignored => exact hb
    | one hn =>
        have hne : a.number ≠ -1 := by obtain h | h := hn <;> rw [h] <;> decide
        rw [ClearArg, if_neg hne] at hclear
        exact hb.setOne hn (hclear hn)
    | first hn hpar =>
        rw [ClearArg, if_pos hn] at hclear
        exact hb.setOne (.inr rfl) (hclear hpar).1
    | both hn hpar hret =>
        rw [ClearArg, if_pos hn] at hclear
        obtain ⟨hy, hx⟩ := hclear hpar
        have hadm := (validates_iff_accepts (a := ⟨1, (a.par 2).toInt64, fun _ => 0⟩)
          (.inr rfl)).mp ((validates_iff_clear hb.passes (.inr rfl)).mpr hy)
        refine (hb.setOne (.inr rfl) hy).setOne (.inl rfl) ?_
        have hx' := hx (hadm.mp hret)
        rw [Clear, if_pos rfl] at hx' ⊢
        rw [yFactor_setOne hret]
        exact hx'

end XoYClosure

open XoYClosure in
/-- **Where XOY validates its parameters**: an argument is accepted exactly if
it should be, if and only if it is not taken for another one; and the factors
fit together as long as none was.  The header lists zero and negative values
among the errors. -/
theorem xoy_validates_iff (cl : XoYClosure) :
    (Reach xoyType.step initXoYHandler anyStep cl → ∀ a, a.number = 0 ∨ a.number = 1 →
      (cl.Validates a ↔ cl.Clear a.number a.value)) ∧
    (Reach xoyType.step initXoYHandler ClearCall cl → cl.Consistent) := by
  constructor
  · intro hr a ha
    exact validates_iff_clear (hr.invariant passes_init fun _ _ _ h _ hs => h.step hs) ha
  · intro hr
    exact hr.invariant (I := Consistent) ⟨by decide, by decide, 14, by decide, by decide⟩
      fun _ _ _ h hok hs => h.step hok hs

/-- A fresh channel takes 5 for X. -/
theorem xoy_validates_five :
    initXoYHandler.Validates (.one 0 5) ∧ initXoYHandler.Consistent := by
  obtain ⟨hiff, hcons⟩ := xoy_validates_iff initXoYHandler
  exact ⟨(hiff .init (.one 0 5) (.inl rfl)).mpr (.inl (by decide)), hcons .init⟩

/-- Zero is accepted for X, and for Y a negative number and one that is not a
power of two. -/
theorem xoy_misreads :
    ¬ initXoYHandler.Validates (.one 0 0) ∧ ¬ initXoYHandler.Validates (.one 1 (-1)) ∧
      ¬ initXoYHandler.Validates (.one 1 9007199254740993) ∧
      ∃ cl, Reach xoyType.step initXoYHandler anyStep cl ∧ cl.base.isOpen = true ∧
        ¬ cl.Consistent := by
  refine ⟨fun h => ?_, fun h => ?_, fun h => ?_, ?_⟩
  · exact absurd (h.accepts.mp (by decide)).1 (by decide)
  · obtain ⟨hpow, -⟩ := h.accepts.mp (by decide)
    exact absurd (XoYClosure.isPow_iff.mp hpow).1 (by decide)
  · obtain ⟨hpow, -⟩ := h.accepts.mp (by decide)
    obtain ⟨-, k, hk⟩ := XoYClosure.isPow_iff.mp hpow
    have hval : 2 ^ k = 2 ^ 53 + 1 := hk.symm
    obtain hlt | hge := Nat.lt_or_ge k 54
    · have := Nat.pow_le_pow_right (show 0 < 2 by decide) (Nat.le_of_lt_succ hlt)
      omega
    · have := Nat.pow_le_pow_right (show 0 < 2 by decide) hge
      omega
  · refine ⟨(setArgXoYHandler initXoYHandler (.one 0 0)).2,
      .step .init trivial (l := (⟨⟨0, 0, 0, 0, 0⟩, ⟨0, 0⟩, fun _ => ⟨0, 0, 0, 0, 0⟩⟩,
        .parameterizeChannel (.one 0 0)))
        rfl, rfl, fun h => ?_⟩
    exact absurd h.x_pos (by decide)

end CloudProfiler
