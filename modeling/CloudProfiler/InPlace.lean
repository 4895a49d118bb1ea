import CloudProfiler.Elapsed
import CloudProfiler.Nanos
import Mathlib.Logic.Function.Basic

/-!
# CloudProfiler.InPlace

`addTS` and `subtractTS` as they write through their pointers, one field after
the other, on a memory of time-stamps.  The schedulers pass an argument as the
result as well (`mt_emitScheduler` adds to the end of its window), so the
fields are read from the memory as it is by then.

* `addTSInto_eq`, `subtractTSInto_eq` — what is written, whichever of the
  pointers are equal;
* `StampArithmetic` — what the time-stamps stand for;
* `timespec_arithmetic` — it holds for every pair of time-stamps.
-/

namespace CloudProfiler

/-- The time-stamps of a memory, by their addresses. -/
abbrev StampMem := Nat → Timespec

namespace StampMem

def setSec (m : StampMem) (p : Nat) (v : Int64) : StampMem :=
  Function.update m p { m p with tvSec := v }

def setNsec (m : StampMem) (p : Nat) (v : Int64) : StampMem :=
  Function.update m p { m p with tvNsec := v }

def setTsc (m : StampMem) (p : Nat) (v : UInt64) : StampMem :=
  Function.update m p { m p with tsc := v }

variable (m : StampMem) (p q : Nat) (v w : Int64) (x : UInt64)

@[simp] theorem setSec_self : m.setSec p v p = { m p with tvSec := v } := Function.update_self ..

@[simp] theorem setNsec_self : m.setNsec p v p = { m p with tvNsec := v } := Function.update_self ..

@[simp] theorem setSec_tvNsec : (m.setSec p v q).tvNsec = (m q).tvNsec := by
  by_cases h : q = p
  · rw [h, setSec_self]
  · rw [setSec, Function.update_of_ne h]

@[simp] theorem setSec_tsc : (m.setSec p v q).tsc = (m q).tsc := by
  by_cases h : q = p
  · rw [h, setSec_self]
  · rw [setSec, Function.update_of_ne h]

@[simp] theorem setNsec_tsc : (m.setNsec p v q).tsc = (m q).tsc := by
  by_cases h : q = p
  · rw [h, setNsec_self]
  · rw [setNsec, Function.update_of_ne h]

/-- A second assignment of the seconds. -/
@[simp] theorem setSec_setNsec_setSec :
    ((m.setSec p v).setNsec p w).setSec p = (m.setNsec p w).setSec p := by
  funext v'
  simp [setSec, setNsec]

@[simp] theorem setNsec_setSec_setNsec :
    ((m.setNsec p w).setSec p v).setNsec p = (m.setSec p v).setNsec p := by
  funext w'
  simp [setSec, setNsec]

/-- The three assignments together. -/
theorem setTsc_setNsec_setSec :
    ((m.setSec p v).setNsec p w).setTsc p x =
      Function.update m p { m p with tvSec := v, tvNsec := w, tsc := x } := by
  simp [setSec, setNsec, setTsc]

end StampMem

/-- `addTS`, with its assignments in their order. -/
def addTSInto (m : StampMem) (result t1 t2 : Nat) : StampMem :=
  let m := m.setSec result ((m t1).tvSec + (m t2).tvSec)
  let m := m.setNsec result ((m t1).tvNsec + (m t2).tvNsec)
  let m :=
    if (m result).tvNsec ≥ nanoSPerS.toInt64 then
      let m := m.setSec result ((m result).tvSec + 1)
      m.setNsec result ((m result).tvNsec - nanoSPerS.toInt64)
    else m
  m.setTsc result ((m t1).tsc + (m t2).tsc)

/-- `subtractTS`, with its assignments in their order. -/
def subtractTSInto (m : StampMem) (result start stop : Nat) : StampMem :=
  let m :=
    if (m stop).tvNsec - (m start).tvNsec < 0 then
      let m := m.setSec result ((m stop).tvSec - (m start).tvSec - 1)
      m.setNsec result ((m stop).tvNsec - (m start).tvNsec + nanoSPerS.toInt64)
    else
      let m := m.setSec result ((m stop).tvSec - (m start).tvSec)
      m.setNsec result ((m stop).tvNsec - (m start).tvNsec)
  m.setTsc result ((m stop).tsc - (m start).tsc)

/-- `subtractTS` of `util.py`. -/
def Util.subtractTS (start stop : TSEntry) : TSEntry :=
  if stop.2 - start.2 < 0 then (stop.1 - start.1 - 1, stop.2 - start.2 + 1000000000)
  else (stop.1 - start.1, stop.2 - start.2)

section InPlace

variable {m : StampMem} {result a b : Nat}

/-- The nano-seconds are read after the seconds have been written, the counters
last: no assignment changes what a later one reads. -/
theorem addTSInto_eq :
    addTSInto m result a b = Function.update m result (addTS (m result) (m a) (m b)) := by
  unfold addTSInto addTS
  simp only [StampMem.setSec_tvNsec, StampMem.setSec_self, StampMem.setNsec_self]
  split
  · simp [StampMem.setTsc_setNsec_setSec]
  · rw [StampMem.setTsc_setNsec_setSec]
    simp

/-- The borrow is decided before anything is written. -/
theorem subtractTSInto_eq :
    subtractTSInto m result a b =
      Function.update m result (subtractTS (m result) (m a) (m b)) := by
  unfold subtractTSInto subtractTS
  simp only [StampMem.setSec_tvNsec]
  split
  · rw [← StampMem.setTsc_setNsec_setSec]
    simp only [StampMem.setSec_tsc, StampMem.setNsec_tsc]
  · rw [← StampMem.setTsc_setNsec_setSec]
    simp only [StampMem.setSec_tsc, StampMem.setNsec_tsc]

end InPlace

/-! ## the arithmetic -/

section Arithmetic

variable {r t t1 t2 start stop : Timespec}

/-- The fields that are computed. -/
def Timespec.stamp (t : Timespec) : Int64 × Int64 × UInt64 := (t.tvSec, t.tvNsec, t.tsc)

/-- Time-stamps that hold the same number, up to the wrapping, are the same. -/
theorem Timespec.Wraps.eq_of_ns {n k : Int} (h : t.Wraps n) (h1 : t1.Normal)
    (hn : n = t1.ns + 2 ^ 64 * 1000000000 * k) : t.tvSec = t1.tvSec ∧ t.tvNsec = t1.tvNsec := by
  obtain ⟨hge, hlt⟩ := h1
  have hge1 := t1.tvSec.le_toInt
  have hlt1 := t1.tvSec.toInt_lt
  obtain ⟨j, hj⟩ := exists_bmod_eq (n / 1000000000)
  have hlow := Int.le_bmod (x := n / 1000000000) (m := 2 ^ 64) (by decide)
  have hhigh := Int.bmod_lt (x := n / 1000000000) (m := 2 ^ 64) (by decide)
  unfold Timespec.ns at hn
  constructor
  · rw [← Int64.toInt_inj, h.sec]
    omega
  · rw [← Int64.toInt_inj, h.nsec]
    omega

theorem Timespec.Wraps.exists_ns {n : Int} (h : t.Wraps n) :
    ∃ k, t.ns = n + 2 ^ 64 * 1000000000 * k := by
  obtain ⟨j, hj⟩ := exists_bmod_eq (n / 1000000000)
  refine ⟨-j, ?_⟩
  rw [Timespec.ns, h.sec, h.nsec]
  omega

@[simp] theorem tsc_addTS : (addTS r t1 t2).tsc = t1.tsc + t2.tsc := by
  unfold addTS
  dsimp only
  split <;> rfl

@[simp] theorem tsc_subtractTS : (subtractTS r start stop).tsc = stop.tsc - start.tsc := by
  unfold subtractTS
  split <;> rfl

/-- The difference to a sum is the other number, even after an overflow. -/
theorem stamp_subtractTS_addTS {r' : Timespec} (h1 : t1.Normal) (h2 : t2.Normal) :
    (subtractTS r t1 (addTS r' t1 t2)).stamp = t2.stamp := by
  have hsum : (addTS r' t1 t2).Wraps (t1.ns + t2.ns) := wraps_addTS h1 h2
  obtain ⟨k, hk⟩ := hsum.exists_ns
  have hdiff : (subtractTS r t1 (addTS r' t1 t2)).Wraps ((addTS r' t1 t2).ns - t1.ns) :=
    wraps_subtractTS h1 hsum.normal
  obtain ⟨hsec, hnsec⟩ := hdiff.eq_of_ns h2 (k := k) (by omega)
  have htsc : t1.tsc + t2.tsc - t1.tsc = t2.tsc := by
    rw [UInt64.add_comm, UInt64.add_sub_cancel]
  rw [Timespec.stamp, hsec, hnsec, tsc_subtractTS, tsc_addTS, htsc]
  rfl

/-- The pair that `util.py` computes, in integers of any size. -/
theorem Util.subtractTS_entry (h1 : start.Normal) (h2 : stop.Normal) :
    Util.subtractTS start.entry stop.entry =
      ((stop.ns - start.ns) / 1000000000, (stop.ns - start.ns) % 1000000000) := by
  obtain ⟨hge1, hlt1⟩ := h1
  obtain ⟨hge2, hlt2⟩ := h2
  unfold Util.subtractTS Timespec.entry Timespec.ns
  dsimp only
  split <;> rw [Prod.mk.injEq] <;> omega

theorem Timespec.Wraps.entry_eq_iff {n : Int} (h : t.Wraps n) :
    (n / 1000000000, n % 1000000000) = t.entry ↔ NsFits n := by
  rw [← h.ns_eq_iff, Timespec.entry, Timespec.ns, h.nsec, Prod.mk.injEq]
  omega

end Arithmetic

/-- What the time-stamps at `a` and `b` give when the result is written to
`result`.  The number of nano-seconds is the sum or the difference exactly when
its seconds, with the carry and the borrow, fit in 64 bits. -/
structure StampArithmetic (m : StampMem) (result a b : Nat) : Prop where
  normal_add : (addTSInto m result a b result).Normal
  ns_add : (addTSInto m result a b result).ns = (m a).ns + (m b).ns ↔
    NsFits ((m a).ns + (m b).ns)
  normal_subtract : (subtractTSInto m result a b result).Normal
  ns_subtract : (subtractTSInto m result a b result).ns = (m b).ns - (m a).ns ↔
    NsFits ((m b).ns - (m a).ns)
  rest : ∀ q, q ≠ result → addTSInto m result a b q = m q ∧ subtractTSInto m result a b q = m q
  compare : compareTS (m a) (m b) = ((m a).ns - (m b).ns).sign
  back : a ≠ result → ∀ r,
    (subtractTSInto (addTSInto m result a b) r a result r).stamp = (m b).stamp
  script : Util.subtractTS (m a).entry (m b).entry = (subtractTSInto m result a b result).entry ↔
    NsFits ((m b).ns - (m a).ns)

/-- **Time-stamp arithmetic** is arithmetic on nano-seconds, whichever of the
three pointers are equal. -/
theorem timespec_arithmetic (m : StampMem) (result a b : Nat) (ha : (m a).Normal)
    (hb : (m b).Normal) : StampArithmetic m result a b := by
  have hadd : addTSInto m result a b result = addTS (m result) (m a) (m b) := by
    rw [addTSInto_eq, Function.update_self]
  have hsub : subtractTSInto m result a b result = subtractTS (m result) (m a) (m b) := by
    rw [subtractTSInto_eq, Function.update_self]
  have hsum : (addTSInto m result a b result).Wraps ((m a).ns + (m b).ns) := by
    rw [hadd]
    exact wraps_addTS ha hb
  have hdiff : (subtractTSInto m result a b result).Wraps ((m b).ns - (m a).ns) := by
    rw [hsub]
    exact wraps_subtractTS ha hb
  exact
    { normal_add := hsum.normal
      ns_add := hsum.ns_eq_iff
      normal_subtract := hdiff.normal
      ns_subtract := hdiff.ns_eq_iff
      rest := fun q hq => by
        rw [addTSInto_eq, subtractTSInto_eq, Function.update_of_ne hq, Function.update_of_ne hq]
        exact ⟨rfl, rfl⟩
      compare := compareTS_eq_sign ha hb
      back := fun hne r => by
        rw [subtractTSInto_eq, Function.update_self, hadd, addTSInto_eq, Function.update_of_ne hne]
        exact stamp_subtractTS_addTS ha hb
      script := by
        rw [Util.subtractTS_entry ha hb]
        exact hdiff.entry_eq_iff }

/-- Half a second before and after the epoch, added in place. -/
theorem timespec_arithmetic_aliased :
    StampArithmetic (fun p => if p = 0 then ⟨-1, 500000000, 3, 0, 0⟩ else ⟨0, 500000000, 4, 0, 0⟩)
      0 0 1 :=
  timespec_arithmetic _ 0 0 1 (by decide) (by decide)

/-- The sum of the seconds fits, with the carry it does not: the end of the
64-bit seconds. -/
theorem addTS_carry_overflows :
    ¬ ∀ r t1 t2 : Timespec, t1.Normal → t2.Normal →
      -2 ^ 63 ≤ t1.tvSec.toInt + t2.tvSec.toInt → t1.tvSec.toInt + t2.tvSec.toInt < 2 ^ 63 →
        (addTS r t1 t2).ns = t1.ns + t2.ns := by
  intro h
  have hns := h ⟨0, 0, 0, 0, 0⟩ ⟨9223372036854775807, 999999999, 0, 0, 0⟩ ⟨0, 1, 0, 0, 0⟩
    (by decide) (by decide) (by decide) (by decide)
  exact absurd hns (by decide)

end CloudProfiler
