import Mathlib.Data.List.Basic
import CloudProfiler.Handler

/-!
# CloudProfiler.Handler.Bulk

Parameters from the configuration server against parameters set one by one.

`openChannel` passes the parameters of a NET_CONF channel to the parameter
handler in one call (argument number `-1`); a program sets them with one call
each.  `ParamHandler.Agrees` says that the one call succeeds exactly if the
single calls do in some order, with the same parameters in the end;
`bulk_parameters_agree_iff` tells for each handler on which values this is
so.
-/

namespace CloudProfiler

/-- A parameter handler with the closure it starts from; `setArg` has no
result if the call does not return. -/
structure ParamHandler (σ π : Type) where
  fresh : σ
  setArg : σ → Arg → Option (Int × σ)
  params : σ → π

namespace ParamHandler

variable {σ π : Type} (h : ParamHandler σ π)

/-- Set argument `i` to the `i`-th value, for each `i` in the given order;
no result if one of the calls fails. -/
def inOrder (vs : List Int64) : List Nat → σ → Option σ
  | [], s => some s
  | i :: is, s =>
      match h.setArg s (.one i (vs.getD i 0)) with
      | some (0, s') => inOrder vs is s'
      | _ => none

/-- Setting all values at once succeeds exactly if setting them one by one
succeeds in some order, and leaves the same parameters. -/
def Agrees (vs : List Int64) : Prop :=
  ((∃ s, h.setArg h.fresh (.all vs) = some (0, s)) ↔
    ∃ order, order.Perm (List.range vs.length) ∧ ∃ s', h.inOrder vs order h.fresh = some s') ∧
  ∀ s, h.setArg h.fresh (.all vs) = some (0, s) → ∀ order, order.Perm (List.range vs.length) →
    ∀ s', h.inOrder vs order h.fresh = some s' → h.params s = h.params s'

/-- The orders of one argument. -/
theorem perm_range_one {order : List Nat} : order.Perm (List.range 1) ↔ order = [0] :=
  List.perm_singleton

/-- The orders of two arguments. -/
theorem perm_range_two {order : List Nat} :
    order.Perm (List.range 2) ↔ order = [0, 1] ∨ order = [1, 0] := by
  constructor
  · intro hp
    obtain ⟨a, b, rfl⟩ := List.length_eq_two.mp hp.length_eq
    have h0 := hp.mem_iff (a := 0)
    have h1 := hp.mem_iff (a := 1)
    simp only [List.mem_cons, List.not_mem_nil, or_false, List.mem_range] at h0 h1
    simp only [List.cons.injEq, and_true]
    omega
  · rintro (rfl | rfl)
    · exact .refl _
    · exact .swap 0 1 []

end ParamHandler

/-! ## the handlers -/

/-- DOWNSAMPLE: the factor. -/
def downsampleParams : ParamHandler DownsampleClosure Int64 where
  fresh := initDownsampleHandler
  setArg cl a := some (setArgDownsampleHandler cl a)
  params cl := cl.factor

/-- XOY: the factors and the mask. -/
def xoyParams : ParamHandler XoYClosure (UInt64 × UInt64 × UInt64) where
  fresh := initXoYHandler
  setArg cl a := some (setArgXoYHandler cl a)
  params cl := (cl.xFactor, cl.yFactor, cl.yMask)

/-- FASTPERIODICCOUNTER: the period, which a completed MOVE_CHANNEL job has
set to its target. -/
def fpcParams : ParamHandler UInt64 UInt64 where
  fresh := fpcDefaultPeriod
  setArg period a :=
    match fpcRequest a with
    | .refuse _ => some (-1, period)
    | .move target => some (0, target)
  params period := period

/-- PERIODICCOUNTER: the period, in both representations.  The channel was
opened at `opened`, the call is made at `now`. -/
def pcParams (opened t now : Timespec) : ParamHandler PCClosure (UInt64 × Int64 × Int64) where
  fresh := initPeriodicCounterHandler opened t
  setArg cl a := setArgPeriodicCounterHandler now cl a
  params cl := (cl.periodicIncNs, cl.periodicInc.tvSec, cl.periodicInc.tvNsec)

/-- MEDIAN: the number of time-stamps.  `h₀` is the allocator when the
channel was opened, `heap` when the call is made. -/
def medianParams (h₀ heap : Heap) : ParamHandler MedianClosure Int64 where
  fresh := initMedianHandler h₀
  setArg cl a := some (setArgMedianHandler heap cl a)
  params cl := cl.maxTs

/-! ## one handler at a time -/

section Agreement

open ParamHandler

theorem toInt64_toUInt64 (v : Int64) : v.toUInt64.toInt64 = v := rfl

/-- The values of a one-argument handler agree if the two calls do. -/
theorem agrees_singleton {σ π : Type} {h : ParamHandler σ π} {v : Int64} :
    h.Agrees [v] ↔
      ((∃ s, h.setArg h.fresh (.all [v]) = some (0, s)) ↔
        ∃ s', h.setArg h.fresh (.one 0 v) = some (0, s')) ∧
      ∀ s, h.setArg h.fresh (.all [v]) = some (0, s) →
        ∀ s', h.setArg h.fresh (.one 0 v) = some (0, s') → h.params s = h.params s' := by
  have hone : ∀ s', h.inOrder [v] [0] h.fresh = some s' ↔
      h.setArg h.fresh (.one 0 v) = some (0, s') := by
    intro s'
    simp only [inOrder, List.getD_cons_zero]
    split
    · next s he => simp [he]
    · next hne =>
      refine ⟨fun h => by simp at h, fun he => absurd he ?_⟩
      exact hne s'
  simp only [Agrees, List.length_singleton, perm_range_one, exists_eq_left, forall_eq, hone]

/-- DOWNSAMPLE passes the value on. -/
theorem downsample_agrees (v : Int64) : downsampleParams.Agrees [v] := by
  have hall : setArgDownsampleHandler initDownsampleHandler (.all [v]) =
      (0, { initDownsampleHandler with factor := v }) := rfl
  have hone : setArgDownsampleHandler initDownsampleHandler (.one 0 v) =
      (0, { initDownsampleHandler with factor := v }) := rfl
  rw [agrees_singleton]
  simp [downsampleParams, hall, hone]

/-- FASTPERIODICCOUNTER takes the number of arguments for the value. -/
theorem fpc_agrees_iff (v : Int64) : fpcParams.Agrees [v] ↔ v = 1 := by
  have hall : fpcRequest (.all [v]) = .move 1 := rfl
  have hone : fpcRequest (.one 0 v) = if v < 0 then .refuse true else .move v.toUInt64 := rfl
  rw [agrees_singleton]
  simp only [fpcParams, hall, hone]
  by_cases hneg : v < 0
  · have hv : v ≠ 1 := by
      rintro rfl
      exact absurd hneg (by decide)
    simp [hneg, hv]
  · have hinj : (1 : UInt64) = v.toUInt64 ↔ v = 1 := by
      constructor
      · intro h
        have := congrArg UInt64.toInt64 h
        rw [toInt64_toUInt64] at this
        exact this.symm
      · rintro rfl
        rfl
    simp [hneg, hinj]

/-- A handler that refuses all arguments at once agrees on the values it
refuses. -/
theorem agrees_of_refused {σ π : Type} {h : ParamHandler σ π} {v : Int64}
    (hall : ∀ s, h.setArg h.fresh (.all [v]) ≠ some (0, s)) :
    h.Agrees [v] ↔ ∀ s', h.setArg h.fresh (.one 0 v) ≠ some (0, s') := by
  rw [agrees_singleton]
  constructor
  · rintro ⟨hiff, -⟩ s' hs'
    obtain ⟨s, hs⟩ := hiff.mpr ⟨s', hs'⟩
    exact hall s hs
  · intro hone
    refine ⟨iff_of_false (fun ⟨s, hs⟩ => hall s hs) fun ⟨s', hs'⟩ => hone s' hs', ?_⟩
    exact fun s hs => absurd hs (hall s)

/-- MEDIAN has no case for all arguments at once. -/
theorem median_agrees_iff (h₀ heap : Heap) (v : Int64) :
    (medianParams h₀ heap).Agrees [v] ↔
      v < 32 ∨ (heap.realloc % 64 ≠ 0 ∧ heap.alignedAlloc = 0) := by
  have hone : ∀ cl : MedianClosure, (∀ s', some (setArgMedianHandler heap cl (.one 0 v)) ≠
      some (0, s')) ↔ v < 32 ∨ (heap.realloc % 64 ≠ 0 ∧ heap.alignedAlloc = 0) := by
    intro cl
    have harg : setArgMedianHandler heap cl (.one 0 v) =
        if v < 32 then (-1, { cl with base := cl.base.closeChannel })
        else if heap.realloc % 64 = 0 then
          (0, { cl with
            buffer := heap.realloc
            bufSize := roundCachlineSize (v.toUInt64 * sizeofTimespec).toInt64
            nrTs := 0, maxTs := v })
        else if heap.alignedAlloc = 0 then
          (-1, { cl with
            base := { cl.base with null := true }
            parm := false, buffer := 0, bufSize := 0, nrTs := 0, maxTs := 0 })
        else
          (0, { cl with
            buffer := heap.alignedAlloc
            bufSize := roundCachlineSize (v.toUInt64 * sizeofTimespec).toInt64
            nrTs := 0, maxTs := v }) := by
      unfold setArgMedianHandler
      have h32 : sizeofTimespec.toInt64 = 32 := rfl
      have h64 : cachelineSize.toUInt64 = 64 := rfl
      have hnum : (Arg.one 0 v).number = 0 := rfl
      have hval : (Arg.one 0 v).value = v := rfl
      simp only [hnum, hval, h32, h64, ne_eq, not_true_eq_false, false_or]
    rw [harg]
    by_cases hv : v < 32
    · simp [hv]
    · by_cases hr : heap.realloc % 64 = 0
      · simp [hv, hr]
      · by_cases ha : heap.alignedAlloc = 0 <;> simp [hv, hr, ha]
  rw [agrees_of_refused]
  · exact hone _
  · intro s hs
    have hall : (setArgMedianHandler heap (initMedianHandler h₀) (.all [v])).1 = -1 := rfl
    have := congrArg (Option.map Prod.fst) hs
    simp only [medianParams, Option.map_some, hall] at this
    simp at this

theorem PCClosure.flushCtr_isSome (cl : PCClosure) (h : cl.periodicIncNs ≠ 0) (now : Timespec) :
    ∃ cl', cl.flushCtr now = some cl' := by
  have hskip : ∃ n, cl.skippedIntervals now = some n := by
    unfold PCClosure.skippedIntervals
    split
    · exact ⟨_, rfl⟩
    · simp
  obtain ⟨n, hn⟩ := hskip
  exact ⟨_, by rw [PCClosure.flushCtr, hn, Option.map_some]⟩

@[simp] theorem PCClosure.periodicIncNs_ensureHeader (cl : PCClosure) :
    cl.ensureHeader.periodicIncNs = cl.periodicIncNs := by
  unfold PCClosure.ensureHeader
  split <;> rfl

/-- PERIODICCOUNTER has no case for all arguments at once. -/
theorem pc_agrees_iff (opened t now : Timespec) (v : Int64) :
    (pcParams opened t now).Agrees [v] ↔ v < 0 := by
  have hperiod : (initPeriodicCounterHandler opened t).periodicIncNs ≠ 0 := by
    show nanoSPerS ≠ 0
    decide
  have hone : (Arg.one 0 v).number = 0 ∧ (Arg.one 0 v).value = v := ⟨rfl, rfl⟩
  rw [agrees_of_refused]
  · by_cases hv : v < 0
    · refine iff_of_true (fun s' hs' => ?_) hv
      simp only [pcParams, setArgPeriodicCounterHandler, hone, hv, or_true, if_true,
        Option.map_eq_some_iff, Prod.mk.injEq] at hs'
      obtain ⟨_, -, h0, -⟩ := hs'
      exact absurd h0 (by decide)
    · refine iff_of_false (fun hno => ?_) hv
      obtain ⟨cl', hcl'⟩ := PCClosure.flushCtr_isSome
        { (initPeriodicCounterHandler opened t).ensureHeader with timeStart := now }
        (by simpa using hperiod) now
      have hset : ∃ s', (pcParams opened t now).setArg (pcParams opened t now).fresh (.one 0 v) =
          some (0, s') := by
        simp only [pcParams, setArgPeriodicCounterHandler, hone, hv, ne_eq, not_true_eq_false,
          or_self, if_false, hcl', Option.map_some]
        exact ⟨_, rfl⟩
      obtain ⟨s', hs'⟩ := hset
      exact hno s' hs'
  · intro s hs
    have hnum : (Arg.all [v]).number ≠ 0 := by
      show (-1 : Int32) ≠ 0
      decide
    simp only [pcParams, setArgPeriodicCounterHandler, hnum, ne_eq, not_false_eq_true, true_or,
      if_true, Option.map_eq_some_iff, Prod.mk.injEq] at hs
    obtain ⟨_, -, h0, -⟩ := hs
    exact absurd h0 (by decide)

/-! XOY: the calls of the two orders and the call for both factors. -/

section XoY

variable (x y : Int64)

/-- The closure with both factors set. -/
def xoyBoth : XoYClosure :=
  ⟨.opened, x.toUInt64, y.toUInt64, y.toUInt64 - 1⟩

theorem xoy_all : setArgXoYHandler initXoYHandler (.all [x, y]) =
    if checkConsistency xFactorDefault y.toUInt64 then
      if checkConsistency x.toUInt64 y.toUInt64 then (0, xoyBoth x y)
      else (-1, { xoyBoth 100 y with base := Base.opened.closeChannel })
    else (-1, { initXoYHandler with base := Base.opened.closeChannel }) := by
  have hy : (if checkConsistency xFactorDefault y.toUInt64 then (0, xoyBoth 100 y)
      else (-1, { initXoYHandler with base := Base.opened.closeChannel })) =
      setOneXoY initXoYHandler 1 y := rfl
  have hx : (if checkConsistency x.toUInt64 y.toUInt64 then (0, xoyBoth x y)
      else (-1, { xoyBoth 100 y with base := Base.opened.closeChannel })) =
      setOneXoY (xoyBoth 100 y) 0 x := rfl
  have hall : setArgXoYHandler initXoYHandler (.all [x, y]) =
      if (setOneXoY initXoYHandler 1 y).1 = -1 then (-1, (setOneXoY initXoYHandler 1 y).2)
      else setOneXoY (setOneXoY initXoYHandler 1 y).2 0 x := rfl
  rw [hall, ← hy, hx]
  cases checkConsistency xFactorDefault y.toUInt64 <;> simp

theorem xoy_second_first : xoyParams.inOrder [x, y] [1, 0] initXoYHandler =
    if checkConsistency xFactorDefault y.toUInt64 ∧ checkConsistency x.toUInt64 y.toUInt64 then
      some (xoyBoth x y)
    else none := by
  have h1 : xoyParams.setArg initXoYHandler (.one 1 y) =
      some (if checkConsistency xFactorDefault y.toUInt64 then (0, xoyBoth 100 y)
        else (-1, { initXoYHandler with base := Base.opened.closeChannel })) := rfl
  have h2 : xoyParams.setArg (xoyBoth 100 y) (.one 0 x) =
      some (if checkConsistency x.toUInt64 y.toUInt64 then (0, xoyBoth x y)
        else (-1, { xoyBoth 100 y with base := Base.opened.closeChannel })) := rfl
  simp only [inOrder, List.getD_cons_succ, List.getD_cons_zero, h1]
  cases checkConsistency xFactorDefault y.toUInt64 with
  | false => simp
  | true =>
      simp only [if_true, h2]
      cases checkConsistency x.toUInt64 y.toUInt64 <;> simp

theorem xoy_first_first : xoyParams.inOrder [x, y] [0, 1] initXoYHandler =
    if checkConsistency x.toUInt64 yFactorDefault ∧ checkConsistency x.toUInt64 y.toUInt64 then
      some (xoyBoth x y)
    else none := by
  have h1 : xoyParams.setArg initXoYHandler (.one 0 x) =
      some (if checkConsistency x.toUInt64 yFactorDefault then (0, xoyBoth x 16384)
        else (-1, { initXoYHandler with base := Base.opened.closeChannel })) := rfl
  have h2 : xoyParams.setArg (xoyBoth x 16384) (.one 1 y) =
      some (if checkConsistency x.toUInt64 y.toUInt64 then (0, xoyBoth x y)
        else (-1, { xoyBoth x 16384 with base := Base.opened.closeChannel })) := rfl
  simp only [inOrder, List.getD_cons_succ, List.getD_cons_zero, h1]
  cases checkConsistency x.toUInt64 yFactorDefault with
  | false => simp
  | true =>
      simp only [if_true, h2]
      cases checkConsistency x.toUInt64 y.toUInt64 <;> simp

end XoY

/-- Below the default of the first factor, the second cannot be set first. -/
theorem checkConsistency_eq_true {x y : UInt64} :
    checkConsistency x y = true ↔ x ≤ y ∧ passesLog2 (toDouble y.toNat) = true := by
  simp [checkConsistency]

/-- XOY sets the second factor first, against the default of the first. -/
theorem xoy_agrees_iff (x y : Int64) : xoyParams.Agrees [x, y] ↔
    ¬ (x.toUInt64 ≤ y.toUInt64 ∧ y.toUInt64 < xFactorDefault ∧
      passesLog2 (toDouble y.toUInt64.toNat) = true) := by
  have hfresh : xoyParams.fresh = initXoYHandler := rfl
  have hset : xoyParams.setArg initXoYHandler (.all [x, y]) =
      some (setArgXoYHandler initXoYHandler (.all [x, y])) := rfl
  have hbulk : ∀ s, xoyParams.setArg initXoYHandler (.all [x, y]) = some (0, s) ↔
      (checkConsistency xFactorDefault y.toUInt64 = true ∧
        checkConsistency x.toUInt64 y.toUInt64 = true) ∧ s = xoyBoth x y := by
    intro s
    rw [hset, xoy_all]
    cases checkConsistency xFactorDefault y.toUInt64 <;>
      cases checkConsistency x.toUInt64 y.toUInt64 <;> simp [eq_comm]
  have hparams : ∀ order s', order = [0, 1] ∨ order = [1, 0] →
      xoyParams.inOrder [x, y] order initXoYHandler = some s' → s' = xoyBoth x y := by
    rintro order s' (rfl | rfl) hs'
    · rw [xoy_first_first] at hs'
      split at hs' <;> simp_all
    · rw [xoy_second_first] at hs'
      split at hs' <;> simp_all
  have hlen : [x, y].length = 2 := rfl
  simp only [Agrees, hlen, perm_range_two, hfresh, hbulk]
  constructor
  · rintro ⟨hiff, -⟩ ⟨hle, hlt, hpow⟩
    have hx : checkConsistency x.toUInt64 yFactorDefault = true := by
      refine checkConsistency_eq_true.mpr ⟨?_, by decide⟩
      exact UInt64.le_trans hle (UInt64.le_of_lt (UInt64.lt_trans hlt (by decide)))
    have hxy : checkConsistency x.toUInt64 y.toUInt64 = true :=
      checkConsistency_eq_true.mpr ⟨hle, hpow⟩
    obtain ⟨s, ⟨hy, -⟩, -⟩ := hiff.mpr ⟨[0, 1], .inl rfl, xoyBoth x y, by
      rw [xoy_first_first, if_pos ⟨hx, hxy⟩]⟩
    exact absurd hlt (UInt64.not_lt.mpr (checkConsistency_eq_true.mp hy).1)
  · intro hno
    refine ⟨⟨?_, ?_⟩, ?_⟩
    · rintro ⟨s, hok, rfl⟩
      exact ⟨[1, 0], .inr rfl, xoyBoth x y, by rw [xoy_second_first, if_pos hok]⟩
    · rintro ⟨order, horder, s', hs'⟩
      have hxy : checkConsistency x.toUInt64 y.toUInt64 = true := by
        obtain rfl | rfl := horder
        · rw [xoy_first_first] at hs'
          split at hs'
          · next h => exact h.2
          · contradiction
        · rw [xoy_second_first] at hs'
          split at hs'
          · next h => exact h.2
          · contradiction
      obtain ⟨hle, hpow⟩ := checkConsistency_eq_true.mp hxy
      have hge : xFactorDefault ≤ y.toUInt64 :=
        UInt64.not_lt.mp fun hlt => hno ⟨hle, hlt, hpow⟩
      exact ⟨xoyBoth x y, ⟨checkConsistency_eq_true.mpr ⟨hge, hpow⟩, hxy⟩, rfl⟩
    · rintro s ⟨-, rfl⟩ order horder s' hs'
      rw [hparams order s' horder hs']

/-- **Setting all parameters at once agrees with setting them one by one**

* for DOWNSAMPLE on every value;
* for XOY unless the second factor passes the check with the first one but
  is below 100, the default of the first;
* for FASTPERIODICCOUNTER on the value 1 only;
* for PERIODICCOUNTER on the values it refuses;
* for MEDIAN on the values it refuses, and when the allocator fails. -/
theorem bulk_parameters_agree_iff (v x y : Int64) (opened t now : Timespec) (h₀ heap : Heap) :
    downsampleParams.Agrees [v] ∧
    (xoyParams.Agrees [x, y] ↔
      ¬ (x.toUInt64 ≤ y.toUInt64 ∧ y.toUInt64 < xFactorDefault ∧
        passesLog2 (toDouble y.toUInt64.toNat) = true)) ∧
    (fpcParams.Agrees [v] ↔ v = 1) ∧
    ((pcParams opened t now).Agrees [v] ↔ v < 0) ∧
    ((medianParams h₀ heap).Agrees [v] ↔
      v < 32 ∨ (heap.realloc % 64 ≠ 0 ∧ heap.alignedAlloc = 0)) :=
  ⟨downsample_agrees v, xoy_agrees_iff x y, fpc_agrees_iff v, pc_agrees_iff opened t now v,
    median_agrees_iff h₀ heap v⟩

/-- **A period of 5 ms from the server becomes a period of 1 ns**, while
`parameterizeChannel` sets 5 ms. -/
theorem fpc_bulk_period_lost :
    fpcParams.setArg fpcParams.fresh (.all [5000000]) = some (0, 1) ∧
      fpcParams.setArg fpcParams.fresh (.one 0 5000000) = some (0, 5000000) ∧
      ¬ fpcParams.Agrees [5000000] :=
  ⟨by decide +kernel, by decide +kernel, fun h => absurd ((fpc_agrees_iff _).mp h) (by decide)⟩

end Agreement

end CloudProfiler
