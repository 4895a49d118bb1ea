import CloudProfiler.Handler.Contract

/-!
# CloudProfiler.Handler.Capacity

The buffer of a MEDIAN channel (`median_handler.cpp`) over every sequence of
calls: `max_ts` is the number of time-stamps that was asked for, and the size
of the buffer is computed from it in 64 bits, rounded up to a cache line.

* `Capacious` — the buffer has room for `max_ts` time-stamps, and the handler
  stays inside;
* `Allocates` — the guard: the memory of every accepted size is really there;
* `fitsMedian_iff` — the sizes that are computed right;
* `median_capacity` — the buffer is capacious in every run that meets it.
-/

namespace CloudProfiler

open ChannelType

/-! ## the size of the buffer -/

theorem bmod_eq {n : Int} (h : 0 ≤ n) (h' : n < 2 ^ 63) : n.bmod (2 ^ 64) = n :=
  Int.bmod_eq_of_le (by omega) (by omega)

/-- The size in bytes, before it is rounded. -/
theorem toInt_bytes (v : Int64) :
    ((v.toUInt64 * sizeofTimespec).toInt64).toInt = (v.toInt * 32).bmod (2 ^ 64) := by
  rw [UInt64.toInt64_mul, Int64.toInt64_toUInt64, Int64.toInt_mul]
  rfl

/-- A multiple of the size of a cache line is not rounded. -/
theorem roundCachlineSize_of_dvd {size : Int64} (h : size.toInt % 64 = 0) :
    roundCachlineSize size = size := by
  unfold roundCachlineSize
  rw [if_pos]
  rw [← Int64.toInt_inj, Int64.toInt_mod]
  exact Int.tmod_eq_zero_of_dvd (Int.dvd_of_emod_eq_zero h)

/-- Half a cache line is rounded up, unless the sum overflows. -/
theorem toInt_roundCachlineSize_half {size : Int64} (h : size.toInt % 64 = 32)
    (hpos : 0 ≤ size.toInt) :
    (roundCachlineSize size).toInt = (size.toInt + 32).bmod (2 ^ 64) := by
  have hlt : size.toInt < 2 ^ 63 := size.toInt_lt
  have hmod : size % cachelineSize ≠ 0 := by
    rw [ne_eq, ← Int64.toInt_inj, Int64.toInt_mod, show cachelineSize.toInt = 64 from rfl,
      Int.tmod_eq_emod_of_nonneg hpos, h]
    decide
  have hdiv : (size / cachelineSize).toInt = size.toInt / 64 := by
    rw [Int64.toInt_div, show cachelineSize.toInt = 64 from rfl, Int.tdiv_eq_ediv_of_nonneg hpos]
    exact bmod_eq (by omega) (by omega)
  have hsucc : (size / cachelineSize + 1).toInt = size.toInt / 64 + 1 := by
    rw [Int64.toInt_add, hdiv, show (1 : Int64).toInt = 1 from rfl]
    exact bmod_eq (by omega) (by omega)
  unfold roundCachlineSize
  rw [if_neg hmod, Int64.toInt_mul, hsucc, show cachelineSize.toInt = 64 from rfl]
  congr 1
  omega

/-- **The size is computed right up to `2 ^ 58 - 2` time-stamps.** -/
theorem fitsMedian_iff {v : Int64} (h : sizeofTimespec.toInt64 ≤ v) :
    fitsMedian v ↔ v.toInt ≤ 2 ^ 58 - 2 := by
  rw [Int64.le_iff_toInt_le, show sizeofTimespec.toInt64.toInt = 32 from rfl] at h
  have hbytes := toInt_bytes v
  unfold fitsMedian
  rw [show (sizeofTimespec.toNat : Int) = 32 from rfl]
  generalize (v.toUInt64 * sizeofTimespec).toInt64 = size at hbytes ⊢
  by_cases hbig : v.toInt < 2 ^ 58
  · rw [bmod_eq (by omega) (by omega)] at hbytes
    by_cases heven : v.toInt % 2 = 0
    · rw [roundCachlineSize_of_dvd (by omega), hbytes]
      exact ⟨fun _ => by omega, fun _ => le_rfl⟩
    · rw [toInt_roundCachlineSize_half (by omega) (by omega), hbytes]
      by_cases hlast : v.toInt = 2 ^ 58 - 1
      · rw [hlast]
        decide
      · rw [bmod_eq (by omega) (by omega)]
        exact ⟨fun _ => by omega, fun _ => by omega⟩
  · have hlt := (roundCachlineSize size).toInt_lt
    exact ⟨fun hle => by omega, fun hle => by omega⟩

/-! ## the buffer over a run -/

/-- The arguments with which a call reaches the parameter handler of a channel
that was not closed before. -/
def Call.reaches : Call → Option Arg
  | .parameterizeChannel a | .parameterizeChannelStr true _ a => some a
  | .logTS _ | .closeChannel | .closeAllChannels | .parameterizeChannelStr false _ _ => none

/-- The buffer has room for `max_ts` time-stamps as long as the channel has
its handler, and the handler stays inside. -/
structure Capacious (ch : MedianChannel) : Prop where
  room : ch.cl.base.null = false → ch.cl.holds ch.cl.maxTs = true
  index : ch.cl.base.null = false → 0 ≤ ch.cl.nrTs ∧ ch.cl.nrTs < ch.cl.maxTs
  inside : ch.cl.base.null = false → ∀ env, (ch.handler env).isSome = true

/-- The guard: when a size is accepted, `realloc` does not return NULL and the
size is not too big; or the memory is moved and there is no aligned one. -/
def Allocates (ch : MedianChannel) (l : Env × Call) : Prop :=
  match l.2.reaches with
  | none => True
  | some a =>
      ch.cl.base.null = true ∨ a.number ≠ 0 ∨ a.value < sizeofTimespec.toInt64 ∨
        (l.1.heap.realloc ≠ 0 ∧ a.value.toInt ≤ 2 ^ 58 - 2) ∨
        (l.1.heap.realloc % cachelineSize.toUInt64 ≠ 0 ∧ l.1.heap.alignedAlloc = 0)

instance : DecidableRel Allocates := fun ch l => by
  unfold Allocates
  cases l.2.reaches <;> infer_instance

section Capacity

variable {env : Env} {ch ch' : MedianChannel} {a : Arg} {l : Env × Call}

theorem MedianClosure.holds_mono {cl : MedianClosure} {m n : Int64} (h : cl.holds n = true)
    (hm : m ≤ n) : cl.holds m = true := by
  obtain ⟨hbuf, hroom⟩ := of_decide_eq_true h
  rw [Int64.le_iff_toInt_le] at hm
  refine decide_eq_true ⟨hbuf, le_trans ?_ hroom⟩
  exact Int.mul_le_mul_of_nonneg_right hm (Int.natCast_nonneg _)

/-- The next index, if there is one before `max_ts`. -/
theorem toInt_succ {i n : Int64} (h : i < n) : (i + 1).toInt = i.toInt + 1 := by
  rw [Int64.lt_iff_toInt_lt] at h
  have hlt := n.toInt_lt
  have hle := i.le_toInt
  rw [Int64.toInt_add, show (1 : Int64).toInt = 1 from rfl]
  exact Int.bmod_eq_of_le (by omega) (by omega)

/-- What the handler needs. -/
theorem handler_isSome (hroom : ch.cl.holds ch.cl.maxTs = true) (env : Env) :
    (ch.handler env).isSome = true := by
  unfold MedianChannel.handler
  dsimp only
  split
  · next hstore =>
    have hnext : ch.cl.holds (ch.cl.nrTs + 1 + 1) = true := by
      refine MedianClosure.holds_mono hroom ?_
      rw [Int64.le_iff_toInt_le, toInt_succ hstore]
      rwa [Int64.lt_iff_toInt_lt] at hstore
    rw [if_pos hnext]
    rfl
  · rfl

theorem capacious_of_room (hroom : ch.cl.holds ch.cl.maxTs = true) (hge : 0 ≤ ch.cl.nrTs)
    (hlt : ch.cl.nrTs < ch.cl.maxTs) : Capacious ch where
  room _ := hroom
  index _ := ⟨hge, hlt⟩
  inside _ env := handler_isSome hroom env

theorem capacious_of_null (h : ch.cl.base.null = true) : Capacious ch where
  room h' := by simp [h] at h'
  index h' := by simp [h] at h'
  inside h' := by simp [h] at h'

theorem null_closeChannel : ch.closeChannel.cl.base.null = true := rfl

/-- `NullHandler` is not replaced by the parameter handler. -/
theorem null_parameterizeChannel (h : ch.cl.base.null = true) {r : Int × MedianChannel}
    (hs : medianType.parameterizeChannel env ch a = some r) : r.2.cl.base.null = true := by
  unfold ChannelType.parameterizeChannel at hs
  split at hs
  · cases hs
    show (setArgMedianHandler env.heap ch.cl a).2.base.null = true
    obtain hb | hb | hb := setArgMedianHandler_base env.heap ch.cl a <;> rw [hb]
    · exact h
    · rfl
  · cases hs
    exact null_closeChannel

/-- What the parameter handler does to the buffer. -/
theorem setArgMedianHandler_cases (heap : Heap) (cl : MedianClosure) (a : Arg) :
    ((a.number ≠ 0 ∨ a.value < sizeofTimespec.toInt64) ∧
      (setArgMedianHandler heap cl a).2 = { cl with base := cl.base.closeChannel }) ∨
    (¬ (a.number ≠ 0 ∨ a.value < sizeofTimespec.toInt64) ∧
      (heap.realloc % cachelineSize.toUInt64 ≠ 0 ∧ heap.alignedAlloc = 0) ∧
      (setArgMedianHandler heap cl a).2.base.null = true) ∨
    (¬ (a.number ≠ 0 ∨ a.value < sizeofTimespec.toInt64) ∧
      ¬ (heap.realloc % cachelineSize.toUInt64 ≠ 0 ∧ heap.alignedAlloc = 0) ∧
      ∃ buf, (buf ≠ 0 ↔ heap.realloc ≠ 0) ∧ setArgMedianHandler heap cl a = (0, { cl with
        buffer := buf
        bufSize := roundCachlineSize (a.value.toUInt64 * sizeofTimespec).toInt64
        nrTs := 0
        maxTs := a.value })) := by
  unfold setArgMedianHandler
  by_cases hno : a.number ≠ 0 ∨ a.value < sizeofTimespec.toInt64
  · rw [if_pos hno]
    exact .inl ⟨hno, rfl⟩
  · rw [if_neg hno]
    by_cases halign : heap.realloc % cachelineSize.toUInt64 = 0
    · simp only [if_pos halign]
      exact .inr (.inr ⟨hno, fun h => h.1 halign, heap.realloc, Iff.rfl, rfl⟩)
    · have hreal : heap.realloc ≠ 0 := fun h => halign (by rw [h]; decide)
      simp only [if_neg halign]
      by_cases halloc : heap.alignedAlloc = 0
      · rw [if_pos halloc]
        exact .inr (.inl ⟨hno, ⟨halign, halloc⟩, rfl⟩)
      · rw [if_neg halloc]
        exact .inr (.inr ⟨hno, fun h => halloc h.2, heap.alignedAlloc,
          iff_of_true halloc hreal, rfl⟩)

/-- **After an accepted size** the buffer is capacious if and only if the
memory is there. -/
theorem capacious_setArg_iff (hnull : ch.cl.base.null = false) :
    Capacious (ch.setArg env a).2 ↔ a.number ≠ 0 ∨ a.value < sizeofTimespec.toInt64 ∨
      (env.heap.realloc ≠ 0 ∧ a.value.toInt ≤ 2 ^ 58 - 2) ∨
      (env.heap.realloc % cachelineSize.toUInt64 ≠ 0 ∧ env.heap.alignedAlloc = 0) := by
  have hcl : (ch.setArg env a).2.cl = (setArgMedianHandler env.heap ch.cl a).2 := rfl
  rcases setArgMedianHandler_cases env.heap ch.cl a with
    ⟨hno, hset⟩ | ⟨-, hfail, hset⟩ | ⟨hno, hnot, buf, hbuf, hset⟩
  · have hnull' : (ch.setArg env a).2.cl.base.null = true := by
      rw [hcl, hset]
      rfl
    exact iff_of_true (capacious_of_null hnull') (hno.imp_right .inl)
  · exact iff_of_true (capacious_of_null (hcl ▸ hset)) (.inr (.inr (.inr hfail)))
  · obtain ⟨hn, hge⟩ := not_or.mp hno
    have hfits := fitsMedian_iff (Int64.not_lt.mp hge)
    have hmax : (ch.setArg env a).2.cl.maxTs = a.value := by rw [hcl, hset]
    have hroom : (ch.setArg env a).2.cl.holds (ch.setArg env a).2.cl.maxTs = true ↔
        env.heap.realloc ≠ 0 ∧ a.value.toInt ≤ 2 ^ 58 - 2 := by
      rw [hcl, hset, ← hbuf, ← hfits, MedianClosure.holds, decide_eq_true_iff]
      rfl
    constructor
    · intro hcap
      have hnull' : (ch.setArg env a).2.cl.base.null = false := by
        rw [hcl, hset]
        exact hnull
      exact .inr (.inr (.inl (hroom.mp (hcap.room hnull'))))
    · intro h
      have hmem : env.heap.realloc ≠ 0 ∧ a.value.toInt ≤ 2 ^ 58 - 2 :=
        ((h.resolve_left hn).resolve_left hge).resolve_right hnot
      have hpos := one_le_of_sizeofTimespec_le hge
      refine capacious_of_room (hroom.mpr hmem) ?_ ?_
      · rw [hcl, hset]
        exact Int64.le_refl 0
      · rw [hmax, hcl, hset, Int64.lt_iff_toInt_lt]
        rw [Int64.le_iff_toInt_le] at hpos
        exact lt_of_lt_of_le (show (0 : Int64).toInt < (1 : Int64).toInt by decide) hpos

/-- The buffer is capacious, and a channel with its handler has its parameter
handler. -/
structure CapacityInv (ch : MedianChannel) : Prop where
  capacious : Capacious ch
  parm : ch.cl.base.null = false → ch.cl.parm = true

theorem capacityInv_of_null (h : ch.cl.base.null = true) : CapacityInv ch :=
  ⟨capacious_of_null h, fun h' => by simp [h] at h'⟩

/-- The handler keeps the buffer. -/
theorem CapacityInv.handler (h : CapacityInv ch) (hnull : ch.cl.base.null = false)
    (hs : ch.handler env = some ch') : CapacityInv ch' := by
  have hroom := h.capacious.room hnull
  obtain ⟨hge, hlt⟩ := h.capacious.index hnull
  unfold MedianChannel.handler at hs
  dsimp only at hs
  split at hs
  · next hstore =>
    split at hs
    · cases hs
      refine ⟨capacious_of_room hroom ?_ hstore, fun _ => h.parm hnull⟩
      rw [Int64.le_iff_toInt_le] at hge ⊢
      rw [toInt_succ hlt]
      exact Int.le_add_one hge
    · cases hs
  · cases hs
    exact ⟨capacious_of_room hroom (Int64.le_refl 0) (Int64.lt_of_le_of_lt hge hlt),
      fun _ => h.parm hnull⟩

/-- The parameter handler keeps itself as long as it keeps the handler. -/
theorem parm_setArg (hparm : ch.cl.parm = true)
    (hnull : (ch.setArg env a).2.cl.base.null = false) :
    (ch.setArg env a).2.cl.parm = true := by
  have hcl : (ch.setArg env a).2.cl = (setArgMedianHandler env.heap ch.cl a).2 := rfl
  rw [hcl] at hnull ⊢
  rcases setArgMedianHandler_cases env.heap ch.cl a with
    ⟨-, hset⟩ | ⟨-, -, hset⟩ | ⟨-, -, buf, -, hset⟩
  · rw [hset]
    exact hparm
  · rw [hset] at hnull
    cases hnull
  · rw [hset]
    exact hparm

/-- A call that reaches the parameter handler. -/
theorem CapacityInv.parameterizeChannel (h : CapacityInv ch)
    (hs : (medianType.parameterizeChannel env ch a).map (·.2) = some ch') :
    (Capacious ch' ↔ Allocates ch (env, .parameterizeChannel a)) ∧
      (Capacious ch' → CapacityInv ch') := by
  obtain ⟨r, hr, rfl⟩ := Option.map_eq_some_iff.mp hs
  cases hnull : ch.cl.base.null with
  | true =>
      have hnull' := null_parameterizeChannel hnull hr
      exact ⟨iff_of_true (capacious_of_null hnull') (.inl hnull),
        fun _ => capacityInv_of_null hnull'⟩
  | false =>
      have hparm := h.parm hnull
      have hcall : medianType.parameterizeChannel env ch a = some (ch.setArg env a) := by
        simp [ChannelType.parameterizeChannel, medianType, hparm]
      rw [hcall] at hr
      cases hr
      refine ⟨(capacious_setArg_iff hnull).trans ?_, fun hcap => ⟨hcap, parm_setArg hparm⟩⟩
      simp only [Allocates, Call.reaches, hnull, Bool.false_eq_true, false_or]

/-- **A step keeps the buffer capacious if and only if it meets the guard.** -/
theorem CapacityInv.step (h : CapacityInv ch) (hs : medianType.step ch l = some ch') :
    (Capacious ch' ↔ Allocates ch l) ∧ (Capacious ch' → CapacityInv ch') := by
  obtain ⟨env, c⟩ := l
  have hkept : Call.reaches c = none → CapacityInv ch' →
      (Capacious ch' ↔ Allocates ch (env, c)) ∧ (Capacious ch' → CapacityInv ch') := by
    intro hc hinv
    refine ⟨iff_of_true hinv.capacious ?_, fun _ => hinv⟩
    simp only [Allocates, hc]
  cases c with
  | logTS tuple =>
      refine hkept rfl ?_
      simp only [ChannelType.step, ChannelType.logTS] at hs
      split at hs
      · cases hs
        exact capacityInv_of_null null_closeChannel
      · split at hs
        · cases hs
          exact h
        · next hnull => exact h.handler (by simpa [medianType] using hnull) hs
  | closeChannel | closeAllChannels =>
      refine hkept rfl ?_
      cases hs
      exact capacityInv_of_null null_closeChannel
  | parameterizeChannel a => exact h.parameterizeChannel hs
  | parameterizeChannelStr valid later a =>
      cases valid with
      | true => exact h.parameterizeChannel hs
      | false =>
          refine hkept rfl ?_
          simp only [ChannelType.step, ChannelType.parameterizeChannelStr] at hs
          obtain ⟨r, hr, rfl⟩ := Option.map_eq_some_iff.mp hs
          exact capacityInv_of_null (null_parameterizeChannel null_closeChannel hr)

/-- A fresh channel; without memory it has no handler. -/
theorem capacityInv_init (env : Env) : CapacityInv (MedianChannel.init env) := by
  by_cases halloc : env.heap.alignedAlloc = 0
  · refine capacityInv_of_null ?_
    simp [MedianChannel.init, initMedianHandler, halloc]
  · have hinit : (MedianChannel.init env).cl = ⟨.opened, true, env.heap.alignedAlloc,
        roundCachlineSize (maxTsDefault.toUInt64 * sizeofTimespec).toInt64, 0, maxTsDefault⟩ := by
      simp [MedianChannel.init, initMedianHandler, halloc]
    have hsize : maxTsDefault.toInt * sizeofTimespec.toNat ≤
        (roundCachlineSize (maxTsDefault.toUInt64 * sizeofTimespec).toInt64).toInt := by decide
    refine ⟨capacious_of_room ?_ ?_ ?_, fun _ => ?_⟩ <;> rw [hinit]
    · exact decide_eq_true ⟨halloc, hsize⟩
    · exact Int64.le_refl 0
    · exact show (0 : Int64) < maxTsDefault by decide

/-- **MEDIAN has room for its time-stamps** in every run that meets the guard;
the first step that does not meet it leaves the channel without. -/
theorem median_capacity
    (h : Reach medianType.step (MedianChannel.init env) Allocates ch) :
    Capacious ch ∧ ∀ l ch', medianType.step ch l = some ch' → (Capacious ch' ↔ Allocates ch l) := by
  have hinv : CapacityInv ch := by
    refine h.invariant (capacityInv_init env) fun ch₁ l ch₂ h₁ hok hs => ?_
    obtain ⟨hiff, hkeep⟩ := h₁.step hs
    exact hkeep (hiff.mpr hok)
  exact ⟨hinv.capacious, fun l ch' hs => (hinv.step hs).1⟩

end Capacity

/-- What a call gets from an allocator that returns `p`. -/
def allocated (p : UInt64) : Env := ⟨⟨0, 0, 0, 0, 0⟩, ⟨p, p⟩, fun _ => ⟨0, 0, 0, 0, 0⟩⟩

/-- A size of 40 time-stamps, and an event. -/
theorem median_capacity_40 : ∃ ch,
    Reach medianType.step (MedianChannel.init (allocated 4096)) Allocates ch ∧
      ch.cl.base.null = false ∧ ch.cl.nrTs = 1 ∧ Capacious ch := by
  obtain ⟨ch, hr, hp⟩ : ∃ ch,
      Reach medianType.step (MedianChannel.init (allocated 4096)) Allocates ch ∧
        decide (ch.cl.base.null = false ∧ ch.cl.nrTs = 1) = true :=
    Reach.of_exec_any
      [(allocated 8192, .parameterizeChannel (.one 0 40)), (allocated 0, .logTS 7)] _
      (by decide +kernel)
  obtain ⟨hnull, hnr⟩ := of_decide_eq_true hp
  exact ⟨ch, hr, hnull, hnr, (median_capacity hr).1⟩

/-- A `realloc` that fails is taken for one that succeeds; and `2 ^ 59 + 2`
time-stamps get 64 bytes, so that the second of them is stored behind. -/
theorem median_capacity_lost :
    (∃ ch, Reach medianType.step (MedianChannel.init (allocated 4096)) anyStep ch ∧
      ch.cl.base.null = false ∧ ch.cl.buffer = 0 ∧ ch.cl.holds ch.cl.maxTs = false) ∧
    ∃ ch, Reach medianType.step (MedianChannel.init (allocated 4096)) anyStep ch ∧
      ch.cl.base.null = false ∧ ch.cl.bufSize = 64 ∧ ch.cl.holds ch.cl.maxTs = false ∧
        (ch.handler (allocated 0)).isSome = false := by
  obtain ⟨ch, hr, hp⟩ : ∃ ch,
      Reach medianType.step (MedianChannel.init (allocated 4096)) anyStep ch ∧
        decide (ch.cl.base.null = false ∧ ch.cl.buffer = 0 ∧ ch.cl.holds ch.cl.maxTs = false) =
          true :=
    Reach.of_exec_any [(allocated 0, .parameterizeChannel (.one 0 40))] _ (by decide +kernel)
  obtain ⟨ch', hr', hp'⟩ : ∃ ch,
      Reach medianType.step (MedianChannel.init (allocated 4096)) anyStep ch ∧
        decide (ch.cl.base.null = false ∧ ch.cl.bufSize = 64 ∧ ch.cl.holds ch.cl.maxTs = false ∧
          (ch.handler (allocated 0)).isSome = false) = true :=
    Reach.of_exec_any
      [(allocated 8192, .parameterizeChannel (.one 0 576460752303423490)),
        (allocated 0, .logTS 7)] _ (by decide +kernel)
  exact ⟨⟨ch, hr, of_decide_eq_true hp⟩, ch', hr', of_decide_eq_true hp'⟩

end CloudProfiler
