import CloudProfiler.Handler.Closed

/-!
# CloudProfiler.Handler.Contract

What `parameterizeChannel` owes its caller: it returns `-1` and the channel is
closed if the handler has no such argument or the value is out of range, and
else the value is in effect (`cloud_profiler.h`, and the header of each
handler).

Each handler checks for itself, and three of them not for the range they
document.

* `ArgSpec` — the documented arguments of a handler type;
* `ChannelType.MeetsContract` — one call does what it owes;
* one lemma for each handler type, with exactly when this is so.
-/

namespace CloudProfiler

/-- What the header of a handler says about its arguments: which are
`documented`, with their range, when a value is `inEffect`, and what the
`params` of a channel are. -/
structure ArgSpec (σ π : Type) where
  documented : Env → σ → Arg → Prop
  inEffect : σ → Int64 → Prop
  params : σ → π

namespace ChannelType

variable {σ ι π : Type}

/-- Events and closes that follow always return. -/
def NeverTraps (k : ChannelType σ ι) (cl : σ) : Prop :=
  ∀ cl', Reach k.step cl (CallsWith fun _ => False) cl' →
    ∀ l, CallsWith (fun _ => False) cl' l → (k.step cl' l).isSome = true

/-- `parameterizeChannel` returns what the documentation says, and leaves the
channel as it says. -/
def MeetsContract (k : ChannelType σ ι) (spec : ArgSpec σ π) (env : Env) (cl : σ) (a : Arg) :
    Prop :=
  ∃ ret cl', k.parameterizeChannel env cl a = some (ret, cl') ∧
    (ret = -1 ↔ ¬ spec.documented env cl a) ∧
    (ret = -1 → k.isOpen cl' = false ∧ spec.params cl' = spec.params cl) ∧
    (ret ≠ -1 → ret = 0 ∧ k.isOpen cl' = true ∧ spec.inEffect cl' a.value)

variable {k : ChannelType σ ι} {spec : ArgSpec σ π} {env : Env} {cl cl' : σ} {a : Arg} {ret : Int}

/-- The contract, for a call that returns. -/
theorem meetsContract_iff (h : k.parameterizeChannel env cl a = some (ret, cl')) :
    k.MeetsContract spec env cl a ↔ (ret = -1 ↔ ¬ spec.documented env cl a) ∧
      (ret = -1 → k.isOpen cl' = false ∧ spec.params cl' = spec.params cl) ∧
      (ret ≠ -1 → ret = 0 ∧ k.isOpen cl' = true ∧ spec.inEffect cl' a.value) := by
  constructor
  · rintro ⟨ret', cl'', h', hspec⟩
    rw [h] at h'
    cases h'
    exact hspec
  · exact fun hspec => ⟨ret, cl', h, hspec⟩

/-- A call that is refused, and closes the channel, was right to be. -/
theorem meetsContract_refused (h : k.parameterizeChannel env cl a = some (-1, cl'))
    (hopen : k.isOpen cl' = false) (hparams : spec.params cl' = spec.params cl) :
    k.MeetsContract spec env cl a ↔ ¬ spec.documented env cl a := by
  rw [meetsContract_iff h]
  exact ⟨fun hspec => hspec.1.mp rfl,
    fun hdoc => ⟨⟨fun _ => hdoc, fun _ => rfl⟩, fun _ => ⟨hopen, hparams⟩, fun hne => absurd rfl hne⟩⟩

/-- A call that is accepted was right to be if the argument is documented and
the value in effect. -/
theorem meetsContract_accepted (h : k.parameterizeChannel env cl a = some (0, cl')) :
    k.MeetsContract spec env cl a ↔
      spec.documented env cl a ∧ k.isOpen cl' = true ∧ spec.inEffect cl' a.value := by
  rw [meetsContract_iff h]
  constructor
  · rintro ⟨hiff, -, heff⟩
    exact ⟨by by_contra hdoc; exact absurd (hiff.mpr hdoc) (by decide), (heff (by decide)).2⟩
  · rintro ⟨hdoc, hopen, heff⟩
    exact ⟨⟨fun h0 => absurd h0 (by decide), fun hno => absurd hdoc hno⟩,
      fun h0 => absurd h0 (by decide), fun _ => ⟨rfl, hopen, heff⟩⟩

end ChannelType

open ChannelType

/-! ## handler types without arguments -/

/-- No argument is documented. -/
def noArgs {σ : Type} : ArgSpec σ Unit := ⟨fun _ _ _ => False, fun _ _ => True, fun _ => ()⟩

/-- A handler type without a parameter handler, whose channels are closed
when `closeChannel` returns, meets its contract. -/
theorem noArgs_meetsContract {σ ι : Type} {k : ChannelType σ ι} (hparm : ∀ cl, k.parm cl = false)
    (hclose : ∀ env cl, ∃ cl', k.closeChannel env cl = some cl' ∧ k.isOpen cl' = false)
    (env : Env) (cl : σ) (a : Arg) : k.MeetsContract noArgs env cl a := by
  obtain ⟨cl', hc, hopen⟩ := hclose env cl
  have hcall : k.parameterizeChannel env cl a = some (-1, cl') := by
    simp [parameterizeChannel, hparm, hc]
  exact (meetsContract_refused hcall hopen rfl).mpr fun hdoc => hdoc

/-- An IDENTITY channel is closed when `closeChannel` returns. -/
theorem identity_closes (env : Env) (ch : Unbuffered) :
    ∃ ch', identityType.closeChannel env ch = some ch' ∧ identityType.isOpen ch' = false := by
  refine ⟨_, rfl, ?_⟩
  show (if ch.cl.chLogf.isOpen then ch.cl.chLogf.close else ch.cl.chLogf).isOpen = false
  split
  · rfl
  · next h => simpa using h

/-- IDENTITY. -/
theorem identity_contract (env : Env) (ch : Unbuffered) (a : Arg) :
    identityType.MeetsContract noArgs env ch a :=
  noArgs_meetsContract (fun _ => rfl) identity_closes env ch a

/-- NULLH. -/
theorem nullh_contract (env : Env) (cl : Base Empty) (a : Arg) :
    nullhType.MeetsContract noArgs env cl a :=
  noArgs_meetsContract (fun _ => rfl) (fun _ _ => ⟨_, rfl, rfl⟩) env cl a

/-- FIRSTLAST. -/
theorem firstlast_contract (env : Env) (cl : FirstlastClosure) (a : Arg) :
    firstlastType.MeetsContract noArgs env cl a :=
  noArgs_meetsContract (fun _ => rfl) (fun _ _ => ⟨_, rfl, rfl⟩) env cl a

/-- FOX_START channels: what the thread of the caller does with them.  The
receiver thread only writes lines. -/
def foxStartType : ChannelType (Base (Int64 × Timespec)) (List (Int64 × Timespec)) where
  isOpen := Base.isOpen
  log := Base.lines
  null := Base.null
  parm _ := false
  handler env cl tuple := some (cl.put (tuple, env.now))
  closeChannel _ cl := some cl.closeChannel
  setArg _ _ _ := none

/-- FOX_START. -/
theorem foxStart_contract (env : Env) (cl : Base (Int64 × Timespec)) (a : Arg) :
    foxStartType.MeetsContract noArgs env cl a :=
  noArgs_meetsContract (fun _ => rfl) (fun _ _ => ⟨_, rfl, rfl⟩) env cl a

/-! ## DOWNSAMPLE -/

/-- Argument 0 is the downsampling factor, at least 1. -/
def downsampleArgs : ArgSpec DownsampleClosure Int64 where
  documented _ _ a := a.number = 0 ∧ 1 ≤ a.value
  inEffect cl v := cl.factor = v
  params cl := cl.factor

/-- **DOWNSAMPLE** checks the range of the arguments it does not have: it
accepts any factor. -/
theorem downsample_contract_iff {env : Env} {cl : DownsampleClosure} {a : Arg}
    (hopen : downsampleType.isOpen cl = true) (ha : 0 ≤ a.number) :
    downsampleType.MeetsContract downsampleArgs env cl a ↔ a.number ≠ 0 ∨ 1 ≤ a.value := by
  have hone : a.number ≠ -1 := by
    intro h
    rw [h] at ha
    exact absurd ha (by decide)
  by_cases hn : a.number = 0
  · have hcall : downsampleType.parameterizeChannel env cl a =
        some (0, { cl with factor := a.value }) := by
      simp [parameterizeChannel, downsampleType, setArgDownsampleHandler, setOneDownsample, hn]
    have hopen' : cl.base.isOpen = true := hopen
    rw [meetsContract_accepted hcall]
    simp [downsampleArgs, downsampleType, hn, hopen']
  · have hcall : downsampleType.parameterizeChannel env cl a =
        some (-1, { cl with base := cl.base.closeChannel }) := by
      simp [parameterizeChannel, downsampleType, setArgDownsampleHandler, hn, hone]
    rw [meetsContract_refused hcall rfl rfl]
    simp [downsampleArgs, hn]

/-! ## MEDIAN -/

/-- The allocator gives what it is asked for: `aligned_alloc` is asked if
`realloc` returns an address that is not aligned. -/
def Heap.allocates (heap : Heap) : Prop :=
  heap.realloc ≠ 0 ∧ (heap.realloc % cachelineSize.toUInt64 = 0 ∨ heap.alignedAlloc ≠ 0)

instance (heap : Heap) : Decidable heap.allocates := inferInstanceAs (Decidable (_ ∧ _))

/-- The size that is asked for `v` time-stamps holds them. -/
def fitsMedian (v : Int64) : Prop :=
  v.toInt * sizeofTimespec.toNat ≤ (roundCachlineSize (v.toUInt64 * sizeofTimespec).toInt64).toInt

instance (v : Int64) : Decidable (fitsMedian v) := inferInstanceAs (Decidable (_ ≤ _))

/-- Argument 0 is the number of time-stamps, at least 1; the buffer has to be
allocated, when the channel is opened and when it is resized. -/
def medianArgs : ArgSpec MedianChannel Int64 where
  documented env ch a :=
    a.number = 0 ∧ 1 ≤ a.value ∧ ch.cl.parm = true ∧ env.heap.allocates
  inEffect ch v := ch.cl.maxTs = v ∧ ch.cl.holds v = true
  params ch := ch.cl.maxTs

/-- Where MEDIAN meets its contract. -/
def MedianFits (env : Env) (ch : MedianChannel) (a : Arg) : Prop :=
  ch.cl.parm = false ∨ a.number ≠ 0 ∨ a.value < 1 ∨
    (a.value < sizeofTimespec.toInt64 ∧ ¬ env.heap.allocates) ∨
    (sizeofTimespec.toInt64 ≤ a.value ∧ env.heap.allocates ∧ fitsMedian a.value)

/-- A value that is big enough for the parameter handler is at least 1. -/
theorem one_le_of_sizeofTimespec_le {v : Int64} (h : ¬ v < sizeofTimespec.toInt64) : 1 ≤ v := by
  rw [Int64.le_iff_toInt_le]
  rw [Int64.lt_iff_toInt_lt] at h
  exact le_trans (by decide) (not_lt.mp h)

/-- Where the parameter handler gets to the allocation. -/
theorem medianFits_iff {env : Env} {ch : MedianChannel} {a : Arg} (hparm : ch.cl.parm = true)
    (hno : ¬ (a.number ≠ 0 ∨ a.value < sizeofTimespec.toInt64)) :
    MedianFits env ch a ↔ env.heap.allocates ∧ fitsMedian a.value := by
  obtain ⟨hn, hge⟩ := not_or.mp hno
  have hlt : ¬ a.value < 1 := Int64.not_lt.mpr (one_le_of_sizeofTimespec_le hge)
  have hle := Int64.not_lt.mp hge
  simp only [MedianFits, hparm, hlt, hge, hle]
  grind

/-- A buffer that was accepted. -/
theorem median_accepted_iff {env : Env} {ch ch' : MedianChannel} {a : Arg}
    (hparm : ch.cl.parm = true)
    (hno : ¬ (a.number ≠ 0 ∨ a.value < sizeofTimespec.toInt64))
    (hcall : medianType.parameterizeChannel env ch a = some (0, ch'))
    (hopen : ch'.cl.base.isOpen = true) (hmax : ch'.cl.maxTs = a.value)
    (hbuf : env.heap.allocates → ch'.cl.buffer ≠ 0)
    (hsize : ch'.cl.bufSize = roundCachlineSize (a.value.toUInt64 * sizeofTimespec).toInt64) :
    medianType.MeetsContract medianArgs env ch a ↔ MedianFits env ch a := by
  have hn : a.number = 0 := by simpa using (not_or.mp hno).1
  have hone := one_le_of_sizeofTimespec_le (not_or.mp hno).2
  rw [meetsContract_accepted hcall, medianFits_iff hparm hno]
  constructor
  · rintro ⟨⟨-, -, -, halloc⟩, -, -, hholds⟩
    have hroom := (of_decide_eq_true hholds).2
    rw [hsize] at hroom
    exact ⟨halloc, hroom⟩
  · rintro ⟨halloc, hfits⟩
    refine ⟨⟨hn, hone, hparm, halloc⟩, hopen, hmax, decide_eq_true ⟨hbuf halloc, ?_⟩⟩
    rw [hsize]
    exact hfits

/-- **MEDIAN** compares the number of time-stamps with the size of one, takes
NULL for an aligned address, does not close the channel if it is out of
memory, and does not see the size overflow. -/
theorem median_contract_iff {env : Env} {ch : MedianChannel} {a : Arg}
    (hopen : medianType.isOpen ch = true) :
    medianType.MeetsContract medianArgs env ch a ↔ MedianFits env ch a := by
  have hopen' : ch.cl.base.isOpen = true := hopen
  cases hparm : ch.cl.parm with
  | false =>
      have hcall : medianType.parameterizeChannel env ch a = some (-1, ch.closeChannel) := by
        simp [parameterizeChannel, medianType, hparm]
      rw [meetsContract_refused hcall rfl rfl]
      simp [medianArgs, MedianFits, hparm]
  | true =>
      have hcall : medianType.parameterizeChannel env ch a = some (ch.setArg env a) := by
        simp [parameterizeChannel, medianType, hparm]
      by_cases hno : a.number ≠ 0 ∨ a.value < sizeofTimespec.toInt64
      · have hset : setArgMedianHandler env.heap ch.cl a =
            (-1, { ch.cl with base := ch.cl.base.closeChannel }) := if_pos hno
        simp only [MedianChannel.setArg, hset] at hcall
        rw [meetsContract_refused hcall rfl rfl]
        have hlt : a.value < 1 ↔ ¬ 1 ≤ a.value := Int64.not_le.symm
        have hle : sizeofTimespec.toInt64 ≤ a.value ↔ ¬ a.value < sizeofTimespec.toInt64 :=
          Int64.not_lt.symm
        simp only [medianArgs, MedianFits, hparm, hlt, hle]
        grind
      · by_cases halign : env.heap.realloc % cachelineSize.toUInt64 = 0
        · have hset : setArgMedianHandler env.heap ch.cl a = (0, { ch.cl with
              buffer := env.heap.realloc
              bufSize := roundCachlineSize (a.value.toUInt64 * sizeofTimespec).toInt64
              nrTs := 0
              maxTs := a.value }) := by
            simp only [setArgMedianHandler, if_neg hno, if_pos halign]
          simp only [MedianChannel.setArg, hset] at hcall
          exact median_accepted_iff hparm hno hcall hopen' rfl (fun h => h.1) rfl
        · by_cases halloc : env.heap.alignedAlloc = 0
          · have hset : setArgMedianHandler env.heap ch.cl a = (-1, { ch.cl with
                base := { ch.cl.base with null := true }
                parm := false, buffer := 0, bufSize := 0, nrTs := 0, maxTs := 0 }) := by
              simp only [setArgMedianHandler, if_neg hno, if_neg halign, if_pos halloc]
            simp only [MedianChannel.setArg, hset] at hcall
            rw [meetsContract_iff hcall, medianFits_iff hparm hno]
            -- the channel is left open
            have hnot : ¬ env.heap.allocates := fun h => h.2.elim halign fun h => h halloc
            exact ⟨fun hspec => absurd (hopen'.symm.trans (hspec.2.1 rfl).1) (by decide),
              fun h => absurd h.1 hnot⟩
          · have hset : setArgMedianHandler env.heap ch.cl a = (0, { ch.cl with
                buffer := env.heap.alignedAlloc
                bufSize := roundCachlineSize (a.value.toUInt64 * sizeofTimespec).toInt64
                nrTs := 0
                maxTs := a.value }) := by
              simp only [setArgMedianHandler, if_neg hno, if_neg halign, if_neg halloc]
            simp only [MedianChannel.setArg, hset] at hcall
            exact median_accepted_iff hparm hno hcall hopen' rfl (fun _ => halloc) rfl

/-! ## PERIODICCOUNTER -/

/-- Argument 0 is the period, at least 1 ns. -/
def periodicCounterArgs : ArgSpec PCClosure UInt64 where
  documented _ _ a := a.number = 0 ∧ 1 ≤ a.value
  inEffect cl v := cl.periodicIncNs = v.toUInt64
  params cl := cl.periodicIncNs

/-- With a period that is not zero, events and closes return and keep it. -/
theorem periodicCounter_step {cl : PCClosure} (h : cl.periodicIncNs ≠ 0) {l : Env × Call}
    (hl : CallsWith (fun _ => False) cl l) :
    ∃ cl', periodicCounterType.step cl l = some cl' ∧ cl'.periodicIncNs = cl.periodicIncNs := by
  obtain ⟨env, c⟩ := l
  have hclose : ∃ cl', cl.closeChannel env.now = some cl' ∧
      cl'.periodicIncNs = cl.periodicIncNs := by
    obtain ⟨cl', hc⟩ := PCClosure.closeChannel_isSome h env.now
    exact ⟨cl', hc, (PCClosure.closeChannel_eq hc).1⟩
  cases c with
  | logTS tuple =>
      simp only [ChannelType.step, logTS]
      split
      · exact hclose
      · split
        · exact ⟨cl, rfl, rfl⟩
        · obtain ⟨cl', hc⟩ := PCClosure.handler_isSome h env.now
          exact ⟨cl', hc, (PCClosure.prints_handler hc).2⟩
  | closeChannel | closeAllChannels => exact hclose
  | parameterizeChannel a | parameterizeChannelStr _ _ a => exact (hl a rfl).elim

/-- Nothing traps until the period is set again. -/
theorem periodicCounter_neverTraps {cl : PCClosure} (h : cl.periodicIncNs ≠ 0) :
    periodicCounterType.NeverTraps cl := by
  intro cl' hr l hl
  have hper : cl'.periodicIncNs ≠ 0 := by
    refine hr.invariant (I := fun cl => cl.periodicIncNs ≠ 0) h ?_
    intro cl₁ l cl₂ h₁ hl hs
    obtain ⟨cl₃, hs₃, hper⟩ := periodicCounter_step h₁ hl
    rw [hs] at hs₃
    cases hs₃
    rwa [hper]
  obtain ⟨cl'', hs, -⟩ := periodicCounter_step hper hl
  rw [hs, Option.isSome_some]

namespace PCClosure

variable {cl : PCClosure} {now : Timespec}

@[simp] theorem timeFlush_ensureHeader : cl.ensureHeader.timeFlush = cl.timeFlush := by
  unfold ensureHeader
  split <;> rfl

/-- `flushCtr` traps if the period is zero and over. -/
theorem flushCtr_eq_none_iff :
    cl.flushCtr now = none ↔ cl.periodicIncNs = 0 ∧ compareTS now cl.timeFlush ≠ -1 := by
  rw [flushCtr, Option.map_eq_none_iff, skippedIntervals]
  split
  · next hearly => simp [hearly]
  · next hlate => split <;> simp_all

theorem closeChannel_eq_none_iff :
    cl.closeChannel now = none ↔ cl.periodicIncNs = 0 ∧ compareTS now cl.timeFlush ≠ -1 := by
  rw [closeChannel, Option.map_eq_none_iff, flushCtr_eq_none_iff, periodicIncNs_ensureHeader,
    timeFlush_ensureHeader]

end PCClosure

/-- A period of zero traps when the channel is closed. -/
theorem periodicCounter_traps {cl : PCClosure} (h : cl.periodicIncNs = 0) :
    ¬ periodicCounterType.NeverTraps cl := by
  intro hnever
  have hlast := hnever cl .init (⟨cl.timeFlush, ⟨0, 0⟩, fun _ => cl.timeFlush⟩, .closeChannel)
    fun a ha => by cases ha
  have hnone : cl.closeChannel cl.timeFlush = none :=
    PCClosure.closeChannel_eq_none_iff.mpr ⟨h, by simp [compareTS]⟩
  have hsome : (cl.closeChannel cl.timeFlush).isSome = true := hlast
  rw [hnone] at hsome
  cases hsome

theorem one_le_iff {v : Int64} : 1 ≤ v ↔ ¬ v < 0 ∧ v ≠ 0 := by
  have hone : (1 : Int64).toInt = 1 := by decide
  have hzero : (0 : Int64).toInt = 0 := by decide
  rw [Int64.le_iff_toInt_le, Int64.lt_iff_toInt_lt, ne_eq, ← Int64.toInt_inj, hone, hzero]
  omega

theorem pos_iff_one_le {v : Int64} : 0 < v ↔ 1 ≤ v := by
  have hone : (1 : Int64).toInt = 1 := by decide
  have hzero : (0 : Int64).toInt = 0 := by decide
  rw [Int64.le_iff_toInt_le, Int64.lt_iff_toInt_lt, hone, hzero]
  omega

/-- The contract of PERIODICCOUNTER: besides, no event or close that follows
divides by a period of zero. -/
def PeriodicCounterContract (env : Env) (cl : PCClosure) (a : Arg) : Prop :=
  periodicCounterType.MeetsContract periodicCounterArgs env cl a ∧
    ∀ r, periodicCounterType.parameterizeChannel env cl a = some r →
      periodicCounterType.NeverTraps r.2

section PeriodicCounter

variable {env : Env} {cl : PCClosure} {a : Arg}

theorem periodicCounter_parameterizeChannel :
    periodicCounterType.parameterizeChannel env cl a =
      setArgPeriodicCounterHandler env.now cl a :=
  rfl

/-- A call that is refused. -/
theorem periodicCounter_refused_iff (hno : a.number ≠ 0 ∨ a.value < 0) :
    PeriodicCounterContract env cl a ↔ cl.periodicIncNs ≠ 0 := by
  have hset : setArgPeriodicCounterHandler env.now cl a =
      (cl.closeChannel env.now).map fun cl => (-1, cl) := if_pos hno
  constructor
  · rintro ⟨⟨ret, cl', hcall, -⟩, hnever⟩ hzero
    have hnever' := hnever _ hcall
    rw [periodicCounter_parameterizeChannel, hset] at hcall
    obtain ⟨cl₁, hc, heq⟩ := Option.map_eq_some_iff.mp hcall
    cases heq
    exact periodicCounter_traps ((PCClosure.closeChannel_eq hc).1.trans hzero) hnever'
  · intro hper
    obtain ⟨cl', hc⟩ := PCClosure.closeChannel_isSome hper env.now
    obtain ⟨hsame, b, -, hb⟩ := PCClosure.closeChannel_eq hc
    have hcall : periodicCounterType.parameterizeChannel env cl a = some (-1, cl') := by
      rw [periodicCounter_parameterizeChannel, hset, hc, Option.map_some]
    have hclosed : periodicCounterType.isOpen cl' = false := by
      show cl'.base.isOpen = false
      rw [hb]
      rfl
    refine ⟨(meetsContract_refused hcall hclosed hsame).mpr ?_, fun r hr => ?_⟩
    · rintro ⟨hn, hone⟩
      obtain hne | hneg := hno
      · exact hne hn
      · exact (one_le_iff.mp hone).1 hneg
    · rw [hcall] at hr
      cases hr
      exact periodicCounter_neverTraps (by rwa [hsame])

/-- A call that is accepted, if it returns. -/
theorem periodicCounter_accepted_iff (hopen : periodicCounterType.isOpen cl = true)
    (hno : ¬ (a.number ≠ 0 ∨ a.value < 0)) :
    PeriodicCounterContract env cl a ↔
      a.value ≠ 0 ∧ (cl.periodicIncNs ≠ 0 ∨ compareTS env.now cl.timeFlush = -1) := by
  have hset : ∀ r, setArgPeriodicCounterHandler env.now cl a = some r → r.1 = 0 := by
    intro r hr
    rw [setArgPeriodicCounterHandler, if_neg hno] at hr
    obtain ⟨cl₁, -, rfl⟩ := Option.map_eq_some_iff.mp hr
    rfl
  have hreturns : (∃ r, setArgPeriodicCounterHandler env.now cl a = some r) ↔
      cl.periodicIncNs ≠ 0 ∨ compareTS env.now cl.timeFlush = -1 := by
    rw [← Option.ne_none_iff_exists', setArgPeriodicCounterHandler, if_neg hno, ne_eq,
      Option.map_eq_none_iff, PCClosure.flushCtr_eq_none_iff]
    simp only [PCClosure.periodicIncNs_ensureHeader, PCClosure.timeFlush_ensureHeader]
    grind
  rw [← hreturns]
  constructor
  · rintro ⟨⟨ret, cl', hcall, hiff, -⟩, -⟩
    have hret : ret = 0 := hset _ hcall
    have hdoc : periodicCounterArgs.documented env cl a := by
      by_contra hno
      rw [hret] at hiff
      exact absurd (hiff.mpr hno) (by decide)
    exact ⟨(one_le_iff.mp hdoc.2).2, _, hcall⟩
  · rintro ⟨hv, r, hr⟩
    have hzero := hset r hr
    obtain ⟨cl', -, hrefused⟩ | ⟨hn, hge, hret, hw, hper⟩ := setArgPeriodicCounterHandler_eq hr
    · rw [hrefused] at hzero
      exact absurd (show (-1 : Int) = 0 from hzero) (by decide)
    have hcall : periodicCounterType.parameterizeChannel env cl a = some (0, r.2) := by
      rw [← hret]
      exact hr
    have hopen' : r.2.base.isOpen = true := hw.isOpen.trans hopen
    refine ⟨(meetsContract_accepted hcall).mpr ⟨⟨hn, ?_⟩, hopen', hper⟩, fun r' hr' => ?_⟩
    · exact one_le_iff.mpr ⟨Int64.not_lt.mpr hge, hv⟩
    · rw [hcall] at hr'
      cases hr'
      exact periodicCounter_neverTraps (by rw [hper]; exact toUInt64_ne_zero hv)

/-- **PERIODICCOUNTER** accepts a period of zero, which traps later.  The
call itself needs the period that was set before, unless the first period is
not over. -/
theorem periodicCounter_contract_iff (hopen : periodicCounterType.isOpen cl = true) :
    PeriodicCounterContract env cl a ↔ (a.number ≠ 0 ∨ a.value ≠ 0) ∧
      (cl.periodicIncNs ≠ 0 ∨
        a.number = 0 ∧ 0 < a.value ∧ compareTS env.now cl.timeFlush = -1) := by
  rw [pos_iff_one_le, one_le_iff]
  by_cases hno : a.number ≠ 0 ∨ a.value < 0
  · rw [periodicCounter_refused_iff hno]
    have hneg : a.value < 0 → a.value ≠ 0 := fun h h0 => by
      rw [h0] at h
      exact absurd h (by decide)
    grind
  · rw [periodicCounter_accepted_iff hopen hno]
    grind

end PeriodicCounter

end CloudProfiler
