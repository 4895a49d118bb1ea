import CloudProfiler.FileName
import CloudProfiler.Handler.Contract
import CloudProfiler.Handler.XoY

/-!
# CloudProfiler.Handler.Literal

String parameters: `convertA2Inoexit` (`util.c`) and the string overload of
`parameterizeChannel` (`channels.cpp`), for the handlers that work in the
thread of the caller.

A string that is no numeral closes the channel, but the overload goes on: it
calls the integer overload with what was read up to the error.

* `strtoull`, `convertA2Inoexit` — the conversion;
* `ChannelType.parameterizeChannelText` — the overload;
* `ChannelType.Rejects` — a string that does not convert is an error;
* one lemma for each handler type.
-/

namespace CloudProfiler

/-! ## the conversion -/

/-- `isspace`. -/
def isSpace (c : Char) : Bool :=
  c = ' ' || c = '\t' || c = '\n' || c = '\x0b' || c = '\x0c' || c = '\r'

/-- `ULLONG_MAX`. -/
def ullongMax : UInt64 := 18446744073709551615

/-- `strtoull(str, &endptr, 10)`: the value, and what `endptr` points to. -/
def strtoull (str : List Char) : UInt64 × List Char :=
  let t := str.dropWhile isSpace
  let u := match t with
    | '-' :: u | '+' :: u => u
    | _ => t
  let digits := u.takeWhile Char.isDigit
  let n := Nat.ofDigitChars 10 digits 0
  if digits = [] then (0, str)
  else if 2 ^ 64 ≤ n then (ullongMax, u.dropWhile Char.isDigit)
  else if t.head? = some '-' then (-UInt64.ofNat n, u.dropWhile Char.isDigit)
  else (UInt64.ofNat n, u.dropWhile Char.isDigit)

/-- `struct conv_result`; `err_msg` is not written if the conversion is valid. -/
structure ConvResult where
  result : UInt64
  valid : Bool
  errMsg : Option (List Char)
  deriving DecidableEq, Repr

/-- The factor of a postfix. -/
def postfixFactor (s : List Char) : Option UInt64 :=
  if s = lit "KB" then some 1000
  else if s = lit "KiB" then some 1024
  else if s = lit "MB" then some 1000000
  else if s = lit "MiB" then some 1048576
  else if s = lit "GB" then some 1000000000
  else if s = lit "GiB" then some 1073741824
  else none

/-- `convertA2Inoexit`, for the characters up to the terminating zero. -/
def convertA2Inoexit (str : List Char) : ConvResult :=
  let r := strtoull str
  if r.2 = str then ⟨r.1, false, some ((lit "Invalid number: " ++ str).take 1023)⟩
  else if r.2 = [] then ⟨r.1, true, none⟩
  else
    match postfixFactor r.2 with
    | some factor => ⟨r.1 * factor, true, none⟩
    | none => ⟨r.1, false, some ((lit "Invalid number postfix: " ++ str).take 1023)⟩

/-- `c_str`. -/
def cChars (s : List Char) : List Char := s.takeWhile (· ≠ '\x00')

/-- The value the string overload passes on. -/
def literalValue (s : List Char) : Int64 := (convertA2Inoexit (cChars s)).result.toInt64

/-- The string is a numeral. -/
def isLiteral (s : List Char) : Bool := (convertA2Inoexit (cChars s)).valid

example : literalValue (lit " 10KiB") = 10240 ∧ isLiteral (lit " 10KiB") = true := by decide +kernel
example : literalValue (lit "-7 apples") = -7 ∧ isLiteral (lit "-7 apples") = false := by decide +kernel

namespace ChannelType

variable {σ ι π : Type} (k : ChannelType σ ι)

/-- The string overload of `parameterizeChannel`. -/
def parameterizeChannelText (env : Env) (later : Timespec) (cl : σ) (number : Int32)
    (s : List Char) : Option (Int × σ) :=
  k.parameterizeChannelStr env cl (isLiteral s) later ⟨number, literalValue s, fun _ => 0⟩

/-- **A string is rejected**: the call returns `-1` and leaves a closed
channel with the parameters it had. -/
def Rejects (params : σ → π) (env : Env) (later : Timespec) (cl : σ) (number : Int32)
    (s : List Char) : Prop :=
  ∃ cl', k.parameterizeChannelText env later cl number s = some (-1, cl') ∧
    k.isOpen cl' = false ∧ params cl' = params cl

variable {k} {params : σ → π} {env : Env} {later : Timespec} {cl cl₁ : σ} {number : Int32}
  {s : List Char}

/-- A numeral is passed on. -/
theorem parameterizeChannelText_eq (hs : isLiteral s = true) :
    k.parameterizeChannelText env later cl number s =
      k.parameterizeChannel env cl ⟨number, literalValue s, fun _ => 0⟩ := by
  rw [parameterizeChannelText, parameterizeChannelStr, if_pos hs]

/-- A string that is no numeral is passed on as well, to a closed channel. -/
theorem rejects_iff (hs : isLiteral s = false) (hc : k.closeChannel env cl = some cl₁) :
    k.Rejects params env later cl number s ↔ ∃ cl',
      k.parameterizeChannel { env with now := later } cl₁ ⟨number, literalValue s, fun _ => 0⟩ =
        some (-1, cl') ∧ k.isOpen cl' = false ∧ params cl' = params cl := by
  rw [Rejects, parameterizeChannelText, parameterizeChannelStr, hs, if_neg (by decide), hc,
    Option.bind_some]

/-- A handler type without a parameter handler rejects every string that is no
numeral. -/
theorem noArgs_rejects (hparm : ∀ cl, k.parm cl = false)
    (hclose : ∀ env cl, ∃ cl', k.closeChannel env cl = some cl' ∧ k.isOpen cl' = false)
    (hs : isLiteral s = false) : k.Rejects (fun _ => ()) env later cl number s := by
  obtain ⟨cl₁, hc, -⟩ := hclose env cl
  obtain ⟨cl₂, hc₂, hopen⟩ := hclose { env with now := later } cl₁
  refine (rejects_iff hs hc).mpr ⟨cl₂, ?_, hopen, rfl⟩
  rw [parameterizeChannel, if_neg (by simp [hparm]), hc₂, Option.map_some]

end ChannelType

open ChannelType

/-! ## the handler types -/

section Handlers

variable {env : Env} {later : Timespec} {number : Int32} {s : List Char}

/-- DOWNSAMPLE has a check for the arguments it does not have only. -/
theorem downsample_rejects_iff (hn : number ≠ -1) (hs : isLiteral s = false)
    (cl : DownsampleClosure) :
    downsampleType.Rejects (·.factor) env later cl number s ↔ number ≠ 0 := by
  rw [rejects_iff hs rfl]
  by_cases h : number = 0
  · refine iff_of_false ?_ (not_not.mpr h)
    rintro ⟨cl', hcall, -⟩
    have hone : some (setOneDownsample { cl with base := cl.base.closeChannel } 0
        (literalValue s)) = some (-1, cl') := by
      simpa [parameterizeChannel, downsampleType, setArgDownsampleHandler, h] using hcall
    simp [setOneDownsample] at hone
  · refine iff_of_true ⟨{ cl with base := cl.base.closeChannel }, ?_, rfl, rfl⟩ h
    simp [parameterizeChannel, downsampleType, setArgDownsampleHandler, h, hn, Base.closeChannel]

/-- XOY refuses a factor that is too large or too small, and a Y that does not
pass for a power of two. -/
def XoYClosure.Refuses (cl : XoYClosure) (number : Int32) (v : Int64) : Prop :=
  (number = 0 → cl.yFactor < v.toUInt64) ∧
    (number = 1 → v.toUInt64 < cl.xFactor ∨ ¬ (IsPow v ∨ Misread v))

theorem xoy_rejects_iff (hn : number ≠ -1) (hs : isLiteral s = false) {cl : XoYClosure}
    (hy : cl.Passes) :
    xoyType.Rejects XoYClosure.factors env later cl number s ↔ cl.Refuses number (literalValue s) := by
  obtain ⟨cl₁, hcl₁⟩ : ∃ cl₁ : XoYClosure, { cl with base := cl.base.closeChannel } = cl₁ := ⟨_, rfl⟩
  have hy₁ : cl₁.Passes := hcl₁ ▸ hy
  have hx : cl₁.xFactor = cl.xFactor := hcl₁ ▸ rfl
  have hyf : cl₁.yFactor = cl.yFactor := hcl₁ ▸ rfl
  have hf : cl₁.factors = cl.factors := hcl₁ ▸ rfl
  rw [rejects_iff hs (congrArg some hcl₁)]
  show (∃ cl', some (setArgXoYHandler cl₁ ⟨number, literalValue s, fun _ => 0⟩) = some (-1, cl') ∧
    cl'.base.isOpen = false ∧ cl'.factors = cl.factors) ↔ _
  by_cases hone : number = 0 ∨ number = 1
  · rw [XoYClosure.setArg_one hone]
    have hrejects : (∃ cl', some (setOneXoY cl₁ number (literalValue s)) = some (-1, cl') ∧
        cl'.base.isOpen = false ∧ cl'.factors = cl.factors) ↔
        ¬ (setOneXoY cl₁ number (literalValue s)).1 = 0 := by
      constructor
      · rintro ⟨cl', hcall, -⟩ h0
        rw [Option.some.inj hcall] at h0
        cases h0
      · intro h0
        have hret := (XoYClosure.setOne_returns cl₁ number (literalValue s)).resolve_left h0
        have hrest := XoYClosure.setOne_refused hret
        exact ⟨_, congrArg some (Prod.ext hret hrest), rfl, hf⟩
    rw [hrejects, XoYClosure.Refuses]
    obtain rfl | rfl := hone
    · rw [XoYClosure.setOne_zero_iff hy₁, hyf, UInt64.not_le]
      simp
    · rw [XoYClosure.setOne_one_iff, hx]
      simp only [show (1 : Int32) ≠ 0 by decide, false_implies, true_and, forall_const]
      rw [Classical.not_and_iff_not_or_not, UInt64.not_le]
  · obtain ⟨h0, h1⟩ := not_or.mp hone
    refine iff_of_true ⟨{ cl₁ with base := cl₁.base.closeChannel }, ?_, rfl, hf⟩
      ⟨fun h => absurd h h0, fun h => absurd h h1⟩
    simp [setArgXoYHandler, h0, h1, hn]

/-- FOX_END channels: what the calls of the application do with them.  The
answer of the start node is there at time `received`; without one the handler
does not return. -/
def foxEndType (received : Option Timespec) :
    ChannelType (Base (Int64 × Timespec × Int64)) (List (Int64 × Timespec × Int64)) where
  isOpen := Base.isOpen
  log := Base.lines
  null := Base.null
  parm _ := true
  handler env cl tuple := received.map fun ts2 =>
    cl.put (tuple, env.now, (ts2.elapsedNs - env.now.elapsedNs).toInt64)
  closeChannel _ cl := some cl.closeChannel
  setArg _ cl _ := some (0, cl)

/-- FOX_END accepts everything. -/
theorem foxEnd_not_rejects (hs : isLiteral s = false) (received : Option Timespec)
    (cl : Base (Int64 × Timespec × Int64)) :
    ¬ (foxEndType received).Rejects (fun _ => ()) env later cl number s := by
  rw [rejects_iff hs rfl]
  rintro ⟨cl', hcall, -⟩
  simp [parameterizeChannel, foxEndType] at hcall

/-- Defect channels: the calls are logged once, in the status log. -/
structure DefectClosure where
  handlerFCalled : Bool
  parmHandlerFCalled : Bool
  deriving DecidableEq, Repr

def defectType : ChannelType DefectClosure Unit where
  isOpen _ := false
  log _ := ()
  null _ := false
  parm _ := true
  handler _ cl _ := some { cl with handlerFCalled := true }
  closeChannel _ cl := some cl
  setArg _ cl _ := some (-1, { cl with parmHandlerFCalled := true })

/-- A defect channel is an error at any rate. -/
theorem defect_rejects (hs : isLiteral s = false) (cl : DefectClosure) :
    defectType.Rejects (fun _ => ()) env later cl number s :=
  (rejects_iff hs rfl).mpr ⟨_, rfl, rfl, rfl⟩

/-- The parameter of a MEDIAN channel, as long as it has its parameter handler. -/
def MedianClosure.Sized (cl : MedianClosure) : Prop :=
  cl.parm = true → sizeofTimespec.toInt64 ≤ cl.maxTs

theorem median_sized_setArg {heap : Heap} {cl : MedianClosure} (h : cl.Sized) (a : Arg) :
    (setArgMedianHandler heap cl a).2.Sized := by
  unfold setArgMedianHandler
  split
  · exact h
  · next hno =>
    have hge := Int64.not_lt.mp (not_or.mp hno).2
    dsimp only
    split
    · exact fun _ => hge
    · split
      · exact fun hparm => nomatch hparm
      · exact fun _ => hge

/-- Every call keeps the size. -/
theorem median_sized : medianType.Keeps (fun _ => True) fun ch => ch.cl.Sized where
  handler env ch tuple ch' hI hs := by
    have hs' : ch.handler env = some ch' := hs
    unfold MedianChannel.handler at hs'
    dsimp only at hs'
    split at hs' <;> split at hs'
    · cases hs'
      exact hI
    · contradiction
    · cases hs'
      exact hI
    · contradiction
  closeChannel env ch ch' hI hs := by
    cases hs
    exact hI
  setArg env ch a r hI _ hs := by
    cases hs
    exact median_sized_setArg hI a

/-- MEDIAN refuses a size that is smaller than that of a time-stamp. -/
theorem median_rejects_iff (hs : isLiteral s = false) {ch : MedianChannel} (hsize : ch.cl.Sized) :
    medianType.Rejects (·.cl.maxTs) env later ch number s ↔
      ch.cl.parm = false ∨ number ≠ 0 ∨ literalValue s < sizeofTimespec.toInt64 := by
  rw [rejects_iff hs rfl]
  cases hparm : ch.cl.parm with
  | false =>
      refine iff_of_true ⟨ch.closeChannel.closeChannel, ?_, rfl, rfl⟩ (.inl rfl)
      rw [parameterizeChannel, if_neg (by simp [medianType, MedianChannel.closeChannel, hparm])]
      rfl
  | true =>
      simp only [Bool.true_eq_false, false_or]
      have hcall : ∀ a, medianType.parameterizeChannel { env with now := later } ch.closeChannel a =
          some (ch.closeChannel.setArg { env with now := later } a) := fun a =>
        if_pos (show ch.closeChannel.cl.parm = true from hparm)
      rw [hcall]
      by_cases hno : number ≠ 0 ∨ literalValue s < sizeofTimespec.toInt64
      · refine iff_of_true ⟨_, congrArg some (Prod.ext ?_ rfl), ?_, ?_⟩ hno <;>
          simp only [MedianChannel.setArg, setArgMedianHandler, if_pos hno, medianType] <;>
          rfl
      · refine iff_of_false ?_ hno
        rintro ⟨ch', hcall, -, hmax⟩
        rw [Option.some.injEq] at hcall
        have hfst := congrArg Prod.fst hcall
        have hsnd := congrArg (fun r => r.2.cl.maxTs) hcall
        simp only [MedianChannel.setArg, setArgMedianHandler, if_neg hno] at hfst hsnd
        split at hfst
        · cases hfst
        · split at hfst
          · next hreal halloc =>
            rw [if_neg hreal, if_pos halloc] at hsnd
            have hzero : ch.cl.maxTs = 0 := hmax.symm.trans hsnd.symm
            have hge := hsize hparm
            rw [hzero] at hge
            exact absurd hge (by decide)
          · cases hfst

/-- Closing leaves the period and the end of the interval. -/
theorem PCClosure.closeChannel_keeps {cl cl' : PCClosure} {now : Timespec}
    (h : cl.closeChannel now = some cl') :
    cl'.periodicIncNs = cl.periodicIncNs ∧ cl'.timeFlush = cl.timeFlush := by
  obtain ⟨cl₁, h₁, rfl⟩ := Option.map_eq_some_iff.mp h
  obtain ⟨n, -, rfl⟩ := Option.map_eq_some_iff.mp h₁
  exact ⟨periodicIncNs_ensureHeader cl, timeFlush_ensureHeader⟩

/-- A close that returns has not divided by a period of zero. -/
theorem PCClosure.ne_zero_or_of_closeChannel {cl cl' : PCClosure} {now : Timespec}
    (h : cl.closeChannel now = some cl') :
    cl.periodicIncNs ≠ 0 ∨ compareTS now cl.timeFlush = -1 := by
  by_contra hno
  obtain ⟨hzero, hlate⟩ := not_or.mp hno
  have hnone := PCClosure.closeChannel_eq_none_iff.mpr ⟨not_not.mp hzero, hlate⟩
  rw [hnone] at h
  cases h

/-- PERIODICCOUNTER refuses a negative period.  Nothing may divide by a period
of zero. -/
theorem periodicCounter_rejects_iff (hs : isLiteral s = false) (cl : PCClosure) :
    periodicCounterType.Rejects (·.periodicIncNs) env later cl number s ↔
      (number ≠ 0 ∨ literalValue s < 0) ∧
        (cl.periodicIncNs ≠ 0 ∨ compareTS env.now cl.timeFlush = -1 ∧
          compareTS later cl.timeFlush = -1) := by
  cases hc : cl.closeChannel env.now with
  | none =>
      obtain ⟨hzero, hlate⟩ := PCClosure.closeChannel_eq_none_iff.mp hc
      refine iff_of_false ?_ fun h => h.2.elim (fun h => h hzero) fun h => hlate h.1
      rintro ⟨cl', hcall, -⟩
      rw [parameterizeChannelText, parameterizeChannelStr, hs, if_neg (by decide)] at hcall
      rw [show periodicCounterType.closeChannel env cl = none from hc] at hcall
      cases hcall
  | some cl₁ =>
      have hreturns := PCClosure.ne_zero_or_of_closeChannel hc
      obtain ⟨hper, hflush⟩ := PCClosure.closeChannel_keeps hc
      rw [rejects_iff hs (show periodicCounterType.closeChannel env cl = some cl₁ from hc)]
      show (∃ cl', setArgPeriodicCounterHandler later cl₁ ⟨number, literalValue s, fun _ => 0⟩ =
        some (-1, cl') ∧ cl'.base.isOpen = false ∧ cl'.periodicIncNs = cl.periodicIncNs) ↔ _
      by_cases hno : number ≠ 0 ∨ literalValue s < 0
      · have hset : setArgPeriodicCounterHandler later cl₁ ⟨number, literalValue s, fun _ => 0⟩ =
            (cl₁.closeChannel later).map fun cl => (-1, cl) := if_pos hno
        rw [hset]
        cases hc₂ : cl₁.closeChannel later with
        | none =>
            obtain ⟨hzero, hlate⟩ := PCClosure.closeChannel_eq_none_iff.mp hc₂
            rw [hper] at hzero
            rw [hflush] at hlate
            refine iff_of_false ?_ fun h => h.2.elim (fun h => h hzero) fun h => hlate h.2
            rintro ⟨cl', hcall, -⟩
            cases hcall
        | some cl₂ =>
            have hreturns₂ := PCClosure.ne_zero_or_of_closeChannel hc₂
            rw [hper, hflush] at hreturns₂
            obtain ⟨hper₂, b, -, hb⟩ := PCClosure.closeChannel_eq hc₂
            refine iff_of_true ⟨cl₂, rfl, by rw [hb]; rfl, hper₂.trans hper⟩ ⟨hno, ?_⟩
            by_cases hzero : cl.periodicIncNs = 0
            · exact .inr ⟨hreturns.resolve_left fun h => h hzero,
                hreturns₂.resolve_left fun h => h hzero⟩
            · exact .inl hzero
      · refine iff_of_false ?_ fun h => hno h.1
        rintro ⟨cl', hcall, -⟩
        rw [setArgPeriodicCounterHandler, if_neg hno] at hcall
        obtain ⟨cl₂, -, heq⟩ := Option.map_eq_some_iff.mp hcall
        cases congrArg Prod.fst heq

/-! ### GPIORTT -/

/-- What `setArgGPIORTTHandler` gets from outside: whether the governor, the
frequencies and the PMU are set up, whether the GPIO is mapped, the thread of
the master is created and detached and that of the client is bound, and
whether the other side answers. -/
structure GpiorttEnv where
  governer : Bool
  frequency : Bool
  pmu : Bool
  gpio : Bool
  create : Bool
  detach : Bool
  affinity : Bool
  answers : Bool
  elapsed : UInt64

/-- The parameters of `struct GPIORTT_closure`. -/
structure GpiorttChannel where
  base : Base (Int64 × UInt64)
  cpuNum : UInt64
  cpuKhz : UInt64
  isMaster : Bool

namespace GpiorttChannel

/-- `closure::closeChannel`. -/
def closeChannel (cl : GpiorttChannel) : GpiorttChannel :=
  { cl with base := cl.base.closeChannel }

/-- The part of `setArgGPIORTTHandler` for a single argument.  There is no
result if the client waits for its master in vain. -/
def setOne (env : GpiorttEnv) (cl : GpiorttChannel) (number : Int32) (value : Int64) :
    Option (Int × GpiorttChannel) :=
  if number = 0 then
    let cl := { cl with cpuNum := value.toUInt64 }
    some (if env.governer then (0, cl) else (-1, cl.closeChannel))
  else if number = 1 then
    let cl := { cl with cpuKhz := value.toUInt64 }
    some (if env.frequency && env.pmu then (0, cl) else (-1, cl.closeChannel))
  else if value ≠ 0 ∧ value ≠ 1 then some (-1, cl.closeChannel)
  else
    let cl := { cl with isMaster := value = 1 }
    if !env.gpio then some (-1, cl.closeChannel)
    else if cl.isMaster then
      some (if env.create && env.detach then (0, cl) else (-1, cl.closeChannel))
    else if !env.affinity then some (-1, cl.closeChannel)
    else if env.answers then some (0, cl)
    else none

/-- `setArgGPIORTTHandler`. -/
def setArgGPIORTTHandler (env : GpiorttEnv) (cl : GpiorttChannel) (a : Arg) :
    Option (Int × GpiorttChannel) :=
  if a.number ≠ 2 ∧ a.number ≠ 1 ∧ a.number ≠ 0 ∧ a.number ≠ -1 then some (-1, cl.closeChannel)
  else if a.number = -1 then
    if a.par 0 ≠ 3 then some (-1, cl.closeChannel)
    else
      (cl.setOne env 0 (a.par 1).toInt64).bind fun r =>
        if r.1 = -1 then some (-1, r.2)
        else (r.2.setOne env 1 (a.par 2).toInt64).bind fun r =>
          if r.1 = -1 then some (-1, r.2) else r.2.setOne env 2 (a.par 3).toInt64
  else cl.setOne env a.number a.value

/-- The handler of the client, with the round trip it measured. -/
def handler (env : GpiorttEnv) (cl : GpiorttChannel) (tuple : Int64) : Option GpiorttChannel :=
  if cl.isMaster then some cl
  else if env.answers then some { cl with base := cl.base.put (tuple, env.elapsed) }
  else none

end GpiorttChannel

/-- GPIORTT channels. -/
def gpiorttType (g : GpiorttEnv) : ChannelType GpiorttChannel (List (Int64 × UInt64)) where
  isOpen cl := cl.base.isOpen
  log cl := cl.base.lines
  null cl := cl.base.null
  parm _ := true
  handler _ cl tuple := cl.handler g tuple
  closeChannel _ cl := some cl.closeChannel
  setArg _ cl a := cl.setArgGPIORTTHandler g a

/-- The processor, its frequency and the side. -/
def GpiorttChannel.params (cl : GpiorttChannel) : UInt64 × UInt64 × Bool :=
  (cl.cpuNum, cl.cpuKhz, cl.isMaster)

/-- GPIORTT stores an argument before it checks it: it is refused without a
change if a check fails and the value was there before. -/
def GpiorttChannel.Refuses (g : GpiorttEnv) (cl : GpiorttChannel) (number : Int32) (v : Int64) :
    Prop :=
  (number = 0 → g.governer = false ∧ v.toUInt64 = cl.cpuNum) ∧
    (number = 1 → (g.frequency && g.pmu) = false ∧ v.toUInt64 = cl.cpuKhz) ∧
    (number = 2 → v ≠ 0 ∧ v ≠ 1 ∨
      cl.isMaster = decide (v = 1) ∧
        (g.gpio = false ∨ if v = 1 then (g.create && g.detach) = false else g.affinity = false))

theorem gpiortt_rejects_iff (hn : number ≠ -1) (hs : isLiteral s = false) (g : GpiorttEnv)
    (cl : GpiorttChannel) :
    (gpiorttType g).Rejects GpiorttChannel.params env later cl number s ↔
      cl.Refuses g number (literalValue s) := by
  rw [rejects_iff hs rfl]
  show (∃ cl', cl.closeChannel.setArgGPIORTTHandler g ⟨number, literalValue s, fun _ => 0⟩ =
    some (-1, cl') ∧ cl'.base.isOpen = false ∧ cl'.params = cl.params) ↔ _
  generalize literalValue s = v
  by_cases hno : number ≠ 2 ∧ number ≠ 1 ∧ number ≠ 0 ∧ number ≠ -1
  · obtain ⟨h2, h1, h0, -⟩ := id hno
    rw [GpiorttChannel.setArgGPIORTTHandler, if_pos hno]
    exact iff_of_true ⟨_, rfl, rfl, rfl⟩
      ⟨fun h => absurd h h0, fun h => absurd h h1, fun h => absurd h h2⟩
  · rw [GpiorttChannel.setArgGPIORTTHandler, if_neg hno, if_neg hn]
    show (∃ cl', cl.closeChannel.setOne g number v = some (-1, cl') ∧ cl'.base.isOpen = false ∧
      cl'.params = cl.params) ↔ _
    have hcases : number = 0 ∨ number = 1 ∨ number = 2 := by tauto
    obtain rfl | rfl | rfl := hcases
    · rw [GpiorttChannel.setOne, if_pos rfl]
      cases hg : g.governer <;>
        simp [GpiorttChannel.Refuses, GpiorttChannel.closeChannel, GpiorttChannel.params,
          Base.closeChannel, hg]
    · rw [GpiorttChannel.setOne, if_neg (by decide), if_pos rfl]
      cases hg : g.frequency && g.pmu <;>
        simp [GpiorttChannel.Refuses, GpiorttChannel.closeChannel, GpiorttChannel.params,
          Base.closeChannel, hg]
    · rw [GpiorttChannel.setOne, if_neg (by decide), if_neg (by decide)]
      by_cases hv : v ≠ 0 ∧ v ≠ 1
      · rw [if_pos hv]
        exact iff_of_true ⟨_, rfl, rfl, rfl⟩
          ⟨fun h => absurd h (by decide), fun h => absurd h (by decide), fun _ => .inl hv⟩
      · rw [if_neg hv]
        obtain rfl | rfl : v = 0 ∨ v = 1 := by tauto
        · cases hg : g.gpio <;> cases ha : g.affinity <;> cases hx : g.answers <;>
            simp [GpiorttChannel.Refuses, GpiorttChannel.closeChannel, GpiorttChannel.params,
              Base.closeChannel, hg, ha]
        · cases hg : g.gpio <;> cases hc : g.create && g.detach <;>
            simp [GpiorttChannel.Refuses, GpiorttChannel.closeChannel, GpiorttChannel.params,
              Base.closeChannel, hg, hc]

end Handlers

end CloudProfiler
