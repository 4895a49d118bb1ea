import CloudProfiler.Time

/-!
# CloudProfiler.Handler

The handlers with parameters that work in the thread of the caller, and
their parameter handlers: `downsample_handler.cpp`, `XoY_handler.cpp`,
`median_handler.cpp`, `periodic_counter_handler.cpp`; and what the parameter
handler of `fast_periodic_counter_handler.cpp` makes of its arguments.

A parameter handler is called with an argument number and a value; number
`-1` stands for all arguments at once, and the value is then the address of
an array with the number of arguments in front (`par`).  It returns `0`, or
`-1` after an error.
-/

namespace CloudProfiler

/-- The arguments of a parameter handler; `par` is what `value` points to. -/
structure Arg where
  number : Int32
  value : Int64
  par : Nat → UInt64

/-- The arguments with which `openChannel` passes on what the server sent. -/
def Arg.all (vs : List Int64) : Arg where
  number := -1
  value := 0
  par := fun i => if i = 0 then UInt64.ofNat vs.length else (vs.getD (i - 1) 0).toUInt64

/-- The arguments of `parameterizeChannel`. -/
def Arg.one (i : Nat) (v : Int64) : Arg := ⟨Int32.ofNat i, v, fun _ => 0⟩

/-- The part of `struct closure` the parameter handlers use: whether
`handler_f` was replaced by `NullHandler`, and the log file, a list of lines
of type `ι`. -/
structure Base (ι : Type) where
  null : Bool
  isOpen : Bool
  lines : List ι

namespace Base

variable {ι : Type}

/-- A closure whose file was opened. -/
def opened : Base ι := ⟨false, true, []⟩

/-- `ch_logf << … << std::endl`. -/
def put (b : Base ι) (l : ι) : Base ι := if b.isOpen then { b with lines := b.lines ++ [l] } else b

@[simp] theorem isOpen_put (b : Base ι) (l : ι) : (b.put l).isOpen = b.isOpen := by
  unfold put
  split <;> rfl

/-- `closure::closeChannel`. -/
def closeChannel (b : Base ι) : Base ι := { b with null := true, isOpen := false }

end Base

/-! ## DOWNSAMPLE -/

/-- `SAMPLING_FACTOR`. -/
def samplingFactor : Int64 := 10

/-- `struct downsample_closure`. -/
structure DownsampleClosure where
  base : Base (Int64 × Timespec)
  factor : Int64
  counter : Int64

/-- `initDownsampleHandler`, with the file opened. -/
def initDownsampleHandler : DownsampleClosure := ⟨.opened, samplingFactor, 1⟩

/-- The part of `setArgDownsampleHandler` for a single argument. -/
def setOneDownsample (cl : DownsampleClosure) (number : Int32) (value : Int64) :
    Int × DownsampleClosure :=
  if number ≠ 0 ∧ value < 1 then (-1, { cl with base := cl.base.closeChannel })
  else (0, { cl with factor := value })

/-- `setArgDownsampleHandler`. -/
def setArgDownsampleHandler (cl : DownsampleClosure) (a : Arg) : Int × DownsampleClosure :=
  if a.number ≠ 0 ∧ a.number ≠ -1 then (-1, { cl with base := cl.base.closeChannel })
  else if a.number = -1 then
    if a.par 0 ≠ 1 then (-1, { cl with base := cl.base.closeChannel })
    else setOneDownsample cl 0 (a.par 1).toInt64
  else setOneDownsample cl a.number a.value

/-! ## XOY -/

/-- `X_FACTOR`. -/
def xFactorDefault : UInt64 := 100

/-- `Y_FACTOR`. -/
def yFactorDefault : UInt64 := 16384

/-- `struct XoY_closure`. -/
structure XoYClosure where
  base : Base (Int64 × Timespec)
  xFactor : UInt64
  yFactor : UInt64
  yMask : UInt64

/-- `initXoYHandler`, with the file opened. -/
def initXoYHandler : XoYClosure := ⟨.opened, xFactorDefault, yFactorDefault, yFactorDefault - 1⟩

/-- `(double) n`: round to nearest with 53 significant bits, ties to even. -/
def toDouble (n : Nat) : Nat :=
  if n < 2 ^ 53 then n
  else
    let e := n.log2 - 52
    let q := n / 2 ^ e
    let r := n % 2 ^ e
    (if r > 2 ^ (e - 1) ∨ (r = 2 ^ (e - 1) ∧ q % 2 = 1) then q + 1 else q) * 2 ^ e

/-- `pow(2, floor(log2(d))) == d` for a natural number `d`.  `log2` is exact
on powers of two, `log2(0)` is minus infinity and `pow` of that is `0`. -/
def passesLog2 (d : Nat) : Bool := d == 0 || 2 ^ d.log2 == d

/-- `checkConsistency`. -/
def checkConsistency (x y : UInt64) : Bool := !(y < x) && passesLog2 (toDouble y.toNat)

/-- The part of `setArgXoYHandler` for a single argument. -/
def setOneXoY (cl : XoYClosure) (number : Int32) (value : Int64) : Int × XoYClosure :=
  if number = 0 then
    if checkConsistency value.toUInt64 cl.yFactor then (0, { cl with xFactor := value.toUInt64 })
    else (-1, { cl with base := cl.base.closeChannel })
  else
    if checkConsistency cl.xFactor value.toUInt64 then
      (0, { cl with yFactor := value.toUInt64, yMask := value.toUInt64 - 1 })
    else (-1, { cl with base := cl.base.closeChannel })

/-- `setArgXoYHandler`: with all arguments at once, argument 1 is set before
argument 0. -/
def setArgXoYHandler (cl : XoYClosure) (a : Arg) : Int × XoYClosure :=
  if a.number ≠ 0 ∧ a.number ≠ 1 ∧ a.number ≠ -1 then
    (-1, { cl with base := cl.base.closeChannel })
  else if a.number = -1 then
    if a.par 0 ≠ 2 then (-1, cl)
    else
      let r := setOneXoY cl 1 (a.par 2).toInt64
      if r.1 = -1 then (-1, r.2) else setOneXoY r.2 0 (a.par 1).toInt64
  else setOneXoY cl a.number a.value

/-! ## MEDIAN -/

/-- `MAX_TS`. -/
def maxTsDefault : Int64 := 1000

/-- `sizeof(struct timespec)`. -/
def sizeofTimespec : UInt64 := 32

/-- `CACHELINE_SIZE`. -/
def cachelineSize : Int64 := 64

/-- `roundCachlineSize`. -/
def roundCachlineSize (size : Int64) : Int64 :=
  if size % cachelineSize = 0 then size else (size / cachelineSize + 1) * cachelineSize

/-- `struct median_closure`; `bufSize` (a ghost) is the size that was asked
for when `buffer` was allocated, `parm` whether `parm_handler_f` is set. -/
structure MedianClosure where
  base : Base Timespec
  parm : Bool
  buffer : UInt64
  bufSize : Int64
  nrTs : Int64
  maxTs : Int64

/-- What the allocator answers during one call: the address `realloc`
returns, and the one `aligned_alloc` returns if it is called; `0` is NULL. -/
structure Heap where
  realloc : UInt64
  alignedAlloc : UInt64

/-- `initMedianHandler`, with the file opened. -/
def initMedianHandler (heap : Heap) : MedianClosure :=
  let size := roundCachlineSize (maxTsDefault.toUInt64 * sizeofTimespec).toInt64
  if heap.alignedAlloc = 0 then ⟨{ Base.opened with null := true }, false, 0, 0, 0, 0⟩
  else ⟨.opened, true, heap.alignedAlloc, size, 0, maxTsDefault⟩

/-- `setArgMedianHandler`. -/
def setArgMedianHandler (heap : Heap) (cl : MedianClosure) (a : Arg) : Int × MedianClosure :=
  if a.number ≠ 0 ∨ a.value < sizeofTimespec.toInt64 then
    (-1, { cl with base := cl.base.closeChannel })
  else
    let size := roundCachlineSize (a.value.toUInt64 * sizeofTimespec).toInt64
    if heap.realloc % cachelineSize.toUInt64 = 0 then
      (0, { cl with buffer := heap.realloc, bufSize := size, nrTs := 0, maxTs := a.value })
    else if heap.alignedAlloc = 0 then
      (-1, { cl with
        base := { cl.base with null := true }
        parm := false, buffer := 0, bufSize := 0, nrTs := 0, maxTs := 0 })
    else
      (0, { cl with buffer := heap.alignedAlloc, bufSize := size, nrTs := 0, maxTs := a.value })

/-! ## PERIODICCOUNTER -/

/-- The lines of a periodic counter's log. -/
inductive PCLine
  /-- `# <end_of_period>, <number_of_events>` -/
  | header
  /-- `<time>, start, period: <period>` -/
  | period (start inc : Timespec)
  /-- `<time>, <count>` -/
  | count (ts : Timespec) (n : UInt64)
  /-- `<time>, <count> <truncated period>` -/
  | truncated (ts : Timespec) (n : UInt64)
  /-- `# *** skipped <n> intervals ***` -/
  | skipped (n : UInt32)
  /-- `<time>, *** timer reprogrammed ***` -/
  | reprogrammed (ts : Timespec)
  /-- `<time>, *** timer shut down ***` -/
  | shutDown (ts : Timespec)
  deriving DecidableEq, Repr

/-- `struct PC_closure`. -/
structure PCClosure where
  base : Base PCLine
  ctr : UInt64
  timeStart : Timespec
  timeFlush : Timespec
  periodicInc : Timespec
  periodicIncNs : UInt64
  isHeaderLogged : Bool

/-- `initPeriodicCounterHandler` at time `now`, with the file opened; `t` is
what the fresh closure holds in its `timespec`s. -/
def initPeriodicCounterHandler (now t : Timespec) : PCClosure :=
  let inc := periodOfNs t nanoSPerS
  { base := .opened
    ctr := 0
    timeStart := now
    timeFlush := addTS t now inc
    periodicInc := inc
    periodicIncNs := nanoSPerS
    isHeaderLogged := false }

namespace PCClosure

/-- `printPeriod`. -/
def printPeriod (cl : PCClosure) : PCClosure :=
  { cl with base := cl.base.put (.period cl.timeStart cl.periodicInc) }

/-- `printInitialHeaderAndPeriod`, if the header is not logged yet. -/
def ensureHeader (cl : PCClosure) : PCClosure :=
  if cl.isHeaderLogged then cl
  else { { cl with base := cl.base.put .header }.printPeriod with isHeaderLogged := true }

/-- The number of skipped intervals `flushCtr` finds at time `now`.  There is
no result if the period is zero: the division traps. -/
def skippedIntervals (cl : PCClosure) (now : Timespec) : Option UInt32 :=
  if compareTS now cl.timeFlush = -1 then some 0
  else if cl.periodicIncNs = 0 then none
  else
    let n := ((subtractTS now cl.timeFlush now).elapsedNs / cl.periodicIncNs).toUInt32
    some (if cl.ctr = 0 then n + 1 else n)

/-- `flushCtr`. -/
def flushCtr (cl : PCClosure) (now : Timespec) : Option PCClosure :=
  (cl.skippedIntervals now).map fun n =>
    let base :=
      if compareTS now cl.timeFlush = -1 then cl.base.put (.truncated now cl.ctr)
      else if cl.ctr > 0 then cl.base.put (.count cl.timeFlush cl.ctr)
      else cl.base
    { cl with base := if n > 0 then base.put (.skipped n) else base }

/-- `PC_closure::closeChannel` at time `now`. -/
def closeChannel (cl : PCClosure) (now : Timespec) : Option PCClosure :=
  (cl.ensureHeader.flushCtr now).map fun cl =>
    { cl with base := (cl.base.put (.shutDown now)).closeChannel }

end PCClosure

/-- `setArgPeriodicCounterHandler` at time `now`. -/
def setArgPeriodicCounterHandler (now : Timespec) (cl : PCClosure) (a : Arg) :
    Option (Int × PCClosure) :=
  if a.number ≠ 0 ∨ a.value < 0 then (cl.closeChannel now).map fun cl => (-1, cl)
  else
    ({ cl.ensureHeader with timeStart := now }.flushCtr now).map fun cl : PCClosure =>
      let inc := periodOfNs cl.periodicInc a.value.toUInt64
      let cl := { cl with
        periodicInc := inc
        periodicIncNs := a.value.toUInt64
        timeFlush := addTS cl.timeFlush now inc
        base := cl.base.put (.reprogrammed now) }
      (0, { cl.printPeriod with ctr := 0 })

/-! ## FASTPERIODICCOUNTER -/

/-- `FPC_DEFAULT_PERIOD`. -/
def fpcDefaultPeriod : UInt64 := 10000000

/-- What `setArgFastPeriodicCounterHandler` makes of its arguments. -/
inductive FPCRequest
  /-- return `-1` and, if `close`, close the channel -/
  | refuse (close : Bool)
  /-- submit a MOVE_CHANNEL job with this target period, wait for its
  completion, return `0` -/
  | move (period : UInt64)
  deriving DecidableEq, Repr

/-- `setArgFastPeriodicCounterHandler` up to the submission of the job.  With
all arguments at once, the value is taken from `par[0]`. -/
def fpcRequest (a : Arg) : FPCRequest :=
  if a.number ≠ 0 ∧ a.number ≠ -1 then .refuse true
  else if a.number = -1 ∧ a.par 0 ≠ 1 then .refuse false
  else
    let value := if a.number = -1 then (a.par 0).toInt64 else a.value
    if value < 0 then .refuse true else .move value.toUInt64

end CloudProfiler
