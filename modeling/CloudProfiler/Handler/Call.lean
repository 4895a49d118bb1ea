import CloudProfiler.Buffer.Formats
import CloudProfiler.Handler

/-!
# CloudProfiler.Handler.Call

The API calls on a channel whose handler works in the thread of the caller
(`channels.cpp`), with the event handlers that `CloudProfiler.Handler` leaves
out.

A call gets the clock, the allocator and the contents of fresh memory from
outside.  It has no result if it does not return: a division by zero, an
access outside the buffer, a call through a pointer that was never set.

* `ChannelType` — what the API functions need to know about a handler type;
* `ChannelType.logTS`, `closeChannel`, `parameterizeChannel` — the calls;
* `ChannelType.step` — one call on a channel, whichever it is;
* `identityType` … `nullhType` — the handler types.
-/

namespace CloudProfiler

/-- What a call gets from outside; `fresh` is what memory holds that was not
written yet. -/
structure Env where
  now : Timespec
  heap : Heap
  fresh : Nat → Timespec

/-- A handler type with closures `σ` and log files `ι`: `null` is whether
`handler_f` is `NullHandler`, `parm` whether `parm_handler_f` is set. -/
structure ChannelType (σ ι : Type) where
  isOpen : σ → Bool
  log : σ → ι
  null : σ → Bool
  parm : σ → Bool
  handler : Env → σ → Int64 → Option σ
  closeChannel : Env → σ → Option σ
  setArg : Env → σ → Arg → Option (Int × σ)

/-- An API call.  The string of the third overload holds a literal that is
`valid` or not; `later` is the clock when an invalid one has been reported. -/
inductive Call
  | logTS (tuple : Int64)
  | closeChannel
  | closeAllChannels
  | parameterizeChannel (a : Arg)
  | parameterizeChannelStr (valid : Bool) (later : Timespec) (a : Arg)

/-- The arguments a parameter handler may be called with. -/
def Call.arg : Call → Option Arg
  | .logTS _ | .closeChannel | .closeAllChannels => none
  | .parameterizeChannel a | .parameterizeChannelStr _ _ a => some a

namespace ChannelType

variable {σ ι : Type} (k : ChannelType σ ι)

/-- `logTS`. -/
def logTS (env : Env) (cl : σ) (tuple : Int64) : Option σ :=
  if tuple = -1 then k.closeChannel env cl
  else if k.null cl then some cl
  else k.handler env cl tuple

/-- `parameterizeChannel` for an integer. -/
def parameterizeChannel (env : Env) (cl : σ) (a : Arg) : Option (Int × σ) :=
  if k.parm cl then k.setArg env cl a
  else (k.closeChannel env cl).map fun cl => (-1, cl)

/-- `parameterizeChannel` for a string: an invalid literal closes the channel,
and the call goes on with what the conversion left. -/
def parameterizeChannelStr (env : Env) (cl : σ) (valid : Bool) (later : Timespec) (a : Arg) :
    Option (Int × σ) :=
  if valid then k.parameterizeChannel env cl a
  else (k.closeChannel env cl).bind fun cl => k.parameterizeChannel { env with now := later } cl a

/-- One call.  `closeAllChannels` finds the channel in `ch_info`. -/
def step (cl : σ) (l : Env × Call) : Option σ :=
  match l.2 with
  | .logTS tuple => k.logTS l.1 cl tuple
  | .closeChannel | .closeAllChannels => k.closeChannel l.1 cl
  | .parameterizeChannel a => (k.parameterizeChannel l.1 cl a).map (·.2)
  | .parameterizeChannelStr valid later a =>
      (k.parameterizeChannelStr l.1 cl valid later a).map (·.2)

end ChannelType

/-! ## IDENTITY -/

/-- IDENTITY channels. -/
def identityType : ChannelType Unbuffered (List UInt8) where
  isOpen ch := ch.cl.chLogf.isOpen
  log ch := ch.cl.chLogf.content
  null ch := ch.null
  parm _ := false
  handler env ch tuple := (ch.cl.logTS ⟨tuple, env.now⟩).map fun cl => { ch with cl := cl }
  closeChannel _ ch := some ch.closeChannel
  setArg _ _ _ := none

/-! ## NULLH -/

/-- `initNullHandler`, with the file opened. -/
def initNullHandler : Base Empty := { Base.opened with null := true }

/-- NULLH channels. -/
def nullhType : ChannelType (Base Empty) (List Empty) where
  isOpen := Base.isOpen
  log := Base.lines
  null := Base.null
  parm _ := false
  handler _ cl _ := some cl
  closeChannel _ cl := some cl.closeChannel
  setArg _ _ _ := none

/-! ## DOWNSAMPLE -/

/-- `DownsampleHandler`. -/
def DownsampleClosure.handler (cl : DownsampleClosure) (now : Timespec) (tuple : Int64) :
    DownsampleClosure :=
  if cl.counter < cl.factor then { cl with counter := cl.counter + 1 }
  else { cl with base := cl.base.put (tuple, now), counter := 1 }

/-- DOWNSAMPLE channels. -/
def downsampleType : ChannelType DownsampleClosure (List (Int64 × Timespec)) where
  isOpen cl := cl.base.isOpen
  log cl := cl.base.lines
  null cl := cl.base.null
  parm _ := true
  handler env cl tuple := some (cl.handler env.now tuple)
  closeChannel _ cl := some { cl with base := cl.base.closeChannel }
  setArg _ cl a := some (setArgDownsampleHandler cl a)

/-! ## XOY -/

/-- `XoYHandler`. -/
def XoYClosure.handler (cl : XoYClosure) (now : Timespec) (tuple : Int64) : XoYClosure :=
  if tuple.toUInt64 &&& cl.yMask < cl.xFactor then { cl with base := cl.base.put (tuple, now) }
  else cl

/-- XOY channels. -/
def xoyType : ChannelType XoYClosure (List (Int64 × Timespec)) where
  isOpen cl := cl.base.isOpen
  log cl := cl.base.lines
  null cl := cl.base.null
  parm _ := true
  handler env cl tuple := some (cl.handler env.now tuple)
  closeChannel _ cl := some { cl with base := cl.base.closeChannel }
  setArg _ cl a := some (setArgXoYHandler cl a)

/-! ## FIRSTLAST -/

/-- The lines of a FIRSTLAST log. -/
inductive FirstlastLine
  | tuple (tuple : Int64) (ts : Timespec)
  /-- `ERROR: no tuple logged!` -/
  | noTuple
  deriving DecidableEq, Repr

/-- `struct firstlast_closure`. -/
structure FirstlastClosure where
  base : Base FirstlastLine
  hasFirst : Bool
  tuple : Int64
  ts : Timespec

/-- `initFirstlastHandler`, with the file opened; `t` is what the fresh
closure holds in its `timespec`. -/
def initFirstlastHandler (t : Timespec) : FirstlastClosure := ⟨.opened, false, -1, t⟩

namespace FirstlastClosure

/-- `FirstlastHandler`. -/
def handler (cl : FirstlastClosure) (now : Timespec) (tuple : Int64) : FirstlastClosure :=
  { base := if cl.hasFirst then cl.base else cl.base.put (.tuple tuple now)
    hasFirst := true
    tuple := tuple
    ts := now }

/-- `firstlast_closure::closeChannel`. -/
def closeChannel (cl : FirstlastClosure) : FirstlastClosure :=
  { cl with
    base := (cl.base.put (if cl.hasFirst then .tuple cl.tuple cl.ts else .noTuple)).closeChannel }

end FirstlastClosure

/-- FIRSTLAST channels. -/
def firstlastType : ChannelType FirstlastClosure (List FirstlastLine) where
  isOpen cl := cl.base.isOpen
  log cl := cl.base.lines
  null cl := cl.base.null
  parm _ := false
  handler env cl tuple := some (cl.handler env.now tuple)
  closeChannel _ cl := some cl.closeChannel
  setArg _ _ _ := none

/-! ## MEDIAN -/

/-- A MEDIAN channel: the closure and what its buffer holds. -/
structure MedianChannel where
  cl : MedianClosure
  buffer : Nat → Timespec

/-- The buffer is there and has room for `n` time-stamps. -/
def MedianClosure.holds (cl : MedianClosure) (n : Int64) : Bool :=
  cl.buffer ≠ 0 ∧ n.toInt * sizeofTimespec.toNat ≤ cl.bufSize.toInt

namespace MedianChannel

/-- A fresh channel. -/
def init (env : Env) : MedianChannel := ⟨initMedianHandler env.heap, env.fresh⟩

/-- The buffer after `qsort`, which is taken to be stable: time-stamps of one
time may differ in their cycles, and C does not say in which order they come. -/
def sorted (ch : MedianChannel) : List Timespec :=
  ((List.range ch.cl.maxTs.toNatClampNeg).map ch.buffer).mergeSort (compareTS · · ≤ 0)

/-- The median over the sorted buffer `ts` of `n` time-stamps; `sum` and `res`
are the uninitialized variables of the function. -/
def median (ts : List Timespec) (n : Int64) (sum res : Timespec) : Timespec :=
  let buffer (i : Int64) := ts.getD i.toNatClampNeg res
  if n % 2 = 0 then (divideTS res (addTS sum (buffer ((n - 1) / 2)) (buffer (n / 2))) 2).2
  else buffer (n / 2)

/-- `MedianHandler`. -/
def handler (env : Env) (ch : MedianChannel) : Option MedianChannel :=
  let nrTs := ch.cl.nrTs + 1
  if nrTs < ch.cl.maxTs then
    if ch.cl.holds (nrTs + 1) then
      some {
        cl := { ch.cl with nrTs := nrTs }
        buffer := Function.update ch.buffer nrTs.toNatClampNeg env.now }
    else none
  else if ch.cl.holds ch.cl.maxTs then
    some {
      cl := { ch.cl with
        base := ch.cl.base.put (median ch.sorted ch.cl.maxTs (env.fresh 0) (env.fresh 1))
        nrTs := 0 }
      buffer := fun i => ch.sorted.getD i (ch.buffer i) }
  else none

/-- `closure::closeChannel`. -/
def closeChannel (ch : MedianChannel) : MedianChannel :=
  { ch with cl := { ch.cl with base := ch.cl.base.closeChannel } }

/-- `setArgMedianHandler`: `realloc` keeps what the buffer holds. -/
def setArg (env : Env) (ch : MedianChannel) (a : Arg) : Int × MedianChannel :=
  let r := setArgMedianHandler env.heap ch.cl a
  let kept := ch.cl.bufSize.toNatClampNeg / sizeofTimespec.toNat
  (r.1, {
    cl := r.2
    buffer :=
      if r.1 ≠ 0 then ch.buffer
      else if env.heap.realloc % cachelineSize.toUInt64 = 0 then
        fun i => if i < kept then ch.buffer i else env.fresh i
      else env.fresh })

end MedianChannel

/-- MEDIAN channels. -/
def medianType : ChannelType MedianChannel (List Timespec) where
  isOpen ch := ch.cl.base.isOpen
  log ch := ch.cl.base.lines
  null ch := ch.cl.base.null
  parm ch := ch.cl.parm
  handler env ch _ := ch.handler env
  closeChannel _ ch := some ch.closeChannel
  setArg env ch a := some (ch.setArg env a)

/-! ## PERIODICCOUNTER -/

namespace PCClosure

/-- The intervals that were skipped since `time_flush`, as
`getNextShot_and_flushCtr` finds them; there is no result if the period is
zero: the division traps. -/
def skippedFromFlush (cl : PCClosure) (now : Timespec) : Option UInt32 :=
  if cl.periodicIncNs = 0 then none
  else some ((subtractTS now cl.timeFlush now).elapsedNs / cl.periodicIncNs).toUInt32

/-- The rest of `getNextShot_and_flushCtr`: the closure with the counter
printed, and the time to the next shot. -/
def printSkipped (cl : PCClosure) (skipped : UInt32) : PCClosure × Timespec :=
  let base := if cl.ctr > 0 then cl.base.put (.count cl.timeFlush cl.ctr) else cl.base
  let total := if cl.ctr = 0 then skipped + 1 else skipped
  ({ cl with base := if total > 0 then base.put (.skipped total) else base },
    periodOfNs cl.timeFlush ((1 + skipped).toUInt64 * cl.periodicIncNs))

/-- `PeriodicCounterHandler`. -/
def handler (cl : PCClosure) (now : Timespec) : Option PCClosure :=
  if now.tvSec > cl.timeFlush.tvSec ∨
      (now.tvSec = cl.timeFlush.tvSec ∧ now.tvNsec > cl.timeFlush.tvNsec) then
    (cl.ensureHeader.skippedFromFlush now).map fun skipped =>
      let r := cl.ensureHeader.printSkipped skipped
      { r.1 with timeFlush := addTS r.1.timeFlush r.1.timeFlush r.2, ctr := 1 }
  else some { cl with ctr := cl.ctr + 1 }

end PCClosure

/-- PERIODICCOUNTER channels. -/
def periodicCounterType : ChannelType PCClosure (List PCLine) where
  isOpen cl := cl.base.isOpen
  log cl := cl.base.lines
  null cl := cl.base.null
  parm _ := true
  handler env cl _ := cl.handler env.now
  closeChannel env cl := cl.closeChannel env.now
  setArg env cl a := setArgPeriodicCounterHandler env.now cl a

end CloudProfiler
