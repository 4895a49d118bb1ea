import Mathlib.Data.List.Sort
import Mathlib.Logic.Function.Basic
import CloudProfiler.Handler
import CloudProfiler.Run

/-!
# CloudProfiler.FastCounter

FASTPERIODICCOUNTER channels (`fast_periodic_counter_handler.cpp`).  The
handler only increments an atomic counter; sampling threads, one for each
period in use, read and log the counters.  Channels get to a sampling thread,
from one to another and away from it by jobs that the API calls submit and
wait for.

The steps are those of the source between two accesses to what is shared:

* `Fpc.api` — an API call of some thread: `openChannel`,
  `setArgFastPeriodicCounterHandler` and `closeChannel`, with
  `enqueueJobWithThrDescriptor` and `dequeueJobFromThrDescriptor`;
* `Fpc.sampler` — `thr_f` of a sampling thread with `process_job_queue`,
  `shallTerminate` and `removeThrDescriptor`;
* `Fpc.handler` — `FastPeriodicCounterHandler`.

An API thread waits for the job it submitted, so it has one job at a time,
and a job is identified with its thread.  What is done while `mtx_thr_map`
is held is one step, except that a new sampling thread runs before its
descriptor is entered into `thr_map`.  The clock readings are arguments of
the steps.  Fields called histories are read by no step.
-/

namespace CloudProfiler

/-! ## closures -/

/-- What is written to the log of a channel. -/
inductive FPCLine
  | header
  /-- `writeTimeStampedCtr`: a data line -/
  | ctr (ts : Timespec) (n : UInt64)
  | start (period : Timespec)
  | truncated
  | msg (s : String)
  | skipped (n : UInt64)
  | total (n : UInt64)
  deriving DecidableEq, Repr

/-- `struct FPC_closure`.  `made` says that the closure exists, and `handle`
that the application has got it from `openChannel`.  `calls` and
`callsAtDelete` are histories: the number of handler calls, and what it was
when a DELETE_CHANNEL job last took the counter. -/
structure FPCClosure where
  base : Base FPCLine
  ctr : UInt64
  sampledCtr : UInt64
  sampledTs : Timespec
  totalCtr : UInt64
  periodicIncNs : UInt64
  periodicInc : Timespec
  skippedIntervals : UInt64
  isHeaderLogged : Bool
  isRefCounted : Bool
  made : Bool
  handle : Bool
  calls : Nat
  callsAtDelete : Nat

/-- A `timespec` of zeros. -/
def Timespec.zero : Timespec := ⟨0, 0, 0, 0, 0⟩

namespace FPCClosure

/-- `initFastPeriodicCounterHandler`; the file is not open yet. -/
def init : FPCClosure where
  base := ⟨false, false, []⟩
  ctr := 0
  sampledCtr := 0
  sampledTs := .zero
  totalCtr := 0
  periodicIncNs := fpcDefaultPeriod
  periodicInc := periodOfNs .zero fpcDefaultPeriod
  skippedIntervals := 0
  isHeaderLogged := false
  isRefCounted := false
  made := true
  handle := false
  calls := 0
  callsAtDelete := 0

/-- A channel number that is not in use. -/
def unmade : FPCClosure := { init with made := false }

/-- Write a line. -/
def put (cl : FPCClosure) (l : FPCLine) : FPCClosure := { cl with base := cl.base.put l }

/-- `FastPeriodicCounterHandler`. -/
def handler (cl : FPCClosure) : FPCClosure :=
  { cl with ctr := cl.ctr + 1, calls := cl.calls + 1 }

/-- `ctr.exchange(0)`; the value is the old `ctr`. -/
def exchange (cl : FPCClosure) : FPCClosure := { cl with ctr := 0 }

/-- First loop of `thr_f`. -/
def sample (cl : FPCClosure) (now : Timespec) : FPCClosure :=
  { cl.exchange with sampledCtr := cl.ctr, sampledTs := now }

/-- `printSkippedIntervals`, where there is something to print. -/
def flushSkipped (cl : FPCClosure) : FPCClosure :=
  if cl.skippedIntervals > 0 then
    { cl.put (.skipped cl.skippedIntervals) with skippedIntervals := 0 }
  else cl

/-- Second loop of `thr_f`. -/
def account (cl : FPCClosure) : FPCClosure :=
  if cl.sampledCtr = 0 then
    { cl with skippedIntervals := cl.skippedIntervals + 1 }
  else
    let cl := { cl with totalCtr := cl.totalCtr + cl.sampledCtr }.flushSkipped
    cl.put (.ctr cl.sampledTs cl.sampledCtr)

/-- `printInitialHeaderAndPeriod`, once. -/
def logHeader (cl : FPCClosure) : FPCClosure :=
  if cl.isHeaderLogged then cl else { cl with isHeaderLogged := true }.put .header

/-- `printCtrStart`. -/
def printCtrStart (cl : FPCClosure) (now : Timespec) (ctr : UInt64) : FPCClosure :=
  (cl.put (.ctr now ctr)).put (.start cl.periodicInc)

/-- `printTruncatedPeriod`. -/
def printTruncatedPeriod (cl : FPCClosure) (now : Timespec) (ctr : UInt64) (msg : String) :
    FPCClosure :=
  ((cl.put (.ctr now ctr)).put .truncated).put (.msg msg)

/-- INSERT_CHANNEL, after the exchange. -/
def bookInsert (cl : FPCClosure) (now : Timespec) (ev : UInt64) : FPCClosure :=
  { cl with totalCtr := cl.totalCtr + ev }.printCtrStart now ev

/-- MOVE_CHANNEL, after the exchange. -/
def bookMove (cl : FPCClosure) (now : Timespec) (ev period : UInt64) : FPCClosure :=
  let cl := { cl with totalCtr := cl.totalCtr + ev }.flushSkipped.printTruncatedPeriod now ev
    "timer reprogrammed"
  { cl with periodicIncNs := period, periodicInc := periodOfNs cl.periodicInc period }

/-- DELETE_CHANNEL, after the exchange. -/
def bookDelete (cl : FPCClosure) (now : Timespec) (ev : UInt64) : FPCClosure :=
  let cl := { cl with totalCtr := cl.totalCtr + ev }.flushSkipped.printTruncatedPeriod now ev
    "timer shut down"
  cl.put (.total cl.totalCtr)

end FPCClosure

/-! ## threads -/

/-- `enum class job_type`. -/
inductive JobType
  | insertChannel | moveChannel | deleteChannel
  deriving DecidableEq, Repr

/-- `struct job`; `signals` is the number of calls of `signalCompletion`,
`jobCompleted` being true after the first. -/
structure Job where
  type : JobType
  curPeriodicIncNs : UInt64
  signals : Nat
  deriving DecidableEq, Repr

/-- Where an API call is. -/
inductive ApiPc
  | idle
  /-- `openChannel`: `ok` is the result of `closure::openChannel` -/
  | openFile (ok : Bool)
  /-- submits its job, before it reads the period of the channel -/
  | submit
  /-- has read `period`, looks it up in `thr_map` -/
  | route (period : UInt64)
  /-- has created descriptor `d`, enters it into `thr_map` -/
  | insertMap (period : UInt64) (d : Nat)
  /-- `waitCompletion` -/
  | wait
  /-- `closeChannel`: has found the channel counted, before
  `nr_open_channels--` -/
  | countOut
  /-- before `isRefCounted = false` -/
  | clear
  /-- `closure::closeChannel` -/
  | closing
  deriving DecidableEq, Repr

/-- A thread of the application: the channel of its call and the job it
submitted. -/
structure ApiThread where
  pc : ApiPc
  ch : Nat
  job : Job
  deriving DecidableEq, Repr

/-- Where a sampling thread is. -/
inductive SamplerPc
  | start
  /-- first loop: `seen` were sampled, `rest` will be -/
  | sample (seen rest : List Nat)
  /-- second loop -/
  | account (rest : List Nat)
  /-- before `process_job_queue` -/
  | snooze
  /-- `left` jobs are to be processed -/
  | jobs (left : Nat)
  /-- has removed job `j` from its queue -/
  | take (left j : Nat)
  /-- has taken `ev` events from the counter -/
  | book (left j : Nat) (ev : UInt64)
  /-- passes the job on, as `ApiPc.submit`, `route` and `insertMap` -/
  | submit (left j : Nat)
  | route (left j : Nat) (period : UInt64)
  | insertMap (left : Nat) (period : UInt64) (d : Nat)
  /-- `shallTerminate` -/
  | terminate
  /-- `removeThrDescriptor` -/
  | remove
  /-- reads the clock -/
  | clock
  | done
  deriving DecidableEq, Repr

/-- `struct thr_descriptor`.  `closures` are the channel numbers in the map,
in order. -/
structure ThrDescriptor where
  closures : List Nat
  periodicIncNs : UInt64
  periodicInc : Timespec
  jQueue : List Nat
  tsFlush : Timespec
  pc : SamplerPc
  deriving DecidableEq, Repr

/-- The constructor of `thr_descriptor`, called with job `j`. -/
def ThrDescriptor.new (period : UInt64) (j : Nat) : ThrDescriptor :=
  ⟨[], period, periodOfNs .zero period, [j], .zero, .start⟩

/-- `closures.insert`. -/
def ThrDescriptor.insert (k : ThrDescriptor) (c : Nat) : ThrDescriptor :=
  { k with closures := if c ∈ k.closures then k.closures else k.closures.orderedInsert (· ≤ ·) c }

/-- The calls of `logFail`. -/
inductive FPCFail
  /-- `dequeue_channel`: channel not part of the sampling thread -/
  | notPart (ch : Nat) (type : JobType) (period : UInt64)
  /-- `dequeueJobFromThrDescriptor`: no such sampling thread -/
  | noThread (ch : Nat) (period : UInt64)
  /-- `removeThrDescriptor`: no descriptor -/
  | noDescriptor (period : UInt64)
  /-- `removeThrDescriptor`: remaining closures -/
  | remaining (period : UInt64)
  deriving DecidableEq, Repr

/-- Who holds `mtx_thr_map` between two steps. -/
inductive Holder
  | api (t : Nat)
  | sampler (d : Nat)
  deriving DecidableEq, Repr

/-- The channels, the threads and what they share. -/
structure Fpc where
  cl : Nat → FPCClosure
  thread : Nat → ApiThread
  descr : Nat → ThrDescriptor
  nrDescr : Nat
  thrMap : UInt64 → Option Nat
  mtxThrMap : Option Holder
  nrOpenChannels : UInt32
  fails : List FPCFail

namespace Fpc

/-- Nothing is open and no sampling thread runs. -/
def init : Fpc where
  cl _ := .unmade
  thread _ := ⟨.idle, 0, ⟨.insertChannel, 0, 0⟩⟩
  descr _ := ThrDescriptor.new 0 0
  nrDescr := 0
  thrMap _ := none
  mtxThrMap := none
  nrOpenChannels := 0
  fails := []

def setCl (s : Fpc) (c : Nat) (k : FPCClosure) : Fpc := { s with cl := Function.update s.cl c k }

def setThread (s : Fpc) (t : Nat) (a : ApiThread) : Fpc :=
  { s with thread := Function.update s.thread t a }

def setDescr (s : Fpc) (d : Nat) (k : ThrDescriptor) : Fpc :=
  { s with descr := Function.update s.descr d k }

/-- `logFail`. -/
def fail (s : Fpc) (f : FPCFail) : Fpc := { s with fails := s.fails ++ [f] }

/-- `signalCompletion` of the job of thread `t`. -/
def signalCompletion (s : Fpc) (t : Nat) : Fpc :=
  s.setThread t { s.thread t with
    job := { (s.thread t).job with signals := (s.thread t).job.signals + 1 } }

/-! ## jobs get to sampling threads -/

/-- `enqueueJobWithThrDescriptor`, after the period was read, for the job of
thread `t`; `none` while the mutex is held by another thread.  The result
has the descriptor that was created, whose thread runs already and which
the caller `h` is about to enter into the map. -/
def enqueueJobWithThrDescriptor (s : Fpc) (h : Holder) (t : Nat) (period : UInt64) :
    Option (Fpc × Option Nat) :=
  if s.mtxThrMap.isSome then none
  else
    match s.thrMap period with
    | some d =>
        some (s.setDescr d { s.descr d with jQueue := (s.descr d).jQueue ++ [t] }, none)
    | none =>
        -- the constructor reads the period of the channel once more
        some ({ s.setDescr s.nrDescr (.new (s.cl (s.thread t).ch).periodicIncNs t) with
          nrDescr := s.nrDescr + 1
          mtxThrMap := some h }, some s.nrDescr)

/-- `dequeueJobFromThrDescriptor`, after the period was read.  Without a
descriptor the job goes nowhere. -/
def dequeueJobFromThrDescriptor (s : Fpc) (t : Nat) (period : UInt64) : Option Fpc :=
  if s.mtxThrMap.isSome then none
  else
    match s.thrMap period with
    | some d => some (s.setDescr d { s.descr d with jQueue := (s.descr d).jQueue ++ [t] })
    | none => some (s.fail (.noThread (s.thread t).ch period))

/-- The end of `enqueueJobWithThrDescriptor` for a new descriptor. -/
def enterMap (s : Fpc) (period : UInt64) (d : Nat) : Fpc :=
  { s with thrMap := Function.update s.thrMap period (some d), mtxThrMap := none }

/-- `removeThrDescriptor`. -/
def removeThrDescriptor (s : Fpc) (period : UInt64) : Option (Fpc × Bool) :=
  if s.mtxThrMap.isSome then none
  else
    match s.thrMap period with
    | none => some (s.fail (.noDescriptor period), false)
    | some d =>
        if (s.descr d).jQueue.length > 0 then some (s, false)
        else if (s.descr d).closures.length > 0 then some (s.fail (.remaining period), false)
        else some ({ s with thrMap := Function.update s.thrMap period none }, true)

/-! ## API calls -/

/-- The thread is between two calls. -/
def isIdle (s : Fpc) (t : Nat) : Bool := (s.thread t).pc = .idle

/-- `openChannel` makes a closure; `ok` is what opening its file gives. -/
def openChannel (s : Fpc) (t c : Nat) (ok : Bool) : Option Fpc :=
  if s.isIdle t ∧ !(s.cl c).made then
    some ((s.setCl c .init).setThread t { s.thread t with pc := .openFile ok, ch := c })
  else none

/-- `FPC_closure::closeChannel` tests `isRefCounted`, a plain `bool`. -/
def startClose (s : Fpc) (t c : Nat) : Fpc :=
  if (s.cl c).isRefCounted then
    s.setThread t { s.thread t with pc := .countOut, ch := c }
  else
    s.setThread t { s.thread t with pc := .closing, ch := c }

/-- `closeChannel`, by the application or by `closeAllChannels`. -/
def closeChannel (s : Fpc) (t c : Nat) : Option Fpc :=
  if s.isIdle t ∧ (s.cl c).made then some (s.startClose t c) else none

/-- `parameterizeChannel`, with `setArgFastPeriodicCounterHandler` up to the
submission of the job. -/
def parameterizeChannel (s : Fpc) (t c : Nat) (a : Arg) : Option Fpc :=
  if s.isIdle t ∧ (s.cl c).handle then
    match fpcRequest a with
    | .move period => some (s.setThread t ⟨.submit, c, ⟨.moveChannel, period, 0⟩⟩)
    | .refuse true => some (s.startClose t c)
    | .refuse false => some s
  else none

/-- The next step of the call of thread `t`. -/
def api (s : Fpc) (t : Nat) : Option Fpc :=
  let a := s.thread t
  let goto (s : Fpc) (pc : ApiPc) : Fpc := s.setThread t { s.thread t with pc := pc }
  match a.pc with
  | .idle => none
  | .openFile false => some (goto s .idle)
  | .openFile true =>
      some { (s.setCl a.ch { s.cl a.ch with base := .opened, isRefCounted := true }).setThread t
          ⟨.submit, a.ch, ⟨.insertChannel, -1, 0⟩⟩ with
        nrOpenChannels := s.nrOpenChannels + 1 }
  | .submit => some (goto s (.route (s.cl a.ch).periodicIncNs))
  | .route period =>
      if a.job.type = .deleteChannel then
        (s.dequeueJobFromThrDescriptor t period).map (goto · .wait)
      else
        (s.enqueueJobWithThrDescriptor (.api t) t period).map fun (s, d) =>
          match d with
          | none => goto s .wait
          | some d => goto s (.insertMap period d)
  | .insertMap period d => some (goto (s.enterMap period d) .wait)
  | .wait =>
      if a.job.signals = 0 then none
      else if a.job.type = .deleteChannel then some (goto s .closing)
      else some (goto (s.setCl a.ch { s.cl a.ch with handle := true }) .idle)
  | .countOut => some { goto s .clear with nrOpenChannels := s.nrOpenChannels - 1 }
  | .clear =>
      some ((s.setCl a.ch { s.cl a.ch with isRefCounted := false }).setThread t
        ⟨.submit, a.ch, ⟨.deleteChannel, -1, 0⟩⟩)
  | .closing =>
      some (goto (s.setCl a.ch { s.cl a.ch with base := (s.cl a.ch).base.closeChannel }) .idle)

/-! ## sampling threads -/

/-- `shallTerminate`. -/
def shallTerminate (s : Fpc) (d : Nat) : Bool :=
  if (s.descr d).periodicIncNs = fpcDefaultPeriod ∧ s.nrOpenChannels = 0 then true
  else (s.descr d).jQueue.length = 0 ∧ (s.descr d).closures.length = 0

/-- `dequeue_channel` of sampling thread `d` for a job on channel `c`. -/
def dequeueChannel (s : Fpc) (d c : Nat) (type : JobType) : Fpc :=
  if c ∈ (s.descr d).closures then
    s.setDescr d { s.descr d with closures := (s.descr d).closures.erase c }
  else s.fail (.notPart c type (s.descr d).periodicIncNs)

/-- Sampling thread `d` processes job `j` up to the point where it has taken
the events from the counter. -/
def takeJob (s : Fpc) (d left j : Nat) : Fpc :=
  let c := (s.thread j).ch
  let cl := s.cl c
  let goto (s : Fpc) (pc : SamplerPc) : Fpc := s.setDescr d { s.descr d with pc := pc }
  match (s.thread j).job.type with
  | .insertChannel => goto (s.setCl c cl.logHeader.exchange) (.book left j cl.ctr)
  | .moveChannel =>
      if c ∈ (s.descr d).closures then
        goto ((s.dequeueChannel d c .moveChannel).setCl c cl.exchange) (.book left j cl.ctr)
      else
        goto ((s.dequeueChannel d c .moveChannel).signalCompletion j) (.jobs left)
  | .deleteChannel =>
      goto (s.setCl c { cl.exchange with callsAtDelete := cl.calls }) (.book left j cl.ctr)

/-- The rest of the job. -/
def bookJob (s : Fpc) (d left j : Nat) (ev : UInt64) (now : Timespec) : Fpc :=
  let c := (s.thread j).ch
  let cl := s.cl c
  let goto (s : Fpc) (pc : SamplerPc) : Fpc := s.setDescr d { s.descr d with pc := pc }
  match (s.thread j).job.type with
  | .insertChannel =>
      let s := (s.setCl c (cl.bookInsert now ev)).signalCompletion j
      goto (s.setDescr d ((s.descr d).insert c)) (.jobs left)
  | .moveChannel =>
      let period := (s.thread j).job.curPeriodicIncNs
      let s := s.setThread j { s.thread j with
        job := { (s.thread j).job with type := .insertChannel, curPeriodicIncNs := -1 } }
      goto (s.setCl c (cl.bookMove now ev period)) (.submit left j)
  | .deleteChannel =>
      let s := s.setCl c (cl.bookDelete now ev)
      goto ((s.dequeueChannel d c .deleteChannel).signalCompletion j) (.jobs left)

/-- The next step of sampling thread `d`, at time `now`. -/
def sampler (s : Fpc) (d : Nat) (now : Timespec) : Option Fpc :=
  let k := s.descr d
  let goto (s : Fpc) (pc : SamplerPc) : Fpc := s.setDescr d { s.descr d with pc := pc }
  match k.pc with
  | .start =>
      let ts := if k.periodicIncNs = nanoSPerS then { now with tvSec := now.tvSec + 1, tvNsec := 0 }
        else addTS k.tsFlush now k.periodicInc
      some (s.setDescr d { k with tsFlush := ts, pc := .sample [] k.closures })
  | .sample _ [] => some (goto s (.account k.closures))
  | .sample seen (c :: rest) =>
      some (goto (s.setCl c ((s.cl c).sample now)) (.sample (seen ++ [c]) rest))
  | .account [] => some (goto s .snooze)
  | .account (c :: rest) => some (goto (s.setCl c (s.cl c).account) (.account rest))
  | .snooze => some (goto s (.jobs k.jQueue.length))
  | .jobs 0 => some (goto s .terminate)
  | .jobs (left + 1) =>
      match k.jQueue with
      | [] => none
      | j :: q => some (s.setDescr d { k with jQueue := q, pc := .take left j })
  | .take left j => some (s.takeJob d left j)
  | .book left j ev => some (s.bookJob d left j ev now)
  | .submit left j => some (goto s (.route left j (s.cl (s.thread j).ch).periodicIncNs))
  | .route left j period =>
      (s.enqueueJobWithThrDescriptor (.sampler d) j period).map fun (s, d') =>
        match d' with
        | none => goto s (.jobs left)
        | some d' => goto s (.insertMap left period d')
  | .insertMap left period d' => some (goto (s.enterMap period d') (.jobs left))
  | .terminate => some (goto s (if s.shallTerminate d then .remove else .clock))
  | .remove =>
      (s.removeThrDescriptor k.periodicIncNs).map fun (s, removed) =>
        goto s (if removed then .done else .clock)
  | .clock =>
      if 0 < compareTS now k.tsFlush then
        some (s.setDescr d { k with
          tsFlush := addTS k.tsFlush k.tsFlush k.periodicInc
          pc := .sample [] k.closures })
      else some (goto s .snooze)
  | .done => none

/-- What happens next. -/
inductive Act
  | openChannel (t c : Nat) (ok : Bool)
  | parameterizeChannel (t c : Nat) (a : Arg)
  | closeChannel (t c : Nat)
  | api (t : Nat)
  | handler (c : Nat)
  | sampler (d : Nat) (now : Timespec)

/-- One step. -/
def step (s : Fpc) : Act → Option Fpc
  | .openChannel t c ok => s.openChannel t c ok
  | .parameterizeChannel t c a => s.parameterizeChannel t c a
  | .closeChannel t c => s.closeChannel t c
  | .api t => s.api t
  | .handler c => if (s.cl c).made then some (s.setCl c (s.cl c).handler) else none
  | .sampler d now => if d < s.nrDescr then s.sampler d now else none

end Fpc

end CloudProfiler
