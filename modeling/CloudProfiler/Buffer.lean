import CloudProfiler.Run
import CloudProfiler.Identity
import CloudProfiler.Writer

/-!
# CloudProfiler.Buffer

The buffered channels as a system of threads: the application threads that
open, use and close BUFFER_IDENTITY and BUFFER_IDENTITY_COMP channels
(`buffer_id_handler.cpp`, `channels.cpp`), the compression threads
(`comp_thread.cpp`), the I/O threads (`io_thread.cpp`) and the exit handlers
(`cleanup.cpp`).

A state holds the global variables, the channels' closures, the two shared
queues and one program counter per thread; `step` lets one thread execute
one access to shared data (an atomic load, store, exchange or increment, or
an operation on a queue) together with the local work up to the next one.
A spinning call is a step that is not enabled.

* `openStep`, `finishOpen` — `openChannel` / `initBufferIdentityHandler`;
* `logCall`, `logStep` — `logTS` and the two handlers;
* `callClose`, `closeStep` — `buffer_closure::closeChannel`;
* `ioStep` — `runIOThread` with `flushBlockInQueues`;
* `compStep` — `runCompThread` with `compressBlockAndSend`;
* `exitStep` — `cleanUpAtNormalExit` and `cleanUpAtAbnormalExit`.

Undefined behaviour (an index beyond the reorder tables, a call through an
unset function pointer, an `int` incremented beyond `INT_MAX`, a channel
closed while its file is being opened) sets `fault` and ends the run.
-/

namespace CloudProfiler

/-- `COMP_THREAD_NUM`. -/
def compThreadNum : Nat := 4

/-- `IO_QUEUE_SIZE`: nodes of `io_queue`. -/
def ioQueueSize : Nat := 100000

/-- `COMPRESS_QUEUE_SIZE`: nodes of `compression_queue`. -/
def compressQueueSize : Nat := 100000

/-- `RETURN_QUEUE_SIZE`: capacity of a channel's return queue. -/
def returnQueueSize : Nat := 10000

/-! ## channels -/

/-- The values `handler_f` takes on a buffered channel. -/
inductive Handler
  | bufferIdentityHandler | bufferIdentityHandlerTsc | nullHandler
  deriving DecidableEq, Repr

/-- `handler_f` as `initBufferIdentityHandler` sets it. -/
def handlerOf : LogFormat → Handler
  | .ascii | .binary | .zstd | .lzo1x => .bufferIdentityHandler
  | .asciiTsc | .binaryTsc | .zstdTsc | .lzo1xTsc => .bufferIdentityHandlerTsc

/-- `write_handler_f` as `initBufferIdentityHandler` sets it; the compressed
formats leave it unset. -/
def writeHandlerOf : LogFormat → Option WriteHandler
  | .ascii => some .writeInAscii
  | .asciiTsc => some .writeInAsciiTsc
  | .binary => some .writeInBinary
  | .binaryTsc => some .writeInBinaryTsc
  | .zstd | .zstdTsc | .lzo1x | .lzo1xTsc => none

/-- The full-record writer `BufferIdentityHandlerTsc` uses for the first
record. -/
def firstWriterOf (f : LogFormat) : WriteHandler :=
  if f = .asciiTsc then .writeInAscii else .writeInBinary

/-- Where the `openChannel` call of a channel stands: the next access to
shared data it makes. -/
inductive OpenPc
  /-- the channel number has not been given out -/
  | fresh
  /-- `num_buf_ch++` -/
  | numBufCh
  /-- `io_thread_created.exchange(true)` -/
  | ioCreated
  /-- `new std::thread(runIOThread)` -/
  | ioNew
  /-- store the new thread in `buffer_write_thread` -/
  | ioStore (t : Nat)
  /-- `num_buf_comp_ch++`, for a compressed channel -/
  | numBufCompCh
  /-- `comp_thread_created.exchange(true)` -/
  | compCreated
  /-- create compression thread number `i` -/
  | compNew (i : Nat)
  /-- enter the channel in `ch_info` -/
  | finish
  /-- set `ch_nr` and open the file -/
  | openFile
  /-- the call has returned the channel -/
  | ready
  /-- the call has returned a defect channel -/
  | defect
  deriving DecidableEq, Repr

/-- Where the channel's logging thread stands. -/
inductive LogPc
  /-- not inside `logTS` -/
  | idle
  /-- `writeOnBlock`, or `writeOnBlockTsc` -/
  | write (tsc : Bool) (d : LogData)
  /-- `checkBlockIsFull` -/
  | full
  /-- `enqueueBlockUntilSuccess` -/
  | enqueue
  /-- `dequeueEmptyBlockPolling` -/
  | dequeue
  /-- `block->block_id = block_cnt++` -/
  | setId
  deriving DecidableEq, Repr

/-- Where the `closeChannel` call that won the exchange of `handler_f`
stands. -/
inductive ClosePc
  /-- no such call yet -/
  | none
  /-- `block->close_file = true` -/
  | setCloseFile
  /-- `enqueueBlockUntilSuccess` -/
  | enqueue
  /-- `num_buf_comp_ch--`, for a compressed channel -/
  | decComp
  /-- `num_buf_ch--` -/
  | dec
  /-- the call has returned -/
  | done
  deriving DecidableEq, Repr

/-- `struct buffer_closure`.  `block` is the index of the current block, the
return queue holds block indices; `compress` is what
`initBufferIdentityHandler` was called with.

`logged`, `ids` and `sent` are ghosts: the records written on blocks, the
ids given to current blocks, and the contents of the blocks enqueued so far,
each in order. -/
structure Closure where
  handlerF : Handler
  writeHandlerF : Option WriteHandler
  format : LogFormat
  compress : Bool
  block : Nat
  blockCnt : Nat
  firstLogging : Bool
  queue : List Nat
  blocks : Nat → BlockData
  opn : OpenPc
  log : LogPc
  close : ClosePc
  logged : List LogData
  ids : List Nat
  sent : List (List LogData)

/-- The closure at the beginning of `initBufferIdentityHandler`. -/
def Closure.new (f : LogFormat) (compress : Bool) (opn : OpenPc) : Closure where
  handlerF := handlerOf f
  writeHandlerF := writeHandlerOf f
  format := f
  compress := compress
  block := 0
  blockCnt := 0
  firstLogging := true
  queue := []
  blocks := fun _ => .new fun _ => ⟨0, 0, 0, 0, 0, 0⟩
  opn := opn
  log := .idle
  close := .none
  logged := []
  ids := []
  sent := []

/-- The current block. -/
def Closure.cur (ch : Closure) : BlockData := ch.blocks ch.block

/-- Replace the `k`-th block. -/
def Closure.setBlock (ch : Closure) (k : Nat) (b : BlockData) : Closure :=
  { ch with blocks := Function.update ch.blocks k b }

/-! ## threads -/

/-- The I/O thread pops in its main loop, or while flushing with the value
of `quick_term` it was called with. -/
inductive IoMode
  | main
  | flush (terminate : Bool)
  deriving DecidableEq, Repr

/-- Program counter of an I/O thread. -/
inductive IoPc
  | unborn
  /-- `createPriorityQueue` -/
  | start
  /-- loop test: first read of `comp_thread_created` -/
  | readCreated
  /-- loop test: read of `stop_io_thread` -/
  | readStop
  /-- loop test: second read of `comp_thread_created` -/
  | rereadCreated
  /-- loop test: read of `num_buf_ch` -/
  | readNum
  /-- `io_queue.pop` -/
  | pop (m : IoMode)
  /-- `writeUncompressedBlock`, up to `sendBackBlockUntilSuccess` -/
  | write (m : IoMode) (p : Ptr)
  /-- inside `sendBackBlockUntilSuccess` -/
  | send (m : IoMode) (p : Ptr)
  /-- main loop left: read `quick_term` -/
  | readQuick
  /-- `buffer_write_thread = NULL` -/
  | clearPtr
  /-- `io_thread_created = false` -/
  | clearIo
  /-- `comp_thread_created = false` -/
  | clearComp
  /-- `comp_thread.clear()` -/
  | clearVec
  /-- `runIOThread` has returned -/
  | done
  deriving DecidableEq, Repr

/-- Program counter of a compression thread; `drain` tells its second loop
from its first. -/
inductive CompPc
  | unborn
  /-- loop test: read of `stop_comp_thread` -/
  | readStop
  /-- loop test: read of `num_buf_comp_ch` -/
  | readNum
  /-- `compression_queue.pop` -/
  | pop (drain : Bool)
  /-- `compressBlock`, reset and copy of the block -/
  | work (drain : Bool) (p : Ptr)
  /-- inside `sendBackBlockUntilSuccess`, with the copy made -/
  | send (drain : Bool) (p : Ptr) (b : Packed)
  /-- `enqueueFullBlockFromCompThread` -/
  | push (drain : Bool) (b : Packed)
  /-- `stop_io_thread.fetch_add(1)` -/
  | stop
  /-- `runCompThread` has returned -/
  | done
  deriving DecidableEq, Repr

/-- Who runs `closeAllChannels` and what comes after it. -/
inductive ExitMode
  /-- `cleanUpAtNormalExit` -/
  | normal
  /-- signal handler, the I/O thread will terminate the program -/
  | wait
  /-- signal handler, terminates the program itself -/
  | quit
  deriving DecidableEq, Repr

/-- Program counter of the exit handler. -/
inductive ExitPc
  | idle
  /-- signal handler: read of `num_buf_comp_ch` -/
  | sigComp
  /-- signal handler: read of `buffer_write_thread` -/
  | sigPtr
  /-- `quick_term = true` -/
  | sigQuick
  /-- `closeAllChannels` at index `i`; `inCall`: inside a `closeChannel` call
  that won the exchange -/
  | closeAll (m : ExitMode) (i : Nat) (inCall : Bool)
  /-- `quick_exit(0)` -/
  | quick
  /-- `buffer_write_thread != NULL` -/
  | test
  /-- `buffer_write_thread.load()` -/
  | load
  /-- `join()` -/
  | join (t : Nat)
  /-- `delete buffer_write_thread` -/
  | delete
  /-- the handler has returned -/
  | done
  /-- `join()` was called on NULL -/
  | nullJoin
  deriving DecidableEq, Repr

/-- After `closeAllChannels`. -/
def ExitMode.after : ExitMode → ExitPc
  | .normal => .test
  | .wait => .done
  | .quit => .quick

/-- The exit handler holds `mtx_bk`. -/
def ExitPc.holdsMtx : ExitPc → Bool
  | .closeAll _ _ _ => true
  | _ => false

/-! ## the system -/

/-- What `io_queue` carries: a block of an uncompressed channel, or the
compressed copy of one. -/
inductive IoBlock
  | raw (p : Ptr)
  | packed (b : Packed)
  deriving DecidableEq, Repr

/-- The global state. -/
structure State where
  nextChannel : Nat
  chan : Nat → Closure
  chInfo : List Nat
  ioQueue : List IoBlock
  compressionQueue : List Ptr
  bufferWriteThread : Option Nat
  compThread : List Nat
  ioThreadCreated : Bool
  compThreadCreated : Bool
  numBufCh : Int
  numBufCompCh : Int
  stopIoThread : Nat
  stopCompThread : Bool
  quickTerm : Bool
  ioTest : Bool
  sink : Sink
  io : Nat → IoPc
  ioCnt : Nat
  comp : Nat → CompPc
  compCnt : Nat
  exit : ExitPc
  fault : Bool
  exited : Bool

/-- Program start: all globals at their initial values. -/
def State.init : State where
  nextChannel := 0
  chan := fun _ => .new .ascii false .fresh
  chInfo := []
  ioQueue := []
  compressionQueue := []
  bufferWriteThread := none
  compThread := []
  ioThreadCreated := false
  compThreadCreated := false
  numBufCh := 0
  numBufCompCh := 0
  stopIoThread := 0
  stopCompThread := false
  quickTerm := false
  ioTest := false
  sink := .init
  io := fun _ => .unborn
  ioCnt := 0
  comp := fun _ => .unborn
  compCnt := 0
  exit := .idle
  fault := false
  exited := false

namespace State

/-- Replace the closure of channel `c`. -/
def setChan (s : State) (c : Nat) (ch : Closure) : State :=
  { s with chan := Function.update s.chan c ch }

/-- Move I/O thread `t`. -/
def setIo (s : State) (t : Nat) (pc : IoPc) : State :=
  { s with io := Function.update s.io t pc }

/-- Move compression thread `t`. -/
def setComp (s : State) (t : Nat) (pc : CompPc) : State :=
  { s with comp := Function.update s.comp t pc }

end State

/-! ## opening a channel -/

/-- `initBufferIdentityHandler`, and `ch_info.push_back` under `mtx_bk`. -/
def openStep (s : State) (c : Nat) : Option State :=
  let ch := s.chan c
  match ch.opn with
  | .numBufCh =>
      some { s.setChan c { ch with opn := .ioCreated } with numBufCh := s.numBufCh + 1 }
  | .ioCreated =>
      if s.ioThreadCreated then
        some (s.setChan c { ch with opn := .numBufCompCh })
      else
        some { s.setChan c { ch with opn := .ioNew } with ioThreadCreated := true }
  | .ioNew =>
      some { (s.setIo s.ioCnt .start).setChan c { ch with opn := .ioStore s.ioCnt } with
        ioCnt := s.ioCnt + 1 }
  | .ioStore t =>
      some { s.setChan c { ch with opn := .numBufCompCh } with bufferWriteThread := some t }
  | .numBufCompCh =>
      if ch.compress then
        some { s.setChan c { ch with opn := .compCreated } with
          numBufCompCh := s.numBufCompCh + 1 }
      else
        some (s.setChan c { ch with opn := .finish })
  | .compCreated =>
      if s.compThreadCreated then
        some (s.setChan c { ch with opn := .finish })
      else
        some { s.setChan c { ch with opn := .compNew 0 } with compThreadCreated := true }
  | .compNew i =>
      some { (s.setComp s.compCnt .readStop).setChan c
          { ch with opn := if i + 1 < compThreadNum then .compNew (i + 1) else .finish } with
        compCnt := s.compCnt + 1
        compThread := s.compThread ++ [s.compCnt] }
  | .finish =>
      if s.exit.holdsMtx then none
      else some { s.setChan c { ch with opn := .openFile } with chInfo := s.chInfo ++ [c] }
  | .fresh | .openFile | .ready | .defect => none

/-- The rest of `openChannel`: set `ch_nr` and open the file.  `ok` is whether
the file system lets it be opened; `closure::openChannel` has no case for
LZO1X_TSC.  The return queue and the blocks, made by
`initBufferIdentityHandler`, appear here, where the channel gets its number
and its file: no thread can use them before.  `mem` is what the fresh record
arrays hold. -/
def finishOpen (s : State) (c : Nat) (ok : Bool) (mem : Nat → Nat → LogData) : Option State :=
  let ch := s.chan c
  if ch.opn = .openFile then
    let opened := ok && ch.format != .lzo1xTsc
    some { s.setChan c { ch with
          queue := (List.range numBufferBlock).tail
          block := 0
          blocks := fun k => .new (mem k)
          blockCnt := 1
          ids := [0]
          opn := if opened then .ready else .defect } with
      sink := s.sink.setLogf c (if opened then .opened else .unopened) }
  else
    none

/-! ## closing a channel -/

/-- Begin of `buffer_closure::closeChannel`: exchange `handler_f`; the rest
runs only if it was `BufferIdentityHandler`. -/
def callClose (s : State) (c : Nat) : State :=
  let ch := s.chan c
  s.setChan c { ch with
    handlerF := .nullHandler
    close := if ch.handlerF = .bufferIdentityHandler then .setCloseFile else ch.close }

/-- `enqueueBlock` on the current block of channel `c`: a bounded push, not
enabled while the queue has no free node.  Ghost `sent` records what the
block holds. -/
def enqueueBlock (s : State) (c : Nat) : Option State :=
  let ch := s.chan c
  let ch' := { ch with sent := ch.sent ++ [ch.cur.records] }
  if ch.compress then
    if s.compressionQueue.length < compressQueueSize then
      some { s.setChan c ch' with compressionQueue := s.compressionQueue ++ [⟨c, ch.block⟩] }
    else
      none
  else
    if s.ioQueue.length < ioQueueSize then
      some { s.setChan c ch' with ioQueue := s.ioQueue ++ [.raw ⟨c, ch.block⟩] }
    else
      none

/-- The rest of `buffer_closure::closeChannel`. -/
def closeStep (s : State) (c : Nat) : Option State :=
  let ch := s.chan c
  match ch.close with
  | .setCloseFile =>
      some (s.setChan c
        { ch.setBlock ch.block { ch.cur with closeFile := true } with close := .enqueue })
  | .enqueue =>
      (enqueueBlock s c).map fun s => s.setChan c { s.chan c with close := .decComp }
  | .decComp =>
      some { s.setChan c { ch with close := .dec } with
        numBufCompCh := if ch.compress then s.numBufCompCh - 1 else s.numBufCompCh }
  | .dec =>
      some { s.setChan c { ch with close := .done } with numBufCh := s.numBufCh - 1 }
  | .none | .done => none

/-! ## logging -/

/-- `logTS` and the entry of the handler: the poison pill closes the channel;
`NullHandler` does nothing; the first record of a TSC channel goes straight
to the file. -/
def logCall (s : State) (c : Nat) (d : LogData) : Option State :=
  let ch := s.chan c
  if ch.opn = .ready ∧ ch.log = .idle then
    if d.tuple = -1 then
      some (callClose s c)
    else
      match ch.handlerF with
      | .nullHandler => some s
      | .bufferIdentityHandler => some (s.setChan c { ch with log := .write false d })
      | .bufferIdentityHandlerTsc =>
          if ch.firstLogging then
            some { s.setChan c { ch with firstLogging := false, logged := ch.logged ++ [d] } with
              sink := s.sink.setLogf c
                ((s.sink.chLogf c).write ((firstWriterOf ch.format).bytes d)) }
          else
            some (s.setChan c { ch with log := .write true d })
  else
    none

/-- The rest of `BufferIdentityHandler` and `BufferIdentityHandlerTsc`.
`block_cnt` is an `int`. -/
def logStep (s : State) (c : Nat) : Option State :=
  let ch := s.chan c
  match ch.log with
  | .write tsc d =>
      some (s.setChan c
        { ch.setBlock ch.block (if tsc then ch.cur.writeOnBlockTsc d else ch.cur.writeOnBlock d) with
          log := .full
          logged := ch.logged ++ [d] })
  | .full =>
      some (s.setChan c { ch with log := if ch.cur.checkBlockIsFull then .enqueue else .idle })
  | .enqueue =>
      (enqueueBlock s c).map fun s => s.setChan c { s.chan c with log := .dequeue }
  | .dequeue =>
      match ch.queue with
      | [] => none
      | k :: q => some (s.setChan c { ch with queue := q, block := k, log := .setId })
  | .setId =>
      if ch.blockCnt < intMax then
        some (s.setChan c { ch.setBlock ch.block { ch.cur with blockId := ch.blockCnt } with
          blockCnt := ch.blockCnt + 1
          ids := ch.ids ++ [ch.blockCnt]
          log := .idle })
      else
        some { s with fault := true }
  | .idle => none

/-! ## the worker threads -/

/-- Where the I/O thread goes on after a block. -/
def IoMode.next : IoMode → IoPc
  | .main => .readCreated
  | .flush q => .pop (.flush q)

/-- Where a compression thread goes on after a block. -/
def compNext (drain : Bool) : CompPc := if drain then .pop true else .readStop

/-- `sendBackBlockUntilSuccess`: push on the return queue of the block's
channel. -/
def sendBackBlock (s : State) (p : Ptr) : Option State :=
  if (s.chan p.ch).queue.length < returnQueueSize then
    some (s.setChan p.ch { s.chan p.ch with queue := (s.chan p.ch).queue ++ [p.k] })
  else
    none

/-- `writeUncompressedBlock` up to `sendBackBlockUntilSuccess`.  Without a
record to write, `write_handler_f` is not called. -/
def writeUncompressedBlock (s : State) (p : Ptr) : Option State :=
  let ch := s.chan p.ch
  let b := ch.blocks p.k
  if b.blockIdx ≠ 0 ∧ ch.writeHandlerF = none then
    none
  else
    some { s.setChan p.ch (ch.setBlock p.k { b with blockIdx := 0 }) with
      sink := s.sink.setLogf p.ch
        (writeRecords (ch.writeHandlerF.getD .writeInAscii) (s.sink.chLogf p.ch) b.records
          b.closeFile) }

/-- `runIOThread`. -/
def ioStep (s : State) (t : Nat) : Option State :=
  match s.io t with
  | .start => some { s.setIo t .readCreated with sink := createPriorityQueue s.sink }
  | .readCreated => some (s.setIo t (if s.compThreadCreated then .readStop else .rereadCreated))
  | .readStop =>
      some (s.setIo t (if s.stopIoThread ≠ compThreadNum then .pop .main else .rereadCreated))
  | .rereadCreated => some (s.setIo t (if s.compThreadCreated then .readQuick else .readNum))
  | .readNum => some (s.setIo t (if s.numBufCh ≠ 0 then .pop .main else .readQuick))
  | .pop m =>
      match s.ioQueue with
      | [] =>
          match m with
          | .main => some (s.setIo t (if s.ioTest then .readQuick else .readCreated))
          | .flush true => some { s with exited := true }
          | .flush false => some (s.setIo t .clearPtr)
      | .raw p :: q => some { s.setIo t (.write m p) with ioQueue := q }
      | .packed b :: q =>
          match writeCompressedBlock s.sink b with
          | some k => some { s.setIo t m.next with ioQueue := q, sink := k }
          | none => some { s with ioQueue := q, fault := true }
  | .write m p =>
      match writeUncompressedBlock s p with
      | some s => some (s.setIo t (.send m p))
      | none => some { s with fault := true }
  | .send m p => (sendBackBlock s p).map (·.setIo t m.next)
  | .readQuick => some (s.setIo t (.pop (.flush s.quickTerm)))
  | .clearPtr => some { s.setIo t .clearIo with bufferWriteThread := none }
  | .clearIo => some { s.setIo t .clearComp with ioThreadCreated := false }
  | .clearComp => some { s.setIo t .clearVec with compThreadCreated := false }
  | .clearVec => some { s.setIo t .done with compThread := [] }
  | .unborn | .done => none

/-- `runCompThread`.  The return value of the push on `io_queue` is ignored:
without a free node the compressed copy is dropped. -/
def compStep (sq : Squash) (s : State) (t : Nat) : Option State :=
  match s.comp t with
  | .readStop => some (s.setComp t (if s.stopCompThread then .pop true else .readNum))
  | .readNum => some (s.setComp t (if s.numBufCompCh ≠ 0 then .pop false else .pop true))
  | .pop d =>
      match s.compressionQueue with
      | [] => some (s.setComp t (if d then .stop else .readStop))
      | p :: q => some { s.setComp t (.work d p) with compressionQueue := q }
  | .work d p =>
      let ch := s.chan p.ch
      let b := ch.blocks p.k
      some ((s.setChan p.ch (ch.setBlock p.k { b with blockIdx := 0 })).setComp t
        (.send d p ⟨p.ch, b.blockId, b.closeFile, compressBlock sq ch.format b.records⟩))
  | .send d p b => (sendBackBlock s p).map (·.setComp t (.push d b))
  | .push d b =>
      if s.ioQueue.length < ioQueueSize then
        some { s.setComp t (compNext d) with ioQueue := s.ioQueue ++ [.packed b] }
      else
        some (s.setComp t (compNext d))
  | .stop => some { s.setComp t .done with stopIoThread := s.stopIoThread + 1 }
  | .unborn | .done => none

/-! ## process exit -/

/-- `cleanUpAtNormalExit` and `cleanUpAtAbnormalExit`.  `closeAllChannels`
can come upon a channel between its entry in `ch_info` and the opening of its
file: `closeChannel` reads `ch_logf_name`, and hands on a block for which the
I/O thread reads `ch_nr` and `ch_logf`, while `openChannel` writes them, a
data race. -/
def exitStep (s : State) : Option State :=
  match s.exit with
  | .sigComp => some { s with exit := if s.numBufCompCh ≠ 0 then .sigQuick else .sigPtr }
  | .sigPtr =>
      some { s with
        exit := if s.bufferWriteThread ≠ none then .sigQuick else .closeAll .quit 0 false }
  | .sigQuick => some { s with quickTerm := true, exit := .closeAll .wait 0 false }
  | .closeAll m i false =>
      match s.chInfo[i]? with
      | some c =>
          if (s.chan c).opn = .openFile then some { s with fault := true }
          else some { callClose s c with
            exit := if (s.chan c).handlerF = .bufferIdentityHandler then .closeAll m i true
              else .closeAll m (i + 1) false }
      | none => some { s with exit := m.after }
  | .closeAll m i true =>
      match s.chInfo[i]? with
      | some c =>
          if (s.chan c).close = .done then some { s with exit := .closeAll m (i + 1) false }
          else none
      | none => none
  | .quick => some { s with exited := true }
  | .test => some { s with exit := if s.bufferWriteThread ≠ none then .load else .done }
  | .load =>
      match s.bufferWriteThread with
      | some t => some { s with exit := .join t }
      | none => some { s with exit := .nullJoin }
  | .join t => if s.io t = .done then some { s with exit := .delete } else none
  | .delete => some { s with exit := .done }
  | .idle | .done | .nullJoin => none

/-! ## the transition function -/

/-- Who takes the next step, and what the environment supplies to it. -/
inductive Label
  /-- a thread calls `openChannel` for a buffered channel -/
  | openChannel (f : LogFormat) (compress : Bool)
  /-- a thread opens a channel with another handler, using up a number -/
  | openOther
  | openStep (c : Nat)
  | finishOpen (c : Nat) (ok : Bool) (mem : Nat → Nat → LogData)
  /-- the channel's logging thread calls `logTS`; `d.ts` is the clock reading -/
  | logTS (c : Nat) (d : LogData)
  | logStep (c : Nat)
  /-- a thread calls `closeChannel` -/
  | closeChannel (c : Nat)
  | closeStep (c : Nat)
  | io (t : Nat)
  | comp (t : Nat)
  /-- the process exits normally -/
  | atExit
  /-- SIGINT or SIGTERM arrives -/
  | signal
  | exitStep

/-- One step of the system. -/
def step (sq : Squash) (s : State) (l : Label) : Option State :=
  if s.fault || s.exited then none
  else
    match l with
    | .openChannel f compress =>
        some { s.setChan s.nextChannel (.new f compress .numBufCh) with
          nextChannel := s.nextChannel + 1 }
    | .openOther => some { s with nextChannel := s.nextChannel + 1 }
    | .openStep c => openStep s c
    | .finishOpen c ok mem => finishOpen s c ok mem
    | .logTS c d => logCall s c d
    | .logStep c => logStep s c
    | .closeChannel c => if (s.chan c).opn = .ready then some (callClose s c) else none
    | .closeStep c => closeStep s c
    | .io t => ioStep s t
    | .comp t => compStep sq s t
    | .atExit => if s.exit = .idle then some { s with exit := .closeAll .normal 0 false } else none
    | .signal => if s.exit = .idle then some { s with exit := .sigComp } else none
    | .exitStep => exitStep s

/-- States reached by guarded runs from program start. -/
abbrev Reached (sq : Squash) (ok : State → Label → Prop) : State → Prop :=
  Reach (step sq) State.init ok

/-- A decidable fact about the end of a run on fixed labels, as a reached
state. -/
theorem Reached.of_run (sq : Squash) (ok : State → Label → Prop) [DecidableRel ok]
    (ls : List Label) (p : State → Bool) (h : (exec (step sq) ok State.init ls).any p = true) :
    ∃ s, Reached sq ok s ∧ p s = true :=
  Reach.of_exec_any ls p h

end CloudProfiler
