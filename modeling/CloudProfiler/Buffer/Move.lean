import CloudProfiler.Buffer

/-!
# CloudProfiler.Buffer.Move

What one step can do, said once.  For each party an inductive type lists its
moves, each with the guard it was taken under and the state it leads to;
`step_move` sorts a step of the system into them.  Invariants are proved by
cases on the moves and never unfold the step functions.

Moves that change nothing but a program counter are collected in `IoGoto`,
`CompGoto` and `ExitGoto`.
-/

namespace CloudProfiler

attribute [simp] State.setChan State.setIo State.setComp Sink.setLogf Closure.setBlock

@[grind .] theorem IoMode.next_cases (m : IoMode) :
    m.next = .readCreated ∨ ∃ q, m.next = .pop (.flush q) := by
  cases m <;> simp [IoMode.next]

@[grind .] theorem compNext_cases (d : Bool) : compNext d = .readStop ∨ compNext d = .pop true := by
  cases d <;> simp [compNext]

/-! ## the application's threads -/

/-- Moves of an `openChannel` call. -/
inductive OpenMove (s : State) (c : Nat) : State → Prop
  | numBufCh (h : (s.chan c).opn = .numBufCh) : OpenMove s c
      { s.setChan c { s.chan c with opn := .ioCreated } with numBufCh := s.numBufCh + 1 }
  | ioSeen (h : (s.chan c).opn = .ioCreated) (hio : s.ioThreadCreated = true) : OpenMove s c
      (s.setChan c { s.chan c with opn := .numBufCompCh })
  | ioWon (h : (s.chan c).opn = .ioCreated) (hio : s.ioThreadCreated = false) : OpenMove s c
      { s.setChan c { s.chan c with opn := .ioNew } with ioThreadCreated := true }
  | ioNew (h : (s.chan c).opn = .ioNew) : OpenMove s c
      { (s.setIo s.ioCnt .start).setChan c { s.chan c with opn := .ioStore s.ioCnt } with
        ioCnt := s.ioCnt + 1 }
  | ioStore (t : Nat) (h : (s.chan c).opn = .ioStore t) : OpenMove s c
      { s.setChan c { s.chan c with opn := .numBufCompCh } with bufferWriteThread := some t }
  | notComp (h : (s.chan c).opn = .numBufCompCh) (hcomp : (s.chan c).compress = false) :
      OpenMove s c (s.setChan c { s.chan c with opn := .finish })
  | numBufCompCh (h : (s.chan c).opn = .numBufCompCh) (hcomp : (s.chan c).compress = true) :
      OpenMove s c
      { s.setChan c { s.chan c with opn := .compCreated } with
        numBufCompCh := s.numBufCompCh + 1 }
  | compSeen (h : (s.chan c).opn = .compCreated) (hcr : s.compThreadCreated = true) : OpenMove s c
      (s.setChan c { s.chan c with opn := .finish })
  | compWon (h : (s.chan c).opn = .compCreated) (hcr : s.compThreadCreated = false) :
      OpenMove s c
      { s.setChan c { s.chan c with opn := .compNew 0 } with compThreadCreated := true }
  | compNew (i : Nat) (h : (s.chan c).opn = .compNew i) : OpenMove s c
      { (s.setComp s.compCnt .readStop).setChan c
          { s.chan c with
            opn := if i + 1 < compThreadNum then .compNew (i + 1) else .finish } with
        compCnt := s.compCnt + 1
        compThread := s.compThread ++ [s.compCnt] }
  | enter (h : (s.chan c).opn = .finish) (hmtx : s.exit.holdsMtx = false) : OpenMove s c
      { s.setChan c { s.chan c with opn := .openFile } with chInfo := s.chInfo ++ [c] }

/-- Moves of a logging thread. -/
inductive LogMove (s : State) (c : Nat) : State → Prop
  | write (tsc : Bool) (d : LogData) (h : (s.chan c).log = .write tsc d) : LogMove s c
      (s.setChan c
        { (s.chan c).setBlock (s.chan c).block
            (if tsc then (s.chan c).cur.writeOnBlockTsc d else (s.chan c).cur.writeOnBlock d) with
          log := .full
          logged := (s.chan c).logged ++ [d] })
  | full (h : (s.chan c).log = .full) : LogMove s c
      (s.setChan c { s.chan c with
        log := if (s.chan c).cur.checkBlockIsFull then .enqueue else .idle })
  | enqueueComp (h : (s.chan c).log = .enqueue) (hcomp : (s.chan c).compress = true)
      (hlen : s.compressionQueue.length < compressQueueSize) : LogMove s c
      { s.setChan c { s.chan c with
            sent := (s.chan c).sent ++ [(s.chan c).cur.records]
            log := .dequeue } with
        compressionQueue := s.compressionQueue ++ [⟨c, (s.chan c).block⟩] }
  | enqueueRaw (h : (s.chan c).log = .enqueue) (hcomp : (s.chan c).compress = false)
      (hlen : s.ioQueue.length < ioQueueSize) : LogMove s c
      { s.setChan c { s.chan c with
            sent := (s.chan c).sent ++ [(s.chan c).cur.records]
            log := .dequeue } with
        ioQueue := s.ioQueue ++ [.raw ⟨c, (s.chan c).block⟩] }
  | dequeue (k : Nat) (q : List Nat) (h : (s.chan c).log = .dequeue)
      (hq : (s.chan c).queue = k :: q) : LogMove s c
      (s.setChan c { s.chan c with queue := q, block := k, log := .setId })
  | setId (h : (s.chan c).log = .setId) (hcnt : (s.chan c).blockCnt < intMax) : LogMove s c
      (s.setChan c { (s.chan c).setBlock (s.chan c).block
            { (s.chan c).cur with blockId := (s.chan c).blockCnt } with
        blockCnt := (s.chan c).blockCnt + 1
        ids := (s.chan c).ids ++ [(s.chan c).blockCnt]
        log := .idle })
  | setIdFault (h : (s.chan c).log = .setId) (hcnt : ¬ (s.chan c).blockCnt < intMax) :
      LogMove s c { s with fault := true }

/-- Moves of the entry of `logTS`. -/
inductive CallMove (s : State) (c : Nat) (d : LogData) : State → Prop
  | poison (h : d.tuple = -1) : CallMove s c d (callClose s c)
  | null (hd : d.tuple ≠ -1) (h : (s.chan c).handlerF = .nullHandler) : CallMove s c d s
  | buffer (hd : d.tuple ≠ -1) (h : (s.chan c).handlerF = .bufferIdentityHandler) :
      CallMove s c d (s.setChan c { s.chan c with log := .write false d })
  | first (hd : d.tuple ≠ -1) (h : (s.chan c).handlerF = .bufferIdentityHandlerTsc)
      (hf : (s.chan c).firstLogging = true) : CallMove s c d
      { s.setChan c { s.chan c with
            firstLogging := false
            logged := (s.chan c).logged ++ [d] } with
        sink := s.sink.setLogf c
          ((s.sink.chLogf c).write ((firstWriterOf (s.chan c).format).bytes d)) }
  | tsc (hd : d.tuple ≠ -1) (h : (s.chan c).handlerF = .bufferIdentityHandlerTsc)
      (hf : (s.chan c).firstLogging = false) :
      CallMove s c d (s.setChan c { s.chan c with log := .write true d })

/-- Moves of a `closeChannel` call that won the exchange. -/
inductive CloseMove (s : State) (c : Nat) : State → Prop
  | setCloseFile (h : (s.chan c).close = .setCloseFile) : CloseMove s c
      (s.setChan c
        { (s.chan c).setBlock (s.chan c).block { (s.chan c).cur with closeFile := true } with
          close := .enqueue })
  | enqueueComp (h : (s.chan c).close = .enqueue) (hcomp : (s.chan c).compress = true)
      (hlen : s.compressionQueue.length < compressQueueSize) : CloseMove s c
      { s.setChan c { s.chan c with
            sent := (s.chan c).sent ++ [(s.chan c).cur.records]
            close := .decComp } with
        compressionQueue := s.compressionQueue ++ [⟨c, (s.chan c).block⟩] }
  | enqueueRaw (h : (s.chan c).close = .enqueue) (hcomp : (s.chan c).compress = false)
      (hlen : s.ioQueue.length < ioQueueSize) : CloseMove s c
      { s.setChan c { s.chan c with
            sent := (s.chan c).sent ++ [(s.chan c).cur.records]
            close := .decComp } with
        ioQueue := s.ioQueue ++ [.raw ⟨c, (s.chan c).block⟩] }
  | decComp (h : (s.chan c).close = .decComp) : CloseMove s c
      { s.setChan c { s.chan c with close := .dec } with
        numBufCompCh :=
          if (s.chan c).compress then s.numBufCompCh - 1 else s.numBufCompCh }
  | dec (h : (s.chan c).close = .dec) : CloseMove s c
      { s.setChan c { s.chan c with close := .done } with numBufCh := s.numBufCh - 1 }

/-! ## the worker threads -/

/-- Moves of an I/O thread that only change its program counter. -/
inductive IoGoto (s : State) : IoPc → IoPc → Prop
  | created (h : s.compThreadCreated = true) : IoGoto s .readCreated .readStop
  | notCreated (h : s.compThreadCreated = false) : IoGoto s .readCreated .rereadCreated
  | notStopped (h : s.stopIoThread ≠ compThreadNum) : IoGoto s .readStop (.pop .main)
  | stopped (h : s.stopIoThread = compThreadNum) : IoGoto s .readStop .rereadCreated
  | createdLeave (h : s.compThreadCreated = true) : IoGoto s .rereadCreated .readQuick
  | createdStay (h : s.compThreadCreated = false) : IoGoto s .rereadCreated .readNum
  | numStay (h : s.numBufCh ≠ 0) : IoGoto s .readNum (.pop .main)
  | numLeave (h : s.numBufCh = 0) : IoGoto s .readNum .readQuick
  | empty (hq : s.ioQueue = []) (h : s.ioTest = false) : IoGoto s (.pop .main) .readCreated
  | emptyTest (hq : s.ioQueue = []) (h : s.ioTest = true) : IoGoto s (.pop .main) .readQuick
  | flush : IoGoto s .readQuick (.pop (.flush s.quickTerm))
  | flushed (hq : s.ioQueue = []) : IoGoto s (.pop (.flush false)) .clearPtr

/-- Moves of an I/O thread. -/
inductive IoMove (s : State) (t : Nat) : State → Prop
  | goto {pc pc' : IoPc} (hpc : s.io t = pc) (h : IoGoto s pc pc') : IoMove s t (s.setIo t pc')
  | start (h : s.io t = .start) : IoMove s t
      { s.setIo t .readCreated with sink := createPriorityQueue s.sink }
  | quickExit (h : s.io t = .pop (.flush true)) (hq : s.ioQueue = []) :
      IoMove s t { s with exited := true }
  | popRaw (m : IoMode) (p : Ptr) (q : List IoBlock) (h : s.io t = .pop m)
      (hq : s.ioQueue = .raw p :: q) : IoMove s t { s.setIo t (.write m p) with ioQueue := q }
  | popPacked (m : IoMode) (b : Packed) (q : List IoBlock) (k : Sink) (h : s.io t = .pop m)
      (hq : s.ioQueue = .packed b :: q) (hk : writeCompressedBlock s.sink b = some k) :
      IoMove s t { s.setIo t m.next with ioQueue := q, sink := k }
  | popFault (m : IoMode) (b : Packed) (q : List IoBlock) (h : s.io t = .pop m)
      (hq : s.ioQueue = .packed b :: q) (hk : writeCompressedBlock s.sink b = none) :
      IoMove s t { s with ioQueue := q, fault := true }
  | write (m : IoMode) (p : Ptr) (h : s.io t = .write m p)
      (hw : ((s.chan p.ch).blocks p.k).blockIdx = 0 ∨ (s.chan p.ch).writeHandlerF ≠ none) :
      IoMove s t
      { (s.setChan p.ch ((s.chan p.ch).setBlock p.k
          { (s.chan p.ch).blocks p.k with blockIdx := 0 })).setIo t (.send m p) with
        sink := s.sink.setLogf p.ch
          (writeRecords ((s.chan p.ch).writeHandlerF.getD .writeInAscii) (s.sink.chLogf p.ch)
            ((s.chan p.ch).blocks p.k).records ((s.chan p.ch).blocks p.k).closeFile) }
  | writeFault (m : IoMode) (p : Ptr) (h : s.io t = .write m p)
      (hw : ((s.chan p.ch).blocks p.k).blockIdx ≠ 0 ∧ (s.chan p.ch).writeHandlerF = none) :
      IoMove s t { s with fault := true }
  | send (m : IoMode) (p : Ptr) (h : s.io t = .send m p)
      (hlen : (s.chan p.ch).queue.length < returnQueueSize) : IoMove s t
      ((s.setChan p.ch { s.chan p.ch with queue := (s.chan p.ch).queue ++ [p.k] }).setIo t m.next)
  | clearPtr (h : s.io t = .clearPtr) :
      IoMove s t { s.setIo t .clearIo with bufferWriteThread := none }
  | clearIo (h : s.io t = .clearIo) :
      IoMove s t { s.setIo t .clearComp with ioThreadCreated := false }
  | clearComp (h : s.io t = .clearComp) :
      IoMove s t { s.setIo t .clearVec with compThreadCreated := false }
  | clearVec (h : s.io t = .clearVec) : IoMove s t { s.setIo t .done with compThread := [] }

/-- Moves of a compression thread that only change its program counter. -/
inductive CompGoto (s : State) : CompPc → CompPc → Prop
  | stopSeen (h : s.stopCompThread = true) : CompGoto s .readStop (.pop true)
  | noStop (h : s.stopCompThread = false) : CompGoto s .readStop .readNum
  | numStay (h : s.numBufCompCh ≠ 0) : CompGoto s .readNum (.pop false)
  | numLeave (h : s.numBufCompCh = 0) : CompGoto s .readNum (.pop true)
  | empty (hq : s.compressionQueue = []) : CompGoto s (.pop false) .readStop
  | drained (hq : s.compressionQueue = []) : CompGoto s (.pop true) .stop

/-- Moves of a compression thread. -/
inductive CompMove (sq : Squash) (s : State) (t : Nat) : State → Prop
  | goto {pc pc' : CompPc} (hpc : s.comp t = pc) (h : CompGoto s pc pc') :
      CompMove sq s t (s.setComp t pc')
  | pop (d : Bool) (p : Ptr) (q : List Ptr) (h : s.comp t = .pop d)
      (hq : s.compressionQueue = p :: q) :
      CompMove sq s t { s.setComp t (.work d p) with compressionQueue := q }
  | work (d : Bool) (p : Ptr) (h : s.comp t = .work d p) : CompMove sq s t
      ((s.setChan p.ch ((s.chan p.ch).setBlock p.k
          { (s.chan p.ch).blocks p.k with blockIdx := 0 })).setComp t
        (.send d p ⟨p.ch, ((s.chan p.ch).blocks p.k).blockId,
          ((s.chan p.ch).blocks p.k).closeFile,
          compressBlock sq (s.chan p.ch).format ((s.chan p.ch).blocks p.k).records⟩))
  | send (d : Bool) (p : Ptr) (b : Packed) (h : s.comp t = .send d p b)
      (hlen : (s.chan p.ch).queue.length < returnQueueSize) : CompMove sq s t
      ((s.setChan p.ch { s.chan p.ch with queue := (s.chan p.ch).queue ++ [p.k] }).setComp t
        (.push d b))
  | push (d : Bool) (b : Packed) (h : s.comp t = .push d b)
      (hlen : s.ioQueue.length < ioQueueSize) : CompMove sq s t
      { s.setComp t (compNext d) with ioQueue := s.ioQueue ++ [.packed b] }
  | drop (d : Bool) (b : Packed) (h : s.comp t = .push d b)
      (hlen : ¬ s.ioQueue.length < ioQueueSize) : CompMove sq s t (s.setComp t (compNext d))
  | stop (h : s.comp t = .stop) : CompMove sq s t
      { s.setComp t .done with stopIoThread := s.stopIoThread + 1 }

/-! ## process exit -/

/-- Moves of the exit handler that only change its program counter. -/
inductive ExitGoto (s : State) : ExitPc → ExitPc → Prop
  | sigCompQuick (h : s.numBufCompCh ≠ 0) : ExitGoto s .sigComp .sigQuick
  | sigCompPtr (h : s.numBufCompCh = 0) : ExitGoto s .sigComp .sigPtr
  | sigPtrQuick (h : s.bufferWriteThread ≠ none) : ExitGoto s .sigPtr .sigQuick
  | sigPtrQuit (h : s.bufferWriteThread = none) : ExitGoto s .sigPtr (.closeAll .quit 0 false)
  | allClosed (m : ExitMode) (i : Nat) (h : s.chInfo[i]? = none) :
      ExitGoto s (.closeAll m i false) m.after
  | returned (m : ExitMode) (i c : Nat) (hc : s.chInfo[i]? = some c)
      (h : (s.chan c).close = .done) : ExitGoto s (.closeAll m i true) (.closeAll m (i + 1) false)
  | testLoad (h : s.bufferWriteThread ≠ none) : ExitGoto s .test .load
  | testDone (h : s.bufferWriteThread = none) : ExitGoto s .test .done
  | load (t : Nat) (h : s.bufferWriteThread = some t) : ExitGoto s .load (.join t)
  | loadNull (h : s.bufferWriteThread = none) : ExitGoto s .load .nullJoin
  | join (t : Nat) (h : s.io t = .done) : ExitGoto s (.join t) .delete
  | delete : ExitGoto s .delete .done

/-- Moves of the exit handler. -/
inductive ExitMove (s : State) : State → Prop
  | goto {pc pc' : ExitPc} (hpc : s.exit = pc) (h : ExitGoto s pc pc') :
      ExitMove s { s with exit := pc' }
  | quickTerm (h : s.exit = .sigQuick) :
      ExitMove s { s with quickTerm := true, exit := .closeAll .wait 0 false }
  | close (m : ExitMode) (i c : Nat) (h : s.exit = .closeAll m i false)
      (hc : s.chInfo[i]? = some c) (hopn : (s.chan c).opn ≠ .openFile) : ExitMove s
      { callClose s c with
        exit := if (s.chan c).handlerF = .bufferIdentityHandler then .closeAll m i true
          else .closeAll m (i + 1) false }
  | closeFault (m : ExitMode) (i c : Nat) (h : s.exit = .closeAll m i false)
      (hc : s.chInfo[i]? = some c) (hopn : (s.chan c).opn = .openFile) :
      ExitMove s { s with fault := true }
  | quickExit (h : s.exit = .quick) : ExitMove s { s with exited := true }

/-! ## a step is a move -/

/-- Moves of the system. -/
inductive Move (sq : Squash) (s : State) : Label → State → Prop
  | openChannel (f : LogFormat) (compress : Bool) : Move sq s (.openChannel f compress)
      { s.setChan s.nextChannel (.new f compress .numBufCh) with nextChannel := s.nextChannel + 1 }
  | openOther : Move sq s .openOther { s with nextChannel := s.nextChannel + 1 }
  | openStep {s' : State} (c : Nat) (h : OpenMove s c s') : Move sq s (.openStep c) s'
  | finishOpen (c : Nat) (ok : Bool) (mem : Nat → Nat → LogData)
      (h : (s.chan c).opn = .openFile) : Move sq s (.finishOpen c ok mem)
      { s.setChan c { s.chan c with
            queue := (List.range numBufferBlock).tail
            block := 0
            blocks := fun k => .new (mem k)
            blockCnt := 1
            ids := [0]
            opn := if ok && (s.chan c).format != .lzo1xTsc then .ready else .defect } with
        sink := s.sink.setLogf c
          (if ok && (s.chan c).format != .lzo1xTsc then .opened else .unopened) }
  | logTS {s' : State} (c : Nat) (d : LogData) (hopn : (s.chan c).opn = .ready)
      (hlog : (s.chan c).log = .idle) (h : CallMove s c d s') : Move sq s (.logTS c d) s'
  | logStep {s' : State} (c : Nat) (h : LogMove s c s') : Move sq s (.logStep c) s'
  | closeChannel (c : Nat) (hopn : (s.chan c).opn = .ready) :
      Move sq s (.closeChannel c) (callClose s c)
  | closeStep {s' : State} (c : Nat) (h : CloseMove s c s') : Move sq s (.closeStep c) s'
  | io {s' : State} (t : Nat) (h : IoMove s t s') : Move sq s (.io t) s'
  | comp {s' : State} (t : Nat) (h : CompMove sq s t s') : Move sq s (.comp t) s'
  | atExit (h : s.exit = .idle) :
      Move sq s .atExit { s with exit := .closeAll .normal 0 false }
  | signal (h : s.exit = .idle) : Move sq s .signal { s with exit := .sigComp }
  | exitStep {s' : State} (h : ExitMove s s') : Move sq s .exitStep s'

variable {sq : Squash} {s s' : State} {c t : Nat}

/-- `enqueueBlock` is one of two pushes. -/
theorem enqueueBlock_cases (h : enqueueBlock s c = some s') :
    ((s.chan c).compress = true ∧ s.compressionQueue.length < compressQueueSize ∧
      s' = { s.setChan c { s.chan c with sent := (s.chan c).sent ++ [(s.chan c).cur.records] } with
        compressionQueue := s.compressionQueue ++ [⟨c, (s.chan c).block⟩] }) ∨
    ((s.chan c).compress = false ∧ s.ioQueue.length < ioQueueSize ∧
      s' = { s.setChan c { s.chan c with sent := (s.chan c).sent ++ [(s.chan c).cur.records] } with
        ioQueue := s.ioQueue ++ [.raw ⟨c, (s.chan c).block⟩] }) := by
  simp only [enqueueBlock] at h
  split at h
  · next hcomp =>
    split at h
    · next hlen => exact .inl ⟨hcomp, hlen, (Option.some.inj h).symm⟩
    · contradiction
  · next hcomp =>
    split at h
    · next hlen => exact .inr ⟨by simpa using hcomp, hlen, (Option.some.inj h).symm⟩
    · contradiction

theorem openStep_move (h : openStep s c = some s') : OpenMove s c s' := by
  simp only [openStep] at h
  split at h
  · next hpc => cases h; exact .numBufCh hpc
  · next hpc =>
    split at h
    · next hio => cases h; exact .ioSeen hpc hio
    · next hio => cases h; exact .ioWon hpc (by simpa using hio)
  · next hpc => cases h; exact .ioNew hpc
  · next t hpc => cases h; exact .ioStore t hpc
  · next hpc =>
    split at h
    · next hcomp => cases h; exact .numBufCompCh hpc hcomp
    · next hcomp => cases h; exact .notComp hpc (by simpa using hcomp)
  · next hpc =>
    split at h
    · next hcr => cases h; exact .compSeen hpc hcr
    · next hcr => cases h; exact .compWon hpc (by simpa using hcr)
  · next i hpc => cases h; exact .compNew i hpc
  · next hpc =>
    split at h
    · contradiction
    · next hmtx => cases h; exact .enter hpc (by simpa using hmtx)
  all_goals contradiction

theorem logStep_move (h : logStep s c = some s') : LogMove s c s' := by
  simp only [logStep] at h
  split at h
  · next tsc d hpc => cases h; exact .write tsc d hpc
  · next hpc => cases h; exact .full hpc
  · next hpc =>
    obtain ⟨s₁, he, rfl⟩ := Option.map_eq_some_iff.mp h
    obtain ⟨hcomp, hlen, rfl⟩ | ⟨hcomp, hlen, rfl⟩ := enqueueBlock_cases he
    · simpa using LogMove.enqueueComp hpc hcomp hlen
    · simpa using LogMove.enqueueRaw hpc hcomp hlen
  · next hpc =>
    split at h
    · contradiction
    · next k q hq => cases h; exact .dequeue k q hpc hq
  · next hpc =>
    split at h
    · next hcnt => cases h; exact .setId hpc hcnt
    · next hcnt => cases h; exact .setIdFault hpc hcnt
  · contradiction

theorem logCall_move {d : LogData} (h : logCall s c d = some s') :
    (s.chan c).opn = .ready ∧ (s.chan c).log = .idle ∧ CallMove s c d s' := by
  simp only [logCall] at h
  split at h
  · next hg =>
    refine ⟨hg.1, hg.2, ?_⟩
    split at h
    · next hd => cases h; exact .poison hd
    · next hd =>
      split at h
      · next hf => cases h; exact .null hd hf
      · next hf => cases h; exact .buffer hd hf
      · next hf =>
        split at h
        · next h1 => cases h; exact .first hd hf h1
        · next h1 => cases h; exact .tsc hd hf (by simpa using h1)
  · contradiction

theorem closeStep_move (h : closeStep s c = some s') : CloseMove s c s' := by
  simp only [closeStep] at h
  split at h
  · next hpc => cases h; exact .setCloseFile hpc
  · next hpc =>
    obtain ⟨s₁, he, rfl⟩ := Option.map_eq_some_iff.mp h
    obtain ⟨hcomp, hlen, rfl⟩ | ⟨hcomp, hlen, rfl⟩ := enqueueBlock_cases he
    · simpa using CloseMove.enqueueComp hpc hcomp hlen
    · simpa using CloseMove.enqueueRaw hpc hcomp hlen
  · next hpc => cases h; exact .decComp hpc
  · next hpc => cases h; exact .dec hpc
  all_goals contradiction

/-- `sendBackBlock` is a push with room. -/
theorem sendBackBlock_eq {p : Ptr} (h : sendBackBlock s p = some s') :
    (s.chan p.ch).queue.length < returnQueueSize ∧
      s' = s.setChan p.ch { s.chan p.ch with queue := (s.chan p.ch).queue ++ [p.k] } := by
  simp only [sendBackBlock] at h
  split at h
  · next hlen => exact ⟨hlen, (Option.some.inj h).symm⟩
  · contradiction

theorem ioStep_move (h : ioStep s t = some s') : IoMove s t s' := by
  simp only [ioStep] at h
  split at h
  · next hpc => cases h; exact .start hpc
  · next hpc =>
    cases h
    split
    · next hcr => exact .goto hpc (.created hcr)
    · next hcr => exact .goto hpc (.notCreated (by simpa using hcr))
  · next hpc =>
    cases h
    split
    · next hst => exact .goto hpc (.notStopped hst)
    · next hst => exact .goto hpc (.stopped (by simpa using hst))
  · next hpc =>
    cases h
    split
    · next hcr => exact .goto hpc (.createdLeave hcr)
    · next hcr => exact .goto hpc (.createdStay (by simpa using hcr))
  · next hpc =>
    cases h
    split
    · next hn => exact .goto hpc (.numStay hn)
    · next hn => exact .goto hpc (.numLeave (by simpa using hn))
  · next m hpc =>
    split at h
    · next hq =>
      split at h
      · cases h
        split
        · next ht => exact .goto hpc (.emptyTest hq ht)
        · next ht => exact .goto hpc (.empty hq (by simpa using ht))
      · cases h; exact .quickExit hpc hq
      · cases h; exact .goto hpc (.flushed hq)
    · next p q hq => cases h; exact .popRaw m p q hpc hq
    · next b q hq =>
      split at h
      · next k hk => cases h; exact .popPacked m b q k hpc hq hk
      · next hk => cases h; exact .popFault m b q hpc hq hk
  · next m p hpc =>
    by_cases hw : ((s.chan p.ch).blocks p.k).blockIdx ≠ 0 ∧ (s.chan p.ch).writeHandlerF = none
    · rw [writeUncompressedBlock, if_pos hw] at h
      cases h
      exact .writeFault m p hpc hw
    · rw [writeUncompressedBlock, if_neg hw] at h
      cases h
      exact .write m p hpc (by grind)
  · next m p hpc =>
    obtain ⟨s₁, he, rfl⟩ := Option.map_eq_some_iff.mp h
    obtain ⟨hlen, rfl⟩ := sendBackBlock_eq he
    exact .send m p hpc hlen
  · next hpc => cases h; exact .goto hpc .flush
  · next hpc => cases h; exact .clearPtr hpc
  · next hpc => cases h; exact .clearIo hpc
  · next hpc => cases h; exact .clearComp hpc
  · next hpc => cases h; exact .clearVec hpc
  all_goals contradiction

theorem compStep_move (h : compStep sq s t = some s') : CompMove sq s t s' := by
  simp only [compStep] at h
  split at h
  · next hpc =>
    cases h
    split
    · next hst => exact .goto hpc (.stopSeen hst)
    · next hst => exact .goto hpc (.noStop (by simpa using hst))
  · next hpc =>
    cases h
    split
    · next hn => exact .goto hpc (.numStay hn)
    · next hn => exact .goto hpc (.numLeave (by simpa using hn))
  · next d hpc =>
    split at h
    · next hq =>
      cases h
      cases d with
      | true => exact .goto hpc (.drained hq)
      | false => exact .goto hpc (.empty hq)
    · next p q hq => cases h; exact .pop d p q hpc hq
  · next d p hpc => cases h; exact .work d p hpc
  · next d p b hpc =>
    obtain ⟨s₁, he, rfl⟩ := Option.map_eq_some_iff.mp h
    obtain ⟨hlen, rfl⟩ := sendBackBlock_eq he
    exact .send d p b hpc hlen
  · next d b hpc =>
    split at h
    · next hlen => cases h; exact .push d b hpc hlen
    · next hlen => cases h; exact .drop d b hpc hlen
  · next hpc => cases h; exact .stop hpc
  all_goals contradiction

theorem exitStep_move (h : exitStep s = some s') : ExitMove s s' := by
  simp only [exitStep] at h
  split at h
  · next hpc =>
    cases h
    split
    · next hn => exact .goto hpc (.sigCompQuick hn)
    · next hn => exact .goto hpc (.sigCompPtr (by simpa using hn))
  · next hpc =>
    cases h
    split
    · next hp => exact .goto hpc (.sigPtrQuick hp)
    · next hp => exact .goto hpc (.sigPtrQuit (by simpa using hp))
  · next hpc => cases h; exact .quickTerm hpc
  · next m i hpc =>
    split at h
    · next c hc =>
      split at h
      · next hopn => cases h; exact .closeFault m i c hpc hc hopn
      · next hopn => cases h; exact .close m i c hpc hc hopn
    · next hc => cases h; exact .goto hpc (.allClosed m i hc)
  · next m i hpc =>
    split at h
    · next c hc =>
      split at h
      · next hd => cases h; exact .goto hpc (.returned m i c hc hd)
      · contradiction
    · contradiction
  · next hpc => cases h; exact .quickExit hpc
  · next hpc =>
    cases h
    split
    · next hp => exact .goto hpc (.testLoad hp)
    · next hp => exact .goto hpc (.testDone (by simpa using hp))
  · next hpc =>
    split at h
    · next t ht => cases h; exact .goto hpc (.load t ht)
    · next ht => cases h; exact .goto hpc (.loadNull ht)
  · next t hpc =>
    split at h
    · next hd => cases h; exact .goto hpc (.join t hd)
    · contradiction
  · next hpc => cases h; exact .goto hpc .delete
  all_goals contradiction

/-- **Every step is a move**, and none is taken after undefined behaviour or
process termination. -/
theorem step_move {l : Label} (h : step sq s l = some s') :
    (s.fault = false ∧ s.exited = false) ∧ Move sq s l s' := by
  unfold step at h
  split at h
  · contradiction
  · next hlive =>
    refine ⟨by simpa using hlive, ?_⟩
    cases l with
    | openChannel f compress => cases h; exact .openChannel f compress
    | openOther => cases h; exact .openOther
    | openStep c => exact .openStep c (openStep_move h)
    | finishOpen c ok mem =>
        simp only [finishOpen] at h
        split at h
        · next hopn => cases h; exact .finishOpen c ok mem hopn
        · contradiction
    | logTS c d =>
        obtain ⟨hopn, hlog, hm⟩ := logCall_move h
        exact .logTS c d hopn hlog hm
    | logStep c => exact .logStep c (logStep_move h)
    | closeChannel c =>
        dsimp only at h
        split at h
        · next hopn => cases h; exact .closeChannel c hopn
        · contradiction
    | closeStep c => exact .closeStep c (closeStep_move h)
    | io t => exact .io t (ioStep_move h)
    | comp t => exact .comp t (compStep_move h)
    | atExit =>
        dsimp only at h
        split at h
        · next he => cases h; exact .atExit he
        · contradiction
    | signal =>
        dsimp only at h
        split at h
        · next he => cases h; exact .signal he
        · contradiction
    | exitStep => exact .exitStep (exitStep_move h)

end CloudProfiler
