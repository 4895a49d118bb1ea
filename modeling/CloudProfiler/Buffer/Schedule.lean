import CloudProfiler.Buffer.Move

/-!
# CloudProfiler.Buffer.Schedule

Runs that exist: a logging thread that is left alone fills its current block
(`Reached.fill`) and comes to enqueue it (`Reached.full`), whatever the rest
of the system is doing.
-/

namespace CloudProfiler

/-- The guard lets the logging thread of channel `c` go on. -/
def LetsLog (ok : State → Label → Prop) (c : Nat) : Prop :=
  (∀ s d, d.tuple ≠ -1 → ok s (.logTS c d)) ∧ ∀ s, ok s (.logStep c)

/-- The closure with other records on its current block. -/
def Closure.refill (ch : Closure) (blk : Nat → LogData) (n : Nat) (lg : List LogData) : Closure :=
  { ch.setBlock ch.block { ch.cur with block := blk, blockIdx := n } with logged := lg }

section

variable {sq : Squash} {s : State} {ok : State → Label → Prop} {c : Nat}

/-- The application may log on channel `c`: it is open, and no call of
`logTS` is under way. -/
structure Loggable (s : State) (c : Nat) : Prop where
  live : s.fault = false ∧ s.exited = false
  ready : (s.chan c).opn = .ready
  idle : (s.chan c).log = .idle
  handler : (s.chan c).handlerF = .bufferIdentityHandler

/-- The record the runs below log. -/
def someRecord : LogData := ⟨0, 0, 0, 0, 0, 0⟩

theorem refill_self (s : State) (c : Nat) :
    s.setChan c ((s.chan c).refill (s.chan c).cur.block (s.chan c).cur.blockIdx (s.chan c).logged)
      = s := by
  simp [Closure.refill, Closure.cur]

/-- One call of `logTS` up to `checkBlockIsFull`. -/
theorem Reached.logOne (hlets : LetsLog ok c) (h : Loggable s c) {blk : Nat → LogData} {n : Nat}
    {lg : List LogData} (hr : Reached sq ok (s.setChan c ((s.chan c).refill blk n lg))) :
    ∃ blk' lg', Reached sq ok
      (s.setChan c { (s.chan c).refill blk' (n + 1) lg' with log := .full }) := by
  have h1 : step sq (s.setChan c ((s.chan c).refill blk n lg)) (.logTS c someRecord) =
      some (s.setChan c
        { (s.chan c).refill blk n lg with log := .write false someRecord }) := by
    simp [step, logCall, Closure.refill, h.live, h.ready, h.idle, h.handler, someRecord]
  have h2 : step sq (s.setChan c
      { (s.chan c).refill blk n lg with log := .write false someRecord }) (.logStep c) =
      some (s.setChan c
        { (s.chan c).refill (fun i => if i = n then someRecord else blk i) (n + 1)
            (lg ++ [someRecord]) with log := .full }) := by
    simp [step, logStep, h.live, Closure.refill, Closure.cur, BlockData.writeOnBlock]
  exact ⟨_, _, .step (.step hr (hlets.1 _ _ (by decide)) h1) (hlets.2 _) h2⟩

/-- **A logging thread fills its block**, up to any number of records below
the block size. -/
theorem Reached.fill (hlets : LetsLog ok c) (hr : Reached sq ok s) (h : Loggable s c) {n : Nat}
    (h0 : (s.chan c).cur.blockIdx ≤ n) (hn : n < bufferBlockSize) :
    ∃ blk lg, Reached sq ok (s.setChan c ((s.chan c).refill blk n lg)) := by
  induction n, h0 using Nat.le_induction with
  | base => exact ⟨_, _, (refill_self s c).symm ▸ hr⟩
  | succ n hle ih =>
      obtain ⟨blk, lg, hr⟩ := ih (by omega)
      obtain ⟨blk, lg, hr⟩ := Reached.logOne hlets h hr
      have hnot : n + 1 ≠ bufferBlockSize := Nat.ne_of_lt hn
      have hstep : step sq (s.setChan c
          { (s.chan c).refill blk (n + 1) lg with log := .full }) (.logStep c) =
          some (s.setChan c ((s.chan c).refill blk (n + 1) lg)) := by
        simp [step, logStep, h.live, h.idle, Closure.refill, Closure.cur,
          BlockData.checkBlockIsFull, hnot]
      exact ⟨blk, lg, .step hr (hlets.2 _) hstep⟩

/-- **A logging thread comes to enqueue its block**, full. -/
theorem Reached.full (hlets : LetsLog ok c) (hr : Reached sq ok s) (h : Loggable s c)
    (h0 : (s.chan c).cur.blockIdx < bufferBlockSize) :
    ∃ blk lg, Reached sq ok (s.setChan c
      { (s.chan c).refill blk bufferBlockSize lg with log := .enqueue }) := by
  obtain ⟨blk, lg, hr⟩ := Reached.fill hlets hr h (Nat.le_sub_one_of_lt h0) (by decide)
  obtain ⟨blk, lg, hr⟩ := Reached.logOne hlets h hr
  have hsize : bufferBlockSize - 1 + 1 = bufferBlockSize := by decide
  rw [hsize] at hr
  have hstep : step sq (s.setChan c
      { (s.chan c).refill blk bufferBlockSize lg with log := .full }) (.logStep c) =
      some (s.setChan c { (s.chan c).refill blk bufferBlockSize lg with log := .enqueue }) := by
    simp [step, logStep, h.live, Closure.refill, Closure.cur, BlockData.checkBlockIsFull]
  exact ⟨blk, lg, .step hr (hlets.2 _) hstep⟩

/-- The closure after its full block was enqueued and block `k` taken from
the return queue. -/
def Closure.rotate (ch : Closure) (blk : Nat → LogData) (lg : List LogData) (k : Nat)
    (q : List Nat) : Closure :=
  let ch' := ch.refill blk bufferBlockSize lg
  { ch'.setBlock k { ch'.blocks k with blockId := ch.blockCnt } with
    queue := q
    block := k
    blockCnt := ch.blockCnt + 1
    ids := ch.ids ++ [ch.blockCnt]
    sent := ch.sent ++ [ch'.cur.records] }

/-- Between `s` and `s'` the producer of channel `c` has handed over its
block and taken block `k`; `q` is left in the return queue. -/
structure Rotated (s s' : State) (c k : Nat) (q : List Nat) : Prop where
  loggable : Loggable s' c
  compress : (s'.chan c).compress = true
  close : (s'.chan c).close = (s.chan c).close
  block : (s'.chan c).block = k
  queue : (s'.chan c).queue = q
  blockIdx : k ≠ (s.chan c).block → (s'.chan c).cur.blockIdx = ((s.chan c).blocks k).blockIdx
  sentId : k ≠ (s.chan c).block →
    ((s'.chan c).blocks (s.chan c).block).blockId = (s.chan c).cur.blockId
  sentFile : k ≠ (s.chan c).block →
    ((s'.chan c).blocks (s.chan c).block).closeFile = (s.chan c).cur.closeFile
  sent : (s'.chan c).sent.length = (s.chan c).sent.length + 1
  blockCnt : (s'.chan c).blockCnt = (s.chan c).blockCnt + 1
  compressionQueue : s'.compressionQueue = s.compressionQueue ++ [⟨c, (s.chan c).block⟩]
  ioQueue : s'.ioQueue = s.ioQueue
  sink : s'.sink = s.sink
  comp : s'.comp = s.comp
  compCnt : s'.compCnt = s.compCnt
  stopCompThread : s'.stopCompThread = s.stopCompThread
  numBufCompCh : s'.numBufCompCh = s.numBufCompCh

/-- **A logging thread hands over a full block** of a compressed channel and
goes on with the next one. -/
theorem Reached.rotate (hlets : LetsLog ok c) (hr : Reached sq ok s) (h : Loggable s c)
    (h0 : (s.chan c).cur.blockIdx < bufferBlockSize) (hcomp : (s.chan c).compress = true)
    (hroom : s.compressionQueue.length < compressQueueSize) {k : Nat} {q : List Nat}
    (hq : (s.chan c).queue = k :: q) (hcnt : (s.chan c).blockCnt < intMax) :
    ∃ s', Reached sq ok s' ∧ Rotated s s' c k q := by
  obtain ⟨blk, lg, hr⟩ := Reached.full hlets hr h h0
  have hrun : exec (step sq) anyStep (s.setChan c
      { (s.chan c).refill blk bufferBlockSize lg with log := .enqueue })
      [.logStep c, .logStep c, .logStep c] =
      some { s.setChan c ((s.chan c).rotate blk lg k q) with
        compressionQueue := s.compressionQueue ++ [⟨c, (s.chan c).block⟩] } := by
    simp [exec, anyStep, step, logStep, enqueueBlock, h.live, h.idle, hcomp, hroom, hq, hcnt,
      Closure.refill, Closure.rotate, Closure.cur]
  refine ⟨_, hr.exec_of _ (by simpa using hlets.2) hrun, ?_⟩
  constructor
  case loggable =>
    constructor <;> simp [Closure.rotate, Closure.refill, h.live, h.ready, h.idle, h.handler]
  case compress => simpa [Closure.rotate, Closure.refill] using hcomp
  case blockIdx =>
    intro hk
    simp [Closure.rotate, Closure.refill, Closure.cur, Function.update_of_ne hk]
  case sentId | sentFile =>
    intro hk
    simp [Closure.rotate, Closure.refill, Closure.cur, Function.update_of_ne (Ne.symm hk)]
  all_goals simp [Closure.rotate, Closure.refill]

/-- The guard lets compression thread `t` go on. -/
def LetsComp (ok : State → Label → Prop) (t : Nat) : Prop := ∀ s, ok s (.comp t)

/-- The compression thread is in its main loop, and stays there. -/
structure Polling (s : State) (t : Nat) : Prop where
  live : s.fault = false ∧ s.exited = false
  pc : s.comp t = .readStop
  stop : s.stopCompThread = false
  num : s.numBufCompCh ≠ 0

/-- The copy a compression thread makes of block `p`. -/
def packedOf (sq : Squash) (s : State) (p : Ptr) : Packed :=
  ⟨p.ch, ((s.chan p.ch).blocks p.k).blockId, ((s.chan p.ch).blocks p.k).closeFile,
    compressBlock sq (s.chan p.ch).format ((s.chan p.ch).blocks p.k).records⟩

/-- **A compression thread takes a block** and compresses it, up to where it
sends the block back. -/
theorem Reached.compress {t : Nat} {p : Ptr} {q : List Ptr} (hlets : LetsComp ok t)
    (hr : Reached sq ok s) (h : Polling s t) (hq : s.compressionQueue = p :: q) :
    Reached sq ok { (s.setChan p.ch ((s.chan p.ch).setBlock p.k
        { (s.chan p.ch).blocks p.k with blockIdx := 0 })).setComp t
          (.send false p (packedOf sq s p)) with
      compressionQueue := q } := by
  refine hr.exec_of [.comp t, .comp t, .comp t, .comp t] (by simpa [LetsComp] using hlets) ?_
  simp [exec, anyStep, step, compStep, h.live, h.pc, h.stop, h.num, hq, packedOf]

section Send

variable {t : Nat} {d : Bool} {b : Packed}

/-- It returns the block to its channel. -/
theorem Reached.sendBack {p : Ptr} (hlets : LetsComp ok t) (hr : Reached sq ok s)
    (hlive : s.fault = false ∧ s.exited = false) (hpc : s.comp t = .send d p b)
    (hroom : (s.chan p.ch).queue.length < returnQueueSize) : Reached sq ok
      ((s.setChan p.ch { s.chan p.ch with queue := (s.chan p.ch).queue ++ [p.k] }).setComp t
        (.push d b)) :=
  .step hr (hlets s) (by simp [step, compStep, sendBackBlock, hlive, hpc, hroom])

/-- It hands over the copy, if there is a free node. -/
theorem Reached.push (hlets : LetsComp ok t) (hr : Reached sq ok s)
    (hlive : s.fault = false ∧ s.exited = false) (hpc : s.comp t = .push d b)
    (hroom : s.ioQueue.length < ioQueueSize) : Reached sq ok
      { s.setComp t (compNext d) with ioQueue := s.ioQueue ++ [.packed b] } :=
  .step hr (hlets s) (by simp [step, compStep, hlive, hpc, hroom])

/-- Without a free node it goes on all the same. -/
theorem Reached.drop (hlets : LetsComp ok t) (hr : Reached sq ok s)
    (hlive : s.fault = false ∧ s.exited = false) (hpc : s.comp t = .push d b)
    (hfull : ¬ s.ioQueue.length < ioQueueSize) : Reached sq ok (s.setComp t (compNext d)) :=
  .step hr (hlets s) (by simp [step, compStep, hlive, hpc, hfull])

end Send

end

end CloudProfiler
