import CloudProfiler.Buffer.Conserve

/-!
# CloudProfiler.Buffer.Exclusive

Exclusive ownership of buffer blocks, and how long it lasts: `block_cnt` is
an `int`, and the producer that has given out the ids `0, …, INT_MAX - 1`
increments it beyond `INT_MAX` for the next block.

* `blocks_owned_exclusively` — each block is in one place, and successive
  current blocks have successive ids;
* `block_ids_run_out` — a producer that comes to the end of its ids.
-/

namespace CloudProfiler

section Exclusive

variable {sq : Squash} {s : State} {c n : Nat}

/-- **Exclusive ownership of buffer blocks.**  In every state of every run in
which channel `c` is used by one thread, up to undefined behaviour: each of
its blocks is in exactly one place, once; blocks in the return queue are
empty, and only the closing block carries `close_file`; the return queue
never holds more than `NUM_BUFFER_BLOCK` blocks and
`sendBackBlockUntilSuccess` succeeds at once; the ids given to current blocks
are `0, 1, 2, …`, the current block having the last one, and the next block
gets the next one as long as `block_cnt` is below `INT_MAX`. -/
theorem blocks_owned_exclusively (hr : Reached sq (OneThread c) s) (hlive : s.fault = false) :
    (∀ k, occurrences s c k = if (s.chan c).built ∧ k < numBufferBlock then 1 else 0) ∧
    (∀ k ∈ (s.chan c).queue, ((s.chan c).blocks k).blockIdx = 0 ∧
      (((s.chan c).blocks k).closeFile = true →
        k = (s.chan c).block ∧ (s.chan c).close ≠ .none ∧ (s.chan c).close ≠ .setCloseFile)) ∧
    (s.chan c).queue.length ≤ numBufferBlock ∧
    (∀ k, (sendBackBlock s ⟨c, k⟩).isSome) ∧
    ((s.chan c).built → (s.chan c).ids = List.range (s.chan c).blockCnt ∧
      (s.chan c).blockCnt ≤ intMax ∧
      ((s.chan c).owns → (s.chan c).log ≠ .setId →
        (s.chan c).cur.blockId + 1 = (s.chan c).blockCnt)) ∧
    ((s.chan c).log = .setId → (s.chan c).blockCnt < intMax → ∃ s', logStep s c = some s' ∧
      s'.fault = false ∧ (s'.chan c).cur.blockId = (s.chan c).blockCnt) := by
  obtain ⟨hpart, hret⟩ := hr.partitioned fun _ _ h => h
  obtain ⟨-, htidy⟩ := hr.alone_tidy fun _ _ h => h
  have hlen := hpart.queue_length_le
  have hroom : (s.chan c).queue.length < returnQueueSize := by
    simp only [numBufferBlock, returnQueueSize] at *
    omega
  refine ⟨hpart, fun k hk => ⟨hret k (.inl hk), htidy.flag k⟩, hlen, fun k => ?_, fun hb =>
    ⟨(hr.chanOk c).ids hb, (hr.chanOk c).count, fun hown hid => ?_⟩, fun hid hcnt => ?_⟩
  · simp [sendBackBlock, hroom]
  · have := htidy.curId hb hown.2.1 hid hown.2.2
    omega
  · simp only [logStep, hid, hcnt, if_true]
    exact ⟨_, rfl, hlive, by simp [Closure.cur]⟩

/-- The closing block is in the hands of the I/O thread, and each of the 32
blocks is in one place. -/
theorem blocks_owned_exclusively_closing :
    ∃ s, Reached copySquash (OneThread 0) s ∧ (s.io 0).hand = some ⟨0, 0⟩ ∧
      ∀ k, occurrences s 0 k = if k < numBufferBlock then 1 else 0 := by
  obtain ⟨s, hr, hs⟩ := Reached.of_run copySquash (OneThread 0) closingRun
    (fun s => decide ((s.io 0).hand = some ⟨0, 0⟩ ∧ s.fault = false ∧ (s.chan 0).opn = .ready))
    (by decide +kernel)
  obtain ⟨hhand, hlive, hready⟩ := of_decide_eq_true hs
  exact ⟨s, hr, hhand, fun k => by
    simpa [Closure.built, hready] using (blocks_owned_exclusively hr hlive).1 k⟩

/-! ## the ids run out -/

/-- Without free nodes in `io_queue` the copies are dropped, and the producer
goes on. -/
theorem Flooded.dropRound (h : Flooded s n ioQueueSize) (hr : Reached copySquash (OneThread 0) s)
    (hpc : s.comp 0 = .readStop) (hn : n + 1 < intMax) :
    ∃ s', Reached copySquash (OneThread 0) s' ∧ Flooded s' (n + 1) ioQueueSize ∧
      s'.comp 0 = .readStop := by
  obtain ⟨s₁, b, hr₁, h₁, hpush, -⟩ := h.toPush hr hpc hn
  have hlive := h₁.loggable.live
  have hfull : ¬ s₁.ioQueue.length < ioQueueSize := by rw [h₁.length]; omega
  refine ⟨_, Reached.drop (letsComp_oneThread 0) hr₁ hlive hpush hfull, ?_, by simp [compNext]⟩
  exact { h₁ with
    loggable := ⟨hlive, h₁.loggable.ready, h₁.loggable.idle, h₁.loggable.handler⟩
    others := fun t ht => by simpa [Function.update_of_ne ht] using h₁.others t ht }

/-- The producer enqueues any number of blocks below `INT_MAX`. -/
theorem Flooded.dropRounds (h0 : ioQueueSize ≤ n) (hn : n < intMax) :
    ∃ s, Reached copySquash (OneThread 0) s ∧ Flooded s n ioQueueSize ∧ s.comp 0 = .readStop := by
  induction n, h0 using Nat.le_induction with
  | base => exact Flooded.rounds (Nat.le_refl ioQueueSize)
  | succ n hle ih =>
      obtain ⟨s, hr, h, hpc⟩ := ih (by omega)
      exact h.dropRound hr hpc hn

/-- **The ids run out.**  The producer of channel 0 has filled `INT_MAX`
blocks and taken the next one from the return queue; for its id it
increments `block_cnt` beyond `INT_MAX`. -/
theorem block_ids_run_out :
    ∃ s, Reached copySquash (OneThread 0) s ∧ s.fault = false ∧ (s.chan 0).log = .setId ∧
      (s.chan 0).ids = List.range intMax ∧
      ∃ s', step copySquash s (.logStep 0) = some s' ∧ s'.fault = true := by
  obtain ⟨s, hr, h, -⟩ := Flooded.dropRounds (n := intMax - 1) (by decide) (by decide)
  have hlive := h.loggable.live
  have hcnt : (s.chan 0).blockCnt = intMax := by
    have := (hr.alone_tidy fun _ _ h => h).2.curId (.inl h.loggable.ready)
      (by simp [h.loggable.idle]) (by simp [h.loggable.idle]) (.inl h.close)
    rw [this.2, h.sent]
    rfl
  have hids : (s.chan 0).ids = List.range intMax := by
    rw [(Reached.chanOk hr 0).ids (.inl h.loggable.ready), hcnt]
  obtain ⟨k, q, hq⟩ := List.exists_cons_of_length_eq_add_one h.queue
  obtain ⟨blk, lg, hr⟩ := Reached.full letsLog_oneThread hr h.loggable
    (by simp [h.idx, bufferBlockSize])
  have hrun : exec (step copySquash) anyStep (s.setChan 0
      { (s.chan 0).refill blk bufferBlockSize lg with log := .enqueue }) [.logStep 0, .logStep 0] =
      some { s.setChan 0 { (s.chan 0).refill blk bufferBlockSize lg with
          queue := q
          block := k
          log := .setId
          sent := (s.chan 0).sent ++ [((s.chan 0).refill blk bufferBlockSize lg).cur.records] } with
        compressionQueue := [⟨0, (s.chan 0).block⟩] } := by
    simp [exec, anyStep, step, logStep, enqueueBlock, hlive, h.compress, h.compressionQueue, hq,
      Closure.refill, Closure.cur, compressQueueSize]
  have hr' := hr.exec_of _ (by simpa using letsLog_oneThread.2) hrun
  refine ⟨_, hr', hlive.1, by simp, by simpa [Closure.refill] using hids, ?_⟩
  simp [step, logStep, Closure.refill, hlive, hcnt]

end Exclusive

end CloudProfiler
