import CloudProfiler.Buffer.Pipeline
import CloudProfiler.Buffer.Producer

/-!
# CloudProfiler.Buffer.Conserve

Where the blocks of a compressed channel are.

A block the producer enqueued should be in `compression_queue`, with a
compression thread, in `io_queue`, in `pending` or in the file (`Kept`).
`compressed_blocks_kept` proves it for every run in which the push of a
compressed copy on `io_queue` finds a free node.  The return value of that
push is ignored, so without a free node the copy is gone:
`compressed_block_dropped` is a run in which the I/O thread does not get to
run while the producer fills 100001 blocks.

* `Pipeline.chLogf_eq` — what is in the file of a compressed channel;
* `Pipeline.kept` — every block enqueued is somewhere.
-/

namespace CloudProfiler

/-! ## the file of a compressed channel -/

/-- What the I/O thread writes for a block with the records `ds`. -/
def Closure.imageOf (sq : Squash) (ch : Closure) (ds : List LogData) : List UInt8 :=
  sizePrefixed ((compressBlock sq ch.format ds).getD [])

/-- Blocks in front of the last one leave the file open. -/
theorem foldl_put_eq {pre : List UInt8} {l : List Packed}
    (h : ∀ b ∈ l.dropLast, b.closeFile = false) :
    l.foldl Ofstream.put ⟨pre, true, 0⟩ = (⟨pre ++ l.flatMap Packed.bytes,
      !(l.getLast?.any Packed.closeFile), (l.getLast?.any Packed.closeFile).toNat⟩ : Ofstream) := by
  obtain rfl | ⟨init, b, rfl⟩ := List.eq_nil_or_concat l
  · simp
  · rw [List.concat_eq_append] at h ⊢
    rw [List.dropLast_concat] at h
    rw [List.foldl_append, foldl_put_of_not_close h]
    cases hb : b.closeFile <;> simp [Ofstream.put, Ofstream.write, Ofstream.close, hb]

section File

variable {sq : Squash} {s : State} {c : Nat} {f₀ : Ofstream} {r : Reseq Packed}

/-- Position and id agree in the output. -/
theorem Pipeline.out_id (h : Pipeline sq s c f₀ r) {i : Nat} {b : Packed}
    (hb : r.out[i]? = some b) : b.blockId = i :=
  blockId_of_getElem? h.inOrder.out hb

theorem Pipeline.out_copied (h : Pipeline sq s c f₀ r) {b : Packed} (hb : b ∈ r.out) :
    (s.chan c).Copied sq b :=
  (h.arrived b (List.mem_append_left _ hb)).2

theorem Pipeline.out_length_le (h : Pipeline sq s c f₀ r) :
    r.out.length ≤ (s.chan c).sent.length := by
  obtain hnil | ⟨init, b, hb⟩ := List.eq_nil_or_concat r.out
  · simp [hnil]
  · rw [List.concat_eq_append] at hb
    have hget : r.out[init.length]? = some b := by simp [hb]
    obtain ⟨ds, hsends, -⟩ := h.out_copied (List.mem_of_getElem? hget)
    have hlt := hsends.lt
    rw [h.out_id hget] at hlt
    simp only [hb, List.length_append, List.length_singleton]
    omega

/-- The output is what the producer enqueued first. -/
theorem Pipeline.out_bytes (h : Pipeline sq s c f₀ r) :
    r.out.map Packed.bytes =
      ((s.chan c).sent.take r.out.length).map ((s.chan c).imageOf sq) := by
  refine List.ext_getElem? fun i => ?_
  cases hi : r.out[i]? with
  | none =>
      have hle := List.getElem?_eq_none_iff.mp hi
      rw [List.getElem?_map, hi, List.getElem?_eq_none (by simp; omega)]
      rfl
  | some b =>
      have hlt := (List.getElem?_eq_some_iff.mp hi).1
      obtain ⟨ds, hsends, himg⟩ := h.out_copied (List.mem_of_getElem? hi)
      have hget := hsends.1
      rw [h.out_id hi] at hget
      rw [List.getElem?_map, hi, List.getElem?_map, List.getElem?_take_of_lt hlt, hget]
      simp [Packed.bytes, Closure.imageOf, himg]

/-- The closing block is in the output when all blocks are. -/
theorem Pipeline.out_closed (h : Pipeline sq s c f₀ r) :
    (∀ b ∈ r.out.dropLast, b.closeFile = false) ∧ (r.out.getLast?.any Packed.closeFile =
      decide ((s.chan c).closeSent ∧ r.out.length = (s.chan c).sent.length ∧ r.out ≠ [])) := by
  have hle := h.out_length_le
  obtain hnil | ⟨init, b, hb⟩ := List.eq_nil_or_concat r.out
  · simp [hnil]
  · rw [List.concat_eq_append] at hb
    have hget : r.out[init.length]? = some b := by simp [hb]
    obtain ⟨ds, hsends, -⟩ := h.out_copied (List.mem_of_getElem? hget)
    have hlast := hsends.2
    rw [h.out_id hget] at hlast
    constructor
    · intro x hx
      rw [hb, List.dropLast_concat] at hx
      obtain ⟨i, hi⟩ := List.mem_iff_getElem?.mp hx
      have hi' : r.out[i]? = some x := by
        rw [hb, List.getElem?_append_left (List.getElem?_eq_some_iff.mp hi).1, hi]
      have hlt := (List.getElem?_eq_some_iff.mp hi).1
      obtain ⟨ds', hsends', -⟩ := h.out_copied (List.mem_of_getElem? hi')
      refine Bool.eq_false_iff.mpr fun hx' => ?_
      have := (hsends'.2.mp hx').2
      rw [h.out_id hi'] at this
      simp only [hb, List.length_append, List.length_singleton] at hle
      omega
    · rw [Bool.eq_iff_iff]
      simp [hb, hlast]

/-- **The file of a compressed channel**: what was there before, then the
images of the first `next_block` blocks enqueued; closed once, behind the
closing block, and open before. -/
theorem Pipeline.chLogf_eq (h : Pipeline sq s c f₀ r) (hready : (s.chan c).opn = .ready) :
    ∃ pre, ((s.chan c).format.isTsc = false → pre = []) ∧
      (s.sink.chLogf c).content = pre ++
        ((s.chan c).sent.take (s.sink.nextBlock c)).flatMap ((s.chan c).imageOf sq) ∧
      ((s.chan c).closeSent → s.sink.nextBlock c = (s.chan c).sent.length →
        (s.chan c).sent ≠ [] →
          (s.sink.chLogf c).isOpen = false ∧ (s.sink.chLogf c).closes = 1) := by
  obtain ⟨pre, hpre, htsc⟩ := h.file hready
  obtain ⟨hopen, hclosed⟩ := h.out_closed
  have hfile := h.tracks.chLogf
  rw [hpre, foldl_put_eq hopen, hclosed] at hfile
  refine ⟨pre, htsc, ?_, fun hc hn hne => ?_⟩
  · rw [hfile, h.tracks.nextBlock, List.flatMap_def, List.flatMap_def, h.out_bytes]
  · rw [h.tracks.nextBlock] at hn
    have hne' : r.out ≠ [] := by
      intro hnil
      rw [hnil] at hn
      exact hne (List.length_eq_zero_iff.mp hn.symm)
    simp [hfile, hc, hn, hne']

end File

/-! ## no block is lost -/

/-- Block `k` of channel `c` is the `i`-th one enqueued. -/
def IsBlock (s : State) (c i k : Nat) : Prop :=
  ((s.chan c).blocks k).blockId = i ∧
    (s.chan c).sent[i]? = some ((s.chan c).blocks k).records

/-- `b` is the compressed copy of the `i`-th block of channel `c` enqueued. -/
def IsCopy (sq : Squash) (s : State) (c i : Nat) (b : Packed) : Prop :=
  b.ch = c ∧ b.blockId = i ∧ ∃ ds, (s.chan c).sent[i]? = some ds ∧
    b.image = compressBlock sq (s.chan c).format ds

/-- The `i`-th block of channel `c` enqueued is in the file: the I/O thread
has passed its id, and the file ends in the images of the blocks up to
`next_block`. -/
def InFile (sq : Squash) (s : State) (c i : Nat) : Prop :=
  i < s.sink.nextBlock c ∧ ∃ pre, (s.sink.chLogf c).content = pre ++
    ((s.chan c).sent.take (s.sink.nextBlock c)).flatMap ((s.chan c).imageOf sq)

/-- Where the `i`-th block of channel `c` enqueued can be: in
`compression_queue`, held by a compression thread, in `io_queue`, in
`pending`, or in the file. -/
inductive Kept (sq : Squash) (s : State) (c i : Nat) : Prop
  | compressionQueue (k : Nat) (h : ⟨c, k⟩ ∈ s.compressionQueue) (hk : IsBlock s c i k)
  | work (t : Nat) (d : Bool) (k : Nat) (h : s.comp t = .work d ⟨c, k⟩) (hk : IsBlock s c i k)
  | send (t : Nat) (d : Bool) (p : Ptr) (b : Packed) (h : s.comp t = .send d p b)
      (hb : IsCopy sq s c i b)
  | push (t : Nat) (d : Bool) (b : Packed) (h : s.comp t = .push d b) (hb : IsCopy sq s c i b)
  | ioQueue (b : Packed) (h : .packed b ∈ s.ioQueue) (hb : IsCopy sq s c i b)
  | pending (b : Packed) (h : b ∈ s.sink.pending c) (hb : IsCopy sq s c i b)
  | file (h : InFile sq s c i)

section Kept

variable {sq : Squash} {s : State} {c i : Nat} {f₀ : Ofstream} {r : Reseq Packed}

theorem Closure.Copied.isCopy {b : Packed} (h : (s.chan c).Copied sq b) (hc : b.ch = c)
    (hi : b.blockId = i) : IsCopy sq s c i b := by
  obtain ⟨ds, hsends, himg⟩ := h
  exact ⟨hc, hi, ds, hi ▸ hsends.1, himg⟩

/-- A compression thread that carries an id has the block, or its copy. -/
theorem Pipeline.kept_of_carries (h : Pipeline sq s c f₀ r) {t : Nat}
    (ht : 0 < (s.comp t).carries (s.chan c).idAt c i) : Kept sq s c i := by
  have htrue : ∀ b : Bool, 0 < b.toNat → b = true := by decide
  cases hpc : s.comp t with
  | work d p =>
      obtain ⟨c', k⟩ := p
      rw [hpc] at ht
      obtain ⟨rfl, hid⟩ := of_decide_eq_true (htrue _ ht)
      exact .work t d k hpc ⟨hid, hid ▸ (h.raw k (.inr ⟨t, d, hpc⟩)).1⟩
  | send d p b =>
      rw [hpc] at ht
      replace ht := of_decide_eq_true (htrue _ ht)
      exact .send t d p b hpc ((h.packed b ht.1 (.inl ⟨t, d, p, hpc⟩)).isCopy ht.1 ht.2)
  | push d b =>
      rw [hpc] at ht
      replace ht := of_decide_eq_true (htrue _ ht)
      exact .push t d b hpc ((h.packed b ht.1 (.inr (.inl ⟨t, d, hpc⟩))).isCopy ht.1 ht.2)
  | _ => simp [hpc, CompPc.carries] at ht

/-- In an intact pipeline every block enqueued is somewhere. -/
theorem Pipeline.kept (h : Pipeline sq s c f₀ r) (hready : (s.chan c).opn = .ready)
    (hi : i < (s.chan c).sent.length) : Kept sq s c i := by
  have hone := h.once i
  rw [if_pos hi, underway] at hone
  have hcases : 0 < s.compressionQueue.countP (Ptr.carries (s.chan c).idAt c i) ∨
      0 < tally (CompPc.carries (s.chan c).idAt c i) s.compCnt s.comp ∨
      0 < s.ioQueue.countP (IoBlock.carries c i) ∨
      0 < ((r.out ++ r.parked).map Packed.blockId).count i := by omega
  obtain hpos | hpos | hpos | hpos := hcases
  · obtain ⟨⟨c', k⟩, hp, hcar⟩ := List.countP_pos_iff.mp hpos
    simp only [Ptr.carries, decide_eq_true_eq] at hcar
    obtain ⟨rfl, hid⟩ := hcar
    exact .compressionQueue k hp ⟨hid, hid ▸ (h.raw k (.inl hp)).1⟩
  · obtain ⟨t, -, ht⟩ := tally_pos hpos
    exact h.kept_of_carries ht
  · obtain ⟨x, hx, hcar⟩ := List.countP_pos_iff.mp hpos
    cases x with
    | raw p => simp [IoBlock.carries] at hcar
    | packed b =>
        simp only [IoBlock.carries, Packed.carries, decide_eq_true_eq] at hcar
        exact .ioQueue b hx ((h.packed b hcar.1 (.inr (.inr hx))).isCopy hcar.1 hcar.2)
  · obtain ⟨b, hb, hid⟩ := List.mem_map.mp (List.count_pos_iff.mp hpos)
    have hcopy := (h.arrived b hb).2.isCopy (h.arrived b hb).1 hid
    obtain hb | hb := List.mem_append.mp hb
    · obtain ⟨j, hj⟩ := List.mem_iff_getElem?.mp hb
      obtain ⟨pre, -, hcontent, -⟩ := h.chLogf_eq hready
      refine .file ⟨?_, pre, hcontent⟩
      rw [h.tracks.nextBlock, ← hid, h.out_id hj]
      exact (List.getElem?_eq_some_iff.mp hj).1
    · exact .pending b (by rw [h.tracks.pending]; exact hb) hcopy

/-- Channel `c` is used by one thread, and the copies of its blocks find a
free node in `io_queue`. -/
def Unclogged (c : Nat) (s : State) (l : Label) : Prop := OneThread c s l ∧ FindsRoom c s l

instance (c : Nat) : DecidableRel (FindsRoom c) := fun s l =>
  match l with
  | .comp t => inferInstanceAs (Decidable
      (∀ b ∈ (s.comp t).pushes, b.ch = c → s.ioQueue.length < ioQueueSize))
  | .openChannel _ _ | .openOther | .openStep _ | .finishOpen _ _ _ | .logTS _ _ | .logStep _
  | .closeChannel _ | .closeStep _ | .io _ | .atExit | .signal | .exitStep => .isTrue trivial

instance (c : Nat) : DecidableRel (Unclogged c) := fun s l =>
  inferInstanceAs (Decidable (OneThread c s l ∧ FindsRoom c s l))

/-- **No compressed block is dropped** while `io_queue` has free nodes.  In
every state of every run in which the copies of the blocks of channel `c`
find a free node, with a codec that does not fail and a channel number the
reorder tables have, each block the producer enqueued is in
`compression_queue`, held by a compression thread, in `io_queue`, in
`pending` or in the file. -/
theorem compressed_blocks_kept (hsq : sq.Total) (hc : c < nextBlockSize)
    (hr : Reached sq (Unclogged c) s) (hready : (s.chan c).opn = .ready)
    (hcomp : (s.chan c).compress = true) : ∀ i < (s.chan c).sent.length, Kept sq s c i := by
  intro i hi
  obtain ⟨f₀, r, h⟩ := hr.pipeline hsq hc (fun _ _ h => h.1) (fun _ _ h => h.2) (.inr hcomp)
  exact h.kept hready hi

theorem copySquash_total : copySquash.Total := fun _ _ => rfl

/-- The closing block of channel 1, which holds its three records, is
compressed and on its way to the I/O thread, beside an uncompressed
channel. -/
theorem compressed_blocks_kept_closing :
    ∃ s, Reached copySquash (Unclogged 1) s ∧ s.ioQueue.length = 1 ∧
      (s.chan 1).sent = [someRecords] ∧ (s.chan 0).compress = false ∧
      Kept copySquash s 1 0 := by
  obtain ⟨s, hr, hs⟩ := Reached.of_run copySquash (Unclogged 1)
    (mixedRun ++ [.closeChannel 1, .closeStep 1, .closeStep 1] ++ List.replicate 6 (.comp 0))
    (fun s => decide (s.ioQueue.length = 1 ∧ (s.chan 1).sent = [someRecords] ∧
      (s.chan 1).opn = .ready ∧ (s.chan 1).compress = true ∧ (s.chan 0).compress = false))
    (by decide +kernel)
  obtain ⟨hq, hsent, hready, hcomp, hraw⟩ := of_decide_eq_true hs
  exact ⟨s, hr, hq, hsent, hraw,
    compressed_blocks_kept copySquash_total (by decide) hr hready hcomp 0 (by simp [hsent])⟩

end Kept

/-! ## a block is dropped -/

/-- The producer of channel 0 has enqueued `n` blocks, and the copies of the
first `m` of them are in `io_queue`; the I/O thread has not written any. -/
structure Flooded (s : State) (n m : Nat) : Prop where
  loggable : Loggable s 0
  compress : (s.chan 0).compress = true
  close : (s.chan 0).close = .none
  idx : (s.chan 0).cur.blockIdx = 0
  queue : (s.chan 0).queue.length = 31
  sent : (s.chan 0).sent.length = n
  compressionQueue : s.compressionQueue = []
  others : ∀ t, t ≠ 0 → s.comp t = .readStop ∨ s.comp t = .unborn
  stop : s.stopCompThread = false
  num : s.numBufCompCh ≠ 0
  length : s.ioQueue.length = m
  copies : ∀ x ∈ s.ioQueue, ∃ b, x = .packed b ∧ b.blockId < m
  nextBlock : s.sink.nextBlock 0 = 0
  pending : s.sink.pending 0 = []

section Dropped

variable {s : State} {n m : Nat}

theorem letsLog_oneThread : LetsLog (OneThread 0) 0 := by
  refine ⟨fun s d hd hc => ?_, fun s hc => ?_⟩ <;> simp_all [closesNow]

theorem letsComp_oneThread (t : Nat) : LetsComp (OneThread 0) t := by
  intro s hc
  simp [closesNow] at hc

/-- The producer fills a block, and compression thread 0 compresses it and
sends it back. -/
theorem Flooded.toPush (h : Flooded s n m) (hr : Reached copySquash (OneThread 0) s)
    (hpc : s.comp 0 = .readStop) (hn : n + 1 < intMax) : ∃ s' b,
      Reached copySquash (OneThread 0) s' ∧ Flooded s' (n + 1) m ∧ s'.comp 0 = .push false b ∧
        b.blockId = n := by
  obtain ⟨hpart, hret⟩ := hr.partitioned fun _ _ h => h
  have hown : (s.chan 0).owns := ⟨.inl h.loggable.ready, by simp [h.loggable.idle], .inl h.close⟩
  obtain ⟨hid, hcnt⟩ := (hr.alone_tidy fun _ _ h => h).2.curId hown.1 (by simp [h.loggable.idle])
    (by simp [h.loggable.idle]) (.inl h.close)
  obtain ⟨k, q, hq⟩ := List.exists_cons_of_length_eq_add_one h.queue
  have hk : k ≠ (s.chan 0).block := fun hk =>
    (hpart.current hown).1 (by simp [hq, hk])
  obtain ⟨s₁, hr₁, h₁⟩ := Reached.rotate letsLog_oneThread hr h.loggable
    (by simp [h.idx, bufferBlockSize]) h.compress (by simp [h.compressionQueue, compressQueueSize])
    hq (by rwa [hcnt, h.sent])
  have hcq : s₁.compressionQueue = [⟨0, (s.chan 0).block⟩] := by
    simp [h₁.compressionQueue, h.compressionQueue]
  have hlive := h₁.loggable.live
  have hr₂ := Reached.compress (t := 0) (letsComp_oneThread 0) hr₁ ⟨hlive, by rw [h₁.comp, hpc],
    by rw [h₁.stopCompThread, h.stop], by rw [h₁.numBufCompCh]; exact h.num⟩ hcq
  have hlen : q.length = 30 := by simpa [hq] using h.queue
  have hroom : q.length < returnQueueSize := by rw [hlen]; decide
  have hidx : ((s.chan 0).blocks k).blockIdx = 0 := hret k (.inl (by simp [hq]))
  have hr₃ := Reached.sendBack (t := 0) (d := false) (p := ⟨0, (s.chan 0).block⟩)
    (b := packedOf copySquash s₁ ⟨0, (s.chan 0).block⟩) (letsComp_oneThread 0) hr₂ hlive (by simp)
    (by simpa [h₁.queue] using hroom)
  refine ⟨_, packedOf copySquash s₁ ⟨0, (s.chan 0).block⟩, hr₃, ?_, by simp, ?_⟩
  · constructor
    case loggable =>
      exact ⟨hlive, by simpa using h₁.loggable.ready, by simpa using h₁.loggable.idle,
        by simpa using h₁.loggable.handler⟩
    case compress => simpa using h₁.compress
    case close => simpa using h₁.close.trans h.close
    case idx =>
      have := h₁.blockIdx hk
      simp only [Closure.cur, h₁.block] at this
      simp [Closure.cur, h₁.block, Function.update_of_ne hk, this, hidx]
    case queue => simp [h₁.queue, hlen]
    case sent => simpa [h.sent] using h₁.sent
    case compressionQueue => rfl
    case others =>
      exact fun t ht => by simpa [Function.update_of_ne ht, h₁.comp] using h.others t ht
    case stop => simpa using h₁.stopCompThread.trans h.stop
    case num => simpa [h₁.numBufCompCh] using h.num
    case length => simpa [h₁.ioQueue] using h.length
    case copies => simpa [h₁.ioQueue] using h.copies
    case nextBlock => simpa [h₁.sink] using h.nextBlock
    case pending => simpa [h₁.sink] using h.pending
  · simpa [packedOf, h₁.sentId hk, h.sent] using hid

/-- While there are free nodes, the copy goes to `io_queue`. -/
theorem Flooded.round (h : Flooded s n n) (hr : Reached copySquash (OneThread 0) s)
    (hpc : s.comp 0 = .readStop) (hn : n < ioQueueSize) :
    ∃ s', Reached copySquash (OneThread 0) s' ∧ Flooded s' (n + 1) (n + 1) ∧
      s'.comp 0 = .readStop := by
  have hmax : n + 1 < intMax := by
    simp only [ioQueueSize, intMax] at *
    omega
  obtain ⟨s₁, b, hr₁, h₁, hpush, hid⟩ := h.toPush hr hpc hmax
  have hlive := h₁.loggable.live
  have hroom : s₁.ioQueue.length < ioQueueSize := by rw [h₁.length]; exact hn
  have hr₂ := Reached.push (letsComp_oneThread 0) hr₁ hlive hpush hroom
  refine ⟨_, hr₂, ?_, by simp [compNext]⟩
  constructor
  case loggable => exact ⟨hlive, h₁.loggable.ready, h₁.loggable.idle, h₁.loggable.handler⟩
  case others => exact fun t ht => by simpa [Function.update_of_ne ht] using h₁.others t ht
  case length => simp [h₁.length]
  case copies =>
    intro x hx
    obtain hx | hx := List.mem_append.mp hx
    · obtain ⟨b', rfl, hb'⟩ := h₁.copies x hx
      exact ⟨b', rfl, by omega⟩
    · exact ⟨b, List.mem_singleton.mp hx, by omega⟩
  all_goals first | exact h₁.compress | exact h₁.close | exact h₁.idx | exact h₁.queue |
    exact h₁.sent | exact h₁.compressionQueue | exact h₁.stop | exact h₁.num | exact h₁.nextBlock |
    exact h₁.pending

/-- The I/O thread gets behind by any number of blocks up to the capacity of
`io_queue`. -/
theorem Flooded.rounds (hn : n ≤ ioQueueSize) : ∃ s, Reached copySquash (OneThread 0) s ∧
    Flooded s n n ∧ s.comp 0 = .readStop := by
  induction n with
  | zero =>
      obtain ⟨s, hr, hs⟩ := Reached.of_run copySquash (OneThread 0) compOpenRun
        (fun s => decide (s.fault = false ∧ s.exited = false ∧ (s.chan 0).opn = .ready ∧
          (s.chan 0).log = .idle ∧ (s.chan 0).handlerF = .bufferIdentityHandler ∧
          (s.chan 0).compress = true ∧ (s.chan 0).close = .none ∧
          (s.chan 0).cur.blockIdx = 0 ∧ (s.chan 0).queue.length = 31 ∧
          (s.chan 0).sent.length = 0 ∧ s.compressionQueue = [] ∧ s.compCnt = 4 ∧
          s.comp 0 = .readStop ∧ s.comp 1 = .readStop ∧ s.comp 2 = .readStop ∧
          s.comp 3 = .readStop ∧ s.stopCompThread = false ∧ s.numBufCompCh = 1 ∧
          s.ioQueue = [] ∧ s.sink.nextBlock 0 = 0 ∧ s.sink.pending 0 = [])) (by decide +kernel)
      obtain ⟨hf, he, hready, hlog, hh, hcomp, hclose, hidx, hq, hsent, hcq, hcnt, h0, h1, h2, h3,
        hstop, hnum, hio, hnext, hpend⟩ := of_decide_eq_true hs
      refine ⟨s, hr, ⟨⟨⟨hf, he⟩, hready, hlog, hh⟩, hcomp, hclose, hidx, hq, hsent, hcq, ?_, hstop,
        by simp [hnum], by simp [hio], by simp [hio], hnext, hpend⟩, h0⟩
      intro t ht
      obtain hlt | hge := Nat.lt_or_ge t 4
      · obtain rfl | rfl | rfl : t = 1 ∨ t = 2 ∨ t = 3 := by omega
        · exact .inl h1
        · exact .inl h2
        · exact .inl h3
      · exact .inr ((hr.wf.comp t).mpr (by omega))
  | succ n ih =>
      obtain ⟨s, hr, h, hpc⟩ := ih (by omega)
      exact h.round hr hpc (by omega)

/-- **A compressed block is dropped.**  The producer of channel 0 fills
100001 blocks and compression thread 0 compresses them while the I/O thread
does not run; the copy of the last block finds no free node in `io_queue` and
is nowhere. -/
theorem compressed_block_dropped :
    copySquash.Total ∧ ∃ s, Reached copySquash (OneThread 0) s ∧ (s.chan 0).opn = .ready ∧
      (s.chan 0).compress = true ∧ (s.chan 0).sent.length = 100001 ∧
      ¬ Kept copySquash s 0 100000 := by
  obtain ⟨s, hr, h, hpc⟩ := Flooded.rounds (Nat.le_refl ioQueueSize)
  obtain ⟨s₁, b, hr₁, h₁, hpush, hid⟩ := h.toPush hr hpc (by decide)
  have hlive := h₁.loggable.live
  have hfull : ¬ s₁.ioQueue.length < ioQueueSize := by rw [h₁.length]; omega
  have hr₂ := Reached.drop (letsComp_oneThread 0) hr₁ hlive hpush hfull
  refine ⟨copySquash_total, _, hr₂, h₁.loggable.ready, h₁.compress, h₁.sent, fun hkept => ?_⟩
  have hcomp : ∀ t, Function.update s₁.comp 0 (compNext false) t = .readStop ∨
      Function.update s₁.comp 0 (compNext false) t = .unborn := by
    intro t
    by_cases ht : t = 0
    · subst ht
      exact .inl (by simp [compNext])
    · simpa [Function.update_of_ne ht] using h₁.others t ht
  cases hkept with
  | compressionQueue k hk => simp [h₁.compressionQueue] at hk
  | work t d k ht => obtain hc | hc := hcomp t <;> simp [hc] at ht
  | send t d p b ht => obtain hc | hc := hcomp t <;> simp [hc] at ht
  | push t d b ht => obtain hc | hc := hcomp t <;> simp [hc] at ht
  | ioQueue b' hb hcopy =>
      obtain ⟨b'', he, hlt⟩ := h₁.copies _ hb
      cases he
      have := hcopy.2.1
      simp only [ioQueueSize] at hlt
      omega
  | pending b' hb => simp [h₁.pending] at hb
  | file hfile =>
      have := hfile.1
      simp [h₁.nextBlock] at this

end Dropped

end CloudProfiler
