import CloudProfiler.Census
import CloudProfiler.Buffer.Channel

/-!
# CloudProfiler.Buffer.Ownership

Where the blocks of a channel are.  A block is the producer's current block,
or in the channel's return queue, or in `compression_queue`, or in
`io_queue`, or in the hands of a worker thread; `occurrences` counts all of
these together, and the invariant `Partitioned` says that the count is one
for each of the `NUM_BUFFER_BLOCK` blocks and zero for anything else.

* `Partitioned.step` — every step of every party keeps the count;
* `ReturnsEmpty.step` — what goes back to the producer is empty;
* `Reached.partitioned` — both, for every run in which the channel is used by
  one thread.
-/

namespace CloudProfiler

/-! ## places -/

/-- The block in the hands of a compression thread. -/
def CompPc.hand : CompPc → Option Ptr
  | .work _ p | .send _ p _ => some p
  | _ => none

/-- The block in the hands of an I/O thread. -/
def IoPc.hand : IoPc → Option Ptr
  | .write _ p | .send _ p => some p
  | _ => none

/-- `block` is the producer's: it has not been enqueued. -/
def Closure.owns (ch : Closure) : Prop :=
  ch.built ∧ ch.log ≠ .dequeue ∧
    (ch.close = .none ∨ ch.close = .setCloseFile ∨ ch.close = .enqueue)

instance (ch : Closure) : Decidable ch.owns := inferInstanceAs (Decidable (_ ∧ _))

/-- How often block `k` is with its channel: current, or in the return queue. -/
def Closure.stock (k : Nat) (ch : Closure) : Nat :=
  (if ch.owns ∧ ch.block = k then 1 else 0) + ch.queue.count k

/-- How often a compression thread holds block `p`. -/
def CompPc.holds (p : Ptr) (pc : CompPc) : Nat := if pc.hand = some p then 1 else 0

/-- How often an I/O thread holds block `p`. -/
def IoPc.holds (p : Ptr) (pc : IoPc) : Nat := if pc.hand = some p then 1 else 0

/-- How often block `p` is on its way: in `compression_queue`, in `io_queue`,
in the hands of compression threads and of I/O threads. -/
def inFlight (s : State) (p : Ptr) : Nat :=
  s.compressionQueue.count p + s.ioQueue.count (.raw p) +
    tally (CompPc.holds p) s.compCnt s.comp + tally (IoPc.holds p) s.ioCnt s.io

/-- How often block `k` of channel `c` occurs in all places together. -/
def occurrences (s : State) (c k : Nat) : Nat := (s.chan c).stock k + inFlight s ⟨c, k⟩

section Holds

variable {s : State} {p q : Ptr}

@[simp] theorem IoPc.holds_write (m : IoMode) :
    IoPc.holds p (.write m q) = if q = p then 1 else 0 := by
  simp [IoPc.holds, IoPc.hand]

@[simp] theorem IoPc.holds_send (m : IoMode) :
    IoPc.holds p (.send m q) = if q = p then 1 else 0 := by
  simp [IoPc.holds, IoPc.hand]

@[simp] theorem IoPc.holds_pop (m : IoMode) : IoPc.holds p (.pop m) = 0 := by
  simp [IoPc.holds, IoPc.hand]

@[simp] theorem IoPc.holds_next (m : IoMode) : IoPc.holds p m.next = 0 := by
  cases m <;> simp [IoPc.holds, IoPc.hand, IoMode.next]

@[simp] theorem CompPc.holds_work (d : Bool) :
    CompPc.holds p (.work d q) = if q = p then 1 else 0 := by
  simp [CompPc.holds, CompPc.hand]

@[simp] theorem CompPc.holds_send (d : Bool) (b : Packed) :
    CompPc.holds p (.send d q b) = if q = p then 1 else 0 := by
  simp [CompPc.holds, CompPc.hand]

@[simp] theorem CompPc.holds_pop (d : Bool) : CompPc.holds p (.pop d) = 0 := by
  simp [CompPc.holds, CompPc.hand]

@[simp] theorem CompPc.holds_push (d : Bool) (b : Packed) : CompPc.holds p (.push d b) = 0 := by
  simp [CompPc.holds, CompPc.hand]

@[simp] theorem CompPc.holds_next (d : Bool) : CompPc.holds p (compNext d) = 0 := by
  cases d <;> simp [CompPc.holds, CompPc.hand, compNext]

theorem IoGoto.holds {pc pc' : IoPc} (h : IoGoto s pc pc') :
    IoPc.holds p pc = 0 ∧ IoPc.holds p pc' = 0 := by
  cases h <;> simp [IoPc.holds, IoPc.hand]

theorem CompGoto.holds {pc pc' : CompPc} (h : CompGoto s pc pc') :
    CompPc.holds p pc = 0 ∧ CompPc.holds p pc' = 0 := by
  cases h <;> simp [CompPc.holds, CompPc.hand]

end Holds

/-! ## every step keeps the number of occurrences -/

section Occurrences

variable {sq : Squash} {s s' : State} {l : Label} {c k t : Nat} {p : Ptr}

theorem stock_congr {ch ch' : Closure} (hown : ch'.owns ↔ ch.owns) (hblock : ch'.block = ch.block)
    (hq : ch'.queue = ch.queue) : ch'.stock k = ch.stock k := by
  simp only [Closure.stock, hown, hblock, hq]

@[simp] theorem stock_setBlock (ch : Closure) (k' : Nat) (b : BlockData) :
    (ch.setBlock k' b).stock k = ch.stock k := rfl

theorem stock_sendBack (ch : Closure) (k' : Nat) :
    ({ ch with queue := ch.queue ++ [k'] } : Closure).stock k =
      ch.stock k + if k' = k then 1 else 0 := by
  simp only [Closure.stock, List.count_append, List.count_singleton, beq_iff_eq, Nat.add_assoc]
  rfl

/-- A block that is sent back arrives in the return queue of its channel. -/
theorem stock_update_sendBack (f : Nat → Closure) (p : Ptr) :
    (Function.update f p.ch { f p.ch with queue := (f p.ch).queue ++ [p.k] } c).stock k =
      (f c).stock k + if p = ⟨c, k⟩ then 1 else 0 := by
  obtain ⟨c', k'⟩ := p
  by_cases hc : c = c'
  · subst hc
    rw [Function.update_self, stock_sendBack]
    simp
  · simp [Function.update_of_ne hc, Ne.symm hc]

theorem stock_update_setBlock (f : Nat → Closure) (p : Ptr) (b : BlockData) :
    (Function.update f p.ch ((f p.ch).setBlock p.k b) c).stock k = (f c).stock k := by
  by_cases hc : c = p.ch
  · rw [hc, Function.update_self, stock_setBlock]
  · rw [Function.update_of_ne hc]

/-- An I/O thread takes a block from `io_queue` into its hands, and from
there to the return queue. -/
theorem IoMove.occurrences_eq (hwf : Wf s) (h : IoMove s t s') :
    occurrences s' c k = occurrences s c k := by
  have ht : ∀ pc, s.io t ≠ .unborn →
      tally (IoPc.holds ⟨c, k⟩) s.ioCnt (Function.update s.io t pc) + IoPc.holds ⟨c, k⟩ (s.io t) =
        tally (IoPc.holds ⟨c, k⟩) s.ioCnt s.io + IoPc.holds ⟨c, k⟩ pc :=
    fun pc hne => tally_update (hwf.io_lt hne) pc
  cases h with
  | @goto pc pc' hpc h =>
      have hnone := h.holds (p := ⟨c, k⟩)
      simp only [occurrences, inFlight, State.setIo]
      rw [tally_update_same (by rw [hpc, hnone.1, hnone.2])]
  | popRaw m p q h hq =>
      have hsum := ht (.write m p) (by simp [h])
      simp only [occurrences, inFlight, State.setIo, h, hq, IoPc.holds_pop, IoPc.holds_write,
        List.count_cons, beq_iff_eq, IoBlock.raw.injEq] at hsum ⊢
      omega
  | popPacked m b q k' h hq hk =>
      have hsum := ht m.next (by simp [h])
      simp only [occurrences, inFlight, State.setIo, h, hq, IoPc.holds_pop, IoPc.holds_next,
        List.count_cons, beq_iff_eq, reduceCtorEq, if_false] at hsum ⊢
      omega
  | popFault m b q h hq hk => simp [occurrences, inFlight, hq]
  | write m p h hw =>
      have hsum := ht (.send m p) (by simp [h])
      simp only [occurrences, inFlight, State.setChan, State.setIo, h, IoPc.holds_send,
        IoPc.holds_write, stock_update_setBlock] at hsum ⊢
      omega
  | send m p h hlen =>
      have hsum := ht m.next (by simp [h])
      simp only [occurrences, inFlight, State.setChan, State.setIo, h, IoPc.holds_send,
        IoPc.holds_next, stock_update_sendBack] at hsum ⊢
      omega
  | writeFault | quickExit => rfl
  | start h | clearPtr h | clearIo h | clearComp h | clearVec h =>
      simp only [occurrences, inFlight, State.setIo]
      rw [tally_update_same]
      simp [h, IoPc.holds, IoPc.hand]

/-- A compression thread takes a block from `compression_queue` into its
hands, and from there to the return queue. -/
theorem CompMove.occurrences_eq (hwf : Wf s) (h : CompMove sq s t s') :
    occurrences s' c k = occurrences s c k := by
  have ht : ∀ pc, s.comp t ≠ .unborn →
      tally (CompPc.holds ⟨c, k⟩) s.compCnt (Function.update s.comp t pc) +
        CompPc.holds ⟨c, k⟩ (s.comp t) =
        tally (CompPc.holds ⟨c, k⟩) s.compCnt s.comp + CompPc.holds ⟨c, k⟩ pc :=
    fun pc hne => tally_update (hwf.comp_lt hne) pc
  cases h with
  | @goto pc pc' hpc h =>
      have hnone := h.holds (p := ⟨c, k⟩)
      simp only [occurrences, inFlight, State.setComp]
      rw [tally_update_same (by rw [hpc, hnone.1, hnone.2])]
  | pop d p q h hq =>
      have hsum := ht (.work d p) (by simp [h])
      simp only [occurrences, inFlight, State.setComp, h, hq, CompPc.holds_pop, CompPc.holds_work,
        List.count_cons, beq_iff_eq] at hsum ⊢
      omega
  | work d p h =>
      have hsum := ht (.send d p ⟨p.ch, ((s.chan p.ch).blocks p.k).blockId,
          ((s.chan p.ch).blocks p.k).closeFile,
          compressBlock sq (s.chan p.ch).format ((s.chan p.ch).blocks p.k).records⟩) (by simp [h])
      simp only [occurrences, inFlight, State.setChan, State.setComp, h, CompPc.holds_send,
        CompPc.holds_work, stock_update_setBlock] at hsum ⊢
      omega
  | send d p b h hlen =>
      have hsum := ht (.push d b) (by simp [h])
      simp only [occurrences, inFlight, State.setChan, State.setComp, h, CompPc.holds_send,
        CompPc.holds_push, stock_update_sendBack] at hsum ⊢
      omega
  | push d b h hlen =>
      have hsum := ht (compNext d) (by simp [h])
      simp only [occurrences, inFlight, State.setComp, h, CompPc.holds_push, CompPc.holds_next,
        List.count_append, List.count_singleton, beq_iff_eq, reduceCtorEq, if_false] at hsum ⊢
      omega
  | drop d b h hlen =>
      have hsum := ht (compNext d) (by simp [h])
      simp only [occurrences, inFlight, State.setComp, h, CompPc.holds_push,
        CompPc.holds_next] at hsum ⊢
      omega
  | stop h =>
      simp only [occurrences, inFlight, State.setComp]
      rw [tally_update_same]
      simp [h, CompPc.holds, CompPc.hand]

/-- Replacing the closure of one channel by one with the same stock. -/
theorem stock_update {f : Nat → Closure} {c' : Nat} {ch : Closure}
    (h : c = c' → ch.stock k = (f c').stock k) :
    (Function.update f c' ch c).stock k = (f c).stock k := by
  by_cases hc : c = c'
  · rw [hc, Function.update_self]
    exact h hc
  · rw [Function.update_of_ne hc]

theorem occurrences_congr (hstock : (s'.chan c).stock k = (s.chan c).stock k)
    (hfl : inFlight s' ⟨c, k⟩ = inFlight s ⟨c, k⟩) : occurrences s' c k = occurrences s c k := by
  rw [occurrences, occurrences, hstock, hfl]

theorem OpenMove.occurrences_eq {c' : Nat} (h : OpenMove s c' s') :
    occurrences s' c k = occurrences s c k := by
  have hstock : (s'.chan c).stock k = (s.chan c).stock k := by
    cases h <;> refine stock_update fun _ => stock_congr ?_ rfl rfl <;>
      simp only [Closure.owns, Closure.built, State.setIo, State.setComp] <;> grind
  have hfl : inFlight s' ⟨c, k⟩ = inFlight s ⟨c, k⟩ := by
    cases h <;> simp only [inFlight, State.setChan, State.setIo, State.setComp, tally_grow] <;>
      simp [IoPc.holds, IoPc.hand, CompPc.holds, CompPc.hand]
  exact occurrences_congr hstock hfl

/-- A logging thread hands over its full block and takes a new one from the
return queue. -/
theorem LogMove.occurrences_eq {c' : Nat} (hok : (s.chan c').Ok)
    (halone : c = c' → (s.chan c').Alone) (h : LogMove s c' s') :
    occurrences s' c k = occurrences s c k := by
  have hopn := hok.logging
  by_cases hc : c = c'
  · subst hc
    replace halone := halone rfl
    cases h <;>
      simp only [occurrences, inFlight, State.setChan, Function.update_self, Closure.setBlock,
        Closure.stock, Closure.owns, Closure.built, Closure.Alone] at * <;> grind
  · cases h <;>
      simp only [occurrences, inFlight, State.setChan, Function.update_of_ne hc] <;> grind

theorem CloseMove.occurrences_eq {c' : Nat} (hok : (s.chan c').Ok)
    (halone : c = c' → (s.chan c').Alone) (h : CloseMove s c' s') :
    occurrences s' c k = occurrences s c k := by
  have hbuilt := hok.unbuilt
  by_cases hc : c = c'
  · subst hc
    replace halone := halone rfl
    cases h <;>
      simp only [occurrences, inFlight, State.setChan, Function.update_self, Closure.setBlock,
        Closure.stock, Closure.owns, Closure.built, Closure.Alone] at * <;> grind
  · cases h <;>
      simp only [occurrences, inFlight, State.setChan, Function.update_of_ne hc] <;> grind

theorem callClose_occurrences_eq {c' : Nat} (hok : (s.chan c').Ok)
    (hlog : c = c' → (s.chan c').log = .idle) :
    occurrences (callClose s c') c k = occurrences s c k := by
  have hclose := hok.closing
  by_cases hc : c = c'
  · subst hc
    simp only [occurrences, inFlight, callClose, State.setChan, Function.update_self,
        Closure.stock, Closure.owns, Closure.built] at *
    grind
  · simp only [occurrences, inFlight, callClose, State.setChan, Function.update_of_ne hc]

/-! ## the invariant -/

/-- Every block of channel `c` is in exactly one place, once. -/
def Partitioned (s : State) (c : Nat) : Prop :=
  ∀ k, occurrences s c k = if (s.chan c).built ∧ k < numBufferBlock then 1 else 0

theorem partitioned_init (c : Nat) : Partitioned State.init c := by
  intro k
  simp [occurrences, inFlight, State.init, Closure.stock, Closure.owns, Closure.built, Closure.new]

/-- The blocks of a new channel: block 0 is current, the others are in the
return queue. -/
theorem count_tail_range (k n : Nat) :
    (if 0 = k then 1 else 0) + (List.range (n + 1)).tail.count k = if k < n + 1 then 1 else 0 := by
  rw [← List.count_range, List.range_succ_eq_map, List.tail_cons, List.count_cons, Nat.add_comm]
  simp

/-- **Step lemma**: every step of every party keeps the partition. -/
theorem Partitioned.step (h : Partitioned s c) (hwf : Wf s) (hok : ∀ c, (s.chan c).Ok)
    (halone : (s.chan c).Alone) (hone : OneThread c s l) (hm : Move sq s l s') :
    Partitioned s' c := by
  intro k
  by_cases hl : ∃ ok mem, l = .finishOpen c ok mem
  · -- the blocks are created: none of them can have been anywhere before
    obtain ⟨ok, mem, rfl⟩ := hl
    cases hm with
    | finishOpen _ _ _ hopn =>
      have hb : ¬ (s.chan c).built := by simp [Closure.built, hopn]
      have hunb := (hok c).unbuilt hb
      have hfl : inFlight s ⟨c, k⟩ = 0 := by
        have := h k
        simp only [occurrences, hb, false_and, if_false] at this
        omega
      have hrange := count_tail_range k 31
      simp only [occurrences, State.setChan, Function.update_self, Closure.stock, Closure.owns,
        Closure.built, hunb.1, hunb.2.1, numBufferBlock]
      simp only [inFlight] at hfl ⊢
      grind
  · have hbuilt : (s'.chan c).built ↔ (s.chan c).built :=
      hm.built_iff hwf fun ok mem he => hl ⟨ok, mem, he⟩
    have hkeep : occurrences s' c k = occurrences s c k := by
      cases hm with
      | finishOpen c' ok mem hopn =>
          have hc : c ≠ c' := fun hc => hl ⟨ok, mem, by rw [hc]⟩
          simp [occurrences, inFlight, Function.update_of_ne hc]
      | openChannel f compress =>
          refine occurrences_congr (stock_update fun hc => ?_) rfl
          have hb : ¬ (s.chan c).built := by
            simp [Closure.built, hwf.fresh c (Nat.le_of_eq hc.symm)]
          have hzero := h k
          simp only [occurrences, hb, false_and, if_false] at hzero
          have hnew : (Closure.new f compress .numBufCh).stock k = 0 := by
            simp [Closure.stock, Closure.owns, Closure.built, Closure.new]
          rw [hnew, ← hc]
          omega
      | openOther | atExit | signal => rfl
      | openStep c' h => exact h.occurrences_eq
      | logTS c' d hopn hlog h =>
          cases h with
          | poison hd => exact callClose_occurrences_eq (hok c') fun _ => hlog
          | null => rfl
          | _ =>
              refine occurrences_congr (stock_update fun _ => stock_congr ?_ rfl rfl) rfl
              simp [Closure.owns, Closure.built, hlog]
      | logStep c' h => exact h.occurrences_eq (hok c') fun hc => hc ▸ halone
      | closeChannel c' hopn =>
          exact callClose_occurrences_eq (hok c') fun hc => hc ▸ hone (by simp [closesNow, hc])
      | closeStep c' h => exact h.occurrences_eq (hok c') fun hc => hc ▸ halone
      | io t h => exact h.occurrences_eq hwf
      | comp t h => exact h.occurrences_eq hwf
      | exitStep h =>
          cases h with
          | close m i c' hpc hi hopn =>
              exact callClose_occurrences_eq (hok c') fun hc =>
                hc ▸ hone (by simp [closesNow, hpc, hi, hc, hopn])
          | _ => rfl
    rw [hkeep, h k]
    simp only [hbuilt]

end Occurrences

/-! ## the state of the blocks -/

/-- Block `k` is in the return queue, or about to be pushed on it. -/
def Returning (s : State) (c k : Nat) : Prop :=
  k ∈ (s.chan c).queue ∨ (∃ t m, s.io t = .send m ⟨c, k⟩) ∨ ∃ t d b, s.comp t = .send d ⟨c, k⟩ b

/-- Blocks that go back to the producer are empty. -/
def ReturnsEmpty (s : State) (c : Nat) : Prop :=
  ∀ k, Returning s c k → ((s.chan c).blocks k).blockIdx = 0

section Returns

variable {sq : Squash} {s s' : State} {l : Label} {c k t : Nat}

/-- The producer's current block is nowhere else. -/
theorem Partitioned.current (h : Partitioned s c) (hown : (s.chan c).owns) :
    (s.chan c).block ∉ (s.chan c).queue ∧ inFlight s ⟨c, (s.chan c).block⟩ = 0 := by
  have hk := h (s.chan c).block
  simp only [occurrences, Closure.stock, hown, true_and, if_true] at hk
  have hle : (if (s.chan c).built ∧ (s.chan c).block < numBufferBlock then 1 else 0) ≤ 1 := by
    split <;> omega
  exact ⟨List.count_eq_zero.mp (by omega), by omega⟩

/-- A block in the hands of a thread is in flight. -/
theorem inFlight_pos (hwf : Wf s) {p : Ptr} (h : (s.io t).hand = some p ∨ (s.comp t).hand = some p) :
    0 < inFlight s p := by
  obtain h | h := h
  · have hlt := hwf.io_lt (t := t) (by intro hu; simp [hu, IoPc.hand] at h)
    have hle := le_tally (w := IoPc.holds p) (f := s.io) hlt
    simp only [IoPc.holds, h, if_true] at hle
    simp only [inFlight]
    omega
  · have hlt := hwf.comp_lt (t := t) (by intro hu; simp [hu, CompPc.hand] at h)
    have hle := le_tally (w := CompPc.holds p) (f := s.comp) hlt
    simp only [CompPc.holds, h, if_true] at hle
    simp only [inFlight]
    omega

/-- The producer's current block is not on its way back. -/
theorem Partitioned.not_returning (h : Partitioned s c) (hwf : Wf s) (hown : (s.chan c).owns) :
    ¬ Returning s c (s.chan c).block := by
  obtain ⟨hq, hfl⟩ := h.current hown
  rintro (hk | ⟨t, m, ht⟩ | ⟨t, d, b, ht⟩)
  · exact hq hk
  · have := inFlight_pos (t := t) (p := ⟨c, (s.chan c).block⟩) hwf (.inl (by simp [ht, IoPc.hand]))
    omega
  · have := inFlight_pos (t := t) (p := ⟨c, (s.chan c).block⟩) hwf
      (.inr (by simp [ht, CompPc.hand]))
    omega

/-- A block is emptied, or it is the current one, or nothing is written on
it. -/
theorem ChanStep.blockIdx_cases {P : Prop} {ch ch' : Closure} (hok : ch.Ok) (halone : ch.Alone)
    (hs : ChanStep P ch ch') (k : Nat) :
    (ch'.blocks k).blockIdx = (ch.blocks k).blockIdx ∨ (ch'.blocks k).blockIdx = 0 ∨
      k = ch.block ∧ ch.owns := by
  have hset : ∀ (k' : Nat) (b : BlockData), k ≠ k' ∨ b.blockIdx = (ch.blocks k').blockIdx →
      ((ch.setBlock k' b).blocks k).blockIdx = (ch.blocks k).blockIdx := by
    intro k' b hb
    by_cases hk : k = k'
    · subst hk
      simpa using hb.resolve_left fun hne => hne rfl
    · simp [hk]
  cases hs with
  | opened | finish => exact .inr (.inl rfl)
  | write tsc d hl =>
      by_cases hk : k = ch.block
      · have hready : ch.opn = .ready := hok.logging (by simp [hl])
        have hnone : ch.close = .none := Classical.not_not.mp fun hc => by
          rw [halone hc] at hl
          cases hl
        exact .inr (.inr ⟨hk, .inl hready, by simp [hl], .inl hnone⟩)
      · exact .inl (hset _ _ (.inl hk))
  | setId | setCloseFile => exact .inl (hset _ _ (.inr rfl))
  | reset k' =>
      by_cases hk : k = k'
      · exact .inr (.inl (by simp [hk]))
      · exact .inl (hset _ _ (.inl hk))
  | _ => exact .inl rfl

/-- Who returns blocks is at `send`; nobody gets there by a mere jump. -/
theorem IoGoto.ne_send {pc pc' : IoPc} (h : IoGoto s pc pc') (m : IoMode) (p : Ptr) :
    pc' ≠ .send m p := by
  cases h <;> simp

theorem CompGoto.ne_send {pc pc' : CompPc} (h : CompGoto s pc pc') (d : Bool) (p : Ptr)
    (b : Packed) : pc' ≠ .send d p b := by
  cases h <;> simp

/-- An I/O thread that is about to send a block back has just emptied it. -/
theorem Move.io_send (hm : Move sq s l s') {m : IoMode} (ht : s'.io t = .send m ⟨c, k⟩) :
    s.io t = .send m ⟨c, k⟩ ∨ ((s'.chan c).blocks k).blockIdx = 0 := by
  have hset : ∀ {t' : Nat} {pc : IoPc}, (∀ m p, pc ≠ .send m p) →
      Function.update s.io t' pc t = .send m ⟨c, k⟩ → s.io t = .send m ⟨c, k⟩ := by
    intro t' pc hne ht
    by_cases he : t = t'
    · subst he
      exact absurd (by simpa using ht) (hne m ⟨c, k⟩)
    · rwa [Function.update_of_ne he] at ht
  cases hm with
  | openStep c' h =>
      cases h with
      | ioNew => exact .inl (hset (by simp) ht)
      | _ => exact .inl ht
  | io t' h =>
      cases h with
      | goto hpc h => exact .inl (hset h.ne_send ht)
      | start | popRaw | clearPtr | clearIo | clearComp | clearVec => exact .inl (hset (by simp) ht)
      | popPacked m' | send m' => exact .inl (hset (by cases m' <;> simp [IoMode.next]) ht)
      | write m' p h hw =>
          by_cases he : t = t'
          · subst he
            simp only [State.setIo, Function.update_self, IoPc.send.injEq] at ht
            obtain ⟨-, rfl⟩ := ht
            exact .inr (by simp)
          · exact .inl (by simpa [he] using ht)
      | quickExit | popFault | writeFault => exact .inl ht
  | logTS _ _ _ _ h | logStep _ h | closeStep _ h | comp _ h | exitStep h =>
      cases h <;> exact .inl ht
  | _ => exact .inl ht

/-- So has a compression thread. -/
theorem Move.comp_send (hm : Move sq s l s') {d : Bool} {b : Packed}
    (ht : s'.comp t = .send d ⟨c, k⟩ b) :
    s.comp t = .send d ⟨c, k⟩ b ∨ ((s'.chan c).blocks k).blockIdx = 0 := by
  have hset : ∀ {t' : Nat} {pc : CompPc}, (∀ d p b, pc ≠ .send d p b) →
      Function.update s.comp t' pc t = .send d ⟨c, k⟩ b → s.comp t = .send d ⟨c, k⟩ b := by
    intro t' pc hne ht
    by_cases he : t = t'
    · subst he
      exact absurd (by simpa using ht) (hne d ⟨c, k⟩ b)
    · rwa [Function.update_of_ne he] at ht
  cases hm with
  | openStep c' h =>
      cases h with
      | compNew => exact .inl (hset (by simp) ht)
      | _ => exact .inl ht
  | comp t' h =>
      cases h with
      | goto hpc h => exact .inl (hset h.ne_send ht)
      | pop | send | stop => exact .inl (hset (by simp) ht)
      | push d' | drop d' => exact .inl (hset (by cases d' <;> simp [compNext]) ht)
      | work d' p h =>
          by_cases he : t = t'
          · subst he
            simp only [State.setComp, Function.update_self, CompPc.send.injEq] at ht
            obtain ⟨-, rfl, -⟩ := ht
            exact .inr (by simp)
          · exact .inl (by simpa [he] using ht)
  | logTS _ _ _ _ h | logStep _ h | closeStep _ h | io _ h | exitStep h =>
      cases h <;> exact .inl ht
  | _ => exact .inl ht

/-- A block in the return queue was there, or has just been sent back, or is
one of the first, which are empty. -/
theorem Move.queue_mem (hm : Move sq s l s') (hk : k ∈ (s'.chan c).queue) :
    Returning s c k ∨ ((s'.chan c).blocks k).blockIdx = 0 := by
  have hset : ∀ {c' : Nat} {ch : Closure}, k ∈ (Function.update s.chan c' ch c).queue →
      (∀ k ∈ ch.queue, c = c' → Returning s c k) → Returning s c k := by
    intro c' ch hk hsub
    by_cases hc : c = c'
    · subst hc
      exact hsub k (by simpa using hk) rfl
    · exact .inl (by simpa [Function.update_of_ne hc] using hk)
  have hsame : ∀ {c' : Nat} {q : List Nat}, q ⊆ (s.chan c').queue → ∀ k ∈ q, c = c' →
      Returning s c k := by
    rintro c' q hsub k hk rfl
    exact .inl (hsub hk)
  cases hm with
  | openChannel => exact .inl (hset hk fun k hk => by cases hk)
  | finishOpen c' ok mem h =>
      by_cases hc : c = c'
      · subst hc
        exact .inr (by simp [BlockData.new])
      · exact .inl (.inl (by simpa [Function.update_of_ne hc] using hk))
  | openStep c' h | closeStep c' h => cases h <;> exact .inl (hset hk (hsame (List.Subset.refl _)))
  | logStep c' h =>
      cases h with
      | dequeue k' q h hq =>
          exact .inl (hset hk (hsame (by rw [hq]; exact List.subset_cons_self k' q)))
      | setIdFault => exact .inl (.inl hk)
      | _ => exact .inl (hset hk (hsame (List.Subset.refl _)))
  | logTS c' d _ _ h =>
      cases h with
      | null => exact .inl (.inl hk)
      | _ => exact .inl (hset hk (hsame (List.Subset.refl _)))
  | closeChannel => exact .inl (hset hk (hsame (List.Subset.refl _)))
  | io t' h =>
      cases h with
      | write => exact .inl (hset hk (hsame (List.Subset.refl _)))
      | send m p h =>
          refine .inl (hset hk fun k hk hc => ?_)
          obtain hk | hk := List.mem_append.mp hk
          · exact hsame (List.Subset.refl _) k hk hc
          · obtain rfl := List.mem_singleton.mp hk
            subst hc
            exact .inr (.inl ⟨t', m, h⟩)
      | _ => exact .inl (.inl hk)
  | comp t' h =>
      cases h with
      | work => exact .inl (hset hk (hsame (List.Subset.refl _)))
      | send d p b h =>
          refine .inl (hset hk fun k hk hc => ?_)
          obtain hk | hk := List.mem_append.mp hk
          · exact hsame (List.Subset.refl _) k hk hc
          · obtain rfl := List.mem_singleton.mp hk
            subst hc
            exact .inr (.inr ⟨t', d, b, h⟩)
      | _ => exact .inl (.inl hk)
  | exitStep h =>
      cases h with
      | close => exact .inl (hset hk (hsame (List.Subset.refl _)))
      | _ => exact .inl (.inl hk)
  | openOther | atExit | signal => exact .inl (.inl hk)

/-- **Step lemma**: only empty blocks are sent back, and an empty block stays
empty until it is current again. -/
theorem ReturnsEmpty.step (hret : ReturnsEmpty s c) (h : Partitioned s c) (hwf : Wf s)
    (hok : (s.chan c).Ok) (halone : (s.chan c).Alone) (hm : Move sq s l s') :
    ReturnsEmpty s' c := by
  intro k hk
  have hreturning : Returning s c k ∨ ((s'.chan c).blocks k).blockIdx = 0 := by
    obtain hk | ⟨t, m, ht⟩ | ⟨t, d, b, ht⟩ := hk
    · exact hm.queue_mem hk
    · exact (hm.io_send ht).imp_left fun h => .inr (.inl ⟨t, m, h⟩)
    · exact (hm.comp_send ht).imp_left fun h => .inr (.inr ⟨t, d, b, h⟩)
  obtain hold | hzero := hreturning
  · obtain heq | hzero | ⟨rfl, hown⟩ := (hm.chan hwf c).blockIdx_cases hok halone k
    · rw [heq, hret k hold]
    · exact hzero
    · exact absurd hold (h.not_returning hwf hown)
  · exact hzero

end Returns

/-! ## every run -/

section Runs

variable {sq : Squash} {s : State} {ok : State → Label → Prop} {c k : Nat}

/-- **Run lemma**: a channel used by one thread keeps its blocks together. -/
theorem Reached.partitioned (hone : ∀ s l, ok s l → OneThread c s l) (hr : Reached sq ok s) :
    Partitioned s c ∧ ReturnsEmpty s c := by
  refine hr.invariant_of (I := fun s => Partitioned s c ∧ ReturnsEmpty s c)
    (J := fun s => Wf s ∧ (∀ c, (s.chan c).Ok) ∧ (s.chan c).Alone)
    (fun s hs => ⟨Reached.wf hs, Reached.chanOk hs, (Reached.alone_tidy hone hs).1⟩) ?_ ?_
  · exact ⟨partitioned_init c, by simp [ReturnsEmpty, State.init, Closure.new, BlockData.new]⟩
  · rintro s l s' ⟨hwf, hok, halone⟩ ⟨hpart, hret⟩ hg hs
    have hm := (step_move hs).2
    exact ⟨hpart.step hwf hok halone (hone s l hg) hm,
      hret.step hpart hwf (hok c) halone hm⟩

/-- The return queue has room for all the blocks there are. -/
theorem Partitioned.queue_length_le (h : Partitioned s c) :
    (s.chan c).queue.length ≤ numBufferBlock := by
  have hcount : ∀ k, (s.chan c).queue.count k ≤ if k < numBufferBlock then 1 else 0 := by
    intro k
    have hk := h k
    simp only [occurrences, Closure.stock] at hk
    grind
  have hnodup : (s.chan c).queue.Nodup :=
    List.nodup_iff_count_le_one.mpr fun k => (hcount k).trans (by split <;> omega)
  have hsub : (s.chan c).queue ⊆ List.range numBufferBlock := by
    intro k hk
    have hpos := List.count_pos_iff.mpr hk
    have := hcount k
    rw [List.mem_range]
    grind
  have hle := (hnodup.subperm hsub).length_le
  rwa [List.length_range] at hle

/-- A codec for runs on fixed inputs: it leaves the data as it is. -/
def copySquash : Squash := fun _ bs => some bs

/-- Channel 0 is opened uncompressed, starting the I/O thread. -/
def openRun : List Label :=
  [.openChannel .ascii false, .openStep 0, .openStep 0, .openStep 0, .openStep 0, .openStep 0,
    .openStep 0, .finishOpen 0 true fun _ _ => ⟨0, 0, 0, 0, 0, 0⟩]

/-- Records to log. -/
def someRecords : List LogData := [⟨7, 1, 2, 3, 4, 0⟩, ⟨-5, 1, 9, 6, 4, 0⟩, ⟨7, 2, 0, 8, 5, 0⟩]

/-- The records `ds` are logged on channel `c`, whose block does not get full. -/
def logRun (c : Nat) (ds : List LogData) : List Label :=
  ds.flatMap fun d => [.logTS c d, .logStep c, .logStep c]

/-- Three records, then the close: the closing block is with the I/O thread. -/
def closingRun : List Label :=
  openRun ++ logRun 0 someRecords ++ [.closeChannel 0, .closeStep 0, .closeStep 0, .io 0, .io 0,
    .io 0, .io 0, .io 0]

end Runs

end CloudProfiler
