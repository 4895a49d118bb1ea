import CloudProfiler.Buffer.Conserve

/-!
# CloudProfiler.Buffer.Deliver

From the records to the file, for channels of either kind.

* `Closure.Accounted` — the records written on blocks are those of the blocks
  enqueued and of the open block, in order;
* `Arrives` — the file holds the first blocks enqueued, in order and once
  each, and all of them when nothing of the channel is on its way;
* `Reached.arrives` — both hold along runs in which the channel is used by
  one thread and, if it is compressed, the copies of its blocks find a free
  node in `io_queue`.
-/

namespace CloudProfiler

/-! ## records in blocks -/

/-- The records written on blocks are those of the blocks enqueued and of
the block that has not been enqueued yet. -/
def Closure.Accounted (ch : Closure) : Prop := ch.logged = ch.sent.flatten ++ ch.openRecords

section Accounted

variable {sq : Squash} {s s' : State} {l : Label} {ok : State → Label → Prop} {c : Nat}

theorem Closure.Accounted.congr {ch ch' : Closure} (h : ch.Accounted) (hs : SameStream ch ch') :
    ch'.Accounted := by
  rw [Closure.Accounted, hs.logged, hs.sent, hs.openRecords]
  exact h

theorem accounted_update {f : Nat → Closure} {c' : Nat} {ch : Closure} (h : (f c).Accounted)
    (hch : c = c' → ch.Accounted) : (Function.update f c' ch c).Accounted := by
  by_cases hc : c = c'
  · rw [hc, Function.update_self]
    exact hch hc
  · rw [Function.update_of_ne hc]
    exact h

/-- Without its blocks, a channel has no records. -/
theorem Closure.accounted_of_unbuilt {ch : Closure} (hlogged : ch.logged = [])
    (hsent : ch.sent = []) (hb : ¬ ch.built) : ch.Accounted := by
  rw [Closure.Accounted, hlogged, hsent, openRecords_of_not_owns fun hown => hb hown.1]
  rfl

/-- The open block is enqueued. -/
theorem Closure.Accounted.enqueue {ch ch' : Closure} (h : ch.Accounted) (hown : ch.owns)
    (hlogged : ch'.logged = ch.logged) (hsent : ch'.sent = ch.sent ++ [ch.cur.records])
    (hown' : ¬ ch'.owns) : ch'.Accounted := by
  rw [Closure.Accounted, hlogged, hsent, openRecords_of_not_owns hown', h,
    openRecords_of_owns hown]
  simp

/-- What is known of the channel whose records are accounted for. -/
structure Filed (s : State) (c : Nat) : Prop where
  wf : Wf s
  ok : (s.chan c).Ok
  alone : (s.chan c).Alone
  part : Partitioned s c
  returns : ReturnsEmpty s c
  notTsc : (s.chan c).format.isTsc = false

/-- The logging thread owns its block, except between the two queue
operations. -/
theorem Filed.owns (hf : Filed s c) (hl : (s.chan c).log ≠ .idle) (hd : (s.chan c).log ≠ .dequeue) :
    (s.chan c).owns :=
  ⟨.inl (hf.ok.logging hl), hd, .inl (Classical.not_not.mp fun hc => hl (hf.alone hc))⟩

theorem LogMove.accounted (h : (s.chan c).Accounted) (hf : Filed s c) (hm : LogMove s c s') :
    (s'.chan c).Accounted := by
  cases hm <;> simp only [State.setChan, Function.update_self]
  case write tsc d hl =>
    have hown := hf.owns (by simp [hl]) (by simp [hl])
    obtain rfl : tsc = false := (hf.ok.writing tsc d hl).trans hf.notTsc
    rw [Closure.Accounted, openRecords_of_owns, h, openRecords_of_owns hown, List.append_assoc]
    · simp [Closure.cur, BlockData.records_writeOnBlock]
    · exact ⟨hown.1, by simp, hown.2.2⟩
  case full hl =>
    refine h.congr ⟨rfl, rfl, ?_, rfl, fun _ => rfl, Iff.rfl⟩
    simp only [Closure.owns, Closure.built, hl]
    grind
  case enqueueComp hl _ _ | enqueueRaw hl _ _ =>
    exact h.enqueue (hf.owns (by simp [hl]) (by simp [hl])) rfl rfl (by simp [Closure.owns])
  case dequeue k q hl hq =>
    have hready := hf.ok.logging (by simp [hl])
    have hclose : (s.chan c).close = .none :=
      Classical.not_not.mp fun hc => by simpa [hl] using hf.alone hc
    have hempty := hf.returns k (.inl (by simp [hq]))
    rw [Closure.Accounted, openRecords_of_owns, h, openRecords_of_not_owns, Closure.cur,
      BlockData.records_eq_nil hempty]
    · simp [Closure.owns, hl]
    · exact ⟨.inl hready, by simp, .inl hclose⟩
  case setIdFault => exact h
  case setId hl hcnt =>
    refine h.congr ⟨rfl, rfl, ?_, rfl, fun k => ?_, Iff.rfl⟩
    · simp [Closure.owns, Closure.built, hl]
    · by_cases hk : k = (s.chan c).block
      · subst hk
        simp [BlockData.records, Closure.cur]
      · simp [Function.update_of_ne hk]

theorem CloseMove.accounted (h : (s.chan c).Accounted) (hf : Filed s c) (hm : CloseMove s c s') :
    (s'.chan c).Accounted := by
  cases hm <;> simp only [State.setChan, Function.update_self]
  case setCloseFile hc =>
    refine h.congr ⟨rfl, rfl, ?_, rfl, fun k => ?_, ?_⟩
    · simp [Closure.owns, Closure.built, hc]
    · by_cases hk : k = (s.chan c).block
      · subst hk
        simp [BlockData.records, Closure.cur]
      · simp [Function.update_of_ne hk]
    · simp [Closure.closeSent, hc]
  case enqueueComp hc _ _ | enqueueRaw hc _ _ =>
    have hb : (s.chan c).built := Classical.not_not.mp fun hb => by
      simpa [hc] using (hf.ok.unbuilt hb).2.1
    have hlog : (s.chan c).log = .idle := hf.alone (by simp [hc])
    exact h.enqueue ⟨hb, by simp [hlog], .inr (.inr hc)⟩ rfl rfl (by simp [Closure.owns])
  case decComp hc | dec hc =>
    refine h.congr ⟨rfl, rfl, ?_, rfl, fun _ => rfl, ?_⟩
    · simp [Closure.owns, Closure.built, hc]
    · simp [Closure.closeSent, hc]

/-- A worker thread empties a block in its hands. -/
theorem Filed.reset (hf : Filed s c) (h : (s.chan c).Accounted) {p : Ptr}
    (hp : 0 < inFlight s p) :
    (Function.update s.chan p.ch
      ((s.chan p.ch).setBlock p.k { (s.chan p.ch).blocks p.k with blockIdx := 0 }) c).Accounted := by
  refine accounted_update h fun hc => ?_
  subst hc
  rw [Closure.Accounted, openRecords_setBlock fun hown hk => ?_]
  · exact h
  · have hzero := (hf.part.current hown).2
    rw [← hk] at hzero
    exact absurd hzero (Nat.ne_of_gt hp)

/-- **Step lemma**: no step loses a record between `logTS` and the queues. -/
theorem Closure.Accounted.step (h : (s.chan c).Accounted) (hf : Filed s c)
    (hm : Move sq s l s') : (s'.chan c).Accounted := by
  have hclose : ∀ c', c = c' → ({ s.chan c' with
      handlerF := .nullHandler
      close := if (s.chan c').handlerF = .bufferIdentityHandler then .setCloseFile
        else (s.chan c').close } : Closure).Accounted := fun c' hc =>
    hc ▸ h.congr (callClose_sameStream _ hf.ok)
  cases hm with
  | openChannel f compress =>
      refine accounted_update h fun _ => Closure.accounted_of_unbuilt rfl rfl ?_
      simp [Closure.built, Closure.new]
  | openStep c' h' =>
      have hunb : c = c' → (s.chan c').logged = [] ∧ (s.chan c').sent = [] := fun hc => by
        subst hc
        have hu := hf.ok.unbuilt (by cases h' <;> simp [Closure.built, *])
        exact ⟨hu.2.2.2.1, hu.2.2.1⟩
      cases h' <;> refine accounted_update h fun hc =>
        Closure.accounted_of_unbuilt (hunb hc).1 (hunb hc).2 ?_ <;>
        simp only [Closure.built] <;> grind
  | finishOpen c' ok mem hopn =>
      refine accounted_update h fun hc => ?_
      subst hc
      have hu := hf.ok.unbuilt (by simp [Closure.built, hopn])
      simp [Closure.Accounted, Closure.openRecords, Closure.cur, hu.2.2.2.1, hu.2.2.1,
        BlockData.new, BlockData.records]
  | logTS c' d hopn hlog h' =>
      have hnotTsc : c = c' → (s.chan c').handlerF ≠ .bufferIdentityHandlerTsc := by
        rintro rfl hh
        obtain hh' | hh' := hf.ok.handler <;> rw [hh] at hh'
        · simpa [hf.notTsc] using handlerOf_eq_tsc.mp hh'.symm
        · cases hh'
      cases h' with
      | poison => exact accounted_update h (hclose c')
      | null => exact h
      | buffer =>
          refine accounted_update h fun hc => ?_
          subst hc
          refine h.congr ⟨rfl, rfl, ?_, rfl, fun _ => rfl, Iff.rfl⟩
          simp [Closure.owns, Closure.built, hlog]
      | first hd hh => exact accounted_update h fun hc => absurd hh (hnotTsc hc)
      | tsc hd hh => exact accounted_update h fun hc => absurd hh (hnotTsc hc)
  | logStep c' h' =>
      by_cases hc : c = c'
      · subst hc
        exact h'.accounted h hf
      · cases h' with
        | setIdFault => exact h
        | _ => exact accounted_update h fun he => absurd he hc
  | closeChannel c' hopn => exact accounted_update h (hclose c')
  | closeStep c' h' =>
      by_cases hc : c = c'
      · subst hc
        exact h'.accounted h hf
      · cases h' <;> exact accounted_update h fun he => absurd he hc
  | io t h' =>
      cases h' with
      | write m p ht hw => exact hf.reset h (inFlight_pos hf.wf (.inl (by rw [ht]; rfl)))
      | send m p ht hlen => exact accounted_update h fun hc => (hc ▸ h :)
      | _ => exact h
  | comp t h' =>
      cases h' with
      | work d p ht => exact hf.reset h (inFlight_pos hf.wf (.inr (by rw [ht]; rfl)))
      | send d p b ht hlen => exact accounted_update h fun hc => (hc ▸ h :)
      | _ => exact h
  | exitStep h' =>
      cases h' with
      | close m i c' hpc hi => exact accounted_update h (hclose c')
      | _ => exact h
  | _ => exact h

/-- A number that was not given out gets no blocks by one step. -/
theorem ChanStep.unbuilt_of_fresh {P : Prop} {ch ch' : Closure} (h : ChanStep P ch ch')
    (hf : ch.opn = .fresh) : ¬ ch'.built := by
  cases h <;> simp_all [Closure.built, Closure.new, OpenPc.opening]

/-- **Run lemma**: the records of a channel used by one thread are in the
blocks enqueued and in the open one. -/
theorem Reached.accounted (hone : ∀ s l, ok s l → OneThread c s l) (hr : Reached sq ok s)
    (htsc : (s.chan c).format.isTsc = false) : (s.chan c).Accounted := by
  revert htsc
  refine hr.invariant_of (J := Reached sq ok)
    (I := fun s => (s.chan c).format.isTsc = false → (s.chan c).Accounted) (fun _ h => h) ?_ ?_
  · exact fun _ => Closure.accounted_of_unbuilt rfl rfl (by simp [State.init, Closure.built,
      Closure.new])
  · intro s l s' hr ih hg hs htsc
    have hm := (step_move hs).2
    by_cases hfresh : (s.chan c).opn = .fresh
    · -- the number was not given out: whatever the step did, there are no blocks yet
      have hb := (hm.chan hr.wf c).unbuilt_of_fresh hfresh
      have hok := Reached.chanOk (hr.step hg hs) c
      exact Closure.accounted_of_unbuilt (hok.unbuilt hb).2.2.2.1 (hok.unbuilt hb).2.2.1 hb
    · have htsc' : (s.chan c).format.isTsc = false := by
        rw [← ((hm.chan hr.wf c).same_kind hfresh).1]
        exact htsc
      obtain ⟨hpart, hret⟩ := hr.partitioned hone
      exact (ih htsc').step ⟨hr.wf, hr.chanOk c, (hr.alone_tidy hone).1, hpart, hret, htsc'⟩ hm

end Accounted

/-! ## blocks in the file -/

/-- What the I/O thread writes for a block with the records `ds`. -/
def Closure.blockBytes (sq : Squash) (ch : Closure) (ds : List LogData) : List UInt8 :=
  if ch.compress then ch.imageOf sq ds
  else ds.flatMap (ch.writeHandlerF.getD .writeInAscii).bytes

theorem Closure.blockBytes_comp {sq : Squash} {ch : Closure} (h : ch.compress = true) :
    ch.blockBytes sq = ch.imageOf sq := by
  funext ds
  simp [Closure.blockBytes, h]

/-- The channel whose block, or the copy of one, a compression thread holds. -/
def CompPc.worksFor : CompPc → Option Nat
  | .work _ p => some p.ch
  | .send _ _ b | .push _ b => some b.ch
  | .unborn | .readStop | .readNum | .pop _ | .stop | .done => none

/-- The channel of an entry of `io_queue`. -/
def IoBlock.ch : IoBlock → Nat
  | .raw p => p.ch
  | .packed b => b.ch

/-- The channel whose block an I/O thread is about to write. -/
def IoPc.writesFor : IoPc → Option Nat
  | .write _ p => some p.ch
  | .unborn | .start | .readCreated | .readStop | .rereadCreated | .readNum | .pop _ | .send _ _
  | .readQuick | .clearPtr | .clearIo | .clearComp | .clearVec | .done => none

/-- No block of channel `c` is on its way to the file. -/
structure Quiet (s : State) (c : Nat) : Prop where
  compressionQueue : ∀ p ∈ s.compressionQueue, p.ch ≠ c
  comp : ∀ t, (s.comp t).worksFor ≠ some c
  ioQueue : ∀ x ∈ s.ioQueue, x.ch ≠ c
  io : ∀ t, (s.io t).writesFor ≠ some c

/-- The file of channel `c` holds the first `n` blocks enqueued, each once
and in order; when nothing is on its way, it holds them all. -/
structure Arrives (sq : Squash) (s : State) (c n : Nat) : Prop where
  le : n ≤ (s.chan c).sent.length
  content : (s.sink.chLogf c).content =
    ((s.chan c).sent.take n).flatMap ((s.chan c).blockBytes sq)
  quiet : Quiet s c → n = (s.chan c).sent.length

section Arrives

variable {sq : Squash} {s : State} {ok : State → Label → Prop} {c n : Nat}

/-- When nothing is on its way, the file holds every block enqueued. -/
theorem Arrives.all (h : Arrives sq s c n) (hq : Quiet s c) :
    (s.sink.chLogf c).content = (s.chan c).sent.flatMap ((s.chan c).blockBytes sq) := by
  rw [h.content, h.quiet hq, List.take_length]

/-- When nothing is on its way, nothing is left in the stream. -/
theorem Stream.quiet {w : WriteHandler} {out : List (List LogData)} {wr : List Nat}
    (h : Stream w s c out wr) (hq : Quiet s c) : wr ++ rawQueue c s.ioQueue = [] := by
  refine List.eq_nil_iff_forall_not_mem.mpr fun k hk => ?_
  obtain hk | hk := List.mem_append.mp hk
  · obtain ⟨t, m, ht⟩ := (h.writing k).mp hk
    exact hq.io t (by rw [ht]; rfl)
  · have hpos := List.count_pos_iff.mpr hk
    rw [count_rawQueue] at hpos
    exact hq.ioQueue _ (List.count_pos_iff.mp hpos) rfl

/-- An uncompressed channel. -/
theorem Stream.arrives {w : WriteHandler} {out : List (List LogData)} {wr : List Nat}
    (h : Stream w s c out wr) (hraw : (s.chan c).compress = false)
    (hw : (s.chan c).writeHandlerF = some w) : Arrives sq s c out.length := by
  have htake : (s.chan c).sent.take out.length = out := by rw [h.sent, List.take_left]
  refine ⟨?le, ?content, fun hq => ?quiet⟩
  case le =>
    rw [h.sent, List.length_append]
    omega
  case content =>
    have hbytes : (s.chan c).blockBytes sq = fun ds => ds.flatMap w.bytes := by
      funext ds
      simp [Closure.blockBytes, hraw, hw]
    rw [htake, h.file, hbytes]
    simp only [List.flatMap_def, List.map_flatten, List.flatten_flatten, List.map_map]
    rfl
  case quiet =>
    rw [h.sent, h.quiet hq]
    simp

/-- When nothing is on its way, the file is closed if the closing block was
enqueued. -/
theorem Stream.isOpen_iff {w : WriteHandler} {out : List (List LogData)} {wr : List Nat}
    (h : Stream w s c out wr) (hq : Quiet s c) :
    (s.sink.chLogf c).isOpen = false ↔ (s.chan c).closeSent := by
  rw [h.file, h.quiet hq]
  simp

theorem Quiet.underway_eq_zero (hq : Quiet s c) (i : Nat) : underway s c i = 0 := by
  have h1 : s.compressionQueue.countP (Ptr.carries (s.chan c).idAt c i) = 0 := by
    rw [List.countP_eq_zero]
    intro p hp
    simp [Ptr.carries, hq.compressionQueue p hp]
  have h2 : tally (CompPc.carries (s.chan c).idAt c i) s.compCnt s.comp = 0 := by
    rw [tally_eq_zero]
    intro t _
    have ht := hq.comp t
    cases hpc : s.comp t <;>
      simp_all [CompPc.worksFor, CompPc.carries, Ptr.carries, Packed.carries]
  have h3 : s.ioQueue.countP (IoBlock.carries c i) = 0 := by
    rw [List.countP_eq_zero]
    intro x hx
    have hne := hq.ioQueue x hx
    cases x <;> simp_all [IoBlock.ch, IoBlock.carries, Packed.carries]
  rw [underway, h1, h2, h3]

/-- When nothing is on its way, the I/O thread has written every block and
nothing is pending. -/
theorem Pipeline.complete {f₀ : Ofstream} {r : Reseq Packed} (h : Pipeline sq s c f₀ r)
    (hq : Quiet s c) : s.sink.pending c = [] ∧ s.sink.nextBlock c = (s.chan c).sent.length := by
  have hperm : ((r.out ++ r.parked).map Packed.blockId).Perm
      (List.range (s.chan c).sent.length) := by
    rw [List.perm_iff_count]
    intro i
    have hi := h.once i
    rw [hq.underway_eq_zero i, Nat.zero_add] at hi
    rw [hi, List.count_range]
  obtain ⟨hparked, hlen⟩ := h.inOrder.complete hperm
  exact ⟨h.tracks.pending.trans hparked, h.tracks.nextBlock.trans hlen⟩

/-- A compressed channel. -/
theorem Pipeline.arrives {f₀ : Ofstream} {r : Reseq Packed} (h : Pipeline sq s c f₀ r)
    (hready : (s.chan c).opn = .ready) (hcomp : (s.chan c).compress = true)
    (htsc : (s.chan c).format.isTsc = false) : Arrives sq s c (s.sink.nextBlock c) := by
  obtain ⟨pre, hpre, hcontent, -⟩ := h.chLogf_eq hready
  refine ⟨h.tracks.nextBlock ▸ h.out_length_le, ?_, fun hq => (h.complete hq).2⟩
  rw [hcontent, hpre htsc, Closure.blockBytes_comp hcomp, List.nil_append]

/-- When nothing is on its way, the file is closed if the closing block was
enqueued. -/
theorem Pipeline.isOpen_iff {f₀ : Ofstream} {r : Reseq Packed} (h : Pipeline sq s c f₀ r)
    (hready : (s.chan c).opn = .ready) (htidy : (s.chan c).Tidy) (hq : Quiet s c) :
    (s.sink.chLogf c).isOpen = false ↔ (s.chan c).closeSent := by
  obtain ⟨pre, hpre, -⟩ := h.file hready
  obtain ⟨hopen, hclosed⟩ := h.out_closed
  have hfile := h.tracks.chLogf
  rw [hpre, foldl_put_eq hopen, hclosed] at hfile
  have hlen : r.out.length = (s.chan c).sent.length := h.tracks.nextBlock ▸ (h.complete hq).2
  have hne : (s.chan c).closeSent → r.out ≠ [] := by
    intro hsent hnil
    have hlast := (htidy.lastId hsent).1
    rw [← hlen, hnil] at hlast
    cases hlast
  simpa [hfile, hlen] using hne

/-- **Run lemma**: the file of a channel used by one thread holds the first
blocks enqueued, and all of them when nothing is on its way. -/
theorem Reached.arrives (hsq : sq.Total) (hone : ∀ s l, ok s l → OneThread c s l)
    (hroom : ∀ s l, ok s l → FindsRoom c s l) (hr : Reached sq ok s)
    (hready : (s.chan c).opn = .ready) (htsc : (s.chan c).format.isTsc = false)
    (hcomp : (s.chan c).compress = true → c < nextBlockSize)
    (hraw : (s.chan c).compress = false → (s.chan c).writeHandlerF ≠ none) :
    ∃ n, Arrives sq s c n := by
  cases hz : (s.chan c).compress with
  | true =>
      obtain ⟨f₀, r, h⟩ := hr.pipeline hsq (hcomp hz) hone hroom (.inr hz)
      exact ⟨_, h.arrives hready hz htsc⟩
  | false =>
      obtain ⟨w, hw⟩ := Option.ne_none_iff_exists'.mp (hraw hz)
      obtain ⟨out, wr, h⟩ := hr.stream hone hready hz htsc hw
      exact ⟨_, h.arrives hz hw⟩

end Arrives

end CloudProfiler
