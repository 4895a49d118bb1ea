import CloudProfiler.Buffer.Conserve
import CloudProfiler.Buffer.Count
import CloudProfiler.Buffer.Defined

/-!
# CloudProfiler.Buffer.Lifetime

When the I/O thread and the compression threads are there.

The threads are started by `initBufferIdentityHandler` and end by
themselves; the flags and counters by which they decide are read and written
one at a time, so there are schedules in which a thread leaves its main loop
while a channel that needs it is open.  `Orderly` lists the steps such a
schedule has to contain, and `Sessions` is the invariant of the runs without
them:

* an I/O thread leaves its main loop only when every channel it is there for
  is closed, the compression threads have returned and `compression_queue`
  is empty;
* a compression thread leaves its main loop only when the same holds of
  every compressed channel;
* without an I/O thread there is no block on its way.
-/

namespace CloudProfiler

/-! ## phases of the threads -/

/-- The I/O thread has not left its main loop. -/
def IoPc.serving : IoPc → Bool
  | .start | .readCreated | .readStop | .rereadCreated | .readNum | .pop .main | .write .main _
  | .send .main _ => true
  | _ => false

/-- The I/O thread is past its main loop and flushes `io_queue`. -/
def IoPc.flushing : IoPc → Bool
  | .readQuick | .pop (.flush _) | .write (.flush _) _ | .send (.flush _) _ => true
  | _ => false

/-- The I/O thread is past its main loop and has not cleared the flags yet. -/
def IoPc.leaving : IoPc → Bool
  | .clearPtr | .clearIo | .clearComp => true
  | pc => pc.flushing

/-- The compression thread has left its main loop. -/
def CompPc.left : CompPc → Bool
  | .pop d | .work d _ | .send d _ _ | .push d _ => d
  | .stop | .done => true
  | _ => false

/-- The compression thread has found `compression_queue` empty for good. -/
def CompPc.stopped : CompPc → Bool
  | .stop | .done => true
  | _ => false

/-- The compression thread holds a block or a copy of one. -/
def CompPc.holding : CompPc → Bool
  | .work _ _ | .send _ _ _ | .push _ _ => true
  | _ => false

/-- `openChannel` has passed the exchange of `comp_thread_created`. -/
def OpenPc.pastCompCreated : OpenPc → Bool
  | .compNew _ | .finish | .openFile | .ready | .defect => true
  | _ => false

/-- `openChannel` has passed the exchange of `io_thread_created`. -/
def OpenPc.pastIoCreated : OpenPc → Bool
  | .fresh | .numBufCh | .ioCreated => false
  | _ => true

/-- The channel still needs the threads: it has not come to its last
decrement. -/
def Closure.needy (ch : Closure) : Prop := ch.counted ∧ ch.close ≠ .dec

instance (ch : Closure) : Decidable ch.needy := inferInstanceAs (Decidable (_ ∧ _))

/-! ## the condition -/

/-- The steps that lead to a thread missing are not taken:

* `num_buf_ch++` while an I/O thread is leaving, or while the compression
  threads are about to leave for want of a compressed channel;
* `num_buf_comp_ch++` after the compression threads of an earlier session
  have returned, since `stop_io_thread` keeps counting them;
* `comp_thread_created.exchange(true)`, if it is the first, between the two
  reads of the flag in the I/O thread's loop test, or between the second one
  and the read of `num_buf_ch`;
* the decrement of `num_buf_comp_ch` to zero while another channel is open. -/
def Orderly (s : State) : Label → Prop
  | .openStep c =>
      ((s.chan c).opn = .numBufCh → (∀ t < s.ioCnt, (s.io t).leaving = false) ∧
        (s.compThreadCreated = true → s.numBufCompCh ≠ 0)) ∧
      ((s.chan c).opn = .numBufCompCh → (s.chan c).compress = true →
        s.compThreadCreated = true ∨ s.stopIoThread = 0) ∧
      ((s.chan c).opn = .compCreated → s.compThreadCreated = false →
        ∀ t < s.ioCnt, s.io t ≠ .rereadCreated ∧ s.io t ≠ .readNum)
  | .closeStep c =>
      (s.chan c).close = .decComp → (s.chan c).compress = true → s.numBufCompCh = 1 →
        ∀ c' < s.nextChannel, c' ≠ c → ¬ (s.chan c').needy
  | _ => True

instance : DecidableRel Orderly := fun s l =>
  match l with
  | .openStep c => inferInstanceAs (Decidable (
      ((s.chan c).opn = .numBufCh → (∀ t < s.ioCnt, (s.io t).leaving = false) ∧
        (s.compThreadCreated = true → s.numBufCompCh ≠ 0)) ∧
      ((s.chan c).opn = .numBufCompCh → (s.chan c).compress = true →
        s.compThreadCreated = true ∨ s.stopIoThread = 0) ∧
      ((s.chan c).opn = .compCreated → s.compThreadCreated = false →
        ∀ t < s.ioCnt, s.io t ≠ .rereadCreated ∧ s.io t ≠ .readNum)))
  | .closeStep c => inferInstanceAs (Decidable (
      (s.chan c).close = .decComp → (s.chan c).compress = true → s.numBufCompCh = 1 →
        ∀ c' < s.nextChannel, c' ≠ c → ¬ (s.chan c').needy))
  | .openChannel _ _ | .openOther | .finishOpen _ _ _ | .logTS _ _ | .logStep _
  | .closeChannel _ | .io _ | .comp _ | .atExit | .signal | .exitStep => .isTrue trivial

/-! ## the invariant -/

/-- Nobody needs the threads any more: no channel does, the compression
threads have returned, and `compression_queue` is empty. -/
structure Settled (s : State) : Prop where
  channels : ∀ c, ¬ (s.chan c).needy
  comp : ∀ t, s.comp t = .unborn ∨ s.comp t = .done
  compressionQueue : s.compressionQueue = []

/-- Nothing is on its way to a file. -/
structure Drained (s : State) : Prop where
  comp : ∀ t, (s.comp t).holding = false
  compressionQueue : s.compressionQueue = []
  ioQueue : s.ioQueue = []

/-- The threads are there while they are needed. -/
structure Sessions (s : State) : Prop where
  ioTest : s.ioTest = false
  stopCompThread : s.stopCompThread = false
  /-- who has left the main loop, or is about to after its second read of
  `comp_thread_created`, is not needed -/
  settled : ∀ t, (s.io t).leaving = true ∨ s.io t = .rereadCreated ∧ s.compThreadCreated = true →
    Settled s
  readNum : ∀ t, s.io t = .readNum → s.compThreadCreated = false
  clearComp : ∀ t, s.io t = .clearComp → s.ioThreadCreated = false
  ioFlag : ∀ c, (s.chan c).needy → (s.chan c).opn.pastIoCreated = true → s.ioThreadCreated = true
  compFlag : ∀ c, (s.chan c).needy → (s.chan c).compress = true →
    (s.chan c).opn.pastCompCreated = true → s.compThreadCreated = true
  /-- the last compressed channel was the last channel -/
  last : s.compThreadCreated = true → s.numBufCompCh = 0 → ∀ c, ¬ (s.chan c).needy
  left : s.compThreadCreated = true → ∀ t, (s.comp t).left = true → s.numBufCompCh = 0
  stopped : s.compThreadCreated = true → ∀ t, (s.comp t).stopped = true → s.compressionQueue = []
  noComp : s.compThreadCreated = false →
    (∀ t, s.comp t = .unborn ∨ s.comp t = .done) ∧ s.compressionQueue = [] ∧
      (s.compCnt = 0 ∨ s.stopIoThread = compThreadNum)
  compCreated : ∀ c, (s.chan c).opn = .compCreated →
    (s.chan c).compress = true ∧ (s.compThreadCreated = true ∨ s.compCnt = 0)
  compNew : ∀ c i, (s.chan c).opn = .compNew i →
    s.compThreadCreated = true ∧ s.compCnt = i ∧ i < compThreadNum
  compNewOnce : ∀ c i c' i', (s.chan c).opn = .compNew i → (s.chan c').opn = .compNew i' → c = c'
  compCnt : s.compThreadCreated = true →
    (∃ c i, (s.chan c).opn = .compNew i) ∨ s.compCnt = compThreadNum
  drained : (∃ t, (s.io t).serving = true ∨ (s.io t).flushing = true) ∨
    (∃ c, (s.chan c).opn = .ioNew) ∨ Drained s

/-! ## what the counters tell -/

section Counters

variable {s : State} {c : Nat}

theorem Counted.not_counted (h : Counted s) (hwf : Wf s) (hn : s.numBufCh = 0) (c : Nat) :
    ¬ (s.chan c).counted := by
  intro hc
  have hlt : c < s.nextChannel := hwf.lt_nextChannel hc.1
  have hle := le_tally (w := Closure.bufs) (f := s.chan) hlt
  have hbuf := h.buf
  simp only [Closure.bufs, hc, if_true] at hle
  omega

theorem Closure.countedComp.needy {ch : Closure} (h : ch.countedComp) : ch.needy := by
  obtain ⟨-, hopn, hdec, hdone⟩ := h
  refine ⟨⟨?_, ?_, hdone⟩, hdec⟩ <;> rintro ho <;> simp [ho, OpenPc.pastNumBufCompCh] at hopn

theorem Counted.numBufCompCh_eq_zero (h : Counted s) (hno : ∀ c, ¬ (s.chan c).needy) :
    s.numBufCompCh = 0 := by
  rw [h.comp, tally_eq_zero.mpr]
  · rfl
  · intro c _
    rw [Closure.comps, if_neg fun hc => hno c hc.needy]

theorem Counted.numBufCompCh_pos (h : Counted s) (hwf : Wf s) (hc : (s.chan c).countedComp) :
    s.numBufCompCh ≠ 0 := by
  have hlt : c < s.nextChannel := hwf.lt_nextChannel hc.needy.1.1
  have hle := le_tally (w := Closure.comps) (f := s.chan) hlt
  have hcomp := h.comp
  simp only [Closure.comps, hc, if_true] at hle
  omega

/-- The flag stands for a thread on duty, or for one about to be created. -/
theorem Counted.onDuty_or_ioNew (h : Counted s) (hf : s.ioThreadCreated = true) :
    (∃ t, (s.io t).onDuty = true) ∨ ∃ c, (s.chan c).opn = .ioNew := by
  have hio := h.io
  rw [hf, Bool.toNat_true] at hio
  obtain hz | hpos := Nat.eq_zero_or_pos (tally IoPc.duty s.ioCnt s.io)
  · obtain ⟨c, -, hc⟩ := tally_pos (w := Closure.launches) (n := s.nextChannel) (f := s.chan)
      (by omega)
    refine .inr ⟨c, ?_⟩
    by_contra hne
    simp [Closure.launches, hne] at hc
  · obtain ⟨t, -, ht⟩ := tally_pos hpos
    refine .inl ⟨t, ?_⟩
    by_contra hne
    simp [IoPc.duty, hne] at ht

theorem CompPc.returned_le (pc : CompPc) : pc.returned ≤ 1 := by
  unfold CompPc.returned
  split <;> omega

/-- When `stop_io_thread` has counted to `COMP_THREAD_NUM`, all compression
threads have returned. -/
theorem Counted.all_done (h : Counted s) (hwf : Wf s) (hcnt : s.compCnt ≤ compThreadNum)
    (hstop : s.stopIoThread = compThreadNum) :
    s.compCnt = compThreadNum ∧ ∀ t, s.comp t = .unborn ∨ s.comp t = .done := by
  obtain ⟨hle, heq⟩ := tally_le_card (w := CompPc.returned) (n := s.compCnt) (f := s.comp)
    fun t _ => (s.comp t).returned_le
  have hst := h.stop
  refine ⟨by omega, fun t => ?_⟩
  obtain hlt | hge := Nat.lt_or_ge t s.compCnt
  · have hret := heq (by omega) t hlt
    refine .inr ?_
    by_contra hne
    simp [CompPc.returned, hne] at hret
  · exact .inl ((hwf.comp t).mpr hge)

/-- When all compression threads have returned, `stop_io_thread` has counted
them. -/
theorem Counted.stop_eq (h : Counted s) (hwf : Wf s)
    (hall : ∀ t, s.comp t = .unborn ∨ s.comp t = .done) :
    s.stopIoThread = s.compCnt := by
  rw [h.stop, tally_congr (v := fun _ : Unit => 1) (g := fun _ => ()) fun t ht => ?_]
  · simp [tally]
  · have : s.comp t ≠ .unborn := fun hu => absurd ((hwf.comp t).mp hu) (by omega)
    simp [CompPc.returned, (hall t).resolve_left this]

end Counters

/-! ## the I/O thread -/

section Io

variable {s s' : State} {c t : Nat}

theorem Sessions.compCnt_le (h : Sessions s) (hcr : s.compThreadCreated = true) :
    s.compCnt ≤ compThreadNum := by
  obtain ⟨c, i, hc⟩ | hc := h.compCnt hcr
  · obtain ⟨-, hi, hlt⟩ := h.compNew c i hc
    omega
  · exact Nat.le_of_eq hc

/-- What the invariant says of the channels, the compression threads and the
flags is the same in both states. -/
structure SameSession (s s' : State) : Prop where
  opn : ∀ c, (s'.chan c).opn = (s.chan c).opn := by exact fun _ => rfl
  needy : ∀ c, (s'.chan c).needy ↔ (s.chan c).needy := by exact fun _ => Iff.rfl
  compress : ∀ c, (s'.chan c).compress = (s.chan c).compress := by exact fun _ => rfl
  comp : s'.comp = s.comp := by rfl
  compCnt : s'.compCnt = s.compCnt := by rfl
  compressionQueue : s'.compressionQueue = s.compressionQueue := by rfl
  flags : s'.ioThreadCreated = s.ioThreadCreated ∧ s'.compThreadCreated = s.compThreadCreated := by
    exact ⟨rfl, rfl⟩
  numBufCompCh : s'.numBufCompCh = s.numBufCompCh := by rfl
  stopIoThread : s'.stopIoThread = s.stopIoThread := by rfl
  tests : s'.ioTest = s.ioTest ∧ s'.stopCompThread = s.stopCompThread := by exact ⟨rfl, rfl⟩

theorem Settled.congr (h : Settled s) (hs : SameSession s s') : Settled s' where
  channels c := (hs.needy c).not.mpr (h.channels c)
  comp := hs.comp ▸ h.comp
  compressionQueue := hs.compressionQueue.trans h.compressionQueue

theorem Drained.congr (h : Drained s) (hcomp : s'.comp = s.comp)
    (hcq : s'.compressionQueue = s.compressionQueue) (hioq : s'.ioQueue = s.ioQueue) : Drained s' :=
  ⟨hcomp ▸ h.comp, hcq.trans h.compressionQueue, hioq.trans h.ioQueue⟩

/-- The I/O threads move, or nobody does. -/
theorem Sessions.congr (h : Sessions s) (hs : SameSession s s')
    (hsettled : ∀ t, (s'.io t).leaving = true ∨
      s'.io t = .rereadCreated ∧ s.compThreadCreated = true → Settled s)
    (hnum : ∀ t, s'.io t = .readNum → s.compThreadCreated = false)
    (hclear : ∀ t, s'.io t = .clearComp → s.ioThreadCreated = false)
    (hdrained : (∃ t, (s'.io t).serving = true ∨ (s'.io t).flushing = true) ∨
      (∃ c, (s.chan c).opn = .ioNew) ∨ Drained s') : Sessions s' := by
  obtain ⟨hopn, hneedy, hz, hcomp, hcnt, hcq, ⟨hio, hcr⟩, hnumc, hstop, htest, hstopc⟩ := hs
  exact
    { ioTest := htest.trans h.ioTest
      stopCompThread := hstopc.trans h.stopCompThread
      settled := fun t ht => (hsettled t (by rwa [hcr] at ht)).congr
        ⟨hopn, hneedy, hz, hcomp, hcnt, hcq, ⟨hio, hcr⟩, hnumc, hstop, htest, hstopc⟩
      readNum := by simpa only [hcr] using hnum
      clearComp := by simpa only [hio] using hclear
      ioFlag := by simpa only [hneedy, hopn, hio] using h.ioFlag
      compFlag := by simpa only [hneedy, hz, hopn, hcr] using h.compFlag
      last := by simpa only [hneedy, hcr, hnumc] using h.last
      left := by simpa only [hcr, hcomp, hnumc] using h.left
      stopped := by simpa only [hcr, hcomp, hcq] using h.stopped
      noComp := by simpa only [hcr, hcomp, hcq, hcnt, hstop] using h.noComp
      compCreated := by simpa only [hopn, hz, hcr, hcnt] using h.compCreated
      compNew := by simpa only [hopn, hcr, hcnt] using h.compNew
      compNewOnce := by simpa only [hopn] using h.compNewOnce
      compCnt := by simpa only [hcr, hopn, hcnt] using h.compCnt
      drained := by simpa only [hopn] using hdrained }

/-- One I/O thread moves. -/
theorem Sessions.setIo {pc : IoPc} (h : Sessions s) (hs : SameSession s s')
    (hio : s'.io = Function.update s.io t pc)
    (hsettled : pc.leaving = true ∨ pc = .rereadCreated ∧ s.compThreadCreated = true → Settled s)
    (hnum : pc = .readNum → s.compThreadCreated = false)
    (hclear : pc = .clearComp → s.ioThreadCreated = false)
    (hdrained : (pc.serving = true ∨ pc.flushing = true) ∨ Drained s' ∨
      ((s.io t).serving = false ∧ (s.io t).flushing = false ∧ s'.ioQueue = s.ioQueue)) :
    Sessions s' := by
  refine h.congr hs (fun t' ht' => ?_) (fun t' ht' => ?_) (fun t' ht' => ?_) ?_
  · rw [hio] at ht'
    by_cases he : t' = t
    · rw [he, Function.update_self] at ht'
      exact hsettled ht'
    · rw [Function.update_of_ne he] at ht'
      exact h.settled t' ht'
  · rw [hio] at ht'
    by_cases he : t' = t
    · rw [he, Function.update_self] at ht'
      exact hnum ht'
    · rw [Function.update_of_ne he] at ht'
      exact h.readNum t' ht'
  · rw [hio] at ht'
    by_cases he : t' = t
    · rw [he, Function.update_self] at ht'
      exact hclear ht'
    · rw [Function.update_of_ne he] at ht'
      exact h.clearComp t' ht'
  · rw [hio]
    obtain hd | hd | ⟨hser, hfl, hq⟩ := hdrained
    · exact .inl ⟨t, by rw [Function.update_self]; exact hd⟩
    · exact .inr (.inr hd)
    · obtain ⟨t', ht'⟩ | hnew | hd := h.drained
      · have he : t' ≠ t := by
          rintro rfl
          simp [hser, hfl] at ht'
        exact .inl ⟨t', by rw [Function.update_of_ne he]; exact ht'⟩
      · exact .inr (.inl hnew)
      · exact .inr (.inr ⟨hs.comp ▸ hd.comp, hs.compressionQueue.trans hd.compressionQueue,
          hq.trans hd.ioQueue⟩)

/-- Channels change without their phase changing. -/
theorem SameSession.of_chan {f : Nat → Closure} (hs : SameSession s { s' with chan := s.chan })
    (hf : s'.chan = f) (h : ∀ c, (f c).opn = (s.chan c).opn ∧ ((f c).needy ↔ (s.chan c).needy) ∧
      (f c).compress = (s.chan c).compress) : SameSession s s' := by
  subst hf
  exact ⟨fun c => (h c).1, fun c => (h c).2.1, fun c => (h c).2.2, hs.comp, hs.compCnt,
    hs.compressionQueue, hs.flags, hs.numBufCompCh, hs.stopIoThread, hs.tests⟩

/-- A channel keeps its phase. -/
theorem same_phase_update {f : Nat → Closure} {c : Nat} {ch : Closure} (hopn : ch.opn = (f c).opn)
    (hneedy : ch.needy ↔ (f c).needy) (hz : ch.compress = (f c).compress) (c' : Nat) :
    (Function.update f c ch c').opn = (f c').opn ∧
      ((Function.update f c ch c').needy ↔ (f c').needy) ∧
      (Function.update f c ch c').compress = (f c').compress := by
  by_cases hc : c' = c
  · rw [hc, Function.update_self]
    exact ⟨hopn, hneedy, hz⟩
  · rw [Function.update_of_ne hc]
    exact ⟨rfl, Iff.rfl, rfl⟩

/-- When `stop_io_thread` has counted to `COMP_THREAD_NUM`, nobody needs the
I/O thread. -/
theorem Sessions.settled_of_stopped (h : Sessions s) (hwf : Wf s) (hcnt : Counted s)
    (hstop : s.stopIoThread = compThreadNum) (hcr : s.compThreadCreated = true) : Settled s := by
  obtain ⟨hall, hdone⟩ := hcnt.all_done hwf (h.compCnt_le hcr) hstop
  have h0 : s.comp 0 = .done := (hdone 0).resolve_left fun hu => by
    have := (hwf.comp 0).mp hu
    simp only [hall, compThreadNum] at this
    omega
  exact ⟨h.last hcr (h.left hcr 0 (by simp [h0, CompPc.left])), hdone,
    h.stopped hcr 0 (by simp [h0, CompPc.stopped])⟩

/-- When `num_buf_ch` is zero and there are no compression threads, nobody
needs the I/O thread. -/
theorem Sessions.settled_of_numBufCh (h : Sessions s) (hwf : Wf s) (hcnt : Counted s)
    (hn : s.numBufCh = 0) (hcr : s.compThreadCreated = false) : Settled s :=
  ⟨fun c hc => hcnt.not_counted hwf hn c hc.1, (h.noComp hcr).1, (h.noComp hcr).2.1⟩

theorem Settled.drained (h : Settled s) (hq : s.ioQueue = []) : Drained s := by
  refine ⟨fun t => ?_, h.compressionQueue, hq⟩
  obtain ht | ht := h.comp t <;> simp [ht, CompPc.holding]

/-- The I/O thread goes on with a block, in the mode it is in. -/
theorem Sessions.block {pc : IoPc} {m : IoMode} (h : Sessions s) (hs : SameSession s s')
    (hio : s'.io = Function.update s.io t pc)
    (hpc : s.io t = .pop m ∨ (∃ p, s.io t = .write m p) ∨ ∃ p, s.io t = .send m p)
    (hpc' : pc = m.next ∨ (∃ p, pc = .write m p) ∨ ∃ p, pc = .send m p) : Sessions s' := by
  have hkeep := h.settled t
  refine h.setIo hs hio (fun hl => hkeep ?_) (fun hn => ?_) (fun hn => ?_) (.inl ?_) <;>
    cases m <;> obtain rfl | ⟨p', rfl⟩ | ⟨p', rfl⟩ := hpc' <;>
    simp_all [IoMode.next, IoPc.leaving, IoPc.flushing, IoPc.serving] <;>
    obtain hp | ⟨p, hp⟩ | ⟨p, hp⟩ := hpc <;> simp [hp]

/-- A channel that is being opened needs the threads. -/
theorem needy_of_opening {ch : Closure} (hok : ch.Ok) (h : ch.opn.opening = true)
    (hn : ch.opn ≠ .numBufCh) : ch.needy := by
  have hb : ¬ ch.built := by
    rintro (hb | hb) <;> simp [hb, OpenPc.opening] at h
  have hf : ch.opn ≠ .fresh := fun hf => by simp [hf, OpenPc.opening] at h
  simp [Closure.needy, Closure.counted, (hok.unbuilt hb).2.1, hn, hf]

/-- The I/O thread gives up `io_thread_created`. -/
theorem Sessions.clearIoFlag (h : Sessions s) (hset : Settled s) :
    Sessions { s with ioThreadCreated := false } where
  ioTest := h.ioTest
  stopCompThread := h.stopCompThread
  settled _ _ := ⟨hset.channels, hset.comp, hset.compressionQueue⟩
  readNum := h.readNum
  clearComp _ _ := rfl
  ioFlag c hc := absurd hc (hset.channels c)
  compFlag := h.compFlag
  last := h.last
  left := h.left
  stopped := h.stopped
  noComp := h.noComp
  compCreated := h.compCreated
  compNew := h.compNew
  compNewOnce := h.compNewOnce
  compCnt := h.compCnt
  drained := h.drained.imp_right fun hd => hd.imp_right fun hd => hd.congr rfl rfl rfl

/-- The I/O thread gives up `comp_thread_created`. -/
theorem Sessions.clearCompFlag (h : Sessions s) (hset : Settled s) (hwf : Wf s)
    (hok : ∀ c, (s.chan c).Ok) (hcnt : Counted s) :
    Sessions { s with compThreadCreated := false } := by
  have hopening : ∀ c, (s.chan c).opn.opening = true → (s.chan c).opn = .numBufCh := fun c hc =>
    Classical.not_not.mp fun hn => hset.channels c (needy_of_opening (hok c) hc hn)
  have hnew : ∀ c i, (s.chan c).opn ≠ .compNew i := fun c i hc => by
    have := hopening c (by simp [hc, OpenPc.opening])
    simp [hc] at this
  have hcreated : ∀ c, (s.chan c).opn ≠ .compCreated := fun c hc => by
    have := hopening c (by simp [hc, OpenPc.opening])
    simp [hc] at this
  have hstop : s.compCnt = 0 ∨ s.stopIoThread = compThreadNum := by
    cases hcr : s.compThreadCreated with
    | false => exact (h.noComp hcr).2.2
    | true =>
        obtain ⟨c, i, hc⟩ | hall := h.compCnt hcr
        · exact absurd hc (hnew c i)
        · exact .inr (by rw [hcnt.stop_eq hwf hset.comp, hall])
  exact
    { ioTest := h.ioTest
      stopCompThread := h.stopCompThread
      settled := fun _ _ => ⟨hset.channels, hset.comp, hset.compressionQueue⟩
      readNum := fun _ _ => rfl
      clearComp := h.clearComp
      ioFlag := h.ioFlag
      compFlag := fun c hc => absurd hc (hset.channels c)
      last := by simp
      left := by simp
      stopped := by simp
      noComp := fun _ => ⟨hset.comp, hset.compressionQueue, hstop⟩
      compCreated := fun c hc => absurd hc (hcreated c)
      compNew := fun c i hc => absurd hc (hnew c i)
      compNewOnce := h.compNewOnce
      compCnt := by simp
      drained := h.drained.imp_right fun hd => hd.imp_right fun hd => hd.congr rfl rfl rfl }

/-- The steps of an I/O thread. -/
theorem IoMove.sessions (h : Sessions s) (hwf : Wf s) (hok : ∀ c, (s.chan c).Ok) (hcnt : Counted s)
    (hm : IoMove s t s') : Sessions s' := by
  have hkeep := h.settled t
  cases hm with
  | @goto pc pc' hpc hg =>
      have hsame : SameSession s (s.setIo t pc') := {}
      rw [hpc] at hkeep
      cases hg with
      | created hcr | notStopped hst | numStay hn | empty hq ht =>
          exact h.setIo hsame rfl (by simp [IoPc.leaving, IoPc.flushing]) (by simp) (by simp)
            (.inl (.inl rfl))
      | notCreated hcr =>
          exact h.setIo hsame rfl (by simp [IoPc.leaving, IoPc.flushing, hcr]) (by simp) (by simp)
            (.inl (.inl rfl))
      | stopped hst =>
          refine h.setIo hsame rfl (fun ht => ?_) (by simp) (by simp) (.inl (.inl rfl))
          simp only [IoPc.leaving, IoPc.flushing, Bool.false_eq_true, true_and, false_or] at ht
          exact h.settled_of_stopped hwf hcnt hst ht
      | createdLeave hcr =>
          exact h.setIo hsame rfl (fun _ => hkeep (.inr ⟨rfl, hcr⟩)) (by simp) (by simp)
            (.inl (.inr rfl))
      | createdStay hcr =>
          exact h.setIo hsame rfl (by simp [IoPc.leaving, IoPc.flushing]) (fun _ => hcr) (by simp)
            (.inl (.inl rfl))
      | numLeave hn =>
          exact h.setIo hsame rfl
            (fun _ => h.settled_of_numBufCh hwf hcnt hn (h.readNum t hpc)) (by simp) (by simp)
            (.inl (.inr rfl))
      | emptyTest hq ht => simp [h.ioTest] at ht
      | flush =>
          exact h.setIo hsame rfl (fun _ => hkeep (.inl rfl)) (by simp) (by simp) (.inl (.inr rfl))
      | flushed hq =>
          have hset := hkeep (.inl rfl)
          exact h.setIo hsame rfl (fun _ => hset) (by simp) (by simp)
            (.inr (.inl ((hset.congr hsame).drained hq)))
  | start hpc =>
      exact h.setIo {} rfl (by simp [IoPc.leaving, IoPc.flushing]) (by simp) (by simp)
        (.inl (.inl rfl))
  | quickExit hpc hq | writeFault m p hpc =>
      exact h.congr {} h.settled h.readNum h.clearComp
        (h.drained.imp_right fun hd => hd.imp_right fun hd => hd.congr rfl rfl rfl)
  | popRaw m p q hpc hq =>
      exact h.block {} rfl (m := m) (by simp [hpc]) (by simp)
  | popPacked m b q k hpc hq hk =>
      exact h.block {} rfl (m := m) (by simp [hpc]) (by simp)
  | popFault m b q hpc hq hk =>
      exact h.congr {} h.settled h.readNum h.clearComp
        (.inl ⟨t, by cases m <;> simp [hpc, IoPc.serving, IoPc.flushing]⟩)
  | write m p hpc hw =>
      refine h.block (.of_chan {} rfl ?_) rfl (m := m) (by simp [hpc]) (by simp)
      exact same_phase_update rfl Iff.rfl rfl
  | send m p hpc hlen =>
      refine h.block (.of_chan {} rfl ?_) rfl (m := m) (by simp [hpc]) (by simp)
      exact same_phase_update rfl Iff.rfl rfl
  | clearPtr hpc =>
      have hset := hkeep (.inl (by simp [hpc, IoPc.leaving]))
      exact h.setIo {} rfl (fun _ => hset) (by simp) (by simp)
        (.inr (.inr (by simp [hpc, IoPc.serving, IoPc.flushing])))
  | clearVec hpc =>
      exact h.setIo {} rfl (by simp [IoPc.leaving, IoPc.flushing]) (by simp) (by simp)
        (.inr (.inr (by simp [hpc, IoPc.serving, IoPc.flushing])))
  | clearIo hpc =>
      have hset := hkeep (.inl (by simp [hpc, IoPc.leaving]))
      exact (h.clearIoFlag hset).setIo (t := t) {} rfl
        (fun _ => ⟨hset.channels, hset.comp, hset.compressionQueue⟩) (by simp) (fun _ => rfl)
        (.inr (.inr (by simp [hpc, IoPc.serving, IoPc.flushing])))
  | clearComp hpc =>
      have hset := hkeep (.inl (by simp [hpc, IoPc.leaving]))
      exact (h.clearCompFlag hset hwf hok hcnt).setIo (t := t) {} rfl
        (by simp [IoPc.leaving, IoPc.flushing]) (by simp) (by simp)
        (.inr (.inr (by simp [hpc, IoPc.serving, IoPc.flushing])))

end Io

/-! ## the compression threads -/

section Comp

variable {sq : Squash} {s s' : State} {t : Nat}

/-- One compression thread moves. -/
theorem Sessions.setComp {pc : CompPc} {f : Nat → Closure} {q : List Ptr} {q' : List IoBlock}
    {n : Nat} (h : Sessions s) (ht : s.comp t ≠ .unborn ∧ s.comp t ≠ .done)
    (hf : ∀ c, (f c).opn = (s.chan c).opn ∧ ((f c).needy ↔ (s.chan c).needy) ∧
      (f c).compress = (s.chan c).compress)
    (hleft : pc.left = true → s.numBufCompCh = 0) (hstopped : pc.stopped = true → q = [])
    (hq : s.compressionQueue = [] → q = [])
    (hdrained : Drained s → q = [] ∧ q' = [] ∧ pc.holding = false) :
    Sessions { s with
      chan := f, comp := Function.update s.comp t pc, compressionQueue := q, ioQueue := q',
      stopIoThread := n } := by
  have hset : ¬ Settled s := fun hs => (hs.comp t).elim ht.1 ht.2
  have hcr : s.compThreadCreated = true := by
    by_contra hcr
    exact ((h.noComp (by simpa using hcr)).1 t).elim ht.1 ht.2
  have hopn := fun c => (hf c).1
  have hneedy := fun c => (hf c).2.1
  have hz := fun c => (hf c).2.2
  exact
    { ioTest := h.ioTest
      stopCompThread := h.stopCompThread
      settled := fun t ht => absurd (h.settled t ht) hset
      readNum := h.readNum
      clearComp := h.clearComp
      ioFlag := by simpa only [hneedy, hopn] using h.ioFlag
      compFlag := by simpa only [hneedy, hz, hopn] using h.compFlag
      last := by simpa only [hneedy] using h.last
      left := fun _ => forall_update (R := fun pc : CompPc => pc.left = true → s.numBufCompCh = 0)
        (h.left hcr) hleft t
      stopped := fun _ => forall_update (R := fun pc : CompPc => pc.stopped = true → q = [])
        (fun t ht => hq (h.stopped hcr t ht)) hstopped t
      noComp := by simp [hcr]
      compCreated := by simpa only [hopn, hz] using h.compCreated
      compNew := by simpa only [hopn] using h.compNew
      compNewOnce := by simpa only [hopn] using h.compNewOnce
      compCnt := by simpa only [hopn] using h.compCnt
      drained := by
        simp only [hopn]
        refine h.drained.imp_right fun hd => hd.imp_right fun hd => ?_
        obtain ⟨h1, h2, h3⟩ := hdrained hd
        exact ⟨forall_update (R := fun pc : CompPc => pc.holding = false) hd.comp h3 t, h1, h2⟩ }

/-- The steps of a compression thread. -/
theorem CompMove.sessions (h : Sessions s) (hm : CompMove sq s t s') : Sessions s' := by
  have hsame : ∀ c, (s.chan c).opn = (s.chan c).opn ∧ ((s.chan c).needy ↔ (s.chan c).needy) ∧
      (s.chan c).compress = (s.chan c).compress := fun c => ⟨rfl, Iff.rfl, rfl⟩
  have hleft : s.compThreadCreated = true → (s.comp t).left = true → s.numBufCompCh = 0 := fun hcr =>
    h.left hcr t
  have hcr : s.comp t ≠ .unborn ∧ s.comp t ≠ .done → s.compThreadCreated = true := by
    intro ht
    by_contra hcr
    exact ((h.noComp (by simpa using hcr)).1 t).elim ht.1 ht.2
  have hidle : Drained s → (s.comp t).holding = false := fun hd => hd.comp t
  cases hm with
  | @goto pc pc' hpc hg =>
      rw [hpc] at hcr hleft
      cases hg with
      | stopSeen hst => simp [h.stopCompThread] at hst
      | noStop | numStay | empty =>
          exact h.setComp (by simp [hpc]) hsame (by simp [CompPc.left]) (by simp [CompPc.stopped])
            (fun hq => hq) fun hd => ⟨hd.compressionQueue, hd.ioQueue, rfl⟩
      | numLeave hn =>
          exact h.setComp (by simp [hpc]) hsame (fun _ => hn) (by simp [CompPc.stopped])
            (fun hq => hq) fun hd => ⟨hd.compressionQueue, hd.ioQueue, rfl⟩
      | drained hq =>
          exact h.setComp (by simp [hpc]) hsame (fun _ => hleft (hcr (by simp)) rfl) (fun _ => hq)
            (fun hq => hq) fun hd => ⟨hd.compressionQueue, hd.ioQueue, rfl⟩
  | pop d p q hpc hq =>
      rw [hpc] at hcr hleft
      refine h.setComp (by simp [hpc]) hsame (fun hd => hleft (hcr (by simp)) hd)
        (by simp [CompPc.stopped]) (by simp [hq]) fun hd => ?_
      have := hd.compressionQueue
      simp [hq] at this
  | work d p hpc =>
      rw [hpc] at hcr hleft hidle
      refine h.setComp (by simp [hpc]) (same_phase_update rfl Iff.rfl rfl)
        (fun hd => hleft (hcr (by simp)) hd) (by simp [CompPc.stopped]) (fun hq => hq) fun hd => ?_
      have := hidle hd
      simp [CompPc.holding] at this
  | send d p b hpc hlen =>
      rw [hpc] at hcr hleft hidle
      refine h.setComp (by simp [hpc]) (same_phase_update rfl Iff.rfl rfl)
        (fun hd => hleft (hcr (by simp)) hd) (by simp [CompPc.stopped]) (fun hq => hq) fun hd => ?_
      have := hidle hd
      simp [CompPc.holding] at this
  | push d b hpc hlen =>
      rw [hpc] at hcr hleft hidle
      refine h.setComp (by simp [hpc]) hsame (fun hd => hleft (hcr (by simp)) ?_) ?_ (fun hq => hq)
        fun hd => ?_
      · cases d <;> simp [compNext, CompPc.left] at hd ⊢
      · cases d <;> simp [compNext, CompPc.stopped]
      · have := hidle hd
        simp [CompPc.holding] at this
  | drop d b hpc hlen =>
      rw [hpc] at hcr hleft hidle
      refine h.setComp (by simp [hpc]) hsame (fun hd => hleft (hcr (by simp)) ?_) ?_ (fun hq => hq)
        fun hd => ?_
      · cases d <;> simp [compNext, CompPc.left] at hd ⊢
      · cases d <;> simp [compNext, CompPc.stopped]
      · have := hidle hd
        simp [CompPc.holding] at this
  | stop hpc =>
      rw [hpc] at hcr hleft
      exact h.setComp (by simp [hpc]) hsame (fun _ => hleft (hcr (by simp)) rfl)
        (fun _ => h.stopped (hcr (by simp)) t (by simp [hpc, CompPc.stopped])) (fun hq => hq)
        fun hd => ⟨hd.compressionQueue, hd.ioQueue, rfl⟩

end Comp

/-! ## the application's threads -/

section Application

variable {sq : Squash} {s s' : State} {l : Label} {c : Nat}

theorem IoPc.serving_or_leaving {pc : IoPc} (h : pc.onDuty = true) :
    pc.serving = true ∨ pc.leaving = true := by
  cases pc with
  | pop m | write m | send m =>
      cases m <;> simp [IoPc.serving, IoPc.leaving, IoPc.flushing]
  | _ => simp_all [IoPc.onDuty, IoPc.serving, IoPc.leaving, IoPc.flushing]

/-- A channel in need has its I/O thread, or one that is about to be
created. -/
theorem Sessions.manned (h : Sessions s) (hcnt : Counted s) (hc : (s.chan c).needy)
    (hp : (s.chan c).opn.pastIoCreated = true) :
    (∃ t, (s.io t).serving = true) ∨ ∃ c, (s.chan c).opn = .ioNew := by
  obtain ⟨t, ht⟩ | hnew := hcnt.onDuty_or_ioNew (h.ioFlag c hc hp)
  · obtain ht | ht := IoPc.serving_or_leaving ht
    · exact .inl ⟨t, ht⟩
    · exact absurd hc ((h.settled t (.inl ht)).channels c)
  · exact .inr hnew

/-- No I/O thread is leaving, or about to. -/
def NobodyLeaves (s : State) : Prop :=
  ∀ t, ¬ ((s.io t).leaving = true ∨ s.io t = .rereadCreated ∧ s.compThreadCreated = true)

/-- While a channel is in need, nobody leaves. -/
theorem Sessions.nobodyLeaves (h : Sessions s) (hc : (s.chan c).needy) :
    NobodyLeaves s ∧ (s.compThreadCreated = true → s.numBufCompCh ≠ 0) :=
  ⟨fun t ht => (h.settled t ht).channels c hc, fun hcr hn => h.last hcr hn c hc⟩

/-- A channel changes its phase. -/
theorem Sessions.setPhase {ch : Closure} (h : Sessions s)
    (hno : ch.needy → NobodyLeaves s ∧ (s.compThreadCreated = true → s.numBufCompCh ≠ 0))
    (hio : ch.needy → ch.opn.pastIoCreated = true → s.ioThreadCreated = true)
    (hcomp : ch.needy → ch.compress = true → ch.opn.pastCompCreated = true →
      s.compThreadCreated = true)
    (hcr : ch.opn = .compCreated →
      ch.compress = true ∧ (s.compThreadCreated = true ∨ s.compCnt = 0))
    (hnew : ∀ i, ch.opn ≠ .compNew i ∧ (s.chan c).opn ≠ .compNew i)
    (hlaunch : (s.chan c).opn = .ioNew → ∃ t, (s.io t).serving = true) :
    Sessions (s.setChan c ch) where
  ioTest := h.ioTest
  stopCompThread := h.stopCompThread
  settled t ht := by
    have hs := h.settled t ht
    exact ⟨forall_update (R := fun ch : Closure => ¬ ch.needy) hs.channels
      (fun hn => (hno hn).1 t ht) c, hs.comp, hs.compressionQueue⟩
  readNum := h.readNum
  clearComp := h.clearComp
  ioFlag := forall_update (R := fun ch : Closure => ch.needy → ch.opn.pastIoCreated = true →
    s.ioThreadCreated = true) h.ioFlag hio c
  compFlag := forall_update (R := fun ch : Closure => ch.needy → ch.compress = true →
    ch.opn.pastCompCreated = true → s.compThreadCreated = true) h.compFlag hcomp c
  last hcr hn := forall_update (R := fun ch : Closure => ¬ ch.needy) (h.last hcr hn)
    (fun hneedy => (hno hneedy).2 hcr hn) c
  left := h.left
  stopped := h.stopped
  noComp := h.noComp
  compCreated := forall_update (R := fun ch : Closure => ch.opn = .compCreated →
    ch.compress = true ∧ (s.compThreadCreated = true ∨ s.compCnt = 0)) h.compCreated hcr c
  compNew := forall_update (R := fun ch : Closure => ∀ i, ch.opn = .compNew i →
    s.compThreadCreated = true ∧ s.compCnt = i ∧ i < compThreadNum) h.compNew
    (fun i hi => absurd hi (hnew i).1) c
  compNewOnce := by
    have hback : ∀ c' i, ((s.setChan c ch).chan c').opn = .compNew i →
        (s.chan c').opn = .compNew i := by
      intro c' i hi
      by_cases hc : c' = c
      · subst hc
        simp only [State.setChan, Function.update_self] at hi
        exact absurd hi (hnew i).1
      · simpa [Function.update_of_ne hc] using hi
    exact fun c₁ i₁ c₂ i₂ h₁ h₂ => h.compNewOnce c₁ i₁ c₂ i₂ (hback c₁ i₁ h₁) (hback c₂ i₂ h₂)
  compCnt hcr := (h.compCnt hcr).imp_left fun ⟨c', i, hi⟩ => by
    have hc : c' ≠ c := by
      rintro rfl
      exact (hnew i).2 hi
    exact ⟨c', i, by simpa [Function.update_of_ne hc] using hi⟩
  drained := by
    obtain hp | ⟨c', hc'⟩ | hd := h.drained
    · exact .inl hp
    · by_cases hc : c' = c
      · subst hc
        obtain ⟨t, ht⟩ := hlaunch hc'
        exact .inl ⟨t, .inl ht⟩
      · exact .inr (.inl ⟨c', by simpa [Function.update_of_ne hc] using hc'⟩)
    · exact .inr (.inr (hd.congr rfl rfl rfl))

/-- An `openChannel` call goes on. -/
theorem Sessions.setOpn {o : OpenPc} (h : Sessions s)
    (hno : NobodyLeaves s ∧ (s.compThreadCreated = true → s.numBufCompCh ≠ 0))
    (hio : o.pastIoCreated = true → s.ioThreadCreated = true)
    (hcomp : (s.chan c).compress = true → o.pastCompCreated = true → s.compThreadCreated = true)
    (hcr : o = .compCreated →
      (s.chan c).compress = true ∧ (s.compThreadCreated = true ∨ s.compCnt = 0))
    (hnew : ∀ i, o ≠ .compNew i ∧ (s.chan c).opn ≠ .compNew i)
    (hlaunch : (s.chan c).opn = .ioNew → ∃ t, (s.io t).serving = true) :
    Sessions (s.setChan c { s.chan c with opn := o }) :=
  h.setPhase (fun _ => hno) (fun _ => hio) (fun _ => hcomp) hcr hnew hlaunch

/-- Counters and pointers the invariant does not mention. -/
theorem Sessions.forget (h : Sessions s) (hs : SameSession s s') (hio : s'.io = s.io)
    (hq : s'.ioQueue = s.ioQueue) : Sessions s' :=
  h.congr hs (by rw [hio]; exact h.settled) (by rw [hio]; exact h.readNum)
    (by rw [hio]; exact h.clearComp) (by
      rw [hio]
      exact h.drained.imp_right fun hd => hd.imp_right fun hd =>
        hd.congr hs.comp hs.compressionQueue hq)

/-- A call goes on without its channel changing its phase. -/
theorem Sessions.samePhase {ch : Closure} (h : Sessions s)
    (hch : s'.chan = Function.update s.chan c ch) (hs : SameSession s { s' with chan := s.chan })
    (hopn : ch.opn = (s.chan c).opn) (hneedy : ch.needy ↔ (s.chan c).needy)
    (hz : ch.compress = (s.chan c).compress) (hio : s'.io = s.io) (hq : s'.ioQueue = s.ioQueue) :
    Sessions s' :=
  h.forget (hs.of_chan hch (same_phase_update hopn hneedy hz)) hio hq

/-- `io_thread_created` is set. -/
theorem Sessions.setIoFlag (h : Sessions s) (hno : NobodyLeaves s) :
    Sessions { s with ioThreadCreated := true } where
  ioTest := h.ioTest
  stopCompThread := h.stopCompThread
  settled t ht := absurd ht (hno t)
  readNum := h.readNum
  clearComp t ht := absurd (.inl (by simp only at ht; simp [ht, IoPc.leaving])) (hno t)
  ioFlag _ _ _ := rfl
  compFlag := h.compFlag
  last := h.last
  left := h.left
  stopped := h.stopped
  noComp := h.noComp
  compCreated := h.compCreated
  compNew := h.compNew
  compNewOnce := h.compNewOnce
  compCnt := h.compCnt
  drained := h.drained.imp_right fun hd => hd.imp_right fun hd => hd.congr rfl rfl rfl

/-- `num_buf_comp_ch` is incremented. -/
theorem Sessions.incComp (h : Sessions s)
    (hno : NobodyLeaves s ∧ (s.compThreadCreated = true → s.numBufCompCh ≠ 0))
    (hpos : 0 ≤ s.numBufCompCh) : Sessions { s with numBufCompCh := s.numBufCompCh + 1 } where
  ioTest := h.ioTest
  stopCompThread := h.stopCompThread
  settled t ht := absurd ht (hno.1 t)
  readNum := h.readNum
  clearComp := h.clearComp
  ioFlag := h.ioFlag
  compFlag := h.compFlag
  last _ hn := by simp only at hn; omega
  left hcr t ht := absurd (h.left hcr t ht) (hno.2 hcr)
  stopped := h.stopped
  noComp := h.noComp
  compCreated := h.compCreated
  compNew := h.compNew
  compNewOnce := h.compNewOnce
  compCnt := h.compCnt
  drained := h.drained.imp_right fun hd => hd.imp_right fun hd => hd.congr rfl rfl rfl

/-- The channel that is being opened is past the creation of the I/O
thread. -/
theorem Sessions.ioFlag_opening {ch : Closure} (h : Sessions s)
    (hpast : (s.chan c).opn.pastIoCreated = true) (hneedy : ch.needy → (s.chan c).needy) (c' : Nat)
    (hn : (Function.update s.chan c ch c').needy)
    (hp : (Function.update s.chan c ch c').opn.pastIoCreated = true) : s.ioThreadCreated = true :=
  forall_update
    (R := fun ch : Closure => ch.needy → ch.opn.pastIoCreated = true → s.ioThreadCreated = true)
    h.ioFlag (fun hn _ => h.ioFlag c (hneedy hn) hpast) c c' hn hp

/-- Another channel that starts the I/O thread goes on doing so. -/
theorem exists_ioNew_update {ch : Closure} (ho : (s.chan c).opn ≠ .ioNew)
    (h : ∃ c', (s.chan c').opn = .ioNew) :
    ∃ c', (Function.update s.chan c ch c').opn = .ioNew := by
  obtain ⟨c', hc'⟩ := h
  have hne : c' ≠ c := by
    rintro rfl
    exact ho hc'
  exact ⟨c', by rw [Function.update_of_ne hne, hc']⟩

/-- `comp_thread_created` is set by the first compressed channel. -/
theorem Sessions.compWon (h : Sessions s) (hno : NobodyLeaves s)
    (hread : ∀ t, s.io t ≠ .rereadCreated ∧ s.io t ≠ .readNum) (hpos : s.numBufCompCh ≠ 0)
    (ho : (s.chan c).opn = .compCreated) (hcr : s.compThreadCreated = false)
    (hborn : s.compCnt = 0 → ∀ t, s.comp t = .unborn) :
    Sessions { s.setChan c { s.chan c with opn := .compNew 0 } with compThreadCreated := true } := by
  have hcnt : s.compCnt = 0 := (h.compCreated c ho).2.resolve_left (by simp [hcr])
  have hunb := hborn hcnt
  have hnew : ∀ c' i, (Function.update s.chan c { s.chan c with opn := .compNew 0 } c').opn =
      .compNew i → c' = c ∧ i = 0 := by
    intro c' i hi
    by_cases hc : c' = c
    · subst hc
      simp only [Function.update_self, OpenPc.compNew.injEq] at hi
      exact ⟨rfl, hi.symm⟩
    · rw [Function.update_of_ne hc] at hi
      have := (h.compNew c' i hi).1
      simp [hcr] at this
  exact
    { ioTest := h.ioTest
      stopCompThread := h.stopCompThread
      settled := fun t ht => by
        obtain ht | ht := ht
        · exact absurd (.inl ht) (hno t)
        · exact absurd ht.1 (hread t).1
      readNum := fun t ht => absurd ht (hread t).2
      clearComp := h.clearComp
      ioFlag := h.ioFlag_opening (by simp [ho, OpenPc.pastIoCreated])
        fun hn => ⟨⟨by simp [ho], by simp [ho], hn.1.2.2⟩, hn.2⟩
      compFlag := fun _ _ _ _ => rfl
      last := fun _ hn => absurd hn hpos
      left := fun _ t ht => by simp [hunb t, CompPc.left] at ht
      stopped := fun _ t ht => by simp [hunb t, CompPc.stopped] at ht
      noComp := by simp
      compCreated := fun c' hc' => ⟨by
        have hc : c' ≠ c := by
          rintro rfl
          simp at hc'
        simp only [State.setChan, Function.update_of_ne hc] at hc' ⊢
        exact (h.compCreated c' hc').1, .inl rfl⟩
      compNew := fun c' i hi => by
        obtain ⟨-, rfl⟩ := hnew c' i hi
        exact ⟨rfl, hcnt, by decide⟩
      compNewOnce := fun c₁ i₁ c₂ i₂ h₁ h₂ => by rw [(hnew c₁ i₁ h₁).1, (hnew c₂ i₂ h₂).1]
      compCnt := fun _ => .inl ⟨c, 0, by simp⟩
      drained := h.drained.imp_right
        (.imp (exists_ioNew_update (by simp [ho])) fun hd => hd.congr rfl rfl rfl) }

/-- A compression thread is created. -/
theorem Sessions.compNew_step {i : Nat} (h : Sessions s)
    (hno : NobodyLeaves s ∧ (s.compThreadCreated = true → s.numBufCompCh ≠ 0))
    (ho : (s.chan c).opn = .compNew i) :
    Sessions { (s.setComp s.compCnt .readStop).setChan c
        { s.chan c with opn := if i + 1 < compThreadNum then .compNew (i + 1) else .finish } with
      compCnt := s.compCnt + 1
      compThread := s.compThread ++ [s.compCnt] } := by
  obtain ⟨hcr, hcnt, hlt⟩ := h.compNew c i ho
  have hnew : ∀ c' j, (Function.update s.chan c { s.chan c with
      opn := if i + 1 < compThreadNum then .compNew (i + 1) else .finish } c').opn = .compNew j →
      c' = c ∧ j = i + 1 ∧ i + 1 < compThreadNum := by
    intro c' j hj
    by_cases hc : c' = c
    · subst hc
      simp only [Function.update_self] at hj
      split at hj
      · next hi => exact ⟨rfl, by simpa using hj.symm, hi⟩
      · cases hj
    · rw [Function.update_of_ne hc] at hj
      exact absurd (h.compNewOnce c' j c i hj ho) hc
  exact
    { ioTest := h.ioTest
      stopCompThread := h.stopCompThread
      settled := fun t ht => absurd ht (hno.1 t)
      readNum := h.readNum
      clearComp := h.clearComp
      ioFlag := h.ioFlag_opening (by simp [ho, OpenPc.pastIoCreated])
        fun hn => ⟨⟨by simp [ho], by simp [ho], hn.1.2.2⟩, hn.2⟩
      compFlag := fun _ _ _ _ => hcr
      last := fun hcr hn => absurd hn (hno.2 hcr)
      left := fun _ => forall_update (R := fun pc : CompPc => pc.left = true → s.numBufCompCh = 0)
        (h.left hcr) (by simp [CompPc.left]) _
      stopped := fun _ => forall_update
        (R := fun pc : CompPc => pc.stopped = true → s.compressionQueue = [])
        (h.stopped hcr) (by simp [CompPc.stopped]) _
      noComp := fun hn => by simp [hcr] at hn
      compCreated := fun c' hc' => ⟨by
        have hc : c' ≠ c := by
          rintro rfl
          simp only [State.setChan, Function.update_self] at hc'
          split at hc' <;> cases hc'
        simp only [State.setChan, Function.update_of_ne hc] at hc' ⊢
        exact (h.compCreated c' hc').1, .inl hcr⟩
      compNew := fun c' j hj => by
        obtain ⟨-, rfl, hi⟩ := hnew c' j hj
        exact ⟨hcr, by simp [hcnt], hi⟩
      compNewOnce := fun c₁ i₁ c₂ i₂ h₁ h₂ => by rw [(hnew c₁ i₁ h₁).1, (hnew c₂ i₂ h₂).1]
      compCnt := fun _ => by
        by_cases hi : i + 1 < compThreadNum
        · exact .inl ⟨c, i + 1, by simp [hi]⟩
        · exact .inr (by simp only [hcnt]; omega)
      drained := h.drained.imp_right (.imp (exists_ioNew_update (by simp [ho])) fun hd =>
        ⟨forall_update (R := fun pc : CompPc => pc.holding = false) hd.comp rfl _,
          hd.compressionQueue, hd.ioQueue⟩) }

/-- The steps of an `openChannel` call. -/
theorem OpenMove.sessions (h : Sessions s) (hwf : Wf s) (hok : (s.chan c).Ok) (hcnt : Counted s)
    (hg : Orderly s (.openStep c)) (hm : OpenMove s c s') : Sessions s' := by
  have hno : (s.chan c).opn ≠ .numBufCh → (s.chan c).opn.opening = true →
      NobodyLeaves s ∧ (s.compThreadCreated = true → s.numBufCompCh ≠ 0) := fun hn ho =>
    h.nobodyLeaves (needy_of_opening hok ho hn)
  have hclose : (s.chan c).opn.opening = true → (s.chan c).close = .none := fun ho => by
    refine (hok.unbuilt ?_).2.1
    rintro (hb | hb) <;> simp [hb, OpenPc.opening] at ho
  have hflag : (s.chan c).opn.opening = true → (s.chan c).opn.pastIoCreated = true →
      s.ioThreadCreated = true := fun ho hp => by
    refine h.ioFlag c (needy_of_opening hok ho ?_) hp
    rintro hn
    simp [hn, OpenPc.pastIoCreated] at hp
  obtain ⟨hg1, hg2, hg3⟩ := hg
  cases hm with
  | numBufCh ho =>
      obtain ⟨hleave, hlast⟩ := hg1 ho
      have hno : NobodyLeaves s := by
        rintro t (ht | ⟨ht, hcr⟩)
        · have hlt := hwf.io_lt (t := t) fun hu => by simp [hu, IoPc.leaving, IoPc.flushing] at ht
          simp [hleave t hlt] at ht
        · exact hlast hcr (hcnt.numBufCompCh_eq_zero (h.settled t (.inr ⟨ht, hcr⟩)).channels)
      exact (h.setOpn (c := c) (o := .ioCreated) ⟨hno, hlast⟩ (by simp [OpenPc.pastIoCreated])
        (by simp [OpenPc.pastCompCreated]) (by simp) (by simp [ho]) (by simp [ho])).forget {} rfl rfl
  | ioSeen ho hio =>
      exact h.setOpn (hno (by simp [ho]) (by simp [ho, OpenPc.opening])) (fun _ => hio)
        (by simp [OpenPc.pastCompCreated]) (by simp) (by simp [ho]) (by simp [ho])
  | ioWon ho hio =>
      have hno := hno (by simp [ho]) (by simp [ho, OpenPc.opening])
      exact (h.setIoFlag hno.1).setOpn (c := c) (o := .ioNew) hno (fun _ => rfl)
        (by simp [OpenPc.pastCompCreated]) (by simp) (by simp [ho]) (by simp [ho])
  | ioNew ho =>
      have hno := hno (by simp [ho]) (by simp [ho, OpenPc.opening])
      have h' : Sessions { s.setIo s.ioCnt .start with ioCnt := s.ioCnt + 1 } :=
        h.setIo (t := s.ioCnt) {} rfl (by simp [IoPc.leaving, IoPc.flushing]) (by simp) (by simp)
          (.inl (.inl rfl))
      have hno' : NobodyLeaves { s.setIo s.ioCnt .start with ioCnt := s.ioCnt + 1 } :=
        forall_update (R := fun pc : IoPc => ¬ (pc.leaving = true ∨
          pc = .rereadCreated ∧ s.compThreadCreated = true)) hno.1
          (by simp [IoPc.leaving, IoPc.flushing]) s.ioCnt
      exact h'.setOpn (c := c) (o := .ioStore s.ioCnt) ⟨hno', hno.2⟩
        (fun _ => hflag (by simp [ho, OpenPc.opening]) (by simp [ho, OpenPc.pastIoCreated]))
        (by simp [OpenPc.pastCompCreated]) (by simp) (by simp [ho])
        (fun _ => ⟨s.ioCnt, by simp [IoPc.serving]⟩)
  | ioStore t ho =>
      have hno := hno (by simp [ho]) (by simp [ho, OpenPc.opening])
      exact (h.setOpn (c := c) (o := .numBufCompCh) hno
        (fun _ => hflag (by simp [ho, OpenPc.opening]) (by simp [ho, OpenPc.pastIoCreated]))
        (by simp [OpenPc.pastCompCreated]) (by simp) (by simp [ho]) (by simp [ho])).forget {} rfl rfl
  | notComp ho hcomp =>
      have hno := hno (by simp [ho]) (by simp [ho, OpenPc.opening])
      exact h.setOpn hno
        (fun _ => hflag (by simp [ho, OpenPc.opening]) (by simp [ho, OpenPc.pastIoCreated]))
        (by simp [hcomp]) (by simp) (by simp [ho]) (by simp [ho])
  | numBufCompCh ho hcomp =>
      have hno := hno (by simp [ho]) (by simp [ho, OpenPc.opening])
      have hpos : 0 ≤ s.numBufCompCh := by
        rw [hcnt.comp]
        exact Int.natCast_nonneg _
      refine (h.incComp hno hpos).setOpn (c := c) (o := .compCreated)
        ⟨hno.1, fun _ => by simp only; omega⟩
        (fun _ => hflag (by simp [ho, OpenPc.opening]) (by simp [ho, OpenPc.pastIoCreated]))
        (by simp [OpenPc.pastCompCreated]) (fun _ => ⟨hcomp, ?_⟩) (by simp [ho]) (by simp [ho])
      cases hcr : s.compThreadCreated with
      | true => exact .inl rfl
      | false =>
          refine .inr ((h.noComp hcr).2.2.resolve_right fun hst => ?_)
          have := (hg2 ho hcomp).resolve_left (by simp [hcr])
          simp [this, compThreadNum] at hst
  | compSeen ho hcr =>
      have hno := hno (by simp [ho]) (by simp [ho, OpenPc.opening])
      exact h.setOpn hno
        (fun _ => hflag (by simp [ho, OpenPc.opening]) (by simp [ho, OpenPc.pastIoCreated]))
        (fun _ _ => hcr) (by simp) (by simp [ho]) (by simp [ho])
  | compWon ho hcr =>
      have hno := hno (by simp [ho]) (by simp [ho, OpenPc.opening])
      have hopening : (s.chan c).opn.opening = true := by simp [ho, OpenPc.opening]
      refine h.compWon hno.1 (fun t => ?_) (hcnt.numBufCompCh_pos hwf ⟨(h.compCreated c ho).1,
        by simp [ho, OpenPc.pastNumBufCompCh], by simp [hclose hopening], by simp [hclose hopening]⟩) ho
        hcr fun h0 t => (hwf.comp t).mpr (by omega)
      obtain hlt | hge := Nat.lt_or_ge t s.ioCnt
      · exact hg3 ho hcr t hlt
      · simp [(hwf.io t).mpr hge]
  | compNew i ho => exact h.compNew_step (hno (by simp [ho]) (by simp [ho, OpenPc.opening])) ho
  | enter ho hmtx =>
      have hno := hno (by simp [ho]) (by simp [ho, OpenPc.opening])
      have hneedy := needy_of_opening hok (by simp [ho, OpenPc.opening]) (by simp [ho])
      exact (h.setOpn (c := c) (o := .openFile) hno
        (fun _ => hflag (by simp [ho, OpenPc.opening]) (by simp [ho, OpenPc.pastIoCreated]))
        (fun hcomp _ => h.compFlag c hneedy hcomp (by simp [ho, OpenPc.pastCompCreated]))
        (by simp) (by simp [ho]) (by simp [ho])).forget {} rfl rfl

/-- A producer enqueues a block. -/
theorem Sessions.enqueue {f : Nat → Closure} {q : List Ptr} {q' : List IoBlock} (h : Sessions s)
    (hcnt : Counted s) (hc : (s.chan c).needy) (hb : (s.chan c).built)
    (hf : ∀ c, (f c).opn = (s.chan c).opn ∧ ((f c).needy ↔ (s.chan c).needy) ∧
      (f c).compress = (s.chan c).compress)
    (hq : (s.chan c).compress = false → q = s.compressionQueue) :
    Sessions { s with chan := f, compressionQueue := q, ioQueue := q' } := by
  obtain ⟨hno, hlast⟩ := h.nobodyLeaves hc
  have hopn := fun c => (hf c).1
  have hneedy := fun c => (hf c).2.1
  have hz := fun c => (hf c).2.2
  have hpast : (s.chan c).opn.pastIoCreated = true ∧ (s.chan c).opn.pastCompCreated = true := by
    obtain hb | hb := hb <;> simp [hb, OpenPc.pastIoCreated, OpenPc.pastCompCreated]
  exact
    { ioTest := h.ioTest
      stopCompThread := h.stopCompThread
      settled := fun t ht => absurd ht (hno t)
      readNum := h.readNum
      clearComp := h.clearComp
      ioFlag := by simpa only [hneedy, hopn] using h.ioFlag
      compFlag := by simpa only [hneedy, hz, hopn] using h.compFlag
      last := by simpa only [hneedy] using h.last
      left := h.left
      stopped := fun hcr t ht => by
        refine absurd (h.left hcr t ?_) (hlast hcr)
        simp only at ht
        cases hpc : s.comp t <;> simp_all [CompPc.stopped, CompPc.left]
      noComp := fun hcr => by
        obtain ⟨h1, h2, h3⟩ := h.noComp hcr
        refine ⟨h1, ?_, h3⟩
        cases hcomp : (s.chan c).compress with
        | false => exact (hq hcomp).trans h2
        | true =>
            have := h.compFlag c hc hcomp hpast.2
            simp only at hcr
            simp [hcr] at this
      compCreated := by simpa only [hopn, hz] using h.compCreated
      compNew := by simpa only [hopn] using h.compNew
      compNewOnce := by simpa only [hopn] using h.compNewOnce
      compCnt := by simpa only [hopn] using h.compCnt
      drained := by
        simp only [hopn]
        obtain ⟨t, ht⟩ | hnew := h.manned hcnt hc hpast.1
        · exact .inl ⟨t, .inl ht⟩
        · exact .inr (.inl hnew) }

/-- The steps of a logging thread. -/
theorem LogMove.sessions (h : Sessions s) (hok : (s.chan c).Ok) (halone : (s.chan c).Alone)
    (hcnt : Counted s) (hm : LogMove s c s') : Sessions s' := by
  have hready := hok.logging
  have hneedy : (s.chan c).log ≠ .idle → (s.chan c).needy := fun hl => by
    have hnone : (s.chan c).close = .none := Classical.not_not.mp fun hn => hl (halone hn)
    exact ⟨⟨by simp [hready hl], by simp [hready hl], by simp [hnone]⟩, by simp [hnone]⟩
  cases hm with
  | enqueueComp hl hcomp hlen =>
      exact h.enqueue hcnt (hneedy (by simp [hl])) (.inl (hready (by simp [hl])))
        (same_phase_update rfl Iff.rfl rfl) (by simp [hcomp])
  | enqueueRaw hl hcomp hlen =>
      exact h.enqueue hcnt (hneedy (by simp [hl])) (.inl (hready (by simp [hl])))
        (same_phase_update rfl Iff.rfl rfl) (by simp)
  | setIdFault => exact h.forget {} rfl rfl
  | _ => exact h.samePhase (c := c) rfl {} rfl Iff.rfl rfl rfl rfl

/-- Calling `closeChannel` starts the closing of a channel at most. -/
theorem callClose_sessions (h : Sessions s) (hok : (s.chan c).Ok) : Sessions (callClose s c) := by
  have hcl := hok.closing
  refine h.samePhase (c := c) rfl {} rfl ?_ rfl rfl rfl
  simp only [Closure.needy, Closure.counted]
  grind

/-- The entry of `logTS`. -/
theorem CallMove.sessions {d : LogData} (h : Sessions s) (hok : (s.chan c).Ok)
    (hm : CallMove s c d s') : Sessions s' := by
  cases hm with
  | poison => exact callClose_sessions h hok
  | null => exact h
  | _ => exact h.samePhase (c := c) rfl {} rfl Iff.rfl rfl rfl rfl

/-- `num_buf_comp_ch` is decremented. -/
theorem Sessions.decComp (h : Sessions s) (hpos : 0 < s.numBufCompCh)
    (hlast : s.numBufCompCh = 1 → ∀ c, ¬ (s.chan c).needy) :
    Sessions { s with numBufCompCh := s.numBufCompCh - 1 } where
  ioTest := h.ioTest
  stopCompThread := h.stopCompThread
  settled t ht :=
    ⟨(h.settled t ht).channels, (h.settled t ht).comp, (h.settled t ht).compressionQueue⟩
  readNum := h.readNum
  clearComp := h.clearComp
  ioFlag := h.ioFlag
  compFlag := h.compFlag
  last _ hn := hlast (by simp only at hn; omega)
  left hcr t ht := by
    have := h.left hcr t ht
    omega
  stopped := h.stopped
  noComp := h.noComp
  compCreated := h.compCreated
  compNew := h.compNew
  compNewOnce := h.compNewOnce
  compCnt := h.compCnt
  drained := h.drained.imp_right fun hd => hd.imp_right fun hd => hd.congr rfl rfl rfl

/-- A channel that comes to its last decrement no longer needs the
threads. -/
theorem Sessions.release {ch : Closure} (h : Sessions s) (hb : (s.chan c).built)
    (hopn : ch.opn = (s.chan c).opn) (hneedy : ¬ ch.needy) : Sessions (s.setChan c ch) := by
  refine h.setPhase (fun hn => absurd hn hneedy) (fun hn => absurd hn hneedy)
    (fun hn => absurd hn hneedy) (fun ho => ?_) (fun i => ?_) (fun ho => ?_) <;>
    obtain hb | hb := hb <;> simp_all

/-- The steps of a `closeChannel` call. -/
theorem CloseMove.sessions (h : Sessions s) (hwf : Wf s) (hok : (s.chan c).Ok) (hcnt : Counted s)
    (hg : Orderly s (.closeStep c)) (hm : CloseMove s c s') : Sessions s' := by
  have hb : (s.chan c).close ≠ .none → (s.chan c).built := fun hn =>
    Classical.not_not.mp fun hb => hn (hok.unbuilt hb).2.1
  have hcounted : (s.chan c).close ≠ .none → (s.chan c).close ≠ .done → (s.chan c).counted :=
    fun hn hd => by obtain hb | hb := hb hn <;> simp [Closure.counted, hb, hd]
  cases hm with
  | setCloseFile hc =>
      refine h.samePhase (c := c) rfl {} rfl ?_ rfl rfl rfl
      simp [Closure.needy, Closure.counted, hc]
  | enqueueComp hc hcomp hlen =>
      refine h.enqueue hcnt ⟨hcounted (by simp [hc]) (by simp [hc]), by simp [hc]⟩
        (hb (by simp [hc])) (same_phase_update rfl ?_ rfl) (by simp [hcomp])
      simp [Closure.needy, Closure.counted, hc]
  | enqueueRaw hc hcomp hlen =>
      refine h.enqueue hcnt ⟨hcounted (by simp [hc]) (by simp [hc]), by simp [hc]⟩
        (hb (by simp [hc])) (same_phase_update rfl ?_ rfl) (by simp)
      simp [Closure.needy, Closure.counted, hc]
  | decComp hc =>
      have hb := hb (by simp [hc])
      have h' : Sessions (s.setChan c { s.chan c with close := .dec }) :=
        h.release hb rfl (by simp [Closure.needy])
      cases hcomp : (s.chan c).compress with
      | false => exact h'.forget {} rfl rfl
      | true =>
          have hcc : (s.chan c).countedComp := by
            obtain hb | hb := hb <;>
              simp [Closure.countedComp, hcomp, hc, hb, OpenPc.pastNumBufCompCh]
          have hne := hcnt.numBufCompCh_pos hwf hcc
          have hge : 0 ≤ s.numBufCompCh := by
            rw [hcnt.comp]
            exact Int.natCast_nonneg _
          have hlast : s.numBufCompCh = 1 →
              ∀ c', ¬ (Function.update s.chan c { s.chan c with close := .dec } c').needy := by
            intro hone c' hn
            by_cases hcc' : c' = c
            · rw [hcc', Function.update_self] at hn
              exact hn.2 rfl
            · rw [Function.update_of_ne hcc'] at hn
              exact hg hc hcomp hone c' (hwf.lt_nextChannel hn.1.1) hcc' hn
          exact h'.decComp (by simp only [State.setChan]; omega) hlast
  | dec hc =>
      have hb := hb (by simp [hc])
      have h' : Sessions (s.setChan c { s.chan c with close := .done }) :=
        h.release hb rfl (by simp [Closure.needy, Closure.counted])
      exact h'.forget {} rfl rfl

/-- **Step lemma**: a step the condition allows keeps the threads where they
are needed. -/
theorem Sessions.step (h : Sessions s) (hwf : Wf s) (hok : ∀ c, (s.chan c).Ok)
    (halone : ∀ c, (s.chan c).Alone) (hcnt : Counted s) (hg : Orderly s l)
    (hm : Move sq s l s') : Sessions s' := by
  cases hm with
  | openChannel f compress =>
      have hfresh := hwf.fresh _ (Nat.le_refl s.nextChannel)
      have hneedy : ¬ (Closure.new f compress .numBufCh).needy := by
        simp [Closure.needy, Closure.counted, Closure.new]
      exact (h.setPhase (c := s.nextChannel) (fun hn => absurd hn hneedy)
        (fun hn => absurd hn hneedy) (fun hn => absurd hn hneedy) (by simp [Closure.new])
        (by simp [Closure.new, hfresh]) (by simp [hfresh])).forget {} rfl rfl
  | openOther => exact h.forget {} rfl rfl
  | openStep c h' => exact h'.sessions h hwf (hok c) hcnt hg
  | finishOpen c ok mem hopn =>
      have hneedy := needy_of_opening (hok c) (by simp [hopn, OpenPc.opening]) (by simp [hopn])
      have hbuilt : ∀ ch : Closure, ch.compress = (s.chan c).compress → ch.built →
          Sessions (s.setChan c ch) := fun ch hz hb => by
        refine h.setPhase (fun _ => h.nobodyLeaves hneedy)
          (fun _ _ => h.ioFlag c hneedy (by simp [hopn, OpenPc.pastIoCreated]))
          (fun _ hcomp _ => h.compFlag c hneedy (hz ▸ hcomp)
            (by simp [hopn, OpenPc.pastCompCreated])) (fun ho => ?_)
          (fun i => ⟨fun ho => ?_, by simp [hopn]⟩) (by simp [hopn])
        all_goals obtain hb | hb := hb <;> simp [ho] at hb
      refine Sessions.forget (s := s.setChan c { s.chan c with
          queue := (List.range numBufferBlock).tail
          block := 0
          blocks := fun k => .new (mem k)
          blockCnt := 1
          ids := [0]
          opn := if ok && (s.chan c).format != .lzo1xTsc then .ready else .defect })
        (hbuilt _ rfl ?_) {} rfl rfl
      unfold Closure.built
      split <;> simp
  | logTS c d hopn hlog h' => exact h'.sessions h (hok c)
  | logStep c h' => exact h'.sessions h (hok c) (halone c) hcnt
  | closeChannel c hopn => exact callClose_sessions h (hok c)
  | closeStep c h' => exact h'.sessions h hwf (hok c) hcnt hg
  | io t h' => exact h'.sessions h hwf hok hcnt
  | comp t h' => exact h'.sessions h
  | atExit | signal => exact h.forget {} rfl rfl
  | exitStep h' =>
      cases h' with
      | close m i c hpc hi => exact (callClose_sessions (c := c) h (hok c)).forget {} rfl rfl
      | _ => exact h.forget {} rfl rfl

/-- **Run lemma**: in an orderly run of an application that closes each
channel between two calls of `logTS`, the threads are there while they are
needed. -/
theorem Reached.sessions {ok : State → Label → Prop} (hord : ∀ s l, ok s l → Orderly s l)
    (hone : ∀ c s l, ok s l → OneThread c s l) (hr : Reached sq ok s) : Sessions s := by
  refine hr.invariant_of (I := Sessions)
    (J := fun s => Wf s ∧ (∀ c, (s.chan c).Ok) ∧ (∀ c, (s.chan c).Alone) ∧ Counted s)
    (fun s hs => ⟨Reached.wf hs, Reached.chanOk hs,
      fun c => (Reached.alone_tidy (hone c) hs).1, Reached.counted hs⟩) ?_ ?_
  · constructor <;> simp [State.init, Closure.new, Closure.needy, Closure.counted, IoPc.leaving,
      IoPc.flushing, IoPc.serving]
    constructor <;> simp [CompPc.holding]
  · rintro s l s' ⟨hwf, hok, halone, hcnt⟩ h hg hs
    exact h.step hwf hok halone hcnt (hord s l hg) (step_move hs).2

end Application

/-! ## one application thread -/

/-- No call of the application is under way. -/
def BetweenCalls (s : State) : Prop :=
  ∀ c < s.nextChannel, (s.chan c).opn.opening = false ∧ (s.chan c).log = .idle ∧
    ((s.chan c).close = .none ∨ (s.chan c).close = .done)

instance (s : State) : Decidable (BetweenCalls s) :=
  inferInstanceAs (Decidable (∀ c < s.nextChannel, _ ∧ _ ∧ _))

/-- One application thread uses channels of the formats without TSC: a call
begins when the last one has returned.  The process does not exit. -/
def OneApplication (s : State) : Label → Prop
  | .openChannel f _ => f.isTsc = false ∧ BetweenCalls s
  | .openOther | .logTS _ _ | .closeChannel _ => BetweenCalls s
  | .atExit | .signal | .exitStep => False
  | _ => True

instance : DecidableRel OneApplication := fun s l =>
  match l with
  | .openChannel f _ => inferInstanceAs (Decidable (f.isTsc = false ∧ BetweenCalls s))
  | .openOther | .logTS _ _ | .closeChannel _ => inferInstanceAs (Decidable (BetweenCalls s))
  | .atExit | .signal | .exitStep => .isFalse fun h => h
  | .openStep _ | .finishOpen _ _ _ | .logStep _ | .closeStep _ | .io _ | .comp _ => .isTrue trivial

/-- One application thread, none of the steps that `Orderly` excludes, and none
that leads to undefined behaviour. -/
def OrderlyApplication (s : State) (l : Label) : Prop :=
  OneApplication s l ∧ Orderly s l ∧ Supported s l ∧ IdsLeft s l

instance : DecidableRel OrderlyApplication := fun s l =>
  inferInstanceAs (Decidable (OneApplication s l ∧ Orderly s l ∧ Supported s l ∧ IdsLeft s l))

section Served

variable {sq : Squash} {s : State} {l : Label}

theorem BetweenCalls.at (h : BetweenCalls s) (hwf : Wf s) (c : Nat) :
    (s.chan c).opn.opening = false ∧ ((s.chan c).opn ≠ .fresh → (s.chan c).log = .idle ∧
      ((s.chan c).close = .none ∨ (s.chan c).close = .done)) := by
  by_cases hf : (s.chan c).opn = .fresh
  · exact ⟨by simp [hf, OpenPc.opening], fun hn => absurd hf hn⟩
  · obtain ⟨h1, h2⟩ := h c (hwf.lt_nextChannel hf)
    exact ⟨h1, fun _ => h2⟩

theorem OneApplication.oneThread (h : OneApplication s l) (hwf : Wf s) (hok : ∀ c, (s.chan c).Ok)
    (c : Nat) : OneThread c s l := by
  have hidle : BetweenCalls s → (s.chan c).log = .idle := fun hb => by
    by_contra hl
    have hready := (hok c).logging hl
    exact hl ((hb.at hwf c).2 (by simp [hready])).1
  cases l <;> intro hc <;> simp_all [closesNow, OneApplication]

/-- Without exit handlers `closeAllChannels` does not run. -/
theorem Reached.exit_idle {ok : State → Label → Prop} (hone : ∀ s l, ok s l → OneApplication s l)
    (hr : Reached sq ok s) : s.exit = .idle := by
  refine hr.invariant (I := fun s => s.exit = .idle) rfl fun s l s' h hg hs => ?_
  cases (step_move hs).2 with
  | atExit | signal | exitStep => exact (hone s _ hg).elim
  | openStep c h' | logStep c h' | closeStep c h' | io t h' | comp t h' => cases h' <;> exact h
  | logTS c d hopn hlog h' => cases h' <;> exact h
  | _ => exact h

/-- A state between two calls, in a run where the threads are there while
they are needed. -/
theorem Sessions.served (h : Sessions s) (hb : BetweenCalls s) (hwf : Wf s) (hcnt : Counted s) :
    (0 < s.numBufCh → ∃ t, (s.io t).serving = true) ∧
      (0 < s.numBufCompCh → ∃ t, s.comp t ≠ .unborn ∧ (s.comp t).left = false) ∧
      ((∀ t, s.io t = .unborn ∨ s.io t = .done) → s.ioQueue = [] ∧ s.compressionQueue = []) := by
  have hnew : ¬ ∃ c, (s.chan c).opn = .ioNew := fun ⟨c, hc⟩ => by
    have := (hb.at hwf c).1
    simp [hc, OpenPc.opening] at this
  have hbuilt : ∀ c, (s.chan c).counted → (s.chan c).built ∧ (s.chan c).needy := fun c hc => by
    have hopn := (hb.at hwf c).1
    have hclose := ((hb.at hwf c).2 hc.1).2.resolve_right hc.2.2
    refine ⟨?_, hc, by simp [hclose]⟩
    cases ho : (s.chan c).opn <;> simp_all [OpenPc.opening, Closure.built, Closure.counted]
  refine ⟨fun hpos => ?_, fun hpos => ?_, fun hio => ?_⟩
  · have hbuf := hcnt.buf
    obtain ⟨c, -, hc⟩ := tally_pos (w := Closure.bufs) (n := s.nextChannel) (f := s.chan) (by omega)
    have hc : (s.chan c).counted := by
      by_contra hn
      simp [Closure.bufs, hn] at hc
    obtain ⟨hb, hneedy⟩ := hbuilt c hc
    have hpast : (s.chan c).opn.pastIoCreated = true := by
      obtain hb | hb := hb <;> simp [hb, OpenPc.pastIoCreated]
    exact (h.manned hcnt hneedy hpast).resolve_right hnew
  · have hcomp := hcnt.comp
    obtain ⟨c, -, hc⟩ := tally_pos (w := Closure.comps) (n := s.nextChannel) (f := s.chan)
      (by omega)
    have hc : (s.chan c).countedComp := by
      by_contra hn
      simp [Closure.comps, hn] at hc
    obtain ⟨hbc, hneedy⟩ := hbuilt c hc.needy.1
    have hpast : (s.chan c).opn.pastCompCreated = true := by
      obtain hb | hb := hbc <;> simp [hb, OpenPc.pastCompCreated]
    have hcr := h.compFlag c hneedy hc.1 hpast
    have hall : s.compCnt = compThreadNum := by
      refine (h.compCnt hcr).resolve_left ?_
      rintro ⟨c, i, hi⟩
      have := (hb.at hwf c).1
      simp [hi, OpenPc.opening] at this
    refine ⟨0, fun hu => ?_, Bool.eq_false_iff.mpr fun hl => ?_⟩
    · have := (hwf.comp 0).mp hu
      simp [hall, compThreadNum] at this
    · have := h.left hcr 0 hl
      omega
  · obtain ⟨t, ht⟩ | hn | hd := h.drained
    · obtain hu | hu := hio t <;> simp [hu, IoPc.serving, IoPc.flushing] at ht
    · exact absurd hn hnew
    · exact ⟨hd.ioQueue, hd.compressionQueue⟩

/-- **The threads serve the open channels**, in every run of one application
thread that takes none of the steps `Orderly` excludes, and none that leads
to undefined behaviour: between two calls, no thread has failed, an open
channel has an I/O thread in its main loop, an open compressed channel a
compression thread in its main loop, and without an I/O thread both queues
are empty. -/
theorem open_channels_served (hsq : sq.Total) (hr : Reached sq OrderlyApplication s)
    (hb : BetweenCalls s) :
    s.fault = false ∧ (0 < s.numBufCh → ∃ t, (s.io t).serving = true) ∧
      (0 < s.numBufCompCh → ∃ t, s.comp t ≠ .unborn ∧ (s.comp t).left = false) ∧
      ((∀ t, s.io t = .unborn ∨ s.io t = .done) → s.ioQueue = [] ∧ s.compressionQueue = []) := by
  have hr' : Reached sq (fun s l => Orderly s l ∧ ∀ c, OneThread c s l) s :=
    hr.mono_of fun s l hs hl => ⟨hl.2.1, hl.1.oneThread (Reached.wf hs) (Reached.chanOk hs)⟩
  have h := Reached.sessions (fun _ _ hl => hl.1) (fun c _ _ hl => hl.2 c) hr'
  have hidle : ∀ s, Reached sq OrderlyApplication s → ClosesOpened s := fun s hs => by
    simp [ClosesOpened, Reached.exit_idle (fun _ _ hl => hl.1) hs]
  have hlive := Reached.defined hsq (fun _ _ _ hl => hl.2.2.1) (fun _ _ hl => hl.2.2.2)
    (fun s hs _ => hidle s hs) hr
  exact ⟨hlive, h.served hb (Reached.wf hr) (Reached.counted hr)⟩

/-- An uncompressed session, closed, then a compressed and an uncompressed
channel in a second one: the threads of the second session serve them. -/
theorem open_channels_served_second_session :
    ∃ s, Reached copySquash OrderlyApplication s ∧ BetweenCalls s ∧ s.fault = false ∧
      s.numBufCh = 2 ∧ s.numBufCompCh = 1 ∧ (∃ t, (s.io t).serving = true) ∧
      ∃ t, s.comp t ≠ .unborn ∧ (s.comp t).left = false := by
  obtain ⟨s, hr, hs⟩ := Reached.of_run copySquash OrderlyApplication
    (openRun ++ .closeChannel 0 :: List.replicate 4 (.closeStep 0) ++ List.replicate 13 (.io 0) ++
      .openChannel .zstd true :: List.replicate 11 (.openStep 1) ++
      [.finishOpen 1 true fun _ _ => someRecord, .openChannel .ascii false, .openStep 2, .openStep 2,
        .openStep 2, .openStep 2, .finishOpen 2 true fun _ _ => someRecord])
    (fun s => decide (BetweenCalls s ∧ s.numBufCh = 2 ∧ s.numBufCompCh = 1)) (by decide +kernel)
  obtain ⟨hb, hn, hc⟩ := of_decide_eq_true hs
  obtain ⟨hlive, h1, h2, -⟩ := open_channels_served copySquash_total hr hb
  exact ⟨s, hr, hb, hlive, hn, hc, h1 (by omega), h2 (by omega)⟩

/-- **A channel is open and nobody serves it.**  Channel 0 is closed, the I/O
thread leaves its main loop, channel 1 is opened and finds
`io_thread_created` still set, and the I/O thread returns. -/
theorem open_channel_unserved :
    ∃ s, Reached copySquash OneApplication s ∧ BetweenCalls s ∧ s.fault = false ∧
      0 < s.numBufCh ∧ ∀ t, s.io t = .unborn ∨ s.io t = .done := by
  obtain ⟨s, hr, hs⟩ := Reached.of_run copySquash OneApplication
    (openRun ++ .closeChannel 0 :: List.replicate 4 (.closeStep 0) ++ List.replicate 4 (.io 0) ++
      [.openChannel .ascii false, .openStep 1, .openStep 1, .openStep 1, .openStep 1,
        .finishOpen 1 true fun _ _ => someRecord] ++ List.replicate 9 (.io 0))
    (fun s => decide (BetweenCalls s ∧ s.fault = false ∧ 0 < s.numBufCh ∧ s.ioCnt = 1 ∧
      s.io 0 = .done)) (by decide +kernel)
  obtain ⟨hb, hlive, hn, hcnt, h0⟩ := of_decide_eq_true hs
  refine ⟨s, hr, hb, hlive, hn, fun t => ?_⟩
  obtain rfl | ht := Nat.eq_zero_or_pos t
  · exact .inr h0
  · exact .inl (((Reached.wf hr).io t).mpr (by omega))

end Served

end CloudProfiler
