import CloudProfiler.Census
import CloudProfiler.Buffer.Channel

/-!
# CloudProfiler.Buffer.Count

What the shared counters and flags count, in every run:

* `io_thread_created` is set exactly while an I/O thread is on duty or about
  to be created, and there is at most one such thread;
* `num_buf_ch` and `num_buf_comp_ch` are the numbers of channels between the
  increment in `initBufferIdentityHandler` and the decrement in
  `closeChannel`;
* `stop_io_thread` is the number of compression threads that have returned.
-/

namespace CloudProfiler

/-- The I/O thread has not given up `io_thread_created`. -/
def IoPc.onDuty : IoPc → Bool
  | .unborn | .clearComp | .clearVec | .done => false
  | _ => true

/-- The channel is counted in `num_buf_ch`. -/
def Closure.counted (ch : Closure) : Prop :=
  ch.opn ≠ .fresh ∧ ch.opn ≠ .numBufCh ∧ ch.close ≠ .done

instance (ch : Closure) : Decidable ch.counted := inferInstanceAs (Decidable (_ ∧ _))

/-- `openChannel` has passed `num_buf_comp_ch++`. -/
def OpenPc.pastNumBufCompCh : OpenPc → Bool
  | .compCreated | .compNew _ | .finish | .openFile | .ready | .defect => true
  | _ => false

/-- The channel is counted in `num_buf_comp_ch`. -/
def Closure.countedComp (ch : Closure) : Prop :=
  ch.compress = true ∧ ch.opn.pastNumBufCompCh = true ∧ ch.close ≠ .dec ∧ ch.close ≠ .done

instance (ch : Closure) : Decidable ch.countedComp := inferInstanceAs (Decidable (_ ∧ _))

/-! ## weights -/

/-- One for an I/O thread on duty. -/
def IoPc.duty (pc : IoPc) : Nat := if pc.onDuty then 1 else 0

/-- One for an `openChannel` call about to create the I/O thread. -/
def Closure.launches (ch : Closure) : Nat := if ch.opn = .ioNew then 1 else 0

/-- The channel's contribution to `num_buf_ch`. -/
def Closure.bufs (ch : Closure) : Nat := if ch.counted then 1 else 0

/-- The channel's contribution to `num_buf_comp_ch`. -/
def Closure.comps (ch : Closure) : Nat := if ch.countedComp then 1 else 0

/-- One for a compression thread that has returned. -/
def CompPc.returned (pc : CompPc) : Nat := if pc = .done then 1 else 0

/-- The counters and flags count what they should. -/
structure Counted (s : State) : Prop where
  io : tally IoPc.duty s.ioCnt s.io + tally Closure.launches s.nextChannel s.chan =
    s.ioThreadCreated.toNat
  buf : s.numBufCh = tally Closure.bufs s.nextChannel s.chan
  comp : s.numBufCompCh = tally Closure.comps s.nextChannel s.chan
  stop : s.stopIoThread = tally CompPc.returned s.compCnt s.comp

variable {sq : Squash} {s s' : State} {l : Label} {c t : Nat}

/-- The steps of an `openChannel` call. -/
theorem OpenMove.counted (hwf : Wf s) (hok : (s.chan c).Ok) (h : Counted s)
    (hm : OpenMove s c s') : Counted s' := by
  obtain ⟨hio, hbuf, hcomp, hstop⟩ := h
  have hlt : c < s.nextChannel := hwf.lt_nextChannel (by cases hm <;> simp [*])
  have hclose : (s.chan c).close = .none :=
    (hok.unbuilt (by cases hm <;> simp [Closure.built, *])).2.1
  have h1 := le_tally (w := Closure.launches) (f := s.chan) hlt
  have h2 := le_tally (w := Closure.bufs) (f := s.chan) hlt
  have h3 := le_tally (w := Closure.comps) (f := s.chan) hlt
  cases hm <;> constructor <;>
    simp only [State.setChan, State.setIo, State.setComp, tally_update_eq hlt, tally_grow] <;>
    simp [Closure.launches, Closure.bufs, Closure.counted, Closure.comps, Closure.countedComp,
      OpenPc.pastNumBufCompCh, IoPc.duty, IoPc.onDuty, CompPc.returned, *] at h1 h2 h3 hio ⊢ <;> grind

section Frame

variable {f : Nat → Closure} {ch : Closure} {n : Nat}

theorem tally_launches_same (hopn : ch.opn = (f c).opn) :
    tally Closure.launches n (Function.update f c ch) = tally Closure.launches n f :=
  tally_update_same (by simp only [Closure.launches, hopn])

theorem tally_bufs_same (hopn : ch.opn = (f c).opn) (hclose : ch.close = (f c).close) :
    tally Closure.bufs n (Function.update f c ch) = tally Closure.bufs n f :=
  tally_update_same (by grind [Closure.bufs, Closure.counted])

theorem tally_comps_same (hopn : ch.opn = (f c).opn) (hcomp : ch.compress = (f c).compress)
    (hclose : ch.close = (f c).close) :
    tally Closure.comps n (Function.update f c ch) = tally Closure.comps n f :=
  tally_update_same (by grind [Closure.comps, Closure.countedComp])

end Frame

theorem LogMove.counted (h : Counted s) (hm : LogMove s c s') : Counted s' := by
  obtain ⟨hio, hbuf, hcomp, hstop⟩ := h
  cases hm <;> constructor <;>
    simpa only [State.setChan, Closure.setBlock, tally_launches_same, tally_bufs_same,
      tally_comps_same]

theorem callClose_counted (h : Counted s) (hok : (s.chan c).Ok) : Counted (callClose s c) := by
  obtain ⟨hio, hbuf, hcomp, hstop⟩ := h
  have hcl := hok.closing
  constructor <;> simp only [callClose, State.setChan, tally_launches_same]
  · exact hio
  · rw [tally_update_same, hbuf]
    simp only [Closure.bufs, Closure.counted]
    grind
  · rw [tally_update_same, hcomp]
    simp only [Closure.comps, Closure.countedComp]
    grind
  · exact hstop

theorem CallMove.counted {d : LogData} (h : Counted s) (hok : (s.chan c).Ok)
    (hm : CallMove s c d s') : Counted s' := by
  cases hm with
  | poison => exact callClose_counted h hok
  | null => exact h
  | _ =>
      obtain ⟨hio, hbuf, hcomp, hstop⟩ := h
      constructor <;>
        simpa only [State.setChan, tally_launches_same, tally_bufs_same, tally_comps_same]

/-- The steps of a `closeChannel` call. -/
theorem CloseMove.counted (hwf : Wf s) (hok : (s.chan c).Ok) (h : Counted s)
    (hm : CloseMove s c s') : Counted s' := by
  obtain ⟨hio, hbuf, hcomp, hstop⟩ := h
  have hb : (s.chan c).built := by
    by_contra hb
    have := (hok.unbuilt hb).2.1
    cases hm <;> simp_all
  have hlt : c < s.nextChannel := hwf.lt_nextChannel (by obtain hb | hb := hb <;> simp [hb])
  have h1 := le_tally (w := Closure.launches) (f := s.chan) hlt
  have h2 := le_tally (w := Closure.bufs) (f := s.chan) hlt
  have h3 := le_tally (w := Closure.comps) (f := s.chan) hlt
  cases hm <;> constructor <;>
    simp only [State.setChan, Closure.setBlock, tally_update_eq hlt] <;>
    obtain hb | hb := hb <;>
    simp [Closure.launches, Closure.bufs, Closure.counted, Closure.comps, Closure.countedComp,
      OpenPc.pastNumBufCompCh, *] at h1 h2 h3 hio ⊢ <;> grind

/-- Only the store to `io_thread_created` takes an I/O thread off duty. -/
theorem IoMove.counted (hwf : Wf s) (h : Counted s) (hm : IoMove s t s') : Counted s' := by
  obtain ⟨hio, hbuf, hcomp, hstop⟩ := h
  have hsame : ∀ pc, pc.onDuty = (s.io t).onDuty →
      tally IoPc.duty s.ioCnt (Function.update s.io t pc) = tally IoPc.duty s.ioCnt s.io :=
    fun pc hpc => tally_update_same (by simp only [IoPc.duty, hpc])
  cases hm with
  | @goto pc pc' hpc h =>
      have := hsame pc' (by rw [hpc]; cases h <;> rfl)
      constructor <;> simpa only [State.setIo, this]
  | clearIo h =>
      have hlt : t < s.ioCnt := hwf.io_lt (by simp [h])
      have hle := le_tally (w := IoPc.duty) (f := s.io) hlt
      have hbool := s.ioThreadCreated.toNat_le
      simp only [IoPc.duty, IoPc.onDuty, h, if_true] at hle
      constructor <;> simp only [State.setIo, tally_update_eq hlt]
      · simp only [IoPc.duty, IoPc.onDuty, h, Bool.toNat_false] at hle ⊢
        grind
      all_goals assumption
  | writeFault | quickExit | popFault => exact ⟨hio, hbuf, hcomp, hstop⟩
  | write m p h hw =>
      have := hsame (.send m p) (by simp [h, IoPc.onDuty])
      constructor <;> simpa only [State.setChan, State.setIo, Closure.setBlock,
        tally_launches_same, tally_bufs_same, tally_comps_same, this]
  | send m p h hlen =>
      have := hsame m.next (by cases m <;> simp [h, IoPc.onDuty, IoMode.next])
      constructor <;> simpa only [State.setChan, State.setIo, tally_launches_same,
        tally_bufs_same, tally_comps_same, this]
  | popPacked m b q k h hq hk =>
      have := hsame m.next (by cases m <;> simp [h, IoPc.onDuty, IoMode.next])
      constructor <;> simpa only [State.setIo, this]
  | popRaw m p q h hq =>
      have := hsame (.write m p) (by simp [h, IoPc.onDuty])
      constructor <;> simpa only [State.setIo, this]
  | start h =>
      have := hsame .readCreated (by simp [h, IoPc.onDuty])
      constructor <;> simpa only [State.setIo, this]
  | clearPtr h =>
      have := hsame .clearIo (by simp [h, IoPc.onDuty])
      constructor <;> simpa only [State.setIo, this]
  | clearComp h =>
      have := hsame .clearVec (by simp [h, IoPc.onDuty])
      constructor <;> simpa only [State.setIo, this]
  | clearVec h =>
      have := hsame .done (by simp [h, IoPc.onDuty])
      constructor <;> simpa only [State.setIo, this]

/-- Only the increment of `stop_io_thread` ends a compression thread. -/
theorem CompMove.counted (hwf : Wf s) (h : Counted s) (hm : CompMove sq s t s') : Counted s' := by
  obtain ⟨hio, hbuf, hcomp, hstop⟩ := h
  have hsame : ∀ pc, s.comp t ≠ .done → pc ≠ .done →
      tally CompPc.returned s.compCnt (Function.update s.comp t pc) =
        tally CompPc.returned s.compCnt s.comp :=
    fun pc ht hpc => tally_update_same (by simp only [CompPc.returned, hpc, ht])
  cases hm with
  | @goto pc pc' hpc h =>
      have := hsame pc' (by rw [hpc]; cases h <;> simp) (by cases h <;> simp)
      constructor <;> simpa only [State.setComp, this]
  | stop h =>
      have hlt : t < s.compCnt := hwf.comp_lt (by simp [h])
      constructor <;> simp only [State.setComp, tally_update_eq hlt]
      case stop =>
        simp only [CompPc.returned, h, if_true, reduceCtorEq, if_false]
        omega
      all_goals assumption
  | push d b h hlen | drop d b h hlen =>
      have := hsame (compNext d) (by simp [h]) (by cases d <;> simp [compNext])
      constructor <;> simpa only [State.setComp, this]
  | pop d p q h hq =>
      have := hsame (.work d p) (by simp [h]) (by simp)
      constructor <;> simpa only [State.setComp, this]
  | work d p h =>
      have := fun b => hsame (.send d p b) (by simp [h]) (by simp)
      constructor <;> simpa only [State.setChan, State.setComp, Closure.setBlock,
        tally_launches_same, tally_bufs_same, tally_comps_same, this]
  | send d p b h hlen =>
      have := hsame (.push d b) (by simp [h]) (by simp)
      constructor <;> simpa only [State.setChan, State.setComp, tally_launches_same,
        tally_bufs_same, tally_comps_same, this]

/-- **Step lemma**: every step of every party keeps the counts. -/
theorem Counted.step (h : Counted s) (hwf : Wf s) (hok : ∀ c, (s.chan c).Ok)
    (hm : Move sq s l s') : Counted s' := by
  cases hm with
  | openChannel f compress =>
      obtain ⟨hio, hbuf, hcomp, hstop⟩ := h
      constructor <;> simp only [State.setChan, tally_grow]
      · simpa [Closure.launches, Closure.new] using hio
      · simpa [Closure.bufs, Closure.counted, Closure.new] using hbuf
      · simpa [Closure.comps, Closure.countedComp, OpenPc.pastNumBufCompCh, Closure.new] using hcomp
      · exact hstop
  | openOther =>
      obtain ⟨hio, hbuf, hcomp, hstop⟩ := h
      have hfresh := hwf.fresh _ (Nat.le_refl s.nextChannel)
      constructor <;> simp only [tally_succ]
      · simpa [Closure.launches, hfresh] using hio
      · simpa [Closure.bufs, Closure.counted, hfresh] using hbuf
      · simpa [Closure.comps, Closure.countedComp, OpenPc.pastNumBufCompCh, hfresh] using hcomp
      · exact hstop
  | openStep c h' => exact h'.counted hwf (hok c) h
  | finishOpen c ok mem hopn =>
      obtain ⟨hio, hbuf, hcomp, hstop⟩ := h
      have hclose := ((hok c).unbuilt (by simp [Closure.built, hopn])).2.1
      constructor <;> simp only [State.setChan]
      · rw [tally_update_same (w := Closure.launches), hio]
        simp only [Closure.launches, hopn]
        grind
      · rw [tally_update_same, hbuf]
        simp only [Closure.bufs, Closure.counted, hopn]
        grind
      · rw [tally_update_same, hcomp]
        simp only [Closure.comps, Closure.countedComp, hopn]
        grind [OpenPc.pastNumBufCompCh]
      · exact hstop
  | logTS c d hopn hlog h' => exact h'.counted h (hok c)
  | logStep c h' => exact h'.counted h
  | closeChannel c hopn => exact callClose_counted h (hok c)
  | closeStep c h' => exact h'.counted hwf (hok c) h
  | io t h' => exact h'.counted hwf h
  | comp t h' => exact h'.counted hwf h
  | atExit | signal => exact ⟨h.io, h.buf, h.comp, h.stop⟩
  | exitStep h' =>
      cases h' with
      | close m i c hpc hi =>
          have := callClose_counted h (hok c)
          exact ⟨this.io, this.buf, this.comp, this.stop⟩
      | _ => exact ⟨h.io, h.buf, h.comp, h.stop⟩

/-- **Run lemma**: the counters and flags count what they should. -/
theorem Reached.counted {ok : State → Label → Prop} (hr : Reached sq ok s) : Counted s := by
  refine hr.invariant_of (I := Counted) (J := fun s => Wf s ∧ ∀ c, (s.chan c).Ok)
    (fun s hs => ⟨Reached.wf hs, Reached.chanOk hs⟩) ?_ ?_
  · constructor <;> simp [State.init]
  · rintro s l s' ⟨hwf, hok⟩ h _ hs
    exact h.step hwf hok (step_move hs).2

/-- At most one I/O thread is on duty. -/
theorem Counted.onDuty_unique (h : Counted s) (hwf : Wf s) {t t' : Nat}
    (ht : (s.io t).onDuty = true) (ht' : (s.io t').onDuty = true) : t = t' := by
  by_contra hne
  have hlt : t < s.ioCnt := hwf.io_lt fun hu => by simp [hu, IoPc.onDuty] at ht
  have hlt' : t' < s.ioCnt := hwf.io_lt fun hu => by simp [hu, IoPc.onDuty] at ht'
  have hle := add_le_tally (w := IoPc.duty) (f := s.io) hne hlt hlt'
  have hio := h.io
  have hbool := s.ioThreadCreated.toNat_le
  simp only [IoPc.duty, ht, ht', if_true] at hle
  omega

end CloudProfiler
