import CloudProfiler.Buffer.Refine

/-!
# CloudProfiler.Buffer.Tsc

Closing a buffered channel of a TSC format.

`buffer_closure::closeChannel` flushes the current block, lets the I/O
thread close the file and takes the channel out of `num_buf_ch` only if the
handler it replaces is `BufferIdentityHandler`.  A channel of a TSC format
has `BufferIdentityHandlerTsc`, so none of this happens: in no run is its
file ever closed or the channel ever taken out of `num_buf_ch`.
-/

namespace CloudProfiler

/-- What closing channel `c` should come to: the file holds the same
`(tuple, tsc)` records as that of an IDENTITY channel of the same format
given the same samples, the first record in full, and has been closed, and
`num_buf_ch` is what it would be had the channel never been opened. -/
def TscCloseDone (tr : List (State × Label)) (s : State) (c : Nat) : Prop :=
  (∃ ds cl, ds.head? = (calls c tr).head? ∧
    ds.map (fun d => (d.tuple, d.ts.tsc)) = (calls c tr).map (fun d => (d.tuple, d.ts.tsc)) ∧
    (initIdentityHandler (s.chan c).format).logAll ds = some cl ∧
    (s.sink.chLogf c).content = cl.chLogf.content) ∧
  (s.sink.chLogf c).isOpen = false ∧ (s.sink.chLogf c).closes ≠ 0 ∧
  s.numBufCh = tally Closure.bufs s.nextChannel
    (Function.update s.chan c (.new .ascii false .fresh))

/-- The I/O threads have nothing to do. -/
def IoIdle (s : State) : Prop := s.ioQueue = [] ∧ ∀ t, (s.io t).hand = none

/-- No block of the closure carries `close_file`. -/
def Closure.unflagged (ch : Closure) : Prop :=
  ch.format.isTsc = true → ∀ k, (ch.blocks k).closeFile = false

section

variable {sq : Squash} {s s' : State} {l : Label} {ok : State → Label → Prop} {c : Nat}

theorem Closure.unflagged.step {P : Prop} {ch ch' : Closure} (h : ch.unflagged) (hok : ch.Ok)
    (hs : ChanStep P ch ch') : ch'.unflagged := by
  have hclose := hok.closing
  cases hs <;>
    simp only [Closure.unflagged, Closure.setBlock, Closure.new, Closure.cur, BlockData.new] at * <;>
    grind [BlockData.writeOnBlock, BlockData.writeOnBlockTsc, Function.update_apply]

theorem Reached.unflagged (hr : Reached sq ok s) (c : Nat) : (s.chan c).unflagged := by
  have h := hr.chan_invariant (I := fun ch => ch.Ok ∧ ch.unflagged) (P := fun _ => True) (c := c)
    ⟨Closure.ok_new, by simp [Closure.unflagged, Closure.new, LogFormat.isTsc]⟩
    (fun _ _ _ _ => trivial) fun _ _ h hs => ⟨h.1.step hs, h.2.step h.1 hs⟩
  exact h.2

/-- The file is open and has never been closed. -/
def Ofstream.neverClosed (f : Ofstream) : Prop := f.isOpen = true ∧ f.closes = 0

/-- Facts about a ready, uncompressed channel of a TSC format. -/
def TscFileOpen (s : State) (c : Nat) : Prop :=
  (s.chan c).opn = .ready → (s.chan c).compress = false → (s.chan c).format.isTsc = true →
    (s.sink.chLogf c).neverClosed

theorem Ofstream.neverClosed.write {f : Ofstream} (h : f.neverClosed) (bs : List UInt8) :
    (f.write bs).neverClosed := by
  simpa [Ofstream.neverClosed] using h

/-- **Step lemma**: nobody closes the file of such a channel. -/
theorem TscFileOpen.step (h : TscFileOpen s c) (hwf : Wf s) (hflag : (s.chan c).unflagged)
    (hrt : Routed s) (hm : Move sq s l s') : TscFileOpen s' c := by
  intro hready hraw htsc
  by_cases hr0 : (s.chan c).opn = .ready
  · have hkind := (hm.chan hwf c).same_kind (by simp [hr0])
    rw [hkind.2.1] at hraw
    rw [hkind.1] at htsc
    have hopen := h hr0 hraw htsc
    cases hm with
    | finishOpen c' ok mem hopn =>
        have hc : c ≠ c' := by
          rintro rfl
          simp [hr0] at hopn
        simpa [Function.update_of_ne hc] using hopen
    | openStep c' h' | logStep c' h' | closeStep c' h' => cases h' <;> exact hopen
    | logTS c' d hopn hlog h' =>
        cases h' with
        | first hd hf =>
            by_cases hc : c = c'
            · subst hc
              simpa using hopen.write _
            · simpa [Function.update_of_ne hc] using hopen
        | _ => exact hopen
    | io t h' =>
        cases h' with
        | popPacked m b q k ht hq hk =>
            have hb : c ≠ b.ch := by
              rintro rfl
              have := (hrt.ioQueue (.packed b) (by simp [hq])).2
              rw [hraw] at this
              cases this
            rw [TscFileOpen] at h
            simpa [(writeCompressedBlock_frame hk hb).chLogf] using hopen
        | write m p ht hw =>
            by_cases hc : c = p.ch
            · subst hc
              simpa [writeRecords_eq, hflag htsc] using hopen.write _
            · simpa [Function.update_of_ne hc] using hopen
        | _ => exact hopen
    | comp t h' => cases h' <;> exact hopen
    | exitStep h' => cases h' <;> exact hopen
    | _ => exact hopen
  · obtain ⟨b, mem, rfl⟩ := hm.finish_of_ready hwf hr0 hready
    cases hm with
    | finishOpen _ _ _ hopn =>
      simp only [State.setChan, Function.update_self] at hready
      split at hready
      case isFalse => cases hready
      case isTrue hopened => simp [hopened, Ofstream.neverClosed, Ofstream.opened]

theorem Reached.tscFileOpen (hr : Reached sq ok s) (c : Nat) : TscFileOpen s c := by
  refine hr.invariant_of (J := Reached sq ok) (I := fun s => TscFileOpen s c) (fun _ h => h) ?_ ?_
  · intro hready
    simp [State.init, Closure.new] at hready
  · intro s l s' hr h _ hs
    exact h.step hr.wf (hr.unflagged c) hr.routed (step_move hs).2

/-- Such a channel stays in `num_buf_ch`. -/
theorem Reached.tsc_counted (hr : Reached sq ok s) (hready : (s.chan c).opn = .ready)
    (htsc : (s.chan c).format.isTsc = true) :
    s.numBufCh = tally Closure.bufs s.nextChannel
      (Function.update s.chan c (.new .ascii false .fresh)) + 1 := by
  have hclose : (s.chan c).close = .none := by
    by_contra hc
    have := ((hr.chanOk c).closing hc).2
    rw [htsc] at this
    cases this
  have hlt := hr.wf.lt_nextChannel (c := c) (by simp [hready])
  have hsum := tally_update (w := Closure.bufs) (f := s.chan) hlt (.new .ascii false .fresh)
  have hone : (s.chan c).bufs = 1 := by simp [Closure.bufs, Closure.counted, hready, hclose]
  have hzero : (Closure.new .ascii false .fresh).bufs = 0 := by
    simp [Closure.bufs, Closure.counted, Closure.new]
  have hbuf := hr.counted.buf
  omega

/-- The close of such a channel is not done, in any run. -/
theorem not_tscCloseDone {tr : List (State × Label)}
    (hr : Trace (step sq) State.init ok tr s) (hready : (s.chan c).opn = .ready)
    (hraw : (s.chan c).compress = false) (htsc : (s.chan c).format.isTsc = true) :
    ¬ TscCloseDone tr s c := by
  rintro ⟨-, hclosed, -, -⟩
  have hreach : Reached sq ok s := hr.reach
  have hopen := (hreach.tscFileOpen c hready hraw htsc).1
  rw [hclosed] at hopen
  cases hopen

/-- **Closing a channel of format ASCII_TSC or BINARY_TSC does nothing.**  In
every run, the file of such a channel is still open and was never closed,
the channel is still counted in `num_buf_ch`, and so the close is never
done, whatever was logged and however long the I/O thread is waited for. -/
theorem tsc_close_never_done {tr : List (State × Label)}
    (hr : Trace (step sq) State.init anyStep tr s)
    (hready : (s.chan c).opn = .ready) (hraw : (s.chan c).compress = false)
    (hfmt : (s.chan c).format = .asciiTsc ∨ (s.chan c).format = .binaryTsc) :
    ¬ TscCloseDone tr s c ∧ (s.sink.chLogf c).isOpen = true ∧ (s.sink.chLogf c).closes = 0 ∧
      s.numBufCh = tally Closure.bufs s.nextChannel
        (Function.update s.chan c (.new .ascii false .fresh)) + 1 := by
  have hreach : Reached sq anyStep s := hr.reach
  have htsc : (s.chan c).format.isTsc = true := by
    obtain h | h := hfmt <;> simp [h, LogFormat.isTsc]
  have hopen := hreach.tscFileOpen c hready hraw htsc
  exact ⟨not_tscCloseDone hr hready hraw htsc, hopen.1, hopen.2, hreach.tsc_counted hready htsc⟩

/-- An ASCII_TSC channel is opened, two records are logged and the channel is
closed; the I/O thread finds nothing to do. -/
def tscRun : List Label :=
  [.openChannel .asciiTsc false, .openStep 0, .openStep 0, .openStep 0, .openStep 0, .openStep 0,
    .openStep 0, .finishOpen 0 true fun _ _ => ⟨0, 0, 0, 0, 0, 0⟩, .logTS 0 ⟨7, 1, 2, 3, 4, 0⟩,
    .logTS 0 ⟨8, 1, 2, 5, 4, 0⟩, .logStep 0, .logStep 0, .closeChannel 0, .io 0, .io 0, .io 0,
    .io 0, .io 0]

/-- The run above, up to where the I/O thread is idle. -/
theorem tscRun_idle : ∃ tr s, Trace (step copySquash) State.init anyStep tr s ∧
    (s.chan 0).opn = .ready ∧ (s.chan 0).compress = false ∧ (s.chan 0).format = .asciiTsc ∧
    (s.chan 0).handlerF = .nullHandler ∧ IoIdle s := by
  have hrun : ∃ tr s, Trace (step copySquash) State.init anyStep tr s ∧
      (s.ioQueue.isEmpty && decide (s.ioCnt = 1 ∧ s.io 0 = .readCreated ∧
        (s.chan 0).opn = .ready ∧ (s.chan 0).compress = false ∧ (s.chan 0).format = .asciiTsc ∧
        (s.chan 0).handlerF = .nullHandler)) = true :=
    Trace.of_exec_any tscRun _ (by decide +kernel)
  obtain ⟨tr, s, hr, hs⟩ := hrun
  simp only [Bool.and_eq_true, List.isEmpty_iff, decide_eq_true_eq] at hs
  obtain ⟨hq, hcnt, hio, hready, hraw, hfmt, hnull⟩ := hs
  refine ⟨tr, s, hr, hready, hraw, hfmt, hnull, hq, fun t => ?_⟩
  by_cases ht : t = 0
  · simp [ht, hio, IoPc.hand]
  · rw [((Reached.wf hr.reach).io t).mpr (by omega)]
    rfl

theorem tsc_close_never_done_two_records :
    ∃ tr s, Trace (step copySquash) State.init anyStep tr s ∧
      (s.chan 0).handlerF = .nullHandler ∧ ¬ TscCloseDone tr s 0 := by
  obtain ⟨tr, s, hr, hready, hraw, hfmt, hnull, -⟩ := tscRun_idle
  exact ⟨tr, s, hr, hnull, (tsc_close_never_done hr hready hraw (.inl hfmt)).1⟩

/-- It is not the case that closing a TSC channel is done once the I/O thread
is idle. -/
theorem tsc_close_not_done :
    ¬ ∀ (tr : List (State × Label)) (s : State) (c : Nat),
      Trace (step copySquash) State.init anyStep tr s → (s.chan c).opn = .ready →
      (s.chan c).compress = false →
      (s.chan c).format = .asciiTsc ∨ (s.chan c).format = .binaryTsc →
      (s.chan c).handlerF = .nullHandler → IoIdle s → TscCloseDone tr s c := by
  intro hall
  obtain ⟨tr, s, hr, hready, hraw, hfmt, hnull, hidle⟩ := tscRun_idle
  exact not_tscCloseDone hr hready hraw (by simp [hfmt, LogFormat.isTsc])
    (hall tr s 0 hr hready hraw (.inl hfmt) hnull hidle)

end

end CloudProfiler
