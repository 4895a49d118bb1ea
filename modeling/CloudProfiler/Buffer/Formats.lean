import CloudProfiler.Buffer.Refine

/-!
# CloudProfiler.Buffer.Formats

Which handler goes with which log format.

The caller, or the configuration server, picks the handler and the format of
a channel independently.  `initIdentityHandler` sets no handler for a
compressed format, `initBufferIdentityHandler` no writer, and neither looks
at the format before it compresses.

* `Unbuffered` — an IDENTITY channel from `openChannel` to `closeChannel`;
* `Channels.step` — IDENTITY channels beside the buffered ones;
* `Fitting` — the handler and the format of each channel that is opened fit;
* `handlers_set` — then no function pointer is called that was never set.
-/

namespace CloudProfiler

/-- The formats of compressed logs. -/
def LogFormat.isCompressed : LogFormat → Bool
  | .zstd | .zstdTsc | .lzo1x | .lzo1xTsc => true
  | .ascii | .asciiTsc | .binary | .binaryTsc => false

/-- `closure::openChannel` knows all formats but LZO1X_TSC. -/
def LogFormat.opens (f : LogFormat) : Bool := f != .lzo1xTsc

/-! ## IDENTITY channels -/

/-- An IDENTITY channel.  `ready` says that `openChannel` returned it and not
a defect channel, `null` that `handler_f` was replaced by `NullHandler`. -/
structure Unbuffered where
  cl : IdClosure
  ready : Bool
  null : Bool
  deriving DecidableEq, Repr

namespace Unbuffered

/-- `openChannel`; `ok` is whether the file system lets the file be opened. -/
def openChannel (f : LogFormat) (ok : Bool) : Unbuffered where
  cl := { initIdentityHandler f with chLogf := if ok && f.opens then .opened else .unopened }
  ready := ok && f.opens
  null := false

/-- `closure::closeChannel`. -/
def closeChannel (ch : Unbuffered) : Unbuffered where
  cl := { ch.cl with chLogf := if ch.cl.chLogf.isOpen then ch.cl.chLogf.close else ch.cl.chLogf }
  ready := ch.ready
  null := true

/-- `logTS`; there is no result if a function pointer is called that was
never set. -/
def logTS (ch : Unbuffered) (d : LogData) : Option Unbuffered :=
  if d.tuple = -1 then some ch.closeChannel
  else if ch.null then some ch
  else (ch.cl.logTS d).map fun cl => { ch with cl := cl }

end Unbuffered

/-! ## IDENTITY channels beside the buffered ones -/

/-- The buffered channels, with their threads, and the IDENTITY channels.
`unset` says that `logTS` called a handler that was never set. -/
structure Channels where
  buffered : State
  unbuffered : Nat → Option Unbuffered
  unset : Bool

namespace Channels

/-- Program start. -/
def init : Channels := ⟨.init, fun _ => none, false⟩

/-- The process runs. -/
def running (s : Channels) : Bool := !(s.unset || s.buffered.fault || s.buffered.exited)

/-- Replace IDENTITY channel `c`. -/
def setUnbuffered (s : Channels) (c : Nat) (ch : Unbuffered) : Channels :=
  { s with unbuffered := Function.update s.unbuffered c (some ch) }

/-- Who takes the next step. -/
inductive Act
  /-- a step of the buffered channels and their threads -/
  | buffered (l : Label)
  /-- `openChannel` with handler IDENTITY -/
  | openChannel (f : LogFormat) (ok : Bool)
  | logTS (c : Nat) (d : LogData)
  /-- `closeChannel`, by the application or by `closeAllChannels` -/
  | closeChannel (c : Nat)

/-- One step. -/
def step (sq : Squash) (s : Channels) (a : Act) : Option Channels :=
  if s.running then
    match a with
    | .buffered l => (CloudProfiler.step sq s.buffered l).map fun b => { s with buffered := b }
    | .openChannel f ok =>
        (CloudProfiler.step sq s.buffered .openOther).map fun b =>
          { s.setUnbuffered s.buffered.nextChannel (.openChannel f ok) with buffered := b }
    | .logTS c d =>
        (s.unbuffered c).bind fun ch =>
          if ch.ready then
            match ch.logTS d with
            | some ch => some (s.setUnbuffered c ch)
            | none => some { s with unset := true }
          else none
    | .closeChannel c => (s.unbuffered c).map fun ch => s.setUnbuffered c ch.closeChannel
  else none

end Channels

/-! ## what fits -/

/-- `finishOpen` opens the file of a channel only if it has a compressed
format exactly when it compresses. -/
def FittingBuffered (s : State) : Label → Prop
  | .finishOpen c ok _ =>
      (ok && (s.chan c).format.opens) = true → (s.chan c).compress = (s.chan c).format.isCompressed
  | _ => True

instance : DecidableRel FittingBuffered
  | s, .finishOpen c ok _ => inferInstanceAs (Decidable ((ok && (s.chan c).format.opens) = true → _))
  | _, .openChannel .. | _, .openOther | _, .openStep _ | _, .logTS .. | _, .logStep _
  | _, .closeChannel _ | _, .closeStep _ | _, .io _ | _, .comp _ | _, .atExit | _, .signal
  | _, .exitStep => .isTrue trivial

/-- **The handler fits the format** of each channel whose file is opened:
IDENTITY and BUFFER_IDENTITY have a format without compression,
BUFFER_IDENTITY_COMP has one with. -/
def Fitting (s : Channels) : Channels.Act → Prop
  | .buffered l => FittingBuffered s.buffered l
  | .openChannel f ok => (ok && f.opens) = true → f.isCompressed = false
  | _ => True

instance : DecidableRel Fitting
  | s, .buffered l => inferInstanceAs (Decidable (FittingBuffered s.buffered l))
  | _, .openChannel f ok => inferInstanceAs (Decidable ((ok && f.opens) = true → _))
  | _, .logTS .. | _, .closeChannel _ => .isTrue trivial

/-- No missing handler is used. -/
structure HandlersSet (s : Channels) : Prop where
  /-- `logTS` has not called a handler that was never set. -/
  logTS : s.unset = false
  /-- The I/O thread does not call a writer that was never set. -/
  write : ∀ t m p, s.buffered.io t = .write m p → ((s.buffered.chan p.ch).blocks p.k).blockIdx ≠ 0 →
    (s.buffered.chan p.ch).writeHandlerF ≠ none
  /-- A compressed copy goes to a file with a compressed format. -/
  path : ∀ t m b q, s.buffered.io t = .pop m → s.buffered.ioQueue = .packed b :: q →
    (s.buffered.sink.chLogf b.ch).isOpen = true →
      (s.buffered.chan b.ch).format.isCompressed = true

/-! ## buffered channels -/

section Buffered

variable {sq : Squash} {s s' : State} {l : Label} {c : Nat}

theorem writeHandlerOf_ne_none {f : LogFormat} (h : f.isCompressed = false) :
    writeHandlerOf f ≠ none := by
  cases f <;> simp_all [LogFormat.isCompressed, writeHandlerOf]

/-- A channel whose handler and format fit. -/
structure FitsAt (s : State) (c : Nat) : Prop where
  fits : (s.chan c).opn = .ready → (s.chan c).compress = (s.chan c).format.isCompressed
  isOpen : (s.sink.chLogf c).isOpen = true → (s.chan c).opn = .ready

/-- Nothing is written on the blocks of a channel that is not ready. -/
def Closure.unused (ch : Closure) : Prop := ch.opn ≠ .ready → ∀ k, (ch.blocks k).blockIdx = 0

theorem Closure.unused.step {P : Prop} {ch ch' : Closure} (h : ch.unused) (hok : ch.Ok)
    (hs : ChanStep P ch ch') : ch'.unused := by
  have hlog := hok.logging
  cases hs <;>
    simp only [Closure.unused, Closure.setBlock, Closure.new, Closure.cur, BlockData.new] at * <;>
    grind [OpenPc.opening, Function.update_apply]

theorem Reached.unused {ok : State → Label → Prop} (hr : Reached sq ok s) (c : Nat) :
    (s.chan c).unused := by
  have h := hr.chan_invariant (I := fun ch => ch.Ok ∧ ch.unused) (P := fun _ => True) (c := c)
    ⟨Closure.ok_new, by simp [Closure.unused, Closure.new, BlockData.new]⟩
    (fun _ _ _ _ => trivial) fun _ _ h hs => ⟨h.1.step hs, h.2.step h.1 hs⟩
  exact h.2

/-- A compressed block is written to the file of its channel and closes it at
most. -/
theorem writePending_isOpen {n n' : Nat} {f f' : Ofstream} {q q' : List Packed}
    (h : writePending n f q = some (n', f', q')) (hopen : f'.isOpen = true) : f.isOpen = true := by
  induction q generalizing n f with
  | nil =>
      simp only [writePending, Option.some.injEq, Prod.mk.injEq] at h
      rw [h.2.1]
      exact hopen
  | cons t q ih =>
      simp only [writePending] at h
      split at h
      · obtain ⟨g, hg, h⟩ := Option.bind_eq_some_iff.mp h
        obtain ⟨n₁, -, h⟩ := Option.bind_eq_some_iff.mp h
        obtain ⟨bs, -, rfl⟩ := Option.map_eq_some_iff.mp hg
        have := ih h
        split at this
        · cases this
        · simpa using this
      · simp only [Option.some.injEq, Prod.mk.injEq] at h
        rw [h.2.1]
        exact hopen

theorem writeCompressedBlock_isOpen {k k' : Sink} {b : Packed}
    (h : writeCompressedBlock k b = some k') (hopen : (k'.chLogf c).isOpen = true) :
    (k.chLogf c).isOpen = true := by
  by_cases hc : c = b.ch
  · subst hc
    simp only [writeCompressedBlock] at h
    split at h
    · split at h
      · obtain ⟨g, hg, h⟩ := Option.bind_eq_some_iff.mp h
        obtain ⟨n₁, -, h⟩ := Option.bind_eq_some_iff.mp h
        obtain ⟨⟨n, f, q⟩, hp, rfl⟩ := Option.map_eq_some_iff.mp h
        obtain ⟨bs, -, rfl⟩ := Option.map_eq_some_iff.mp hg
        have hf : f.isOpen = true := by
          simp only [Function.update_self] at hopen
          split at hopen
          · cases hopen
          · exact hopen
        simpa using writePending_isOpen hp hf
      · simp only [Option.some.injEq] at h
        subst h
        exact hopen
    · cases h
  · rwa [(writeCompressedBlock_frame h hc).chLogf] at hopen

/-- **Step lemma** for the file: it is opened by `finishOpen` only. -/
theorem Move.isOpen (hm : Move sq s l s') (hl : ∀ ok mem, l ≠ .finishOpen c ok mem)
    (hopen : (s'.sink.chLogf c).isOpen = true) : (s.sink.chLogf c).isOpen = true := by
  cases hm with
  | finishOpen c' ok mem hopn =>
      have hc : c ≠ c' := fun hc => hl ok mem (by rw [hc])
      simpa [Function.update_of_ne hc] using hopen
  | openStep c' h | logStep c' h | closeStep c' h | comp t h | exitStep h => cases h <;> exact hopen
  | logTS c' d hopn hlog h =>
      cases h with
      | first hd hf =>
          by_cases hc : c = c'
          · subst hc
            simpa using hopen
          · simpa [Function.update_of_ne hc] using hopen
      | _ => exact hopen
  | io t h =>
      cases h with
      | popPacked m b q k ht hq hk => exact writeCompressedBlock_isOpen hk hopen
      | write m p ht hw =>
          by_cases hc : c = p.ch
          · subst hc
            simp only [Sink.setLogf, Function.update_self, writeRecords_eq] at hopen
            split at hopen
            · cases hopen
            · simpa using hopen
          · simpa [Function.update_of_ne hc] using hopen
      | _ => exact hopen
  | _ => exact hopen

/-- **Step lemma**: handlers and formats keep fitting. -/
theorem FitsAt.step (h : FitsAt s c) (hwf : Wf s) (hok : FittingBuffered s l)
    (hm : Move sq s l s') : FitsAt s' c := by
  by_cases hr : (s.chan c).opn = .ready
  · have hkind := (hm.chan hwf c).same_kind (by simp [hr])
    have hr' : (s'.chan c).opn = .ready := by
      have hs := hm.chan hwf c
      generalize s'.chan c = ch' at hs
      cases hs <;> simp_all [OpenPc.opening, Closure.setBlock]
    refine ⟨fun _ => ?_, fun _ => hr'⟩
    rw [hkind.1, hkind.2.1]
    exact h.fits hr
  · by_cases hl : ∃ ok mem, l = .finishOpen c ok mem
    · obtain ⟨ok, mem, rfl⟩ := hl
      cases hm with
      | finishOpen _ _ _ hopn =>
      have hopens : (ok && (s.chan c).format != .lzo1xTsc) = (ok && (s.chan c).format.opens) := rfl
      have hfit := hok
      rw [FittingBuffered, ← hopens] at hfit
      constructor <;> simp only [State.setChan, Sink.setLogf, Function.update_self]
      · split
        · next hopened => exact fun _ => hfit hopened
        · simp
      · split <;> simp [Ofstream.unopened]
    · have hl' : ∀ ok mem, l ≠ .finishOpen c ok mem := fun ok mem he => hl ⟨ok, mem, he⟩
      have hr' : (s'.chan c).opn ≠ .ready := fun hready => hl (hm.finish_of_ready hwf hr hready)
      exact ⟨fun hready => absurd hready hr', fun hopen => absurd (h.isOpen (hm.isOpen hl' hopen)) hr⟩

/-- **Run lemma**. -/
theorem Reached.fitsAt (hr : Reached sq FittingBuffered s) (c : Nat) : FitsAt s c := by
  refine hr.invariant_of (I := fun s => FitsAt s c) (fun _ => Reached.wf) ?_ ?_
  · constructor <;> simp [State.init, Closure.new, Sink.init, Ofstream.unopened]
  · intro s l s' hwf h hok hs
    exact h.step hwf hok (step_move hs).2

end Buffered

/-! ## IDENTITY channels -/

section Unbuffered

/-- An IDENTITY channel that can be logged to has its handler and writer. -/
def Unbuffered.Set (ch : Unbuffered) : Prop :=
  ch.ready = true → ch.cl.handlerF.isSome = true ∧ ch.cl.writeHandlerF.isSome = true

theorem Unbuffered.Set.openChannel {f : LogFormat} {ok : Bool}
    (h : (ok && f.opens) = true → f.isCompressed = false) : (Unbuffered.openChannel f ok).Set := by
  intro hready
  have hf := h hready
  cases f <;> simp_all [LogFormat.isCompressed, Unbuffered.openChannel, initIdentityHandler]

/-- **Step lemma**: `logTS` calls what is set, and keeps it set. -/
theorem Unbuffered.Set.logTS {ch : Unbuffered} (h : ch.Set) (hready : ch.ready = true) (d : LogData) :
    ∃ ch', ch.logTS d = some ch' ∧ ch'.Set := by
  obtain ⟨hh, hw⟩ := h hready
  obtain ⟨w, hw⟩ := Option.isSome_iff_exists.mp hw
  rw [Unbuffered.logTS]
  split
  · exact ⟨_, rfl, h⟩
  · split
    · exact ⟨ch, rfl, h⟩
    · have hcl : ∃ cl, ch.cl.logTS d = some cl ∧ cl.handlerF = ch.cl.handlerF ∧
          cl.writeHandlerF.isSome = true := by
        rw [IdClosure.logTS]
        split
        · simp [identityHandler, IdClosure.callWriteHandler, hw]
        · rw [identityHandlerTsc]
          split <;> simp [IdClosure.callWriteHandler, hw]
          split <;> rfl
        · next hnone => simp [hnone] at hh
      obtain ⟨cl, hcl, hsame, hw'⟩ := hcl
      refine ⟨_, by rw [hcl, Option.map_some], fun _ => ⟨?_, hw'⟩⟩
      rw [hsame]
      exact hh

end Unbuffered

/-! ## runs -/

namespace Channels

variable {sq : Squash} {s s' : Channels} {a : Act}

/-- A step of the system is a step of the buffered channels or leaves them
alone. -/
theorem buffered_step (hok : Fitting s a) (hs : step sq s a = some s') :
    s'.buffered = s.buffered ∨ ∃ l, FittingBuffered s.buffered l ∧
      CloudProfiler.step sq s.buffered l = some s'.buffered := by
  simp only [step] at hs
  split at hs
  · cases a with
    | buffered l =>
        obtain ⟨b, hb, rfl⟩ := Option.map_eq_some_iff.mp hs
        exact .inr ⟨l, hok, hb⟩
    | openChannel f ok =>
        obtain ⟨b, hb, rfl⟩ := Option.map_eq_some_iff.mp hs
        exact .inr ⟨.openOther, trivial, hb⟩
    | logTS c d =>
        obtain ⟨ch, -, hs⟩ := Option.bind_eq_some_iff.mp hs
        split at hs
        · split at hs <;> cases hs <;> exact .inl rfl
        · cases hs
    | closeChannel c =>
        obtain ⟨ch, -, rfl⟩ := Option.map_eq_some_iff.mp hs
        exact .inl rfl
  · cases hs

theorem reach_buffered (hr : Reach (step sq) init Fitting s) :
    Reached sq FittingBuffered s.buffered := by
  refine hr.invariant (I := fun s => Reached sq FittingBuffered s.buffered) .init ?_
  intro s a s' h hok hs
  obtain he | ⟨l, hl, hb⟩ := buffered_step hok hs
  · rwa [he]
  · exact .step h hl hb

/-- The IDENTITY channels have what `logTS` calls. -/
def AllSet (s : Channels) : Prop :=
  s.unset = false ∧ ∀ c ch, s.unbuffered c = some ch → ch.Set

theorem AllSet.set (h : AllSet s) {c : Nat} {ch : Unbuffered} (hset : ch.Set) :
    AllSet (s.setUnbuffered c ch) := by
  refine ⟨h.1, fun c' ch' hch => ?_⟩
  by_cases hc : c' = c
  · subst hc
    simp only [setUnbuffered, Function.update_self, Option.some.injEq] at hch
    rwa [← hch]
  · exact h.2 c' ch' (by simpa [setUnbuffered, Function.update_of_ne hc] using hch)

theorem AllSet.step (h : AllSet s) (hok : Fitting s a) (hs : step sq s a = some s') :
    AllSet s' := by
  simp only [Channels.step] at hs
  split at hs
  · cases a with
    | buffered l =>
        obtain ⟨b, -, rfl⟩ := Option.map_eq_some_iff.mp hs
        exact h
    | openChannel f ok =>
        obtain ⟨b, -, rfl⟩ := Option.map_eq_some_iff.mp hs
        exact h.set (.openChannel hok)
    | logTS c d =>
        obtain ⟨ch, hch, hs⟩ := Option.bind_eq_some_iff.mp hs
        split at hs
        · next hready =>
          obtain ⟨ch', hlog, hset⟩ := (h.2 c ch hch).logTS hready d
          simp only [hlog, Option.some.injEq] at hs
          subst hs
          exact h.set hset
        · cases hs
    | closeChannel c =>
        obtain ⟨ch, hch, rfl⟩ := Option.map_eq_some_iff.mp hs
        exact h.set (h.2 c ch hch)
  · cases hs

/-- **No function pointer is called that was never set**, and no compressed
block gets into a file that is not compressed, in all runs in which the
handler fits the format. -/
theorem handlers_set (hr : Reach (step sq) init Fitting s) : HandlersSet s := by
  have hb := reach_buffered hr
  have hall : AllSet s :=
    hr.invariant ⟨rfl, fun _ _ h => by cases h⟩ fun _ _ _ h hok hs => h.step hok hs
  refine ⟨hall.1, fun t m p hpc hidx => ?_, fun t m b q _ hq hopen => ?_⟩
  · have hready : (s.buffered.chan p.ch).opn = .ready := by
      by_contra hne
      exact hidx (hb.unused p.ch hne p.k)
    have hraw : (s.buffered.chan p.ch).compress = false := by
      have := hb.routed.io t
      rw [hpc] at this
      exact this.2
    have hfit := (hb.fitsAt p.ch).fits hready
    rw [(hb.chanOk p.ch).writer]
    exact writeHandlerOf_ne_none (by rw [← hfit, hraw])
  · have hready := (hb.fitsAt b.ch).isOpen hopen
    have hcomp : (s.buffered.chan b.ch).compress = true :=
      (hb.routed.ioQueue (.packed b) (by simp [hq])).2
    rw [← (hb.fitsAt b.ch).fits hready, hcomp]

/-- The steps of the thread that opens buffered channel 0 and logs a record to
it, closes it and so enqueues its block; `n` is the number of steps
`initBufferIdentityHandler` takes. -/
def oneRecord (f : LogFormat) (compress : Bool) (n : Nat) : List Act :=
  List.map .buffered <|
    [Label.openChannel f compress] ++ List.replicate n (.openStep 0) ++
      [.openStep 0, .finishOpen 0 true fun _ _ => ⟨0, 0, 0, 0, 0, 0⟩, .logTS 0 ⟨7, 1, 2, 3, 4, 0⟩, .logStep 0,
        .logStep 0, .closeChannel 0, .closeStep 0, .closeStep 0]

/-- A channel of type BUFFER_IDENTITY_COMP and format ZSTD and an IDENTITY
channel of format ASCII. -/
theorem handlers_set_compressed : ∃ s, Reach (step copySquash) init Fitting s ∧
    s.buffered.ioQueue.length = 1 ∧ (s.unbuffered 1).isSome = true ∧ HandlersSet s := by
  obtain ⟨s, hr, hs⟩ : ∃ s, Reach (step copySquash) init Fitting s ∧
      decide (s.buffered.ioQueue.length = 1 ∧ (s.unbuffered 1).isSome = true) = true :=
    Reach.of_exec_any (oneRecord .zstd true 10 ++ List.replicate 6 (.buffered (.comp 0)) ++
      [.openChannel .ascii true, .logTS 1 ⟨7, 1, 2, 3, 4, 0⟩, .closeChannel 1]) _ (by decide +kernel)
  obtain ⟨hq, hsome⟩ := of_decide_eq_true hs
  exact ⟨s, hr, hq, hsome, handlers_set hr⟩

/-- A compressed block of channel `c`. -/
def IoBlock.isPackedOf (c : Nat) : IoBlock → Bool
  | .raw _ => false
  | .packed b => b.ch == c

/-- An IDENTITY channel of format ZSTD has no handler, a BUFFER_IDENTITY
channel of format ZSTD no writer, and a BUFFER_IDENTITY_COMP channel of
format ASCII gets compressed blocks into its file. -/
theorem handlers_not_set :
    (∃ s, Reach (step copySquash) init anyStep s ∧ s.unset = true) ∧
    (∃ s, Reach (step copySquash) init anyStep s ∧ s.buffered.io 0 = .write .main ⟨0, 0⟩ ∧
      ((s.buffered.chan 0).blocks 0).blockIdx = 1 ∧ (s.buffered.chan 0).writeHandlerF = none) ∧
    ∃ s, Reach (step copySquash) init anyStep s ∧ s.buffered.io 0 = .pop .main ∧
      (∃ b q, b.ch = 0 ∧ s.buffered.ioQueue = .packed b :: q) ∧
      (s.buffered.sink.chLogf 0).isOpen = true ∧ (s.buffered.chan 0).format = .ascii := by
  refine ⟨?_, ?_, ?_⟩
  · exact Reach.of_exec_any [.openChannel .zstd true, .logTS 0 ⟨7, 1, 2, 3, 4, 0⟩] _
      (by decide +kernel)
  · have hrun : ∃ s, Reach (step copySquash) init anyStep s ∧
        decide (s.buffered.io 0 = .write .main ⟨0, 0⟩ ∧
          ((s.buffered.chan 0).blocks 0).blockIdx = 1 ∧
          (s.buffered.chan 0).writeHandlerF = none) = true :=
      Reach.of_exec_any (oneRecord .zstd false 5 ++ List.replicate 5 (.buffered (.io 0))) _
        (by decide +kernel)
    obtain ⟨s, hr, hs⟩ := hrun
    exact ⟨s, hr, of_decide_eq_true hs⟩
  · have hrun : ∃ s, Reach (step copySquash) init anyStep s ∧
        (decide (s.buffered.io 0 = .pop .main ∧
            (s.buffered.sink.chLogf 0).isOpen = true ∧ (s.buffered.chan 0).format = .ascii) &&
          s.buffered.ioQueue.head?.any (IoBlock.isPackedOf 0)) = true :=
      Reach.of_exec_any (oneRecord .ascii true 10 ++ List.replicate 6 (.buffered (.comp 0)) ++
        List.replicate 3 (.buffered (.io 0))) _ (by decide +kernel)
    obtain ⟨s, hr, hs⟩ := hrun
    simp only [Bool.and_eq_true, decide_eq_true_eq] at hs
    obtain ⟨⟨hpc, hopen, hfmt⟩, hq⟩ := hs
    refine ⟨s, hr, hpc, ?_, hopen, hfmt⟩
    obtain ⟨m, hm, hpacked⟩ := (Option.any_eq_true _ _).mp hq
    obtain ⟨q, hqueue⟩ := List.head?_eq_some_iff.mp hm
    cases m with
    | raw p => cases hpacked
    | packed b => exact ⟨b, q, by simpa [IoBlock.isPackedOf] using hpacked, hqueue⟩

end Channels

end CloudProfiler
