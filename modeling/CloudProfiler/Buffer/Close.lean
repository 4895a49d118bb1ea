import CloudProfiler.Buffer.Defined
import CloudProfiler.Buffer.Deliver

/-!
# CloudProfiler.Buffer.Close

Closing a channel whose logging thread may be inside `logTS`.

`closeChannel` exchanges `handler_f` and goes on to enqueue the current
block; the waiting period that would let a `logTS` call in progress finish is
commented out.  The exchange is harmless in two places only: between two
calls, and when all the call in progress has left to do is to test a block
that is not full (`Closure.AtRest`).

The second place is reduced to the first.  The test reads a block nobody
writes on any more, so it can be moved in front of the exchange:

* `step_unlog` — every other step commutes with the end of the call;
* `Reached.settle` — a run closed at rest ends in the same state, up to the
  late test, as a run closed between two calls;
* `closed_at_rest` — what holds of such runs;
* `closed_while_writing` — and of a run closed elsewhere it does not hold.
-/

namespace CloudProfiler

/-! ## the late test -/

/-- No record is on its way into a block: the logging thread is outside
`logTS`, or about to find the block not full. -/
def Closure.AtRest (ch : Closure) : Prop :=
  ch.log = .idle ∨ ch.log = .full ∧ ch.cur.checkBlockIsFull = false

instance (ch : Closure) : Decidable ch.AtRest := inferInstanceAs (Decidable (_ ∨ _))

/-- `handler_f` of channel `c` is exchanged only while no record is on its
way into a block, the copies of the channel's blocks find a free node in
`io_queue`, and `block_cnt` is not incremented beyond `INT_MAX`. -/
def ClosedAtRest (c : Nat) (s : State) (l : Label) : Prop :=
  (closesNow s l = some c → (s.chan c).AtRest) ∧ FindsRoom c s l ∧ IdsLeft s l

instance (c : Nat) : DecidableRel (ClosedAtRest c) := fun s l =>
  inferInstanceAs (Decidable
    ((closesNow s l = some c → (s.chan c).AtRest) ∧ FindsRoom c s l ∧ IdsLeft s l))

/-- The logging thread of channel `c` is done with its call. -/
def State.unlog (s : State) (c : Nat) : State := s.setChan c { s.chan c with log := .idle }

/-- The late test of channel `c` has been made. -/
def State.settle (s : State) (c : Nat) : State :=
  if (s.chan c).handlerF = .nullHandler ∧ (s.chan c).log = .full then s.unlog c else s

section Commute

variable {sq : Squash} {s s' : State} {l : Label} {c c' t : Nat}

theorem openStep_unlog (h : OpenMove s c' s') :
    openStep (s.unlog c) c' = some (s'.unlog c) ∧ (s'.chan c).log = (s.chan c).log ∧
      (s'.chan c).handlerF = (s.chan c).handlerF := by
  by_cases hc : c' = c
  · subst hc
    cases h <;> simp [openStep, State.unlog, *]
  · cases h <;>
      simp [openStep, State.unlog, Function.update_of_ne (Ne.symm hc), Function.update_comm hc, *]

theorem logStep_unlog (hc : c' ≠ c) (h : LogMove s c' s') :
    logStep (s.unlog c) c' = some (s'.unlog c) ∧ s'.chan c = s.chan c := by
  cases h <;> simp [logStep, enqueueBlock, State.unlog, Function.update_of_ne (Ne.symm hc),
    Function.update_comm hc, *]

theorem logCall_unlog {d : LogData} (hc : c' ≠ c) (hopn : (s.chan c').opn = .ready)
    (hlog : (s.chan c').log = .idle) (h : CallMove s c' d s') :
    logCall (s.unlog c) c' d = some (s'.unlog c) ∧ s'.chan c = s.chan c := by
  cases h <;> simp [logCall, callClose, State.unlog, Function.update_of_ne (Ne.symm hc),
    Function.update_comm hc, *]

theorem callClose_unlog : callClose (s.unlog c) c' = (callClose s c').unlog c ∧
    ((callClose s c').chan c).log = (s.chan c).log := by
  by_cases hc : c' = c
  · subst hc
    simp [callClose, State.unlog]
  · simp [callClose, State.unlog, Function.update_of_ne (Ne.symm hc), Function.update_comm hc, hc]

theorem closeStep_unlog (h : CloseMove s c' s') :
    closeStep (s.unlog c) c' = some (s'.unlog c) ∧ (s'.chan c).log = (s.chan c).log := by
  by_cases hc : c' = c
  · subst hc
    cases h <;> simp [closeStep, enqueueBlock, State.unlog, Closure.cur, *]
  · cases h <;> simp [closeStep, enqueueBlock, State.unlog, Function.update_of_ne (Ne.symm hc),
      Function.update_comm hc, *]

theorem writeUncompressedBlock_unlog (p : Ptr) :
    writeUncompressedBlock (s.unlog c) p = (writeUncompressedBlock s p).map (·.unlog c) := by
  have hb : ((s.unlog c).chan p.ch).blocks = (s.chan p.ch).blocks ∧
      ((s.unlog c).chan p.ch).writeHandlerF = (s.chan p.ch).writeHandlerF := by
    by_cases hc : p.ch = c <;> simp [State.unlog, hc]
  simp only [writeUncompressedBlock, hb]
  split
  · rfl
  · by_cases hc : p.ch = c
    · subst hc
      simp [State.unlog]
    · simp [State.unlog, Function.update_of_ne hc, Function.update_of_ne (Ne.symm hc),
        Function.update_comm hc]

theorem sendBackBlock_unlog (p : Ptr) :
    sendBackBlock (s.unlog c) p = (sendBackBlock s p).map (·.unlog c) := by
  have hb : ((s.unlog c).chan p.ch).queue = (s.chan p.ch).queue := by
    by_cases hc : p.ch = c <;> simp [State.unlog, hc]
  simp only [sendBackBlock, hb]
  split
  · by_cases hc : p.ch = c
    · subst hc
      simp [State.unlog]
    · simp [State.unlog, Function.update_of_ne hc, Function.update_of_ne (Ne.symm hc),
        Function.update_comm hc]
  · rfl

theorem ioStep_unlog : ioStep (s.unlog c) t = (ioStep s t).map (·.unlog c) := by
  have hio : (s.unlog c).io = s.io := rfl
  have hioq : (s.unlog c).ioQueue = s.ioQueue := rfl
  have hsink : (s.unlog c).sink = s.sink := rfl
  cases hpc : s.io t with
  | pop m =>
      simp only [ioStep, hio, hpc, hioq, hsink]
      cases s.ioQueue with
      | nil =>
          cases m with
          | main => rfl
          | flush q => cases q <;> rfl
      | cons x q =>
          cases x with
          | raw p => rfl
          | packed b =>
              dsimp only
              cases writeCompressedBlock s.sink b <;> rfl
  | write m p =>
      simp only [ioStep, hio, hpc, writeUncompressedBlock_unlog]
      cases writeUncompressedBlock s p <;> rfl
  | send m p =>
      simp only [ioStep, hio, hpc, sendBackBlock_unlog, Option.map_map]
      rfl
  | _ =>
      simp only [ioStep, hio, hpc]
      rfl

theorem compStep_unlog : compStep sq (s.unlog c) t = (compStep sq s t).map (·.unlog c) := by
  have hcomp : (s.unlog c).comp = s.comp := rfl
  have hcq : (s.unlog c).compressionQueue = s.compressionQueue := rfl
  have hioq : (s.unlog c).ioQueue = s.ioQueue := rfl
  cases hpc : s.comp t with
  | pop d =>
      simp only [compStep, hcomp, hpc, hcq]
      cases s.compressionQueue <;> rfl
  | work d p =>
      by_cases hc : p.ch = c
      · subst hc
        simp [compStep, State.unlog, hpc]
      · simp [compStep, State.unlog, hpc, Function.update_of_ne hc,
          Function.update_of_ne (Ne.symm hc), Function.update_comm hc]
  | send d p b =>
      simp only [compStep, hcomp, hpc, sendBackBlock_unlog, Option.map_map]
      rfl
  | push d b =>
      simp only [compStep, hcomp, hpc, hioq]
      split <;> rfl
  | _ =>
      simp only [compStep, hcomp, hpc]
      rfl

theorem exitStep_unlog (h : ExitMove s s') :
    exitStep (s.unlog c) = some (s'.unlog c) ∧ (s'.chan c).log = (s.chan c).log := by
  cases h with
  | goto hpc hg =>
      cases hg with
      | returned m i c' hi hd =>
          have hd' : ((s.unlog c).chan c').close = .done := by
            by_cases hc : c' = c <;> simp_all [State.unlog]
          simp_all [exitStep, State.unlog]
      | _ => simp [exitStep, State.unlog, *]
  | close m i c' hpc hi hopn | closeFault m i c' hpc hi hopn =>
      by_cases hc : c' = c
      · subst hc
        simp [exitStep, callClose, State.unlog, *]
      · simp [exitStep, callClose, State.unlog, Function.update_of_ne (Ne.symm hc),
          Function.update_comm hc, *]
  | _ => simp [exitStep, State.unlog, *]

theorem log_update {f : Nat → Closure} {ch : Closure} {pc : LogPc} (hlog : (f c).log = pc)
    (h : c = c' → ch.log = (f c').log) : (Function.update f c' ch c).log = pc := by
  by_cases hc : c = c'
  · rw [hc, Function.update_self, h hc, ← hc, hlog]
  · rw [Function.update_of_ne hc, hlog]

/-- **Commutation**: a step that is not one of the logging thread of channel
`c`, which stands at its test, neither sees nor moves that thread. -/
theorem step_unlog (hwf : Wf s) (hok : (s.chan c).Ok) (hlog : (s.chan c).log = .full)
    (hl : l ≠ .logStep c) (h : step sq s l = some s') :
    step sq (s.unlog c) l = some (s'.unlog c) ∧ (s'.chan c).log = .full := by
  obtain ⟨⟨hf, he⟩, hm⟩ := step_move h
  have hlive : ((s.unlog c).fault || (s.unlog c).exited) = false := by
    simp [State.unlog, hf, he]
  have hfull : s'.chan c = s.chan c → (s'.chan c).log = .full := fun heq => by rw [heq, hlog]
  have hnew : s.nextChannel ≠ c := fun hc => by
    have := hok.logging (by simp [hlog])
    simp [hwf.fresh c (Nat.le_of_eq hc)] at this
  simp only [step, hlive, Bool.false_eq_true, if_false]
  cases hm with
  | openChannel f compress =>
      simp [State.unlog, Ne.symm hnew, hlog, Function.update_comm hnew]
  | openOther => exact ⟨rfl, hlog⟩
  | openStep c' h' => exact ⟨(openStep_unlog h').1, (openStep_unlog h').2.1.trans hlog⟩
  | finishOpen c' ok mem hopn =>
      have hc : c' ≠ c := by
        rintro rfl
        simp [hok.logging (by simp [hlog])] at hopn
      simp [finishOpen, State.unlog, Function.update_of_ne (Ne.symm hc), Function.update_comm hc,
        hc, hopn, hlog]
  | logTS c' d hopn hidle h' =>
      have hc : c' ≠ c := by
        rintro rfl
        simp [hlog] at hidle
      exact ⟨(logCall_unlog hc hopn hidle h').1, hfull (logCall_unlog hc hopn hidle h').2⟩
  | logStep c' h' =>
      have hc : c' ≠ c := fun hc => hl (by rw [hc])
      exact ⟨(logStep_unlog hc h').1, hfull (logStep_unlog hc h').2⟩
  | closeChannel c' hopn =>
      have hopn' : ((s.unlog c).chan c').opn = .ready := by
        by_cases hc : c' = c <;> simp_all [State.unlog]
      dsimp only
      rw [if_pos hopn', callClose_unlog.1]
      exact ⟨rfl, callClose_unlog.2.trans hlog⟩
  | closeStep c' h' => exact ⟨(closeStep_unlog h').1, (closeStep_unlog h').2.trans hlog⟩
  | io t h' =>
      have hs : ioStep s t = some s' := by simpa [step, hf, he] using h
      dsimp only
      rw [ioStep_unlog, hs]
      refine ⟨rfl, ?_⟩
      cases h' with
      | write m p | send m p => exact log_update hlog fun _ => rfl
      | _ => exact hlog
  | comp t h' =>
      have hs : compStep sq s t = some s' := by simpa [step, hf, he] using h
      dsimp only
      rw [compStep_unlog, hs]
      refine ⟨rfl, ?_⟩
      cases h' with
      | work d p | send d p b => exact log_update hlog fun _ => rfl
      | _ => exact hlog
  | atExit hx | signal hx => simp_all [State.unlog]
  | exitStep h' => exact ⟨(exitStep_unlog h').1, (exitStep_unlog h').2.trans hlog⟩

end Commute

/-! ## runs closed at rest are runs closed between two calls -/

section Settle

variable {sq : Squash} {s s' : State} {l : Label} {c : Nat}

/-- A channel that is being closed has no record on its way. -/
theorem Closure.AtRest.step {ch ch' : Closure} (hok : ch.Ok)
    (h : ch.handlerF = .nullHandler → ch.AtRest) (hs : ChanStep ch.AtRest ch ch')
    (hn : ch'.handlerF = .nullHandler) : ch'.AtRest := by
  have hunb := hok.unbuilt
  cases hs <;>
    simp only [Closure.AtRest, Closure.setBlock, Closure.cur, Closure.new, Closure.built,
      BlockData.checkBlockIsFull] at * <;>
    grind [handlerOf, OpenPc.opening, Function.update_apply, bufferBlockSize]

theorem Reached.atRest (hr : Reached sq (ClosedAtRest c) s)
    (hn : (s.chan c).handlerF = .nullHandler) : (s.chan c).AtRest := by
  have h := hr.chan_invariant (c := c) (P := Closure.AtRest)
    (I := fun ch => ch.Ok ∧ (ch.handlerF = .nullHandler → ch.AtRest))
    ⟨Closure.ok_new, by simp [Closure.new, handlerOf]⟩ (fun _ _ h => h.1)
    fun _ _ h hs => ⟨h.1.step hs, fun hn => Closure.AtRest.step h.1 h.2 hs hn⟩
  exact h.2 hn

theorem settle_of_late (h : (s.chan c).handlerF = .nullHandler ∧ (s.chan c).log = .full) :
    s.settle c = s.unlog c :=
  if_pos h

theorem settle_of_not_late (h : ¬ ((s.chan c).handlerF = .nullHandler ∧ (s.chan c).log = .full)) :
    s.settle c = s :=
  if_neg h

/-- Nobody waits for a free node less because of the late test. -/
theorem FindsRoom.unlog (h : FindsRoom c s l) : FindsRoom c (s.unlog c) l := by
  cases l <;> exact h

/-- The test of a block that is not full ends the call. -/
theorem step_test (hlive : s.fault = false ∧ s.exited = false) (hlog : (s.chan c).log = .full)
    (hfull : (s.chan c).cur.checkBlockIsFull = false) :
    step sq s (.logStep c) = some (s.unlog c) := by
  simp [step, hlive, logStep, hlog, hfull, State.unlog]

/-- A step that brings no late test about. -/
theorem not_late_step (hok : (s.chan c).Ok) (hrest : (s.chan c).handlerF = .nullHandler →
      (s.chan c).AtRest) (hno : ¬ ((s.chan c).handlerF = .nullHandler ∧ (s.chan c).log = .full))
    (hs : ChanStep ((s.chan c).log = .idle) (s.chan c) (s'.chan c)) :
    ¬ ((s'.chan c).handlerF = .nullHandler ∧ (s'.chan c).log = .full) := by
  have hunb := hok.unbuilt
  generalize s.chan c = ch, s'.chan c = ch' at *
  cases hs <;> simp only [Closure.AtRest, Closure.setBlock, Closure.new, Closure.built] at * <;>
    grind [handlerOf, OpenPc.opening]

/-- **Reduction**: a run in which channel `c` is closed at rest ends, up to
the late test, where a run ends in which it is closed between two calls. -/
theorem Reached.settle (hr : Reached sq (ClosedAtRest c) s) :
    Reached sq (Unclogged c) (s.settle c) := by
  induction hr with
  | init => exact .init
  | @step s s' l hr hg hs ih =>
      have hwf := Reached.wf hr
      have hok := Reached.chanOk hr c
      have hlive := (step_move hs).1
      have hn := (step_move hs).2.null_iff hwf hok (c := c)
      by_cases hlate : (s.chan c).handlerF = .nullHandler ∧ (s.chan c).log = .full
      · rw [settle_of_late hlate] at ih
        by_cases hl : l = .logStep c
        · -- the test itself, which the other run has made before
          have hfull := ((Reached.atRest hr hlate.1).resolve_left (by simp [hlate.2])).2
          rw [hl, step_test hlive hlate.2 hfull] at hs
          cases hs
          rwa [settle_of_not_late (by simp [State.unlog])]
        · obtain ⟨hs', hlog'⟩ := step_unlog hwf hok hlate.2 hl hs
          rw [settle_of_late ⟨hn.mpr (.inl hlate.1), hlog'⟩]
          exact ih.step ⟨fun _ => by simp [State.unlog], hg.2.1.unlog⟩ hs'
      · rw [settle_of_not_late hlate] at ih
        by_cases hidle : closesNow s l = some c → (s.chan c).log = .idle
        · rw [settle_of_not_late (not_late_step hok (Reached.atRest hr) hlate
            (((step_move hs).2.chan hwf c).mono hidle))]
          exact ih.step ⟨hidle, hg.2.1⟩ hs
        · -- the exchange in front of the test: the other run makes the test first
          rw [Classical.not_imp] at hidle
          obtain ⟨hlog, hfull⟩ := (hg.1 hidle.1).resolve_left hidle.2
          have hl : l ≠ .logStep c := fun he => by simp [he, closesNow] at hidle
          obtain ⟨hs', hlog'⟩ := step_unlog hwf hok hlog hl hs
          rw [settle_of_late ⟨hn.mpr (.inr hidle.1), hlog'⟩]
          have htest : Reached sq (Unclogged c) (s.unlog c) :=
            ih.step (l := .logStep c) ⟨by simp [OneThread, closesNow], trivial⟩
              (step_test hlive hlog hfull)
          exact htest.step ⟨fun _ => by simp [State.unlog], hg.2.1.unlog⟩ hs'

end Settle

/-! ## the blocks enqueued -/

/-- The step enqueues the current block of channel `c`. -/
def enqueuesNow (c : Nat) (s : State) : Label → Bool
  | .logStep c' => decide (c' = c ∧ (s.chan c).log = .enqueue)
  | .closeStep c' => decide (c' = c ∧ (s.chan c).close = .enqueue)
  | _ => false

/-- The ids of the blocks of channel `c` enqueued in a run, in order. -/
def enqueuedIds (c : Nat) (tr : List (State × Label)) : List Nat :=
  tr.filterMap fun x => if enqueuesNow c x.1 x.2 then some (x.1.chan c).cur.blockId else none

section Enqueued

variable {sq : Squash} {s s' : State} {l : Label} {c : Nat} {tr : List (State × Label)}

theorem sent_update {f : Nat → Closure} {c' : Nat} {ch : Closure}
    (h : c = c' → ch.sent = (f c').sent) : (Function.update f c' ch c).sent = (f c).sent := by
  by_cases hc : c = c'
  · rw [hc, Function.update_self, h hc]
  · rw [Function.update_of_ne hc]

/-- Who enqueues a block of the channel. -/
theorem Move.sent_length (hwf : Wf s) (hok : (s.chan c).Ok) (hm : Move sq s l s') :
    (s'.chan c).sent.length = (s.chan c).sent.length + (enqueuesNow c s l).toNat := by
  cases hm with
  | logStep c' h | closeStep c' h =>
      by_cases hc : c = c'
      · subst hc
        cases h <;> simp [enqueuesNow, *]
      · cases h <;> simp [enqueuesNow, hc, Ne.symm hc]
  | openChannel f compress =>
      refine congrArg List.length (sent_update fun hc => ?_)
      have hfresh := hwf.fresh c (Nat.le_of_eq hc.symm)
      rw [← hc, (hok.unbuilt (by simp [Closure.built, hfresh])).2.2.1]
      rfl
  | openStep c' h => cases h <;> exact congrArg List.length (sent_update fun _ => rfl)
  | logTS c' d hopn hlog h =>
      cases h with
      | null => rfl
      | _ => exact congrArg List.length (sent_update fun _ => rfl)
  | finishOpen | closeChannel => exact congrArg List.length (sent_update fun _ => rfl)
  | io t h =>
      cases h with
      | write | send => exact congrArg List.length (sent_update fun _ => rfl)
      | _ => rfl
  | comp t h =>
      cases h with
      | work | send => exact congrArg List.length (sent_update fun _ => rfl)
      | _ => rfl
  | exitStep h =>
      cases h with
      | close => exact congrArg List.length (sent_update fun _ => rfl)
      | _ => rfl
  | _ => rfl

/-- The settled state differs from the state in the logging thread only. -/
theorem settle_eq (s : State) (c : Nat) : ∃ pc,
    s.settle c = s.setChan c { s.chan c with log := pc } ∧
      (pc = (s.chan c).log ∨ pc = .idle ∧ (s.chan c).log = .full) := by
  by_cases hlate : (s.chan c).handlerF = .nullHandler ∧ (s.chan c).log = .full
  · exact ⟨.idle, settle_of_late hlate, .inr ⟨rfl, hlate.2⟩⟩
  · refine ⟨(s.chan c).log, ?_, .inl rfl⟩
    rw [settle_of_not_late hlate]
    simp

/-- The block enqueued has the number of blocks enqueued before as its id. -/
theorem Reached.enqueues_id (hr : Reached sq (ClosedAtRest c) s) (h : enqueuesNow c s l = true) :
    (s.chan c).cur.blockId = (s.chan c).sent.length := by
  have hok := Reached.chanOk hr c
  have hset := Reached.settle hr
  obtain ⟨pc, he, hpc⟩ := settle_eq s c
  rw [he] at hset
  obtain ⟨halone, htidy⟩ := Reached.alone_tidy (fun _ _ h => h.1) hset
  have hcur := htidy.curId
  simp only [State.setChan, Function.update_self, Closure.Alone, Closure.built, Closure.cur] at *
  cases l with
  | logStep c' =>
      obtain ⟨-, hlog⟩ := of_decide_eq_true h
      have hopn := hok.logging (by simp [hlog])
      grind
  | closeStep c' =>
      obtain ⟨-, hclose⟩ := of_decide_eq_true h
      have hb : (s.chan c).built := Classical.not_not.mp fun hb => by
        simpa [hclose] using (hok.unbuilt hb).2.1
      simp only [Closure.built] at hb
      grind
  | _ => simp [enqueuesNow] at h

/-- The ids of the blocks enqueued are `0, 1, 2, …`. -/
theorem enqueuedIds_eq (htr : Trace (step sq) State.init (ClosedAtRest c) tr s) :
    enqueuedIds c tr = List.range (s.chan c).sent.length := by
  induction htr with
  | init => rfl
  | @step tr s s' l htr hg hs ih =>
      have hr : Reached sq (ClosedAtRest c) s := htr.reach
      have hlen := (step_move hs).2.sent_length (Reached.wf hr) (Reached.chanOk hr c) (c := c)
      rw [hlen, enqueuedIds, List.filterMap_append]
      rw [enqueuedIds] at ih
      rw [ih]
      cases hq : enqueuesNow c s l with
      | true => simp [hq, Reached.enqueues_id hr hq, List.range_succ]
      | false => simp [hq]

end Enqueued

/-! ## closing -/

/-- What the closing of channel `c` must leave intact, in the state `s` that
the steps `tr` lead to. -/
structure ClosedSafely (sq : Squash) (c : Nat) (tr : List (State × Label)) (s : State) : Prop where
  /-- no block is queued twice -/
  once : ∀ k, s.compressionQueue.count ⟨c, k⟩ + s.ioQueue.count (.raw ⟨c, k⟩) ≤ 1
  /-- and no compressed copy of one -/
  copies : ∀ i, s.ioQueue.countP (IoBlock.carries c i) ≤ 1
  /-- a record is written on a block that is neither queued, nor with a
  worker thread, nor returned -/
  owned : ∀ tsc d, (s.chan c).log = .write tsc d →
    inFlight s ⟨c, (s.chan c).block⟩ = 0 ∧ (s.chan c).block ∉ (s.chan c).queue
  ids : (enqueuedIds c tr).Nodup
  /-- once `handler_f` is exchanged, the records of the calls before are in
  the blocks enqueued and in the open one, each once -/
  records : (∃ x ∈ tr, closesNow x.1 x.2 = some c) →
    calls c tr = (s.chan c).sent.flatten ++ (s.chan c).openRecords
  /-- the file holds the first blocks enqueued, each once and in order -/
  file : ∃ n, Arrives sq s c n
  /-- and when the closing block is enqueued and nothing is on its way, the
  file holds exactly those records -/
  complete : (s.chan c).closeSent → Quiet s c →
    (s.sink.chLogf c).content = (s.chan c).sent.flatMap ((s.chan c).blockBytes sq) ∧
      (s.chan c).sent.flatten = calls c tr

section Closing

variable {sq : Squash} {s : State} {c : Nat} {tr : List (State × Label)}

theorem owns_of_settled {pc : LogPc}
    (hpc : pc = (s.chan c).log ∨ pc = .idle ∧ (s.chan c).log = .full) :
    ({ s.chan c with log := pc } : Closure).owns ↔ (s.chan c).owns := by
  simp only [Closure.owns, Closure.built]
  grind

/-- A block of a channel closed at rest is in one place. -/
theorem Reached.inFlight_le (hr : Reached sq (ClosedAtRest c) s) (k : Nat) :
    inFlight s ⟨c, k⟩ ≤ 1 ∧ ∀ tsc d, (s.chan c).log = .write tsc d →
      inFlight s ⟨c, (s.chan c).block⟩ = 0 ∧ (s.chan c).block ∉ (s.chan c).queue := by
  have hok := Reached.chanOk hr c
  have hset := Reached.settle hr
  obtain ⟨pc, he, hpc⟩ := settle_eq s c
  rw [he] at hset
  have halone := (Reached.alone_tidy (fun _ _ h => h.1) hset).1
  have hpart := (Reached.partitioned (fun _ _ h => h.1) hset).1
  have hfl : ∀ p, inFlight (s.setChan c { s.chan c with log := pc }) p = inFlight s p := fun _ => rfl
  have hself : (s.setChan c { s.chan c with log := pc }).chan c = { s.chan c with log := pc } := by
    simp
  constructor
  · have hk := hpart k
    rw [occurrences, hfl] at hk
    have hone : (if ((s.setChan c { s.chan c with log := pc }).chan c).built ∧ k < numBufferBlock
        then 1 else 0) ≤ 1 := by split <;> omega
    omega
  · intro tsc d hlog
    have hown : ((s.setChan c { s.chan c with log := pc }).chan c).owns := by
      rw [hself] at halone ⊢
      rw [owns_of_settled hpc]
      have hidle : pc ≠ .idle := by grind
      exact ⟨.inl (hok.logging (by simp [hlog])), by simp [hlog],
        .inl (Classical.not_not.mp fun hc => hidle (halone hc))⟩
    have hcur := hpart.current hown
    rw [hfl, hself] at hcur
    exact ⟨hcur.2, hcur.1⟩

/-- An entry of `io_queue` that carries an id is underway. -/
theorem Reached.copies_le (hsq : sq.Total) (hr : Reached sq (ClosedAtRest c) s)
    (hcomp : (s.chan c).compress = true → c < nextBlockSize) (i : Nat) :
    s.ioQueue.countP (IoBlock.carries c i) ≤ 1 := by
  cases hz : (s.chan c).compress with
  | true =>
      have hset := Reached.settle hr
      obtain ⟨pc, he, hpc⟩ := settle_eq s c
      rw [he] at hset
      obtain ⟨f₀, r, hp⟩ :=
        Reached.pipeline hsq (hcomp hz) (fun _ _ h => h.1) (fun _ _ h => h.2) hset
        (.inr (by simpa using hz))
      have hle : underway (s.setChan c { s.chan c with log := pc }) c i ≤ 1 := by
        have := hp.once i
        split at this <;> omega
      simp only [underway, State.setChan] at hle
      omega
  | false =>
      -- the blocks of an uncompressed channel are not copied
      rw [List.countP_eq_zero.mpr]
      · omega
      · intro x hx hcar
        have hroute := (Reached.routed hr).ioQueue x hx
        cases x with
        | raw p => simp [IoBlock.carries] at hcar
        | packed b =>
            simp only [IoBlock.carries, Packed.carries, decide_eq_true_eq] at hcar
            have := hroute.2
            rw [hcar.1, hz] at this
            cases this

/-- Records and file of a channel closed at rest. -/
theorem Reached.accounted_arrives (hsq : sq.Total) (hr : Reached sq (ClosedAtRest c) s)
    (hready : (s.chan c).opn = .ready) (htsc : (s.chan c).format.isTsc = false)
    (hcomp : (s.chan c).compress = true → c < nextBlockSize)
    (hraw : (s.chan c).compress = false → (s.chan c).writeHandlerF ≠ none) :
    (s.chan c).Accounted ∧ ∃ n, Arrives sq s c n := by
  have hset := Reached.settle hr
  obtain ⟨pc, he, hpc⟩ := settle_eq s c
  rw [he] at hset
  have hself : (s.setChan c { s.chan c with log := pc }).chan c = { s.chan c with log := pc } := by
    simp
  have hacc := Reached.accounted (c := c) (fun _ _ h => h.1) hset (by rw [hself]; exact htsc)
  obtain ⟨n, harr⟩ := Reached.arrives (c := c) hsq (fun _ _ h => h.1) (fun _ _ h => h.2) hset
    (by rw [hself]; exact hready) (by rw [hself]; exact htsc) (by rw [hself]; exact hcomp)
    (by rw [hself]; exact hraw)
  rw [hself] at hacc
  refine ⟨hacc.congr ⟨rfl, rfl, (owns_of_settled hpc).symm, rfl, fun _ => rfl, Iff.rfl⟩, n, ?_⟩
  have hle := harr.le
  have hcontent := harr.content
  have hquiet := harr.quiet
  rw [hself] at hle hcontent hquiet
  exact ⟨hle, hcontent, fun hq => hquiet ⟨hq.1, hq.2, hq.3, hq.4⟩⟩

/-- **Closing a channel that is at rest is safe.**  Let every exchange of
`handler_f` of channel `c`, by whatever thread, fall between two calls of
`logTS` or in front of the test of a block that is not full, let the copies
of the channel's blocks find a free node in `io_queue`, and let no channel run
out of block ids.  Then in every
state of the run no block of the channel is queued twice, no record is
written on a block that has left the logging thread, the ids of the blocks
enqueued are distinct, and every record logged before the exchange reaches
the file once. -/
theorem closed_at_rest (hsq : sq.Total)
    (htr : Trace (step sq) State.init (ClosedAtRest c) tr s) (hready : (s.chan c).opn = .ready)
    (htsc : (s.chan c).format.isTsc = false)
    (hcomp : (s.chan c).compress = true → c < nextBlockSize)
    (hraw : (s.chan c).compress = false → (s.chan c).writeHandlerF ≠ none) :
    ClosedSafely sq c tr s := by
  have hr : Reached sq (ClosedAtRest c) s := htr.reach
  obtain ⟨hacc, hfile⟩ := Reached.accounted_arrives hsq hr hready htsc hcomp hraw
  obtain ⟨htaken, hnull⟩ := taken_eq_calls htr c
  have hrecords : (∃ x ∈ tr, closesNow x.1 x.2 = some c) →
      calls c tr = (s.chan c).sent.flatten ++ (s.chan c).openRecords := by
    intro hx
    have hpend : (s.chan c).log.pending = [] := by
      obtain h | ⟨h, -⟩ := Reached.atRest hr (hnull.mpr hx) <;> simp [h, LogPc.pending]
    rw [← htaken, Closure.taken, hpend, List.append_nil]
    exact hacc
  refine ⟨fun k => ?once, Reached.copies_le hsq hr hcomp,
    (Reached.inFlight_le hr 0).2, ?ids, hrecords, hfile, fun hsent hq => ?complete⟩
  case once =>
    have hle := (Reached.inFlight_le hr k).1
    simp only [inFlight] at hle
    omega
  case ids =>
    rw [enqueuedIds_eq htr]
    exact List.nodup_range
  case complete =>
    obtain ⟨n, harr⟩ := hfile
    have hclose : (s.chan c).close ≠ .none := by obtain h | h | h := hsent <;> simp [h]
    have hx := hnull.mp ((Reached.chanOk hr c).closing hclose).1
    have hown : ¬ (s.chan c).owns := by
      rintro ⟨-, -, h⟩
      obtain h' | h' | h' := hsent <;> simp [h'] at h
    rw [hrecords hx, openRecords_of_not_owns hown, List.append_nil]
    exact ⟨harr.all hq, rfl⟩

/-- Another thread closes channel 0 while its logging thread is about to test
the block; the closing block is written, and the test made at last. -/
theorem closed_at_rest_test :
    ∃ tr s, Trace (step copySquash) State.init (ClosedAtRest 0) tr s ∧
      calls 0 tr = [⟨7, 1, 2, 3, 4, 0⟩] ∧ (s.chan 0).closeSent ∧
      ClosedSafely copySquash 0 tr s := by
  have hrun : ∃ tr s, Trace (step copySquash) State.init (ClosedAtRest 0) tr s ∧
      (calls 0 tr == [⟨7, 1, 2, 3, 4, 0⟩] && decide ((s.chan 0).opn = .ready ∧
        (s.chan 0).compress = false ∧ (s.chan 0).format = .ascii ∧
        (s.chan 0).writeHandlerF = some .writeInAscii ∧ (s.chan 0).closeSent)) = true :=
    Trace.of_exec_any (openRun ++ [Label.logTS 0 ⟨7, 1, 2, 3, 4, 0⟩, Label.logStep 0,
      Label.closeChannel 0, Label.closeStep 0, Label.closeStep 0, Label.io 0, Label.io 0, Label.io 0,
      Label.io 0, Label.io 0, Label.io 0, Label.logStep 0]) _ (by decide +kernel)
  obtain ⟨tr, s, htr, hs⟩ := hrun
  simp only [Bool.and_eq_true, beq_iff_eq, decide_eq_true_eq] at hs
  obtain ⟨hcalls, hready, hraw, hfmt, hw, hsent⟩ := hs
  exact ⟨tr, s, htr, hcalls, hsent, closed_at_rest copySquash_total htr hready
    (by rw [hfmt]; rfl) (by simp [hraw]) (by simp [hw])⟩

/-- **Closing while a record is being written is not safe.**  Another thread
closes channel 0 when its logging thread has entered `logTS` and is about to
write its record: the block is enqueued first, and the record goes on a block
that is in `io_queue`. -/
theorem closed_while_writing :
    copySquash.Total ∧ ∃ tr s, Trace (step copySquash) State.init anyStep tr s ∧
      (s.chan 0).opn = .ready ∧ (s.chan 0).format = .ascii ∧ (s.chan 0).compress = false ∧
      (s.chan 0).log = .write false ⟨7, 1, 2, 3, 4, 0⟩ ∧
      .raw ⟨0, (s.chan 0).block⟩ ∈ s.ioQueue ∧ ¬ ClosedSafely copySquash 0 tr s := by
  have hrun : ∃ tr s, Trace (step copySquash) State.init anyStep tr s ∧
      decide ((s.chan 0).opn = .ready ∧ (s.chan 0).format = .ascii ∧ (s.chan 0).compress = false ∧
        (s.chan 0).log = .write false ⟨7, 1, 2, 3, 4, 0⟩ ∧
        .raw ⟨0, (s.chan 0).block⟩ ∈ s.ioQueue) = true :=
    Trace.of_exec_any (openRun ++ [Label.logTS 0 ⟨7, 1, 2, 3, 4, 0⟩, Label.closeChannel 0,
      Label.closeStep 0, Label.closeStep 0]) _ (by decide +kernel)
  obtain ⟨tr, s, htr, hs⟩ := hrun
  obtain ⟨hready, hfmt, hraw, hlog, hq⟩ := of_decide_eq_true hs
  refine ⟨copySquash_total, tr, s, htr, hready, hfmt, hraw, hlog, hq, fun h => ?_⟩
  have hzero := (h.owned _ _ hlog).1
  have hpos := List.count_pos_iff.mpr hq
  simp only [inFlight] at hzero
  omega

end Closing

end CloudProfiler
