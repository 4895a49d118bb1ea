import CloudProfiler.Buffer.Move

/-!
# CloudProfiler.Buffer.Channel

One channel seen through the steps of all threads.  `ChanStep` lists the
ways its closure can change; facts about the closure alone are proved by
cases on it and hold for every channel in every run
(`Reached.chan_invariant`).

A channel has one logging thread.  `OneThread c` is the discipline that
comes with it: `handler_f` of channel `c` is exchanged only while the
logging thread is not inside `logTS`, because it is that thread which closes
the channel, or because it has stopped using it.
-/

namespace CloudProfiler

/-! ## phases of a channel -/

/-- The closure has its blocks: `openChannel` has returned. -/
def Closure.built (ch : Closure) : Prop := ch.opn = .ready ∨ ch.opn = .defect

instance (ch : Closure) : Decidable ch.built := inferInstanceAs (Decidable (_ ∨ _))

/-- The channel has been entered in `ch_info`. -/
def Closure.entered (ch : Closure) : Prop := ch.opn = .openFile ∨ ch.built

/-- The `openChannel` call is on its way. -/
def OpenPc.opening : OpenPc → Bool
  | .fresh | .ready | .defect => false
  | _ => true

/-- The channel whose `handler_f` the step exchanges. -/
def closesNow (s : State) : Label → Option Nat
  | .closeChannel c => some c
  | .logTS c d => if d.tuple = -1 then some c else none
  | .exitStep =>
      match s.exit with
      | .closeAll _ i false =>
          match s.chInfo[i]? with
          | some c => if (s.chan c).opn = .openFile then none else some c
          | none => none
      | _ => none
  | _ => none

/-- Channel `c` is used by one thread: it is closed between two calls of
`logTS`. -/
def OneThread (c : Nat) (s : State) (l : Label) : Prop :=
  closesNow s l = some c → (s.chan c).log = .idle

instance (c : Nat) : DecidableRel (OneThread c) := fun s l =>
  inferInstanceAs (Decidable (closesNow s l = some c → (s.chan c).log = .idle))

/-- What holds of a closure in every run. -/
structure Closure.Ok (ch : Closure) : Prop where
  unbuilt : ¬ ch.built → ch.log = .idle ∧ ch.close = .none ∧ ch.sent = [] ∧
    ch.logged = [] ∧ ch.handlerF = handlerOf ch.format ∧ ch.firstLogging = true
  writer : ch.writeHandlerF = writeHandlerOf ch.format
  handler : ch.handlerF = handlerOf ch.format ∨ ch.handlerF = .nullHandler
  closing : ch.close ≠ .none → ch.handlerF = .nullHandler ∧ ch.format.isTsc = false
  logging : ch.log ≠ .idle → ch.opn = .ready
  writing : ∀ tsc d, ch.log = .write tsc d → tsc = ch.format.isTsc
  ids : ch.built → ch.ids = List.range ch.blockCnt
  count : ch.blockCnt ≤ intMax

/-- The closure of a channel used by one thread: once it is being closed, no
record is on its way. -/
def Closure.Alone (ch : Closure) : Prop := ch.close ≠ .none → ch.log = .idle

/-- The blocks of a closure used by one thread: only the closing block
carries `close_file`; the current block has the number of blocks sent so far
as its id, and `block_cnt` is the next one; no more blocks have been sent than
ids were given. -/
structure Closure.Tidy (ch : Closure) : Prop where
  flag : ∀ k, (ch.blocks k).closeFile = true →
    k = ch.block ∧ ch.close ≠ .none ∧ ch.close ≠ .setCloseFile
  curId : ch.built → ch.log ≠ .dequeue → ch.log ≠ .setId →
    ch.close = .none ∨ ch.close = .setCloseFile ∨ ch.close = .enqueue →
    ch.cur.blockId = ch.sent.length ∧ ch.blockCnt = ch.sent.length + 1
  nextId : ch.log = .dequeue ∨ ch.log = .setId → ch.blockCnt = ch.sent.length
  lastId : ch.close = .decComp ∨ ch.close = .dec ∨ ch.close = .done →
    ch.cur.blockId + 1 = ch.sent.length ∧ ch.cur.closeFile = true
  flagSet : ch.close = .enqueue → ch.cur.closeFile = true
  sentLe : ch.sent.length ≤ ch.blockCnt

/-! ## numbering -/

/-- Numbers not given out yet are unused, and `ch_info` lists channels that
have been entered there. -/
structure Wf (s : State) : Prop where
  fresh : ∀ c, s.nextChannel ≤ c → (s.chan c).opn = .fresh
  chInfo : ∀ c ∈ s.chInfo, (s.chan c).entered
  io : ∀ t, s.io t = .unborn ↔ s.ioCnt ≤ t
  comp : ∀ t, s.comp t = .unborn ↔ s.compCnt ≤ t

theorem wf_init : Wf State.init := by
  constructor <;> simp [State.init, Closure.new]

theorem Wf.lt_nextChannel {s : State} {c : Nat} (h : Wf s) (hc : (s.chan c).opn ≠ .fresh) :
    c < s.nextChannel :=
  Nat.lt_of_not_le fun hle => hc (h.fresh c hle)

theorem Wf.io_lt {s : State} {t : Nat} (h : Wf s) (ht : s.io t ≠ .unborn) : t < s.ioCnt :=
  Nat.lt_of_not_le fun hle => ht ((h.io t).mpr hle)

theorem Wf.comp_lt {s : State} {t : Nat} (h : Wf s) (ht : s.comp t ≠ .unborn) : t < s.compCnt :=
  Nat.lt_of_not_le fun hle => ht ((h.comp t).mpr hle)

/-! ## the closure's transitions -/

/-- How a step can change the closure `ch`; `closing` is what is known of a
step that exchanges `handler_f`. -/
inductive ChanStep (closing : Prop) (ch : Closure) : Closure → Prop
  | same : ChanStep closing ch ch
  | opened (f : LogFormat) (compress : Bool) (h : ch.opn = .fresh) :
      ChanStep closing ch (.new f compress .numBufCh)
  | opening (o : OpenPc) (h : ch.opn.opening = true) (h' : o.opening = true)
      (hopn : ch.opn ≠ .openFile) : ChanStep closing ch { ch with opn := o }
  | finish (mem : Nat → Nat → LogData) (o : OpenPc) (h : ch.opn = .openFile)
      (h' : o = .ready ∨ o = .defect) : ChanStep closing ch
      { ch with
        queue := (List.range numBufferBlock).tail
        block := 0
        blocks := fun k => .new (mem k)
        blockCnt := 1
        ids := [0]
        opn := o }
  | callClose (hb : ch.built) (h : closing) : ChanStep closing ch
      { ch with
        handlerF := .nullHandler
        close := if ch.handlerF = .bufferIdentityHandler then .setCloseFile else ch.close }
  | call (tsc : Bool) (d : LogData) (hopn : ch.opn = .ready) (hlog : ch.log = .idle)
      (h : ch.handlerF = if tsc then .bufferIdentityHandlerTsc else .bufferIdentityHandler)
      (hf : tsc = true → ch.firstLogging = false) :
      ChanStep closing ch { ch with log := .write tsc d }
  | first (d : LogData) (hopn : ch.opn = .ready) (hlog : ch.log = .idle)
      (h : ch.handlerF = .bufferIdentityHandlerTsc) (hf : ch.firstLogging = true) :
      ChanStep closing ch { ch with firstLogging := false, logged := ch.logged ++ [d] }
  | write (tsc : Bool) (d : LogData) (h : ch.log = .write tsc d) : ChanStep closing ch
      { ch.setBlock ch.block (if tsc then ch.cur.writeOnBlockTsc d else ch.cur.writeOnBlock d) with
        log := .full
        logged := ch.logged ++ [d] }
  | full (h : ch.log = .full) : ChanStep closing ch
      { ch with log := if ch.cur.checkBlockIsFull then .enqueue else .idle }
  | enqueue (h : ch.log = .enqueue) : ChanStep closing ch
      { ch with sent := ch.sent ++ [ch.cur.records], log := .dequeue }
  | dequeue (k : Nat) (q : List Nat) (h : ch.log = .dequeue) (hq : ch.queue = k :: q) :
      ChanStep closing ch { ch with queue := q, block := k, log := .setId }
  | setId (h : ch.log = .setId) (hcnt : ch.blockCnt < intMax) : ChanStep closing ch
      { ch.setBlock ch.block { ch.cur with blockId := ch.blockCnt } with
        blockCnt := ch.blockCnt + 1
        ids := ch.ids ++ [ch.blockCnt]
        log := .idle }
  | setCloseFile (h : ch.close = .setCloseFile) : ChanStep closing ch
      { ch.setBlock ch.block { ch.cur with closeFile := true } with close := .enqueue }
  | closeEnqueue (h : ch.close = .enqueue) : ChanStep closing ch
      { ch with sent := ch.sent ++ [ch.cur.records], close := .decComp }
  | decComp (h : ch.close = .decComp) : ChanStep closing ch { ch with close := .dec }
  | dec (h : ch.close = .dec) : ChanStep closing ch { ch with close := .done }
  | reset (k : Nat) :
      ChanStep closing ch (ch.setBlock k { ch.blocks k with blockIdx := 0 })
  | sendBack (k : Nat) : ChanStep closing ch { ch with queue := ch.queue ++ [k] }

/-- Knowing more of a closing step. -/
theorem ChanStep.mono {P Q : Prop} {ch ch' : Closure} (h : ChanStep P ch ch') (hPQ : P → Q) :
    ChanStep Q ch ch' := by
  cases h <;> constructor <;> first | assumption | exact hPQ ‹P›

section

variable {sq : Squash} {s s' : State} {l : Label}

/-- A step that replaces the closure of `c` leaves the others alone. -/
theorem ChanStep.update {P : Prop} {f : Nat → Closure} {ch : Closure} (c c' : Nat)
    (h : c = c' → ChanStep P (f c') ch) : ChanStep P (f c) (Function.update f c' ch c) := by
  by_cases hc : c = c'
  · rw [hc, Function.update_self]
    exact h hc
  · rw [Function.update_of_ne hc]
    exact .same

/-- Every step of the system changes every closure by one of the listed
transitions. -/
theorem Move.chan (hwf : Wf s) (hm : Move sq s l s') (c : Nat) :
    ChanStep (closesNow s l = some c) (s.chan c) (s'.chan c) := by
  cases hm with
  | openChannel f compress =>
      exact .update _ _ fun hc => .opened f compress (hwf.fresh _ (Nat.le_refl _))
  | openOther => exact .same
  | openStep c' h =>
      cases h with
      | compNew i h =>
          refine .update _ _ fun hc => .opening _ (by simp [h, OpenPc.opening]) ?_ (by simp [h])
          split <;> rfl
      | _ => exact .update _ _ fun hc => .opening _ (by simp [*, OpenPc.opening]) rfl (by simp [*])
  | finishOpen c' ok mem h =>
      refine .update _ _ fun hc => .finish mem _ h ?_
      split <;> simp
  | logTS c' d hopn hlog h =>
      cases h with
      | poison hd =>
          refine .update _ _ fun hc => .callClose (.inl hopn) ?_
          simp [closesNow, hd, hc]
      | null => exact .same
      | buffer hd h =>
          exact .update _ _ fun hc => .call false d hopn hlog h (by simp)
      | first hd h hf => exact .update _ _ fun hc => .first d hopn hlog h hf
      | tsc hd h hf => exact .update _ _ fun hc => .call true d hopn hlog h fun _ => hf
  | logStep c' h =>
      cases h with
      | write tsc d h => exact .update _ _ fun hc => .write tsc d h
      | full h => exact .update _ _ fun hc => .full h
      | enqueueComp h => exact .update _ _ fun hc => .enqueue h
      | enqueueRaw h => exact .update _ _ fun hc => .enqueue h
      | dequeue k q h hq => exact .update _ _ fun hc => .dequeue k q h hq
      | setId h hcnt => exact .update _ _ fun hc => .setId h hcnt
      | setIdFault => exact .same
  | closeChannel c' hopn =>
      exact .update _ _ fun hc => .callClose (.inl hopn) (by simp [closesNow, hc])
  | closeStep c' h =>
      cases h with
      | setCloseFile h => exact .update _ _ fun hc => .setCloseFile h
      | enqueueComp h => exact .update _ _ fun hc => .closeEnqueue h
      | enqueueRaw h => exact .update _ _ fun hc => .closeEnqueue h
      | decComp h => exact .update _ _ fun hc => .decComp h
      | dec h => exact .update _ _ fun hc => .dec h
  | io t h =>
      cases h with
      | write m p h hw => exact .update _ _ fun hc => .reset p.k
      | send m p h hlen => exact .update _ _ fun hc => .sendBack p.k
      | _ => exact .same
  | comp t h =>
      cases h with
      | work d p h => exact .update _ _ fun hc => .reset p.k
      | send d p b h hlen => exact .update _ _ fun hc => .sendBack p.k
      | _ => exact .same
  | atExit | signal => exact .same
  | exitStep h =>
      cases h with
      | close m i c' h hc' hopn =>
          refine .update _ _ fun hc => .callClose
            ((hwf.chInfo _ (List.mem_of_getElem? hc')).resolve_left hopn) ?_
          simp [closesNow, h, hc', hc, hopn]
      | _ => exact .same

/-! ## facts about every channel -/

theorem ChanStep.built_of_built {P : Prop} {ch ch' : Closure} (h : ChanStep P ch ch')
    (hb : ch.built) : ch'.built := by
  cases h <;> simp_all [Closure.built, OpenPc.opening]
  · obtain hb | hb := hb <;> simp_all

theorem ChanStep.entered_of_entered {P : Prop} {ch ch' : Closure} (h : ChanStep P ch ch')
    (he : ch.entered) : ch'.entered := by
  obtain he | hb := he
  · cases h with
    | opening o h h' hopn => exact absurd he hopn
    | opened f compress h => simp [he] at h
    | finish mem o h h' => exact .inr h'
    | _ => exact .inl he
  · exact .inr (h.built_of_built hb)

theorem ChanStep.fresh_of_fresh {P : Prop} {ch ch' : Closure} (h : ChanStep P ch ch')
    (hf : ch'.opn = .fresh) : ch.opn = .fresh := by
  cases h <;> simp_all [OpenPc.opening, Closure.new]

/-- A channel gets its blocks by `finishOpen` and by no other step. -/
theorem Move.built_iff (hwf : Wf s) (hm : Move sq s l s') {c : Nat}
    (hl : ∀ ok mem, l ≠ .finishOpen c ok mem) : (s'.chan c).built ↔ (s.chan c).built := by
  refine ⟨fun hb => ?_, (hm.chan hwf c).built_of_built⟩
  have hopn : ∀ c' ch, s'.chan = Function.update s.chan c' ch → (ch.built → (s.chan c').built) →
      (s.chan c).built := by
    intro c' ch he h
    rw [he] at hb
    by_cases hc : c = c'
    · subst hc
      exact h (by simpa using hb)
    · simpa [Function.update_of_ne hc] using hb
  cases hm with
  | finishOpen c' ok mem h =>
      have hc : c ≠ c' := fun hc => hl ok mem (by rw [hc])
      simpa [Function.update_of_ne hc] using hb
  | openStep c' h | closeStep c' h =>
      cases h <;> refine hopn _ _ rfl ?_ <;> simp [Closure.built] <;> grind
  | logStep c' h =>
      cases h with
      | setIdFault => exact hb
      | _ => exact hopn _ _ rfl fun h => h
  | openChannel => exact hopn _ _ rfl (by simp [Closure.built, Closure.new])
  | logTS c' d hopn' hlog h =>
      cases h with
      | null => exact hb
      | _ => exact hopn _ _ rfl fun h => h
  | closeChannel => exact hopn _ _ rfl fun h => h
  | io t h =>
      cases h with
      | write | send => exact hopn _ _ rfl fun h => h
      | _ => exact hb
  | comp t h =>
      cases h with
      | work | send => exact hopn _ _ rfl fun h => h
      | _ => exact hb
  | exitStep h =>
      cases h with
      | close => exact hopn _ _ rfl fun h => h
      | _ => exact hb
  | _ => exact hb

/-- Channels that were not opened are fresh. -/
theorem Wf.fresh_step (h : Wf s) (hm : Move sq s l s') {c : Nat} (hc : s'.nextChannel ≤ c) :
    (s'.chan c).opn = .fresh := by
  have hset : ∀ {c' : Nat} {k : Closure}, ((s.chan c').opn = .fresh → k.opn = .fresh) →
      s.nextChannel ≤ c → (Function.update s.chan c' k c).opn = .fresh := by
    intro c' k hk hc
    by_cases he : c = c'
    · subst he
      rw [Function.update_self]
      exact hk (h.fresh c hc)
    · rw [Function.update_of_ne he]
      exact h.fresh c hc
  cases hm with
  | openChannel f compress =>
      have hlt : s.nextChannel < c := hc
      simpa [Nat.ne_of_gt hlt] using h.fresh c (Nat.le_of_lt hlt)
  | openOther => exact h.fresh c (Nat.le_of_succ_le hc)
  | openStep c' hstep => cases hstep <;> exact hset (by simp [*]) hc
  | finishOpen c' ok mem hpc => exact hset (by simp [hpc]) hc
  | logTS c' d _ _ hstep =>
      cases hstep with
      | null => exact h.fresh c hc
      | _ => exact hset (fun hf => hf) hc
  | logStep c' hstep =>
      cases hstep with
      | setIdFault => exact h.fresh c hc
      | _ => exact hset (fun hf => hf) hc
  | closeStep c' hstep => cases hstep <;> exact hset (fun hf => hf) hc
  | closeChannel => exact hset (fun hf => hf) hc
  | io t hstep =>
      cases hstep with
      | write | send => exact hset (fun hf => hf) hc
      | _ => exact h.fresh c hc
  | comp t hstep =>
      cases hstep with
      | work | send => exact hset (fun hf => hf) hc
      | _ => exact h.fresh c hc
  | atExit | signal => exact h.fresh c hc
  | exitStep hstep =>
      cases hstep with
      | close => exact hset (fun hf => hf) hc
      | _ => exact h.fresh c hc

/-- `ch_info` grows by the channel that is entered. -/
theorem Move.chInfo_cases (hm : Move sq s l s') :
    s'.chInfo = s.chInfo ∨ ∃ c, s'.chInfo = s.chInfo ++ [c] ∧ (s'.chan c).opn = .openFile := by
  cases hm with
  | openStep c h =>
      cases h with
      | enter => exact .inr ⟨c, rfl, by simp⟩
      | _ => exact .inl rfl
  | logTS c d _ _ h | logStep c h | closeStep c h | io t h | comp t h
  | exitStep h => cases h <;> exact .inl rfl
  | _ => exact .inl rfl

/-- I/O threads are created in order. -/
theorem Wf.io_step (h : Wf s) (hm : Move sq s l s') (t : Nat) :
    s'.io t = .unborn ↔ s'.ioCnt ≤ t := by
  have hset : ∀ {t' : Nat} {pc : IoPc}, s.io t' ≠ .unborn → pc ≠ .unborn →
      (Function.update s.io t' pc t = .unborn ↔ s.ioCnt ≤ t) := by
    intro t' pc hborn hpc
    by_cases he : t = t'
    · subst he
      simp [hpc, ← h.io, hborn]
    · rw [Function.update_of_ne he]
      exact h.io t
  cases hm with
  | openStep c hstep =>
      cases hstep with
      | ioNew hpc =>
          have hold := h.io t
          simp only [State.setChan, State.setIo, Function.update_apply]
          split
          · next he => simp [he]
          · next he => rw [hold]; omega
      | _ => exact h.io t
  | io t' hstep =>
      cases hstep with
      | goto hpc hgo => cases hgo <;> exact hset (by simp [hpc]) (by simp)
      | start hpc | popRaw m p q hpc | write m p hpc | clearPtr hpc | clearIo hpc | clearComp hpc
      | clearVec hpc => exact hset (by simp [hpc]) (by simp)
      | popPacked m b q k hpc | send m p hpc =>
          exact hset (by simp [hpc]) (by cases m <;> simp [IoMode.next])
      | quickExit | popFault | writeFault => exact h.io t
  | logTS c d _ _ hstep | logStep c hstep | closeStep c hstep | comp t' hstep | exitStep hstep =>
      cases hstep <;> exact h.io t
  | _ => exact h.io t

/-- So are compression threads. -/
theorem Wf.comp_step (h : Wf s) (hm : Move sq s l s') (t : Nat) :
    s'.comp t = .unborn ↔ s'.compCnt ≤ t := by
  have hset : ∀ {t' : Nat} {pc : CompPc}, s.comp t' ≠ .unborn → pc ≠ .unborn →
      (Function.update s.comp t' pc t = .unborn ↔ s.compCnt ≤ t) := by
    intro t' pc hborn hpc
    by_cases he : t = t'
    · subst he
      simp [hpc, ← h.comp, hborn]
    · rw [Function.update_of_ne he]
      exact h.comp t
  cases hm with
  | openStep c hstep =>
      cases hstep with
      | compNew i hpc =>
          have hold := h.comp t
          simp only [State.setChan, State.setComp, Function.update_apply]
          split
          · next he => simp [he]
          · next he => rw [hold]; omega
      | _ => exact h.comp t
  | comp t' hstep =>
      cases hstep with
      | goto hpc hgo => cases hgo <;> exact hset (by simp [hpc]) (by simp)
      | pop d p q hpc | work d p hpc | send d p b hpc | stop hpc =>
          exact hset (by simp [hpc]) (by simp)
      | push d b hpc | drop d b hpc =>
          exact hset (by simp [hpc]) (by cases d <;> simp [compNext])
  | logTS c d _ _ hstep | logStep c hstep | closeStep c hstep | io t' hstep | exitStep hstep =>
      cases hstep <;> exact h.comp t
  | _ => exact h.comp t

/-- The numbering is kept by every step. -/
theorem Wf.step (hwf : Wf s) (hm : Move sq s l s') : Wf s' where
  fresh _ hc := hwf.fresh_step hm hc
  chInfo c hc := by
    obtain he | ⟨c', he, hopn⟩ := hm.chInfo_cases
    · exact (hm.chan hwf c).entered_of_entered (hwf.chInfo c (he ▸ hc))
    · rw [he] at hc
      obtain hc | hc := List.mem_append.mp hc
      · exact (hm.chan hwf c).entered_of_entered (hwf.chInfo c hc)
      · rw [List.mem_singleton.mp hc]
        exact .inl hopn
  io := hwf.io_step hm
  comp := hwf.comp_step hm

variable {ok : State → Label → Prop}

theorem Reached.wf (hr : Reached sq ok s) : Wf s :=
  hr.invariant wf_init fun _ _ _ hwf _ hs => hwf.step (step_move hs).2

/-- **Invariant rule for one channel**: what holds of an unused closure and
is kept by every transition of the closure holds in every reached state. -/
theorem Reached.chan_invariant {I : Closure → Prop} {P : Closure → Prop} {c : Nat}
    (hinit : I (.new .ascii false .fresh))
    (hok : ∀ s l, ok s l → closesNow s l = some c → P (s.chan c))
    (hstep : ∀ ch ch', I ch → ChanStep (P ch) ch ch' → I ch') (hr : Reached sq ok s) :
    I (s.chan c) := by
  refine hr.invariant_of (I := fun s => I (s.chan c)) (fun _ => Reached.wf) hinit ?_
  intro s l s' hwf hI hg hs
  exact hstep _ _ hI (((step_move hs).2.chan hwf c).mono (hok s l hg))

theorem handlerOf_eq_tsc {f : LogFormat} :
    handlerOf f = .bufferIdentityHandlerTsc ↔ f.isTsc = true := by
  cases f <;> simp [handlerOf, LogFormat.isTsc]

theorem handlerOf_eq_buffer {f : LogFormat} :
    handlerOf f = .bufferIdentityHandler ↔ f.isTsc = false := by
  cases f <;> simp [handlerOf, LogFormat.isTsc]

/-- A closure that has just been made. -/
theorem Closure.Ok.new (f : LogFormat) (compress : Bool) {o : OpenPc} (ho : o ≠ .ready)
    (ho' : o ≠ .defect) : (Closure.new f compress o).Ok where
  unbuilt _ := ⟨rfl, rfl, rfl, rfl, rfl, rfl⟩
  writer := rfl
  handler := .inl rfl
  closing hc := absurd rfl hc
  logging hl := absurd rfl hl
  writing _ _ hw := by cases hw
  ids hb := by
    obtain hb | hb := hb
    exacts [absurd hb ho, absurd hb ho']
  count := Nat.zero_le _

/-- A closure that is being opened has no blocks. -/
theorem OpenPc.opening_ne {o : OpenPc} (h : o.opening = true) : o ≠ .ready ∧ o ≠ .defect := by
  cases o <;> simp [OpenPc.opening] at h ⊢

/-- The facts are kept by every transition of the closure. -/
theorem Closure.Ok.step {P : Prop} {ch ch' : Closure} (h : ch.Ok) (hs : ChanStep P ch ch') :
    ch'.Ok := by
  have hbusy : ch.log ≠ .idle → ch.built := fun hl => .inl (h.logging hl)
  have hclosing : ch.close ≠ .none → ch.built := fun hc =>
    Classical.not_not.mp fun hb => hc (h.unbuilt hb).2.1
  cases hs with
  | same | reset | sendBack => exact { h with }
  | opened f compress => exact .new f compress (by simp) (by simp)
  | opening o ho ho' hopn =>
      have hb : ¬ ch.built := fun hb => by
        obtain hb | hb := hb
        exacts [(OpenPc.opening_ne ho).1 hb, (OpenPc.opening_ne ho).2 hb]
      exact { h with
        unbuilt := fun _ => h.unbuilt hb
        logging := fun hl => absurd (h.unbuilt hb).1 hl
        ids := fun hb' => by
          obtain hb' | hb' := hb'
          exacts [absurd hb' (OpenPc.opening_ne ho').1, absurd hb' (OpenPc.opening_ne ho').2] }
  | finish mem o ho ho' =>
      have hb : ¬ ch.built := by simp [Closure.built, ho]
      exact { h with
        unbuilt := fun _ => h.unbuilt hb
        logging := fun hl => absurd (h.unbuilt hb).1 hl
        ids := fun _ => rfl
        count := by simp [intMax] }
  | callClose hb =>
      refine { h with
        unbuilt := fun hb' => absurd hb hb'
        handler := .inr rfl
        closing := fun hc => ⟨rfl, ?_⟩ }
      by_cases hf : ch.handlerF = .bufferIdentityHandler
      · have hhandler := h.handler
        rw [hf] at hhandler
        exact handlerOf_eq_buffer.mp (hhandler.resolve_right nofun).symm
      · exact (h.closing (by simpa [hf] using hc)).2
  | call tsc d hopn hlog hf =>
      refine { h with
        unbuilt := fun hb => absurd (.inl hopn) hb
        logging := fun _ => hopn
        writing := fun tsc' d' hw => ?_ }
      obtain ⟨rfl, -⟩ := LogPc.write.inj hw
      have hhandler := h.handler
      rw [hf] at hhandler
      cases tsc with
      | true => exact (handlerOf_eq_tsc.mp (hhandler.resolve_right nofun).symm).symm
      | false => exact (handlerOf_eq_buffer.mp (hhandler.resolve_right nofun).symm).symm
  | first d hopn => exact { h with unbuilt := fun hb => absurd (.inl hopn) hb }
  | write tsc d hl | enqueue hl | dequeue k q hl =>
      have hne : ch.log ≠ .idle := by simp [hl]
      exact { h with
        unbuilt := fun hb => absurd (hbusy hne) hb
        logging := fun _ => h.logging hne
        writing := nofun }
  | full hl =>
      have hne : ch.log ≠ .idle := by simp [hl]
      refine { h with
        unbuilt := fun hb => absurd (hbusy hne) hb
        logging := fun _ => h.logging hne
        writing := fun tsc d hw => ?_ }
      split at hw <;> cases hw
  | setId hl hcnt =>
      have hne : ch.log ≠ .idle := by simp [hl]
      exact { h with
        unbuilt := fun hb => absurd (hbusy hne) hb
        logging := fun hl' => absurd rfl hl'
        writing := nofun
        ids := fun hb => by
          show ch.ids ++ [ch.blockCnt] = List.range (ch.blockCnt + 1)
          rw [h.ids hb, List.range_succ]
        count := hcnt }
  | setCloseFile hc | closeEnqueue hc | decComp hc | dec hc =>
      have hne : ch.close ≠ .none := by simp [hc]
      exact { h with
        unbuilt := fun hb => absurd (hclosing hne) hb
        closing := fun _ => h.closing hne }

theorem Closure.Alone.step {ch ch' : Closure} (hok : ch.Ok) (h : ch.Alone)
    (hs : ChanStep (ch.log = .idle) ch ch') : ch'.Alone := by
  have h4 := hok.closing
  cases hs <;> simp only [Closure.Alone, Closure.setBlock, Closure.new] at * <;> grind

theorem Closure.ok_new : (Closure.new .ascii false .fresh).Ok :=
  .new _ _ (by simp) (by simp)

theorem Reached.chanOk (hr : Reached sq ok s) (c : Nat) : (s.chan c).Ok :=
  hr.chan_invariant (P := fun _ => True) Closure.ok_new (fun _ _ _ _ => trivial)
    fun _ _ h => h.step

/-! The clauses of `Tidy`, one lemma each. -/

section Tidy

variable {ch ch' : Closure}

theorem Closure.Tidy.flag_step (hok : ch.Ok) (halone : ch.Alone) (h : ch.Tidy)
    (hs : ChanStep (ch.log = .idle) ch ch') (k : Nat) (hk : (ch'.blocks k).closeFile = true) :
    k = ch'.block ∧ ch'.close ≠ .none ∧ ch'.close ≠ .setCloseFile := by
  have hflag := h.flag k
  have hcl := hok.closing
  cases hs <;>
    simp only [Closure.Alone, Closure.setBlock, Closure.new, Closure.cur, BlockData.new] at * <;>
    grind [BlockData.writeOnBlock, BlockData.writeOnBlockTsc, Function.update_apply]

theorem Closure.Tidy.curId_step (hok : ch.Ok) (halone : ch.Alone) (h : ch.Tidy)
    (hs : ChanStep (ch.log = .idle) ch ch') (hb : ch'.built) (hd : ch'.log ≠ .dequeue)
    (hi : ch'.log ≠ .setId)
    (hc : ch'.close = .none ∨ ch'.close = .setCloseFile ∨ ch'.close = .enqueue) :
    ch'.cur.blockId = ch'.sent.length ∧ ch'.blockCnt = ch'.sent.length + 1 := by
  have hcur := h.curId
  have hnext := h.nextId
  have hunb := hok.unbuilt
  have hcl := hok.closing
  cases hs <;>
    simp only [Closure.Alone, Closure.setBlock, Closure.new, Closure.built, Closure.cur,
      BlockData.new, List.length_append, List.length_singleton] at * <;>
    grind [OpenPc.opening, BlockData.writeOnBlock, BlockData.writeOnBlockTsc, Function.update_apply]

theorem Closure.Tidy.nextId_step (hok : ch.Ok) (halone : ch.Alone) (h : ch.Tidy)
    (hs : ChanStep (ch.log = .idle) ch ch') (hl : ch'.log = .dequeue ∨ ch'.log = .setId) :
    ch'.blockCnt = ch'.sent.length := by
  have hcur := h.curId
  have hnext := h.nextId
  have hlog := hok.logging
  have hunb := hok.unbuilt
  cases hs <;>
    simp only [Closure.Alone, Closure.setBlock, Closure.new, Closure.built, Closure.cur,
      List.length_append, List.length_singleton] at * <;> grind

theorem Closure.Tidy.lastId_step (hok : ch.Ok) (halone : ch.Alone) (h : ch.Tidy)
    (hs : ChanStep (ch.log = .idle) ch ch')
    (hc : ch'.close = .decComp ∨ ch'.close = .dec ∨ ch'.close = .done) :
    ch'.cur.blockId + 1 = ch'.sent.length ∧ ch'.cur.closeFile = true := by
  have hcur := h.curId
  have hlast := h.lastId
  have hset := h.flagSet
  have hunb := hok.unbuilt
  cases hs <;>
    simp only [Closure.Alone, Closure.setBlock, Closure.new, Closure.built, Closure.cur,
      List.length_append, List.length_singleton] at * <;>
    grind [OpenPc.opening, Function.update_apply]

theorem Closure.Tidy.flagSet_step (hok : ch.Ok) (halone : ch.Alone) (h : ch.Tidy)
    (hs : ChanStep (ch.log = .idle) ch ch') (hc : ch'.close = .enqueue) :
    ch'.cur.closeFile = true := by
  have hset := h.flagSet
  have hunb := hok.unbuilt
  cases hs <;>
    simp only [Closure.Alone, Closure.setBlock, Closure.new, Closure.built, Closure.cur] at * <;>
    grind [OpenPc.opening, Function.update_apply]

theorem Closure.Tidy.sentLe_step (hok : ch.Ok) (halone : ch.Alone) (h : ch.Tidy)
    (hs : ChanStep (ch.log = .idle) ch ch') : ch'.sent.length ≤ ch'.blockCnt := by
  have hcur := h.curId
  have hle := h.sentLe
  have hlog := hok.logging
  have hunb := hok.unbuilt
  cases hs <;>
    simp only [Closure.Alone, Closure.setBlock, Closure.new, Closure.built, Closure.cur,
      List.length_append, List.length_singleton, List.length_nil] at * <;> grind

theorem Closure.Tidy.step (hok : ch.Ok) (halone : ch.Alone) (h : ch.Tidy)
    (hs : ChanStep (ch.log = .idle) ch ch') : ch'.Tidy where
  flag := h.flag_step hok halone hs
  curId := h.curId_step hok halone hs
  nextId := h.nextId_step hok halone hs
  lastId := h.lastId_step hok halone hs
  flagSet := h.flagSet_step hok halone hs
  sentLe := h.sentLe_step hok halone hs

end Tidy

/-- A channel used by one thread is closed between two of its calls, and
keeps the numbering of its blocks. -/
theorem Reached.alone_tidy {c : Nat} (hone : ∀ s l, ok s l → OneThread c s l)
    (hr : Reached sq ok s) : (s.chan c).Alone ∧ (s.chan c).Tidy := by
  have h := hr.chan_invariant (I := fun ch => ch.Ok ∧ ch.Alone ∧ ch.Tidy) (c := c)
    (P := fun ch => ch.log = .idle)
    ⟨Closure.ok_new, by simp [Closure.Alone, Closure.new],
      by constructor <;> simp [Closure.new, Closure.built, BlockData.new]⟩
    hone fun _ _ h hs => ⟨h.1.step hs, h.2.1.step h.1 hs, h.2.2.step h.1 h.2.1 hs⟩
  exact h.2

end

end CloudProfiler
