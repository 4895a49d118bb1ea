import CloudProfiler.Buffer.Deliver
import CloudProfiler.Buffer.Lifetime

/-!
# CloudProfiler.Buffer.Exit

How the process ends: `cleanUpAtNormalExit` closes the channels that are
still open and joins the I/O thread, `cleanUpAtAbnormalExit` closes them and
leaves it to the I/O thread to terminate the process.

* `Handling` — while a handler runs, the application is between two calls;
* `Pointed` — `buffer_write_thread` points to the I/O thread at work;
* `AtRest.delivered` — when nobody works any more, every file is complete;
* `quick_exit_saves` / `quick_exit_loses` — termination by a signal;
* `normal_exit_saves` / `normal_exit_joins_null` — normal exit.
-/

namespace CloudProfiler

/-! ## the application between two calls -/

/-- An exit handler is at work, in the application's thread. -/
def ExitPc.running : ExitPc → Bool
  | .idle | .done | .nullJoin => false
  | .sigComp | .sigPtr | .sigQuick | .closeAll _ _ _ | .quick | .test | .load | .join _
  | .delete => true

/-- An exit handler has been called. -/
def ExitPc.begun (pc : ExitPc) : Bool := pc != .idle

/-- What is asked of `busy : ExitPc → Bool`, which tells when the handlers keep
the application from making calls: they do while they run, and not before
they are called. -/
structure Busy (busy : ExitPc → Bool) : Prop where
  running : ∀ pc : ExitPc, pc.running = true → busy pc = true
  idle : busy .idle = false

theorem busy_running : Busy ExitPc.running := ⟨fun _ h => h, rfl⟩

theorem busy_begun : Busy ExitPc.begun := by
  refine ⟨fun pc h => ?_, rfl⟩
  cases pc <;> simp_all [ExitPc.running, ExitPc.begun]

/-- One application thread: a call begins when the last one has returned, and
the exit handlers run in that thread, between two calls. -/
def Sequential (busy : ExitPc → Bool) (s : State) : Label → Prop
  | .openChannel f z => Opens f z s.nextChannel ∧ BetweenCalls s ∧ busy s.exit = false
  | .openOther | .logTS _ _ | .closeChannel _ => BetweenCalls s ∧ busy s.exit = false
  | .atExit | .signal => BetweenCalls s
  | .openStep _ | .finishOpen _ _ _ | .logStep _ | .closeStep _ | .io _ | .comp _
  | .exitStep => True

instance (busy : ExitPc → Bool) : DecidableRel (Sequential busy) := fun s l =>
  match l with
  | .openChannel f z => inferInstanceAs
      (Decidable (Opens f z s.nextChannel ∧ BetweenCalls s ∧ busy s.exit = false))
  | .openOther | .logTS _ _ | .closeChannel _ =>
      inferInstanceAs (Decidable (BetweenCalls s ∧ busy s.exit = false))
  | .atExit | .signal => inferInstanceAs (Decidable (BetweenCalls s))
  | .openStep _ | .finishOpen _ _ _ | .logStep _ | .closeStep _ | .io _ | .comp _
  | .exitStep => .isTrue trivial

/-- Compressed copies find a free node in `io_queue`. -/
def AlwaysRoom (s : State) : Label → Prop
  | .comp t => (s.comp t).pushes.isSome = true → s.ioQueue.length < ioQueueSize
  | .openChannel _ _ | .openOther | .openStep _ | .finishOpen _ _ _ | .logTS _ _ | .logStep _
  | .closeChannel _ | .closeStep _ | .io _ | .atExit | .signal | .exitStep => True

instance : DecidableRel AlwaysRoom := fun s l =>
  match l with
  | .comp t => inferInstanceAs
      (Decidable ((s.comp t).pushes.isSome = true → s.ioQueue.length < ioQueueSize))
  | .openChannel _ _ | .openOther | .openStep _ | .finishOpen _ _ _ | .logTS _ _ | .logStep _
  | .closeChannel _ | .closeStep _ | .io _ | .atExit | .signal | .exitStep => .isTrue trivial

/-- While the application makes no calls, none is under way. -/
def Handling (busy : ExitPc → Bool) (s : State) : Prop :=
  busy s.exit = true → ∀ c, (s.chan c).opn.opening = false ∧ (s.chan c).log = .idle

section Application

variable {sq : Squash} {s s' : State} {l : Label} {c : Nat} {ok : State → Label → Prop}
  {busy : ExitPc → Bool}

theorem AlwaysRoom.findsRoom (h : AlwaysRoom s l) : FindsRoom c s l := by
  cases l with
  | comp t => exact fun b hb _ => h (Option.isSome_iff_exists.mpr ⟨b, hb⟩)
  | _ => trivial

theorem BetweenCalls.idle (h : BetweenCalls s) (hwf : Wf s) (hok : (s.chan c).Ok) :
    (s.chan c).opn.opening = false ∧ (s.chan c).log = .idle := by
  refine ⟨(h.at hwf c).1, ?_⟩
  by_contra hl
  exact hl ((h.at hwf c).2 (by simp [hok.logging hl])).1

/-- Each channel is closed between two calls of `logTS`. -/
theorem Sequential.oneThread (hbusy : Busy busy) (h : Sequential busy s l) (hh : Handling busy s)
    (hwf : Wf s) (hok : (s.chan c).Ok) : OneThread c s l := by
  intro hc
  cases l with
  | logTS | closeChannel => exact (h.1.idle hwf hok).2
  | exitStep =>
      cases hx : s.exit with
      | closeAll m i b => exact (hh (by rw [hx]; exact hbusy.running _ rfl) c).2
      | _ => simp [closesNow, hx] at hc
  | _ => simp [closesNow] at hc

/-- A handler that moves is at work. -/
theorem ExitMove.running (hm : ExitMove s s') : s.exit.running = true := by
  cases hm with
  | goto hpc hg =>
      rw [hpc]
      cases hg <;> rfl
  | quickTerm h | close m i c h hc | closeFault m i c h hc | quickExit h =>
      rw [h]
      rfl

/-- **Step lemma**: while a handler keeps the application from making calls,
no call begins. -/
theorem Handling.step (hbusy : Busy busy) (h : Handling busy s) (hwf : Wf s)
    (hok : ∀ c, (s.chan c).Ok) (hg : Sequential busy s l) (hm : Move sq s l s') :
    Handling busy s' := by
  -- a thread that moves no call
  have hkeep : (busy s'.exit = true → busy s.exit = true) →
      (∀ c, (s'.chan c).opn = (s.chan c).opn ∧ (s'.chan c).log = (s.chan c).log) →
      Handling busy s' := fun hx hch hrun c => by
    rw [(hch c).1, (hch c).2]
    exact h (hx hrun) c
  have hupd : ∀ (c' : Nat) (ch : Closure), ch.opn = (s.chan c').opn → ch.log = (s.chan c').log →
      ∀ c, (Function.update s.chan c' ch c).opn = (s.chan c).opn ∧
        (Function.update s.chan c' ch c).log = (s.chan c).log := fun c' ch ho hl c => by
    by_cases hc : c = c'
    · rw [hc, Function.update_self]
      exact ⟨ho, hl⟩
    · rw [Function.update_of_ne hc]
      exact ⟨rfl, rfl⟩
  cases hm with
  | openChannel =>
      intro (hx : busy s.exit = true)
      have hno := hg.2.2
      simp [hx] at hno
  | openOther | closeChannel =>
      intro (hx : busy s.exit = true)
      have hno := hg.2
      simp [hx] at hno
  | logTS c' d hopn hlog h' =>
      intro hx
      have hno := hg.2
      cases h' <;> simp_all [callClose]
  | openStep c' h' =>
      intro hrun
      have hx : busy s.exit = true := by cases h' <;> exact hrun
      have := (h hx c').1
      cases h' <;> simp_all [OpenPc.opening]
  | finishOpen c' ok mem hopn =>
      intro hrun
      have := (h hrun c').1
      simp [hopn, OpenPc.opening] at this
  | logStep c' h' =>
      intro hrun
      have hx : busy s.exit = true := by cases h' <;> exact hrun
      have := (h hx c').2
      cases h' <;> simp_all
  | closeStep c' h' =>
      cases h' <;> exact hkeep (fun hx => hx) (hupd _ _ rfl rfl)
  | io t h' =>
      cases h' with
      | write | send => exact hkeep (fun hx => hx) (hupd _ _ rfl rfl)
      | _ => exact hkeep (fun hx => hx) fun _ => ⟨rfl, rfl⟩
  | comp t h' =>
      cases h' with
      | work | send => exact hkeep (fun hx => hx) (hupd _ _ rfl rfl)
      | _ => exact hkeep (fun hx => hx) fun _ => ⟨rfl, rfl⟩
  | atExit hx | signal hx => exact fun _ c => hg.idle hwf (hok c)
  | exitStep h' =>
      have hrun := hbusy.running _ h'.running
      cases h' with
      | close => exact hkeep (fun _ => hrun) (hupd _ _ rfl rfl)
      | _ => exact hkeep (fun _ => hrun) fun _ => ⟨rfl, rfl⟩

theorem Reached.handling (hbusy : Busy busy) (hseq : ∀ s l, ok s l → Sequential busy s l)
    (hr : Reached sq ok s) : Handling busy s := by
  refine hr.invariant_of (I := Handling busy) (J := fun s => Wf s ∧ ∀ c, (s.chan c).Ok)
    (fun s hs => ⟨Reached.wf hs, Reached.chanOk hs⟩) ?_ ?_
  · intro hx
    simp [State.init, hbusy.idle] at hx
  · rintro s l s' ⟨hwf, hok⟩ h hg hs
    exact h.step hbusy hwf hok (hseq s l hg) (step_move hs).2

end Application

/-! ## `buffer_write_thread` -/

/-- The I/O thread has not cleared `buffer_write_thread`. -/
def IoPc.active : IoPc → Bool
  | .unborn | .clearIo | .clearComp | .clearVec | .done => false
  | .start | .readCreated | .readStop | .rereadCreated | .readNum | .pop _ | .write _ _ | .send _ _
  | .readQuick | .clearPtr => true

/-- `buffer_write_thread` points to the I/O thread at work, once the call that
created the thread has stored it. -/
structure Pointed (s : State) : Prop where
  active : ∀ t, (s.io t).active = true →
    s.bufferWriteThread = some t ∨ ∃ c, (s.chan c).opn = .ioStore t
  store : ∀ c t, (s.chan c).opn = .ioStore t → (s.io t).serving = true
  live : ∀ t, s.bufferWriteThread = some t → (s.io t).active = true

section Pointer

variable {sq : Squash} {s s' : State} {l : Label} {c t : Nat} {ok : State → Label → Prop}

theorem IoPc.active_of_serving {pc : IoPc} (h : pc.serving = true) : pc.active = true := by
  cases pc with
  | pop m | write m p | send m p => rfl
  | _ => simp_all [IoPc.serving, IoPc.active]

theorem IoPc.onDuty_of_active {pc : IoPc} (h : pc.active = true) : pc.onDuty = true := by
  cases pc <;> simp_all [IoPc.active, IoPc.onDuty]

theorem ioStore_update {f : Nat → Closure} {c' : Nat} {ch : Closure}
    (h : ∀ t, ch.opn = .ioStore t ↔ (f c').opn = .ioStore t) (c t : Nat) :
    (Function.update f c' ch c).opn = .ioStore t ↔ (f c).opn = .ioStore t := by
  by_cases hc : c = c'
  · rw [hc, Function.update_self, h]
  · rw [Function.update_of_ne hc]

/-- Steps that touch neither the I/O threads nor the pointer. -/
theorem Pointed.congr (h : Pointed s)
    (hopn : ∀ c t, (s'.chan c).opn = .ioStore t ↔ (s.chan c).opn = .ioStore t)
    (hio : s'.io = s.io) (hptr : s'.bufferWriteThread = s.bufferWriteThread) : Pointed s' := by
  refine ⟨fun t ht => ?_, fun c t hc => ?_, fun t ht => ?_⟩
  · rw [hptr]
    rw [hio] at ht
    simp only [hopn]
    exact h.active t ht
  · rw [hio]
    exact h.store c t ((hopn c t).mp hc)
  · rw [hio]
    rw [hptr] at ht
    exact h.live t ht

/-- The I/O thread is created by a call that stores it next. -/
theorem OpenMove.pointed (h : Pointed s) (hwf : Wf s) (hcnt : Counted s) (hm : OpenMove s c s') :
    Pointed s' := by
  cases hm with
  | ioStore t hc =>
      have hserv := h.store c t hc
      have hone : ∀ t', (s.io t').active = true → t' = t := fun t' ht' =>
        hcnt.onDuty_unique hwf (IoPc.onDuty_of_active ht')
          (IoPc.onDuty_of_active (IoPc.active_of_serving hserv))
      refine ⟨fun t' ht' => .inl (by rw [hone t' ht']), fun c' t' hc' => ?_, fun t' ht' => ?_⟩
      · by_cases he : c' = c
        · simp [he] at hc'
        · simp only [State.setChan, Function.update_of_ne he] at hc'
          exact h.store c' t' hc'
      · cases ht'
        exact IoPc.active_of_serving hserv
  | ioNew hc =>
      have hunb : s.io s.ioCnt = .unborn := (hwf.io _).mpr (Nat.le_refl _)
      have hold : ∀ t', (s.io t').active = true → t' ≠ s.ioCnt := fun t' ht' he => by
        simp [he, hunb, IoPc.active] at ht'
      refine ⟨fun t' ht' => ?_, fun c' t' hc' => ?_, fun t' ht' => ?_⟩
      · by_cases he : t' = s.ioCnt
        · exact .inr ⟨c, by simp [he]⟩
        · simp only [State.setChan, State.setIo, Function.update_of_ne he] at ht'
          refine (h.active t' ht').imp_right fun ⟨c', hc'⟩ => ⟨c', ?_⟩
          have hne : c' ≠ c := fun hcc => by simp [hcc, hc] at hc'
          simpa only [State.setChan, State.setIo, Function.update_of_ne hne] using hc'
      · by_cases he : c' = c
        · simp only [State.setChan, he, Function.update_self, OpenPc.ioStore.injEq] at hc'
          simp [← hc', IoPc.serving]
        · simp only [State.setChan, Function.update_of_ne he] at hc'
          have hserv := h.store c' t' hc'
          simpa only [State.setChan, State.setIo,
            Function.update_of_ne (hold t' (IoPc.active_of_serving hserv))] using hserv
      · have hact := h.live t' ht'
        simpa only [State.setChan, State.setIo, Function.update_of_ne (hold t' hact)] using hact
  | compNew i hc =>
      refine h.congr (ioStore_update fun t => ?_) rfl rfl
      dsimp only [State.setComp]
      rw [hc]
      split <;> simp
  | _ => exact h.congr (ioStore_update fun t => by simp [*]) rfl rfl

theorem IoGoto.active {pc pc' : IoPc} (h : IoGoto s pc pc') :
    pc.active = true ∧ pc'.active = true ∧
      (pc.serving = true → pc'.serving = true ∨ pc'.leaving = true) := by
  cases h <;> simp [IoPc.active, IoPc.serving, IoPc.leaving, IoPc.flushing]

theorem IoMode.next_active (m : IoMode) : m.next.active = true := by
  cases m <;> rfl

/-- An I/O thread moves on, its pointer stays. -/
theorem Pointed.setIo {pc : IoPc} (h : Pointed s) (hses : Sessions s')
    (hok : ∀ c, (s.chan c).Ok) (hopn : ∀ c, (s'.chan c).opn = (s.chan c).opn ∧
      ((s'.chan c).needy ↔ (s.chan c).needy) ∧ (s'.chan c).compress = (s.chan c).compress)
    (hio : s'.io = Function.update s.io t pc)
    (hptr : s'.bufferWriteThread = s.bufferWriteThread)
    (hact : pc.active = (s.io t).active)
    (hserv : (s.io t).serving = true → pc.serving = true ∨ pc.leaving = true) : Pointed s' := by
  have hact' : ∀ t', (s'.io t').active = (s.io t').active := fun t' => by
    rw [hio]
    by_cases ht : t' = t
    · rw [ht, Function.update_self, hact]
    · rw [Function.update_of_ne ht]
  refine ⟨fun t' ht' => ?_, fun c t' hc => ?_, fun t' ht' => ?_⟩
  · rw [hact'] at ht'
    rw [hptr]
    simp only [(hopn _).1]
    exact h.active t' ht'
  · -- the thread has not left its main loop: the call that stores it is under way
    rw [(hopn c).1] at hc
    have hold := h.store c t' hc
    by_contra hno
    have hl : (s'.io t').leaving = true := by
      rw [hio] at hno ⊢
      by_cases ht : t' = t
      · subst ht
        rw [Function.update_self] at hno ⊢
        exact (hserv hold).resolve_left hno
      · rw [Function.update_of_ne ht] at hno
        exact absurd hold hno
    exact (hses.settled t' (.inl hl)).channels c ((hopn c).2.1.mpr
      (needy_of_opening (hok c) (by simp [hc, OpenPc.opening]) (by simp [hc])))
  · rw [hptr] at ht'
    rw [hact']
    exact h.live t' ht'

theorem IoMove.pointed (h : Pointed s) (hses : Sessions s') (hwf : Wf s)
    (hok : ∀ c, (s.chan c).Ok) (hcnt : Counted s) (hm : IoMove s t s') : Pointed s' := by
  have hsame : ∀ c, (s.chan c).opn = (s.chan c).opn ∧ ((s.chan c).needy ↔ (s.chan c).needy) ∧
      (s.chan c).compress = (s.chan c).compress := fun _ => ⟨rfl, Iff.rfl, rfl⟩
  cases hm with
  | goto hpc hg =>
      obtain ⟨h1, h2, h3⟩ := hg.active
      exact h.setIo hses hok hsame rfl rfl (by rw [hpc, h1, h2]) (by rw [hpc]; exact h3)
  | start hpc =>
      exact h.setIo hses hok hsame rfl rfl (by rw [hpc]; rfl) fun _ => .inl rfl
  | quickExit | writeFault | popFault => exact h.congr (fun _ _ => Iff.rfl) rfl rfl
  | popRaw m p q hpc hq =>
      refine h.setIo hses hok hsame rfl rfl (by rw [hpc]; rfl) ?_
      cases m <;> simp [hpc, IoPc.serving]
  | popPacked m b q k hpc hq hk =>
      refine h.setIo hses hok hsame rfl rfl (by rw [hpc, m.next_active]; rfl) ?_
      cases m <;> simp [hpc, IoPc.serving, IoMode.next]
  | write m p hpc hw =>
      refine h.setIo hses hok ?_ rfl rfl (by rw [hpc]; rfl) ?_
      · exact same_phase_update rfl Iff.rfl rfl
      · cases m <;> simp [hpc, IoPc.serving]
  | send m p hpc hlen =>
      refine h.setIo hses hok ?_ rfl rfl (by rw [hpc, m.next_active]; rfl) ?_
      · exact same_phase_update rfl Iff.rfl rfl
      · cases m <;> simp [hpc, IoPc.serving, IoMode.next]
  | clearPtr hpc =>
      have hone : ∀ t', (s.io t').active = true → t' = t := fun t' ht' =>
        hcnt.onDuty_unique hwf (IoPc.onDuty_of_active ht') (by rw [hpc]; rfl)
      refine ⟨fun t' ht' => ?_, fun c t' hc => ?_, fun t' ht' => by cases ht'⟩
      · simp only [State.setIo] at ht'
        grind [Function.update_apply, IoPc.active]
      · have hserv := h.store c t' hc
        rw [hone t' (IoPc.active_of_serving hserv), hpc] at hserv
        cases hserv
  | clearIo hpc | clearComp hpc | clearVec hpc =>
      exact h.setIo hses hok hsame rfl rfl (by rw [hpc]; rfl) (by simp [hpc, IoPc.serving])

/-- **Step lemma**: the pointer is kept with the thread. -/
theorem Pointed.step (h : Pointed s) (hses : Sessions s') (hwf : Wf s) (hok : ∀ c, (s.chan c).Ok)
    (hcnt : Counted s) (hm : Move sq s l s') : Pointed s' := by
  cases hm with
  | openChannel f z =>
      have hfresh := hwf.fresh _ (Nat.le_refl s.nextChannel)
      exact h.congr (ioStore_update fun t => by simp [hfresh, Closure.new]) rfl rfl
  | openStep c h' => exact h'.pointed h hwf hcnt
  | finishOpen c ok mem hopn =>
      refine h.congr (ioStore_update fun t => ?_) rfl rfl
      rw [hopn]
      split <;> simp
  | logTS c d hopn hlog h' =>
      cases h' with
      | null => exact h
      | _ => exact h.congr (ioStore_update fun _ => Iff.rfl) rfl rfl
  | logStep c h' =>
      cases h' with
      | setIdFault => exact h.congr (fun _ _ => Iff.rfl) rfl rfl
      | _ => exact h.congr (ioStore_update fun _ => Iff.rfl) rfl rfl
  | closeStep c h' => cases h' <;> exact h.congr (ioStore_update fun _ => Iff.rfl) rfl rfl
  | closeChannel c hopn => exact h.congr (ioStore_update fun _ => Iff.rfl) rfl rfl
  | io t h' => exact h'.pointed h hses hwf hok hcnt
  | comp t h' =>
      cases h' with
      | work | send => exact h.congr (ioStore_update fun _ => Iff.rfl) rfl rfl
      | _ => exact h.congr (fun _ _ => Iff.rfl) rfl rfl
  | exitStep h' =>
      cases h' with
      | close => exact h.congr (ioStore_update fun _ => Iff.rfl) rfl rfl
      | _ => exact h.congr (fun _ _ => Iff.rfl) rfl rfl
  | _ => exact h.congr (fun _ _ => Iff.rfl) rfl rfl

end Pointer

/-! ## runs that end well -/

/-- The application makes one call after the other, the threads are there
while they are needed, `io_queue` has room, and no producer runs out of
ids. -/
def Disciplined (busy : ExitPc → Bool) (s : State) (l : Label) : Prop :=
  Sequential busy s l ∧ Orderly s l ∧ AlwaysRoom s l ∧ IdsLeft s l

instance (busy : ExitPc → Bool) : DecidableRel (Disciplined busy) := fun s l =>
  inferInstanceAs (Decidable (Sequential busy s l ∧ Orderly s l ∧ AlwaysRoom s l ∧ IdsLeft s l))

/-- Everything logged on channel `c` is in its file: the file holds the
blocks enqueued, and these the records logged. -/
def Saved (sq : Squash) (s : State) (c : Nat) : Prop :=
  (s.sink.chLogf c).content = (s.chan c).sent.flatMap ((s.chan c).blockBytes sq) ∧
    (s.chan c).sent.flatten = (s.chan c).logged

/-- All channels are closed and nothing is on its way to a file. -/
structure Finished (s : State) : Prop where
  channels : ∀ c, ¬ (s.chan c).needy
  drained : Drained s
  io : ∀ t, (s.io t).writesFor = none

section Runs

variable {sq : Squash} {s s' : State} {l : Label} {c : Nat} {ok : State → Label → Prop}
  {busy : ExitPc → Bool}

/-- Nothing of any channel is on its way. -/
theorem Drained.quiet (h : Drained s) (hio : ∀ t, (s.io t).writesFor = none) : Quiet s c := by
  refine ⟨?_, fun t => ?_, ?_, fun t => ?_⟩
  · rw [h.compressionQueue]
    simp
  · have := h.comp t
    cases hpc : s.comp t <;> simp_all [CompPc.worksFor, CompPc.holding]
  · rw [h.ioQueue]
    simp
  · rw [hio t]
    simp

/-- In a run of one application thread each channel is used by one thread. -/
theorem Reached.oneThread (hbusy : Busy busy) (hok : ∀ s l, ok s l → Disciplined busy s l)
    (hr : Reached sq ok s) : Reached sq (fun s l => ok s l ∧ ∀ c, OneThread c s l) s :=
  hr.mono_of fun _ _ hs hl => ⟨hl, fun c => (hok _ _ hl).1.oneThread hbusy
    (Reached.handling hbusy (fun _ _ h => (hok _ _ h).1) hs) (Reached.wf hs) (Reached.chanOk hs c)⟩

/-- No thread fails. -/
theorem Reached.live (hsq : sq.Total) (hbusy : Busy busy)
    (hok : ∀ s l, ok s l → Disciplined busy s l) (hr : Reached sq ok s) : s.fault = false := by
  refine Reached.defined hsq (fun s f z h => (hok s (.openChannel f z) h).1.1)
    (fun s l h => (hok s l h).2.2.2) (fun s hs _ => ?_) hr
  rw [ClosesOpened]
  split
  · next m i hx =>
    intro c _ ho
    have hbegun := hbusy.running _ (show s.exit.running = true by rw [hx]; rfl)
    have hhand := Reached.handling hbusy (fun s l h => (hok s l h).1) hs hbegun c
    rw [ho] at hhand
    cases hhand.1
  · trivial

theorem Reached.sessions_disciplined (hbusy : Busy busy)
    (hok : ∀ s l, ok s l → Disciplined busy s l) (hr : Reached sq ok s) : Sessions s :=
  Reached.sessions (fun _ _ h => (hok _ _ h.1).2.1) (fun c _ _ h => h.2 c)
    (Reached.oneThread hbusy hok hr)

theorem Reached.pointed (hbusy : Busy busy) (hok : ∀ s l, ok s l → Disciplined busy s l)
    (hr : Reached sq ok s) : Pointed s := by
  refine hr.invariant_of (I := Pointed) (J := Reached sq ok) (fun _ h => h) ?_ ?_
  · constructor <;> simp [State.init, Closure.new, IoPc.active]
  · intro s l s' hs h hg hst
    exact h.step (Reached.sessions_disciplined hbusy hok (Reach.step hs hg hst)) (Reached.wf hs)
      (Reached.chanOk hs) (Reached.counted hs) (step_move hst).2

/-- **Run lemma**: once all channels are closed and nothing is on its way,
every file is complete. -/
theorem Reached.saved (hsq : sq.Total) (hbusy : Busy busy)
    (hok : ∀ s l, ok s l → Disciplined busy s l) (hr : Reached sq ok s) (h : Finished s)
    (hready : (s.chan c).opn = .ready) : Saved sq s c := by
  have hone := Reached.oneThread hbusy hok hr
  obtain ⟨htsc, hraw, hcomp⟩ := Reached.opened_as (P := Opens) (c := c)
    (fun s f z h => (hok s (.openChannel f z) h).1.1) hr (by simp [hready])
  rw [← (Reached.chanOk hr c).writer] at hraw
  obtain ⟨n, harr⟩ := Reached.arrives (c := c) hsq (fun _ _ h => h.2 c)
    (fun _ _ h => (hok _ _ h.1).2.2.1.findsRoom) hone hready htsc hcomp hraw
  have hacc := Reached.accounted (c := c) (fun _ _ h => h.2 c) hone htsc
  have hown : ¬ (s.chan c).owns := by
    rintro ⟨-, -, hclose⟩
    refine h.channels c ⟨⟨by simp [hready], by simp [hready], ?_⟩, ?_⟩ <;>
      obtain hc | hc | hc := hclose <;> simp [hc]
  refine ⟨harr.all (h.drained.quiet h.io), ?_⟩
  rw [hacc, openRecords_of_not_owns hown, List.append_nil]

/-- An I/O thread that is not at work neither serves nor flushes nor writes; if
it is on duty it is leaving. -/
theorem IoPc.of_not_active {m : IoPc} (h : m.active = false) :
    m.serving = false ∧ m.flushing = false ∧ m.writesFor = none ∧
      (m.onDuty = true → m.leaving = true) := by
  cases m <;> first | exact ⟨rfl, rfl, rfl, by decide⟩ | cases h

/-- A channel that was opened is past the creation of the I/O thread. -/
theorem OpenPc.pastIoCreated_of_not_opening {o : OpenPc} (h : o.opening = false)
    (hne : o ≠ .fresh) : o.pastIoCreated = true := by
  cases o <;> first | rfl | exact absurd rfl hne | cases h

/-- Between two calls, without `buffer_write_thread`, everything is
finished. -/
theorem Pointed.finished (h : Pointed s) (hses : Sessions s) (hcnt : Counted s)
    (hopening : ∀ c, (s.chan c).opn.opening = false) (hnone : s.bufferWriteThread = none) :
    Finished s := by
  have hopn : ∀ c o, (s.chan c).opn = o → o.opening = true → False := fun c o ho hopen => by
    have := hopening c
    simp [ho, hopen] at this
  have hact : ∀ t, (s.io t).active = false := fun t => Bool.eq_false_iff.mpr fun ht => by
    obtain hp | ⟨c, hc⟩ := h.active t ht
    · simp [hnone] at hp
    · exact hopn c _ hc rfl
  refine ⟨fun c hc => ?_, ?_, fun t => ?_⟩
  · -- the flag stands for a thread, which can only be leaving
    have hpast := OpenPc.pastIoCreated_of_not_opening (hopening c) hc.1.1
    obtain ⟨t, ht⟩ | ⟨c', hc'⟩ := hcnt.onDuty_or_ioNew (hses.ioFlag c hc hpast)
    · obtain ⟨-, -, -, hleave⟩ := IoPc.of_not_active (hact t)
      exact (hses.settled t (.inl (hleave ht))).channels c hc
    · exact hopn c' _ hc' rfl
  · obtain ⟨t, ht⟩ | ⟨c, hc⟩ | hd := hses.drained
    · obtain ⟨hserving, hflushing, -⟩ := IoPc.of_not_active (hact t)
      simp [hserving, hflushing] at ht
    · exact (hopn c _ hc rfl).elim
    · exact hd
  · exact (IoPc.of_not_active (hact t)).2.2.1

end Runs

/-! ## termination by a signal -/

/-- The signal handler is going to terminate the process itself. -/
def ExitPc.quits : ExitPc → Bool
  | .closeAll .quit _ _ | .quick => true
  | _ => false

section Signal

variable {sq : Squash} {s s' : State} {l : Label} {c : Nat}

theorem ExitPc.running_of_quits {pc : ExitPc} (h : pc.quits = true) : pc.running = true := by
  cases pc <;> simp_all [ExitPc.quits, ExitPc.running]

/-- Nobody opens a channel while a handler runs. -/
theorem Handling.not_openStep {busy : ExitPc → Bool} (h : Handling busy s) (hm : OpenMove s c s')
    (hx : busy s.exit = true) : False := by
  have := (h hx c).1
  cases hm <;> simp_all [OpenPc.opening]

/-- **Step lemma**: the signal handler terminates the process itself only
while there is no I/O thread. -/
theorem quits_step (h : s.exit.quits = true → s.bufferWriteThread = none)
    (hh : Handling ExitPc.running s) (hm : Move sq s l s') (hx : s'.exit.quits = true) :
    s'.bufferWriteThread = none := by
  cases hm with
  | openStep c h' =>
      have hx' : s.exit.quits = true := by cases h' <;> exact hx
      exact (hh.not_openStep h' (ExitPc.running_of_quits hx')).elim
  | logTS c d hopn hlog h' => cases h' <;> exact h hx
  | logStep c h' | closeStep c h' => cases h' <;> exact h hx
  | io t h' =>
      cases h' with
      | clearPtr => rfl
      | _ => exact h hx
  | comp t h' => cases h' <;> exact h hx
  | exitStep h' =>
      cases h' with
      | goto hpc hg =>
          cases hg with
          | sigPtrQuit hnone => exact hnone
          | allClosed m i hi =>
              cases m with
              | quit => exact h (by rw [hpc]; rfl)
              | _ => simp [ExitMode.after, ExitPc.quits] at hx
          | returned m i c hc hd =>
              cases m with
              | quit => exact h (by rw [hpc]; rfl)
              | _ => simp [ExitPc.quits] at hx
          | _ => simp [ExitPc.quits] at hx
      | quickTerm hpc => simp [ExitPc.quits] at hx
      | close m i c hpc hc =>
          cases m with
          | quit => exact h (by rw [hpc]; rfl)
          | _ => split at hx <;> simp [ExitPc.quits] at hx
      | quickExit | closeFault => exact h hx
  | atExit | signal => simp [ExitPc.quits] at hx
  | _ => exact h hx

/-- The I/O thread terminates the process when nobody needs it. -/
theorem Settled.finished {t : Nat} (h : Settled s) (hwf : Wf s) (hcnt : Counted s)
    (hpc : s.io t = .pop (.flush true)) (hq : s.ioQueue = []) : Finished s := by
  refine ⟨h.channels, h.drained hq, fun t' => ?_⟩
  by_cases hduty : (s.io t').onDuty = true
  · have hduty' : (s.io t).onDuty = true := by rw [hpc]; rfl
    rw [hcnt.onDuty_unique hwf hduty hduty', hpc]
    rfl
  · cases hpc' : s.io t' <;> simp_all [IoPc.onDuty, IoPc.writesFor]

/-- **Run lemma**: when the process is terminated, all channels are closed
and nothing is on its way. -/
theorem Reached.finished_of_exited (hr : Reached sq (Disciplined ExitPc.running) s)
    (hx : s.exited = true) : Finished s := by
  revert hx
  have hdisc : ∀ s l, Disciplined ExitPc.running s l → Disciplined ExitPc.running s l :=
    fun _ _ h => h
  have hhand : ∀ s, Reached sq (Disciplined ExitPc.running) s → Handling ExitPc.running s :=
    fun s hs => Reached.handling busy_running (fun _ _ h => h.1) hs
  have hquits : ∀ s, Reached sq (Disciplined ExitPc.running) s → s.exit.quits = true →
      s.bufferWriteThread = none := fun s hs => by
    refine hs.invariant_of (J := Reached sq (Disciplined ExitPc.running))
      (I := fun s => s.exit.quits = true → s.bufferWriteThread = none) (fun _ h => h)
      (fun _ => rfl) ?_
    exact fun s l s' hs ih _ hst => quits_step ih (hhand s hs) (step_move hst).2
  refine hr.invariant_of (J := Reached sq (Disciplined ExitPc.running))
    (I := fun s => s.exited = true → Finished s) (fun _ h => h) (fun h => by cases h) ?_
  intro s l s' hs _ _ hst hx
  obtain ⟨⟨-, hlive⟩, hm⟩ := step_move hst
  have hno : s.exited = true → Finished s' := fun h => by simp [hlive] at h
  have hses := Reached.sessions_disciplined busy_running hdisc hs
  have hcnt := Reached.counted hs
  cases hm with
  | openStep c h' => cases h' <;> exact hno hx
  | logTS c d hopn hlog h' => cases h' <;> exact hno hx
  | logStep c h' | closeStep c h' => cases h' <;> exact hno hx
  | io t h' =>
      cases h' with
      | quickExit hpc hq =>
          have h := (hses.settled t (.inl (by rw [hpc]; rfl))).finished (Reached.wf hs) hcnt hpc hq
          exact ⟨h.channels, h.drained.congr rfl rfl rfl, h.io⟩
      | _ => exact hno hx
  | comp t h' => cases h' <;> exact hno hx
  | exitStep h' =>
      cases h' with
      | quickExit hpc =>
          have h := (Reached.pointed busy_running hdisc hs).finished hses hcnt
            (fun c => (hhand s hs (by rw [hpc]; rfl) c).1) (hquits s hs (by rw [hpc]; rfl))
          exact ⟨h.channels, h.drained.congr rfl rfl rfl, h.io⟩
      | _ => exact hno hx
  | _ => exact hno hx

/-- **Termination by a signal saves every record**, in every run of one
application thread that takes none of the steps `Orderly` excludes: no thread
fails, and when `quick_exit` is called, by the handler or by the I/O thread,
the file of every channel holds the blocks enqueued, and they hold the
records logged. -/
theorem quick_exit_saves (hsq : sq.Total) (hr : Reached sq (Disciplined ExitPc.running) s) :
    s.fault = false ∧
      (s.exited = true → ∀ c, (s.chan c).opn = .ready → Saved sq s c) :=
  ⟨Reached.live hsq busy_running (fun _ _ h => h) hr, fun hx _ hready =>
    Reached.saved hsq busy_running (fun _ _ h => h) hr (Reached.finished_of_exited hr hx) hready⟩

/-- The exit handler closes channel `c`. -/
def exitCloseRun (c : Nat) : List Label :=
  .exitStep :: List.replicate 4 (.closeStep c) ++ [.exitStep]

/-- Compression thread 0 takes the one block there is, and the four threads
return. -/
def compReturnRun : List Label :=
  List.replicate 8 (.comp 0) ++ List.replicate 4 (.comp 1) ++ List.replicate 4 (.comp 2) ++
    List.replicate 4 (.comp 3)

/-- The process is terminated by a signal: the handler closes both channels,
and the I/O thread terminates the process. -/
theorem quick_exit_saves_mixed :
    ∃ s, Reached copySquash (Disciplined ExitPc.running) s ∧ s.exited = true ∧
      (s.chan 0).logged = someRecords ∧ Saved copySquash s 0 ∧
      (s.chan 1).logged = someRecords ∧ Saved copySquash s 1 := by
  obtain ⟨s, hr, hs⟩ := Reached.of_run copySquash (Disciplined ExitPc.running)
    (mixedRun ++ [.signal, .exitStep, .exitStep] ++ exitCloseRun 0 ++ exitCloseRun 1 ++
      compReturnRun ++ List.replicate 10 (.io 0))
    (fun s => decide (s.exited = true ∧ (s.chan 0).logged = someRecords ∧
      (s.chan 1).logged = someRecords ∧ (s.chan 0).opn = .ready ∧ (s.chan 1).opn = .ready))
    (by decide +kernel)
  obtain ⟨hx, h0, h1, hready0, hready1⟩ := of_decide_eq_true hs
  have hsaved := (quick_exit_saves copySquash_total hr).2 hx
  exact ⟨s, hr, hx, h0, hsaved 0 hready0, h1, hsaved 1 hready1⟩

/-- **Termination by a signal loses a record.**  Channel 0 is compressed,
channel 1 is not and holds one record.  The handler has closed channel 0 when
the compression threads return and the I/O thread terminates the process;
channel 1 has not been closed yet. -/
theorem quick_exit_loses :
    copySquash.Total ∧
      ∃ s, Reached copySquash
          (fun s l => Sequential ExitPc.running s l ∧ AlwaysRoom s l ∧ IdsLeft s l) s ∧
        s.exited = true ∧ (s.chan 1).opn = .ready ∧ (s.chan 1).logged = [⟨7, 1, 2, 3, 4, 0⟩] ∧
        (s.sink.chLogf 1).content = [] ∧ ¬ Saved copySquash s 1 := by
  obtain ⟨s, hr, hs⟩ := Reached.of_run copySquash
    (fun s l => Sequential ExitPc.running s l ∧ AlwaysRoom s l ∧ IdsLeft s l)
    (compOpenRun ++ [Label.openChannel .ascii false, Label.openStep 1, Label.openStep 1,
        Label.openStep 1, Label.openStep 1, Label.finishOpen 1 true fun _ _ => someRecord,
        Label.logTS 1 ⟨7, 1, 2, 3, 4, 0⟩, Label.logStep 1, Label.logStep 1, Label.signal] ++
      List.replicate 3 Label.exitStep ++ List.replicate 3 (Label.closeStep 0) ++
      List.replicate 8 (Label.comp 0) ++ List.replicate 4 (Label.comp 1) ++
      List.replicate 4 (Label.comp 2) ++ List.replicate 4 (Label.comp 3) ++
      List.replicate 7 (Label.io 0))
    (fun s => decide (s.exited = true ∧ (s.chan 1).opn = .ready ∧
      (s.chan 1).logged = [⟨7, 1, 2, 3, 4, 0⟩] ∧ (s.sink.chLogf 1).content = [] ∧
      (s.chan 1).sent = [])) (by decide +kernel)
  obtain ⟨hx, hready, hlogged, hfile, hsent⟩ := of_decide_eq_true hs
  refine ⟨copySquash_total, s, hr, hx, hready, hlogged, hfile, fun h => ?_⟩
  have := h.2
  simp [hsent, hlogged] at this

end Signal

/-! ## normal exit -/

/-- What `buffer_write_thread` is while `cleanUpAtNormalExit` stands at `pc`. -/
def ExitPc.points (ptr : Option Nat) : ExitPc → Prop
  | .idle | .closeAll .normal _ _ | .test => True
  | .load => ptr ≠ none
  | .join t => ptr = none ∨ ptr = some t
  | .delete | .done => ptr = none
  | .nullJoin | .sigComp | .sigPtr | .sigQuick | .closeAll .wait _ _ | .closeAll .quit _ _
  | .quick => False

/-- The I/O thread does not clear `buffer_write_thread` between the two reads
of `cleanUpAtNormalExit`, and no signal arrives. -/
def ClearsInTime (s : State) : Label → Prop
  | .io t => s.io t = .clearPtr → s.exit ≠ .load
  | .signal => False
  | .openChannel _ _ | .openOther | .openStep _ | .finishOpen _ _ _ | .logTS _ _ | .logStep _
  | .closeChannel _ | .closeStep _ | .comp _ | .atExit | .exitStep => True

instance : DecidableRel ClearsInTime := fun s l =>
  match l with
  | .io t => inferInstanceAs (Decidable (s.io t = .clearPtr → s.exit ≠ .load))
  | .signal => .isFalse fun h => h
  | .openChannel _ _ | .openOther | .openStep _ | .finishOpen _ _ _ | .logTS _ _ | .logStep _
  | .closeChannel _ | .closeStep _ | .comp _ | .atExit | .exitStep => .isTrue trivial

/-- Runs of a process that exits normally. -/
def NormalExit (s : State) (l : Label) : Prop :=
  Disciplined ExitPc.begun s l ∧ ClearsInTime s l

instance : DecidableRel NormalExit := fun s l =>
  inferInstanceAs (Decidable (Disciplined ExitPc.begun s l ∧ ClearsInTime s l))

section Normal

variable {sq : Squash} {s s' : State} {l : Label} {c : Nat}

/-- The handler's own steps. -/
theorem ExitMove.points (h : s.exit.points s.bufferWriteThread) (hp : Pointed s)
    (hm : ExitMove s s') : s'.exit.points s'.bufferWriteThread := by
  cases hm with
  | goto hpc hg =>
      rw [hpc] at h
      cases hg with
      | allClosed m i hi =>
          cases m with
          | normal => exact trivial
          | _ => exact h.elim
      | returned m i c hc hd => cases m <;> exact h
      | testLoad hne => exact hne
      | testDone hnone => exact hnone
      | load t ht => exact .inr ht
      | loadNull hnone => exact absurd hnone h
      | join t hdone =>
          refine h.resolve_right fun ht => ?_
          have hact := hp.live t ht
          rw [hdone] at hact
          cases hact
      | delete => exact h
      | _ => exact h.elim
  | quickTerm hpc =>
      rw [hpc] at h
      exact h.elim
  | close m i c hpc hc =>
      rw [hpc] at h
      cases m with
      | normal =>
          dsimp only
          split <;> exact trivial
      | _ => exact h.elim
  | quickExit | closeFault => exact h

/-- **Step lemma**: the handler finds what it has tested. -/
theorem points_step (h : s.exit.points s.bufferWriteThread) (hh : Handling ExitPc.begun s)
    (hp : Pointed s) (hg : ClearsInTime s l) (hm : Move sq s l s') :
    s'.exit.points s'.bufferWriteThread := by
  cases hm with
  | openStep c h' =>
      cases hx : s.exit with
      | idle => cases h' <;> simp [hx, ExitPc.points]
      | _ => exact (hh.not_openStep h' (by rw [hx]; rfl)).elim
  | logTS c d hopn hlog h' => cases h' <;> exact h
  | logStep c h' | closeStep c h' => cases h' <;> exact h
  | io t h' =>
      cases h' with
      | clearPtr hpc =>
          have hload := hg hpc
          simp only [State.setIo]
          cases hx : s.exit with
          | closeAll m i b => cases m <;> simp_all [ExitPc.points]
          | _ => simp_all [ExitPc.points]
      | _ => exact h
  | comp t h' => cases h' <;> exact h
  | atExit => exact trivial
  | signal => exact hg.elim
  | exitStep h' => exact h'.points h hp
  | _ => exact h

/-- **Normal exit is safe**, in every run of one application thread that
takes none of the steps `Orderly` excludes and in which the I/O thread does
not clear `buffer_write_thread` between the two reads of
`cleanUpAtNormalExit`: no thread fails, `join` is not called on NULL, and when
the handler returns the file of every channel holds all blocks enqueued, and
they hold the records logged. -/
theorem normal_exit_saves (hsq : sq.Total) (hr : Reached sq NormalExit s) :
    s.fault = false ∧ s.exit ≠ .nullJoin ∧
      (s.exit = .done → ∀ c, (s.chan c).opn = .ready → Saved sq s c) := by
  have hdisc : ∀ s l, NormalExit s l → Disciplined ExitPc.begun s l := fun _ _ h => h.1
  have hhand : ∀ s, Reached sq NormalExit s → Handling ExitPc.begun s := fun s hs =>
    Reached.handling busy_begun (fun _ _ h => h.1.1) hs
  have hpts : s.exit.points s.bufferWriteThread := by
    refine hr.invariant_of (J := Reached sq NormalExit)
      (I := fun s => s.exit.points s.bufferWriteThread) (fun _ h => h) trivial ?_
    exact fun s l s' hs ih hg hst =>
      points_step ih (hhand s hs) (Reached.pointed busy_begun hdisc hs) hg.2 (step_move hst).2
  refine ⟨Reached.live hsq busy_begun hdisc hr, fun hx => ?_, fun hx c hready => ?_⟩
  · rw [hx] at hpts
    exact hpts
  · rw [hx] at hpts
    have hopening := hhand s hr (by rw [hx]; rfl)
    exact Reached.saved hsq busy_begun hdisc hr
      ((Reached.pointed busy_begun hdisc hr).finished
        (Reached.sessions_disciplined busy_begun hdisc hr) (Reached.counted hr)
        (fun c => (hopening c).1) hpts) hready

/-- The process exits normally: the handler closes both channels, the I/O
thread is joined, and the records are in the files. -/
theorem normal_exit_saves_mixed :
    ∃ s, Reached copySquash NormalExit s ∧ s.exit = .done ∧
      (s.chan 0).logged = someRecords ∧ Saved copySquash s 0 ∧
      (s.chan 1).logged = someRecords ∧ Saved copySquash s 1 := by
  obtain ⟨s, hr, hs⟩ := Reached.of_run copySquash NormalExit
    (mixedRun ++ [.atExit] ++ exitCloseRun 0 ++ exitCloseRun 1 ++ List.replicate 3 .exitStep ++
      compReturnRun ++ List.replicate 14 (.io 0) ++ [.exitStep, .exitStep])
    (fun s => decide (s.exit = .done ∧ (s.chan 0).logged = someRecords ∧
      (s.chan 1).logged = someRecords ∧ (s.chan 0).opn = .ready ∧ (s.chan 1).opn = .ready))
    (by decide +kernel)
  obtain ⟨hx, h0, h1, hready0, hready1⟩ := of_decide_eq_true hs
  have hsaved := (normal_exit_saves copySquash_total hr).2.2 hx
  exact ⟨s, hr, hx, h0, hsaved 0 hready0, h1, hsaved 1 hready1⟩

/-- **Normal exit joins NULL.**  The handler closes the only channel and finds
`buffer_write_thread` set; the I/O thread leaves its main loop, flushes and
clears it, and the handler loads NULL and calls `join` on it. -/
theorem normal_exit_joins_null :
    copySquash.Total ∧
      ∃ s, Reached copySquash (fun s l => Disciplined ExitPc.begun s l) s ∧
        s.exit = .nullJoin := by
  obtain ⟨s, hr, hs⟩ := Reached.of_run copySquash (fun s l => Disciplined ExitPc.begun s l)
    (openRun ++ [Label.atExit, Label.exitStep] ++ List.replicate 4 (Label.closeStep 0) ++
      List.replicate 3 Label.exitStep ++ List.replicate 11 (Label.io 0) ++ [Label.exitStep])
    (fun s => decide (s.exit = .nullJoin)) (by decide +kernel)
  exact ⟨copySquash_total, s, hr, of_decide_eq_true hs⟩

end Normal

end CloudProfiler
