import CloudProfiler.Buffer.Exit

/-!
# CloudProfiler.Buffer.Drain

One session of compressed channels: all are opened, then they log and are
closed, in any order and by any threads, and the I/O thread returns.

* `FirstSession` — what the order "first open, then close" keeps of the
  threads and their flags;
* `FirstSession.orderly` — such a session takes none of the steps `Orderly`
  excludes, except for the race on `comp_thread_created`;
* `session_drained` / `session_not_drained` — what is left when the I/O
  thread returns.
-/

namespace CloudProfiler

/-- The kind of the channels of the session. -/
def OpensCompressed (f : LogFormat) (compress : Bool) (c : Nat) : Prop :=
  compress = true ∧ (f = .zstd ∨ f = .lzo1x) ∧ c < nextBlockSize

instance (f : LogFormat) (compress : Bool) (c : Nat) : Decidable (OpensCompressed f compress c) :=
  inferInstanceAs (Decidable (_ ∧ _))

/-- The session's channels are compressed, all of them are opened before one
is closed, each is closed between two calls of `logTS`, copies find a free
node in `io_queue`, and no producer runs out of block ids. -/
def OneSession (s : State) (l : Label) : Prop :=
  (match l with
    | .openChannel f z => OpensCompressed f z s.nextChannel ∧
        ∀ c < s.nextChannel, (s.chan c).handlerF ≠ .nullHandler
    | .exitStep => ClosesOpened s
    | _ => True) ∧
  (∀ c ∈ closesNow s l, (s.chan c).log = .idle ∧
    ∀ c' < s.nextChannel, (s.chan c').opn.opening = false) ∧
  AlwaysRoom s l ∧ IdsLeft s l

instance : DecidableRel OneSession := fun s l => by
  unfold OneSession
  cases l <;> infer_instance

/-- `comp_thread_created` is not set for the first time while the I/O thread
is between its two reads of the flag, or between the second one and its read
of `num_buf_ch`. -/
def CreatedInTime (s : State) : Label → Prop
  | .openStep c => (s.chan c).opn = .compCreated → s.compThreadCreated = false →
      ∀ t < s.ioCnt, s.io t ≠ .rereadCreated ∧ s.io t ≠ .readNum
  | .openChannel _ _ | .openOther | .finishOpen _ _ _ | .logTS _ _ | .logStep _
  | .closeChannel _ | .closeStep _ | .io _ | .comp _ | .atExit | .signal | .exitStep => True

instance : DecidableRel CreatedInTime := fun s l =>
  match l with
  | .openStep c => inferInstanceAs (Decidable ((s.chan c).opn = .compCreated →
      s.compThreadCreated = false → ∀ t < s.ioCnt, s.io t ≠ .rereadCreated ∧ s.io t ≠ .readNum))
  | .openChannel _ _ | .openOther | .finishOpen _ _ _ | .logTS _ _ | .logStep _
  | .closeChannel _ | .closeStep _ | .io _ | .comp _ | .atExit | .signal | .exitStep =>
      .isTrue trivial

instance : DecidableRel fun s l => OneSession s l ∧ CreatedInTime s l := fun s l =>
  inferInstanceAs (Decidable (OneSession s l ∧ CreatedInTime s l))

/-! ## the order of the session -/

/-- Some channel has been closed. -/
def SomeClosed (s : State) : Prop := ∃ c, (s.chan c).handlerF = .nullHandler

/-- What holds in a session in which all channels are opened before one is
closed. -/
structure FirstSession (s : State) : Prop where
  opened : SomeClosed s → ∀ c, (s.chan c).opn.opening = false
  started : (∃ t, s.io t ≠ .unborn) ∨ s.compThreadCreated = true →
    ∃ c, (s.chan c).opn ≠ .fresh ∧ (s.chan c).opn ≠ .numBufCh
  flagged : s.compThreadCreated = false → s.compCnt = 0 ∨ SomeClosed s
  offDuty : ∀ t, s.io t ≠ .unborn → (s.io t).onDuty = false →
    SomeClosed s ∧ ∀ t', (s.io t').onDuty = false

section Session

variable {sq : Squash} {s s' : State} {l : Label} {c t : Nat}

/-- A channel that is past `num_buf_ch++` stays there. -/
theorem Move.past_numBufCh (hm : Move sq s l s') (hwf : Wf s)
    (h : (s.chan c).opn ≠ .fresh ∧ (s.chan c).opn ≠ .numBufCh) :
    (s'.chan c).opn ≠ .fresh ∧ (s'.chan c).opn ≠ .numBufCh := by
  have hupd : ∀ (c' : Nat) (ch : Closure), (c = c' → ch.opn ≠ .fresh ∧ ch.opn ≠ .numBufCh) →
      (Function.update s.chan c' ch c).opn ≠ .fresh ∧
        (Function.update s.chan c' ch c).opn ≠ .numBufCh := fun c' ch hch => by
    by_cases hc : c = c'
    · rw [hc, Function.update_self]
      exact hch hc
    · rw [Function.update_of_ne hc]
      exact h
  cases hm with
  | openChannel f z =>
      refine hupd _ _ fun hc => absurd (hwf.fresh c (Nat.le_of_eq hc.symm)) h.1
  | openStep c' h' =>
      cases h' with
      | compNew i hi =>
          refine hupd _ _ fun _ => ?_
          dsimp only
          split <;> simp
      | _ => exact hupd _ _ fun _ => by simp
  | finishOpen c' ok mem hopn =>
      refine hupd _ _ fun _ => ?_
      dsimp only
      split <;> simp
  | logTS c' d hopn hlog h' =>
      cases h' with
      | null => exact h
      | _ => exact hupd _ _ fun hc => hc ▸ h
  | logStep c' h' =>
      cases h' with
      | setIdFault => exact h
      | _ => exact hupd _ _ fun hc => hc ▸ h
  | closeStep c' h' => cases h' <;> exact hupd _ _ fun hc => hc ▸ h
  | closeChannel => exact hupd _ _ fun hc => hc ▸ h
  | io t h' =>
      cases h' with
      | write | send => exact hupd _ _ fun hc => hc ▸ h
      | _ => exact h
  | comp t h' =>
      cases h' with
      | work | send => exact hupd _ _ fun hc => hc ▸ h
      | _ => exact h
  | exitStep h' =>
      cases h' with
      | close => exact hupd _ _ fun hc => hc ▸ h
      | _ => exact h
  | _ => exact h

theorem Closure.Ok.needy_of_open {ch : Closure} (hok : ch.Ok)
    (h : ch.opn ≠ .fresh ∧ ch.opn ≠ .numBufCh) (hnull : ch.handlerF ≠ .nullHandler) :
    ch.needy := by
  have hclose : ch.close = .none := by
    by_contra hn
    exact hnull (hok.closing hn).1
  simp [Closure.needy, Closure.counted, h, hclose]

/-- When nobody needs the threads of a session that has begun, a channel has
been closed. -/
theorem FirstSession.someClosed (h : FirstSession s) (hok : ∀ c, (s.chan c).Ok)
    (hno : ∀ c, ¬ (s.chan c).needy)
    (hstart : (∃ t, s.io t ≠ .unborn) ∨ s.compThreadCreated = true) : SomeClosed s := by
  obtain ⟨c, hc⟩ := h.started hstart
  refine ⟨c, ?_⟩
  by_contra hnull
  exact hno c ((hok c).needy_of_open hc hnull)

theorem IoPc.ne_unborn_of_leaving {pc : IoPc} (h : pc.leaving = true) : pc ≠ .unborn := by
  rintro rfl
  simp [IoPc.leaving, IoPc.flushing] at h

/-- While a channel is being opened, the threads of the session stay. -/
theorem FirstSession.opening (h : FirstSession s) (hses : Sessions s) (hcnt : Counted s)
    (hok : ∀ c, (s.chan c).Ok) (hc : (s.chan c).opn.opening = true) :
    (∀ t, (s.io t).leaving = false) ∧ (s.compThreadCreated = true → s.numBufCompCh ≠ 0) ∧
      (s.compThreadCreated = true ∨ s.stopIoThread = 0) := by
  have hopen : ¬ SomeClosed s := fun hsome => by
    have := h.opened hsome c
    simp [hc] at this
  refine ⟨fun t => Bool.eq_false_iff.mpr fun ht => hopen ?_, fun hcr hz => hopen ?_, ?_⟩
  · exact h.someClosed hok (hses.settled t (.inl ht)).channels
      (.inl ⟨t, IoPc.ne_unborn_of_leaving ht⟩)
  · exact h.someClosed hok (hses.last hcr hz) (.inr hcr)
  · refine or_iff_not_imp_left.mpr fun hcr => ?_
    have hz := (h.flagged (by simpa using hcr)).resolve_right hopen
    rw [hcnt.stop, hz, tally_zero]

/-- **The order of the session is an orderly one**, except for the race on
`comp_thread_created`. -/
theorem FirstSession.orderly (h : FirstSession s) (hses : Sessions s) (hwf : Wf s)
    (hok : ∀ c, (s.chan c).Ok) (hcnt : Counted s)
    (hkind : ∀ c, (s.chan c).opn ≠ .fresh → (s.chan c).compress = true)
    (hg : CreatedInTime s l) : Orderly s l := by
  cases l with
  | openStep c =>
      have hopening : (s.chan c).opn.opening = true → _ := h.opening hses hcnt hok (c := c)
      refine ⟨fun ho => ?_, fun ho _ => ?_, fun ho hcr => hg ho hcr⟩
      · obtain ⟨hl, hn, -⟩ := hopening (by rw [ho]; rfl)
        exact ⟨fun t _ => hl t, hn⟩
      · exact (hopening (by rw [ho]; rfl)).2.2
  | closeStep c =>
      intro hc hz hone c' hlt hne hneedy
      -- both channels are counted in `num_buf_comp_ch`
      have hnull := ((hok c).closing (by simp [hc])).1
      have hbuilt : ∀ c, (s.chan c).counted → (s.chan c).opn.pastNumBufCompCh = true := by
        intro c₁ hc₁
        have h1 := hc₁.1
        have h2 := h.opened ⟨c, hnull⟩ c₁
        cases ho : (s.chan c₁).opn <;>
          simp_all [OpenPc.opening, OpenPc.pastNumBufCompCh]
      have hcounted : (s.chan c).counted := by
        have hb : (s.chan c).built := by
          by_contra hb
          have := ((hok c).unbuilt hb).2.1
          simp [hc] at this
        obtain hb | hb := hb <;> simp [Closure.counted, hb, hc]
      have h1 : (s.chan c).countedComp := ⟨hz, hbuilt c hcounted, by simp [hc], by simp [hc]⟩
      have h2 : (s.chan c').countedComp :=
        ⟨hkind c' hneedy.1.1, hbuilt c' hneedy.1, hneedy.2, hneedy.1.2.2⟩
      have hle := add_le_tally (w := Closure.comps) (f := s.chan) hne hlt
        (hwf.lt_nextChannel hcounted.1)
      have hcomp := hcnt.comp
      simp only [Closure.comps, h1, h2, if_true] at hle
      omega
  | _ => trivial

/-! ## the order is kept -/

theorem ChanStep.opening_of_opening {P : Prop} {ch ch' : Closure} (h : ChanStep P ch ch')
    (ho : ch'.opn.opening = true) : ch.opn.opening = true ∨ ch.opn = .fresh := by
  cases h with
  | finish mem o hf ho' => obtain rfl | rfl := ho' <;> simp [OpenPc.opening] at ho
  | opened f z hf => exact .inr hf
  | opening o hf ho' => exact .inl hf
  | _ => exact .inl ho

/-- Channels are opened before one is closed. -/
theorem FirstSession.opened_step (h : FirstSession s) (hwf : Wf s) (hok : ∀ c, (s.chan c).Ok)
    (hg : OneSession s l) (hm : Move sq s l s') (hsome : SomeClosed s') (c : Nat) :
    (s'.chan c).opn.opening = false := by
  -- nobody is opening a channel, and nobody begins to
  have hs : (∀ c, (s.chan c).opn.opening = false) ∧ ∀ f z, l ≠ .openChannel f z := by
    obtain ⟨c₀, hc₀⟩ := hsome
    obtain hnull | hnow := (hm.null_iff hwf (hok c₀)).mp hc₀
    · refine ⟨h.opened ⟨c₀, hnull⟩, fun f z hl => ?_⟩
      subst hl
      have hlt : c₀ < s.nextChannel := hwf.lt_nextChannel fun hf => by
        have hh := ((hok c₀).unbuilt (by simp [Closure.built, hf])).2.2.2.2.1
        rw [hnull] at hh
        cases hfmt : (s.chan c₀).format <;> simp [hfmt, handlerOf] at hh
      exact hg.1.2 c₀ hlt hnull
    · refine ⟨fun c => ?_, fun f z hl => by simp [hl, closesNow] at hnow⟩
      by_cases hf : (s.chan c).opn = .fresh
      · rw [hf]
        rfl
      · exact (hg.2.1 c₀ hnow).2 c (hwf.lt_nextChannel hf)
  refine Bool.eq_false_iff.mpr fun ho => ?_
  obtain hopen | hfresh := (hm.chan hwf c).opening_of_opening ho
  · have := hs.1 c
    simp [hopen] at this
  · obtain ⟨f, z, hl, -⟩ := hm.opened hfresh fun hf => by simp [hf, OpenPc.opening] at ho
    exact hs.2 f z hl

theorem Move.someClosed (hm : Move sq s l s') (hwf : Wf s) (hok : ∀ c, (s.chan c).Ok)
    (h : SomeClosed s) : SomeClosed s' := by
  obtain ⟨c, hc⟩ := h
  exact ⟨c, (hm.null_iff hwf (hok c)).mpr (.inl hc)⟩

/-- The threads of the session are started by a channel. -/
theorem Move.started (hm : Move sq s l s') (h : (∃ t, s'.io t ≠ .unborn) ∨
    s'.compThreadCreated = true) :
    ((∃ t, s.io t ≠ .unborn) ∨ s.compThreadCreated = true) ∨
      ∃ c, (s'.chan c).opn ≠ .fresh ∧ (s'.chan c).opn ≠ .numBufCh := by
  have hupd : ∀ t pc, s.io t ≠ .unborn → (∃ t', Function.update s.io t pc t' ≠ .unborn) ∨
      s.compThreadCreated = true → (∃ t, s.io t ≠ .unborn) ∨ s.compThreadCreated = true :=
    fun t _ ht _ => .inl ⟨t, ht⟩
  cases hm with
  | openStep c h' =>
      cases h' with
      | ioNew ho | compWon ho hcr => exact .inr ⟨c, by simp⟩
      | _ => exact .inl h
  | logTS c d hopn hlog h' => cases h' <;> exact .inl h
  | logStep c h' | closeStep c h' => cases h' <;> exact .inl h
  | io t h' =>
      refine .inl (.inl ⟨t, ?_⟩)
      cases h' with
      | goto hpc hg =>
          rw [hpc]
          cases hg <;> simp
      | _ => simp [*]
  | comp t h' => cases h' <;> exact .inl h
  | exitStep h' => cases h' <;> exact .inl h
  | _ => exact .inl h

theorem FirstSession.started_step (h : FirstSession s) (hwf : Wf s) (hm : Move sq s l s')
    (hstart : (∃ t, s'.io t ≠ .unborn) ∨ s'.compThreadCreated = true) :
    ∃ c, (s'.chan c).opn ≠ .fresh ∧ (s'.chan c).opn ≠ .numBufCh := by
  obtain hs | hs := hm.started hstart
  · obtain ⟨c, hc⟩ := h.started hs
    exact ⟨c, hm.past_numBufCh hwf hc⟩
  · exact hs

/-- `comp_thread_created` is cleared when a channel has been closed. -/
theorem FirstSession.flagged_step (h : FirstSession s) (hses : Sessions s) (hwf : Wf s)
    (hok : ∀ c, (s.chan c).Ok) (hm : Move sq s l s') (hcr : s'.compThreadCreated = false) :
    s'.compCnt = 0 ∨ SomeClosed s' := by
  have hkeep : s.compThreadCreated = false → s'.compCnt = s.compCnt →
      s'.compCnt = 0 ∨ SomeClosed s' := fun hf hn =>
    (h.flagged hf).imp (fun hz => hn.trans hz) (hm.someClosed hwf hok)
  cases hm with
  | openStep c h' =>
      cases h' with
      | compNew i ho =>
          have := (hses.compNew c i ho).1
          simp_all
      | compWon => simp at hcr
      | _ => exact hkeep hcr rfl
  | logTS c d hopn hlog h' => cases h' <;> exact hkeep hcr rfl
  | logStep c h' | closeStep c h' => cases h' <;> exact hkeep hcr rfl
  | io t h' =>
      cases h' with
      | clearComp hpc =>
          have hleave : (s.io t).leaving = true := by rw [hpc]; rfl
          exact .inr (h.someClosed hok (hses.settled t (.inl hleave)).channels
            (.inl ⟨t, IoPc.ne_unborn_of_leaving hleave⟩))
      | _ => exact hkeep hcr rfl
  | comp t h' => cases h' <;> exact hkeep hcr rfl
  | exitStep h' => cases h' <;> exact hkeep hcr rfl
  | _ => exact hkeep hcr rfl

theorem IoGoto.keeps_duty {pc pc' : IoPc} (h : IoGoto s pc pc') :
    pc ≠ .unborn ∧ pc'.onDuty = pc.onDuty := by
  cases h <;> simp [IoPc.onDuty]

/-- An I/O thread that keeps its duty. -/
theorem FirstSession.offDuty_update {pc : IoPc} (h : FirstSession s) (ht : s.io t ≠ .unborn)
    (hpc : pc.onDuty = (s.io t).onDuty) (t' : Nat) (hb : Function.update s.io t pc t' ≠ .unborn)
    (hoff : (Function.update s.io t pc t').onDuty = false) :
    SomeClosed s ∧ ∀ t', (Function.update s.io t pc t').onDuty = false := by
  have hduty : ∀ t', (Function.update s.io t pc t').onDuty = (s.io t').onDuty := fun t' => by
    by_cases he : t' = t
    · rw [he, Function.update_self, hpc]
    · rw [Function.update_of_ne he]
  have hborn : s.io t' ≠ .unborn := by
    by_cases he : t' = t
    · rwa [he]
    · rwa [Function.update_of_ne he] at hb
  obtain ⟨h1, h2⟩ := h.offDuty t' hborn (hduty t' ▸ hoff)
  exact ⟨h1, fun t'' => (hduty t'').trans (h2 t'')⟩

/-- The I/O thread goes off duty when a channel has been closed, and there is
no other. -/
theorem FirstSession.offDuty_step (h : FirstSession s) (hses : Sessions s) (hwf : Wf s)
    (hok : ∀ c, (s.chan c).Ok) (hcnt : Counted s) (hm : Move sq s l s') (hb : s'.io t ≠ .unborn)
    (hoff : (s'.io t).onDuty = false) : SomeClosed s' ∧ ∀ t', (s'.io t').onDuty = false := by
  have hmono : SomeClosed s → SomeClosed s' := hm.someClosed hwf hok
  have hkeep : s'.io = s.io → SomeClosed s' ∧ ∀ t', (s'.io t').onDuty = false := fun hio => by
    rw [hio] at hb hoff ⊢
    exact (h.offDuty t hb hoff).imp_left hmono
  have hmove : ∀ t₁ pc, s'.io = Function.update s.io t₁ pc → s.io t₁ ≠ .unborn →
      pc.onDuty = (s.io t₁).onDuty → SomeClosed s' ∧ ∀ t', (s'.io t').onDuty = false :=
    fun t₁ pc hio ht₁ hpc => by
      rw [hio] at hb hoff ⊢
      exact (h.offDuty_update ht₁ hpc t hb hoff).imp_left hmono
  cases hm with
  | openStep c h' =>
      cases h' with
      | ioNew ho =>
          -- the new thread is on duty, and there was no other off duty
          exfalso
          by_cases he : t = s.ioCnt
          · simp [he, IoPc.onDuty] at hoff
          · simp only [State.setChan, State.setIo, Function.update_of_ne he] at hb hoff
            have := h.opened (h.offDuty t hb hoff).1 c
            simp [ho, OpenPc.opening] at this
      | _ => exact hkeep rfl
  | logTS c d hopn hlog h' => cases h' <;> exact hkeep rfl
  | logStep c h' | closeStep c h' => cases h' <;> exact hkeep rfl
  | io t₁ h' =>
      cases h' with
      | goto hpc hg =>
          have hsame := hg.keeps_duty
          exact hmove t₁ _ rfl (by rw [hpc]; exact hsame.1) (by rw [hpc]; exact hsame.2)
      | quickExit | popFault | writeFault => exact hkeep rfl
      | popPacked m b q k hpc hq hk =>
          exact hmove t₁ m.next rfl (by simp [hpc])
            (by cases m <;> simp [hpc, IoMode.next, IoPc.onDuty])
      | send m p hpc hlen =>
          exact hmove t₁ m.next rfl (by simp [hpc])
            (by cases m <;> simp [hpc, IoMode.next, IoPc.onDuty])
      | clearIo hpc =>
          have hleave : (s.io t₁).leaving = true := by rw [hpc]; rfl
          refine ⟨hmono (h.someClosed hok (hses.settled t₁ (.inl hleave)).channels
            (.inl ⟨t₁, IoPc.ne_unborn_of_leaving hleave⟩)), fun t' => ?_⟩
          by_cases he : t' = t₁
          · simp [he, IoPc.onDuty]
          · simp only [State.setIo, Function.update_of_ne he]
            refine Bool.eq_false_iff.mpr fun ht' => he ?_
            exact hcnt.onDuty_unique hwf ht' (by rw [hpc]; rfl)
      | _ => exact hmove t₁ _ rfl (by simp [*]) (by simp [*, IoPc.onDuty])
  | comp t₁ h' => cases h' <;> exact hkeep rfl
  | exitStep h' => cases h' <;> exact hkeep rfl
  | _ => exact hkeep rfl

/-- **Step lemma**: the order of the session is kept. -/
theorem FirstSession.step (h : FirstSession s) (hses : Sessions s) (hwf : Wf s)
    (hok : ∀ c, (s.chan c).Ok) (hcnt : Counted s) (hg : OneSession s l) (hm : Move sq s l s') :
    FirstSession s' where
  opened := h.opened_step hwf hok hg hm
  started := h.started_step hwf hm
  flagged := h.flagged_step hses hwf hok hm
  offDuty _ := h.offDuty_step hses hwf hok hcnt hm

/-! ## the session when the I/O thread returns -/

/-- Nothing is left in a queue, in the reorder tables or in the hands of a
compression thread, and the file of every channel consists of the blocks
enqueued, each once and in their order. -/
structure SessionDrained (sq : Squash) (s : State) : Prop where
  compressionQueue : s.compressionQueue = []
  ioQueue : s.ioQueue = []
  pending : ∀ c < nextBlockSize, s.sink.pending c = []
  comp : ∀ t, (s.comp t).holding = false
  written : ∀ c, (s.chan c).opn = .ready →
    (s.sink.chLogf c).content = (s.chan c).sent.flatMap ((s.chan c).imageOf sq)

theorem OneSession.oneThread (h : OneSession s l) (c : Nat) : OneThread c s l := fun hc =>
  (h.2.1 c hc).1

/-- **Run lemma**: a session without the race is orderly. -/
theorem Reached.firstSession (hr : Reached sq (fun s l => OneSession s l ∧ CreatedInTime s l) s) :
    Reached sq (fun s l => OneSession s l ∧ Orderly s l) s ∧ FirstSession s := by
  refine hr.invariant_of
    (J := Reached sq fun s l => OneSession s l ∧ CreatedInTime s l)
    (I := fun s => Reached sq (fun s l => OneSession s l ∧ Orderly s l) s ∧ FirstSession s)
    (fun _ h => h) ⟨.init, ?_⟩ ?_
  · constructor <;> simp [State.init, SomeClosed, Closure.new, handlerOf]
  · rintro s l s' hs ⟨hr, h⟩ ⟨hg, hrace⟩ hst
    have hses := Reached.sessions (fun _ _ hl => hl.2) (fun c _ _ hl => hl.1.oneThread c) hr
    have hkind : ∀ c, (s.chan c).opn ≠ .fresh → (s.chan c).compress = true := fun c hc =>
      (Reached.opened_as (P := OpensCompressed)
        (fun s f z h => (h : OneSession s (.openChannel f z) ∧ _).1.1.1) hr hc).1
    have hcnt := Reached.counted hs
    have hok := Reached.chanOk hs
    exact ⟨.step hr ⟨hg, h.orderly hses (Reached.wf hs) hok hcnt hkind hrace⟩ hst,
      h.step hses (Reached.wf hs) hok hcnt hg (step_move hst).2⟩

/-- An I/O thread that has returned leaves nothing behind. -/
theorem FirstSession.drained (h : FirstSession s) (hses : Sessions s) (ht : s.io t = .done) :
    Drained s ∧ ∀ t, (s.io t).writesFor = none := by
  obtain ⟨hsome, hoff⟩ := h.offDuty t (by simp [ht]) (by simp [ht, IoPc.onDuty])
  refine ⟨?_, fun t' => ?_⟩
  · obtain ⟨t', ht'⟩ | ⟨c, hc⟩ | hd := hses.drained
    · have := hoff t'
      cases hpc : s.io t' <;> simp_all [IoPc.onDuty, IoPc.serving, IoPc.flushing]
    · have := h.opened hsome c
      simp [hc, OpenPc.opening] at this
    · exact hd
  · have := hoff t'
    cases hpc : s.io t' <;> simp_all [IoPc.onDuty, IoPc.writesFor]

/-- No thread of the session fails. -/
theorem Reached.live_session (hsq : sq.Total)
    (hr : Reached sq (fun s l => OneSession s l ∧ CreatedInTime s l) s) : s.fault = false := by
  refine Reached.defined hsq (fun s f z h => ?_) (fun _ _ h => h.1.2.2.2)
    (fun s _ (h : OneSession s .exitStep ∧ _) => h.1.1) hr
  obtain ⟨hz, hf, hc⟩ := (show OneSession s (.openChannel f z) ∧ _ from h).1.1.1
  refine ⟨?_, by simp [hz], fun _ => hc⟩
  obtain rfl | rfl := hf <;> rfl

/-- **The session is drained when `runIOThread` returns**, in every run that
does not set `comp_thread_created` between two reads of the I/O thread; and
no thread fails before that. -/
theorem session_drained (hsq : sq.Total)
    (hr : Reached sq (fun s l => OneSession s l ∧ CreatedInTime s l) s) :
    s.fault = false ∧ ∀ t, s.io t = .done → SessionDrained sq s := by
  refine ⟨Reached.live_session hsq hr, fun t ht => ?_⟩
  obtain ⟨hr', h⟩ := Reached.firstSession hr
  have hses := Reached.sessions (fun _ _ hl => hl.2) (fun c _ _ hl => hl.1.oneThread c) hr'
  obtain ⟨hd, hio⟩ := h.drained hses ht
  have hkind : ∀ c, (s.chan c).opn ≠ .fresh →
      OpensCompressed (s.chan c).format (s.chan c).compress c := fun c hc =>
    Reached.opened_as (P := OpensCompressed)
      (fun s f z h => (h : OneSession s (.openChannel f z) ∧ _).1.1.1) hr' hc
  have hpipe : ∀ c < nextBlockSize, ∃ f₀ r, Pipeline sq s c f₀ r := fun c hc => by
    refine Reached.pipeline hsq hc (fun _ _ hl => hl.1.oneThread c)
      (fun _ _ hl => hl.1.2.2.1.findsRoom) hr' ?_
    by_cases hf : (s.chan c).opn = .fresh
    · exact .inl hf
    · exact .inr (hkind c hf).1
  refine ⟨hd.compressionQueue, hd.ioQueue, fun c hc => ?_, hd.comp, fun c hready => ?_⟩
  · obtain ⟨f₀, r, hp⟩ := hpipe c hc
    exact (hp.complete (hd.quiet hio)).1
  · obtain ⟨hz, hfmt, hlt⟩ := hkind c (by simp [hready])
    obtain ⟨f₀, r, hp⟩ := hpipe c hlt
    have htsc : (s.chan c).format.isTsc = false := by
      obtain hf | hf := hfmt <;> rw [hf] <;> rfl
    rw [(hp.arrives hready hz htsc).all (hd.quiet hio), Closure.blockBytes_comp hz]

/-- A session of two channels, with three records each: the second channel is
closed first, and one compression thread takes both blocks. -/
theorem session_drained_two_channels :
    ∃ s, Reached copySquash (fun s l => OneSession s l ∧ CreatedInTime s l) s ∧ s.io 0 = .done ∧
      (s.chan 0).sent = [someRecords] ∧ (s.chan 1).sent = [someRecords] ∧
      SessionDrained copySquash s := by
  obtain ⟨s, hr, hs⟩ := Reached.of_run copySquash (fun s l => OneSession s l ∧ CreatedInTime s l)
    (compOpenRun ++ .openChannel .lzo1x true :: List.replicate 5 (.openStep 1) ++
        [.finishOpen 1 true fun _ _ => someRecord] ++ logRun 0 someRecords ++
        logRun 1 someRecords ++ .closeChannel 1 :: List.replicate 4 (.closeStep 1) ++
        .closeChannel 0 :: List.replicate 4 (.closeStep 0) ++ List.replicate 12 (.comp 0) ++
      List.replicate 4 (.comp 1) ++ List.replicate 4 (.comp 2) ++ List.replicate 4 (.comp 3) ++
      List.replicate 12 (.io 0))
    (fun s => decide (s.io 0 = .done ∧ (s.chan 0).sent = [someRecords] ∧
      (s.chan 1).sent = [someRecords]))
    (by decide +kernel)
  obtain ⟨hio, h0, h1⟩ := of_decide_eq_true hs
  exact ⟨s, hr, hio, h0, h1, (session_drained copySquash_total hr).2 0 hio⟩

/-- **A block is left in `compression_queue`.**  The I/O thread reads
`comp_thread_created` before and after the first channel sets it, leaves its
main loop, and returns after the channel is closed; the compression threads
have not run yet. -/
theorem session_not_drained :
    ∃ s, Reached copySquash OneSession s ∧ s.io 0 = .done ∧
      (s.chan 0).sent = [[⟨7, 1, 2, 3, 4, 0⟩]] ∧ s.compressionQueue ≠ [] ∧
      (s.sink.chLogf 0).content = [] ∧ ¬ SessionDrained copySquash s := by
  obtain ⟨s, hr, hs⟩ := Reached.of_run copySquash OneSession
    (Label.openChannel .zstd true :: List.replicate 4 (Label.openStep 0) ++
      [Label.io 0, Label.io 0] ++ List.replicate 6 (Label.openStep 0) ++
      [Label.openStep 0, Label.finishOpen 0 true fun _ _ => someRecord,
        Label.logTS 0 ⟨7, 1, 2, 3, 4, 0⟩, Label.logStep 0, Label.logStep 0, Label.closeChannel 0] ++
      List.replicate 4 (Label.closeStep 0) ++ List.replicate 7 (Label.io 0))
    (fun s => decide (s.io 0 = .done ∧ (s.chan 0).sent = [[⟨7, 1, 2, 3, 4, 0⟩]] ∧
      s.compressionQueue ≠ [] ∧ (s.sink.chLogf 0).content = [])) (by decide +kernel)
  obtain ⟨hio, hsent, hq, hfile⟩ := of_decide_eq_true hs
  exact ⟨s, hr, hio, hsent, hq, hfile, fun h => hq h.compressionQueue⟩

end Session

end CloudProfiler
