import CloudProfiler.Contract
import CloudProfiler.Handler.Literal

/-!
# CloudProfiler.Rejected

String parameters that are no numerals, for FASTPERIODICCOUNTER, for the
buffered handler types, and for all handler types together.

The string overload of `parameterizeChannel` makes two calls in a row, of
which each takes its time here: `closeChannel`, and the integer overload on
what was read.

* `Fpc.Alone` — no other thread is at the channel between the two;
* `Fpc.rejects_iff` — FASTPERIODICCOUNTER;
* `buffered_rejects_iff` — the buffered handler types;
* `text_rejected_iff` — all handler types.
-/

namespace CloudProfiler

namespace Fpc

section Alone

variable {s s' s₁ s₂ : Fpc} {r : Reg} {l : Act} {t c : Nat} {p : UInt64}

/-- A thread stays at its channel while others take steps. -/
theorem Move.ch_eq {t' : Nat} (hs : Move s l s') (ht : l.thread ≠ some t') :
    (s'.thread t').ch = (s.thread t').ch := by
  cases hs with
  | call hs =>
      cases hs with
      | close t₁ c' l' hl | closeAgain t₁ c' l' hl =>
          rw [hl.thread] at ht
          have hne : t' ≠ t₁ := fun h => ht (by rw [h])
          simp [hne]
      | openChannel t₁ | param t₁ =>
          have hne : t' ≠ t₁ := fun h => ht (by rw [h]; rfl)
          simp [hne]
      | _ => rfl
  | api hs =>
      cases hs with
      | openFailed t₁ | opened t₁ | submit t₁ | routeFound t₁ | routeNew t₁ | routeLost t₁
      | insertMap t₁ | returned t₁ | deleted t₁ | countOut t₁ | clear t₁ | closing t₁ =>
          have hne : t' ≠ t₁ := fun h => ht (by rw [h]; rfl)
          simp [hne]
  | handler => rfl
  | loop hs | pass hs => cases hs <;> rfl
  | take hs =>
      cases hs with
      | takeMissing d now left j =>
          by_cases hne : t' = j
          · subst hne
            simp [signalCompletion]
          · simp [hne, signalCompletion]
      | _ => rfl
  | book hs =>
      cases hs with
      | bookInsert d now left j | bookMove d now left j | bookDelete d now left j
      | bookDeleteMissing d now left j =>
          by_cases hne : t' = j
          · subst hne
            simp [signalCompletion]
          · simp [hne, signalCompletion]

/-- The application keeps the channels it has got. -/
theorem Move.handle_frame (hs : Move s l s') (hmade : (s.cl c).made = true)
    (h : (s.cl c).handle = true) : (s'.cl c).handle = true := by
  have hset : ∀ {c₀ : Nat} {k : FPCClosure}, (c = c₀ → k.handle = true) →
      (Function.update s.cl c₀ k c).handle = true := by
    intro c₀ k hk
    by_cases hc : c = c₀
    · rw [hc, Function.update_self]
      exact hk hc
    · rwa [Function.update_of_ne hc]
  have hbooks : ∀ {c₀ : Nat} {cl k : FPCClosure}, cl.Books k → cl.handle = (s.cl c₀).handle →
      c = c₀ → k.handle = true := by
    rintro c₀ cl k hb hcl rfl
    rw [hb.handle, hcl, h]
  cases hs with
  | call hs =>
      cases hs with
      | openChannel t c₀ ok hidle hmade' =>
          refine hset fun he => ?_
          rw [← he, hmade] at hmade'
          cases hmade'
      | _ => exact h
  | api hs =>
      cases hs with
      | returned => exact hset fun _ => rfl
      | opened | clear | closing =>
          exact hset fun he => by
            subst he
            exact h
      | _ => exact h
  | handler =>
      exact hset fun he => by
        subst he
        exact h
  | loop hs =>
      cases hs with
      | sample =>
          exact hset fun he => by
            subst he
            exact h
      | account => exact hset (hbooks (FPCClosure.books_account _) rfl)
      | _ => exact h
  | take hs =>
      cases hs with
      | takeMove | takeDelete =>
          exact hset fun he => by
            subst he
            exact h
      | takeInsert =>
          exact hset fun he => (hbooks (FPCClosure.books_logHeader _) rfl he :)
      | _ => exact h
  | book hs =>
      cases hs with
      | bookInsert => exact hset (hbooks (FPCClosure.books_bookInsert _ _ _) rfl)
      | bookMove => exact hset (hbooks (FPCClosure.books_bookMove _ _ _ _) rfl)
      | bookDelete | bookDeleteMissing =>
          exact hset (hbooks (FPCClosure.books_bookDelete _ _ _) rfl)
  | pass hs => cases hs <;> exact h

/-- No thread other than `t` is at channel `c`. -/
def Alone (s : Fpc) (t c : Nat) : Prop :=
  ∀ t', t' ≠ t → (s.thread t').pc ≠ .idle → (s.thread t').ch ≠ c

/-- **Step lemma**: while thread `t` is at its channel, no other comes there. -/
theorem Alone.step (h : Alone s t c) (hmade : (s.cl c).made = true)
    (hbusy : (s.thread t).pc ≠ .idle) (hch : (s.thread t).ch = c) (hok : OneCall s l)
    (hs : Move s l s') : Alone s' t c := by
  intro t' ht' hb
  by_cases hl : l.thread = some t'
  · cases hs with
    | call hs =>
        cases hs with
        | openChannel t₁ c₀ ok hidle hmade' =>
            cases hl
            rintro hc
            simp only [setThread, Function.update_self] at hc
            rw [hc, hmade] at hmade'
            cases hmade'
        | param t₁ c₀ =>
            cases hl
            simpa [hch, eq_comm] using hok t hbusy
        | refuse => exact h t' ht' hb
        | close t₁ c₀ l₀ hl₀ | closeAgain t₁ c₀ l₀ hl₀ =>
            rw [hl₀.thread] at hl
            cases hl
            simpa [hch, eq_comm] using hok.closes hl₀ t hbusy
    | api hs =>
        cases hs with
        | openFailed _ hpc | opened _ hpc | submit _ hpc | routeFound _ p d hpc
        | routeNew _ p hpc | routeLost _ p hpc | insertMap _ p d hpc | returned _ hpc
        | deleted _ hpc | countOut _ hpc | clear _ hpc | closing _ hpc =>
            cases hl
            simpa using h t' ht' (by simp [hpc])
    | handler => cases hl
    | loop hs | take hs | book hs | pass hs => cases hs <;> cases hl
  · rw [hs.pc_eq hl] at hb
    rw [hs.ch_eq hl]
    exact h t' ht' hb

end Alone

/-- A string that is no numeral is rejected: the overload makes its two calls
one after the other, which can come to their ends, and returns `-1`; and
whatever the threads do meanwhile, the channel is closed and has its period. -/
def Rejects (s : Fpc) (t c : Nat) (number : Int32) (str : List Char) : Prop :=
  ∃ s₁, s.step (.closeChannel t c) = some s₁ ∧ s₁.Returns t ∧
    ∀ s₂, Reach Fpc.step s₁ (Until t) s₂ → (s₂.thread t).pc = .idle →
      ∃ s₃, s₂.step (.parameterizeChannel t c ⟨number, literalValue str, fun _ => 0⟩) = some s₃ ∧
        s₃.Returns t ∧ ret (fpcRequest ⟨number, literalValue str, fun _ => 0⟩) = -1 ∧
        ∀ s₄, Reach Fpc.step s₃ (Until t) s₄ → (s₄.thread t).pc = .idle →
          (s₄.cl c).base.isOpen = false ∧ (s₄.cl c).periodicIncNs = (s.cl c).periodicIncNs

section Rejects

variable {s s' s₁ s₂ : Fpc} {r : Reg} {l : Act} {t c : Nat} {p : UInt64}

/-- What holds until `closeChannel` has returned, and then. -/
structure Shut₁ (s : Fpc) (r : Reg) (t c : Nat) (p : UInt64) : Prop where
  sound : Sound s r
  handle : (s.cl c).handle = true
  alone : Alone s t c
  call : Shutting s t c p ∨ Returned s t c p false

theorem Shut₁.step (h : Shut₁ s r t c p) (hok : Until t s l) (hs : s.step l = some s') :
    Shut₁ s' (r.next s l) t c p := by
  have hshutting := h.call.resolve_right fun hret => hok.2 hret.idle
  have hmade := h.sound.fits.settled.handle c h.handle
  exact ⟨h.sound.step hok.1 hs, (step_move hs).handle_frame hmade h.handle,
    h.alone.step hmade hok.2 hshutting.ch hok.1 (step_move hs),
    hshutting.step h.sound hok.1 (step_move hs)⟩

/-- A run to the end of a call stops there, or has not come to it. -/
theorem until_of_works (hr : Reach Fpc.step s Works s') :
    (∃ s₂, Reach Fpc.step s (Until t) s₂ ∧ (s₂.thread t).pc = .idle) ∨
      Reach Fpc.step s (Until t) s' := by
  induction hr with
  | init => exact .inr .init
  | @step s₁ s₂ l _ hl hs ih =>
      obtain hdone | hr₁ := ih
      · exact .inl hdone
      · by_cases hend : (s₁.thread t).pc = .idle
        · exact .inl ⟨s₁, hr₁, hend⟩
        · exact .inr (.step hr₁ ⟨oneCall_of_works hl, hend⟩ hs)

/-- A call that can come to its end does so in a run that stops there. -/
theorem Returns.until (h : s.Returns t) : ∃ s₂, Reach Fpc.step s (Until t) s₂ ∧
    (s₂.thread t).pc = .idle := by
  obtain ⟨s', hr, hidle⟩ := h
  obtain hdone | hr' := until_of_works hr
  · exact hdone
  · exact ⟨s', hr', hidle⟩

/-- What is known when `closeChannel` has returned. -/
theorem Shut₁.run (h : Shut₁ s r t c p) (hrun : Reach Fpc.step s (Until t) s₂) :
    ∃ r₂, Sound s₂ r₂ ∧ (s₂.cl c).handle = true ∧ Alone s₂ t c ∧ (s₂.cl c).periodicIncNs = p := by
  have hend : ∃ r₂, Shut₁ s₂ r₂ t c p :=
    hrun.invariant (I := fun s => ∃ r, Shut₁ s r t c p) ⟨r, h⟩
      fun s l s' ⟨r, h⟩ hok hs => ⟨_, h.step hok hs⟩
  obtain ⟨r₂, h₂⟩ := hend
  refine ⟨r₂, h₂.sound, h₂.handle, h₂.alone, ?_⟩
  obtain hsh | hret := h₂.call
  · exact hsh.period
  · exact hret.period

/-- **FASTPERIODICCOUNTER** refuses a negative period only. -/
theorem rejects_iff (h : Reach Fpc.step init OneCall s) (hidle : (s.thread t).pc = .idle)
    (hhandle : (s.cl c).handle = true) (hone : OneCall s (.closeChannel t c)) {number : Int32}
    (hn : number ≠ -1) (str : List Char) :
    s.Rejects t c number str ↔ number ≠ 0 ∨ literalValue str < 0 := by
  obtain ⟨r, hr⟩ := reach_sound h
  have hmade := hr.fits.settled.handle c hhandle
  have hs₁ : s.step (.closeChannel t c) = some (s.startClose t c) := by
    simp [Fpc.step, closeChannel, isIdle, hidle, hmade]
  have hr₁ := hr.step hone hs₁
  have hshut : Shut₁ (s.startClose t c) (r.next s (.closeChannel t c)) t c
      (s.cl c).periodicIncNs := by
    refine ⟨hr₁, (step_move hs₁).handle_frame hmade hhandle, fun t' ht' hb => ?_,
      .inl startClose_shutting⟩
    have hl : (Act.closeChannel t c).thread ≠ some t' := fun he => ht' (Option.some.inj he).symm
    rw [(step_move hs₁).pc_eq hl] at hb
    rw [(step_move hs₁).ch_eq hl]
    exact hone t' hb
  have hreq := fpcRequest_of_ne (a := ⟨number, literalValue str, fun _ => 0⟩) hn
  constructor
  · rintro ⟨s₁, hs, hret, hall⟩
    obtain ⟨s₂, hrun, hidle₂⟩ := hret.until
    obtain ⟨s₃, -, -, hminus, -⟩ := hall s₂ hrun hidle₂
    by_contra hno
    rw [hreq, if_neg hno] at hminus
    exact absurd (show (0 : Int) = -1 from hminus) (by decide)
  · intro hno
    rw [if_pos hno] at hreq
    refine ⟨_, hs₁, hr₁.returns t, fun s₂ hrun hidle₂ => ?_⟩
    obtain ⟨r₂, hr₂, hhandle₂, halone, hper⟩ := hshut.run hrun
    have hone₂ : OneCall s₂ (.parameterizeChannel t c ⟨number, literalValue str, fun _ => 0⟩) := by
      intro t' hb
      refine halone t' ?_ hb
      rintro rfl
      exact hb hidle₂
    have hs₃ : s₂.step (.parameterizeChannel t c ⟨number, literalValue str, fun _ => 0⟩) =
        some (s₂.startClose t c) := by
      simp [Fpc.step, parameterizeChannel, isIdle, hidle₂, hhandle₂, hreq]
    have hr₃ := hr₂.step hone₂ hs₃
    refine ⟨_, hs₃, hr₃.returns t, by rw [hreq]; rfl, fun s₄ hrun₄ hidle₄ => ?_⟩
    have hend := startClose_shutting.run hr₃ hrun₄ hidle₄
    exact ⟨hend.isOpen, hend.period.trans hper⟩

end Rejects

end Fpc

/-! ## the buffered handler types -/

section Buffered

variable {sq : Squash} {s : State} {c : Nat}

/-- A string that is no numeral is rejected: the overload calls `closeChannel`
and, as there is no parameter handler, once more, and returns `-1`; and
whatever the threads do meanwhile, the channel is closed or on the way. -/
def BufferedRejects (sq : Squash) (s : State) (c : Nat) : Prop :=
  ∀ s₁ s₂ s₃ s₄, step sq s (.closeChannel c) = some s₁ → Reach (step sq) s₁ (Unclogged c) s₂ →
    (s₂.chan c).closeOver → step sq s₂ (.closeChannel c) = some s₃ →
    Reach (step sq) s₃ (Unclogged c) s₄ → (s₄.chan c).closeOver → ClosedOrClosing s₄ c

/-- Closing a channel that has `NullHandler` does nothing. -/
theorem callClose_eq_self (hnull : (s.chan c).handlerF = .nullHandler) : callClose s c = s := by
  have hch : { s.chan c with handlerF := .nullHandler, close :=
      if (s.chan c).handlerF = .bufferIdentityHandler then .setCloseFile else (s.chan c).close } =
      s.chan c := by
    rw [hnull, if_neg (by decide), ← hnull]
  rw [callClose, hch]
  show { s with chan := Function.update s.chan c (s.chan c) } = s
  rw [Function.update_eq_self]

/-- **The buffered handler types** do not close a channel of a TSC format. -/
theorem buffered_rejects_iff (hsq : sq.Total) (hr : Reached sq (Unclogged c) s)
    (hlive : s.fault = false ∧ s.exited = false) (hready : (s.chan c).opn = .ready)
    (hopen : (s.sink.chLogf c).isOpen = true) (hfits : (s.chan c).Fits c)
    (hok : Unclogged c s (.closeChannel c)) :
    BufferedRejects sq s c ↔ (s.chan c).format.isTsc = false := by
  constructor
  · -- the second call may come at once
    intro h
    by_contra htsc
    have hs := @step_closeChannel sq _ _ hlive hready
    have hclosing := closing_closeChannel hr hready hok hs
    obtain ⟨hnone, hno⟩ := tsc_stays_open hr hready hopen hok htsc hs
    have hs' := @step_closeChannel sq (callClose s c) _ hlive hclosing.ready
    rw [callClose_eq_self hclosing.null] at hs'
    exact hno (h _ _ _ _ hs .init (.inl hnone) hs' .init (.inl hnone))
  · intro htsc s₁ s₂ s₃ s₄ hs₁ hrun₂ _ hs₃ hrun₄ hover₄
    have hclosing : Closing sq s₂ c (s.chan c).format (s.chan c).compress :=
      hrun₂.invariant (I := fun s₂ => Closing sq s₂ c (s.chan c).format (s.chan c).compress)
        (closing_closeChannel hr hready hok hs₁) fun _ _ _ h hok hs => h.step hok hs
    have hsame : s₃ = s₂ := by
      have hlive₂ : s₂.fault = false ∧ s₂.exited = false := by
        by_contra hno
        rw [step, if_pos (by simpa [Classical.or_iff_not_imp_left] using hno)] at hs₃
        cases hs₃
      rw [step_closeChannel hlive₂ hclosing.ready, callClose_eq_self hclosing.null] at hs₃
      exact (Option.some.inj hs₃).symm
    rw [hsame] at hrun₄
    exact (buffered_contract_iff hsq hr hlive hready hopen hfits hok).mpr htsc s₁ s₄ hs₁
      (hrun₂.trans hrun₄) hover₄

end Buffered

/-! ## all handler types -/

open ChannelType

/-- **String parameters.**  A numeral is passed on to the integer overload.
Another string is rejected by all handler types without a parameter handler,
apart from the TSC formats, and otherwise exactly where the parameter handler
refuses what was read of it, without touching a parameter first. -/
theorem text_rejected_iff (env : Env) (later : Timespec) {number : Int32} (hn : number ≠ -1)
    (s : List Char) :
    (isLiteral s = true → ∀ {σ ι : Type} (k : ChannelType σ ι) (cl : σ),
      k.parameterizeChannelText env later cl number s =
        k.parameterizeChannel env cl ⟨number, literalValue s, fun _ => 0⟩) ∧
    (isLiteral s = false →
      (∀ cl, downsampleType.Rejects (·.factor) env later cl number s ↔ number ≠ 0) ∧
      (∀ cl, Reach xoyType.step initXoYHandler anyStep cl →
        (xoyType.Rejects XoYClosure.factors env later cl number s ↔
          cl.Refuses number (literalValue s))) ∧
      (∀ opened ch, Reach medianType.step (.init opened) anyStep ch →
        (medianType.Rejects (·.cl.maxTs) env later ch number s ↔
          ch.cl.parm = false ∨ number ≠ 0 ∨ literalValue s < sizeofTimespec.toInt64)) ∧
      (∀ cl, periodicCounterType.Rejects (·.periodicIncNs) env later cl number s ↔
        (number ≠ 0 ∨ literalValue s < 0) ∧
          (cl.periodicIncNs ≠ 0 ∨ compareTS env.now cl.timeFlush = -1 ∧
            compareTS later cl.timeFlush = -1)) ∧
      (∀ f t c, Reach Fpc.step Fpc.init Fpc.OneCall f → (f.thread t).pc = .idle →
        (f.cl c).handle = true → Fpc.OneCall f (.closeChannel t c) →
        (f.Rejects t c number s ↔ number ≠ 0 ∨ literalValue s < 0)) ∧
      (∀ g cl, (gpiorttType g).Rejects GpiorttChannel.params env later cl number s ↔
        cl.Refuses g number (literalValue s)) ∧
      (∀ received cl, ¬ (foxEndType received).Rejects (fun _ => ()) env later cl number s) ∧
      (∀ ch, identityType.Rejects (fun _ => ()) env later ch number s) ∧
      (∀ cl, nullhType.Rejects (fun _ => ()) env later cl number s) ∧
      (∀ cl, firstlastType.Rejects (fun _ => ()) env later cl number s) ∧
      (∀ cl, foxStartType.Rejects (fun _ => ()) env later cl number s) ∧
      (∀ cl, defectType.Rejects (fun _ => ()) env later cl number s) ∧
      ∀ (sq : Squash) b c, sq.Total → Reached sq (Unclogged c) b →
        b.fault = false ∧ b.exited = false → (b.chan c).opn = .ready →
        (b.sink.chLogf c).isOpen = true → (b.chan c).Fits c → Unclogged c b (.closeChannel c) →
        (BufferedRejects sq b c ↔ (b.chan c).format.isTsc = false)) := by
  refine ⟨fun hs _ _ _ _ => parameterizeChannelText_eq hs, fun hs => ?_⟩
  refine ⟨downsample_rejects_iff hn hs, fun cl hr => xoy_rejects_iff hn hs ?_, fun opened ch hr =>
    median_rejects_iff hs ?_, periodicCounter_rejects_iff hs, fun f t c hr hidle hhandle hone =>
    Fpc.rejects_iff hr hidle hhandle hone hn s, gpiortt_rejects_iff hn hs, foxEnd_not_rejects hs,
    fun ch => noArgs_rejects (fun _ => rfl) identity_closes hs,
    fun cl => noArgs_rejects (fun _ => rfl) (fun _ _ => ⟨_, rfl, rfl⟩) hs,
    fun cl => noArgs_rejects (fun _ => rfl) (fun _ _ => ⟨_, rfl, rfl⟩) hs,
    fun cl => noArgs_rejects (fun _ => rfl) (fun _ _ => ⟨_, rfl, rfl⟩) hs,
    defect_rejects hs, fun sq b c hsq hr hlive hready hopen hfits hok =>
    buffered_rejects_iff hsq hr hlive hready hopen hfits hok⟩
  · exact hr.invariant XoYClosure.passes_init fun _ _ _ h _ hs => h.step hs
  · refine hr.invariant (I := fun ch => ch.cl.Sized) ?_
      fun _ _ _ h _ hs => median_sized.step h (fun _ _ => trivial) hs
    show (initMedianHandler opened.heap).Sized
    unfold initMedianHandler
    split
    · exact fun hparm => nomatch hparm
    · exact fun _ => show sizeofTimespec.toInt64 ≤ maxTsDefault by decide

/-- A FIRSTLAST channel rejects every string but numerals. -/
theorem text_rejected_apples :
    firstlastType.Rejects (fun _ => ()) (.atSec 5) ⟨5, 0, 0, 0, 0⟩ (initFirstlastHandler .zero) 0
      (lit "apples") :=
  ((text_rejected_iff (.atSec 5) ⟨5, 0, 0, 0, 0⟩ (by decide) (lit "apples")).2
    (by decide +kernel)).2.2.2.2.2.2.2.2.2.1 _

/-- **A string that is no numeral is accepted**: the downsampling factor
becomes 5, and the call returns 0. -/
theorem text_accepted :
    isLiteral (lit "5 apples") = false ∧
    ¬ downsampleType.Rejects (·.factor) (.atSec 5) ⟨5, 0, 0, 0, 0⟩ initDownsampleHandler 0
      (lit "5 apples") ∧
    (downsampleType.parameterizeChannelText (.atSec 5) ⟨5, 0, 0, 0, 0⟩ initDownsampleHandler 0
      (lit "5 apples")).any (fun r => r.1 = 0 ∧ r.2.factor = 5) = true := by
  have hs : isLiteral (lit "5 apples") = false := by decide +kernel
  exact ⟨hs, fun h => (downsample_rejects_iff (by decide) hs _).mp h rfl, by decide +kernel⟩

end CloudProfiler
