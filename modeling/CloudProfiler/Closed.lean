import CloudProfiler.FastCounter.Return
import CloudProfiler.Handler.Closed

/-!
# CloudProfiler.Closed

Closed is final, for every handler type but the buffered ones.

FASTPERIODICCOUNTER keeps its parameter handler when it is closed, like the
others: the job it submits then finds that the channel is not part of the
sampling thread, if it has to be started for it.  The file stays closed, and
the call returns.

* `Fpc.Shut` — a channel that was opened and is closed, with its log;
* `Fpc.closed_final` — closed is final for FASTPERIODICCOUNTER;
* `closed_is_final` — for all handler types;
* `closed_traps` — PERIODICCOUNTER with a period of zero.
-/

namespace CloudProfiler

namespace FPCClosure

variable (cl : FPCClosure)

theorem written_flushSkipped : cl.base.Written cl.flushSkipped.base := by
  unfold flushSkipped
  split
  · exact Base.written_put _
  · exact Base.written_refl

theorem written_logHeader : cl.base.Written cl.logHeader.base := by
  unfold logHeader
  split
  · exact Base.written_refl
  · exact Base.written_put _

theorem written_account : cl.base.Written cl.account.base := by
  unfold account
  split
  · exact Base.written_refl
  · exact (written_flushSkipped { cl with totalCtr := cl.totalCtr + cl.sampledCtr }).trans
      (Base.written_put _)

theorem written_bookInsert (now : Timespec) (ev : UInt64) :
    cl.base.Written (cl.bookInsert now ev).base :=
  (Base.written_put _).trans (Base.written_put _)

theorem written_truncated (now : Timespec) (ev : UInt64) (msg : String) :
    cl.base.Written (cl.flushSkipped.printTruncatedPeriod now ev msg).base :=
  (written_flushSkipped cl).trans
    (((Base.written_put _).trans (Base.written_put _)).trans (Base.written_put _))

theorem written_bookMove (now : Timespec) (ev p : UInt64) :
    cl.base.Written (cl.bookMove now ev p).base :=
  written_truncated { cl with totalCtr := cl.totalCtr + ev } now ev _

theorem written_bookDelete (now : Timespec) (ev : UInt64) :
    cl.base.Written (cl.bookDelete now ev).base :=
  (written_truncated { cl with totalCtr := cl.totalCtr + ev } now ev _).trans (Base.written_put _)

end FPCClosure

namespace Fpc

/-! ## FASTPERIODICCOUNTER -/

/-- The application has channel `c`, its file is closed and holds the lines
`ls`, and nobody is about to open it. -/
structure Shut (s : Fpc) (c : Nat) (ls : List FPCLine) : Prop where
  handle : (s.cl c).handle = true
  isOpen : (s.cl c).base.isOpen = false
  lines : (s.cl c).base.lines = ls
  opening : ∀ t ok, (s.thread t).pc = .openFile ok → (s.thread t).ch ≠ c

section Shut

variable {s s' : Fpc} {r : Reg} {l : Act} {t d c e : Nat} {ls : List FPCLine}

theorem Shut.congr (h : Shut s c ls) (ht : s'.thread = s.thread) (hcl : s'.cl = s.cl) :
    Shut s' c ls := by
  constructor
  · rw [hcl]; exact h.handle
  · rw [hcl]; exact h.isOpen
  · rw [hcl]; exact h.lines
  · rw [ht]; exact h.opening

theorem Shut.thread (h : Shut s c ls) {a : ApiThread}
    (ha : ∀ ok, a.pc = .openFile ok → a.ch ≠ c) : Shut (s.setThread t a) c ls where
  handle := h.handle
  isOpen := h.isOpen
  lines := h.lines
  opening t' ok hpc := by
    by_cases ht : t' = t
    · subst ht
      simpa using ha ok (by simpa using hpc)
    · simpa [ht] using h.opening t' ok (by simpa [ht] using hpc)

theorem Shut.job (h : Shut s c ls) (j : Job) :
    Shut (s.setThread t { s.thread t with job := j }) c ls :=
  h.thread fun ok hpc => h.opening t ok hpc

theorem Shut.signal (h : Shut s c ls) : Shut (s.signalCompletion t) c ls := h.job _

theorem Shut.cl (h : Shut s c ls) {k : FPCClosure} (hk : e = c → k.handle = true ∧
    k.base.isOpen = false ∧ k.base.lines = ls) : Shut (s.setCl e k) c ls := by
  by_cases hc : c = e
  · subst hc
    obtain ⟨hh, ho, hl⟩ := hk rfl
    exact ⟨by simpa using hh, by simpa using ho, by simpa using hl, h.opening⟩
  · exact ⟨by simpa [hc] using h.handle, by simpa [hc] using h.isOpen, by simpa [hc] using h.lines,
      h.opening⟩

/-- What is written to a closed file is lost. -/
theorem Shut.written (h : Shut s c ls) {k : FPCClosure} (hw : (s.cl e).base.Written k.base)
    (hh : k.handle = (s.cl e).handle) : Shut (s.setCl e k) c ls := by
  refine h.cl ?_
  rintro rfl
  rw [hh, hw.closed h.isOpen]
  exact ⟨h.handle, h.isOpen, h.lines⟩

theorem Shut.callStep (h : Shut s c ls) (hmade : (s.cl c).made = true)
    (hs : CallMove s l s') : Shut s' c ls := by
  cases hs with
  | openChannel t c' ok hidle hmade' =>
      have hne : c' ≠ c := by
        rintro rfl
        rw [hmade] at hmade'
        cases hmade'
      exact (h.cl fun he => absurd he hne).thread fun _ _ => hne
  | param t c' a p hidle => exact h.thread fun ok hpc => by cases hpc
  | refuse => exact h
  | close t c' | closeAgain t c' => exact h.thread fun ok hpc => by cases hpc

theorem Shut.apiStep (h : Shut s c ls) (hs : ApiMove s l s') : Shut s' c ls := by
  cases hs with
  | opened t hpc =>
      have h1 := (h.cl (e := (s.thread t).ch)
        (k := { s.cl (s.thread t).ch with base := .opened, isRefCounted := true })
        fun he => absurd he (h.opening t true hpc)).thread (t := t)
        (a := ⟨.submit, (s.thread t).ch, ⟨.insertChannel, -1, 0⟩⟩) fun ok hpc => by cases hpc
      exact h1.congr rfl rfl
  | openFailed t | submit t | deleted t => exact h.thread fun ok hpc => by cases hpc
  | countOut t =>
      have h1 := h.thread (t := t) (a := { s.thread t with pc := .clear })
        fun ok hpc => by cases hpc
      exact h1.congr rfl rfl
  | clear t hpc =>
      refine Shut.thread (h.written (e := (s.thread t).ch) (k := { s.cl (s.thread t).ch with
        isRefCounted := false }) Base.written_refl rfl) fun ok hpc => by cases hpc
  | insertMap t p d hpc =>
      have h1 := h.thread (t := t) (a := { s.thread t with pc := .wait }) fun ok hpc => by cases hpc
      exact h1.congr rfl rfl
  | routeFound t | routeLost t =>
      have h1 := h.thread (t := t) (a := { s.thread t with pc := .wait }) fun ok hpc => by cases hpc
      exact h1.congr rfl rfl
  | routeNew t p =>
      have h1 := h.thread (t := t) (a := { s.thread t with pc := .insertMap p s.nrDescr })
        fun ok hpc => by cases hpc
      exact h1.congr rfl rfl
  | returned t hpc =>
      refine Shut.thread (h.cl ?_) fun ok hpc => by cases hpc
      intro he
      rw [he]
      exact ⟨rfl, h.isOpen, h.lines⟩
  | closing t hpc =>
      refine Shut.thread (h.cl ?_) fun ok hpc => by cases hpc
      intro he
      rw [he]
      exact ⟨h.handle, rfl, h.lines⟩

theorem Shut.loopStep (h : Shut s c ls) (hs : LoopMove s l s') : Shut s' c ls := by
  cases hs with
  | goto | job | keep | removed =>
      exact h.congr rfl rfl
  | sample d now seen c' rest =>
      have h1 := h.written (e := c') (k := (s.cl c').sample now) Base.written_refl rfl
      exact h1.congr rfl rfl
  | account d now c' rest =>
      exact (h.written (s.cl c').written_account (s.cl c').books_account.handle).congr rfl rfl

theorem Shut.takeStep (h : Shut s c ls) (hs : TakeMove s l s') : Shut s' c ls := by
  cases hs with
  | takeInsert d now left j =>
      have h1 := h.written (e := (s.thread j).ch) (k := (s.cl (s.thread j).ch).logHeader.exchange)
        (s.cl (s.thread j).ch).written_logHeader (s.cl (s.thread j).ch).books_logHeader.handle
      exact h1.congr rfl rfl
  | takeMove d now left j =>
      have h1 := h.written (e := (s.thread j).ch) (k := (s.cl (s.thread j).ch).exchange)
        Base.written_refl rfl
      exact h1.congr rfl rfl
  | takeDelete d now left j =>
      have h1 := h.written (e := (s.thread j).ch) (k := { (s.cl (s.thread j).ch).exchange with
        callsAtDelete := (s.cl (s.thread j).ch).calls }) Base.written_refl rfl
      exact h1.congr rfl rfl
  | takeMissing d now left j => exact (h.signal (t := j)).congr rfl rfl

theorem Shut.bookStep (h : Shut s c ls) (hs : BookMove s l s') : Shut s' c ls := by
  cases hs with
  | bookInsert d now left j ev =>
      exact ((h.written ((s.cl (s.thread j).ch).written_bookInsert now ev)
        ((s.cl (s.thread j).ch).books_bookInsert now ev).handle).signal (t := j)).congr rfl rfl
  | bookMove d now left j ev =>
      have h1 := h.written ((s.cl (s.thread j).ch).written_bookMove now ev
        (s.thread j).job.curPeriodicIncNs) ((s.cl (s.thread j).ch).books_bookMove now ev _).handle
      have h2 := h1.job (t := j) { (s.thread j).job with
        type := .insertChannel, curPeriodicIncNs := -1 }
      exact h2.congr rfl rfl
  | bookDelete d now left j ev | bookDeleteMissing d now left j ev =>
      exact ((h.written ((s.cl (s.thread j).ch).written_bookDelete now ev)
        ((s.cl (s.thread j).ch).books_bookDelete now ev).handle).signal (t := j)).congr rfl rfl

/-- **Every move leaves a closed channel closed.** -/
theorem Shut.step (h : Shut s c ls) (hmade : (s.cl c).made = true) (hs : Move s l s') :
    Shut s' c ls := by
  cases hs with
  | call hs => exact h.callStep hmade hs
  | api hs => exact h.apiStep hs
  | handler c' => exact h.written Base.written_refl rfl
  | loop hs => exact h.loopStep hs
  | take hs => exact h.takeStep hs
  | book hs => exact h.bookStep hs
  | pass hs =>
      cases hs with
      | passOn | passFound | passSelf | passNew | passMap =>
          exact h.congr rfl rfl

end Shut

/-- The application does not have a channel that is being opened. -/
def Fresh (s : Fpc) : Prop :=
  ∀ t ok, (s.thread t).pc = .openFile ok → (s.cl (s.thread t).ch).handle = false

section Fresh

variable {s s' : Fpc} {r : Reg} {l : Act} {t d c : Nat}

theorem Fresh.congr (h : Fresh s) (ht : ∀ t, (s'.thread t).pc = (s.thread t).pc ∧
    (s'.thread t).ch = (s.thread t).ch) (hcl : ∀ c, (s'.cl c).handle = (s.cl c).handle) :
    Fresh s' := by
  intro t ok hpc
  rw [hcl, (ht t).2]
  exact h t ok ((ht t).1 ▸ hpc)

/-- A thread goes on with the channel it is at. -/
theorem Fresh.goOn (h : Fresh s) {a : ApiThread} (ha : ∀ ok, a.pc ≠ .openFile ok) :
    Fresh (s.setThread t a) := by
  intro t' ok hpc
  by_cases ht : t' = t
  · subst ht
    exact absurd (by simpa using hpc) (ha ok)
  · simpa [ht] using h t' ok (by simpa [ht] using hpc)

/-- A channel is logged, counted or closed. -/
theorem Fresh.cl (h : Fresh s) {k : FPCClosure} (hk : k.handle = (s.cl c).handle) :
    Fresh (s.setCl c k) := by
  refine h.congr (fun _ => ⟨rfl, rfl⟩) fun c' => ?_
  by_cases hc : c' = c
  · subst hc
    simpa using hk
  · simp [hc]

theorem Fresh.signal (h : Fresh s) : Fresh (s.signalCompletion t) := by
  refine h.congr (fun t' => ?_) fun _ => rfl
  by_cases ht : t' = t
  · subst ht
    simp [signalCompletion]
  · simp [signalCompletion, ht]

theorem Fresh.callStep (h : Fresh s) (hs : CallMove s l s') : Fresh s' := by
  cases hs with
  | openChannel t c ok hidle hmade =>
      intro t' ok' hpc
      by_cases ht : t' = t
      · subst ht
        simp [FPCClosure.init]
      · have hold := h t' ok' (by simpa [ht] using hpc)
        by_cases hc : (s.thread t').ch = c
        · simp [ht, hc, FPCClosure.init]
        · simpa [ht, hc] using hold
  | param | close | closeAgain => exact h.goOn fun ok hpc => by cases hpc
  | refuse => exact h

theorem Fresh.apiStep (h : Fresh s) (hr : Fits s r) (hs : ApiMove s l s') : Fresh s' := by
  cases hs with
  | returned t hpc hsig htype =>
      intro t' ok hpc'
      have ht : t' ≠ t := by
        rintro rfl
        simp at hpc'
      have hpc₁ : (s.thread t').pc = .openFile ok := by simpa [ht] using hpc'
      have hch : (s.thread t').ch ≠ (s.thread t).ch := fun he =>
        ht (hr.settled.uniq t' t (by simp [ApiThread.app, hpc₁])
          (by simp [ApiThread.app, hpc, htype]) he)
      simpa [ht, hch] using h t' ok hpc₁
  | openFailed | submit | deleted => exact h.goOn fun ok hpc => by cases hpc
  | countOut t =>
      have h1 := h.goOn (t := t) (a := { s.thread t with pc := .clear })
        fun ok hpc => by cases hpc
      exact h1.congr (fun _ => ⟨rfl, rfl⟩) fun _ => rfl
  | clear t =>
      have h1 := h.cl (c := (s.thread t).ch) (k := { s.cl (s.thread t).ch with
        isRefCounted := false }) rfl
      exact h1.goOn (t := t) (a := ⟨.submit, (s.thread t).ch, ⟨.deleteChannel, -1, 0⟩⟩)
        fun ok hpc => by cases hpc
  | opened t hpc =>
      have h1 := (h.cl (c := (s.thread t).ch)
        (k := { s.cl (s.thread t).ch with base := .opened, isRefCounted := true }) rfl).goOn (t := t)
        (a := ⟨.submit, (s.thread t).ch, ⟨.insertChannel, -1, 0⟩⟩) fun ok hpc => by cases hpc
      exact h1.congr (fun _ => ⟨rfl, rfl⟩) fun _ => rfl
  | insertMap t | routeFound t | routeLost t =>
      have h1 := h.goOn (t := t) (a := { s.thread t with pc := .wait }) fun ok hpc => by cases hpc
      exact h1.congr (fun _ => ⟨rfl, rfl⟩) fun _ => rfl
  | routeNew t p =>
      have h1 := h.goOn (t := t) (a := { s.thread t with pc := .insertMap p s.nrDescr })
        fun ok hpc => by cases hpc
      exact h1.congr (fun _ => ⟨rfl, rfl⟩) fun _ => rfl
  | closing t =>
      have h1 := h.cl (c := (s.thread t).ch) (k := { s.cl (s.thread t).ch with
        base := (s.cl (s.thread t).ch).base.closeChannel }) rfl
      exact h1.goOn (t := t) (a := { s.thread t with pc := .idle }) fun ok hpc => by cases hpc

theorem Fresh.loopStep (h : Fresh s) (hs : LoopMove s l s') : Fresh s' := by
  cases hs with
  | goto | job | keep | removed =>
      exact h.congr (fun _ => ⟨rfl, rfl⟩) fun _ => rfl
  | sample d now seen c rest =>
      have h1 := h.cl (c := c) (k := (s.cl c).sample now) rfl
      exact h1.congr (fun _ => ⟨rfl, rfl⟩) fun _ => rfl
  | account d now c rest =>
      exact (h.cl (s.cl c).books_account.handle).congr (fun _ => ⟨rfl, rfl⟩) fun _ => rfl

theorem Fresh.takeStep (h : Fresh s) (hs : TakeMove s l s') : Fresh s' := by
  cases hs with
  | takeInsert d now left j =>
      have h1 := h.cl (c := (s.thread j).ch) (k := (s.cl (s.thread j).ch).logHeader.exchange)
        (s.cl (s.thread j).ch).books_logHeader.handle
      exact h1.congr (fun _ => ⟨rfl, rfl⟩) fun _ => rfl
  | takeMove d now left j =>
      have h1 := h.cl (c := (s.thread j).ch) (k := (s.cl (s.thread j).ch).exchange) rfl
      exact h1.congr (fun _ => ⟨rfl, rfl⟩) fun _ => rfl
  | takeDelete d now left j =>
      have h1 := h.cl (c := (s.thread j).ch) (k := { (s.cl (s.thread j).ch).exchange with
        callsAtDelete := (s.cl (s.thread j).ch).calls }) rfl
      exact h1.congr (fun _ => ⟨rfl, rfl⟩) fun _ => rfl
  | takeMissing d now left j => exact (h.signal (t := j)).congr (fun _ => ⟨rfl, rfl⟩) fun _ =>
      rfl

theorem Fresh.bookStep (h : Fresh s) (hs : BookMove s l s') : Fresh s' := by
  cases hs with
  | bookInsert d now left j ev =>
      exact ((h.cl ((s.cl (s.thread j).ch).books_bookInsert now ev).handle).signal
        (t := j)).congr (fun _ => ⟨rfl, rfl⟩) fun _ => rfl
  | bookMove d now left j ev =>
      have h1 := h.cl ((s.cl (s.thread j).ch).books_bookMove now ev
        (s.thread j).job.curPeriodicIncNs).handle
      refine h1.congr (fun t' => ?_) fun _ => rfl
      by_cases ht : t' = j
      · subst ht
        simp
      · simp [ht]
  | bookDelete d now left j ev | bookDeleteMissing d now left j ev =>
      exact ((h.cl ((s.cl (s.thread j).ch).books_bookDelete now ev).handle).signal
        (t := j)).congr (fun _ => ⟨rfl, rfl⟩) fun _ => rfl

/-- **Every move keeps it so.** -/
theorem Fresh.step (h : Fresh s) (hr : Fits s r) (hs : Move s l s') : Fresh s' := by
  cases hs with
  | call hs => exact h.callStep hs
  | api hs => exact h.apiStep hr hs
  | handler c => exact h.cl rfl
  | loop hs => exact h.loopStep hs
  | take hs => exact h.takeStep hs
  | book hs => exact h.bookStep hs
  | pass hs =>
      cases hs with
      | passOn | passFound | passSelf | passNew | passMap =>
          exact h.congr (fun _ => ⟨rfl, rfl⟩) fun _ => rfl

end Fresh

/-- **Closed is final for FASTPERIODICCOUNTER**: once a channel that the
application has got is closed, its log does not change any more and it is not
open, whatever the threads do; a call that is made starts, and every call under
way can come to its end. -/
def ClosedIsFinal : Prop :=
  ∀ s c, Reach step init OneCall s → (s.cl c).handle = true → (s.cl c).base.isOpen = false →
  ∀ s', Reach step s OneCall s' →
    (s'.cl c).base.lines = (s.cl c).base.lines ∧ (s'.cl c).base.isOpen = false ∧
    (s'.step (.handler c)).isSome = true ∧
    ∀ t, s'.Returns t ∧ (s'.isIdle t = true → (s'.step (.closeChannel t c)).isSome = true ∧
      ∀ a, (s'.step (.parameterizeChannel t c a)).isSome = true)

theorem closed_final : ClosedIsFinal := by
  intro s c h hhandle hclosed s' h'
  have hfresh : ∃ r, Sound s r ∧ Fresh s := by
    refine h.invariant (I := fun s => ∃ r, Sound s r ∧ Fresh s)
      ⟨_, sound_init, fun t ok hpc => by cases hpc⟩ ?_
    rintro s l s' ⟨r, hr, hf⟩ hok hs
    exact ⟨_, hr.step hok hs, hf.step hr.fits (step_move hs)⟩
  obtain ⟨r, hr, hf⟩ := hfresh
  have hshut : Shut s c (s.cl c).base.lines := by
    refine ⟨hhandle, hclosed, rfl, ?_⟩
    rintro t ok hpc rfl
    rw [hf t ok hpc] at hhandle
    cases hhandle
  have hend : ∃ r', Sound s' r' ∧ Shut s' c (s.cl c).base.lines := by
    refine h'.invariant (I := fun s' => ∃ r', Sound s' r' ∧ Shut s' c (s.cl c).base.lines)
      ⟨r, hr, hshut⟩ ?_
    rintro s₁ l s₂ ⟨r₁, hr₁, hsh⟩ hok hs
    exact ⟨_, hr₁.step hok hs, hsh.step (hr₁.fits.settled.handle c hsh.handle) (step_move hs)⟩
  obtain ⟨r', hr', hsh⟩ := hend
  have hmade := hr'.fits.settled.handle c hsh.handle
  refine ⟨hsh.lines, hsh.isOpen, by simp [step, hmade], fun t => ⟨hr'.returns t, fun hidle => ?_⟩⟩
  refine ⟨by simp [step, closeChannel, hidle, hmade], fun a => ?_⟩
  simp only [step, parameterizeChannel, hidle, hsh.handle, and_self, if_true]
  cases fpcRequest a with
  | refuse close => cases close <;> rfl
  | move p => rfl

end Fpc

/-! ## all handler types -/

open ChannelType

/-- **Closed is final**, for PERIODICCOUNTER as long as its parameter handler
is not asked for a period of zero. -/
theorem closed_is_final (f : LogFormat) (env : Env) (opened t : Timespec) :
    identityType.ClosedIsFinal (.openChannel f true) (fun _ => True) ∧
    medianType.ClosedIsFinal (.init env) (fun _ => True) ∧
    downsampleType.ClosedIsFinal initDownsampleHandler (fun _ => True) ∧
    xoyType.ClosedIsFinal initXoYHandler (fun _ => True) ∧
    firstlastType.ClosedIsFinal (initFirstlastHandler t) (fun _ => True) ∧
    periodicCounterType.ClosedIsFinal (initPeriodicCounterHandler opened t) PeriodNonzero ∧
    nullhType.ClosedIsFinal initNullHandler (fun _ => True) ∧
    Fpc.ClosedIsFinal := by
  refine ⟨identity_settles.closedIsFinal fun hopen hc => ?_,
    median_settles.closedIsFinal fun hopen hc => ?_,
    downsample_settles.closedIsFinal fun _ => Base.shut_opened,
    xoy_settles.closedIsFinal fun _ => Base.shut_opened,
    firstlast_settles.closedIsFinal fun _ => Base.shut_opened,
    periodicCounter_settles.closedIsFinal fun _ => ⟨Base.shut_opened, ?_⟩,
    nullh_settles.closedIsFinal fun _ _ => rfl, Fpc.closed_final⟩
  · exact nomatch hopen.symm.trans hc
  · exact nomatch hopen.symm.trans hc
  · show nanoSPerS ≠ 0
    decide

/-- What a call gets `sec` seconds after the epoch. -/
def Env.atSec (sec : Int64) : Env := ⟨⟨sec, 0, 0, 0, 0⟩, ⟨0, 0⟩, fun _ => .zero⟩

/-- **A closed channel traps**: it is closed before its first period is over,
then its period is set to zero, which is accepted, and closing it again
divides by the period. -/
theorem closed_traps :
    ¬ periodicCounterType.ClosedIsFinal (initPeriodicCounterHandler ⟨5, 0, 0, 0, 0⟩ .zero)
      fun _ => True := by
  intro hfinal
  have hrun : ((periodicCounterType.step (initPeriodicCounterHandler ⟨5, 0, 0, 0, 0⟩ .zero)
      (.atSec 5, .closeChannel)).any fun cl => !periodicCounterType.isOpen cl &&
        (periodicCounterType.step cl (.atSec 6, .parameterizeChannel (.one 0 0))).any fun cl' =>
          (periodicCounterType.step cl' (.atSec 7, .closeChannel)).isNone) = true := by
    decide +kernel
  obtain ⟨cl, hs, hcl⟩ := (Option.any_eq_true _ _).mp hrun
  rw [Bool.and_eq_true, Bool.not_eq_true'] at hcl
  obtain ⟨cl', hs', htrap⟩ := (Option.any_eq_true _ _).mp hcl.2
  have hany : ∀ (cl : PCClosure) l, CallsWith (fun _ => True) cl l := fun _ _ _ _ => trivial
  have hlast := (hfinal rfl cl (.step .init (hany _ _) hs) hcl.1 cl'
    (.step .init (hany _ _) hs')).2.2 (.atSec 7, .closeChannel) (hany _ _)
  rw [Option.isNone_iff_eq_none] at htrap
  rw [htrap] at hlast
  cases hlast

end CloudProfiler
