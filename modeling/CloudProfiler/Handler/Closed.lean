import CloudProfiler.Handler.Bulk
import CloudProfiler.Handler.Call
import CloudProfiler.Run

/-!
# CloudProfiler.Handler.Closed

Closed is final, for the handlers that work in the thread of the caller.

The parameter handlers stay installed after a channel is closed, and three
`closeChannel` functions write to the log before they close it; a closed file
takes nothing.

* `ChannelType.ClosedIsFinal` — the property, over all runs of calls;
* `Settles` — what a handler type has to keep for it;
* `Settles.closedIsFinal` — the rule;
* one lemma for each handler type.
-/

namespace CloudProfiler

namespace ChannelType

variable {σ ι : Type} {k : ChannelType σ ι} {init : σ} {okArg : Arg → Prop}

/-- The parameter handlers are called with arguments of some kind. -/
def CallsWith (okArg : Arg → Prop) (_ : σ) (l : Env × Call) : Prop := ∀ a ∈ l.2.arg, okArg a

/-- **Closed is final**, for a channel whose file was opened: once it is
closed, by whatever calls, the log does not change any more, the channel is
not open, and every call returns. -/
def ClosedIsFinal (k : ChannelType σ ι) (init : σ) (okArg : Arg → Prop) : Prop :=
  k.isOpen init = true →
  ∀ cl, Reach k.step init (CallsWith okArg) cl → k.isOpen cl = false →
  ∀ cl', Reach k.step cl (CallsWith okArg) cl' →
    k.log cl' = k.log cl ∧ k.isOpen cl' = false ∧
      ∀ l, CallsWith okArg cl' l → (k.step cl' l).isSome = true

/-- What closing, or setting an argument of, a closed channel comes to. -/
def Stays (k : ChannelType σ ι) (cl cl' : σ) : Prop := k.log cl' = k.log cl ∧ k.isOpen cl' = false

/-- The invariant `I` is kept by the functions of the handler type, and where
it holds, a closed channel has `NullHandler`, and closing it or setting an
argument returns and changes nothing. -/
structure Settles (k : ChannelType σ ι) (okArg : Arg → Prop) (I : σ → Prop) : Prop where
  handler : ∀ env cl tuple cl', I cl → k.handler env cl tuple = some cl' → I cl'
  closeChannel : ∀ env cl cl', I cl → k.closeChannel env cl = some cl' → I cl'
  setArg : ∀ env cl a r, I cl → okArg a → k.setArg env cl a = some r → I r.2
  null : ∀ cl, I cl → k.isOpen cl = false → k.null cl = true
  closed : ∀ env cl, I cl → k.isOpen cl = false → ∃ cl', k.closeChannel env cl = some cl' ∧
    k.Stays cl cl'
  set : ∀ env cl a, I cl → k.isOpen cl = false → k.parm cl = true → okArg a →
    ∃ r, k.setArg env cl a = some r ∧ k.Stays cl r.2

/-- The invariant `I` is kept by the functions of the handler type. -/
structure Keeps (k : ChannelType σ ι) (okArg : Arg → Prop) (I : σ → Prop) : Prop where
  handler : ∀ env cl tuple cl', I cl → k.handler env cl tuple = some cl' → I cl'
  closeChannel : ∀ env cl cl', I cl → k.closeChannel env cl = some cl' → I cl'
  setArg : ∀ env cl a r, I cl → okArg a → k.setArg env cl a = some r → I r.2

section Keeps

variable {I : σ → Prop} {env : Env} {cl cl' : σ} {a : Arg} {l : Env × Call}

theorem Keeps.parameterizeChannel (h : k.Keeps okArg I) (hI : I cl) (ha : okArg a) {r : Int × σ}
    (hr : k.parameterizeChannel env cl a = some r) : I r.2 := by
  unfold ChannelType.parameterizeChannel at hr
  split at hr
  · exact h.setArg env cl a r hI ha hr
  · obtain ⟨cl', hc, rfl⟩ := Option.map_eq_some_iff.mp hr
    exact h.closeChannel env cl cl' hI hc

/-- **Step lemma**: every call keeps the invariant. -/
theorem Keeps.step (h : k.Keeps okArg I) (hI : I cl) (hl : CallsWith okArg cl l)
    (hs : k.step cl l = some cl') : I cl' := by
  obtain ⟨env, c⟩ := l
  cases c with
  | logTS tuple =>
      simp only [ChannelType.step, logTS] at hs
      split at hs
      · exact h.closeChannel env cl cl' hI hs
      · split at hs
        · cases hs
          exact hI
        · exact h.handler env cl tuple cl' hI hs
  | closeChannel | closeAllChannels => exact h.closeChannel env cl cl' hI hs
  | parameterizeChannel a =>
      obtain ⟨r, hr, rfl⟩ := Option.map_eq_some_iff.mp hs
      exact h.parameterizeChannel hI (hl a rfl) hr
  | parameterizeChannelStr valid later a =>
      obtain ⟨r, hr, rfl⟩ := Option.map_eq_some_iff.mp hs
      cases valid with
      | true => exact h.parameterizeChannel hI (hl a rfl) hr
      | false =>
          obtain ⟨cl₁, hc, hr⟩ := Option.bind_eq_some_iff.mp hr
          exact h.parameterizeChannel (h.closeChannel env cl cl₁ hI hc) (hl a rfl) hr

end Keeps

namespace Settles

variable {I : σ → Prop} {env : Env} {cl cl' : σ} {a : Arg} {l : Env × Call}

theorem keeps (h : k.Settles okArg I) : k.Keeps okArg I := ⟨h.handler, h.closeChannel, h.setArg⟩

/-- Setting an argument of a closed channel. -/
theorem parameterizeChannel_closed (h : k.Settles okArg I) (env : Env) (hI : I cl)
    (hopen : k.isOpen cl = false) (ha : okArg a) :
    ∃ r, k.parameterizeChannel env cl a = some r ∧ k.Stays cl r.2 := by
  unfold ChannelType.parameterizeChannel
  by_cases hp : k.parm cl = true
  · rw [if_pos hp]
    exact h.set env cl a hI hopen hp ha
  · obtain ⟨cl', hc, hst⟩ := h.closed env cl hI hopen
    rw [if_neg hp, hc]
    exact ⟨_, rfl, hst⟩

/-- **Step lemma**: every call on a closed channel returns and changes
nothing. -/
theorem step_closed (h : k.Settles okArg I) (hI : I cl) (hopen : k.isOpen cl = false)
    (hl : CallsWith okArg cl l) : ∃ cl', k.step cl l = some cl' ∧ k.Stays cl cl' := by
  obtain ⟨env, c⟩ := l
  cases c with
  | logTS tuple =>
      by_cases ht : tuple = -1
      · simpa only [ChannelType.step, logTS, if_pos ht] using h.closed env cl hI hopen
      · have hnull := h.null cl hI hopen
        exact ⟨cl, by simp [ChannelType.step, logTS, ht, hnull], rfl, hopen⟩
  | closeChannel | closeAllChannels => exact h.closed env cl hI hopen
  | parameterizeChannel a =>
      obtain ⟨r, hr, hst⟩ := h.parameterizeChannel_closed env hI hopen (hl a rfl)
      exact ⟨r.2, by simp [ChannelType.step, hr], hst⟩
  | parameterizeChannelStr valid later a =>
      cases valid with
      | true =>
          obtain ⟨r, hr, hst⟩ := h.parameterizeChannel_closed env hI hopen (hl a rfl)
          exact ⟨r.2, by simp [ChannelType.step, parameterizeChannelStr, hr], hst⟩
      | false =>
          obtain ⟨cl₁, hc, hst₁⟩ := h.closed env cl hI hopen
          obtain ⟨r, hr, hst⟩ := h.parameterizeChannel_closed { env with now := later }
            (h.closeChannel env cl cl₁ hI hc) hst₁.2 (hl a rfl)
          exact ⟨r.2, by simp [ChannelType.step, parameterizeChannelStr, hc, hr],
            hst.1.trans hst₁.1, hst.2⟩

/-- **The rule**: a handler type that settles is final when closed. -/
theorem closedIsFinal (h : k.Settles okArg I) (hinit : k.isOpen init = true → I init) :
    k.ClosedIsFinal init okArg := by
  intro hopened cl hr hopen cl' hr'
  have hI : I cl := hr.invariant (hinit hopened) fun _ _ _ hI hok hs => h.keeps.step hI hok hs
  have hstays : I cl' ∧ k.Stays cl cl' := by
    refine hr'.invariant (I := fun cl' => I cl' ∧ k.Stays cl cl') ⟨hI, rfl, hopen⟩ ?_
    intro cl₁ l cl₂ ⟨hI₁, hst⟩ hok hs
    obtain ⟨cl₃, hs₃, hst₃⟩ := h.step_closed hI₁ hst.2 hok
    rw [hs] at hs₃
    cases hs₃
    exact ⟨h.keeps.step hI₁ hok hs, hst₃.1.trans hst.1, hst₃.2⟩
  refine ⟨hstays.2.1, hstays.2.2, fun l hl => ?_⟩
  obtain ⟨cl₁, hs, -⟩ := h.step_closed hstays.1 hstays.2.2 hl
  rw [hs, Option.isSome_some]

end Settles

end ChannelType

/-! ## the handler types -/

namespace Base

variable {ι : Type} {b b' : Base ι}

/-- A file that was closed has `NullHandler` in its closure. -/
def Shut (b : Base ι) : Prop := b.isOpen = false → b.null = true

/-- `b'` is `b`, or `b` closed. -/
def Closes (b b' : Base ι) : Prop := b' = b ∨ b' = b.closeChannel

theorem shut_opened : (opened : Base ι).Shut := fun h => absurd h (by simp [opened])

theorem Closes.shut (hc : b.Closes b') (h : b.Shut) : b'.Shut := by
  obtain rfl | rfl := hc
  · exact h
  · exact fun _ => rfl

theorem Closes.stays (hc : b.Closes b') (h : b.isOpen = false) :
    b'.lines = b.lines ∧ b'.isOpen = false := by
  obtain rfl | rfl := hc
  · exact ⟨rfl, h⟩
  · exact ⟨rfl, rfl⟩

/-- `b'` is what writing lines made of `b`. -/
structure Written (b b' : Base ι) : Prop where
  isOpen : b'.isOpen = b.isOpen
  null : b'.null = b.null
  closed : b.isOpen = false → b' = b

theorem written_refl : b.Written b := ⟨rfl, rfl, fun _ => rfl⟩

theorem written_put (l : ι) : b.Written (b.put l) := by
  unfold put
  split
  · next h => exact ⟨rfl, rfl, fun hc => by rw [h] at hc; cases hc⟩
  · exact written_refl

theorem Written.trans {b'' : Base ι} (h : b.Written b') (h' : b'.Written b'') : b.Written b'' where
  isOpen := h'.isOpen.trans h.isOpen
  null := h'.null.trans h.null
  closed hc := (h'.closed (h.isOpen.trans hc)).trans (h.closed hc)

theorem Written.shut (hw : b.Written b') (h : b.Shut) : b'.Shut := by
  intro hc
  rw [hw.null]
  exact h (hw.isOpen ▸ hc)

end Base

open ChannelType

/-- A record leaves the file open or closed. -/
theorem IdClosure.isOpen_logTS {cl cl' : IdClosure} {d : LogData} (h : cl.logTS d = some cl') :
    cl'.chLogf.isOpen = cl.chLogf.isOpen := by
  unfold IdClosure.logTS at h
  split at h
  · obtain ⟨w, -, rfl⟩ := Option.map_eq_some_iff.mp h
    simp
  · unfold identityHandlerTsc at h
    split at h
    · obtain ⟨cl₁, h₁, rfl⟩ := Option.map_eq_some_iff.mp h
      obtain ⟨w, -, rfl⟩ := Option.map_eq_some_iff.mp h₁
      simp
    · obtain ⟨w, -, rfl⟩ := Option.map_eq_some_iff.mp h
      simp
  · contradiction

/-- IDENTITY. -/
theorem identity_settles :
    identityType.Settles (fun _ => True) fun ch => ch.cl.chLogf.isOpen = false → ch.null = true where
  handler env ch tuple ch' hI hs := by
    obtain ⟨cl, hcl, rfl⟩ := Option.map_eq_some_iff.mp hs
    intro hopen
    rw [IdClosure.isOpen_logTS hcl] at hopen
    exact hI hopen
  closeChannel env ch ch' _ hs := by
    cases hs
    exact fun _ => rfl
  setArg env ch a r _ _ hs := by cases hs
  null ch hI hopen := hI hopen
  closed env ch hI hopen := by
    have hopen' : ch.cl.chLogf.isOpen = false := hopen
    exact ⟨_, rfl, by simp [Stays, identityType, Unbuffered.closeChannel, hopen']⟩
  set env ch a _ _ hp := by cases hp

/-- NULLH. -/
theorem nullh_settles : nullhType.Settles (fun _ => True) Base.Shut where
  handler env cl tuple cl' hI hs := by
    cases hs
    exact hI
  closeChannel env cl cl' _ hs := by
    cases hs
    exact fun _ => rfl
  setArg env cl a r _ _ hs := by cases hs
  null cl hI hopen := hI hopen
  closed env cl _ _ := ⟨_, rfl, rfl, rfl⟩
  set env cl a _ _ hp := by cases hp

/-- The parameter handler of DOWNSAMPLE writes nothing. -/
theorem closes_setArgDownsampleHandler (cl : DownsampleClosure) (a : Arg) :
    cl.base.Closes (setArgDownsampleHandler cl a).2.base := by
  have hone : ∀ n v, cl.base.Closes (setOneDownsample cl n v).2.base := by
    intro n v
    unfold setOneDownsample
    split
    · exact .inr rfl
    · exact .inl rfl
  unfold setArgDownsampleHandler
  split
  · exact .inr rfl
  · split
    · split
      · exact .inr rfl
      · exact hone _ _
    · exact hone _ _

/-- DOWNSAMPLE. -/
theorem downsample_settles :
    downsampleType.Settles (fun _ => True) fun cl => cl.base.Shut where
  handler env cl tuple cl' hI hs := by
    cases hs
    unfold DownsampleClosure.handler
    split
    · exact hI
    · exact (Base.written_put _).shut hI
  closeChannel env cl cl' _ hs := by
    cases hs
    exact fun _ => rfl
  setArg env cl a r hI _ hs := by
    cases hs
    exact (closes_setArgDownsampleHandler cl a).shut hI
  null cl hI hopen := hI hopen
  closed env cl _ _ := ⟨_, rfl, rfl, rfl⟩
  set env cl a _ hopen _ _ := ⟨_, rfl, (closes_setArgDownsampleHandler cl a).stays hopen⟩

/-- The parameter handler of XOY writes nothing, and closes the channel at
most once: after an error it sets no other argument. -/
theorem closes_setArgXoYHandler (cl : XoYClosure) (a : Arg) :
    cl.base.Closes (setArgXoYHandler cl a).2.base := by
  have hone : ∀ (cl : XoYClosure) n v, cl.base.Closes (setOneXoY cl n v).2.base ∧
      ((setOneXoY cl n v).1 ≠ -1 → (setOneXoY cl n v).2.base = cl.base) := by
    intro cl n v
    unfold setOneXoY
    split <;> split
    · exact ⟨.inl rfl, fun _ => rfl⟩
    · exact ⟨.inr rfl, fun h => absurd rfl h⟩
    · exact ⟨.inl rfl, fun _ => rfl⟩
    · exact ⟨.inr rfl, fun h => absurd rfl h⟩
  unfold setArgXoYHandler
  split
  · exact .inr rfl
  · split
    · split
      · exact .inl rfl
      · dsimp only
        split
        · exact (hone cl 1 _).1
        · next hret =>
          have h2 := (hone (setOneXoY cl 1 (a.par 2).toInt64).2 0 (a.par 1).toInt64).1
          rwa [(hone cl 1 _).2 hret] at h2
    · exact (hone cl _ _).1

/-- XOY. -/
theorem xoy_settles : xoyType.Settles (fun _ => True) fun cl => cl.base.Shut where
  handler env cl tuple cl' hI hs := by
    cases hs
    unfold XoYClosure.handler
    split
    · exact (Base.written_put _).shut hI
    · exact hI
  closeChannel env cl cl' _ hs := by
    cases hs
    exact fun _ => rfl
  setArg env cl a r hI _ hs := by
    cases hs
    exact (closes_setArgXoYHandler cl a).shut hI
  null cl hI hopen := hI hopen
  closed env cl _ _ := ⟨_, rfl, rfl, rfl⟩
  set env cl a _ hopen _ _ := ⟨_, rfl, (closes_setArgXoYHandler cl a).stays hopen⟩

/-- FIRSTLAST. -/
theorem firstlast_settles : firstlastType.Settles (fun _ => True) fun cl => cl.base.Shut where
  handler env cl tuple cl' hI hs := by
    cases hs
    show Base.Shut (if cl.hasFirst then cl.base else cl.base.put (.tuple tuple env.now))
    split
    · exact hI
    · exact (Base.written_put _).shut hI
  closeChannel env cl cl' _ hs := by
    cases hs
    exact fun _ => rfl
  setArg env cl a r _ _ hs := by cases hs
  null cl hI hopen := hI hopen
  closed env cl _ hopen := by
    refine ⟨_, rfl, ?_, rfl⟩
    show (cl.base.put _).lines = cl.base.lines
    rw [(Base.written_put _).closed hopen]
  set env cl a _ _ hp := by cases hp

/-- MEDIAN: what the parameter handler makes of the file. -/
theorem setArgMedianHandler_base (heap : Heap) (cl : MedianClosure) (a : Arg) :
    (setArgMedianHandler heap cl a).2.base = cl.base ∨
      (setArgMedianHandler heap cl a).2.base = cl.base.closeChannel ∨
      (setArgMedianHandler heap cl a).2.base = { cl.base with null := true } := by
  unfold setArgMedianHandler
  split
  · exact .inr (.inl rfl)
  · dsimp only
    split
    · exact .inl rfl
    · split
      · exact .inr (.inr rfl)
      · exact .inl rfl

/-- MEDIAN. -/
theorem median_settles : medianType.Settles (fun _ => True) fun ch => ch.cl.base.Shut where
  handler env ch tuple ch' hI hs := by
    have hs' : ch.handler env = some ch' := hs
    unfold MedianChannel.handler at hs'
    dsimp only at hs'
    split at hs' <;> split at hs'
    · cases hs'
      exact hI
    · contradiction
    · cases hs'
      exact (Base.written_put _).shut hI
    · contradiction
  closeChannel env ch ch' _ hs := by
    cases hs
    exact fun _ => rfl
  setArg env ch a r hI _ hs := by
    cases hs
    show (setArgMedianHandler env.heap ch.cl a).2.base.Shut
    obtain h | h | h := setArgMedianHandler_base env.heap ch.cl a <;> rw [h]
    · exact hI
    · exact fun _ => rfl
    · exact fun _ => rfl
  null ch hI hopen := hI hopen
  closed env ch _ _ := ⟨_, rfl, rfl, rfl⟩
  set env ch a _ hopen _ _ := by
    refine ⟨_, rfl, ?_⟩
    show (setArgMedianHandler env.heap ch.cl a).2.base.lines = ch.cl.base.lines ∧
      (setArgMedianHandler env.heap ch.cl a).2.base.isOpen = false
    obtain h | h | h := setArgMedianHandler_base env.heap ch.cl a <;> rw [h]
    · exact ⟨rfl, hopen⟩
    · exact ⟨rfl, rfl⟩
    · exact ⟨rfl, hopen⟩

/-! ## PERIODICCOUNTER -/

namespace PCClosure

variable {cl cl' : PCClosure} {now : Timespec}

/-- `cl'` is what printing made of `cl`: the period is the same. -/
def Prints (cl cl' : PCClosure) : Prop :=
  cl.base.Written cl'.base ∧ cl'.periodicIncNs = cl.periodicIncNs

theorem Prints.trans {cl'' : PCClosure} (h : cl.Prints cl') (h' : cl'.Prints cl'') :
    cl.Prints cl'' :=
  ⟨h.1.trans h'.1, h'.2.trans h.2⟩

theorem prints_ensureHeader (cl : PCClosure) : cl.Prints cl.ensureHeader := by
  refine ⟨?_, periodicIncNs_ensureHeader cl⟩
  unfold ensureHeader
  split
  · exact Base.written_refl
  · exact (Base.written_put _).trans (Base.written_put _)

theorem prints_flushCtr (h : cl.flushCtr now = some cl') : cl.Prints cl' := by
  obtain ⟨n, -, rfl⟩ := Option.map_eq_some_iff.mp h
  refine ⟨?_, rfl⟩
  dsimp only
  split <;> split
  · exact (Base.written_put _).trans (Base.written_put _)
  · split
    · exact (Base.written_put _).trans (Base.written_put _)
    · exact Base.written_put _
  · exact Base.written_put _
  · split
    · exact Base.written_put _
    · exact Base.written_refl

theorem prints_printSkipped (cl : PCClosure) (n : UInt32) : cl.Prints (cl.printSkipped n).1 := by
  have hctr : cl.base.Written
      (if cl.ctr > 0 then cl.base.put (.count cl.timeFlush cl.ctr) else cl.base) := by
    split
    · exact Base.written_put _
    · exact Base.written_refl
  refine ⟨?_, rfl⟩
  unfold printSkipped
  dsimp only
  generalize (if cl.ctr = 0 then n + 1 else n) = total
  split
  · exact hctr.trans (Base.written_put _)
  · exact hctr

/-- What `closeChannel` makes of the closure. -/
theorem closeChannel_eq (h : cl.closeChannel now = some cl') :
    cl'.periodicIncNs = cl.periodicIncNs ∧
      ∃ b, cl.base.Written b ∧ cl'.base = b.closeChannel := by
  obtain ⟨cl₁, h₁, rfl⟩ := Option.map_eq_some_iff.mp h
  have hp := (prints_ensureHeader cl).trans (prints_flushCtr h₁)
  exact ⟨hp.2, _, hp.1.trans (Base.written_put _), rfl⟩

/-- With a period that is not zero, `closeChannel` returns. -/
theorem closeChannel_isSome (h : cl.periodicIncNs ≠ 0) (now : Timespec) :
    ∃ cl', cl.closeChannel now = some cl' := by
  obtain ⟨cl₁, h₁⟩ := flushCtr_isSome cl.ensureHeader (by simpa using h) now
  exact ⟨_, by rw [closeChannel, h₁, Option.map_some]⟩

/-- And so does the event handler. -/
theorem handler_isSome (h : cl.periodicIncNs ≠ 0) (now : Timespec) :
    ∃ cl', cl.handler now = some cl' := by
  have hskip : ∃ n, cl.ensureHeader.skippedFromFlush now = some n := by
    simp [skippedFromFlush, h]
  obtain ⟨n, hn⟩ := hskip
  unfold handler
  split
  · exact ⟨_, by rw [hn, Option.map_some]⟩
  · exact ⟨_, rfl⟩

theorem prints_handler (h : cl.handler now = some cl') : cl.Prints cl' := by
  unfold handler at h
  split at h
  · obtain ⟨n, -, rfl⟩ := Option.map_eq_some_iff.mp h
    exact (prints_ensureHeader cl).trans (prints_printSkipped _ n)
  · cases h
    exact ⟨Base.written_refl, rfl⟩

end PCClosure

/-- The parameter handler of PERIODICCOUNTER is not asked for a period of
zero. -/
def PeriodNonzero (a : Arg) : Prop := a.number = 0 → a.value ≠ 0

instance (a : Arg) : Decidable (PeriodNonzero a) := inferInstanceAs (Decidable (_ → _))

/-- What the parameter handler of PERIODICCOUNTER makes of the closure: it is
closed, or printed on and given the new period. -/
theorem setArgPeriodicCounterHandler_eq {now : Timespec} {cl : PCClosure} {a : Arg}
    {r : Int × PCClosure} (h : setArgPeriodicCounterHandler now cl a = some r) :
    (∃ cl', cl.closeChannel now = some cl' ∧ r = (-1, cl')) ∨
      a.number = 0 ∧ 0 ≤ a.value ∧ r.1 = 0 ∧ cl.base.Written r.2.base ∧
        r.2.periodicIncNs = a.value.toUInt64 := by
  unfold setArgPeriodicCounterHandler at h
  split at h
  · obtain ⟨cl', hc, rfl⟩ := Option.map_eq_some_iff.mp h
    exact .inl ⟨cl', hc, rfl⟩
  · next hno =>
    obtain ⟨cl₁, h₁, rfl⟩ := Option.map_eq_some_iff.mp h
    have hp := (PCClosure.prints_ensureHeader cl).1.trans (PCClosure.prints_flushCtr h₁).1
    simp only [ne_eq, not_or, Classical.not_not, Int64.not_lt] at hno
    exact .inr ⟨hno.1, hno.2, rfl,
      (hp.trans (Base.written_put _)).trans (Base.written_put _), rfl⟩

/-- With a period that is not zero, it returns. -/
theorem setArgPeriodicCounterHandler_isSome {cl : PCClosure} (h : cl.periodicIncNs ≠ 0)
    (now : Timespec) (a : Arg) : ∃ r, setArgPeriodicCounterHandler now cl a = some r := by
  unfold setArgPeriodicCounterHandler
  split
  · obtain ⟨cl', hc⟩ := PCClosure.closeChannel_isSome h now
    exact ⟨_, by rw [hc, Option.map_some]⟩
  · obtain ⟨cl', hc⟩ := PCClosure.flushCtr_isSome
      ({ cl.ensureHeader with timeStart := now }) (by simpa using h) now
    exact ⟨_, by rw [hc, Option.map_some]⟩

theorem toUInt64_ne_zero {v : Int64} (h : v ≠ 0) : v.toUInt64 ≠ 0 := by
  intro h0
  refine h ?_
  rw [← toInt64_toUInt64 v, h0]
  rfl

/-- PERIODICCOUNTER: the division by the period never traps. -/
theorem periodicCounter_settles : periodicCounterType.Settles PeriodNonzero
    fun cl => cl.base.Shut ∧ cl.periodicIncNs ≠ 0 where
  handler env cl tuple cl' hI hs := by
    have hp := PCClosure.prints_handler hs
    exact ⟨hp.1.shut hI.1, by rw [hp.2]; exact hI.2⟩
  closeChannel env cl cl' hI hs := by
    obtain ⟨hper, b, -, hb⟩ := PCClosure.closeChannel_eq hs
    refine ⟨fun _ => ?_, by rw [hper]; exact hI.2⟩
    rw [hb]
    rfl
  setArg env cl a r hI ha hs := by
    obtain ⟨cl', hc, rfl⟩ | ⟨hn, -, -, hw, hper⟩ := setArgPeriodicCounterHandler_eq hs
    · obtain ⟨hper, b, -, hb⟩ := PCClosure.closeChannel_eq hc
      refine ⟨fun _ => ?_, by rw [hper]; exact hI.2⟩
      rw [hb]
      rfl
    · exact ⟨hw.shut hI.1, by rw [hper]; exact toUInt64_ne_zero (ha hn)⟩
  null cl hI hopen := hI.1 hopen
  closed env cl hI hopen := by
    obtain ⟨cl', hc⟩ := PCClosure.closeChannel_isSome hI.2 env.now
    obtain ⟨-, b, hw, hb⟩ := PCClosure.closeChannel_eq hc
    refine ⟨cl', hc, ?_⟩
    show cl'.base.lines = cl.base.lines ∧ cl'.base.isOpen = false
    rw [hb, hw.closed hopen]
    exact ⟨rfl, rfl⟩
  set env cl a hI hopen _ ha := by
    obtain ⟨r, hr⟩ := setArgPeriodicCounterHandler_isSome hI.2 env.now a
    refine ⟨r, hr, ?_⟩
    show r.2.base.lines = cl.base.lines ∧ r.2.base.isOpen = false
    obtain ⟨cl', hc, rfl⟩ | ⟨-, -, -, hw, -⟩ := setArgPeriodicCounterHandler_eq hr
    · obtain ⟨-, b, hw, hb⟩ := PCClosure.closeChannel_eq hc
      rw [hb, hw.closed hopen]
      exact ⟨rfl, rfl⟩
    · rw [hw.closed hopen]
      exact ⟨rfl, hopen⟩

end CloudProfiler
