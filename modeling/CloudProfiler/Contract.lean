import CloudProfiler.Buffer.Deliver
import CloudProfiler.Closed
import CloudProfiler.FastCounter.Total
import CloudProfiler.Handler.Contract

/-!
# CloudProfiler.Contract

What `parameterizeChannel` owes its caller, for FASTPERIODICCOUNTER, for the
buffered handler types, and for all handler types together.

The parameter handler of FASTPERIODICCOUNTER waits for a job, so what the
call comes to is said of the state in which it returns.

* `Fpc.CallStep` — what a step does to a call under way;
* `Fpc.Moving`, `Fpc.Shutting` — a channel is given a period, or closed;
* `Fpc.contract_iff` — the contract of FASTPERIODICCOUNTER;
* `buffered_contract_iff` — the contract of the buffered handler types;
* `parameterize_contract` — all handler types.
-/

namespace CloudProfiler

namespace Fpc

/-! ## a call under way -/

/-- `k` is open, registered and has its period as `cl`. -/
structure Same (cl k : FPCClosure) : Prop where
  isOpen : k.base.isOpen = cl.base.isOpen
  periodicIncNs : k.periodicIncNs = cl.periodicIncNs
  isRefCounted : k.isRefCounted = cl.isRefCounted

/-- What a step does to the call of thread `t`: the thread takes it, or the
step is aside of the call, or it completes its job, or it sets the period of
its channel. -/
inductive CallStep (s : Fpc) (t : Nat) : Act → Fpc → Prop
  | own (s' : Fpc) : CallStep s t (.api t) s'
  | aside (l : Act) (s' : Fpc) (hcl : Same (s.cl (s.thread t).ch) (s'.cl (s.thread t).ch))
      (hthr : s'.thread t = s.thread t) : CallStep s t l s'
  | signal (l : Act) (s' : Fpc) (hcl : Same (s.cl (s.thread t).ch) (s'.cl (s.thread t).ch))
      (hthr : s'.thread t = { s.thread t with
        job := { (s.thread t).job with signals := (s.thread t).job.signals + 1 } })
      (hmove : (s.thread t).job.type = .moveChannel →
        (s.cl (s.thread t).ch).isRefCounted = false) : CallStep s t l s'
  | moved (l : Act) (s' : Fpc) (hsent : (s.thread t).pc.sent = true)
      (htype : (s.thread t).job.type = .moveChannel)
      (hcl : Same { s.cl (s.thread t).ch with periodicIncNs := (s.thread t).job.curPeriodicIncNs }
        (s'.cl (s.thread t).ch))
      (hthr : s'.thread t = { s.thread t with job := { (s.thread t).job with
        type := .insertChannel, curPeriodicIncNs := -1 } }) : CallStep s t l s'

section CallStep

variable {s s' : Fpc} {r : Reg} {l : Act} {t c c' : Nat} {k : FPCClosure}

theorem same_refl (cl : FPCClosure) : Same cl cl := ⟨rfl, rfl, rfl⟩

theorem same_of_books {cl : FPCClosure} (hb : cl.Books k) (hw : cl.base.Written k.base) :
    Same cl k :=
  ⟨hw.isOpen, hb.periodicIncNs, hb.isRefCounted⟩

/-- A closure is replaced by the same. -/
theorem same_setCl (hk : Same (s.cl c') k) : Same (s.cl c) ((s.setCl c' k).cl c) := by
  by_cases hc : c = c'
  · subst hc
    simpa using hk
  · simpa [hc] using same_refl _

/-- Another closure is replaced. -/
theorem same_setCl_of_ne (hc : c' ≠ c) : Same (s.cl c) ((s.setCl c' k).cl c) := by
  simpa [hc.symm] using same_refl _

/-- **What a step does to a call under way**, when calls do not overlap. -/
theorem Sound.callStep (h : Sound s r) (hok : OneCall s l) (hs : Move s l s')
    (hbusy : (s.thread t).pc ≠ .idle) : CallStep s t l s' := by
  have hne : ∀ {t'}, (s.thread t').pc = .idle → t' ≠ t := by
    rintro t' hidle rfl
    exact hbusy hidle
  have hch : ∀ {t'}, t' ≠ t → (s.thread t').pc ≠ .idle → (s.thread t').ch ≠ (s.thread t).ch :=
    fun ht hb he => ht (h.owned.uniq _ _ hb hbusy he)
  have hmade := h.fits.settled.made t hbusy
  cases hs with
  | call hs =>
      cases hs with
      | openChannel t' c' ok hidle hmade' =>
          have hc : c' ≠ (s.thread t).ch := by
            rintro rfl
            rw [hmade] at hmade'
            cases hmade'
          exact .aside _ _ (same_setCl_of_ne hc) (by simp [(hne hidle).symm])
      | param t' c' a p hidle => exact .aside _ _ (same_refl _) (by simp [(hne hidle).symm])
      | refuse => exact .aside _ _ (same_refl _) rfl
      | close t' c' l hl hidle | closeAgain t' c' l hl hidle =>
          exact .aside _ _ (same_refl _) (by simp [(hne hidle).symm])
  | api hs =>
      cases hs with
      | openFailed t' | submit t' | routeFound t' | routeNew t' | routeLost t' | insertMap t'
      | deleted t' | countOut t' =>
          by_cases ht : t' = t
          · subst ht
            exact .own _
          · exact .aside _ _ (same_refl _) (by simp [Ne.symm ht])
      | opened t' hpc | returned t' hpc | clear t' hpc | closing t' hpc =>
          by_cases ht : t' = t
          · subst ht
            exact .own _
          · exact .aside _ _ (same_setCl_of_ne (hch ht (by simp [hpc]))) (by simp [Ne.symm ht])
  | handler c' => exact .aside _ _ (same_setCl ⟨rfl, rfl, rfl⟩) rfl
  | loop hs =>
      cases hs with
      | goto | job | keep | removed =>
          exact .aside _ _ (same_refl _) rfl
      | sample d now seen c' rest => exact .aside _ _ (same_setCl ⟨rfl, rfl, rfl⟩) rfl
      | account d now c' rest =>
          exact .aside _ _ (same_setCl (same_of_books (s.cl c').books_account
            (s.cl c').written_account)) rfl
  | take hs =>
      cases hs with
      | takeInsert d now left j =>
          have hb := (s.cl (s.thread j).ch).books_logHeader
          exact .aside _ _ (same_setCl ⟨(s.cl (s.thread j).ch).written_logHeader.isOpen,
            hb.periodicIncNs, hb.isRefCounted⟩) rfl
      | takeMove | takeDelete => exact .aside _ _ (same_setCl ⟨rfl, rfl, rfl⟩) rfl
      | takeMissing d now left j hd hpc htype hc =>
          by_cases ht : j = t
          · subst ht
            refine .signal _ _ (same_refl _) (by simp [signalCompletion]) fun hmove => ?_
            -- the job is at the sampling thread that has the channel, if it is open
            by_contra href
            have hloc := (h.fits.jobs.hand d hd j).mp (by rw [hpc]; rfl)
            have hown := h.owned.here j d (.inr hloc)
              (.inr ⟨hmove, by simpa using href, by simp [hpc, SamplerPc.books]⟩)
            exact hc ((h.fits.settled.closures d hd _).mpr hown)
          · exact .aside _ _ (same_refl _) (by simp [signalCompletion, Ne.symm ht])
  | book hs =>
      cases hs with
      | bookInsert d now left j ev hd hpc htype =>
          have hcl := same_setCl (s := s) (c := (s.thread t).ch) (same_of_books
            ((s.cl (s.thread j).ch).books_bookInsert now ev)
            ((s.cl (s.thread j).ch).written_bookInsert now ev))
          by_cases ht : j = t
          · subst ht
            exact .signal _ _ hcl (by simp [signalCompletion]) fun hmove => by simp [htype] at hmove
          · exact .aside _ _ hcl (by simp [signalCompletion, Ne.symm ht])
      | bookMove d now left j ev hd hpc htype =>
          by_cases ht : j = t
          · subst ht
            have hsent := (h.fits.jobs.held_sent (t := j) hd (by rw [hpc]; rfl)).1
            have hcl := same_of_books ((s.cl (s.thread j).ch).books_bookMove now ev
              (s.thread j).job.curPeriodicIncNs) ((s.cl (s.thread j).ch).written_bookMove now ev _)
            exact .moved _ _ hsent htype (by simpa using hcl) (by simp)
          · have hb := h.fits.jobs.held_busy (t := j) hd (by rw [hpc]; rfl)
            exact .aside _ _ (same_setCl_of_ne (hch ht hb)) (by simp [Ne.symm ht])
      | bookDelete d now left j ev hd hpc htype | bookDeleteMissing d now left j ev hd hpc htype =>
          have hcl := same_setCl (s := s) (c := (s.thread t).ch) (same_of_books
            ((s.cl (s.thread j).ch).books_bookDelete now ev)
            ((s.cl (s.thread j).ch).written_bookDelete now ev))
          by_cases ht : j = t
          · subst ht
            exact .signal _ _ hcl (by simp [signalCompletion]) fun hmove => by simp [htype] at hmove
          · exact .aside _ _ hcl (by simp [signalCompletion, Ne.symm ht])
  | pass hs =>
      cases hs with
      | passOn | passFound | passSelf | passNew | passMap =>
          exact .aside _ _ (same_refl _) rfl

end CallStep

/-! ## what a call comes to -/

/-- Thread `t` waits until open channel `c` has period `p`: its job carries
the period, or the channel has it already. -/
structure Moving (s : Fpc) (t c : Nat) (p : UInt64) : Prop where
  ch : (s.thread t).ch = c
  working : (s.thread t).pc.working = true
  isRefCounted : (s.cl c).isRefCounted = true
  isOpen : (s.cl c).base.isOpen = true
  period : (s.thread t).job = ⟨.moveChannel, p, 0⟩ ∨
    (s.thread t).job.type = .insertChannel ∧ (s.cl c).periodicIncNs = p

/-- The thread counts its channel out, shuts it down, or has done so. -/
def Ends (a : ApiThread) : Prop := a.pc.counts = true ∨ Shuts a

/-- Thread `t` shuts channel `c` down, which has period `p`. -/
structure Shutting (s : Fpc) (t c : Nat) (p : UInt64) : Prop where
  ch : (s.thread t).ch = c
  ends : Ends (s.thread t)
  period : (s.cl c).periodicIncNs = p

/-- Thread `t` has returned, and channel `c` has period `p` and is open or
not. -/
structure Returned (s : Fpc) (t c : Nat) (p : UInt64) (isOpen : Bool) : Prop where
  idle : (s.thread t).pc = .idle
  period : (s.cl c).periodicIncNs = p
  isOpen : (s.cl c).base.isOpen = isOpen

section Call

variable {s s' : Fpc} {r : Reg} {l : Act} {t c : Nat} {p : UInt64}

theorem Ends.busy {a : ApiThread} (h : Ends a) : a.pc ≠ .idle := by
  obtain hcounts | ⟨hw, -⟩ | hpc := h
  · exact ApiPc.busy_of_counts hcounts
  · exact ApiPc.busy_of_working hw
  · simp [hpc]

/-- **Step lemma**: the channel is on its way to the period until the call
returns, and then has it. -/
theorem Moving.step (h : Moving s t c p) (hr : Sound s r) (hok : OneCall s l) (hs : Move s l s') :
    Moving s' t c p ∨ Returned s' t c p true := by
  obtain ⟨rfl, hw, href, hopen, hper⟩ := h
  have htype : (s.thread t).job.type ≠ .deleteChannel := by
    obtain hjob | ⟨hins, -⟩ := hper
    · simp [hjob]
    · simp [hins]
  cases hr.callStep hok hs (ApiPc.busy_of_working hw) with
  | aside _ _ hcl hthr =>
      exact .inl ⟨by rw [hthr], by rw [hthr]; exact hw, by rw [hcl.isRefCounted]; exact href,
        by rw [hcl.isOpen]; exact hopen, by rw [hthr, hcl.periodicIncNs]; exact hper⟩
  | signal _ _ hcl hthr hmove =>
      refine .inl ⟨by rw [hthr], by rw [hthr]; exact hw, by rw [hcl.isRefCounted]; exact href,
        by rw [hcl.isOpen]; exact hopen, ?_⟩
      obtain hjob | hins := hper
      · rw [hmove (by rw [hjob])] at href
        cases href
      · rw [hthr, hcl.periodicIncNs]
        exact .inr hins
  | moved _ _ hsent hmove hcl hthr =>
      refine .inl ⟨by rw [hthr], by rw [hthr]; exact hw, by rw [hcl.isRefCounted]; exact href,
        by rw [hcl.isOpen]; exact hopen, ?_⟩
      obtain hjob | ⟨hins, -⟩ := hper
      · rw [hthr, hcl.periodicIncNs, hjob]
        exact .inr ⟨rfl, rfl⟩
      · rw [hmove] at hins
        cases hins
  | own =>
      cases hs with
      | call hs =>
          cases hs with
          | close _ _ _ hl => cases hl
          | closeAgain _ _ _ hl => cases hl
      | api hs =>
          cases hs with
          | openFailed _ hpc | opened _ hpc | countOut _ hpc | clear _ hpc | closing _ hpc =>
              simp [hpc, ApiPc.working] at hw
          | routeLost _ p' hpc hmtx hd hdel => exact absurd hdel htype
          | deleted _ hpc hsig hdel => exact absurd hdel htype
          | submit _ hpc | routeFound _ p' d hpc | routeNew _ p' hpc | insertMap _ p' d hpc =>
              exact .inl ⟨by simp, by simp [ApiPc.working], href, hopen, by simpa using hper⟩
          | returned _ hpc hsig =>
              obtain hjob | ⟨-, hp⟩ := hper
              · exact absurd (by rw [hjob]) hsig
              · exact .inr ⟨by simp, by simpa using hp, by simpa using hopen⟩
      | loop hs => cases hs
      | take hs => cases hs
      | book hs => cases hs
      | pass hs => cases hs

/-- **Step lemma**: the channel keeps its period until the call returns, and
then is closed. -/
theorem Shutting.step (h : Shutting s t c p) (hr : Sound s r) (hok : OneCall s l)
    (hs : Move s l s') : Shutting s' t c p ∨ Returned s' t c p false := by
  obtain ⟨rfl, hends, hper⟩ := h
  cases hr.callStep hok hs hends.busy with
  | aside _ _ hcl hthr =>
      exact .inl ⟨by rw [hthr], by rw [hthr]; exact hends, by rw [hcl.periodicIncNs]; exact hper⟩
  | signal _ _ hcl hthr =>
      exact .inl ⟨by rw [hthr], by rw [hthr]; exact hends, by rw [hcl.periodicIncNs]; exact hper⟩
  | moved _ _ hsent hmove =>
      obtain hcounts | ⟨-, hdel⟩ | hpc := hends
      · exact absurd hsent (by cases hpc : (s.thread t).pc <;> simp_all [ApiPc.counts, ApiPc.sent])
      · rw [hmove] at hdel
        cases hdel
      · simp [hpc, ApiPc.sent] at hsent
  | own =>
      cases hs with
      | call hs =>
          cases hs with
          | close _ _ _ hl => cases hl
          | closeAgain _ _ _ hl => cases hl
      | api hs =>
          cases hs with
          | openFailed _ hpc | opened _ hpc =>
              simp [Ends, Shuts, hpc, ApiPc.working, ApiPc.counts] at hends
          | routeNew _ p' hpc hmtx hd hdel | returned _ hpc hsig hdel =>
              simp [Ends, Shuts, hpc, hdel, ApiPc.counts] at hends
          | submit _ hpc | routeFound _ p' d hpc | routeLost _ p' hpc | insertMap _ p' d hpc =>
              have hdel : (s.thread t).job.type = .deleteChannel := by
                simpa [Ends, Shuts, hpc, ApiPc.working, ApiPc.counts] using hends
              exact .inl ⟨by simp, .inr (.inl ⟨by simp [ApiPc.working], by simpa using hdel⟩),
                by simpa using hper⟩
          | countOut _ hpc =>
              exact .inl ⟨by simp, .inl (by simp [ApiPc.counts]), by simpa using hper⟩
          | clear _ hpc =>
              exact .inl ⟨by simp, .inr (.inl ⟨by simp [ApiPc.working], by simp⟩),
                by simpa using hper⟩
          | deleted _ hpc => exact .inl ⟨by simp, .inr (.inr (by simp)), by simpa using hper⟩
          | closing _ hpc => exact .inr ⟨by simp, by simpa using hper, by simp [Base.closeChannel]⟩
      | loop hs => cases hs
      | take hs => cases hs
      | book hs => cases hs
      | pass hs => cases hs

end Call

/-! ## open channels -/

/-- A channel whose file is open is registered with a sampling thread, or
some call ends it. -/
def Attached (s : Fpc) : Prop :=
  ∀ c, (s.cl c).base.isOpen = true → (s.cl c).isRefCounted = true ∨
    ∃ t, (s.thread t).ch = c ∧ Ends (s.thread t)

section Attached

variable {s s' : Fpc} {r : Reg} {l : Act} {t c : Nat}

/-- After a step, an open channel is registered, or was open before and, if
it was registered, has begun to be shut down. -/
theorem Move.attached (hs : Move s l s') (hopen : (s'.cl c).base.isOpen = true) :
    (s'.cl c).isRefCounted = true ∨ (s.cl c).base.isOpen = true ∧
      ((s.cl c).isRefCounted = true → ∃ t, (s'.thread t).ch = c ∧ Ends (s'.thread t)) := by
  have hquiet : (s'.cl c).base.isOpen = (s.cl c).base.isOpen →
      (s'.cl c).isRefCounted = (s.cl c).isRefCounted → (s'.cl c).isRefCounted = true ∨
      (s.cl c).base.isOpen = true ∧
        ((s.cl c).isRefCounted = true → ∃ t, (s'.thread t).ch = c ∧ Ends (s'.thread t)) := by
    intro ho href
    by_cases hc : (s.cl c).isRefCounted = true
    · exact .inl (href.trans hc)
    · exact .inr ⟨ho ▸ hopen, fun h => absurd h hc⟩
  have hsame : Same (s.cl c) (s'.cl c) → _ := fun h => hquiet h.isOpen h.isRefCounted
  cases hs with
  | call hs =>
      cases hs with
      | openChannel t c' ok =>
          by_cases hc : c' = c
          · subst hc
            simp [FPCClosure.init] at hopen
          · exact hsame (same_setCl_of_ne hc)
      | _ => exact hsame (same_refl _)
  | api hs =>
      cases hs with
      | opened t hpc =>
          by_cases hc : (s.thread t).ch = c
          · subst hc
            exact .inl (by simp)
          · exact hsame (same_setCl_of_ne hc)
      | returned t hpc => exact hsame (same_setCl ⟨rfl, rfl, rfl⟩)
      | clear t hpc =>
          by_cases hc : (s.thread t).ch = c
          · subst hc
            exact .inr ⟨by simpa using hopen, fun _ =>
              ⟨t, by simp, .inr (.inl ⟨by simp [ApiPc.working], by simp⟩)⟩⟩
          · exact hsame (same_setCl_of_ne hc)
      | closing t hpc =>
          by_cases hc : (s.thread t).ch = c
          · subst hc
            simp [Base.closeChannel] at hopen
          · exact hsame (same_setCl_of_ne hc)
      | _ => exact hsame (same_refl _)
  | handler c' => exact hsame (same_setCl ⟨rfl, rfl, rfl⟩)
  | loop hs =>
      cases hs with
      | sample d now seen c' rest => exact hsame (same_setCl ⟨rfl, rfl, rfl⟩)
      | account d now c' rest =>
          exact hsame (same_setCl (same_of_books (s.cl c').books_account (s.cl c').written_account))
      | _ => exact hsame (same_refl _)
  | take hs =>
      cases hs with
      | takeInsert d now left j =>
          have hb := (s.cl (s.thread j).ch).books_logHeader
          exact hsame (same_setCl ⟨(s.cl (s.thread j).ch).written_logHeader.isOpen,
            hb.periodicIncNs, hb.isRefCounted⟩)
      | takeMove | takeDelete => exact hsame (same_setCl ⟨rfl, rfl, rfl⟩)
      | _ => exact hsame (same_refl _)
  | book hs =>
      cases hs with
      | bookInsert d now left j ev =>
          exact hsame (same_setCl (same_of_books ((s.cl (s.thread j).ch).books_bookInsert now ev)
            ((s.cl (s.thread j).ch).written_bookInsert now ev)))
      | bookDelete d now left j ev | bookDeleteMissing d now left j ev =>
          exact hsame (same_setCl (same_of_books ((s.cl (s.thread j).ch).books_bookDelete now ev)
            ((s.cl (s.thread j).ch).written_bookDelete now ev)))
      | bookMove d now left j ev =>
          have hb := (s.cl (s.thread j).ch).books_bookMove now ev (s.thread j).job.curPeriodicIncNs
          have hw := (s.cl (s.thread j).ch).written_bookMove now ev (s.thread j).job.curPeriodicIncNs
          by_cases hc : (s.thread j).ch = c
          · subst hc
            exact hquiet (by simpa using hw.isOpen) (by simpa using hb.isRefCounted)
          · exact hsame (same_setCl_of_ne hc)
  | pass hs => cases hs <;> exact hsame (same_refl _)

theorem Attached.step (h : Attached s) (hr : Sound s r) (hok : OneCall s l) (hs : Move s l s') :
    Attached s' := by
  intro c hopen'
  obtain href | ⟨hopen, hbegun⟩ := hs.attached hopen'
  · exact .inl href
  · obtain href | ⟨t, hch, hends⟩ := h c hopen
    · exact .inr (hbegun href)
    · obtain hends' | hret := Shutting.step ⟨hch, hends, rfl⟩ hr hok hs
      · exact .inr ⟨t, hends'.ch, hends'.ends⟩
      · rw [hret.isOpen] at hopen'
        cases hopen'

theorem reach_attached (h : Reach Fpc.step Fpc.init OneCall s) :
    ∃ r, Sound s r ∧ Attached s := by
  refine h.invariant (I := fun s => ∃ r, Sound s r ∧ Attached s)
    ⟨_, sound_init, fun c hopen => by cases hopen⟩ ?_
  rintro s l s' ⟨r, hr, ha⟩ hok hs
  exact ⟨_, hr.step hok hs, ha.step hr hok (step_move hs)⟩

end Attached

/-! ## the contract -/

/-- What `setArgFastPeriodicCounterHandler` returns. -/
def ret : FPCRequest → Int
  | .refuse _ => -1
  | .move _ => 0

/-- Argument 0 is the period, at least 1 ns. -/
def Documented (a : Arg) : Prop := a.number = 0 ∧ 1 ≤ a.value

/-- Calls on one channel do not overlap, and the call of thread `t` has not
returned. -/
def Until (t : Nat) (s : Fpc) (l : Act) : Prop := OneCall s l ∧ (s.thread t).pc ≠ .idle

/-- The call of `parameterizeChannel` by thread `t` can come to its end and
returns what the documentation says; and whatever the threads do meanwhile,
it leaves the channel as the documentation says. -/
def MeetsContract (s : Fpc) (t c : Nat) (a : Arg) : Prop :=
  ∃ s₁, s.step (.parameterizeChannel t c a) = some s₁ ∧ s₁.Returns t ∧
    (ret (fpcRequest a) = -1 ↔ ¬ Documented a) ∧
    ∀ s₂, Reach Fpc.step s₁ (Until t) s₂ → (s₂.thread t).pc = .idle →
      (ret (fpcRequest a) = -1 → (s₂.cl c).base.isOpen = false ∧
        (s₂.cl c).periodicIncNs = (s.cl c).periodicIncNs) ∧
      (ret (fpcRequest a) ≠ -1 → ret (fpcRequest a) = 0 ∧ (s₂.cl c).base.isOpen = true ∧
        (s₂.cl c).periodicIncNs = a.value.toUInt64)

section Contract

variable {s s₁ s₂ : Fpc} {r : Reg} {t c : Nat} {p : UInt64} {a : Arg}

/-- **Run lemma**: when the call returns, the channel has the period. -/
theorem Moving.run (h : Moving s t c p) (hr : Sound s r) (hrun : Reach Fpc.step s (Until t) s₂)
    (hidle : (s₂.thread t).pc = .idle) : Returned s₂ t c p true := by
  have hend : ∃ r, Sound s₂ r ∧ (Moving s₂ t c p ∨ Returned s₂ t c p true) := by
    refine hrun.invariant (I := fun s => ∃ r, Sound s r ∧ (Moving s t c p ∨ Returned s t c p true))
      ⟨r, hr, .inl h⟩ ?_
    rintro s l s' ⟨r, hr, hm⟩ hok hs
    have hmoving := hm.resolve_right fun hret => hok.2 hret.idle
    exact ⟨_, hr.step hok.1 hs, hmoving.step hr hok.1 (step_move hs)⟩
  obtain ⟨-, -, hm⟩ := hend
  exact hm.resolve_left fun hm => ApiPc.busy_of_working hm.working hidle

/-- **Run lemma**: when the call returns, the channel is closed. -/
theorem Shutting.run (h : Shutting s t c p) (hr : Sound s r)
    (hrun : Reach Fpc.step s (Until t) s₂) (hidle : (s₂.thread t).pc = .idle) :
    Returned s₂ t c p false := by
  have hend : ∃ r, Sound s₂ r ∧ (Shutting s₂ t c p ∨ Returned s₂ t c p false) := by
    refine hrun.invariant
      (I := fun s => ∃ r, Sound s r ∧ (Shutting s t c p ∨ Returned s t c p false)) ⟨r, hr, .inl h⟩ ?_
    rintro s l s' ⟨r, hr, hm⟩ hok hs
    have hshutting := hm.resolve_right fun hret => hok.2 hret.idle
    exact ⟨_, hr.step hok.1 hs, hshutting.step hr hok.1 (step_move hs)⟩
  obtain ⟨-, -, hm⟩ := hend
  exact hm.resolve_left fun hm => hm.ends.busy hidle

/-- A single argument. -/
theorem fpcRequest_of_ne (hone : a.number ≠ -1) : fpcRequest a =
    if a.number ≠ 0 ∨ a.value < 0 then .refuse true else .move a.value.toUInt64 := by
  by_cases hn : a.number = 0 <;> simp [fpcRequest, hone, hn]

theorem fpcRequest_one (ha : 0 ≤ a.number) : fpcRequest a =
    if a.number ≠ 0 ∨ a.value < 0 then .refuse true else .move a.value.toUInt64 := by
  refine fpcRequest_of_ne fun h => ?_
  rw [h] at ha
  exact absurd ha (by decide)

/-- A call that starts to shut its channel down. -/
theorem startClose_shutting : Shutting (s.startClose t c) t c (s.cl c).periodicIncNs := by
  unfold startClose
  split
  · exact ⟨by simp, .inl (by simp [ApiPc.counts]), by simp⟩
  · exact ⟨by simp, .inr (.inr (by simp)), by simp⟩

/-- **FASTPERIODICCOUNTER** accepts a period of zero, and meets its contract
otherwise. -/
theorem contract_iff (h : Reach Fpc.step init OneCall s) (hidle : (s.thread t).pc = .idle)
    (hhandle : (s.cl c).handle = true) (hopen : (s.cl c).base.isOpen = true)
    (hone : OneCall s (.parameterizeChannel t c a)) (ha : 0 ≤ a.number) :
    MeetsContract s t c a ↔ a.number ≠ 0 ∨ a.value ≠ 0 := by
  obtain ⟨r, hr, hatt⟩ := reach_attached h
  by_cases hno : a.number ≠ 0 ∨ a.value < 0
  · have hreq : fpcRequest a = .refuse true := by rw [fpcRequest_one ha, if_pos hno]
    have hs : s.step (.parameterizeChannel t c a) = some (s.startClose t c) := by
      simp [Fpc.step, parameterizeChannel, isIdle, hidle, hhandle, hreq]
    have hr₁ := hr.step hone hs
    have hdoc : ¬ Documented a := fun hdoc =>
      hno.elim (fun hn => hn hdoc.1) (one_le_iff.mp hdoc.2).1
    refine iff_of_true ⟨_, hs, hr₁.returns t, ?_, fun s₂ hrun hend => ?_⟩ ?_
    · simp [hreq, ret, hdoc]
    · have hret := startClose_shutting.run hr₁ hrun hend
      exact ⟨fun _ => ⟨hret.isOpen, hret.period⟩, fun hne => absurd (by rw [hreq]; rfl) hne⟩
    · refine hno.imp_right fun hneg hzero => ?_
      rw [hzero] at hneg
      exact absurd hneg (by decide)
  · have hreq : fpcRequest a = .move a.value.toUInt64 := by rw [fpcRequest_one ha, if_neg hno]
    obtain ⟨hn, hge⟩ := not_or.mp hno
    have hs : s.step (.parameterizeChannel t c a) =
        some (s.setThread t ⟨.submit, c, ⟨.moveChannel, a.value.toUInt64, 0⟩⟩) := by
      simp [Fpc.step, parameterizeChannel, isIdle, hidle, hhandle, hreq]
    have hr₁ := hr.step hone hs
    have href : (s.cl c).isRefCounted = true := by
      refine (hatt c hopen).resolve_right ?_
      rintro ⟨t', hch, hends⟩
      exact hone t' hends.busy hch
    have hmoving : Moving (s.setThread t ⟨.submit, c, ⟨.moveChannel, a.value.toUInt64, 0⟩⟩) t c
        a.value.toUInt64 :=
      ⟨by simp, by simp [ApiPc.working], href, hopen, .inl (by simp)⟩
    have hret : ret (fpcRequest a) = 0 := by rw [hreq]; rfl
    have hn0 : a.number = 0 := Classical.not_not.mp hn
    constructor
    · rintro ⟨s₁, -, -, hiff, -⟩
      have hdoc : Documented a := by
        by_contra hdoc
        rw [hret] at hiff
        exact absurd (hiff.mpr hdoc) (by decide)
      exact .inr (one_le_iff.mp hdoc.2).2
    · intro hv
      have hdoc : Documented a := ⟨hn0, one_le_iff.mpr ⟨hge, hv.resolve_left hn⟩⟩
      rw [MeetsContract, hret]
      refine ⟨_, hs, hr₁.returns t, ?_, fun s₂ hrun hend => ?_⟩
      · exact ⟨fun h0 => absurd h0 (by decide), fun hnot => absurd hdoc hnot⟩
      · have hmoved := hmoving.run hr₁ hrun hend
        exact ⟨fun h0 => absurd h0 (by decide), fun _ => ⟨rfl, hmoved.isOpen, hmoved.period⟩⟩

end Contract

end Fpc

/-! ## the buffered handler types -/

/-- A channel that was closed with `BufferIdentityHandler` is being closed. -/
def Closure.shutIfNull (ch : Closure) : Prop :=
  ch.handlerF = .nullHandler → ch.format.isTsc = false → ch.close ≠ .none

/-- No call of `closeChannel` is under way. -/
def Closure.closeOver (ch : Closure) : Prop := ch.close = .none ∨ ch.close = .done

section Buffered

variable {sq : Squash} {s s₁ s₂ : State} {c : Nat}

theorem Closure.shutIfNull.step {P : Prop} {ch ch' : Closure} (h : ch.shutIfNull) (hok : ch.Ok)
    (hs : ChanStep P ch ch') : ch'.shutIfNull := by
  have hhandler := hok.handler
  cases hs <;> simp only [Closure.shutIfNull, Closure.setBlock, Closure.new] at * <;>
    grind [handlerOf, handlerOf_eq_buffer]

theorem Reached.shutIfNull {ok : State → Label → Prop} (hr : Reached sq ok s) (c : Nat) :
    (s.chan c).shutIfNull := by
  have h := hr.chan_invariant (I := fun ch => ch.Ok ∧ ch.shutIfNull) (P := fun _ => True) (c := c)
    ⟨Closure.ok_new, by simp [Closure.shutIfNull, Closure.new, handlerOf]⟩
    (fun _ _ _ _ => trivial) fun _ _ h hs => ⟨h.1.step hs, h.2.step h.1 hs⟩
  exact h.2

/-- An uncompressed channel has its writer, and the number of a compressed
channel is one the I/O thread has room for. -/
def Closure.Fits (c : Nat) (ch : Closure) : Prop :=
  (ch.compress = true → c < nextBlockSize) ∧
    (ch.compress = false → ch.format.isTsc = false → ch.format = .ascii ∨ ch.format = .binary)

/-- When nothing of a closed channel is on its way, its file is closed. -/
theorem Reached.isOpen_of_closeSent (hsq : sq.Total) (hr : Reached sq (Unclogged c) s)
    (hready : (s.chan c).opn = .ready) (htsc : (s.chan c).format.isTsc = false)
    (hfits : (s.chan c).Fits c) (hsent : (s.chan c).closeSent) (hq : Quiet s c) :
    (s.sink.chLogf c).isOpen = false := by
  cases hz : (s.chan c).compress with
  | true =>
      obtain ⟨f₀, r, h⟩ := hr.pipeline hsq (hfits.1 hz) (fun _ _ h => h.1) (fun _ _ h => h.2)
        (.inr hz)
      exact (h.isOpen_iff hready (hr.alone_tidy fun _ _ h => h.1).2 hq).mpr hsent
  | false =>
      have hw : ∃ w, (s.chan c).writeHandlerF = some w := by
        rw [(hr.chanOk c).writer]
        obtain h | h := hfits.2 hz htsc <;> rw [h] <;> exact ⟨_, rfl⟩
      obtain ⟨w, hw⟩ := hw
      obtain ⟨out, wr, h⟩ := hr.stream (fun _ _ h => h.1) hready hz htsc hw
      exact (h.isOpen_iff hq).mpr hsent

/-- A channel that is open stays what it is. -/
theorem ChanStep.ready {P : Prop} {ch ch' : Closure} (h : ChanStep P ch ch')
    (hready : ch.opn = .ready) : ch'.opn = .ready := by
  cases h <;> simp_all [OpenPc.opening]

/-- What is known of a channel of format `f` after `closeChannel`. -/
structure Closing (sq : Squash) (s : State) (c : Nat) (f : LogFormat) (compress : Bool) : Prop where
  reached : Reached sq (Unclogged c) s
  ready : (s.chan c).opn = .ready
  null : (s.chan c).handlerF = .nullHandler
  format : (s.chan c).format = f
  compress : (s.chan c).compress = compress

theorem Closing.step {f : LogFormat} {z : Bool} {l : Label} (h : Closing sq s c f z)
    (hok : Unclogged c s l) (hs : step sq s l = some s₁) : Closing sq s₁ c f z := by
  have hm := (step_move hs).2
  have hch := hm.chan h.reached.wf c
  have hkind := hch.same_kind (by rw [h.ready]; decide)
  exact ⟨h.reached.step hok hs, hch.ready h.ready,
    (hm.null_iff h.reached.wf (h.reached.chanOk c)).mpr (.inl h.null),
    hkind.1.trans h.format, hkind.2.1.trans h.compress⟩

theorem closing_closeChannel (hr : Reached sq (Unclogged c) s) (hready : (s.chan c).opn = .ready)
    (hok : Unclogged c s (.closeChannel c)) (hs : step sq s (.closeChannel c) = some s₁) :
    Closing sq s₁ c (s.chan c).format (s.chan c).compress := by
  have hm := (step_move hs).2
  have hch := hm.chan hr.wf c
  have hkind := hch.same_kind (by rw [hready]; decide)
  exact ⟨hr.step hok hs, hch.ready hready, (hm.null_iff hr.wf (hr.chanOk c)).mpr (.inr rfl),
    hkind.1, hkind.2.1⟩

/-- Events are not taken any more, and the file is closed, or its closing
block is on the way to the I/O thread, which closes it. -/
def ClosedOrClosing (s : State) (c : Nat) : Prop :=
  (s.chan c).handlerF = .nullHandler ∧
    ((s.sink.chLogf c).isOpen = false ∨ (s.chan c).closeSent ∧ ¬ Quiet s c)

/-- The contract of the buffered handler types, which have no arguments: the
call closes the channel and returns `-1`. -/
def BufferedContract (sq : Squash) (s : State) (c : Nat) : Prop :=
  ∀ s₁ s₂, step sq s (.closeChannel c) = some s₁ → Reach (step sq) s₁ (Unclogged c) s₂ →
    (s₂.chan c).closeOver → ClosedOrClosing s₂ c

theorem step_closeChannel (hlive : s.fault = false ∧ s.exited = false)
    (hready : (s.chan c).opn = .ready) :
    step sq s (.closeChannel c) = some (callClose s c) := by
  simp [step, hlive, hready]

/-- `closeChannel` does nothing about the file of a TSC format. -/
theorem tsc_stays_open (hr : Reached sq (Unclogged c) s) (hready : (s.chan c).opn = .ready)
    (hopen : (s.sink.chLogf c).isOpen = true) (hok : Unclogged c s (.closeChannel c))
    (htsc : (s.chan c).format.isTsc ≠ false)
    (hs : step sq s (.closeChannel c) = some (callClose s c)) :
    ((callClose s c).chan c).close = .none ∧ ¬ ClosedOrClosing (callClose s c) c := by
  have hclosing := closing_closeChannel hr hready hok hs
  have hnone : ((callClose s c).chan c).close = .none := by
    by_contra hne
    have htsc' := ((hclosing.reached.chanOk c).closing hne).2
    rw [hclosing.format] at htsc'
    exact htsc htsc'
  refine ⟨hnone, fun hc => ?_⟩
  have hopen' : ((callClose s c).sink.chLogf c).isOpen = true := hopen
  obtain hc | ⟨hsent, -⟩ := hc.2
  · rw [hopen'] at hc
    cases hc
  · simp [Closure.closeSent, hnone] at hsent

/-- **The buffered handler types** do not close a channel of a TSC format. -/
theorem buffered_contract_iff (hsq : sq.Total) (hr : Reached sq (Unclogged c) s)
    (hlive : s.fault = false ∧ s.exited = false) (hready : (s.chan c).opn = .ready)
    (hopen : (s.sink.chLogf c).isOpen = true) (hfits : (s.chan c).Fits c)
    (hok : Unclogged c s (.closeChannel c)) :
    BufferedContract sq s c ↔ (s.chan c).format.isTsc = false := by
  constructor
  · intro h
    by_contra htsc
    have hs := @step_closeChannel sq _ _ hlive hready
    obtain ⟨hnone, hno⟩ := tsc_stays_open hr hready hopen hok htsc hs
    exact hno (h _ _ hs .init (.inl hnone))
  · intro htsc s₁ s₂ hs hrun hover
    have hclosing : Closing sq s₂ c (s.chan c).format (s.chan c).compress :=
      hrun.invariant (I := fun s₂ => Closing sq s₂ c (s.chan c).format (s.chan c).compress)
        (closing_closeChannel hr hready hok hs) fun _ _ _ h hok hs => h.step hok hs
    obtain ⟨hr₂, hready₂, hnull, hfmt, hz⟩ := hclosing
    have htsc₂ : (s₂.chan c).format.isTsc = false := by rw [hfmt, htsc]
    have hsent : (s₂.chan c).closeSent :=
      .inr (.inr (hover.resolve_left (hr₂.shutIfNull c hnull htsc₂)))
    have hfits₂ : (s₂.chan c).Fits c := by
      rw [Closure.Fits, hfmt, hz]
      exact hfits
    refine ⟨hnull, ?_⟩
    by_cases hq : Quiet s₂ c
    · exact .inl (hr₂.isOpen_of_closeSent hsq hready₂ htsc₂ hfits₂ hsent hq)
    · exact .inr ⟨hsent, hq⟩

end Buffered

/-! ## all handler types -/

/-- **Where `parameterizeChannel` does what it owes its caller**, for any open
channel and any single argument. -/
theorem parameterize_contract (env : Env) (a : Arg) (ha : 0 ≤ a.number) :
    (∀ cl, downsampleType.isOpen cl = true →
      (downsampleType.MeetsContract downsampleArgs env cl a ↔ a.number ≠ 0 ∨ 1 ≤ a.value)) ∧
    (∀ cl, periodicCounterType.isOpen cl = true →
      (PeriodicCounterContract env cl a ↔ (a.number ≠ 0 ∨ a.value ≠ 0) ∧
        (cl.periodicIncNs ≠ 0 ∨
          a.number = 0 ∧ 0 < a.value ∧ compareTS env.now cl.timeFlush = -1))) ∧
    (∀ s t c, Reach Fpc.step Fpc.init Fpc.OneCall s → (s.thread t).pc = .idle →
      (s.cl c).handle = true → (s.cl c).base.isOpen = true →
      Fpc.OneCall s (.parameterizeChannel t c a) →
      (Fpc.MeetsContract s t c a ↔ a.number ≠ 0 ∨ a.value ≠ 0)) ∧
    (∀ ch, medianType.isOpen ch = true →
      (medianType.MeetsContract medianArgs env ch a ↔ MedianFits env ch a)) ∧
    (∀ ch, identityType.MeetsContract noArgs env ch a) ∧
    (∀ cl, nullhType.MeetsContract noArgs env cl a) ∧
    (∀ cl, firstlastType.MeetsContract noArgs env cl a) ∧
    (∀ cl, foxStartType.MeetsContract noArgs env cl a) ∧
    ∀ (sq : Squash) s c, sq.Total → Reached sq (Unclogged c) s →
      s.fault = false ∧ s.exited = false → (s.chan c).opn = .ready →
      (s.sink.chLogf c).isOpen = true → (s.chan c).Fits c → Unclogged c s (.closeChannel c) →
      (BufferedContract sq s c ↔ (s.chan c).format.isTsc = false) :=
  ⟨fun _ hopen => downsample_contract_iff hopen ha,
    fun _ hopen => periodicCounter_contract_iff hopen,
    fun _ _ _ h hidle hhandle hopen hone => Fpc.contract_iff h hidle hhandle hopen hone ha,
    fun _ hopen => median_contract_iff hopen,
    fun ch => identity_contract env ch a,
    fun cl => nullh_contract env cl a,
    fun cl => firstlast_contract env cl a,
    fun cl => foxStart_contract env cl a,
    fun _ _ _ hsq hr hlive hready hopen hfits hok =>
      buffered_contract_iff hsq hr hlive hready hopen hfits hok⟩

/-- A FASTPERIODICCOUNTER channel is opened by thread 0. -/
def fpcOpenRun : List Fpc.Act :=
  [.openChannel 0 0 true] ++ List.replicate 4 (.api 0) ++
  List.replicate 7 (.sampler 0 .zero) ++ [.api 0]

/-- A factor and periods that are accepted and in effect. -/
theorem parameterize_contract_five :
    downsampleType.MeetsContract downsampleArgs (.atSec 5) initDownsampleHandler (.one 0 5) ∧
    PeriodicCounterContract (.atSec 5) (initPeriodicCounterHandler ⟨5, 0, 0, 0, 0⟩ .zero)
      (.one 0 5) ∧
    ∃ s, Reach Fpc.step Fpc.init Fpc.OneCall s ∧ s.Open 0 ∧ Fpc.MeetsContract s 0 0 (.one 0 5) := by
  have h := parameterize_contract (.atSec 5) (.one 0 5) (by decide)
  have hrun : ∃ s, Reach Fpc.step Fpc.init (Fpc.OneCallOf 1) s ∧
      decide ((s.thread 0).pc = .idle ∧ s.Open 0 ∧ (s.cl 0).base.isOpen = true) = true :=
    Reach.of_exec_any fpcOpenRun _ (by decide +kernel)
  obtain ⟨s, hr, hs⟩ := hrun
  obtain ⟨hidle, hopen, hfile⟩ := of_decide_eq_true hs
  have hall : ∀ t, (s.thread t).pc = .idle := by
    intro t
    by_cases ht : t = 0
    · rw [ht, hidle]
    · exact Fpc.reach_idle (fun _ _ hl => hl.1) hr (by omega)
  exact ⟨(h.1 _ rfl).mpr (by decide), (h.2.1 _ rfl).mpr (by decide),
    s, Fpc.reach_oneCall hr, hopen, (h.2.2.1 s 0 0 (Fpc.reach_oneCall hr) hidle hopen.1 hfile
      fun t hbusy => absurd (hall t) hbusy).mpr (by decide)⟩

/-- **A factor and a period of zero are accepted**, and the period traps
later. -/
theorem zero_accepted :
    downsampleType.isOpen initDownsampleHandler = true ∧
    ¬ downsampleType.MeetsContract downsampleArgs (.atSec 5) initDownsampleHandler (.one 0 0) ∧
    ∃ cl, periodicCounterType.parameterizeChannel (.atSec 5)
        (initPeriodicCounterHandler ⟨5, 0, 0, 0, 0⟩ .zero) (.one 0 0) = some (0, cl) ∧
      ¬ periodicCounterType.NeverTraps cl := by
  refine ⟨rfl, fun h => ?_, ?_⟩
  · exact absurd ((downsample_contract_iff rfl (by decide)).mp h) (by decide)
  · have hany : (setArgPeriodicCounterHandler ⟨5, 0, 0, 0, 0⟩
        (initPeriodicCounterHandler ⟨5, 0, 0, 0, 0⟩ .zero) (.one 0 0)).any
          (fun r => r.1 = 0 && r.2.periodicIncNs = 0) = true := by
      decide +kernel
    obtain ⟨⟨ret, cl⟩, hr, hzero⟩ := (Option.any_eq_true _ _).mp hany
    rw [Bool.and_eq_true, decide_eq_true_eq, decide_eq_true_eq] at hzero
    obtain ⟨rfl, hper⟩ := hzero
    exact ⟨cl, hr, periodicCounter_traps hper⟩

end CloudProfiler
