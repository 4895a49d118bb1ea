import CloudProfiler.FastCounter.Settle

/-!
# CloudProfiler.FastCounter.Submit

What becomes of the jobs that API calls submit to the sampling threads of the
fast periodic counter.

* `Kept` — a job is completed, once, or some sampling thread has it;
* `Found` — `closeChannel` finds a sampling thread for the period it has read;
* `jobs_kept` — as long as this is so, no submitted job is forgotten;
* `job_forgotten` — a job that is: `parameterizeChannel` is about to start
  the sampling thread of the new period when `closeChannel` looks for it.
-/

namespace CloudProfiler

/-- The period that a call is about to look up. -/
def ApiPc.period : ApiPc → Option UInt64
  | .route p => some p
  | _ => none

namespace Fpc

/-- The job of thread `t` is completed, once, or waits in the queue of a
running sampling thread, or is in the hands of one. -/
def Kept (s : Fpc) (t : Nat) : Prop :=
  (s.thread t).job.signals = 1 ∨ (s.thread t).job.signals = 0 ∧ ∃ d < s.nrDescr,
    t ∈ (s.descr d).jQueue ∧ (s.descr d).pc ≠ .done ∨ (s.descr d).pc.held = some t

instance (s : Fpc) (t : Nat) : Decidable (s.Kept t) :=
  inferInstanceAs (Decidable (_ ∨ _ ∧ ∃ d < s.nrDescr, _))

/-- When `dequeueJobFromThrDescriptor` looks up the period that `closeChannel`
has read, there is a sampling thread for it. -/
def Found (s : Fpc) (l : Act) : Prop :=
  ∀ t ∈ l.thread, (s.thread t).job.type = .deleteChannel → s.mtxThrMap = none →
    (s.thread t).pc.period.all fun p => (s.thrMap p).isSome

instance : DecidableRel Found := fun _ l =>
  inferInstanceAs (Decidable (∀ t ∈ l.thread, _ → _ → _ = true))

/-! ## jobs that were submitted are somewhere -/

/-- In the abstract view a submitted job is somewhere until it is
completed. -/
def Somewhere (s : Fpc) (r : Reg) : Prop :=
  ∀ t, (s.thread t).pc.sent = true → (s.thread t).job.signals = 0 → r.loc t ≠ .nowhere

section Step

variable {s s' : Fpc} {r r' : Reg} {l : Act} {t : Nat}

theorem Somewhere.congr (h : Somewhere s r) (ht : s'.thread = s.thread) (hl : r'.loc = r.loc) :
    Somewhere s' r' := by
  unfold Somewhere
  rw [ht, hl]
  exact h

/-- A thread goes on; it has submitted nothing, or the same job. -/
theorem Somewhere.thread (h : Somewhere s r) {a : ApiThread}
    (ha : a.pc.sent = true → a.job.signals = 0 →
      (s.thread t).pc.sent = true ∧ (s.thread t).job.signals = 0) :
    Somewhere (s.setThread t a) r := by
  intro t' hsent hsig
  by_cases ht : t' = t
  · subst ht
    simp only [setThread, Function.update_self] at hsent hsig
    exact h t' (ha hsent hsig).1 (ha hsent hsig).2
  · simp only [setThread, Function.update_of_ne ht] at hsent hsig
    exact h t' hsent hsig

/-- A job gets somewhere. -/
theorem Somewhere.put {x : Loc} (hx : x ≠ .nowhere)
    (h : ∀ t', t' ≠ t → (s.thread t').pc.sent = true → (s.thread t').job.signals = 0 →
      r.loc t' ≠ .nowhere) : Somewhere s (r.put t x) := by
  intro t' hsent hsig
  by_cases ht : t' = t
  · subst ht
    simpa [Reg.put] using hx
  · simpa [Reg.put, ht] using h t' ht hsent hsig

/-- A job is completed. -/
theorem Somewhere.signal (h : Somewhere s r) :
    Somewhere (s.signalCompletion t) (r.put t .nowhere) := by
  intro t' hsent hsig
  by_cases ht : t' = t
  · subst ht
    simp [signalCompletion] at hsig
  · simp only [signalCompletion, setThread, Function.update_of_ne ht] at hsent hsig
    simpa [Reg.put, ht] using h t' hsent hsig

theorem Somewhere.callStep (h : Somewhere s r) (hs : CallMove s l s') :
    Somewhere s' (r.next s l) := by
  cases hs with
  | openChannel t c ok hidle hmade => exact h.thread (by simp [ApiPc.sent])
  | param t c a p hidle hhandle hreq => exact h.thread (by simp [ApiPc.sent])
  | refuse t c a hreq => exact h
  | close t c l hl hidle hmade href =>
      have h1 := h.thread (t := t) (a := { s.thread t with pc := .countOut, ch := c })
        (by simp [ApiPc.sent])
      exact h1.congr rfl (by cases hl <;> rfl)
  | closeAgain t c l hl hidle hmade href =>
      have h1 := h.thread (t := t) (a := { s.thread t with pc := .closing, ch := c })
        (by simp [ApiPc.sent])
      exact h1.congr rfl (by cases hl <;> rfl)

theorem Somewhere.apiStep (h : Somewhere s r) (hok : Found s l) (hs : ApiMove s l s') :
    Somewhere s' (r.next s l) := by
  cases hs with
  | openFailed t hpc =>
      have h1 := h.thread (t := t) (a := { s.thread t with pc := .idle }) (by simp [ApiPc.sent])
      exact h1.congr rfl (by simp [Reg.next, hpc])
  | opened t hpc =>
      have h1 := h.thread (t := t) (a := ⟨.submit, (s.thread t).ch, ⟨.insertChannel, -1, 0⟩⟩)
        (by simp [ApiPc.sent])
      exact h1.congr rfl (by simp [Reg.next, hpc])
  | submit t hpc =>
      have h1 := h.thread (t := t)
        (a := { s.thread t with pc := .route (s.cl (s.thread t).ch).periodicIncNs })
        (by simp [ApiPc.sent])
      exact h1.congr rfl (by simp [Reg.next, hpc])
  | routeFound t p d hpc hmtx hd =>
      have h1 : Somewhere (s.setThread t { s.thread t with pc := .wait }) (r.put t (.queue d)) :=
        .put (by simp) fun t' hne hsent hsig => h t' (by simpa [hne] using hsent)
          (by simpa [hne] using hsig)
      exact h1.congr rfl (by simp [Reg.next, Reg.route, hpc, hd])
  | routeNew t p hpc hmtx hd htype =>
      have h1 : Somewhere (s.setThread t { s.thread t with pc := .insertMap p s.nrDescr })
          (r.put t (.queue s.nrDescr)) :=
        .put (by simp) fun t' hne hsent hsig => h t' (by simpa [hne] using hsent)
          (by simpa [hne] using hsig)
      exact h1.congr rfl (by simp [Reg.next, Reg.route, hpc, hd, htype])
  | routeLost t p hpc hmtx hd htype =>
      have hsome := hok t rfl htype hmtx
      simp [hpc, ApiPc.period, hd] at hsome
  | insertMap t p d hpc =>
      have h1 := h.thread (t := t) (a := { s.thread t with pc := .wait })
        (fun _ hsig => ⟨by rw [hpc]; rfl, hsig⟩)
      exact h1.congr rfl (by simp [Reg.next, hpc])
  | returned t hpc hsig htype =>
      have h1 := h.thread (t := t) (a := { s.thread t with pc := .idle }) (by simp [ApiPc.sent])
      exact h1.congr rfl (by simp [Reg.next, hpc])
  | deleted t hpc hsig htype =>
      have h1 := h.thread (t := t) (a := { s.thread t with pc := .closing }) (by simp [ApiPc.sent])
      exact h1.congr rfl (by simp [Reg.next, hpc])
  | countOut t hpc =>
      have h1 := h.thread (t := t) (a := { s.thread t with pc := .clear }) (by simp [ApiPc.sent])
      exact h1.congr rfl (by simp [Reg.next, hpc])
  | clear t hpc =>
      have h1 := h.thread (t := t) (a := ⟨.submit, (s.thread t).ch, ⟨.deleteChannel, -1, 0⟩⟩)
        (by simp [ApiPc.sent])
      exact h1.congr rfl (by simp [Reg.next, hpc])
  | closing t hpc =>
      have h1 := h.thread (t := t) (a := { s.thread t with pc := .idle }) (by simp [ApiPc.sent])
      exact h1.congr rfl (by simp [Reg.next, hpc])

theorem Somewhere.loopStep (h : Somewhere s r) (hs : LoopMove s l s') :
    Somewhere s' (r.next s l) := by
  cases hs with
  | goto d now ts pc hd hgo =>
      refine h.congr rfl ?_
      cases hgo with
      | start hpc | sampled _ hpc | accounted hpc | snooze hpc | noJob hpc | remove hpc
      | clock hpc | due hpc | notDue hpc => simp [hpc, Reg.next]
  | sample d now seen c rest hd hpc => exact h.congr rfl (by simp [Reg.next, hpc])
  | account d now c rest hd hpc => exact h.congr rfl (by simp [Reg.next, hpc])
  | job d now left j q hd hpc hq =>
      have h1 : Somewhere s (r.put j (.hand d)) := .put (by simp) fun t' _ => h t'
      exact h1.congr rfl (by simp [Reg.next, hpc, hq])
  | keep d now fs hd hpc hmtx hfs => exact h.congr rfl (by simp [Reg.next, hpc])
  | removed d now d' hd hpc hmtx hd' hq hc => exact h.congr rfl (by simp [Reg.next, hpc])

theorem Somewhere.takeStep (h : Somewhere s r) (hs : TakeMove s l s') :
    Somewhere s' (r.next s l) := by
  cases hs with
  | takeInsert d now left j hd hpc htype => exact h.congr rfl (by simp [Reg.next, hpc, htype])
  | takeMove d now left j hd hpc htype hc =>
      exact h.congr rfl (by simp [Reg.next, Reg.give, hpc, htype, hc])
  | takeMissing d now left j hd hpc htype hc =>
      exact (h.signal (t := j)).congr rfl (by simp [Reg.next, hpc, htype, hc])
  | takeDelete d now left j hd hpc htype => exact h.congr rfl (by simp [Reg.next, hpc, htype])

theorem Somewhere.bookStep (h : Somewhere s r) (hs : BookMove s l s') :
    Somewhere s' (r.next s l) := by
  cases hs with
  | bookInsert d now left j ev hd hpc htype =>
      exact (h.signal (t := j)).congr rfl (by simp [Reg.next, Reg.give, hpc, htype])
  | bookMove d now left j ev hd hpc htype =>
      have h1 := h.thread (t := j) (a := { s.thread j with
        job := { (s.thread j).job with type := .insertChannel, curPeriodicIncNs := -1 } })
        (fun hsent hsig => ⟨hsent, hsig⟩)
      exact h1.congr rfl (by simp [Reg.next, hpc, htype])
  | bookDelete d now left j ev hd hpc htype hc =>
      exact (h.signal (t := j)).congr rfl (by simp [Reg.next, Reg.give, hpc, htype, hc])
  | bookDeleteMissing d now left j ev hd hpc htype hc =>
      exact (h.signal (t := j)).congr rfl (by simp [Reg.next, hpc, htype, hc])

theorem Somewhere.passStep (h : Somewhere s r) (hj : Jobs s r) (hs : PassMove s l s') :
    Somewhere s' (r.next s l) := by
  cases hs with
  | passOn d now left j hd hpc => exact h.congr rfl (by simp [Reg.next, hpc])
  | passFound d now left j p d' hd hpc hmtx hd' hne =>
      have h1 : Somewhere s (r.put j (.queue d')) := .put (by simp) fun t' _ => h t'
      exact h1.congr rfl (by simp [Reg.next, Reg.route, hpc, hd'])
  | passSelf d now left j p hd hpc hmtx hd' =>
      have h1 : Somewhere s (r.put j (.queue d)) := .put (by simp) fun t' _ => h t'
      exact h1.congr rfl (by simp [Reg.next, Reg.route, hpc, hd'])
  | passNew d now left j p hd hpc hmtx hd' =>
      have htype := hj.passes d hd j (by rw [hpc]; rfl)
      have h1 : Somewhere s (r.put j (.queue s.nrDescr)) := .put (by simp) fun t' _ => h t'
      exact h1.congr rfl (by simp [Reg.next, Reg.route, hpc, hd', htype])
  | passMap d now left p d' hd hpc => exact h.congr rfl (by simp [Reg.next, hpc])

/-- **Every move keeps the submitted jobs.** -/
theorem Somewhere.step (h : Somewhere s r) (hj : Jobs s r) (hok : Found s l) (hs : Move s l s') :
    Somewhere s' (r.next s l) := by
  cases hs with
  | call hs => exact h.callStep hs
  | api hs => exact h.apiStep hok hs
  | handler c hmade => exact h
  | loop hs => exact h.loopStep hs
  | take hs => exact h.takeStep hs
  | book hs => exact h.bookStep hs
  | pass hs => exact h.passStep hj hs

/-- A job that is somewhere is kept. -/
theorem Fits.kept (h : Fits s r) (hw : Somewhere s r) (hsent : (s.thread t).pc.sent = true) :
    s.Kept t := by
  have honce := h.jobs.once t
  by_cases hsig : (s.thread t).job.signals = 0
  · refine .inr ⟨hsig, ?_⟩
    cases hloc : r.loc t with
    | nowhere => exact absurd hloc (hw t hsent hsig)
    | queue d =>
        have hd := h.jobs.bound t d (.inl hloc)
        have hmem := (h.jobs.queue d hd t).mpr hloc
        refine ⟨d, hd, .inl ⟨hmem, fun hdone => ?_⟩⟩
        rw [(h.mapped.done d hd hdone).2] at hmem
        cases hmem
    | hand d =>
        have hd := h.jobs.bound t d (.inr hloc)
        exact ⟨d, hd, .inr ((h.jobs.hand d hd t).mpr hloc)⟩
  · exact .inl (by omega)

end Step

/-! ## runs -/

theorem reach_somewhere {s : Fpc} (h : Reach step init (fun s l => OneApp s l ∧ Found s l) s) :
    ∃ r, Fits s r ∧ Somewhere s r := by
  refine h.invariant (I := fun s => ∃ r, Fits s r ∧ Somewhere s r) ⟨_, fits_init, ?_⟩ ?_
  · intro t hsent
    cases hsent
  · intro s l s' ⟨r, hr, hw⟩ ⟨hok, hfound⟩ hs
    exact ⟨_, hr.step hok (step_move hs), hw.step hr.jobs hfound (step_move hs)⟩

/-- **No submitted job is forgotten**, as long as `closeChannel` finds a
sampling thread for the period it has read: the job of every call that has
submitted one is completed, once, or a running sampling thread has it. -/
theorem jobs_kept {s : Fpc} (h : Reach step init (fun s l => OneApp s l ∧ Found s l) s) :
    ∀ t, (s.thread t).pc.sent = true → s.Kept t := by
  obtain ⟨r, hr, hw⟩ := reach_somewhere h
  intro t hsent
  exact hr.kept hw hsent

/-! ## runs of two threads -/

/-- The channel that the step parameterizes. -/
def Act.parameterized : Act → Option Nat
  | .parameterizeChannel _ c _ => some c
  | _ => none

/-- `OneApp` among the first `n` threads, which take all steps. -/
def OneAppOf (n : Nat) (s : Fpc) (l : Act) : Prop :=
  (∀ t ∈ l.thread, t < n) ∧ ∀ c ∈ l.parameterized, ∀ t < n, (s.thread t).app → (s.thread t).ch ≠ c

instance (n : Nat) : DecidableRel (OneAppOf n) := fun s l =>
  inferInstanceAs (Decidable ((∀ t ∈ l.thread, t < n) ∧
    ∀ c ∈ l.parameterized, ∀ t < n, (s.thread t).app → (s.thread t).ch ≠ c))

theorem OneAppOf.oneApp {s : Fpc} {l : Act} {n : Nat} (h : OneAppOf n s l)
    (hidle : ∀ t, n ≤ t → (s.thread t).pc = .idle) : OneApp s l := by
  cases l with
  | parameterizeChannel t c a =>
      intro t' happ
      by_cases ht : t' < n
      · exact h.2 c rfl t' ht happ
      · simp [ApiThread.app, hidle t' (Nat.le_of_not_lt ht)] at happ
  | _ => trivial

theorem reach_oneApp {s : Fpc} {n : Nat} {ok : Fpc → Act → Prop}
    (h : Reach step init (fun s l => OneAppOf n s l ∧ ok s l) s) :
    Reach step init (fun s l => OneApp s l ∧ ok s l) s :=
  h.mono_of fun _ _ hr hok =>
    ⟨hok.1.oneApp fun _ ht => reach_idle (fun _ _ hl => hl.1.1) hr ht, hok.2⟩

/-- Channel 0 is opened, and thread 0 reprograms it while thread 1 closes it:
the sampling thread takes `n` steps between the two. -/
def overlappingRun (n : Nat) : List Act :=
  [Act.openChannel 0 0 true] ++ List.replicate 4 (Act.api 0) ++
  List.replicate 7 (Act.sampler 0 .zero) ++ [Act.api 0] ++
  [Act.parameterizeChannel 0 0 ⟨0, 5, fun _ => 0⟩, Act.api 0, Act.api 0] ++
  List.replicate n (Act.sampler 0 .zero) ++ [Act.closeChannel 1 0] ++ List.replicate 4 (Act.api 1)

/-- The sampling thread of the new period is in the map when it is looked
for. -/
theorem jobs_kept_overlapping : ∃ s, Reach step init (fun s l => OneApp s l ∧ Found s l) s ∧
    (s.thread 1).pc.sent = true ∧ s.Kept 1 := by
  obtain ⟨s, hr, hs⟩ : ∃ s, Reach step init (fun s l => OneAppOf 2 s l ∧ Found s l) s ∧
      decide ((s.thread 1).pc.sent = true) = true :=
    Reach.of_exec_any (overlappingRun 10) _ (by decide +kernel)
  have hsent := of_decide_eq_true hs
  exact ⟨s, reach_oneApp hr, hsent, jobs_kept (reach_oneApp hr) 1 hsent⟩

/-- **A job is forgotten**: the period of the channel is the new one already,
and the sampling thread of that period does not exist yet. -/
theorem job_forgotten : ∃ s, Reach step init OneApp s ∧ (s.thread 1).pc.sent = true ∧
    ¬ s.Kept 1 := by
  obtain ⟨s, hr, hs⟩ : ∃ s, Reach step init (fun s l => OneAppOf 2 s l ∧ anyStep s l) s ∧
      decide ((s.thread 1).pc.sent = true ∧ ¬ s.Kept 1) = true :=
    Reach.of_exec_any (overlappingRun 7) _ (by decide +kernel)
  exact ⟨s, (reach_oneApp hr).mono fun _ _ h => h.1, of_decide_eq_true hs⟩

end Fpc

end CloudProfiler
