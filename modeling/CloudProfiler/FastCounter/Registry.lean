import CloudProfiler.FastCounter.Move

/-!
# CloudProfiler.FastCounter.Registry

Where the jobs and the channels of the fast periodic counter are.  `Reg` is
the abstract view: each job is nowhere, in the queue of a sampling thread or
in its hands; each channel belongs to one sampling thread or none; and at
most one descriptor is on its way into `thr_map`.  `Reg.next` says how a
step changes this view.

* `Jobs` — the queues and the hands of the sampling threads agree with it;
* `Mapped` — `thr_map` holds each running sampling thread under its period.
-/

namespace CloudProfiler

/-- The job a sampling thread has in its hands. -/
def SamplerPc.held : SamplerPc → Option Nat
  | .take _ j | .book _ j _ | .submit _ j | .route _ j _ => some j
  | _ => none

/-- The job a sampling thread passes on to another one. -/
def SamplerPc.passes : SamplerPc → Option Nat
  | .submit _ j | .route _ j _ => some j
  | _ => none

/-- The call has submitted its job and not returned yet. -/
def ApiPc.sent : ApiPc → Bool
  | .insertMap _ _ | .wait => true
  | _ => false

/-- The thread is in a call that puts a channel somewhere: `openChannel`, or
`parameterizeChannel` with an accepted period. -/
def ApiThread.app (a : ApiThread) : Bool :=
  match a.pc with
  | .idle | .countOut | .clear | .closing => false
  | .openFile _ => true
  | .submit | .route _ | .insertMap _ _ | .wait => a.job.type ≠ .deleteChannel

theorem ApiThread.app_of_sent {a : ApiThread} (hsent : a.pc.sent = true)
    (htype : a.job.type ≠ .deleteChannel) : a.app := by
  cases hpc : a.pc <;> simp_all [ApiPc.sent, app]

theorem SamplerPc.held_of_passes {pc : SamplerPc} {j : Nat} (h : pc.passes = some j) :
    pc.held = some j := by
  cases pc <;> simp_all [passes, held]

namespace Fpc

/-- Where a job is. -/
inductive Loc
  /-- not submitted, completed, or forgotten -/
  | nowhere
  | queue (d : Nat)
  | hand (d : Nat)
  deriving DecidableEq, Repr

/-- The abstract view: places of jobs, owners of channels, and the
descriptor that is being entered into `thr_map`. -/
structure Reg where
  loc : Nat → Loc
  owner : Nat → Option Nat
  entering : Option (UInt64 × Nat)

namespace Reg

def init : Reg := ⟨fun _ => .nowhere, fun _ => none, none⟩

/-- The job of thread `t` gets to `x`. -/
def put (r : Reg) (t : Nat) (x : Loc) : Reg := { r with loc := Function.update r.loc t x }

/-- Channel `c` gets to the owner `o`. -/
def give (r : Reg) (c : Nat) (o : Option Nat) : Reg :=
  { r with owner := Function.update r.owner c o }

/-- The job of thread `t` is submitted for period `p`. -/
def route (r : Reg) (s : Fpc) (t : Nat) (p : UInt64) : Reg :=
  match s.thrMap p with
  | some d => r.put t (.queue d)
  | none =>
      if (s.thread t).job.type = .deleteChannel then r
      else { r.put t (.queue s.nrDescr) with entering := some (p, s.nrDescr) }

/-- How a step changes the view. -/
def next (r : Reg) (s : Fpc) : Act → Reg
  | .api t =>
      match (s.thread t).pc with
      | .route p => r.route s t p
      | .insertMap _ _ => { r with entering := none }
      | _ => r
  | .sampler d _ =>
      match (s.descr d).pc with
      | .jobs (_ + 1) =>
          match (s.descr d).jQueue with
          | [] => r
          | j :: _ => r.put j (.hand d)
      | .take _ j =>
          match (s.thread j).job.type with
          | .moveChannel =>
              if (s.thread j).ch ∈ (s.descr d).closures then r.give (s.thread j).ch none
              else r.put j .nowhere
          | _ => r
      | .book _ j _ =>
          match (s.thread j).job.type with
          | .insertChannel => (r.put j .nowhere).give (s.thread j).ch (some d)
          | .moveChannel => r
          | .deleteChannel =>
              if (s.thread j).ch ∈ (s.descr d).closures then
                (r.put j .nowhere).give (s.thread j).ch none
              else r.put j .nowhere
      | .route _ j p => r.route s j p
      | .insertMap _ _ _ => { r with entering := none }
      | _ => r
  | _ => r

end Reg

/-- The queues and hands of the sampling threads hold the jobs that are
there, each once, and these are jobs of waiting calls. -/
structure Jobs (s : Fpc) (r : Reg) : Prop where
  queue : ∀ d < s.nrDescr, ∀ t, t ∈ (s.descr d).jQueue ↔ r.loc t = .queue d
  nodup : ∀ d < s.nrDescr, (s.descr d).jQueue.Nodup
  hand : ∀ d < s.nrDescr, ∀ t, (s.descr d).pc.held = some t ↔ r.loc t = .hand d
  bound : ∀ t d, r.loc t = .queue d ∨ r.loc t = .hand d → d < s.nrDescr
  sent : ∀ t, r.loc t ≠ .nowhere → (s.thread t).pc.sent = true ∧ (s.thread t).job.signals = 0
  fresh : ∀ t p, (s.thread t).pc = .submit ∨ (s.thread t).pc = .route p →
    (s.thread t).job.signals = 0
  once : ∀ t, (s.thread t).job.signals ≤ 1
  passes : ∀ d < s.nrDescr, ∀ t, (s.descr d).pc.passes = some t →
    (s.thread t).job.type = .insertChannel

section JobMoves

variable {s s' : Fpc} {r r' : Reg} {t d : Nat}

/-- `Jobs` speaks about the threads and the descriptors only. -/
theorem Jobs.congr (h : Jobs s r) (hd : s'.descr = s.descr) (hn : s'.nrDescr = s.nrDescr)
    (ht : s'.thread = s.thread) (hl : r'.loc = r.loc) : Jobs s' r' := by
  constructor
  · rw [hd, hn, hl]; exact h.queue
  · rw [hd, hn]; exact h.nodup
  · rw [hd, hn, hl]; exact h.hand
  · rw [hn, hl]; exact h.bound
  · rw [ht, hl]; exact h.sent
  · rw [ht]; exact h.fresh
  · rw [ht]; exact h.once
  · rw [hd, hn, ht]; exact h.passes

/-- A thread goes on whose job is nowhere, or that still waits for it. -/
theorem Jobs.thread (h : Jobs s r) {a : ApiThread}
    (hloc : r.loc t ≠ .nowhere → a.pc.sent = true ∧ a.job.signals = 0 ∧
      ((s.thread t).job.type = .insertChannel → a.job.type = .insertChannel))
    (hfresh : ∀ p, a.pc = .submit ∨ a.pc = .route p → a.job.signals = 0)
    (honce : a.job.signals ≤ 1) : Jobs (s.setThread t a) r where
  queue := h.queue
  nodup := h.nodup
  hand := h.hand
  bound := h.bound
  sent t' := by
    by_cases ht : t' = t
    · subst ht
      simpa using fun hne => ⟨(hloc hne).1, (hloc hne).2.1⟩
    · simpa [ht] using h.sent t'
  fresh t' := by
    by_cases ht : t' = t
    · subst ht; simpa using hfresh
    · simpa [ht] using h.fresh t'
  once t' := by
    by_cases ht : t' = t
    · subst ht; simpa using honce
    · simpa [ht] using h.once t'
  passes d' hd' t' hp := by
    have hold := h.passes d' hd' t' hp
    by_cases ht : t' = t
    · subst ht
      have hne : r.loc t' ≠ .nowhere := by
        rw [(h.hand d' hd' t').mp (SamplerPc.held_of_passes hp)]
        simp
      simpa using (hloc hne).2.2 hold
    · simpa [ht] using hold

/-- A sampling thread goes on with the same jobs. -/
theorem Jobs.descr (h : Jobs s r) {k : ThrDescriptor} (hq : k.jQueue = (s.descr d).jQueue)
    (hh : k.pc.held = (s.descr d).pc.held)
    (hp : ∀ t, k.pc.passes = some t → (s.thread t).job.type = .insertChannel := by
      simp [SamplerPc.passes]) : Jobs (s.setDescr d k) r where
  queue d' hd' t' := by
    by_cases hd : d' = d
    · subst hd; simpa [hq] using h.queue d' hd' t'
    · simpa [hd] using h.queue d' hd' t'
  nodup d' hd' := by
    by_cases hd : d' = d
    · subst hd; simpa [hq] using h.nodup d' hd'
    · simpa [hd] using h.nodup d' hd'
  hand d' hd' t' := by
    by_cases hd : d' = d
    · subst hd; simpa [hh] using h.hand d' hd' t'
    · simpa [hd] using h.hand d' hd' t'
  bound := h.bound
  sent := h.sent
  fresh := h.fresh
  once := h.once
  passes d' hd' t' := by
    by_cases hd : d' = d
    · subst hd; simpa using hp t'
    · simpa [hd] using h.passes d' hd' t'

/-- A job that is nowhere gets into a queue. -/
theorem Jobs.enqueue (h : Jobs s r) (hd : d < s.nrDescr) (hloc : r.loc t = .nowhere)
    (hsent : (s.thread t).pc.sent = true) (hsig : (s.thread t).job.signals = 0)
    {k : ThrDescriptor} (hq : k.jQueue = (s.descr d).jQueue ++ [t])
    (hpc : k.pc = (s.descr d).pc) : Jobs (s.setDescr d k) (r.put t (.queue d)) where
  queue d' hd' t' := by
    have hold := h.queue d' hd' t'
    simp only [Reg.put, setDescr, Function.update_apply]
    grind
  nodup d' hd' := by
    have hold := h.nodup d' hd'
    have hmem := h.queue d' hd' t
    simp only [setDescr, Function.update_apply]
    grind [List.nodup_append]
  hand d' hd' t' := by
    have hold := h.hand d' hd' t'
    simp only [Reg.put, setDescr, Function.update_apply]
    grind
  bound t' d' := by
    have hold := h.bound t' d'
    simp only [Reg.put, setDescr, Function.update_apply]
    grind
  sent t' := by
    have hold := h.sent t'
    simp only [Reg.put, setDescr, Function.update_apply]
    grind
  fresh := h.fresh
  once := h.once
  passes d' hd' t' := by
    have hold := h.passes d' hd'
    simp only [setDescr, Function.update_apply]
    grind

/-- A descriptor is created with a job that is nowhere. -/
theorem Jobs.new (h : Jobs s r) (hloc : r.loc t = .nowhere)
    (hsent : (s.thread t).pc.sent = true) (hsig : (s.thread t).job.signals = 0) (p : UInt64) :
    Jobs { s.setDescr s.nrDescr (.new p t) with nrDescr := s.nrDescr + 1 }
      (r.put t (.queue s.nrDescr)) where
  queue d' hd' t' := by
    have hold := h.queue d'
    have hb := h.bound t' d'
    simp only [Reg.put, setDescr, Function.update_apply, ThrDescriptor.new]
    grind
  nodup d' hd' := by
    have hold := h.nodup d'
    simp only [setDescr, Function.update_apply, ThrDescriptor.new]
    grind
  hand d' hd' t' := by
    have hold := h.hand d'
    have hb := h.bound t' d'
    simp only [Reg.put, setDescr, Function.update_apply, ThrDescriptor.new]
    grind [SamplerPc.held]
  bound t' d' := by
    have hold := h.bound t' d'
    simp only [Reg.put, Function.update_apply]
    grind
  sent t' := by
    have hold := h.sent t'
    simp only [Reg.put, setDescr, Function.update_apply]
    grind
  fresh := h.fresh
  once := h.once
  passes d' hd' t' := by
    have hold := h.passes d'
    simp only [setDescr, Function.update_apply]
    grind [SamplerPc.passes, ThrDescriptor.new]

/-- A sampling thread takes the first job of its queue. -/
theorem Jobs.pick (h : Jobs s r) (hd : d < s.nrDescr) {q : List Nat}
    (hq : (s.descr d).jQueue = t :: q) (hheld : (s.descr d).pc.held = none) {k : ThrDescriptor}
    (hkq : k.jQueue = q) (hk : k.pc.held = some t) (hp : k.pc.passes = none) :
    Jobs (s.setDescr d k) (r.put t (.hand d)) where
  queue d' hd' t' := by
    have hold := h.queue d' hd' t'
    have ht := h.queue d hd t
    have hnodup := h.nodup d hd
    simp only [Reg.put, setDescr, Function.update_apply]
    grind
  nodup d' hd' := by
    have hold := h.nodup d' hd'
    simp only [setDescr, Function.update_apply]
    grind
  hand d' hd' t' := by
    have hold := h.hand d' hd' t'
    have ht := h.queue d hd t
    simp only [Reg.put, setDescr, Function.update_apply]
    grind
  bound t' d' := by
    have hold := h.bound t' d'
    simp only [Reg.put, setDescr, Function.update_apply]
    grind
  sent t' := by
    have hold := h.sent t'
    have ht := h.queue d hd t
    have htsent := h.sent t
    simp only [Reg.put, setDescr, Function.update_apply]
    grind
  fresh := h.fresh
  once := h.once
  passes d' hd' t' := by
    have hold := h.passes d' hd'
    simp only [setDescr, Function.update_apply]
    grind [SamplerPc.held_of_passes]

/-- A sampling thread lets go of the job in its hands. -/
theorem Jobs.release (h : Jobs s r) (hd : d < s.nrDescr) (hheld : (s.descr d).pc.held = some t)
    {k : ThrDescriptor} (hq : k.jQueue = (s.descr d).jQueue) (hk : k.pc.held = none) :
    Jobs (s.setDescr d k) (r.put t .nowhere) where
  queue d' hd' t' := by
    have hold := h.queue d' hd' t'
    have ht := h.hand d hd t
    simp only [Reg.put, setDescr, Function.update_apply]
    grind
  nodup d' hd' := by
    have hold := h.nodup d' hd'
    simp only [setDescr, Function.update_apply]
    grind
  hand d' hd' t' := by
    have hold := h.hand d' hd' t'
    have ht := h.hand d hd t
    simp only [Reg.put, setDescr, Function.update_apply]
    grind
  bound t' d' := by
    have hold := h.bound t' d'
    simp only [Reg.put, setDescr, Function.update_apply]
    grind
  sent t' := by
    have hold := h.sent t'
    simp only [Reg.put, setDescr, Function.update_apply]
    grind
  fresh := h.fresh
  once := h.once
  passes d' hd' t' := by
    have hold := h.passes d' hd'
    simp only [setDescr, Function.update_apply]
    grind [SamplerPc.held_of_passes]

end JobMoves

/-- The descriptors in `thr_map` run, and every running one is there or about
to be. -/
structure Mapped (s : Fpc) (r : Reg) : Prop where
  registered : ∀ p d, s.thrMap p = some d →
    d < s.nrDescr ∧ (s.descr d).periodicIncNs = p ∧ (s.descr d).pc ≠ .done
  live : ∀ d < s.nrDescr, (s.descr d).pc ≠ .done →
    s.thrMap (s.descr d).periodicIncNs = some d ∨
      r.entering = some ((s.descr d).periodicIncNs, d)
  api : ∀ t p d, (s.thread t).pc = .insertMap p d →
    s.mtxThrMap = some (.api t) ∧ r.entering = some (p, d)
  sampler : ∀ d₀ < s.nrDescr, ∀ n p d, (s.descr d₀).pc = .insertMap n p d →
    s.mtxThrMap = some (.sampler d₀) ∧ r.entering = some (p, d)
  mtx : s.mtxThrMap = none → r.entering = none
  entering : ∀ p d, r.entering = some (p, d) →
    d < s.nrDescr ∧ (s.descr d).periodicIncNs = p ∧ (s.descr d).pc ≠ .done ∧ s.thrMap p = none
  done : ∀ d < s.nrDescr, (s.descr d).pc = .done →
    (s.descr d).closures = [] ∧ (s.descr d).jQueue = []

section JobStep

variable {s s' : Fpc} {r : Reg} {l : Act}

/-- A thread whose call has not submitted a job has none under way. -/
theorem Jobs.loc_eq (h : Jobs s r) {t : Nat} (hpc : (s.thread t).pc.sent = false) :
    r.loc t = .nowhere := by
  by_contra hne
  rw [(h.sent t hne).1] at hpc
  contradiction

/-- The job in the hands of a sampling thread is waited for. -/
theorem Jobs.held_sent (h : Jobs s r) {d t : Nat} (hd : d < s.nrDescr)
    (hheld : (s.descr d).pc.held = some t) :
    (s.thread t).pc.sent = true ∧ (s.thread t).job.signals = 0 :=
  h.sent t (by rw [(h.hand d hd t).mp hheld]; simp)

theorem Jobs.not_held (h : Jobs s r) {t : Nat} (hpc : (s.thread t).pc.sent = false) {d : Nat}
    (hd : d < s.nrDescr) : (s.descr d).pc.held ≠ some t := by
  intro hheld
  rw [(h.held_sent hd hheld).1] at hpc
  contradiction

/-- The job in the hands of a sampling thread is the one it works on. -/
theorem Jobs.hand_eq (h : Jobs s r) {d t : Nat} {o : Option Nat} (hd : d < s.nrDescr)
    (hheld : (s.descr d).pc.held = o) (hl : r.loc t = .hand d) : o = some t := by
  rw [← hheld]
  exact (h.hand d hd t).mpr hl

/-- A job is completed. -/
theorem Jobs.signal (h : Jobs s r) {t : Nat} (hloc : r.loc t = .nowhere)
    (hsent : (s.thread t).pc.sent = true) (hsig : (s.thread t).job.signals = 0) :
    Jobs (s.signalCompletion t) r := by
  refine h.thread (fun hne => absurd hloc hne) (fun p hp => ?_) ?_
  · cases hpc : (s.thread t).pc <;> simp [hpc, ApiPc.sent] at hp hsent
  · simp [hsig]

/-- A thread goes on that has no job under way. -/
theorem Jobs.goOn (h : Jobs s r) {t : Nat} (hpc : (s.thread t).pc.sent = false) {a : ApiThread}
    (ha : a.job.signals = 0 ∨ a.job = (s.thread t).job ∧ ∀ p, a.pc ≠ .submit ∧ a.pc ≠ .route p) :
    Jobs (s.setThread t a) r := by
  refine h.thread (fun hne => absurd (h.loc_eq hpc) hne) (fun p hp => ?_) ?_
  · obtain ha | ⟨-, ha⟩ := ha
    · exact ha
    · exact absurd hp (not_or.mpr (ha p))
  · obtain ha | ⟨ha, -⟩ := ha
    · omega
    · rw [ha]
      exact h.once t

theorem Jobs.callStep (h : Jobs s r) (hs : CallMove s l s') : Jobs s' (r.next s l) := by
  cases hs with
  | openChannel t c ok hidle hmade =>
      have h1 := h.goOn (a := { s.thread t with pc := .openFile ok, ch := c }) (by rw [hidle]; rfl)
        (.inr ⟨rfl, by simp⟩)
      exact h1.congr rfl rfl rfl rfl
  | param t c a p hidle hhandle hreq =>
      have h1 := h.goOn (a := ⟨.submit, c, ⟨.moveChannel, p, 0⟩⟩) (by rw [hidle]; rfl) (.inl rfl)
      exact h1.congr rfl rfl rfl rfl
  | refuse t c a hreq => exact h
  | close t c l hl hidle hmade href =>
      have h1 := h.goOn (a := { s.thread t with pc := .countOut, ch := c }) (by rw [hidle]; rfl)
        (.inr ⟨rfl, by simp⟩)
      exact h1.congr rfl rfl rfl (by cases hl <;> rfl)
  | closeAgain t c l hl hidle hmade href =>
      have h1 := h.goOn (a := { s.thread t with pc := .closing, ch := c }) (by rw [hidle]; rfl)
        (.inr ⟨rfl, by simp⟩)
      exact h1.congr rfl rfl rfl (by cases hl <;> rfl)

theorem Jobs.apiStep (h : Jobs s r) (hm : Mapped s r) (hs : ApiMove s l s') :
    Jobs s' (r.next s l) := by
  cases hs with
  | openFailed t hpc =>
      have h1 := h.goOn (a := { s.thread t with pc := .idle }) (by rw [hpc]; rfl)
        (.inr ⟨rfl, by simp⟩)
      exact h1.congr rfl rfl rfl (by simp [Reg.next, hpc])
  | opened t hpc =>
      have h1 := h.goOn (a := ⟨.submit, (s.thread t).ch, ⟨.insertChannel, -1, 0⟩⟩)
        (by rw [hpc]; rfl) (.inl rfl)
      exact h1.congr rfl rfl rfl (by simp [Reg.next, hpc])
  | submit t hpc =>
      have h1 := h.goOn (a := { s.thread t with pc := .route (s.cl (s.thread t).ch).periodicIncNs })
        (by rw [hpc]; rfl) (.inl (h.fresh t 0 (.inl hpc)))
      exact h1.congr rfl rfl rfl (by simp [Reg.next, hpc])
  | routeFound t p d hpc hmtx hd =>
      have hsig := h.fresh t p (.inr hpc)
      have hloc := h.loc_eq (t := t) (by rw [hpc]; rfl)
      have h1 := h.goOn (a := { s.thread t with pc := .wait }) (by rw [hpc]; rfl) (.inl hsig)
      have h2 := h1.enqueue (t := t) (k := { s.descr d with jQueue := (s.descr d).jQueue ++ [t] })
        (hm.registered p d hd).1 hloc (by simp [ApiPc.sent]) (by simpa using hsig) rfl rfl
      exact h2.congr rfl rfl rfl (by simp [Reg.next, Reg.route, hpc, hd])
  | routeNew t p hpc hmtx hd htype =>
      have hsig := h.fresh t p (.inr hpc)
      have hloc := h.loc_eq (t := t) (by rw [hpc]; rfl)
      have h1 := h.goOn (a := { s.thread t with pc := .insertMap p s.nrDescr }) (by rw [hpc]; rfl)
        (.inl hsig)
      have h2 := h1.new (t := t) hloc (by simp [ApiPc.sent]) (by simpa using hsig)
        (s.cl (s.thread t).ch).periodicIncNs
      exact h2.congr rfl rfl rfl (by simp [Reg.next, Reg.route, hpc, hd, htype])
  | routeLost t p hpc hmtx hd htype =>
      have h1 := h.goOn (a := { s.thread t with pc := .wait }) (by rw [hpc]; rfl)
        (.inl (h.fresh t p (.inr hpc)))
      exact h1.congr rfl rfl rfl (by simp [Reg.next, Reg.route, hpc, hd, htype])
  | insertMap t p d hpc =>
      have h1 := h.thread (t := t) (a := { s.thread t with pc := .wait })
        (fun hne => ⟨rfl, (h.sent t hne).2, id⟩) (by simp) (h.once t)
      exact h1.congr rfl rfl rfl (by simp [Reg.next, hpc])
  | returned t hpc hsig htype =>
      have h1 := h.thread (t := t) (a := { s.thread t with pc := .idle })
        (fun hne => absurd (h.sent t hne).2 hsig) (by simp) (h.once t)
      exact h1.congr rfl rfl rfl (by simp [Reg.next, hpc])
  | deleted t hpc hsig htype =>
      have h1 := h.thread (t := t) (a := { s.thread t with pc := .closing })
        (fun hne => absurd (h.sent t hne).2 hsig) (by simp) (h.once t)
      exact h1.congr rfl rfl rfl (by simp [Reg.next, hpc])
  | countOut t hpc =>
      have h1 := h.goOn (a := { s.thread t with pc := .clear }) (by rw [hpc]; rfl)
        (.inr ⟨rfl, by simp⟩)
      exact h1.congr rfl rfl rfl (by simp [Reg.next, hpc])
  | clear t hpc =>
      have h1 := h.goOn (a := ⟨.submit, (s.thread t).ch, ⟨.deleteChannel, -1, 0⟩⟩)
        (by rw [hpc]; rfl) (.inl rfl)
      exact h1.congr rfl rfl rfl (by simp [Reg.next, hpc])
  | closing t hpc =>
      have h1 := h.goOn (a := { s.thread t with pc := .idle }) (by rw [hpc]; rfl)
        (.inr ⟨rfl, by simp⟩)
      exact h1.congr rfl rfl rfl (by simp [Reg.next, hpc])

theorem Jobs.loopStep (h : Jobs s r) (hs : LoopMove s l s') : Jobs s' (r.next s l) := by
  cases hs with
  | goto d now ts pc hd hgo =>
      have hheld : pc.held = (s.descr d).pc.held ∧ (r.next s (.sampler d now)).loc = r.loc := by
        cases hgo with
        | start hpc | sampled _ hpc | accounted hpc | snooze hpc | noJob hpc | remove hpc
        | clock hpc | due hpc | notDue hpc => simp [hpc, SamplerPc.held, Reg.next]
      have hp : pc.passes = none := by cases hgo <;> rfl
      have h1 := h.descr (d := d) (k := { s.descr d with tsFlush := ts, pc := pc }) rfl hheld.1
        (by simp [hp])
      exact h1.congr rfl rfl rfl hheld.2
  | sample d now seen c rest hd hpc =>
      have h1 := h.descr (d := d) (k := { s.descr d with pc := .sample (seen ++ [c]) rest }) rfl
        (by simp [hpc, SamplerPc.held])
      exact h1.congr rfl rfl rfl (by simp [Reg.next, hpc])
  | account d now c rest hd hpc =>
      have h1 := h.descr (d := d) (k := { s.descr d with pc := .account rest }) rfl
        (by simp [hpc, SamplerPc.held])
      exact h1.congr rfl rfl rfl (by simp [Reg.next, hpc])
  | job d now left j q hd hpc hq =>
      have h1 := h.pick (k := { s.descr d with jQueue := q, pc := .take left j }) hd hq
        (by simp [hpc, SamplerPc.held]) rfl rfl rfl
      exact h1.congr rfl rfl rfl (by simp [Reg.next, hpc, hq])
  | keep d now fs hd hpc hmtx hfs =>
      have h1 := h.descr (d := d) (k := { s.descr d with pc := .clock }) rfl
        (by simp [hpc, SamplerPc.held])
      exact h1.congr rfl rfl rfl (by simp [Reg.next, hpc])
  | removed d now d' hd hpc hmtx hd' hq hc =>
      have h1 := h.descr (d := d) (k := { s.descr d with pc := .done }) rfl
        (by simp [hpc, SamplerPc.held])
      exact h1.congr rfl rfl rfl (by simp [Reg.next, hpc])

theorem Jobs.takeStep (h : Jobs s r) (hs : TakeMove s l s') : Jobs s' (r.next s l) := by
  cases hs with
  | takeInsert d now left j hd hpc htype =>
      have h1 := h.descr (d := d) (k := { s.descr d with
        pc := .book left j (s.cl (s.thread j).ch).ctr }) rfl (by simp [hpc, SamplerPc.held])
      exact h1.congr rfl rfl rfl (by simp [Reg.next, hpc, htype])
  | takeMove d now left j hd hpc htype hc =>
      have h1 := h.descr (d := d) (k := { s.descr d with
        closures := (s.descr d).closures.erase (s.thread j).ch
        pc := .book left j (s.cl (s.thread j).ch).ctr }) rfl (by simp [hpc, SamplerPc.held])
      exact h1.congr rfl rfl rfl (by simp [Reg.next, Reg.give, hpc, htype, hc])
  | takeMissing d now left j hd hpc htype hc =>
      have hheld : (s.descr d).pc.held = some j := by rw [hpc]; rfl
      obtain ⟨hsent, hsig⟩ := h.held_sent hd hheld
      have h1 := h.release (k := { s.descr d with pc := .jobs left }) hd hheld rfl rfl
      have h2 := h1.signal (t := j) (by simp [Reg.put]) hsent hsig
      exact h2.congr rfl rfl rfl (by simp [Reg.next, hpc, htype, hc])
  | takeDelete d now left j hd hpc htype =>
      have h1 := h.descr (d := d) (k := { s.descr d with
        pc := .book left j (s.cl (s.thread j).ch).ctr }) rfl (by simp [hpc, SamplerPc.held])
      exact h1.congr rfl rfl rfl (by simp [Reg.next, hpc, htype])

theorem Jobs.bookStep (h : Jobs s r) (hs : BookMove s l s') : Jobs s' (r.next s l) := by
  cases hs with
  | bookInsert d now left j ev hd hpc htype =>
      have hheld : (s.descr d).pc.held = some j := by rw [hpc]; rfl
      obtain ⟨hsent, hsig⟩ := h.held_sent hd hheld
      have h1 := h.release (k := { (s.descr d).insert (s.thread j).ch with pc := .jobs left })
        hd hheld rfl rfl
      have h2 := h1.signal (t := j) (by simp [Reg.put]) hsent hsig
      exact h2.congr rfl rfl rfl (by simp [Reg.next, Reg.give, hpc, htype])
  | bookMove d now left j ev hd hpc htype =>
      have hheld : (s.descr d).pc.held = some j := by rw [hpc]; rfl
      obtain ⟨hsent, hsig⟩ := h.held_sent hd hheld
      have h1 := h.thread (t := j) (a := { s.thread j with
        job := { (s.thread j).job with type := .insertChannel, curPeriodicIncNs := -1 } })
        (fun _ => ⟨hsent, hsig, fun _ => rfl⟩) (fun p _ => hsig) (h.once j)
      have h2 := h1.descr (d := d) (k := { s.descr d with pc := .submit left j }) rfl
        (by simp [hpc, SamplerPc.held]) (fun t ht => by
          obtain rfl : j = t := by simpa [SamplerPc.passes] using ht
          simp)
      exact h2.congr rfl rfl rfl (by simp [Reg.next, hpc, htype])
  | bookDelete d now left j ev hd hpc htype hc =>
      have hheld : (s.descr d).pc.held = some j := by rw [hpc]; rfl
      obtain ⟨hsent, hsig⟩ := h.held_sent hd hheld
      have h1 := h.release (k := { s.descr d with
        closures := (s.descr d).closures.erase (s.thread j).ch, pc := .jobs left }) hd hheld rfl rfl
      have h2 := h1.signal (t := j) (by simp [Reg.put]) hsent hsig
      exact h2.congr rfl rfl rfl (by simp [Reg.next, Reg.give, hpc, htype, hc])
  | bookDeleteMissing d now left j ev hd hpc htype hc =>
      have hheld : (s.descr d).pc.held = some j := by rw [hpc]; rfl
      obtain ⟨hsent, hsig⟩ := h.held_sent hd hheld
      have h1 := h.release (k := { s.descr d with pc := .jobs left }) hd hheld rfl rfl
      have h2 := h1.signal (t := j) (by simp [Reg.put]) hsent hsig
      exact h2.congr rfl rfl rfl (by simp [Reg.next, hpc, htype, hc])

theorem Jobs.passStep (h : Jobs s r) (hm : Mapped s r) (hs : PassMove s l s') :
    Jobs s' (r.next s l) := by
  cases hs with
  | passOn d now left j hd hpc =>
      have h1 := h.descr (d := d) (k := { s.descr d with
        pc := .route left j (s.cl (s.thread j).ch).periodicIncNs }) rfl
        (by simp [hpc, SamplerPc.held]) (fun t ht => h.passes d hd t (by rw [hpc]; exact ht))
      exact h1.congr rfl rfl rfl (by simp [Reg.next, hpc])
  | passFound d now left j p d' hd hpc hmtx hd' hne =>
      have hheld : (s.descr d).pc.held = some j := by rw [hpc]; rfl
      obtain ⟨hsent, hsig⟩ := h.held_sent hd hheld
      have h1 := h.release (k := { s.descr d with pc := .jobs left }) hd hheld rfl rfl
      have h2 := h1.enqueue (t := j) (k := { s.descr d' with jQueue := (s.descr d').jQueue ++ [j] })
        (hm.registered p d' hd').1 (by simp [Reg.put]) hsent hsig (by simp [hne]) (by simp [hne])
      refine h2.congr ?_ rfl rfl ?_
      · simp [Function.update_comm hne]
      · simp [Reg.next, Reg.route, Reg.put, hpc, hd', Function.update_idem]
  | passSelf d now left j p hd hpc hmtx hd' =>
      have hheld : (s.descr d).pc.held = some j := by rw [hpc]; rfl
      obtain ⟨hsent, hsig⟩ := h.held_sent hd hheld
      have h1 := h.release (k := { s.descr d with pc := .jobs left }) hd hheld rfl rfl
      have h2 := h1.enqueue (t := j) (k := { s.descr d with
        jQueue := (s.descr d).jQueue ++ [j], pc := .jobs left })
        hd (by simp [Reg.put]) hsent hsig (by simp) (by simp)
      refine h2.congr ?_ rfl rfl ?_
      · simp [Function.update_idem]
      · simp [Reg.next, Reg.route, Reg.put, hpc, hd', Function.update_idem]
  | passNew d now left j p hd hpc hmtx hd' =>
      have hheld : (s.descr d).pc.held = some j := by rw [hpc]; rfl
      obtain ⟨hsent, hsig⟩ := h.held_sent hd hheld
      have htype := h.passes d hd j (by rw [hpc]; rfl)
      have h1 := h.release (k := { s.descr d with pc := .insertMap left p s.nrDescr }) hd hheld
        rfl rfl
      have h2 := h1.new (t := j) (by simp [Reg.put]) hsent hsig
        (s.cl (s.thread j).ch).periodicIncNs
      refine h2.congr ?_ rfl rfl ?_
      · simp [Function.update_comm (Nat.ne_of_lt hd)]
      · simp [Reg.next, Reg.route, Reg.put, hpc, hd', htype, Function.update_idem]
  | passMap d now left p d' hd hpc =>
      have h1 := h.descr (d := d) (k := { s.descr d with pc := .jobs left }) rfl
        (by simp [hpc, SamplerPc.held])
      exact h1.congr rfl rfl rfl (by simp [Reg.next, hpc])

/-- **Every move keeps track of the jobs.** -/
theorem Jobs.step (h : Jobs s r) (hm : Mapped s r) (hs : Move s l s') : Jobs s' (r.next s l) := by
  cases hs with
  | call hs => exact h.callStep hs
  | api hs => exact h.apiStep hm hs
  | handler c hmade => exact h.congr rfl rfl rfl rfl
  | loop hs => exact h.loopStep hs
  | take hs => exact h.takeStep hs
  | book hs => exact h.bookStep hs
  | pass hs => exact h.passStep hm hs

end JobStep

/-! ## the map -/

section MapMoves

variable {s s' : Fpc} {r r' : Reg} {t d : Nat}

/-- `Mapped` speaks about the threads, the descriptors and the map only. -/
theorem Mapped.congr (h : Mapped s r) (hd : s'.descr = s.descr) (hn : s'.nrDescr = s.nrDescr)
    (ht : s'.thread = s.thread) (hmap : s'.thrMap = s.thrMap)
    (hmtx : s'.mtxThrMap = s.mtxThrMap) (he : r'.entering = r.entering) : Mapped s' r' := by
  constructor
  · rw [hd, hn, hmap]; exact h.registered
  · rw [hd, hn, hmap, he]; exact h.live
  · rw [ht, hmtx, he]; exact h.api
  · rw [hd, hn, hmtx, he]; exact h.sampler
  · rw [hmtx, he]; exact h.mtx
  · rw [hd, hn, hmap, he]; exact h.entering
  · rw [hd, hn]; exact h.done

/-- A thread goes on. -/
theorem Mapped.thread (h : Mapped s r) {a : ApiThread} (ha : ∀ p d, a.pc ≠ .insertMap p d) :
    Mapped (s.setThread t a) r where
  registered := h.registered
  live := h.live
  api t' p d := by
    by_cases ht : t' = t
    · subst ht; simpa using fun hpc => absurd hpc (ha p d)
    · simpa [ht] using h.api t' p d
  sampler := h.sampler
  mtx := h.mtx
  entering := h.entering
  done := h.done

/-- The job of a thread is changed. -/
theorem Mapped.job (h : Mapped s r) (t : Nat) (j : Job) :
    Mapped (s.setThread t { s.thread t with job := j }) r where
  registered := h.registered
  live := h.live
  api t' p d := by
    have hold := h.api t' p d
    by_cases ht : t' = t
    · subst ht; simpa using hold
    · simpa [ht] using hold
  sampler := h.sampler
  mtx := h.mtx
  entering := h.entering
  done := h.done

theorem Mapped.signal (h : Mapped s r) (t : Nat) : Mapped (s.signalCompletion t) r :=
  h.job t _

/-- A running sampling thread goes on. -/
theorem Mapped.descr (h : Mapped s r) (hlive : (s.descr d).pc ≠ .done) {k : ThrDescriptor}
    (hper : k.periodicIncNs = (s.descr d).periodicIncNs) (hk : k.pc ≠ .done)
    (hpc : k.pc = (s.descr d).pc ∨ ∀ n p d', k.pc ≠ .insertMap n p d') :
    Mapped (s.setDescr d k) r where
  registered p d' hd' := by
    have hold := h.registered p d' hd'
    simp only [setDescr, Function.update_apply]
    grind
  live d' hd' := by
    have hold := h.live d' hd'
    simp only [setDescr, Function.update_apply]
    grind
  api := h.api
  sampler d' hd' n p d₁ := by
    have hold := h.sampler d' hd' n p d₁
    simp only [setDescr, Function.update_apply]
    grind
  mtx := h.mtx
  entering p d' hd' := by
    have hold := h.entering p d' hd'
    simp only [setDescr, Function.update_apply]
    grind
  done d' hd' := by
    have hold := h.done d' hd'
    simp only [setDescr, Function.update_apply]
    grind

/-- A descriptor is created for a period that has none. -/
theorem Mapped.new (h : Mapped s r) {p : UInt64} (hmtx : s.mtxThrMap = none)
    (hp : s.thrMap p = none) {x : Holder} :
    Mapped { s.setDescr s.nrDescr (.new p t) with
        nrDescr := s.nrDescr + 1
        mtxThrMap := some x } { r with entering := some (p, s.nrDescr) } where
  registered p' d' hd' := by
    have hold := h.registered p' d' hd'
    simp only [setDescr, Function.update_apply]
    grind
  live d' hd' := by
    have hold := h.live d'
    have hnone := h.mtx hmtx
    simp only [setDescr, Function.update_apply, ThrDescriptor.new]
    grind
  api t' p' d' hd' := by
    have hold := h.api t' p' d' hd'
    simp [hmtx] at hold
  sampler d' hd' n p' d₁ := by
    have hold := h.sampler d'
    simp only [setDescr, Function.update_apply, ThrDescriptor.new]
    grind
  mtx hx := by simp at hx
  entering p' d' hd' := by
    simp only [setDescr, Function.update_apply, ThrDescriptor.new]
    grind
  done d' hd' := by
    have hold := h.done d'
    simp only [setDescr, Function.update_apply, ThrDescriptor.new]
    grind

/-- The creator is about to enter the descriptor. -/
theorem Mapped.enteringApi (h : Mapped s r) {p : UInt64} (hmtx : s.mtxThrMap = some (.api t))
    (he : r.entering = some (p, d)) {a : ApiThread} (ha : a.pc = .insertMap p d) :
    Mapped (s.setThread t a) r where
  registered := h.registered
  live := h.live
  api t' p' d' := by
    have hold := h.api t' p' d'
    simp only [setThread, Function.update_apply]
    grind
  sampler := h.sampler
  mtx := h.mtx
  entering := h.entering
  done := h.done

theorem Mapped.enteringSampler (h : Mapped s r) {p : UInt64} {d₀ n : Nat}
    (hlive : (s.descr d₀).pc ≠ .done)
    (hmtx : s.mtxThrMap = some (.sampler d₀)) (he : r.entering = some (p, d)) {k : ThrDescriptor}
    (hper : k.periodicIncNs = (s.descr d₀).periodicIncNs) (hk : k.pc = .insertMap n p d) :
    Mapped (s.setDescr d₀ k) r where
  registered p d' hd' := by
    have hold := h.registered p d' hd'
    simp only [setDescr, Function.update_apply]
    grind
  live d' hd' := by
    have hold := h.live d' hd'
    simp only [setDescr, Function.update_apply]
    grind
  api := h.api
  sampler d' hd' n' p' d₁ := by
    have hold := h.sampler d' hd' n' p' d₁
    simp only [setDescr, Function.update_apply]
    grind
  mtx := h.mtx
  entering p d' hd' := by
    have hold := h.entering p d' hd'
    simp only [setDescr, Function.update_apply]
    grind
  done d' hd' := by
    have hold := h.done d' hd'
    simp only [setDescr, Function.update_apply]
    grind

/-- The descriptor is entered: afterwards nobody is about to enter one. -/
theorem Mapped.enter (h : Mapped s r) {p : UInt64} (he : r.entering = some (p, d))
    (hapi : ∀ t p d, (s.thread t).pc ≠ .insertMap p d)
    (hsampler : ∀ d₀ < s.nrDescr, ∀ n p d, (s.descr d₀).pc ≠ .insertMap n p d) :
    Mapped (s.enterMap p d) { r with entering := none } where
  registered p' d' := by
    have hold := h.registered p' d'
    have hnew := h.entering p d he
    simp only [enterMap, Function.update_apply]
    grind
  live d' hd' := by
    have hold := h.live d' hd'
    have hnew := h.entering p d he
    simp only [enterMap, Function.update_apply]
    grind
  api t' p' d' hpc := absurd hpc (hapi t' p' d')
  sampler d' hd' n p' d₁ hpc := absurd hpc (hsampler d' hd' n p' d₁)
  mtx _ := rfl
  entering p' d' he' := by cases he'
  done := h.done

/-- A sampling thread without channels and jobs is removed from the map. -/
theorem Mapped.remove (h : Mapped s r) (hmtx : s.mtxThrMap = none)
    (hmap : s.thrMap (s.descr d).periodicIncNs = some d) (hq : (s.descr d).jQueue = [])
    (hc : (s.descr d).closures = []) :
    Mapped { s.setDescr d { s.descr d with pc := .done } with
      thrMap := Function.update s.thrMap (s.descr d).periodicIncNs none } r where
  registered p' d' := by
    have hold := h.registered p' d'
    simp only [setDescr, Function.update_apply]
    grind
  live d' hd' := by
    have hold := h.live d' hd'
    have hnone := h.mtx hmtx
    simp only [setDescr, Function.update_apply]
    grind
  api := h.api
  sampler d' hd' n p' d₁ := by
    have hold := h.sampler d' hd' n p' d₁
    simp only [setDescr, Function.update_apply]
    grind
  mtx := h.mtx
  entering p' d' he := by
    rw [h.mtx hmtx] at he
    cases he
  done d' hd' := by
    have hold := h.done d' hd'
    simp only [setDescr, Function.update_apply]
    grind

end MapMoves

end Fpc

end CloudProfiler
