import Mathlib.Data.Prod.Lex
import CloudProfiler.FastCounter.Serial
import CloudProfiler.FastCounter.Submit

/-!
# CloudProfiler.FastCounter.Return

API calls on channels of the fast periodic counter return, as long as the
calls on one channel do not overlap: from every state there is a schedule of
the threads by which a call under way comes to its end.

A call waits for its job, the job for the jobs in front of it, and a thread
that looks for a sampling thread for the one that holds `mtx_thr_map`.

* `Runs` — no sampling thread expects more jobs than its queue has, and who
  holds the mutex is about to release it;
* `rank` — how far a job is from its completion;
* `completes` — every job is completed;
* `returns` — every call returns.
-/

namespace CloudProfiler

/-- The jobs a sampling thread still expects in its queue. -/
def SamplerPc.left : SamplerPc → Nat
  | .jobs n | .take n _ | .book n _ _ | .submit n _ | .route n _ _ | .insertMap n _ _ => n
  | _ => 0

/-- How far a sampling thread is from taking the next job. -/
def ThrDescriptor.phase (k : ThrDescriptor) : Nat :=
  match k.pc with
  | .jobs (_ + 1) | .done => 0
  | .snooze => 1
  | .clock => 2
  | .remove => 3
  | .terminate => 4
  | .jobs 0 => 5
  | .insertMap _ _ _ => 6
  | .route _ _ _ => 7
  | .submit _ _ => 8
  | .book _ _ _ => 9
  | .take _ _ => 10
  | .account rest => rest.length + 2
  | .sample _ rest => k.closures.length + rest.length + 3
  | .start => 2 * k.closures.length + 4

/-- The step belongs to a call under way or to a sampling thread. -/
def Fpc.Act.works : Fpc.Act → Bool
  | .api _ | .sampler _ _ => true
  | .openChannel _ _ _ | .parameterizeChannel _ _ _ | .closeChannel _ _ | .handler _ => false

namespace Fpc

/-! ## nobody is stuck -/

/-- No sampling thread expects more jobs than its queue has. -/
def Left (s : Fpc) : Prop :=
  ∀ d < s.nrDescr, (s.descr d).pc.left ≤ (s.descr d).jQueue.length

/-- The thread is about to release the mutex. -/
def Releases (s : Fpc) : Holder → Prop
  | .api t => ∃ p d, (s.thread t).pc = .insertMap p d
  | .sampler d => d < s.nrDescr ∧ ∃ n p d', (s.descr d).pc = .insertMap n p d'

/-- Who holds the mutex is about to release it. -/
def Released (s : Fpc) : Prop := ∀ h, s.mtxThrMap = some h → s.Releases h

section Step

variable {s s' : Fpc} {r : Reg} {l : Act} {t d : Nat}

theorem Left.descr (h : Left s) {k : ThrDescriptor} (hk : k.pc.left ≤ k.jQueue.length) :
    Left (s.setDescr d k) := by
  intro d' hd'
  by_cases hne : d' = d
  · subst hne
    simpa using hk
  · simpa [hne] using h d' hd'

theorem Left.enqueue (h : Left s) :
    Left (s.setDescr d { s.descr d with jQueue := (s.descr d).jQueue ++ [t] }) := by
  intro d' hd'
  have hold := h d' hd'
  by_cases hne : d' = d
  · subst hne
    simp only [setDescr, Function.update_self, List.length_append, List.length_singleton]
    omega
  · simpa [hne] using hold

theorem Left.new (h : Left s) (p : UInt64) :
    Left { s.setDescr s.nrDescr (.new p t) with nrDescr := s.nrDescr + 1 } := by
  intro d hd
  by_cases hne : d = s.nrDescr
  · simp [hne, ThrDescriptor.new, SamplerPc.left]
  · have hlt : d < s.nrDescr := by
      simp only at hd
      omega
    simpa [hne] using h d hlt

theorem Goto.left {k : ThrDescriptor} {pc : SamplerPc} (h : Goto k pc) :
    pc.left ≤ k.jQueue.length := by
  cases h <;> simp [SamplerPc.left]

/-- **Every move keeps the queues long enough.** -/
theorem Left.step (h : Left s) (hs : Move s l s') : Left s' := by
  have hpc : ∀ {d pc}, d < s.nrDescr → (s.descr d).pc = pc → pc.left ≤ (s.descr d).jQueue.length :=
    fun hd he => he ▸ h _ hd
  cases hs with
  | call hs => cases hs <;> exact h
  | api hs =>
      cases hs with
      | routeFound t p d hpc' hmtx hd => exact h.enqueue
      | routeNew t p => exact (h.new (t := t) (s.cl (s.thread t).ch).periodicIncNs)
      | _ => exact h
  | handler => exact h
  | loop hs =>
      cases hs with
      | goto d now ts pc hd hgo => exact h.descr hgo.left
      | sample d now seen c rest hd hp | account d now c rest hd hp =>
          exact Left.descr h (Nat.zero_le _)
      | job d now left j q hd hp hq =>
          have hlen := hpc hd hp
          refine h.descr ?_
          simp only [SamplerPc.left, hq, List.length_cons] at hlen ⊢
          omega
      | keep d now fs hd hp | removed d now d' hd hp => exact Left.descr h (Nat.zero_le _)
  | take hs =>
      cases hs with
      | takeInsert d now left j hd hp | takeMove d now left j hd hp
      | takeMissing d now left j hd hp | takeDelete d now left j hd hp =>
          have hlen := hpc hd hp
          exact Left.descr h hlen
  | book hs =>
      cases hs with
      | bookInsert d now left j ev hd hp | bookMove d now left j ev hd hp
      | bookDelete d now left j ev hd hp | bookDeleteMissing d now left j ev hd hp =>
          have hlen := hpc hd hp
          exact Left.descr h hlen
  | pass hs =>
      cases hs with
      | passOn d now left j hd hp | passMap d now left p d' hd hp =>
          have hlen := hpc hd hp
          exact Left.descr h hlen
      | passFound d now left j p d' hd hp hmtx hd' hne =>
          have hlen := hpc hd hp
          exact Left.descr h.enqueue hlen
      | passSelf d now left j p hd hp =>
          have hlen := hpc hd hp
          refine h.descr ?_
          simp only [SamplerPc.left, List.length_append, List.length_singleton] at hlen ⊢
          omega
      | passNew d now left j p hd hp =>
          have hlen := hpc hd hp
          exact Left.descr (h.new (t := j) (s.cl (s.thread j).ch).periodicIncNs) hlen

/-- What a move makes of the mutex: it stays, or is released, or the thread
that takes the step holds it and is about to release it. -/
theorem Move.mtx (hs : Move s l s') : s'.mtxThrMap = s.mtxThrMap ∨ s'.mtxThrMap = none ∨
    ∃ h, s'.mtxThrMap = some h ∧ s'.Releases h := by
  cases hs with
  | call hs | loop hs | take hs | book hs => cases hs <;> exact .inl rfl
  | api hs =>
      cases hs with
      | routeNew t p => exact .inr (.inr ⟨.api t, rfl, p, s.nrDescr, by simp⟩)
      | insertMap => exact .inr (.inl rfl)
      | _ => exact .inl rfl
  | handler => exact .inl rfl
  | pass hs =>
      cases hs with
      | passNew d now left j p hd =>
          exact .inr (.inr ⟨.sampler d, rfl, Nat.lt_succ_of_lt hd, left, p, s.nrDescr, by simp⟩)
      | passMap => exact .inr (.inl rfl)
      | _ => exact .inl rfl

/-- A thread about to release the mutex does so, or stays where it is. -/
theorem Releases.step {x : Holder} (h : s.Releases x) (hs : Move s l s') :
    s'.mtxThrMap = none ∨ s'.Releases x := by
  cases x with
  | api t =>
      obtain ⟨p, d, hpc⟩ := h
      by_cases hl : l.thread = some t
      · cases hs with
        | call hs =>
            cases hs with
            | refuse => exact .inr ⟨p, d, hpc⟩
            | close t' c l hc hidle | closeAgain t' c l hc hidle =>
                rw [hc.thread] at hl
                cases hl
                rw [hpc] at hidle
                cases hidle
            | _ => simp_all [Act.thread]
        | api hs =>
            cases hs with
            | insertMap => exact .inl rfl
            | _ => simp_all [Act.thread]
        | handler => simp_all [Act.thread]
        | loop hs | take hs | book hs | pass hs => cases hs <;> simp_all [Act.thread]
      · exact .inr ⟨p, d, by rw [hs.pc_eq hl, hpc]⟩
  | sampler d =>
      obtain ⟨hd, n, p, d', hpc⟩ := h
      by_cases hl : ∃ now, l = .sampler d now
      · obtain ⟨now, rfl⟩ := hl
        cases hs with
        | call hs =>
            cases hs with
            | close t c l hc | closeAgain t c l hc => cases hc
        | api hs | take hs | book hs => cases hs <;> simp_all
        | loop hs =>
            cases hs with
            | goto d now ts pc hd hgo => cases hgo <;> simp_all
            | _ => simp_all
        | pass hs =>
            cases hs with
            | passMap => exact .inl rfl
            | _ => simp_all
      · exact .inr ⟨Nat.lt_of_lt_of_le hd hs.nrDescr_le, n, p, d',
          by rw [hs.sampler_pc_eq hd fun now he => hl ⟨now, he⟩, hpc]⟩

/-- **Every move keeps the mutex about to be released.** -/
theorem Released.step (h : Released s) (hs : Move s l s') : Released s' := by
  intro x hx
  obtain hm | hm | ⟨y, hy, hrel⟩ := hs.mtx
  · rw [hm] at hx
    obtain hnone | hrel := (h x hx).step hs
    · rw [hm, hx] at hnone
      cases hnone
    · exact hrel
  · rw [hm] at hx
    cases hx
  · rw [hy] at hx
    cases hx
    exact hrel

/-! ## what holds of every state -/

/-- What is known of a state reached by calls that do not overlap. -/
structure Sound (s : Fpc) (r : Reg) : Prop where
  fits : Fits s r
  owned : Owned s r
  flagged : Flagged s
  somewhere : Somewhere s r
  left : Left s
  released : Released s

/-- `closeChannel` finds a sampling thread for its channel. -/
theorem Owned.found (h : Owned s r) (hr : Fits s r) : Found s l := by
  intro t _ htype hmtx
  cases hpc : (s.thread t).pc with
  | route p =>
      obtain ⟨d, hd, -⟩ := h.routed hr hpc hmtx (.inl htype)
      simp [ApiPc.period, hd]
  | _ => rfl

theorem Sound.step (h : Sound s r) (hok : OneCall s l) (hs : s.step l = some s') :
    Sound s' (r.next s l) where
  fits := h.fits.step hok.oneApp (step_move hs)
  owned := h.owned.step h.fits h.flagged hok (step_move hs)
  flagged := h.flagged.step h.fits h.owned (step_move hs)
  somewhere := h.somewhere.step h.fits.jobs (h.owned.found h.fits) (step_move hs)
  left := h.left.step (step_move hs)
  released := h.released.step (step_move hs)

theorem sound_init : Sound init .init where
  fits := fits_init
  owned := owned_init
  flagged := flagged_init
  somewhere := fun t hsent => by cases hsent
  left := fun d hd => absurd hd (Nat.not_lt_zero d)
  released := fun x hx => by cases hx

theorem reach_sound {s : Fpc} (h : Reach step init OneCall s) : ∃ r, Sound s r :=
  h.invariant (I := fun s => ∃ r, Sound s r) ⟨_, sound_init⟩
    fun _ _ _ ⟨_, hr⟩ hok hs => ⟨_, hr.step hok hs⟩

end Step

/-! ## how far a job is from its completion -/

/-- The times the job will change hands. -/
def hops (s : Fpc) (t : Nat) (x : Loc) : Nat :=
  if (s.thread t).job.type = .moveChannel then 2
  else
    match x with
    | .hand d => if (s.descr d).pc.passes = some t then 1 else 0
    | .nowhere | .queue _ => 0

/-- The jobs in front of it, and itself, in its queue. -/
def ahead (s : Fpc) (t : Nat) : Loc → Nat
  | .queue d => (s.descr d).jQueue.idxOf t + 1
  | .nowhere | .hand _ => 0

/-- Where the sampling thread is that has the job. -/
def phase (s : Fpc) : Loc → Nat
  | .queue d | .hand d => (s.descr d).phase
  | .nowhere => 0

/-- **How far the job of thread `t` is from its completion**, lexicographically:
the times it will change hands, the jobs in front of it, the steps to the next
job, and whether the mutex has to be released. -/
def rank (s : Fpc) (r : Reg) (t : Nat) : ℕ ×ₗ ℕ ×ₗ ℕ ×ₗ ℕ :=
  toLex (s.hops t (r.loc t), toLex (s.ahead t (r.loc t), toLex (s.phase (r.loc t),
    s.mtxThrMap.isSome.toNat)))

section Rank

variable {s s' : Fpc} {r r' : Reg} {l : Act} {t d : Nat}

theorem rank_lt : rank s' r' t < rank s r t ↔
    s'.hops t (r'.loc t) < s.hops t (r.loc t) ∨ s'.hops t (r'.loc t) = s.hops t (r.loc t) ∧
    (s'.ahead t (r'.loc t) < s.ahead t (r.loc t) ∨ s'.ahead t (r'.loc t) = s.ahead t (r.loc t) ∧
    (s'.phase (r'.loc t) < s.phase (r.loc t) ∨ s'.phase (r'.loc t) = s.phase (r.loc t) ∧
      s'.mtxThrMap.isSome.toNat < s.mtxThrMap.isSome.toNat)) := by
  simp only [rank, Prod.Lex.toLex_lt_toLex]

/-- The sampling thread goes on with the job in its queue. -/
theorem rank_lt_of_queue (hl : r.loc t = .queue d) (hl' : r'.loc t = .queue d)
    (htype : (s'.thread t).job.type = (s.thread t).job.type)
    (hq : (s'.descr d).jQueue.idxOf t = (s.descr d).jQueue.idxOf t)
    (hph : (s'.descr d).phase < (s.descr d).phase) : rank s' r' t < rank s r t := by
  rw [rank_lt]
  simp [hops, ahead, phase, hl, hl', htype, hq, hph]

/-- While nobody holds the mutex, a sampling thread that has not left can go
on.  When it finds that the flush is not due yet, it snoozes. -/
theorem Sound.sampler_enabled (h : Sound s r) (hmtx : s.mtxThrMap = none) (hd : d < s.nrDescr)
    (hlive : (s.descr d).pc ≠ .done) : ∃ s', s.step (.sampler d (s.descr d).tsFlush) = some s' ∧
      ((s.descr d).pc = .clock → (s'.descr d).pc = .snooze) := by
  have hleft := h.left d hd
  have hnow : compareTS (s.descr d).tsFlush (s.descr d).tsFlush = 0 := by simp [compareTS]
  simp only [Fpc.step]
  rw [if_pos hd]
  cases hpc : (s.descr d).pc with
  | sample seen rest => cases rest <;> simp [sampler, hpc]
  | account rest => cases rest <;> simp [sampler, hpc]
  | jobs n =>
      cases n with
      | zero => simp [sampler, hpc]
      | succ n =>
          cases hq : (s.descr d).jQueue with
          | nil => simp [hpc, hq, SamplerPc.left] at hleft
          | cons j q => simp [sampler, hpc, hq]
  | route n j p =>
      cases hp : s.thrMap p <;> simp [sampler, hpc, enqueueJobWithThrDescriptor, hmtx, hp]
  | remove =>
      have hmap := h.fits.mapped.mapped hmtx hd hlive
      simp only [sampler, hpc, removeThrDescriptor, hmtx, hmap, Option.isSome_none,
        Bool.false_eq_true, if_false]
      split
      · simp
      · split <;> simp
  | clock => simp [sampler, hpc, hnow]
  | done => exact absurd hpc hlive
  | _ => simp [sampler, hpc]

/-- It is done with another job. -/
theorem phase_lt_of_jobs {k k' : ThrDescriptor} {n : Nat} (hpc : k'.pc = .jobs n)
    (h : 5 < k.phase) : k'.phase < k.phase := by
  have hle : k'.phase ≤ 5 := by
    cases n <;> simp [ThrDescriptor.phase, hpc]
  omega

/-- **A sampling thread gets closer to the job in its queue.** -/
theorem Sound.queue_closer (h : Sound s r) (hl : r.loc t = .queue d)
    (hdue : (s.descr d).pc = .clock → (s'.descr d).pc = .snooze) {now : Timespec}
    (hs : Move s (.sampler d now) s') : rank s' (r.next s (.sampler d now)) t < rank s r t := by
  have hd := h.fits.jobs.bound t d (.inl hl)
  have hmem := (h.fits.jobs.queue d hd t).mpr hl
  have hhand : ∀ j, (s.descr d).pc.held = some j → j ≠ t := by
    rintro j hj rfl
    rw [(h.fits.jobs.hand d hd j).mp hj] at hl
    cases hl
  cases hs with
  | call hs =>
      cases hs with
      | close t' c l' hc | closeAgain t' c l' hc => cases hc
  | api hs => cases hs
  | loop hs =>
      cases hs with
      | goto d now ts pc hd' hgo =>
          refine rank_lt_of_queue hl (by cases hgo <;> simp_all [Reg.next]) rfl (by simp) ?_
          cases hgo with
          | start hpc =>
              simp only [ThrDescriptor.phase, hpc, setDescr, Function.update_self]
              omega
          | snooze hpc =>
              obtain ⟨n, hn⟩ := Nat.exists_eq_succ_of_ne_zero (List.length_pos_of_mem hmem).ne'
              simp [ThrDescriptor.phase, hpc, hn]
          | due hpc => simp [hpc] at hdue
          | sampled _ hpc | accounted hpc | noJob hpc | remove hpc | clock hpc | notDue hpc =>
              simp [ThrDescriptor.phase, hpc]
      | sample d now seen c rest hd' hpc =>
          refine rank_lt_of_queue hl (by simpa [Reg.next, hpc] using hl) rfl (by simp) ?_
          simp [ThrDescriptor.phase, hpc]
      | account d now c rest hd' hpc =>
          refine rank_lt_of_queue hl (by simpa [Reg.next, hpc] using hl) rfl (by simp) ?_
          simp [ThrDescriptor.phase, hpc]
      | job d now left j q hd' hpc hq =>
          by_cases hj : j = t
          · -- it is the job's turn
            subst hj
            rw [rank_lt]
            simp [Reg.next, Reg.put, hpc, hq, hops, ahead, SamplerPc.passes, hl]
          · have hloc : (r.next s (.sampler d now)).loc t = .queue d := by
              simpa [Reg.next, Reg.put, hpc, hq, Ne.symm hj] using hl
            rw [rank_lt, hl, hloc]
            exact .inr ⟨rfl, .inl (by simp [ahead, hq, List.idxOf_cons_ne _ hj])⟩
      | keep d now fs hd' hpc hmtx =>
          refine rank_lt_of_queue hl (by simpa [Reg.next, hpc] using hl) rfl (by simp) ?_
          simp [ThrDescriptor.phase, hpc]
      | removed d now d' hd' hpc hmtx hd₁ hq hc =>
          have hmap := h.fits.mapped.mapped hmtx hd (by simp [hpc])
          rw [hmap] at hd₁
          cases hd₁
          simp [hq] at hmem
  | take hs =>
      cases hs with
      | takeInsert d now left j hd' hpc htype =>
          refine rank_lt_of_queue hl (by simpa [Reg.next, hpc, htype] using hl) rfl (by simp) ?_
          simp [ThrDescriptor.phase, hpc]
      | takeMove d now left j hd' hpc htype hc =>
          refine rank_lt_of_queue hl (by simpa [Reg.next, Reg.give, hpc, htype, hc] using hl) rfl
            (by simp) ?_
          simp [ThrDescriptor.phase, hpc]
      | takeDelete d now left j hd' hpc htype =>
          refine rank_lt_of_queue hl (by simpa [Reg.next, hpc, htype] using hl) rfl (by simp) ?_
          simp [ThrDescriptor.phase, hpc]
      | takeMissing d now left j hd' hpc htype hc =>
          have hj := (hhand j (by rw [hpc]; rfl)).symm
          refine rank_lt_of_queue hl (by simpa [Reg.next, Reg.put, hpc, htype, hc, hj] using hl)
            (by simp [signalCompletion, hj]) (by simp [signalCompletion]) ?_
          exact phase_lt_of_jobs (n := left) (by simp) (by simp [ThrDescriptor.phase, hpc])
  | book hs =>
      cases hs with
      | bookInsert d now left j ev hd' hpc htype =>
          have hj := (hhand j (by rw [hpc]; rfl)).symm
          refine rank_lt_of_queue hl (by simpa [Reg.next, Reg.put, Reg.give, hpc, htype, hj] using hl)
            (by simp [signalCompletion, hj]) (by simp [signalCompletion, ThrDescriptor.insert]) ?_
          exact phase_lt_of_jobs (n := left) (by simp) (by simp [ThrDescriptor.phase, hpc])
      | bookMove d now left j ev hd' hpc htype =>
          have hj := (hhand j (by rw [hpc]; rfl)).symm
          refine rank_lt_of_queue hl (by simpa [Reg.next, hpc, htype] using hl) (by simp [hj])
            (by simp) ?_
          simp [ThrDescriptor.phase, hpc]
      | bookDelete d now left j ev hd' hpc htype hc
      | bookDeleteMissing d now left j ev hd' hpc htype hc =>
          have hj := (hhand j (by rw [hpc]; rfl)).symm
          refine rank_lt_of_queue hl (by simpa [Reg.next, Reg.put, Reg.give, hpc, htype, hc, hj] using hl)
            (by simp [signalCompletion, hj]) (by simp [signalCompletion]) ?_
          exact phase_lt_of_jobs (n := left) (by simp) (by simp [ThrDescriptor.phase, hpc])
  | pass hs =>
      cases hs with
      | passOn d now left j hd' hpc =>
          refine rank_lt_of_queue hl (by simpa [Reg.next, hpc] using hl) rfl (by simp) ?_
          simp [ThrDescriptor.phase, hpc]
      | passFound d now left j p d' hd' hpc hmtx hd₁ hne =>
          have hj := (hhand j (by rw [hpc]; rfl)).symm
          refine rank_lt_of_queue hl (by simpa [Reg.next, Reg.route, Reg.put, hpc, hd₁, hj] using hl) rfl
            (by simp) ?_
          exact phase_lt_of_jobs (n := left) (by simp) (by simp [ThrDescriptor.phase, hpc])
      | passSelf d now left j p hd' hpc hmtx hd₁ =>
          have hj := (hhand j (by rw [hpc]; rfl)).symm
          refine rank_lt_of_queue hl (by simpa [Reg.next, Reg.route, Reg.put, hpc, hd₁, hj] using hl) rfl
            (by simp [List.idxOf_append_of_mem hmem]) ?_
          exact phase_lt_of_jobs (n := left) (by simp) (by simp [ThrDescriptor.phase, hpc])
      | passNew d now left j p hd' hpc hmtx hd₁ =>
          have hj := (hhand j (by rw [hpc]; rfl)).symm
          have htype := h.fits.jobs.passes d hd j (by rw [hpc]; rfl)
          refine rank_lt_of_queue hl
            (by simpa [Reg.next, Reg.route, Reg.put, hpc, hd₁, hj, htype] using hl) rfl (by simp) ?_
          simp [ThrDescriptor.phase, hpc]
      | passMap d now left p d' hd' hpc =>
          refine rank_lt_of_queue hl (by simpa [Reg.next, hpc] using hl) rfl (by simp) ?_
          exact phase_lt_of_jobs (n := left) (by simp) (by simp [ThrDescriptor.phase, hpc])

/-- **And to the completion of the job in its hands.** -/
theorem Sound.hand_closer (h : Sound s r) (hl : r.loc t = .hand d) {now : Timespec}
    (hs : Move s (.sampler d now) s') : rank s' (r.next s (.sampler d now)) t < rank s r t := by
  have hd := h.fits.jobs.bound t d (.inr hl)
  have hheld := (h.fits.jobs.hand d hd t).mpr hl
  have hmine : ∀ {pc j}, (s.descr d).pc = pc → pc.held = some j → j = t := by
    intro pc j hpc hj
    rw [hpc, hj] at hheld
    exact Option.some.inj hheld
  cases hs with
  | call hs =>
      cases hs with
      | close t' c l' hc | closeAgain t' c l' hc => cases hc
  | api hs => cases hs
  | loop hs =>
      cases hs with
      | goto d now ts pc hd' hgo => cases hgo <;> simp_all [SamplerPc.held]
      | _ => simp_all [SamplerPc.held]
  | take hs =>
      cases hs with
      | takeInsert d now left j hd' hpc htype =>
          obtain rfl := hmine hpc rfl
          rw [rank_lt]
          simp [Reg.next, hpc, htype, hl, hops, ahead, phase, ThrDescriptor.phase, SamplerPc.passes]
      | takeMove d now left j hd' hpc htype hc =>
          obtain rfl := hmine hpc rfl
          rw [rank_lt]
          simp [Reg.next, Reg.give, hpc, htype, hc, hl, hops, ahead, phase, ThrDescriptor.phase]
      | takeDelete d now left j hd' hpc htype =>
          obtain rfl := hmine hpc rfl
          rw [rank_lt]
          simp [Reg.next, hpc, htype, hl, hops, ahead, phase, ThrDescriptor.phase, SamplerPc.passes]
      | takeMissing d now left j hd' hpc htype hc =>
          obtain rfl := hmine hpc rfl
          rw [rank_lt]
          simp [Reg.next, Reg.put, hpc, htype, hc, hl, hops, ahead, phase, ThrDescriptor.phase,
            signalCompletion]
  | book hs =>
      cases hs with
      | bookInsert d now left j ev hd' hpc htype =>
          obtain rfl := hmine hpc rfl
          rw [rank_lt]
          simp [Reg.next, Reg.put, Reg.give, hpc, htype, hl, hops, ahead, phase, ThrDescriptor.phase,
            signalCompletion, SamplerPc.passes]
      | bookMove d now left j ev hd' hpc htype =>
          obtain rfl := hmine hpc rfl
          rw [rank_lt]
          simp [Reg.next, hpc, htype, hl, hops, SamplerPc.passes]
      | bookDelete d now left j ev hd' hpc htype hc
      | bookDeleteMissing d now left j ev hd' hpc htype hc =>
          obtain rfl := hmine hpc rfl
          rw [rank_lt]
          simp [Reg.next, Reg.put, Reg.give, hpc, htype, hc, hl, hops, ahead, phase, ThrDescriptor.phase,
            signalCompletion, SamplerPc.passes]
  | pass hs =>
      cases hs with
      | passOn d now left j hd' hpc =>
          obtain rfl := hmine hpc rfl
          rw [rank_lt]
          simp [Reg.next, hpc, hl, hops, ahead, phase, ThrDescriptor.phase, SamplerPc.passes]
      | passFound d now left j p d' hd' hpc hmtx hd₁ hne =>
          obtain rfl := hmine hpc rfl
          have htype := h.fits.jobs.passes d hd j (by rw [hpc]; rfl)
          rw [rank_lt]
          simp [Reg.next, Reg.route, Reg.put, hpc, hd₁, hl, hops, htype, SamplerPc.passes]
      | passSelf d now left j p hd' hpc hmtx hd₁ =>
          obtain rfl := hmine hpc rfl
          have htype := h.fits.jobs.passes d hd j (by rw [hpc]; rfl)
          rw [rank_lt]
          simp [Reg.next, Reg.route, Reg.put, hpc, hd₁, hl, hops, htype, SamplerPc.passes]
      | passNew d now left j p hd' hpc hmtx hd₁ =>
          obtain rfl := hmine hpc rfl
          have htype := h.fits.jobs.passes d hd j (by rw [hpc]; rfl)
          rw [rank_lt]
          simp [Reg.next, Reg.route, Reg.put, hpc, hd₁, hl, hops, htype, SamplerPc.passes]
      | _ => simp_all [SamplerPc.held]

/-- The mutex is released, and nothing gets farther away. -/
theorem rank_lt_of_release {x : Holder} (hx : s.mtxThrMap = some x) (hx' : s'.mtxThrMap = none)
    (hl : r'.loc = r.loc) (htype : (s'.thread t).job.type = (s.thread t).job.type)
    (hq : ∀ d, (s'.descr d).jQueue = (s.descr d).jQueue)
    (hpass : ∀ d, (s'.descr d).pc.passes = (s.descr d).pc.passes)
    (hph : ∀ d, (s'.descr d).phase ≤ (s.descr d).phase) : rank s' r' t < rank s r t := by
  have hhops : s'.hops t (r'.loc t) = s.hops t (r.loc t) := by
    rw [hl]
    cases hloc : r.loc t <;> simp [hops, htype, hpass]
  have hahead : s'.ahead t (r'.loc t) = s.ahead t (r.loc t) := by
    rw [hl]
    cases hloc : r.loc t <;> simp [ahead, hq]
  have hphase : s'.phase (r'.loc t) ≤ s.phase (r.loc t) := by
    rw [hl]
    cases hloc : r.loc t <;> simp [phase, hph]
  rw [rank_lt]
  refine .inr ⟨hhops, .inr ⟨hahead, ?_⟩⟩
  obtain hlt | heq := Nat.lt_or_eq_of_le hphase
  · exact .inl hlt
  · exact .inr ⟨heq, by simp [hx, hx']⟩

/-- **Releasing the mutex gets any job closer.** -/
theorem Sound.release_closer (h : Sound s r) {x : Holder} (hx : s.mtxThrMap = some x) (t : Nat) :
    ∃ l s', l.works = true ∧ s.step l = some s' ∧ s'.mtxThrMap = none ∧
      (∀ t, l.thread = some t → ∃ p d, (s.thread t).pc = .insertMap p d) ∧
      rank s' (r.next s l) t < rank s r t := by
  cases x with
  | api t' =>
      obtain ⟨p, d, hpc⟩ := h.released _ hx
      refine ⟨.api t', _, rfl, by simp only [Fpc.step, api, hpc]; rfl, rfl, ?_, ?_⟩
      · rintro t₁ ht₁
        cases ht₁
        exact ⟨p, d, hpc⟩
      refine rank_lt_of_release hx rfl (by simp [Reg.next, hpc]) ?_ (fun _ => rfl) (fun _ => rfl)
        fun _ => Nat.le_refl _
      by_cases ht : t = t'
      · subst ht
        simp
      · simp [ht]
  | sampler d =>
      obtain ⟨hd, left, p, d', hpc⟩ := h.released _ hx
      refine ⟨.sampler d (s.descr d).tsFlush, _, rfl,
        by simp only [Fpc.step]; rw [if_pos hd]; simp only [sampler, hpc]; rfl, rfl,
        fun t₁ ht₁ => absurd ht₁.symm (by simp [Act.thread]), ?_⟩
      refine rank_lt_of_release hx rfl (by simp [Reg.next, hpc]) rfl ?_ ?_ ?_
      · intro d₁
        by_cases he : d₁ = d
        · subst he
          simp
        · simp [he]
      · intro d₁
        by_cases he : d₁ = d
        · subst he
          simp [hpc, SamplerPc.passes]
        · simp [he]
      · intro d₁
        by_cases he : d₁ = d
        · subst he
          exact Nat.le_of_lt (phase_lt_of_jobs (n := left) (by simp)
            (by simp [ThrDescriptor.phase, hpc]))
        · simp [he]

end Rank

/-! ## calls return -/

/-- Steps of calls under way and of sampling threads. -/
def Works (_ : Fpc) (l : Act) : Prop := l.works = true

section Return

variable {s s' : Fpc} {r r' : Reg} {l : Act} {t d : Nat}

theorem oneCall_of_works (h : l.works = true) : OneCall s l := by
  cases l <;> simp_all [Act.works, OneCall]

/-- A submitted job that is not completed can be brought closer to it. -/
theorem Sound.closer (h : Sound s r) (hpc : (s.thread t).pc = .wait)
    (hsig : (s.thread t).job.signals = 0) :
    ∃ l s', l.works = true ∧ s.step l = some s' ∧ rank s' (r.next s l) t < rank s r t ∧
      (s'.thread t).pc = .wait := by
  cases hmtx : s.mtxThrMap with
  | some x =>
      obtain ⟨l, s', hl, hs, -, hthr, hlt⟩ := h.release_closer hmtx t
      have hne : l.thread ≠ some t := by
        intro ht
        obtain ⟨p, d, hpc'⟩ := hthr t ht
        rw [hpc] at hpc'
        cases hpc'
      exact ⟨l, s', hl, hs, hlt, by rw [(step_move hs).pc_eq hne, hpc]⟩
  | none =>
      have hwait : ∀ {d s'}, s.step (.sampler d (s.descr d).tsFlush) = some s' →
          (s'.thread t).pc = .wait := by
        intro d s' hs
        rw [(step_move hs).pc_eq (by simp [Act.thread]), hpc]
      cases hl : r.loc t with
      | nowhere => exact absurd hl (h.somewhere t (by rw [hpc]; rfl) hsig)
      | queue d =>
          have hd := h.fits.jobs.bound t d (.inl hl)
          have hlive : (s.descr d).pc ≠ .done := by
            intro hdone
            have hmem := (h.fits.jobs.queue d hd t).mpr hl
            rw [(h.fits.mapped.done d hd hdone).2] at hmem
            cases hmem
          obtain ⟨s', hs, hdue⟩ := h.sampler_enabled hmtx hd hlive
          exact ⟨_, s', rfl, hs, h.queue_closer hl hdue (step_move hs), hwait hs⟩
      | hand d =>
          have hd := h.fits.jobs.bound t d (.inr hl)
          have hlive : (s.descr d).pc ≠ .done := by
            intro hdone
            have hheld := (h.fits.jobs.hand d hd t).mpr hl
            rw [hdone] at hheld
            cases hheld
          obtain ⟨s', hs, -⟩ := h.sampler_enabled hmtx hd hlive
          exact ⟨_, s', rfl, hs, h.hand_closer hl (step_move hs), hwait hs⟩

/-- **Every submitted job is completed**, if the threads are scheduled
accordingly. -/
theorem Sound.completes (h : Sound s r) (hpc : (s.thread t).pc = .wait) :
    ∃ s' r', Reach Fpc.step s Works s' ∧ Sound s' r' ∧ (s'.thread t).pc = .wait ∧
      (s'.thread t).job.signals ≠ 0 := by
  -- induction on the rank of the job
  generalize hn : rank s r t = n
  induction n using WellFoundedLT.induction generalizing s r with
  | ind n ih =>
      by_cases hsig : (s.thread t).job.signals = 0
      · obtain ⟨l, s₁, hl, hs, hlt, hpc₁⟩ := h.closer hpc hsig
        obtain ⟨s', r', hr, hsound, hpc', hsig'⟩ :=
          ih _ (hn ▸ hlt) (h.step (oneCall_of_works hl) hs) hpc₁ rfl
        exact ⟨s', r', .trans (.step .init hl hs) hr, hsound, hpc', hsig'⟩
      · exact ⟨s, r, .init, h, hpc, hsig⟩

/-- The call of thread `t` can come to its end. -/
def Returns (s : Fpc) (t : Nat) : Prop := ∃ s', Reach step s Works s' ∧ (s'.thread t).pc = .idle

theorem Returns.of_step (h : Returns s' t) (hl : l.works = true) (hs : s.step l = some s') :
    Returns s t := by
  obtain ⟨s₁, hr, hidle⟩ := h
  exact ⟨s₁, .trans (.step .init hl hs) hr, hidle⟩

/-- `api` takes thread `t` to `pc`. -/
def Leads (s : Fpc) (t : Nat) (pc : ApiPc) : Prop :=
  ∃ s', s.step (.api t) = some s' ∧ (s'.thread t).pc = pc

theorem Leads.returns (h : Leads s t .idle) : Returns s t := by
  obtain ⟨s', hs, hidle⟩ := h
  exact .of_step ⟨s', .init, hidle⟩ rfl hs

theorem returns_closing (hpc : (s.thread t).pc = .closing) : Returns s t :=
  Leads.returns ⟨_, by simp only [step, api, hpc]; rfl, by simp⟩

/-- A call returns once its job is completed, so it returns. -/
theorem Sound.returns_wait (h : Sound s r) (hpc : (s.thread t).pc = .wait) : Returns s t := by
  obtain ⟨s₁, r₁, hr, -, hpc₁, hsig⟩ := h.completes hpc
  have hret : Returns s₁ t := by
    by_cases htype : (s₁.thread t).job.type = .deleteChannel
    · have hlead : Leads s₁ t .closing :=
        ⟨_, by simp only [Fpc.step, api, hpc₁, hsig, htype, if_false, if_true]; rfl, by simp⟩
      obtain ⟨s₂, hs, hclosing⟩ := hlead
      exact (returns_closing hclosing).of_step rfl hs
    · exact Leads.returns
        ⟨_, by simp only [Fpc.step, api, hpc₁, hsig, htype, if_false]; rfl, by simp⟩
  obtain ⟨s₂, hr₂, hidle⟩ := hret
  exact ⟨s₂, hr.trans hr₂, hidle⟩

theorem Sound.returns_insertMap (h : Sound s r) {p : UInt64} {d : Nat}
    (hpc : (s.thread t).pc = .insertMap p d) : Returns s t := by
  have hlead : Leads s t .wait := ⟨_, by simp only [Fpc.step, api, hpc]; rfl, by simp⟩
  obtain ⟨s₁, hs, hwait⟩ := hlead
  exact ((h.step (l := .api t) trivial hs).returns_wait hwait).of_step rfl hs

/-- A thread that looks for a sampling thread waits for the mutex first. -/
theorem Sound.returns_route (h : Sound s r) {p : UInt64} (hpc : (s.thread t).pc = .route p) :
    Returns s t := by
  -- once the mutex is free, the thread finds a sampling thread or makes one
  have hfree : ∀ {s r}, Sound s r → (s.thread t).pc = .route p → s.mtxThrMap = none →
      Returns s t := by
    intro s r h hpc hmtx
    cases hp : s.thrMap p with
    | some d =>
        have hlead : Leads s t .wait := by
          unfold Leads
          by_cases htype : (s.thread t).job.type = .deleteChannel
          · simp [Fpc.step, api, hpc, htype, dequeueJobFromThrDescriptor, hmtx, hp]
          · simp [Fpc.step, api, hpc, htype, enqueueJobWithThrDescriptor, hmtx, hp]
        obtain ⟨s₁, hs, hwait⟩ := hlead
        exact ((h.step (l := .api t) trivial hs).returns_wait hwait).of_step rfl hs
    | none =>
        have htype : (s.thread t).job.type ≠ .deleteChannel := by
          intro htype
          obtain ⟨d, hd, -⟩ := h.owned.routed h.fits hpc hmtx (.inl htype)
          rw [hp] at hd
          cases hd
        have hlead : Leads s t (.insertMap p s.nrDescr) := by
          simp [Leads, Fpc.step, api, hpc, htype, enqueueJobWithThrDescriptor, hmtx, hp]
        obtain ⟨s₁, hs, hmap⟩ := hlead
        exact ((h.step (l := .api t) trivial hs).returns_insertMap hmap).of_step rfl hs
  cases hmtx : s.mtxThrMap with
  | none => exact hfree h hpc hmtx
  | some x =>
      obtain ⟨l, s', hl, hs, hnone, hthr, -⟩ := h.release_closer hmtx t
      have hne : l.thread ≠ some t := by
        intro ht
        obtain ⟨p', d, hpc'⟩ := hthr t ht
        rw [hpc] at hpc'
        cases hpc'
      have hpc' : (s'.thread t).pc = .route p := by rw [(step_move hs).pc_eq hne, hpc]
      exact (hfree (h.step (oneCall_of_works hl) hs) hpc' hnone).of_step hl hs

theorem Sound.returns_submit (h : Sound s r) (hpc : (s.thread t).pc = .submit) : Returns s t := by
  have hlead : Leads s t (.route (s.cl (s.thread t).ch).periodicIncNs) :=
    ⟨_, by simp only [Fpc.step, api, hpc]; rfl, by simp⟩
  obtain ⟨s₁, hs, hroute⟩ := hlead
  exact ((h.step (l := .api t) trivial hs).returns_route hroute).of_step rfl hs

/-- A channel is counted out in two steps. -/
theorem Sound.returns_clear (h : Sound s r) (hpc : (s.thread t).pc = .clear) : Returns s t := by
  have hlead : Leads s t .submit := ⟨_, by simp only [Fpc.step, api, hpc]; rfl, by simp⟩
  obtain ⟨s₁, hs, hsubmit⟩ := hlead
  exact ((h.step (l := .api t) trivial hs).returns_submit hsubmit).of_step rfl hs

theorem Sound.returns_countOut (h : Sound s r) (hpc : (s.thread t).pc = .countOut) :
    Returns s t := by
  have hlead : Leads s t .clear := ⟨_, by simp only [Fpc.step, api, hpc]; rfl, by simp⟩
  obtain ⟨s₁, hs, hclear⟩ := hlead
  exact ((h.step (l := .api t) trivial hs).returns_clear hclear).of_step rfl hs

/-- **Every call can come to its end.** -/
theorem Sound.returns (h : Sound s r) (t : Nat) : Returns s t := by
  cases hpc : (s.thread t).pc with
  | idle => exact ⟨s, .init, hpc⟩
  | openFile ok =>
      cases ok with
      | false => exact Leads.returns ⟨_, by simp only [Fpc.step, api, hpc]; rfl, by simp⟩
      | true =>
          have hlead : Leads s t .submit := ⟨_, by simp only [Fpc.step, api, hpc]; rfl, by simp⟩
          obtain ⟨s₁, hs, hsubmit⟩ := hlead
          exact ((h.step (l := .api t) trivial hs).returns_submit hsubmit).of_step rfl hs
  | submit => exact h.returns_submit hpc
  | route p => exact h.returns_route hpc
  | insertMap p d => exact h.returns_insertMap hpc
  | wait => exact h.returns_wait hpc
  | countOut => exact h.returns_countOut hpc
  | clear => exact h.returns_clear hpc
  | closing => exact returns_closing hpc

end Return

end Fpc

end CloudProfiler
