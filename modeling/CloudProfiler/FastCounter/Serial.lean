import CloudProfiler.FastCounter.Settle

/-!
# CloudProfiler.FastCounter.Serial

The fast periodic counter when the calls on one channel do not overlap, as
when each channel is driven by a thread of its own.

* `OneCall` — the guard;
* `Flagged` — a channel is counted out by one call only;
* `Away` — a job carries the channel from one sampling thread to another;
* `Owned` — an open channel belongs to a sampling thread unless it is away,
  and the jobs that take it from there are at that sampling thread;
* `registry` — the registry of sampling threads, in every reached state.
-/

namespace CloudProfiler

/-- The call has a job, submitted or not. -/
def ApiPc.working : ApiPc → Bool
  | .submit | .route _ | .insertMap _ _ | .wait => true
  | .idle | .openFile _ | .countOut | .clear | .closing => false

/-- The thread has a DELETE_CHANNEL job that is not completed. -/
def ApiThread.deletes (a : ApiThread) : Prop :=
  a.pc.working = true ∧ a.job.type = .deleteChannel ∧ a.job.signals = 0

theorem ApiPc.working_of_sent {pc : ApiPc} (h : pc.sent = true) : pc.working = true := by
  cases pc <;> simp_all [sent, working]

theorem ApiPc.busy_of_working {pc : ApiPc} (h : pc.working = true) : pc ≠ .idle := by
  cases pc <;> simp_all [working]

/-- The job whose events a sampling thread is about to book. -/
def SamplerPc.books : SamplerPc → Option Nat
  | .book _ j _ => some j
  | _ => none

namespace Fpc

/-- No call for a channel is made while another one is under way. -/
def OneCall (s : Fpc) : Act → Prop
  | .parameterizeChannel _ c _ | .closeChannel _ c =>
      ∀ t, (s.thread t).pc ≠ .idle → (s.thread t).ch ≠ c
  | _ => True

/-- The job of thread `t` carries its channel: the channel is in no sampling
thread, and the job will put it into one. -/
def Carries (s : Fpc) (t : Nat) : Prop :=
  (s.thread t).pc.working = true ∧ (s.thread t).job.signals = 0 ∧
    ((s.thread t).job.type = .insertChannel ∨
      (s.thread t).job.type = .moveChannel ∧ ∃ d < s.nrDescr, (s.descr d).pc.books = some t)

/-- Channel `c` is carried by some job. -/
def Away (s : Fpc) (c : Nat) : Prop := ∃ t, (s.thread t).ch = c ∧ s.Carries t

/-- The job of thread `t` is to take its channel out of the sampling thread
it is at. -/
def Fetches (s : Fpc) (t d : Nat) : Prop :=
  (s.thread t).job.type = .deleteChannel ∨ (s.thread t).job.type = .moveChannel ∧
    (s.cl (s.thread t).ch).isRefCounted = true ∧ (s.descr d).pc.books ≠ some t

/-- A channel that is being counted out is counted. -/
def Flagged (s : Fpc) : Prop :=
  ∀ t, (s.thread t).pc.counts = true → (s.cl (s.thread t).ch).isRefCounted = true

/-- Open channels belong to a sampling thread, and jobs are there. -/
structure Owned (s : Fpc) (r : Reg) : Prop where
  uniq : ∀ t t', (s.thread t).pc ≠ .idle → (s.thread t').pc ≠ .idle →
    (s.thread t).ch = (s.thread t').ch → t = t'
  route : ∀ t p, (s.thread t).pc = .route p → p = (s.cl (s.thread t).ch).periodicIncNs
  closed : ∀ t, (s.thread t).deletes → (s.cl (s.thread t).ch).isRefCounted = false
  owned : ∀ c, (s.cl c).isRefCounted = true → s.Away c ∨ r.owner c ≠ none
  deleting : ∀ t, (s.thread t).deletes → r.owner (s.thread t).ch ≠ none
  here : ∀ t d, r.loc t = .queue d ∨ r.loc t = .hand d → s.Fetches t d →
    r.owner (s.thread t).ch = some d

section Moves

variable {s s' : Fpc} {r r' : Reg} {t d c : Nat}

/-- What `Owned` says does not depend on the rest of the state. -/
theorem Owned.congr (h : Owned s r) (hd : s'.descr = s.descr) (hn : s'.nrDescr = s.nrDescr)
    (ht : s'.thread = s.thread) (hcl : s'.cl = s.cl) (hl : r'.loc = r.loc)
    (ho : r'.owner = r.owner) : Owned s' r' := by
  constructor
  · rw [ht]; exact h.uniq
  · rw [ht, hcl]; exact h.route
  · rw [ht, hcl]; exact h.closed
  · simp only [Away, Carries, hd, hn, ht, hcl, ho]; exact h.owned
  · rw [ht, ho]; exact h.deleting
  · simp only [Fetches, hd, ht, hcl, hl, ho]; exact h.here

/-- A thread goes on.  The conditions are those of its new state. -/
theorem Owned.thread (h : Owned s r) {a : ApiThread}
    (huniq : a.pc ≠ .idle → ∀ t', t' ≠ t → (s.thread t').pc ≠ .idle → (s.thread t').ch ≠ a.ch)
    (hroute : ∀ p, a.pc = .route p → p = (s.cl a.ch).periodicIncNs)
    (hdel : a.deletes → (s.cl a.ch).isRefCounted = false ∧ r.owner a.ch ≠ none)
    (hcarry : s.Carries t → (s.cl (s.thread t).ch).isRefCounted = true →
      (s.setThread t a).Carries t ∧ a.ch = (s.thread t).ch ∨ r.owner (s.thread t).ch ≠ none)
    (hhere : ∀ d, r.loc t = .queue d ∨ r.loc t = .hand d → (s.setThread t a).Fetches t d →
      r.owner a.ch = some d) : Owned (s.setThread t a) r where
  uniq t₁ t₂ := by
    have hold := h.uniq t₁ t₂
    simp only [setThread, Function.update_apply]
    grind
  route t' p := by
    have hold := h.route t' p
    simp only [setThread, Function.update_apply]
    grind
  closed t' := by
    have hold := h.closed t'
    simp only [setThread, Function.update_apply]
    grind
  owned c' hc' := by
    obtain ⟨t', hch, hcar⟩ | ho := h.owned c' hc'
    · by_cases ht : t' = t
      · subst ht
        subst hch
        obtain ⟨hcar', hch'⟩ | ho := hcarry hcar hc'
        · exact .inl ⟨t', by simpa using hch', hcar'⟩
        · exact .inr ho
      · refine .inl ⟨t', by simpa [ht] using hch, ?_⟩
        simpa [Carries, ht] using hcar
    · exact .inr ho
  deleting t' := by
    have hold := h.deleting t'
    simp only [setThread, Function.update_apply]
    grind
  here t' d' hl hf := by
    by_cases ht : t' = t
    · subst ht
      simpa using hhere d' hl hf
    · have hold := h.here t' d' hl (by simpa [Fetches, ht] using hf)
      simpa [ht] using hold

/-- A job gets somewhere. -/
theorem Owned.put (h : Owned s r) {x : Loc}
    (hx : ∀ d, x = .queue d ∨ x = .hand d → s.Fetches t d → r.owner (s.thread t).ch = some d) :
    Owned s (r.put t x) where
  uniq := h.uniq
  route := h.route
  closed := h.closed
  owned := h.owned
  deleting := h.deleting
  here t' d' hl hf := by
    by_cases ht : t' = t
    · subst ht
      exact hx d' (by simpa [Reg.put] using hl) hf
    · exact h.here t' d' (by simpa [Reg.put, ht] using hl) hf

/-- A job carries its channel on while its events are still to be booked. -/
theorem Carries.descr (h : s.Carries t) (ht : s'.thread = s.thread) (hn : s.nrDescr ≤ s'.nrDescr)
    (hbooks : (s.thread t).job.type = .moveChannel → ∀ d < s.nrDescr,
      (s.descr d).pc.books = some t → (s'.descr d).pc.books = some t) : s'.Carries t := by
  obtain ⟨hw, hsig, htype⟩ := h
  rw [Carries, ht]
  refine ⟨hw, hsig, htype.imp_right fun hmove => ?_⟩
  obtain ⟨hmove, d, hd, hb⟩ := hmove
  exact ⟨hmove, d, Nat.lt_of_lt_of_le hd hn, hbooks hmove d hd hb⟩

/-- A sampling thread goes on. -/
theorem Owned.descr (h : Owned s r) {k : ThrDescriptor}
    (hbooks : ∀ t, (s.descr d).pc.books = some t → k.pc.books = some t ∨
      (s.thread t).job.type ≠ .moveChannel) : Owned (s.setDescr d k) r where
  uniq := h.uniq
  route := h.route
  closed := h.closed
  owned c' hc' := by
    refine (h.owned c' hc').imp_left fun haway => ?_
    obtain ⟨t', hch, hcar⟩ := haway
    refine ⟨t', hch, hcar.descr rfl (Nat.le_refl _) fun hmove d' _ hb => ?_⟩
    by_cases hd : d' = d
    · subst hd
      obtain hk | hne := hbooks t' hb
      · simpa using hk
      · exact absurd hmove hne
    · simpa [hd] using hb
  deleting := h.deleting
  here t' d' hl hf := by
    refine h.here t' d' hl ?_
    obtain hdel | ⟨htype, href, hb⟩ := hf
    · exact .inl hdel
    · refine .inr ⟨htype, href, ?_⟩
      by_cases hd : d' = d
      · subst hd
        intro hold
        obtain hk | hne := hbooks t' hold
        · exact hb (by simpa using hk)
        · exact hne htype
      · simpa [hd] using hb

/-- A channel is logged, counted or closed. -/
theorem Owned.cl (h : Owned s r) {k : FPCClosure}
    (hper : k.periodicIncNs = (s.cl c).periodicIncNs ∨
      ∀ t p, (s.thread t).pc = .route p → (s.thread t).ch ≠ c)
    (href : k.isRefCounted = true → (s.cl c).isRefCounted = true) : Owned (s.setCl c k) r where
  uniq := h.uniq
  route t' p hpc := by
    have hpc' : (s.thread t').pc = .route p := hpc
    have hold := h.route t' p hpc'
    simp only [setCl, Function.update_apply]
    grind
  closed t' hdel := by
    have hold := h.closed t' hdel
    simp only [setCl, Function.update_apply]
    grind
  owned c' hc' := by
    refine h.owned c' ?_
    by_cases hc : c' = c
    · subst hc
      exact href (by simpa using hc')
    · simpa [hc] using hc'
  deleting := h.deleting
  here t' d' hl hf := by
    refine h.here t' d' hl ?_
    obtain hdel | ⟨htype, hr, hb⟩ := hf
    · exact .inl hdel
    · refine .inr ⟨htype, ?_, hb⟩
      by_cases hc : (s.thread t').ch = c
      · subst hc
        exact href (by simpa using hr)
      · simpa [hc] using hr

/-- A channel gets to a sampling thread or away from it. -/
theorem Owned.give (h : Owned s r) {o : Option Nat}
    (howned : (s.cl c).isRefCounted = true → s.Away c ∨ o ≠ none)
    (hdel : ∀ t, (s.thread t).ch = c → (s.thread t).deletes → o ≠ none)
    (hhere : ∀ t d, (s.thread t).ch = c → r.loc t = .queue d ∨ r.loc t = .hand d →
      s.Fetches t d → o = some d) : Owned s (r.give c o) where
  uniq := h.uniq
  route := h.route
  closed := h.closed
  owned c' hc' := by
    by_cases hc : c' = c
    · subst hc
      simpa [Reg.give] using howned hc'
    · simpa [Reg.give, hc] using h.owned c' hc'
  deleting t' hd := by
    by_cases hc : (s.thread t').ch = c
    · simpa [Reg.give, hc] using hdel t' hc hd
    · simpa [Reg.give, hc] using h.deleting t' hd
  here t' d' hl hf := by
    by_cases hc : (s.thread t').ch = c
    · simpa [Reg.give, hc] using hhere t' d' hc hl hf
    · simpa [Reg.give, hc] using h.here t' d' hl hf

/-- A descriptor is created. -/
theorem Owned.new (h : Owned s r) (hj : Jobs s r) (p : UInt64) :
    Owned { s.setDescr s.nrDescr (.new p t) with nrDescr := s.nrDescr + 1 } r where
  uniq := h.uniq
  route := h.route
  closed := h.closed
  owned c' hc' := by
    refine (h.owned c' hc').imp_left fun haway => ?_
    obtain ⟨t', hch, hcar⟩ := haway
    refine ⟨t', hch, hcar.descr rfl (Nat.le_succ _) fun _ d' hd' hb => ?_⟩
    simpa [Nat.ne_of_lt hd'] using hb
  deleting := h.deleting
  here t' d' hl hf := by
    have hd' := hj.bound t' d' hl
    exact h.here t' d' hl (by simpa [Fetches, Nat.ne_of_lt hd'] using hf)

/-- A job is completed. -/
theorem Owned.signal (h : Owned s r)
    (hcarry : s.Carries t → (s.cl (s.thread t).ch).isRefCounted = true →
      r.owner (s.thread t).ch ≠ none) : Owned (s.signalCompletion t) r := by
  refine h.thread (fun hb t' hne hb' hch => ?_) (h.route t) ?_
    (fun hcar href => .inr (hcarry hcar href)) (fun d hl hf => ?_)
  · exact hne (h.uniq t' t hb' hb hch)
  · simp [ApiThread.deletes]
  · exact h.here t d hl (by simpa [Fetches] using hf)

/-- A thread goes on in the same call. -/
theorem Owned.goOn (h : Owned s r) {q : ApiPc}
    (hbusy : q ≠ .idle → (s.thread t).pc ≠ .idle)
    (hroute : ∀ p, q = .route p → p = (s.cl (s.thread t).ch).periodicIncNs)
    (hw : q.working = true → (s.thread t).pc.working = true)
    (hw' : (s.thread t).pc.working = true → (s.thread t).job.signals = 0 → q.working = true) :
    Owned (s.setThread t { s.thread t with pc := q }) r := by
  refine h.thread (fun hb t' hne hb' hch => ?_) hroute (fun hdel => ?_) (fun hcar _ => .inl ⟨?_, rfl⟩)
    (fun d hl hf => ?_)
  · exact hne (h.uniq t' t hb' (hbusy hb) hch)
  · have hdel' : (s.thread t).deletes := ⟨hw hdel.1, hdel.2⟩
    exact ⟨h.closed t hdel', h.deleting t hdel'⟩
  · exact ⟨by simpa using hw' hcar.1 hcar.2.1, by simpa using hcar.2.1, by simpa using hcar.2.2⟩
  · exact h.here t d hl (by simpa [Fetches] using hf)

end Moves

/-! ## whole steps -/

section Step

variable {s s' : Fpc} {r : Reg} {l : Act} {t d c : Nat}

theorem OneCall.oneApp (h : OneCall s l) : OneApp s l := by
  cases l with
  | parameterizeChannel t c a =>
      intro t' happ
      refine h t' fun hpc => ?_
      simp [ApiThread.app, hpc] at happ
  | _ => trivial

theorem OneCall.closes (h : OneCall s l) (hl : Closes t c l) :
    ∀ t', (s.thread t').pc ≠ .idle → (s.thread t').ch ≠ c := by
  cases hl with
  | close => exact h
  | refuse a ha => exact h

/-- While nobody holds the mutex, the sampling thread of a channel is in the
map under the period of the channel. -/
theorem Fits.thrMap_owner (h : Fits s r) (hmtx : s.mtxThrMap = none) (ho : r.owner c = some d) :
    s.thrMap (s.cl c).periodicIncNs = some d := by
  obtain ⟨hd, hper⟩ := h.settled.owner c d ho
  have hmem := (h.settled.closures d hd c).mpr ho
  rw [← hper]
  refine h.mapped.mapped hmtx hd fun hdone => ?_
  rw [(h.mapped.done d hd hdone).1] at hmem
  cases hmem

/-- A job under way belongs to a call. -/
theorem Jobs.busy (h : Jobs s r) (hl : r.loc t = .queue d ∨ r.loc t = .hand d) :
    (s.thread t).pc ≠ .idle :=
  ApiPc.busy_of_working (ApiPc.working_of_sent
    (h.sent t (by obtain hl | hl := hl <;> simp [hl])).1)

/-- The sampling thread that books a job has it in its hands. -/
theorem Jobs.books_hand (h : Jobs s r) (hd : d < s.nrDescr) (hb : (s.descr d).pc.books = some t) :
    r.loc t = .hand d := by
  refine (h.hand d hd t).mp ?_
  cases hpc : (s.descr d).pc <;> simp_all [SamplerPc.books, SamplerPc.held]

/-- The channel of a job that is about to be submitted to fetch it belongs
to a sampling thread. -/
theorem Owned.owner_of_fetch (h : Owned s r) (hj : Jobs s r) {p : UInt64}
    (hpc : (s.thread t).pc = .route p)
    (hf : (s.thread t).job.type = .deleteChannel ∨ (s.thread t).job.type = .moveChannel ∧
      (s.cl (s.thread t).ch).isRefCounted = true) : r.owner (s.thread t).ch ≠ none := by
  have hbusy : (s.thread t).pc ≠ .idle := by simp [hpc]
  obtain hdel | ⟨htype, href⟩ := hf
  · exact h.deleting t ⟨by rw [hpc]; rfl, hdel, hj.fresh t p (.inr hpc)⟩
  · obtain ⟨t', hch, hw, -, hcar⟩ | ho := h.owned _ href
    · obtain rfl := h.uniq t' t (ApiPc.busy_of_working hw) hbusy hch
      obtain hins | ⟨-, d', hd', hb⟩ := hcar
      · rw [htype] at hins
        contradiction
      · have hloc := hj.books_hand hd' hb
        rw [hj.loc_eq (by rw [hpc]; rfl)] at hloc
        contradiction
    · exact ho

/-- Such a job is submitted to the sampling thread that has the channel. -/
theorem Owned.routed (h : Owned s r) (hr : Fits s r) {p : UInt64}
    (hpc : (s.thread t).pc = .route p) (hmtx : s.mtxThrMap = none)
    (hf : (s.thread t).job.type = .deleteChannel ∨ (s.thread t).job.type = .moveChannel ∧
      (s.cl (s.thread t).ch).isRefCounted = true) :
    ∃ d', s.thrMap p = some d' ∧ r.owner (s.thread t).ch = some d' := by
  obtain ⟨d', ho⟩ := Option.ne_none_iff_exists'.mp (h.owner_of_fetch hr.jobs hpc hf)
  have hmap := hr.thrMap_owner hmtx ho
  rw [← h.route t p hpc] at hmap
  exact ⟨d', hmap, ho⟩

/-- The file of a channel is open: its job is about to insert it. -/
theorem Owned.ref (h : Owned s r) (hj : Jobs s r) (hcar : s.Carries t)
    (htype : (s.thread t).job.type = .insertChannel) (hch : (s.thread t).ch = c)
    {k : FPCClosure} (hper : k.periodicIncNs = (s.cl c).periodicIncNs) :
    Owned (s.setCl c k) r := by
  have hbusy := ApiPc.busy_of_working hcar.1
  constructor
  · exact h.uniq
  · intro t' p hpc
    have hold := h.route t' p hpc
    simp only [setCl, Function.update_apply]
    grind
  · intro t' hdel
    have hold := h.closed t' hdel
    have hne : (s.thread t').ch ≠ c := by
      intro hc
      obtain rfl := h.uniq t' t (ApiPc.busy_of_working hdel.1) hbusy (hc.trans hch.symm)
      have htype' := hdel.2.1
      simp [htype] at htype'
    simpa [hne] using hold
  · intro c' hc'
    by_cases hc : c' = c
    · exact .inl ⟨t, by simp [hch, hc], hcar⟩
    · exact h.owned c' (by simpa [hc] using hc')
  · exact h.deleting
  · intro t' d' hl hf
    refine h.here t' d' hl ?_
    obtain hdel | ⟨hmove, href, hb⟩ := hf
    · exact .inl hdel
    · have hne : (s.thread t').ch ≠ c := by
        intro hc
        obtain rfl := h.uniq t' t (hj.busy hl) hbusy (hc.trans hch.symm)
        have hmove' : (s.thread t').job.type = .moveChannel := hmove
        simp [htype] at hmove'
      exact .inr ⟨hmove, by simpa [hne] using href, hb⟩

theorem Owned.callStep (h : Owned s r) (hr : Fits s r) (hok : OneCall s l)
    (hs : CallMove s l s') : Owned s' (r.next s l) := by
  have hj := hr.jobs
  cases hs with
  | openChannel t c ok hidle hmade =>
      have hne : ∀ t', (s.thread t').pc ≠ .idle → (s.thread t').ch ≠ c := by
        rintro t' hb rfl
        rw [hr.settled.made t' hb] at hmade
        contradiction
      have h1 := h.cl (c := c) (k := .init) (.inr fun t' p hpc => hne t' (by simp [hpc]))
        (by simp [FPCClosure.init])
      refine h1.thread (fun _ t' _ hb => hne t' hb) (by simp) (by simp [ApiThread.deletes, ApiPc.working])
        (fun hcar => ?_) (fun d hl => ?_)
      · exact absurd hidle (ApiPc.busy_of_working hcar.1)
      · exact absurd hidle (hj.busy hl)
  | param t c a p hidle hhandle hreq =>
      refine h.thread (fun _ t' _ hb => hok t' hb) (by simp) (by simp [ApiThread.deletes])
        (fun hcar => ?_) (fun d hl => ?_)
      · exact absurd hidle (ApiPc.busy_of_working hcar.1)
      · exact absurd hidle (hj.busy hl)
  | refuse t c a hreq => exact h
  | close t c l hl hidle hmade href =>
      have hnext : r.next s l = r := by cases hl <;> rfl
      rw [hnext]
      refine h.thread (fun _ t' _ hb => hok.closes hl t' hb) (by simp)
        (by simp [ApiThread.deletes, ApiPc.working]) (fun hcar => ?_) (fun d hl => ?_)
      · exact absurd hidle (ApiPc.busy_of_working hcar.1)
      · exact absurd hidle (hj.busy hl)
  | closeAgain t c l hl hidle hmade href =>
      have hnext : r.next s l = r := by cases hl <;> rfl
      rw [hnext]
      refine h.thread (fun _ t' _ hb => hok.closes hl t' hb) (by simp)
        (by simp [ApiThread.deletes, ApiPc.working]) (fun hcar => ?_) (fun d hl => ?_)
      · exact absurd hidle (ApiPc.busy_of_working hcar.1)
      · exact absurd hidle (hj.busy hl)

theorem Owned.apiStep (h : Owned s r) (hr : Fits s r) (hg : Flagged s)
    (hs : ApiMove s l s') : Owned s' (r.next s l) := by
  have hj := hr.jobs
  cases hs with
  | openFailed t hpc =>
      have h1 := h.goOn (t := t) (q := .idle) (by simp) (by simp) (by simp [ApiPc.working])
        (by simp [hpc, ApiPc.working])
      simpa [Reg.next, hpc] using h1
  | opened t hpc =>
      have hbusy : (s.thread t).pc ≠ .idle := by simp [hpc]
      have h1 : Owned (s.setThread t ⟨.submit, (s.thread t).ch, ⟨.insertChannel, -1, 0⟩⟩) r := by
        refine h.thread (fun _ t' hne hb hch => ?_) (by simp) (by simp [ApiThread.deletes])
          (fun hcar => ?_) (fun d hl => ?_)
        · exact hne (h.uniq t' t hb hbusy hch)
        · have hw := hcar.1
          simp [hpc, ApiPc.working] at hw
        · obtain hl | hl := hl <;> rw [hj.loc_eq (by rw [hpc]; rfl)] at hl <;> cases hl
      have hj1 := hj.goOn (a := ⟨.submit, (s.thread t).ch, ⟨.insertChannel, -1, 0⟩⟩)
        (by rw [hpc]; rfl) (.inl rfl)
      have h2 := h1.ref (t := t) (c := (s.thread t).ch)
        (k := { s.cl (s.thread t).ch with base := .opened, isRefCounted := true }) hj1
        (by simp [Carries, ApiPc.working]) (by simp) (by simp) rfl
      exact h2.congr rfl rfl rfl rfl (by simp [Reg.next, hpc]) (by simp [Reg.next, hpc])
  | submit t hpc =>
      have h1 := h.goOn (t := t) (q := .route (s.cl (s.thread t).ch).periodicIncNs)
        (by simp [hpc]) (by simp) (by simp [hpc, ApiPc.working]) (by simp [ApiPc.working])
      simpa [Reg.next, hpc] using h1
  | routeFound t p d hpc hmtx hd =>
      have h1 := h.descr (d := d) (k := { s.descr d with jQueue := (s.descr d).jQueue ++ [t] })
        (fun _ hb => .inl hb)
      have h2 := h1.goOn (t := t) (q := .wait) (by simp [hpc]) (by simp)
        (by simp [hpc, ApiPc.working]) (by simp [ApiPc.working])
      have h3 := h2.put (t := t) (x := .queue d) (fun d' hd' hf => by
        obtain rfl : d = d' := by simpa using hd'
        obtain ⟨d₁, hmap, ho⟩ := h.routed hr hpc hmtx
          (hf.imp (by simp) fun hf => ⟨by simpa using hf.1, by simpa using hf.2.1⟩)
        obtain rfl : d = d₁ := by simpa [hd] using hmap
        simpa using ho)
      simpa [Reg.next, Reg.route, hpc, hd] using h3
  | routeNew t p hpc hmtx hd htype =>
      have h1 := h.new (t := t) hj (s.cl (s.thread t).ch).periodicIncNs
      have h2 := h1.goOn (t := t) (q := .insertMap p s.nrDescr) (by simp [hpc]) (by simp)
        (by simp [hpc, ApiPc.working]) (by simp [ApiPc.working])
      have h3 := h2.put (t := t) (x := .queue s.nrDescr) (fun d' _ hf => by
        obtain ⟨d₁, hmap, -⟩ := h.routed hr hpc hmtx
          (hf.imp (by simp) fun hf => ⟨by simpa using hf.1, by simpa using hf.2.1⟩)
        simp [hd] at hmap)
      exact h3.congr rfl rfl rfl rfl (by simp [Reg.next, Reg.route, hpc, hd, htype])
        (by simp [Reg.next, Reg.route, Reg.put, hpc, hd, htype])
  | routeLost t p hpc hmtx hd htype =>
      obtain ⟨d', hmap, -⟩ := h.routed hr hpc hmtx (.inl htype)
      simp [hd] at hmap
  | insertMap t p d hpc =>
      have h1 := h.goOn (t := t) (q := .wait) (by simp [hpc]) (by simp)
        (by simp [hpc, ApiPc.working]) (by simp [ApiPc.working])
      exact h1.congr rfl rfl rfl rfl (by simp [Reg.next, hpc]) (by simp [Reg.next, hpc])
  | returned t hpc hsig htype =>
      have h1 := h.goOn (t := t) (q := .idle) (by simp) (by simp) (by simp [ApiPc.working])
        (fun _ h0 => absurd h0 hsig)
      have h2 := h1.cl (c := (s.thread t).ch) (k := { s.cl (s.thread t).ch with handle := true })
        (.inl rfl) id
      simpa [Reg.next, hpc] using h2
  | deleted t hpc hsig htype =>
      have h1 := h.goOn (t := t) (q := .closing) (by simp [hpc]) (by simp) (by simp [ApiPc.working])
        (fun _ h0 => absurd h0 hsig)
      simpa [Reg.next, hpc] using h1
  | countOut t hpc =>
      have h1 := h.goOn (t := t) (q := .clear) (by simp [hpc]) (by simp) (by simp [ApiPc.working])
        (by simp [hpc, ApiPc.working])
      exact h1.congr rfl rfl rfl rfl (by simp [Reg.next, hpc]) (by simp [Reg.next, hpc])
  | clear t hpc =>
      have hbusy : (s.thread t).pc ≠ .idle := by simp [hpc]
      have hown : r.owner (s.thread t).ch ≠ none := by
        obtain ⟨t', hch, hcar⟩ | ho := h.owned _ (hg t (by rw [hpc]; rfl))
        · obtain rfl := h.uniq t' t (ApiPc.busy_of_working hcar.1) hbusy hch
          have hw := hcar.1
          simp [hpc, ApiPc.working] at hw
        · exact ho
      have h1 := h.cl (c := (s.thread t).ch) (k := { s.cl (s.thread t).ch with
        isRefCounted := false }) (.inl rfl) (by simp)
      have h2 := h1.thread (t := t) (a := ⟨.submit, (s.thread t).ch, ⟨.deleteChannel, -1, 0⟩⟩)
        (fun _ t' hne hb hch => hne (h.uniq t' t hb hbusy hch)) (by simp)
        (fun _ => ⟨by simp, hown⟩) (fun hcar => ?_) (fun d hl => ?_)
      · exact h2.congr rfl rfl rfl rfl (by simp [Reg.next, hpc]) (by simp [Reg.next, hpc])
      · have hw := hcar.1
        simp [hpc, ApiPc.working] at hw
      · obtain hl | hl := hl <;> rw [hj.loc_eq (by rw [hpc]; rfl)] at hl <;> cases hl
  | closing t hpc =>
      have h1 := h.goOn (t := t) (q := .idle) (by simp) (by simp) (by simp [ApiPc.working])
        (by simp [hpc, ApiPc.working])
      have h2 := h1.cl (c := (s.thread t).ch) (k := { s.cl (s.thread t).ch with
        base := (s.cl (s.thread t).ch).base.closeChannel }) (.inl rfl) id
      simpa [Reg.next, hpc] using h2

theorem Owned.loopStep (h : Owned s r) (hr : Fits s r)
    (hs : LoopMove s l s') : Owned s' (r.next s l) := by
  have hj := hr.jobs
  cases hs with
  | goto d now ts pc hd hgo =>
      have hpc : (s.descr d).pc.books = none ∧ r.next s (.sampler d now) = r := by
        cases hgo with
        | start hpc | sampled _ hpc | accounted hpc | snooze hpc | noJob hpc | remove hpc
        | clock hpc | due hpc | notDue hpc => simp [hpc, SamplerPc.books, Reg.next]
      rw [hpc.2]
      exact h.descr (by simp [hpc.1])
  | sample d now seen c rest hd hpc =>
      have h1 := h.cl (c := c) (k := (s.cl c).sample now) (.inl rfl) id
      have h2 := h1.descr (d := d) (k := { s.descr d with pc := .sample (seen ++ [c]) rest })
        (by simp [hpc, SamplerPc.books])
      simpa [Reg.next, hpc] using h2
  | account d now c rest hd hpc =>
      have hk := (s.cl c).books_account
      have h1 := h.cl (c := c) (.inl hk.periodicIncNs) (by rw [hk.isRefCounted]; exact id)
      have h2 := h1.descr (d := d) (k := { s.descr d with pc := .account rest })
        (by simp [hpc, SamplerPc.books])
      simpa [Reg.next, hpc] using h2
  | job d now left j q hd hpc hq =>
      have hloc : r.loc j = .queue d := (hj.queue d hd j).mp (by rw [hq]; exact List.mem_cons_self)
      have h1 := h.descr (d := d) (k := { s.descr d with jQueue := q, pc := .take left j })
        (by simp [hpc, SamplerPc.books])
      have h2 := h1.put (t := j) (x := .hand d) (fun d' hd' hf => by
        obtain rfl : d = d' := by simpa using hd'
        exact h1.here j d (.inl hloc) hf)
      simpa [Reg.next, hpc, hq] using h2
  | keep d now fs hd hpc hmtx hfs =>
      have h1 := h.descr (d := d) (k := { s.descr d with pc := .clock })
        (by simp [hpc, SamplerPc.books])
      exact h1.congr rfl rfl rfl rfl (by simp [Reg.next, hpc]) (by simp [Reg.next, hpc])
  | removed d now d' hd hpc hmtx hd' hq hc =>
      have h1 := h.descr (d := d) (k := { s.descr d with pc := .done })
        (by simp [hpc, SamplerPc.books])
      exact h1.congr rfl rfl rfl rfl (by simp [Reg.next, hpc]) (by simp [Reg.next, hpc])

theorem Owned.takeStep (h : Owned s r) (hr : Fits s r)
    (hs : TakeMove s l s') : Owned s' (r.next s l) := by
  have hj := hr.jobs
  cases hs with
  | takeInsert d now left j hd hpc htype =>
      have hk := (s.cl (s.thread j).ch).books_logHeader
      have h1 := h.cl (c := (s.thread j).ch) (k := (s.cl (s.thread j).ch).logHeader.exchange)
        (.inl hk.periodicIncNs) (fun hh => hk.isRefCounted.symm.trans hh)
      have h2 := h1.descr (d := d) (k := { s.descr d with
        pc := .book left j (s.cl (s.thread j).ch).ctr }) (by simp [hpc, SamplerPc.books])
      simpa [Reg.next, hpc, htype] using h2
  | takeMove d now left j hd hpc htype hc =>
      have hheld : (s.descr d).pc.held = some j := by rw [hpc]; rfl
      obtain ⟨hsent, hsig⟩ := hj.held_sent hd hheld
      have hw := ApiPc.working_of_sent hsent
      have hloc := (hj.hand d hd j).mp hheld
      have h1 := h.cl (c := (s.thread j).ch) (k := (s.cl (s.thread j).ch).exchange) (.inl rfl) id
      have h2 := h1.descr (d := d) (k := { s.descr d with
        closures := (s.descr d).closures.erase (s.thread j).ch
        pc := .book left j (s.cl (s.thread j).ch).ctr }) (by simp [hpc, SamplerPc.books])
      have h3 := h2.give (c := (s.thread j).ch) (o := none) (fun _ => .inl ⟨j, rfl, ?_⟩)
        (fun t' hch hdel => ?_) (fun t' d' hch hl hf => ?_)
      · simpa [Reg.next, hpc, htype, hc] using h3
      · exact ⟨hw, hsig, .inr ⟨htype, d, hd, by simp [SamplerPc.books]⟩⟩
      · obtain rfl := h.uniq t' j (ApiPc.busy_of_working hdel.1) (ApiPc.busy_of_working hw) hch
        have htype' : (s.thread t').job.type = .deleteChannel := hdel.2.1
        simp [htype] at htype'
      · obtain rfl := h.uniq t' j (hj.busy hl) (ApiPc.busy_of_working hw) hch
        obtain rfl : d = d' := by simpa [hloc] using hl
        obtain hdel | ⟨-, -, hb⟩ := hf
        · have hdel' : (s.thread t').job.type = .deleteChannel := hdel
          simp [htype] at hdel'
        · simp [SamplerPc.books] at hb
  | takeMissing d now left j hd hpc htype hc =>
      have hheld : (s.descr d).pc.held = some j := by rw [hpc]; rfl
      have hloc := (hj.hand d hd j).mp hheld
      have h1 := h.signal (t := j) (fun hcar _ => by
        obtain hins | ⟨-, d', hd', hb⟩ := hcar.2.2
        · simp [htype] at hins
        · have hloc' := hj.books_hand hd' hb
          obtain rfl : d = d' := by simpa [hloc] using hloc'
          simp [hpc, SamplerPc.books] at hb)
      have h2 := h1.put (t := j) (x := .nowhere) (by simp)
      have h3 := h2.descr (d := d) (k := { s.descr d with pc := .jobs left })
        (by simp [signalCompletion, hpc, SamplerPc.books])
      exact h3.congr rfl rfl rfl rfl (by simp [Reg.next, hpc, htype, hc])
        (by simp [Reg.next, hpc, htype, hc])
  | takeDelete d now left j hd hpc htype =>
      have h1 := h.cl (c := (s.thread j).ch) (k := { (s.cl (s.thread j).ch).exchange with
        callsAtDelete := (s.cl (s.thread j).ch).calls }) (.inl rfl) id
      have h2 := h1.descr (d := d) (k := { s.descr d with
        pc := .book left j (s.cl (s.thread j).ch).ctr }) (by simp [hpc, SamplerPc.books])
      simpa [Reg.next, hpc, htype] using h2

theorem Owned.bookStep (h : Owned s r) (hr : Fits s r)
    (hs : BookMove s l s') : Owned s' (r.next s l) := by
  have hj := hr.jobs
  cases hs with
  | bookInsert d now left j ev hd hpc htype =>
      have hheld : (s.descr d).pc.held = some j := by rw [hpc]; rfl
      have hw := ApiPc.working_of_sent (hj.held_sent hd hheld).1
      have h1 := h.give (c := (s.thread j).ch) (o := some d) (by simp) (by simp)
        (fun t' d' hch hl hf => by
          obtain rfl := h.uniq t' j (hj.busy hl) (ApiPc.busy_of_working hw) hch
          simp [Fetches, htype] at hf)
      have h2 := h1.signal (t := j) (by simp [Reg.give])
      have h3 := h2.put (t := j) (x := .nowhere) (by simp)
      have h4 := h3.descr (d := d) (k := { (s.descr d).insert (s.thread j).ch with pc := .jobs left })
        (fun t' hb => .inr ?_)
      · have hk := (s.cl (s.thread j).ch).books_bookInsert now ev
        have h5 := h4.cl (c := (s.thread j).ch) (.inl hk.periodicIncNs)
          (fun hh => hk.isRefCounted.symm.trans hh)
        exact h5.congr rfl rfl rfl rfl (by simp [Reg.next, Reg.give, Reg.put, hpc, htype])
          (by simp [Reg.next, Reg.give, Reg.put, hpc, htype])
      · obtain rfl : j = t' := by simpa [signalCompletion, hpc, SamplerPc.books] using hb
        simp [signalCompletion, htype]
  | bookMove d now left j ev hd hpc htype =>
      have hheld : (s.descr d).pc.held = some j := by rw [hpc]; rfl
      obtain ⟨hsent, hsig⟩ := hj.held_sent hd hheld
      have hw := ApiPc.working_of_sent hsent
      let a : ApiThread := { s.thread j with
        job := { (s.thread j).job with type := .insertChannel, curPeriodicIncNs := -1 } }
      have h1 : Owned (s.setThread j a) r := by
        refine h.thread (fun hb t' hne hb' hch => ?_) (h.route j) (by simp [a, ApiThread.deletes])
          (fun _ _ => .inl ⟨?_, rfl⟩) (by simp [a, Fetches])
        · exact hne (h.uniq t' j hb' hb hch)
        · simp [a, Carries, hw, hsig]
      have h2 := h1.descr (d := d) (k := { s.descr d with pc := .submit left j })
        (fun t' hb => .inr ?_)
      · have hk := (s.cl (s.thread j).ch).books_bookMove now ev (s.thread j).job.curPeriodicIncNs
        have h3 := h2.cl (c := (s.thread j).ch)
          (k := (s.cl (s.thread j).ch).bookMove now ev (s.thread j).job.curPeriodicIncNs)
          (.inr fun t' p hpc' hch => ?_) (fun hh => hk.isRefCounted.symm.trans hh)
        · simpa [Reg.next, hpc, htype, a] using h3
        · obtain rfl := h2.uniq t' j (by rw [hpc']; simp)
            (by simpa [a] using ApiPc.busy_of_working hw) (by simpa [a] using hch)
          simp only [setDescr, setThread, Function.update_self, a] at hpc'
          simp [hpc', ApiPc.sent] at hsent
      · obtain rfl : j = t' := by simpa [hpc, SamplerPc.books] using hb
        simp [a]
  | bookDelete d now left j ev hd hpc htype hc =>
      have hheld : (s.descr d).pc.held = some j := by rw [hpc]; rfl
      obtain ⟨hsent, hsig⟩ := hj.held_sent hd hheld
      have hw := ApiPc.working_of_sent hsent
      have hclosed := h.closed j ⟨hw, htype, hsig⟩
      have h1 := h.signal (t := j) (fun hcar => by simp [Carries, htype] at hcar)
      have h2 := h1.put (t := j) (x := .nowhere) (by simp)
      have h3 := h2.descr (d := d) (k := { s.descr d with
        closures := (s.descr d).closures.erase (s.thread j).ch, pc := .jobs left })
        (fun t' hb => .inr ?_)
      · have hk := (s.cl (s.thread j).ch).books_bookDelete now ev
        have h4 := h3.cl (c := (s.thread j).ch)
          (k := (s.cl (s.thread j).ch).bookDelete now ev) (.inl hk.periodicIncNs)
          (fun hh => hk.isRefCounted.symm.trans hh)
        have h5 := h4.give (c := (s.thread j).ch) (o := none) ?_ ?_ ?_
        · exact h5.congr rfl rfl rfl rfl (by simp [Reg.next, Reg.give, Reg.put, hpc, htype, hc])
            (by simp [Reg.next, Reg.give, Reg.put, hpc, htype, hc])
        · simp [hk.isRefCounted, hclosed]
        · intro t' hch hdel
          obtain rfl := h4.uniq t' j (ApiPc.busy_of_working hdel.1)
            (by simpa [signalCompletion] using ApiPc.busy_of_working hw)
            (by simpa [signalCompletion] using hch)
          simp [ApiThread.deletes, signalCompletion] at hdel
        · intro t' d' hch hl hf
          have hne : t' ≠ j := by
            rintro rfl
            simp [Reg.put] at hl
          have hl' : r.loc t' = .queue d' ∨ r.loc t' = .hand d' := by simpa [Reg.put, hne] using hl
          have hch' : (s.thread t').ch = (s.thread j).ch := by simpa [signalCompletion, hne] using hch
          exact absurd (h.uniq t' j (hj.busy hl') (ApiPc.busy_of_working hw) hch') hne
      · obtain rfl : j = t' := by simpa [signalCompletion, hpc, SamplerPc.books] using hb
        simp [signalCompletion, htype]
  | bookDeleteMissing d now left j ev hd hpc htype hc =>
      have hheld : (s.descr d).pc.held = some j := by rw [hpc]; rfl
      have ho := h.here j d (.inr ((hj.hand d hd j).mp hheld)) (.inl htype)
      exact absurd ((hr.settled.closures d hd _).mpr ho) hc

theorem Owned.passStep (h : Owned s r) (hr : Fits s r)
    (hs : PassMove s l s') : Owned s' (r.next s l) := by
  have hj := hr.jobs
  cases hs with
  | passOn d now left j hd hpc =>
      have h1 := h.descr (d := d) (k := { s.descr d with
        pc := .route left j (s.cl (s.thread j).ch).periodicIncNs }) (by simp [hpc, SamplerPc.books])
      simpa [Reg.next, hpc] using h1
  | passFound d now left j p d' hd hpc hmtx hd' hne =>
      have htype := hj.passes d hd j (by rw [hpc]; rfl)
      have h1 := h.put (t := j) (x := .queue d') (by simp [Fetches, htype])
      have h2 := h1.descr (d := d) (k := { s.descr d with pc := .jobs left })
        (by simp [hpc, SamplerPc.books])
      have h3 := h2.descr (d := d') (k := { s.descr d' with jQueue := (s.descr d').jQueue ++ [j] })
        (fun t' hb => .inl (by simpa [hne] using hb))
      refine h3.congr ?_ rfl rfl rfl ?_ ?_
      · simp [Function.update_comm hne]
      · simp [Reg.next, Reg.route, hpc, hd']
      · simp [Reg.next, Reg.route, hpc, hd']
  | passSelf d now left j p hd hpc hmtx hd' =>
      have htype := hj.passes d hd j (by rw [hpc]; rfl)
      have h1 := h.put (t := j) (x := .queue d) (by simp [Fetches, htype])
      have h2 := h1.descr (d := d) (k := { s.descr d with
        jQueue := (s.descr d).jQueue ++ [j], pc := .jobs left }) (by simp [hpc, SamplerPc.books])
      simpa [Reg.next, Reg.route, hpc, hd'] using h2
  | passNew d now left j p hd hpc hmtx hd' =>
      have htype := hj.passes d hd j (by rw [hpc]; rfl)
      have hne := Nat.ne_of_lt hd
      have h1 := h.new (t := j) hj (s.cl (s.thread j).ch).periodicIncNs
      have h2 := h1.put (t := j) (x := .queue s.nrDescr) (by simp [Fetches, htype])
      have h3 := h2.descr (d := d) (k := { s.descr d with pc := .insertMap left p s.nrDescr })
        (by simp [hne, hpc, SamplerPc.books])
      refine h3.congr rfl rfl rfl rfl ?_ ?_
      · simp [Reg.next, Reg.route, hpc, hd', htype]
      · simp [Reg.next, Reg.route, hpc, hd', htype]
  | passMap d now left p d' hd hpc =>
      have h1 := h.descr (d := d) (k := { s.descr d with pc := .jobs left })
        (by simp [hpc, SamplerPc.books])
      exact h1.congr rfl rfl rfl rfl (by simp [Reg.next, hpc]) (by simp [Reg.next, hpc])

/-- **Every move keeps the channels with their sampling threads.** -/
theorem Owned.step (h : Owned s r) (hr : Fits s r) (hg : Flagged s) (hok : OneCall s l)
    (hs : Move s l s') : Owned s' (r.next s l) := by
  cases hs with
  | call hs => exact h.callStep hr hok hs
  | api hs => exact h.apiStep hr hg hs
  | handler c hmade => exact h.cl (.inl rfl) id
  | loop hs => exact h.loopStep hr hs
  | take hs => exact h.takeStep hr hs
  | book hs => exact h.bookStep hr hs
  | pass hs => exact h.passStep hr hs

/-- A channel is counted with a closure that was made. -/
theorem Owned.made (ho : Owned s r) (hr : Fits s r) (hopen : (s.cl c).isRefCounted = true) :
    (s.cl c).made = true := by
  obtain ⟨t, rfl, hcar⟩ | howner := ho.owned c hopen
  · exact hr.settled.made t (ApiPc.busy_of_working hcar.1)
  · by_contra hmade
    exact howner (hr.settled.unmade c (Bool.eq_false_iff.mpr hmade))

theorem ApiPc.busy_of_counts {pc : ApiPc} (h : pc.counts = true) : pc ≠ .idle := by
  cases pc <;> simp_all [ApiPc.counts]

/-- **A channel keeps its flag while a call counts it out.** -/
theorem Flagged.step (h : Flagged s) (hr : Fits s r) (ho : Owned s r) (hs : Move s l s') :
    Flagged s' := by
  intro t' hc
  cases hs.countMove with
  | opens t c ok hl hidle hmade hs' =>
      subst hs'
      by_cases ht : t' = t
      · simp [ht, ApiPc.counts] at hc
      · have hc' : (s.thread t').pc.counts = true := by simpa [ht] using hc
        have hne : (s.thread t').ch ≠ c := fun hch => by
          rw [← hch, hr.settled.made t' (ApiPc.busy_of_counts hc')] at hmade
          cases hmade
        simpa [ht, hne] using h t' hc'
  | opened t hl hpc hs' =>
      subst hs'
      by_cases ht : t' = t
      · simp [ht, ApiPc.counts] at hc
      · have hflag := h t' (by simpa [ht] using hc)
        by_cases hch : (s.thread t').ch = (s.thread t).ch
        · simp [ht, hch]
        · simpa [ht, hch] using hflag
  | found t c hl hidle href hs' =>
      subst hs'
      by_cases ht : t' = t
      · simpa [ht] using href
      · simpa [ht] using h t' (by simpa [ht] using hc)
  | countOut t hl hpc hs' =>
      subst hs'
      by_cases ht : t' = t
      · simpa [ht] using h t (by rw [hpc]; rfl)
      · simpa [ht] using h t' (by simpa [ht] using hc)
  | clear t hl hpc hs' =>
      subst hs'
      by_cases ht : t' = t
      · simp [ht, ApiPc.counts] at hc
      · have hc' : (s.thread t').pc.counts = true := by simpa [ht] using hc
        -- no other call on the channel is under way
        have hne : (s.thread t').ch ≠ (s.thread t).ch := fun hch =>
          ht (ho.uniq t' t (ApiPc.busy_of_counts hc') (by simp [hpc]) hch)
        simpa [ht, hne] using h t' hc'
  | same _ _ hcl hthread =>
      obtain ⟨hpc, hch⟩ := hthread t' (.inr hc)
      rw [hch, (hcl _).2]
      exact h t' (hpc ▸ hc)

/-- A sampling thread that has left does nothing, and nothing gets to it. -/
theorem Move.done_eq (hm : Mapped s r) (hd : d < s.nrDescr) (hdone : (s.descr d).pc = .done)
    (hs : Move s l s') : s'.descr d = s.descr d := by
  have hmap : ∀ p d', s.thrMap p = some d' → d ≠ d' := by
    rintro p d' hp rfl
    exact (hm.registered p d hp).2.2 hdone
  have hne : ∀ d', (s.descr d').pc ≠ .done → d ≠ d' := by
    rintro d' hpc rfl
    exact hpc hdone
  cases hs with
  | call hs => cases hs <;> rfl
  | api hs =>
      cases hs with
      | routeFound t p d' hpc hmtx hp => simp [hmap p d' hp]
      | routeNew t p hpc => simp [Nat.ne_of_lt hd]
      | _ => rfl
  | handler => rfl
  | loop hs =>
      cases hs with
      | goto d' now ts pc hd' hgo =>
          have hpc : (s.descr d').pc ≠ .done := by
            cases hgo with
            | start hpc | sampled _ hpc | accounted hpc | snooze hpc | noJob hpc | remove hpc
            | clock hpc | due hpc | notDue hpc => simp [hpc]
          simp [hne d' hpc]
      | job d' now left j q hd' hpc => simp [hne d' (by simp [hpc])]
      | sample d' now seen c' rest hd' hpc => simp [hne d' (by simp [hpc])]
      | account d' now c' rest hd' hpc => simp [hne d' (by simp [hpc])]
      | keep d' now fs hd' hpc => simp [hne d' (by simp [hpc])]
      | removed d' now d₁ hd' hpc => simp [hne d' (by simp [hpc])]
  | take hs =>
      cases hs with
      | takeInsert d' now left j hd' hpc | takeMove d' now left j hd' hpc
      | takeMissing d' now left j hd' hpc | takeDelete d' now left j hd' hpc =>
          simp [hne d' (by simp [hpc]), signalCompletion]
  | book hs =>
      cases hs with
      | bookInsert d' now left j ev hd' hpc | bookMove d' now left j ev hd' hpc
      | bookDelete d' now left j ev hd' hpc | bookDeleteMissing d' now left j ev hd' hpc =>
          simp [hne d' (by simp [hpc]), signalCompletion]
  | pass hs =>
      cases hs with
      | passNew d' now left j p hd' hpc => simp [Nat.ne_of_lt hd, hne d' (by simp [hpc])]
      | passFound d' now left j p d₁ hd' hpc hmtx hp =>
          simp [hmap p d₁ hp, hne d' (by simp [hpc])]
      | passOn d' now left j hd' hpc => simp [hne d' (by simp [hpc])]
      | passSelf d' now left j p hd' hpc => simp [hne d' (by simp [hpc])]
      | passMap d' now left p d₁ hd' hpc => simp [hne d' (by simp [hpc])]

/-- What `logFail` may say about a channel: it is closed already and is to
be moved. -/
def OnClosed (s : Fpc) : FPCFail → Prop
  | .notPart c type _ => type = .moveChannel ∧ (s.cl c).isRefCounted = false
  | .noThread _ _ => False
  | .noDescriptor _ | .remaining _ => True

/-- Errors about sampling threads are logged for closed channels only. -/
theorem Owned.fails (h : Owned s r) (hr : Fits s r) (hs : Move s l s') :
    ∀ f ∈ s'.fails, f ∈ s.fails ∨ s.OnClosed f := by
  cases hs with
  | call hs | pass hs => cases hs <;> exact fun f hf => .inl hf
  | api hs =>
      cases hs with
      | routeLost t p hpc hmtx hd htype =>
          obtain ⟨d', hmap, -⟩ := h.routed hr hpc hmtx (.inl htype)
          simp [hd] at hmap
      | _ => exact fun f hf => .inl hf
  | handler => exact fun f hf => .inl hf
  | loop hs =>
      cases hs with
      | keep d now fs hd hpc hmtx hfs =>
          intro f hf
          obtain hold | rfl | rfl := hfs f hf
          · exact .inl hold
          · exact .inr trivial
          · exact .inr trivial
      | _ => exact fun f hf => .inl hf
  | take hs =>
      cases hs with
      | takeMissing d now left j hd hpc htype hc =>
          have hloc := (hr.jobs.hand d hd j).mp (by rw [hpc]; rfl)
          have hclosed : (s.cl (s.thread j).ch).isRefCounted = false := by
            by_contra hne
            have ho := h.here j d (.inr hloc)
              (.inr ⟨htype, by simpa using hne, by simp [hpc, SamplerPc.books]⟩)
            exact hc ((hr.settled.closures d hd _).mpr ho)
          intro f hf
          simp only [setDescr, signalCompletion, setThread, fail, List.mem_append,
            List.mem_singleton] at hf
          exact hf.imp id fun hf => by rw [hf]; exact ⟨rfl, hclosed⟩
      | _ => exact fun f hf => .inl hf
  | book hs =>
      cases hs with
      | bookDeleteMissing d now left j ev hd hpc htype hc =>
          have ho := h.here j d (.inr ((hr.jobs.hand d hd j).mp (by rw [hpc]; rfl))) (.inl htype)
          exact absurd ((hr.settled.closures d hd _).mpr ho) hc
      | _ => exact fun f hf => .inl hf

/-- A channel that is away is in no sampling thread. -/
theorem Fits.away (hr : Fits s r) (ha : s.Away c) : r.owner c = none := by
  obtain ⟨t, rfl, hw, hsig, hins | ⟨hmove, d, hd, hb⟩⟩ := ha
  · refine hr.settled.inserting t ?_ hins hsig
    cases hpc : (s.thread t).pc <;> simp_all [ApiPc.working, ApiThread.app]
  · cases hpc : (s.descr d).pc <;> simp [hpc, SamplerPc.books] at hb
    next n t' ev =>
    subst hb
    exact hr.settled.moving d hd n t' ev hpc hmove

end Step

/-! ## the registry -/

theorem owned_init : Owned init .init := by
  constructor <;> simp [init, Reg.init, ApiThread.deletes, ApiPc.working, FPCClosure.unmade,
    FPCClosure.init]

theorem flagged_init : Flagged init := nofun

theorem reach_owned {s : Fpc} (h : Reach step init OneCall s) :
    ∃ r, Fits s r ∧ Owned s r ∧ Flagged s := by
  refine h.invariant (I := fun s => ∃ r, Fits s r ∧ Owned s r ∧ Flagged s)
    ⟨_, fits_init, owned_init, flagged_init⟩ ?_
  intro s l s' ⟨r, hr, ho, hg⟩ hok hs
  have hm := step_move hs
  exact ⟨_, hr.step hok.oneApp hm, ho.step hr hg hok hm, hg.step hr ho hm⟩

/-- `openChannel` of channel `c` has returned, and `closeChannel` has not
cleared `isRefCounted`. -/
def Open (s : Fpc) (c : Nat) : Prop := (s.cl c).handle = true ∧ (s.cl c).isRefCounted = true

instance (s : Fpc) (c : Nat) : Decidable (s.Open c) := inferInstanceAs (Decidable (_ ∧ _))

/-- **The registry of sampling threads.**  The map has each descriptor under
its period.  An open channel that no job carries is in exactly one sampling
thread, which is in the map under the period of the channel whenever the
mutex of the map is free; a channel that a job carries is in none.  A
sampling thread is in the map until it leaves, and then has no channel and
no job and is never given one.  Errors about sampling threads are logged for
closed channels only. -/
theorem registry {s : Fpc} (h : Reach step init OneCall s) :
    (∀ p d, s.thrMap p = some d →
      d < s.nrDescr ∧ (s.descr d).periodicIncNs = p ∧ (s.descr d).pc ≠ .done) ∧
    (∀ c, s.Open c → ¬ s.Away c → ∃ d < s.nrDescr,
      (∀ d' < s.nrDescr, c ∈ (s.descr d').closures ↔ d' = d) ∧
      (s.mtxThrMap = none → s.thrMap (s.cl c).periodicIncNs = some d)) ∧
    (∀ c, s.Away c → ∀ d < s.nrDescr, c ∉ (s.descr d).closures) ∧
    (∀ d < s.nrDescr, (s.descr d).pc ≠ .done → s.mtxThrMap = none →
      s.thrMap (s.descr d).periodicIncNs = some d) ∧
    (∀ d < s.nrDescr, (s.descr d).pc = .done →
      (s.descr d).closures = [] ∧ (s.descr d).jQueue = []) ∧
    ∀ l s', step s l = some s' →
      (∀ d < s.nrDescr, (s.descr d).pc = .done → s'.descr d = s.descr d) ∧
      ∀ f ∈ s'.fails, f ∈ s.fails ∨ s.OnClosed f := by
  obtain ⟨r, hr, ho, -⟩ := reach_owned h
  refine ⟨hr.mapped.registered, fun c hopen haway => ?_, fun c haway d hd hmem => ?_,
    fun d hd hlive hmtx => hr.mapped.mapped hmtx hd hlive, hr.mapped.done, fun l s' hs => ?_⟩
  · obtain ⟨d, hown⟩ := Option.ne_none_iff_exists'.mp ((ho.owned c hopen.2).resolve_left haway)
    refine ⟨d, (hr.settled.owner c d hown).1, fun d' hd' => ?_, fun hmtx => hr.thrMap_owner hmtx hown⟩
    rw [hr.settled.closures d' hd' c, hown]
    exact ⟨fun he => (Option.some.inj he).symm, fun he => by rw [he]⟩
  · have hown := (hr.settled.closures d hd c).mp hmem
    rw [hr.away haway] at hown
    cases hown
  · exact ⟨fun d hd hdone => (step_move hs).done_eq hr.mapped hd hdone, ho.fails hr (step_move hs)⟩

/-! ## runs of few threads -/

/-- The channel that the step starts to parameterize or close. -/
def Act.called : Act → Option Nat
  | .parameterizeChannel _ c _ | .closeChannel _ c => some c
  | _ => none

/-- `OneCall` among the first `n` threads, which take all steps. -/
def OneCallOf (n : Nat) (s : Fpc) (l : Act) : Prop :=
  (∀ t ∈ l.thread, t < n) ∧
    ∀ c ∈ l.called, ∀ t < n, (s.thread t).pc ≠ .idle → (s.thread t).ch ≠ c

instance (n : Nat) : DecidableRel (OneCallOf n) := fun s l =>
  inferInstanceAs (Decidable ((∀ t ∈ l.thread, t < n) ∧
    ∀ c ∈ l.called, ∀ t < n, (s.thread t).pc ≠ .idle → (s.thread t).ch ≠ c))

theorem OneCallOf.oneCall {s : Fpc} {l : Act} {n : Nat} (h : OneCallOf n s l)
    (hidle : ∀ t, n ≤ t → (s.thread t).pc = .idle) : OneCall s l := by
  have hcall : ∀ c, l.called = some c → ∀ t, (s.thread t).pc ≠ .idle → (s.thread t).ch ≠ c := by
    intro c hc t hbusy
    by_cases ht : t < n
    · exact h.2 c hc t ht hbusy
    · exact absurd (hidle t (Nat.le_of_not_lt ht)) hbusy
  cases l with
  | parameterizeChannel t c a => exact hcall c rfl
  | closeChannel t c => exact hcall c rfl
  | _ => trivial

/-- The threads that take no step are in no call. -/
theorem reach_oneCallOf {s : Fpc} {n : Nat} {ok : Fpc → Act → Prop}
    (h : Reach step init (fun s l => OneCallOf n s l ∧ ok s l) s) :
    Reach step init (fun s l => OneCall s l ∧ ok s l) s :=
  h.mono_of fun _ _ hr hok =>
    ⟨hok.1.oneCall fun _ ht => reach_idle (fun _ _ hl => hl.1.1) hr ht, hok.2⟩

theorem reach_oneCall {s : Fpc} {n : Nat} (h : Reach step init (OneCallOf n) s) :
    Reach step init OneCall s := by
  have hany : Reach step init (fun s l => OneCallOf n s l ∧ anyStep s l) s :=
    h.mono fun _ _ hok => ⟨hok, trivial⟩
  exact (reach_oneCallOf hany).mono fun _ _ hok => hok.1

/-- Channel 0 is opened and given another period; the sampling thread it
is in takes `n` steps for the latter. -/
def movingRun (n : Nat) : List Act :=
  [Act.openChannel 0 0 true] ++ List.replicate 4 (Act.api 0) ++
  List.replicate 7 (Act.sampler 0 .zero) ++ [Act.api 0] ++
  [Act.parameterizeChannel 0 0 ⟨0, 5, fun _ => 0⟩, Act.api 0, Act.api 0] ++
  List.replicate n (Act.sampler 0 .zero)

/-- The channel has arrived at its new sampling thread, which is in the
map. -/
theorem registry_moved : ∃ s, Reach step init OneCall s ∧ s.Open 0 ∧ ∃ d < s.nrDescr,
    (∀ d' < s.nrDescr, 0 ∈ (s.descr d').closures ↔ d' = d) ∧ s.thrMap 5 = some d := by
  obtain ⟨s, hr, hs⟩ : ∃ s, Reach step init (OneCallOf 1) s ∧ decide (s.Open 0 ∧
      (s.thread 0).pc = .idle ∧ s.mtxThrMap = none ∧ (s.cl 0).periodicIncNs = 5) = true :=
    Reach.of_exec_any (movingRun 10 ++ List.replicate 7 (.sampler 1 .zero) ++ [.api 0]) _
      (by decide +kernel)
  obtain ⟨hopen, hidle, hmtx, hper⟩ := of_decide_eq_true hs
  have haway : ¬ s.Away 0 := by
    rintro ⟨t, -, hcar⟩
    refine ApiPc.busy_of_working hcar.1 ?_
    by_cases ht : t = 0
    · rw [ht, hidle]
    · exact reach_idle (fun s l hl => hl.1) hr (by omega : 1 ≤ t)
  obtain ⟨d, hd, huniq, hmap⟩ := (registry (reach_oneCall hr)).2.1 0 hopen haway
  exact ⟨s, reach_oneCall hr, hopen, d, hd, huniq, hper ▸ hmap hmtx⟩

/-- **An open channel may be in no sampling thread**, while a job carries it;
and its sampling thread may run, with no job pending, before it is in the
map. -/
theorem open_channel_carried :
    (∃ s, Reach step init OneCall s ∧ s.Open 0 ∧ ∀ d < s.nrDescr, 0 ∉ (s.descr d).closures) ∧
    ∃ s, Reach step init OneCall s ∧ s.Open 0 ∧ (s.thread 0).pc = .idle ∧
      0 ∈ (s.descr 1).closures ∧ s.thrMap (s.cl 0).periodicIncNs = none := by
  constructor
  · obtain ⟨s, hr, hs⟩ : ∃ s, Reach step init (OneCallOf 1) s ∧
        decide (s.Open 0 ∧ ∀ d < s.nrDescr, 0 ∉ (s.descr d).closures) = true :=
      Reach.of_exec_any (movingRun 6) _ (by decide +kernel)
    exact ⟨s, reach_oneCall hr, of_decide_eq_true hs⟩
  · obtain ⟨s, hr, hs⟩ : ∃ s, Reach step init (OneCallOf 1) s ∧
        decide (s.Open 0 ∧ (s.thread 0).pc = .idle ∧ 0 ∈ (s.descr 1).closures ∧
          s.thrMap (s.cl 0).periodicIncNs = none) = true :=
      Reach.of_exec_any (movingRun 9 ++ List.replicate 7 (.sampler 1 .zero) ++ [.api 0]) _
        (by decide +kernel)
    exact ⟨s, reach_oneCall hr, of_decide_eq_true hs⟩

end Fpc

end CloudProfiler
