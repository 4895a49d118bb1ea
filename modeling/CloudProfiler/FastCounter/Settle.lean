import CloudProfiler.FastCounter.Registry

/-!
# CloudProfiler.FastCounter.Settle

Channels and jobs of the fast periodic counter are where their period says,
as long as the calls that put a channel somewhere do not overlap on it.
Closing a channel may overlap with them.

* `Settled` — the invariant, relative to the abstract view `Reg`;
* `OneApp` — the guard;
* `reach_fits` — every reached state has a view that fits it.
-/

namespace CloudProfiler

namespace Fpc

/-! ## channels -/

/-- Channels and jobs are where their period says.  A channel belongs to at
most one sampling thread, and to none while a job is about to insert it. -/
structure Settled (s : Fpc) (r : Reg) : Prop where
  uniq : ∀ t t', (s.thread t).app → (s.thread t').app → (s.thread t).ch = (s.thread t').ch → t = t'
  route : ∀ t p, (s.thread t).app → (s.thread t).pc = .route p →
    p = (s.cl (s.thread t).ch).periodicIncNs
  queue : ∀ t d, (s.thread t).app → r.loc t = .queue d →
    (s.descr d).periodicIncNs = (s.cl (s.thread t).ch).periodicIncNs
  hand : ∀ t d, (s.thread t).app → r.loc t = .hand d → (s.descr d).pc.passes ≠ some t →
    (s.descr d).periodicIncNs = (s.cl (s.thread t).ch).periodicIncNs
  pass : ∀ d < s.nrDescr, ∀ n t p, (s.descr d).pc = .route n t p →
    p = (s.cl (s.thread t).ch).periodicIncNs
  owner : ∀ c d, r.owner c = some d →
    d < s.nrDescr ∧ (s.descr d).periodicIncNs = (s.cl c).periodicIncNs
  closures : ∀ d < s.nrDescr, ∀ c, c ∈ (s.descr d).closures ↔ r.owner c = some d
  nodup : ∀ d < s.nrDescr, (s.descr d).closures.Nodup
  inserting : ∀ t, (s.thread t).app → (s.thread t).job.type = .insertChannel →
    (s.thread t).job.signals = 0 → r.owner (s.thread t).ch = none
  opening : ∀ t ok, (s.thread t).pc = .openFile ok → r.owner (s.thread t).ch = none
  moving : ∀ d < s.nrDescr, ∀ n t ev, (s.descr d).pc = .book n t ev →
    (s.thread t).job.type = .moveChannel → r.owner (s.thread t).ch = none
  unmade : ∀ c, (s.cl c).made = false → r.owner c = none
  made : ∀ t, (s.thread t).pc ≠ .idle → (s.cl (s.thread t).ch).made = true
  handle : ∀ c, (s.cl c).handle = true → (s.cl c).made = true

section ChannelMoves

variable {s s' : Fpc} {r r' : Reg} {t d c : Nat}

/-- What `Settled` says does not depend on the rest of the state, nor on
the rest of the closures. -/
theorem Settled.congr (h : Settled s r) (hd : s'.descr = s.descr) (hn : s'.nrDescr = s.nrDescr)
    (ht : s'.thread = s.thread) (hp : ∀ c, (s'.cl c).periodicIncNs = (s.cl c).periodicIncNs)
    (hmade : ∀ c, (s'.cl c).made = (s.cl c).made)
    (hh : ∀ c, (s'.cl c).handle = true → (s.cl c).made = true)
    (hl : r'.loc = r.loc) (ho : r'.owner = r.owner) : Settled s' r' := by
  constructor
  · rw [ht]; exact h.uniq
  · simp only [ht, hp]; exact h.route
  · simp only [ht, hd, hp, hl]; exact h.queue
  · simp only [ht, hd, hp, hl]; exact h.hand
  · simp only [ht, hd, hn, hp]; exact h.pass
  · simp only [hd, hn, hp, ho]; exact h.owner
  · simp only [hd, hn, ho]; exact h.closures
  · simp only [hd, hn]; exact h.nodup
  · simp only [ht, ho]; exact h.inserting
  · simp only [ht, ho]; exact h.opening
  · simp only [ht, hd, hn, ho]; exact h.moving
  · simp only [hmade, ho]; exact h.unmade
  · simp only [ht, hmade]; exact h.made
  · simp only [hmade]; exact hh

/-- The channel is logged or counted. -/
theorem Settled.cl (h : Settled s r) {k : FPCClosure}
    (hp : k.periodicIncNs = (s.cl c).periodicIncNs) (hmade : k.made = (s.cl c).made)
    (hh : k.handle = true → (s.cl c).made = true) : Settled (s.setCl c k) r := by
  refine h.congr rfl rfl rfl (fun c' => ?_) (fun c' => ?_) (fun c' => ?_) rfl rfl
  · by_cases hc : c' = c
    · subst hc; simpa using hp
    · simp [hc]
  · by_cases hc : c' = c
    · subst hc; simpa using hmade
    · simp [hc]
  · by_cases hc : c' = c
    · subst hc; simpa using hh
    · simpa [hc] using h.handle c'

theorem Settled.books (h : Settled s r) {k : FPCClosure} (hk : (s.cl c).Books k) :
    Settled (s.setCl c k) r :=
  h.cl hk.periodicIncNs hk.made fun hh => h.handle c (by rwa [hk.handle] at hh)

/-- A job gets somewhere. -/
theorem Settled.put (h : Settled s r) {x : Loc}
    (hq : ∀ d, x = .queue d → (s.thread t).app →
      (s.descr d).periodicIncNs = (s.cl (s.thread t).ch).periodicIncNs)
    (hh : ∀ d, x = .hand d → (s.thread t).app →
      (s.descr d).periodicIncNs = (s.cl (s.thread t).ch).periodicIncNs) :
    Settled s (r.put t x) where
  uniq := h.uniq
  route := h.route
  queue t' d' := by
    have hold := h.queue t' d'
    simp only [Reg.put, Function.update_apply]
    grind
  hand t' d' := by
    have hold := h.hand t' d'
    simp only [Reg.put, Function.update_apply]
    grind
  pass := h.pass
  owner := h.owner
  closures := h.closures
  nodup := h.nodup
  inserting := h.inserting
  opening := h.opening
  moving := h.moving
  unmade := h.unmade
  made := h.made
  handle := h.handle

/-- A sampling thread goes on with the same channels. -/
theorem Settled.descr (h : Settled s r) {k : ThrDescriptor}
    (hc : k.closures = (s.descr d).closures)
    (hper : k.periodicIncNs = (s.descr d).periodicIncNs)
    (hhand : ∀ t, r.loc t = .hand d → (s.thread t).app → k.pc.passes ≠ some t →
      (s.descr d).periodicIncNs = (s.cl (s.thread t).ch).periodicIncNs)
    (hpass : ∀ n t p, k.pc = .route n t p → p = (s.cl (s.thread t).ch).periodicIncNs)
    (hmove : ∀ n t ev, k.pc = .book n t ev → (s.thread t).job.type = .moveChannel →
      r.owner (s.thread t).ch = none) : Settled (s.setDescr d k) r where
  uniq := h.uniq
  route := h.route
  queue t' d' := by
    have hold := h.queue t' d'
    simp only [setDescr, Function.update_apply]
    grind
  hand t' d' := by
    have hold := h.hand t' d'
    simp only [setDescr, Function.update_apply]
    grind
  pass d' hd' n t' p := by
    have hold := h.pass d' hd' n t' p
    simp only [setDescr, Function.update_apply]
    grind
  owner c d' hd' := by
    have hold := h.owner c d' hd'
    simp only [setDescr, Function.update_apply]
    grind
  closures d' hd' c := by
    have hold := h.closures d' hd' c
    simp only [setDescr, Function.update_apply]
    grind
  nodup d' hd' := by
    have hold := h.nodup d' hd'
    simp only [setDescr, Function.update_apply]
    grind
  inserting := h.inserting
  opening := h.opening
  moving d' hd' n t' ev := by
    have hold := h.moving d' hd' n t' ev
    simp only [setDescr, Function.update_apply]
    grind
  unmade := h.unmade
  made := h.made
  handle := h.handle

/-- A thread goes on.  The conditions are those of its new state. -/
theorem Settled.thread (h : Settled s r) {a : ApiThread}
    (hheld : ∀ d < s.nrDescr, (s.descr d).pc.held = some t → a.ch = (s.thread t).ch ∧
      (a.job.type = .moveChannel → (s.thread t).job.type = .moveChannel))
    (huniq : a.app → ∀ t', t' ≠ t → (s.thread t').app → (s.thread t').ch ≠ a.ch)
    (hroute : ∀ p, a.app → a.pc = .route p → p = (s.cl a.ch).periodicIncNs)
    (hloc : a.app → r.loc t = .nowhere ∨ (s.thread t).app ∧ a.ch = (s.thread t).ch)
    (hins : a.app → a.job.type = .insertChannel → a.job.signals = 0 → r.owner a.ch = none)
    (hopen : ∀ ok, a.pc = .openFile ok → r.owner a.ch = none)
    (hmade : a.pc ≠ .idle → (s.cl a.ch).made = true) : Settled (s.setThread t a) r where
  uniq t₁ t₂ := by
    have hold := h.uniq t₁ t₂
    simp only [setThread, Function.update_apply]
    grind
  route t' p := by
    have hold := h.route t' p
    simp only [setThread, Function.update_apply]
    grind
  queue t' d' := by
    have hold := h.queue t' d'
    simp only [setThread, Function.update_apply]
    grind
  hand t' d' := by
    have hold := h.hand t' d'
    simp only [setThread, Function.update_apply]
    grind
  pass d' hd' n t' p hpc := by
    have hpc' : (s.descr d').pc = .route n t' p := hpc
    have hold := h.pass d' hd' n t' p hpc'
    have hh := hheld d' hd'
    rw [hpc', SamplerPc.held] at hh
    simp only [setThread, Function.update_apply]
    grind
  owner := h.owner
  closures := h.closures
  nodup := h.nodup
  inserting t' := by
    have hold := h.inserting t'
    simp only [setThread, Function.update_apply]
    grind
  opening t' := by
    have hold := h.opening t'
    simp only [setThread, Function.update_apply]
    grind
  moving d' hd' n t' ev hpc := by
    have hpc' : (s.descr d').pc = .book n t' ev := hpc
    have hold := h.moving d' hd' n t' ev hpc'
    have hh := hheld d' hd'
    rw [hpc', SamplerPc.held] at hh
    simp only [setThread, Function.update_apply]
    grind
  unmade := h.unmade
  made t' := by
    have hold := h.made t'
    simp only [setThread, Function.update_apply]
    grind
  handle := h.handle

/-- The thread of a job in the hands of a sampling thread is in a call. -/
theorem Jobs.held_busy (h : Jobs s r) (hd : d < s.nrDescr)
    (hheld : (s.descr d).pc.held = some t) : (s.thread t).pc ≠ .idle := by
  intro hpc
  have hsent := (h.held_sent hd hheld).1
  rw [hpc] at hsent
  contradiction

/-- A job that is passed on belongs to a call that puts a channel somewhere. -/
theorem Jobs.passes_app (h : Jobs s r) (hd : d < s.nrDescr)
    (hp : (s.descr d).pc.passes = some t) : (s.thread t).app := by
  have htype := h.passes d hd t hp
  exact ApiThread.app_of_sent (h.held_sent hd (SamplerPc.held_of_passes hp)).1 (by simp [htype])

/-- So does a job that moves its channel. -/
theorem Jobs.moving_app (h : Jobs s r) (hd : d < s.nrDescr) {n : Nat} {ev : UInt64}
    (hpc : (s.descr d).pc = .book n t ev) (htype : (s.thread t).job.type = .moveChannel) :
    (s.thread t).app :=
  ApiThread.app_of_sent (h.held_sent (t := t) hd (by rw [hpc]; rfl)).1 (by simp [htype])

/-- A call is on a channel that is in use. -/
theorem Settled.ch_ne (h : Settled s r) (hmade : (s.cl c).made = false)
    (happ : (s.thread t).app) : (s.thread t).ch ≠ c := by
  rintro rfl
  have hbusy : (s.thread t).pc ≠ .idle := by
    intro hpc
    simp [ApiThread.app, hpc] at happ
  rw [h.made t hbusy] at hmade
  contradiction

/-- A closure is made for a channel number that is not in use. -/
theorem Settled.make (h : Settled s r) (hj : Jobs s r) (hmade : (s.cl c).made = false) :
    Settled (s.setCl c .init) r where
  uniq := h.uniq
  route t' p happ := by
    have hold := h.route t' p happ
    have hne := h.ch_ne hmade happ
    simpa [hne] using hold
  queue t' d' happ := by
    have hold := h.queue t' d' happ
    have hne := h.ch_ne hmade happ
    simpa [hne] using hold
  hand t' d' happ := by
    have hold := h.hand t' d' happ
    have hne := h.ch_ne hmade happ
    simpa [hne] using hold
  pass d' hd' n t' p hpc := by
    have hpc' : (s.descr d').pc = .route n t' p := hpc
    have hold := h.pass d' hd' n t' p hpc'
    have hne := h.ch_ne hmade (hj.passes_app hd' (by rw [hpc']; rfl))
    simpa [hne] using hold
  owner c' d' ho := by
    have hne : c' ≠ c := by
      rintro rfl
      rw [h.unmade c' hmade] at ho
      cases ho
    simpa [hne] using h.owner c' d' ho
  closures := h.closures
  nodup := h.nodup
  inserting := h.inserting
  opening := h.opening
  moving := h.moving
  unmade c' := by
    have hold := h.unmade c'
    simp only [setCl, Function.update_apply]
    grind
  made t' hpc := by
    have hold := h.made t' hpc
    simp only [setCl, Function.update_apply]
    grind [FPCClosure.init]
  handle c' := by
    have hold := h.handle c'
    simp only [setCl, Function.update_apply]
    grind [FPCClosure.init]

/-- A channel gets into a sampling thread.  The call that puts it there, if
there is one, has just been told so. -/
theorem Settled.own (h : Settled s r) (hj : Jobs s r) (hd : d < s.nrDescr)
    (hnone : r.owner c = none) (hper : (s.descr d).periodicIncNs = (s.cl c).periodicIncNs)
    (hmade : (s.cl c).made = true)
    (hin : ∀ t, (s.thread t).app → (s.thread t).ch = c →
      (s.thread t).pc.sent = true ∧ (s.thread t).job.type = .insertChannel ∧
        (s.thread t).job.signals ≠ 0) :
    Settled (s.setDescr d ((s.descr d).insert c)) (r.give c (some d)) where
  uniq := h.uniq
  route := h.route
  queue t' d' := by
    have hold := h.queue t' d'
    simp only [Reg.give, setDescr, Function.update_apply, ThrDescriptor.insert]
    grind
  hand t' d' := by
    have hold := h.hand t' d'
    simp only [Reg.give, setDescr, Function.update_apply, ThrDescriptor.insert]
    grind
  pass d' hd' n t' p := by
    have hold := h.pass d' hd' n t' p
    simp only [setDescr, Function.update_apply, ThrDescriptor.insert]
    grind
  owner c' d' := by
    have hold := h.owner c' d'
    simp only [Reg.give, setDescr, Function.update_apply, ThrDescriptor.insert]
    grind
  closures d' hd' c' := by
    have hold := h.closures d' hd' c'
    have hnot := h.closures d hd c
    simp only [Reg.give, setDescr, Function.update_apply, ThrDescriptor.insert]
    grind [List.mem_orderedInsert]
  nodup d' hd' := by
    have hold := h.nodup d' hd'
    have hnot := h.closures d hd c
    simp only [setDescr, Function.update_apply, ThrDescriptor.insert]
    split
    · next he =>
      subst he
      split
      · exact hold
      · next hc =>
        exact (List.perm_orderedInsert _ _ _).nodup_iff.mpr (List.nodup_cons.mpr ⟨hc, hold⟩)
    · exact hold
  inserting t' := by
    have hold := h.inserting t'
    have ht := hin t'
    simp only [Reg.give, setDescr, Function.update_apply]
    grind
  opening t' ok hpc := by
    have hpc' : (s.thread t').pc = .openFile ok := hpc
    have hold := h.opening t' ok hpc'
    have hne : (s.thread t').ch ≠ c := by
      intro hc
      have ht := (hin t' (by simp [ApiThread.app, hpc']) hc).1
      simp [hpc', ApiPc.sent] at ht
    simpa [Reg.give, hne] using hold
  moving d' hd' n t' ev hpc htype := by
    have hpc' : (s.descr d').pc = .book n t' ev := by
      simp only [setDescr, Function.update_apply, ThrDescriptor.insert] at hpc
      grind
    have htype' : (s.thread t').job.type = .moveChannel := htype
    have hold := h.moving d' hd' n t' ev hpc' htype'
    have hne : (s.thread t').ch ≠ c := by
      intro hc
      have ht := (hin t' (hj.moving_app hd' hpc' htype') hc).2.1
      rw [htype'] at ht
      contradiction
    simpa [Reg.give, hne] using hold
  unmade c' := by
    have hold := h.unmade c'
    simp only [Reg.give, setDescr, Function.update_apply]
    grind
  made := h.made
  handle := h.handle

/-- A channel is taken out of its sampling thread. -/
theorem Settled.disown (h : Settled s r) (hd : d < s.nrDescr) (ho : r.owner c = some d) :
    Settled (s.setDescr d { s.descr d with closures := (s.descr d).closures.erase c })
      (r.give c none) where
  uniq := h.uniq
  route := h.route
  queue t' d' := by
    have hold := h.queue t' d'
    simp only [Reg.give, setDescr, Function.update_apply]
    grind
  hand t' d' := by
    have hold := h.hand t' d'
    simp only [Reg.give, setDescr, Function.update_apply]
    grind
  pass d' hd' n t' p := by
    have hold := h.pass d' hd' n t' p
    simp only [setDescr, Function.update_apply]
    grind
  owner c' d' := by
    have hold := h.owner c' d'
    simp only [Reg.give, setDescr, Function.update_apply]
    grind
  closures d' hd' c' := by
    have hold := h.closures d' hd' c'
    have hnodup := h.nodup d hd
    simp only [Reg.give, setDescr, Function.update_apply]
    grind [List.Nodup.mem_erase_iff]
  nodup d' hd' := by
    have hold := h.nodup d' hd'
    simp only [setDescr, Function.update_apply]
    grind [List.Nodup.erase]
  inserting t' := by
    have hold := h.inserting t'
    simp only [Reg.give, setDescr, Function.update_apply]
    grind
  opening t' ok := by
    have hold := h.opening t' ok
    simp only [Reg.give, setDescr, Function.update_apply]
    grind
  moving d' hd' n t' ev := by
    have hold := h.moving d' hd' n t' ev
    simp only [Reg.give, setDescr, Function.update_apply]
    grind
  unmade c' := by
    have hold := h.unmade c'
    simp only [Reg.give, setDescr, Function.update_apply]
    grind
  made := h.made
  handle := h.handle

/-- The sampling thread that moves a channel sets its period, before it
passes the job on. -/
theorem Settled.reprogram (h : Settled s r) (hj : Jobs s r) (hd : d < s.nrDescr) {n : Nat}
    (hpc : (s.descr d).pc = .submit n t) (hch : (s.thread t).ch = c)
    (ho : r.owner c = none) {k : FPCClosure} (hmade : k.made = (s.cl c).made)
    (hhandle : k.handle = (s.cl c).handle) : Settled (s.setCl c k) r := by
  have happ : (s.thread t).app := hj.passes_app hd (by rw [hpc]; rfl)
  have hloc : r.loc t = .hand d := (hj.hand d hd t).mp (by rw [hpc]; rfl)
  have hsent := (hj.sent t (by rw [hloc]; simp)).1
  have hat : ∀ t', (s.thread t').app → (s.thread t').ch = c → t' = t := by
    intro t' happ' hch'
    exact h.uniq t' t happ' happ (hch'.trans hch.symm)
  constructor
  · exact h.uniq
  · intro t' p happ' hpc'
    have hne : (s.thread t').ch ≠ c := by
      intro hc
      obtain rfl := hat t' happ' hc
      have hpc'' : (s.thread t').pc = .route p := hpc'
      rw [hpc''] at hsent
      contradiction
    simpa [hne] using h.route t' p happ' hpc'
  · intro t' d' happ' hl
    have hne : (s.thread t').ch ≠ c := by
      intro hc
      obtain rfl := hat t' happ' hc
      rw [hloc] at hl
      cases hl
    simpa [hne] using h.queue t' d' happ' hl
  · intro t' d' happ' hl hp
    have hne : (s.thread t').ch ≠ c := by
      intro hc
      obtain rfl := hat t' happ' hc
      rw [hloc] at hl
      cases hl
      exact hp (by simp [hpc, SamplerPc.passes])
    simpa [hne] using h.hand t' d' happ' hl hp
  · intro d' hd' n' t' p hpc'
    have hpc'' : (s.descr d').pc = .route n' t' p := hpc'
    have hne : (s.thread t').ch ≠ c := by
      intro hc
      obtain rfl := hat t' (hj.passes_app hd' (by rw [hpc'']; rfl)) hc
      have hl := (hj.hand d' hd' t').mp (by rw [hpc'']; rfl)
      rw [hloc] at hl
      cases hl
      rw [hpc] at hpc''
      cases hpc''
    simpa [hne] using h.pass d' hd' n' t' p hpc''
  · intro c' d' ho'
    have hne : c' ≠ c := by
      rintro rfl
      rw [ho] at ho'
      cases ho'
    simpa [hne] using h.owner c' d' ho'
  · exact h.closures
  · exact h.nodup
  · exact h.inserting
  · exact h.opening
  · exact h.moving
  · intro c' hc'
    have hold := h.unmade c'
    simp only [setCl, Function.update_apply] at hc'
    grind
  · intro t' ht'
    have hold := h.made t' ht'
    simp only [setCl, Function.update_apply]
    grind
  · intro c'
    have hold := h.handle c'
    simp only [setCl, Function.update_apply]
    grind

/-- A descriptor is created. -/
theorem Settled.new (h : Settled s r) (hj : Jobs s r) (p : UInt64) :
    Settled { s.setDescr s.nrDescr (.new p t) with nrDescr := s.nrDescr + 1 } r where
  uniq := h.uniq
  route := h.route
  queue t' d' happ hl := by
    have hold := h.queue t' d' happ hl
    have hb := hj.bound t' d' (.inl hl)
    simpa [Nat.ne_of_lt hb] using hold
  hand t' d' happ hl := by
    have hold := h.hand t' d' happ hl
    have hb := hj.bound t' d' (.inr hl)
    simpa [Nat.ne_of_lt hb] using hold
  pass d' hd' n t' p := by
    have hold := h.pass d'
    simp only [setDescr, Function.update_apply]
    grind [ThrDescriptor.new]
  owner c' d' ho := by
    have hold := h.owner c' d' ho
    simp only [setDescr, Function.update_apply]
    grind
  closures d' hd' c' := by
    have hold := h.closures d'
    have hb := h.owner c' s.nrDescr
    simp only [setDescr, Function.update_apply]
    grind [ThrDescriptor.new]
  nodup d' hd' := by
    have hold := h.nodup d'
    simp only [setDescr, Function.update_apply]
    grind [ThrDescriptor.new]
  inserting := h.inserting
  opening := h.opening
  moving d' hd' n t' ev := by
    have hold := h.moving d'
    simp only [setDescr, Function.update_apply]
    grind [ThrDescriptor.new]
  unmade := h.unmade
  made := h.made
  handle := h.handle

end ChannelMoves

/-! ## whole steps -/

/-- `parameterizeChannel` is not called for a channel while another call that
puts it somewhere is under way. -/
def OneApp (s : Fpc) : Act → Prop
  | .parameterizeChannel _ c _ => ∀ t, (s.thread t).app → (s.thread t).ch ≠ c
  | _ => True

section Step

variable {s s' : Fpc} {r : Reg} {l : Act}

/-- While nobody holds the mutex, a running sampling thread is in the map. -/
theorem Mapped.mapped (h : Mapped s r) (hmtx : s.mtxThrMap = none) {d : Nat} (hd : d < s.nrDescr)
    (hlive : (s.descr d).pc ≠ .done) : s.thrMap (s.descr d).periodicIncNs = some d := by
  obtain hmap | he := h.live d hd hlive
  · exact hmap
  · rw [h.mtx hmtx] at he
    cases he

theorem Mapped.callStep (h : Mapped s r) (hs : CallMove s l s') :
    Mapped s' (r.next s l) := by
  cases hs with
  | openChannel t c ok hidle hmade =>
      have h1 := h.thread (t := t) (a := { s.thread t with pc := .openFile ok, ch := c }) (by simp)
      exact h1.congr rfl rfl rfl rfl rfl rfl
  | param t c a p hidle hhandle hreq =>
      have h1 := h.thread (t := t) (a := ⟨.submit, c, ⟨.moveChannel, p, 0⟩⟩) (by simp)
      exact h1.congr rfl rfl rfl rfl rfl rfl
  | refuse t c a hreq => exact h
  | close t c l hl hidle hmade href =>
      have h1 := h.thread (t := t) (a := { s.thread t with pc := .countOut, ch := c }) (by simp)
      exact h1.congr rfl rfl rfl rfl rfl (by cases hl <;> rfl)
  | closeAgain t c l hl hidle hmade href =>
      have h1 := h.thread (t := t) (a := { s.thread t with pc := .closing, ch := c }) (by simp)
      exact h1.congr rfl rfl rfl rfl rfl (by cases hl <;> rfl)

theorem Mapped.apiStep (h : Mapped s r) (hset : Settled s r) (hs : ApiMove s l s') :
    Mapped s' (r.next s l) := by
  cases hs with
  | openFailed t hpc =>
      have h1 := h.thread (t := t) (a := { s.thread t with pc := .idle }) (by simp)
      exact h1.congr rfl rfl rfl rfl rfl (by simp [Reg.next, hpc])
  | opened t hpc =>
      have h1 := h.thread (t := t) (a := ⟨.submit, (s.thread t).ch, ⟨.insertChannel, -1, 0⟩⟩)
        (by simp)
      exact h1.congr rfl rfl rfl rfl rfl (by simp [Reg.next, hpc])
  | submit t hpc =>
      have h1 := h.thread (t := t)
        (a := { s.thread t with pc := .route (s.cl (s.thread t).ch).periodicIncNs }) (by simp)
      exact h1.congr rfl rfl rfl rfl rfl (by simp [Reg.next, hpc])
  | routeFound t p d hpc hmtx hd =>
      have h1 := h.descr (d := d) (k := { s.descr d with jQueue := (s.descr d).jQueue ++ [t] })
        (h.registered p d hd).2.2 rfl (h.registered p d hd).2.2 (.inl rfl)
      have h2 := h1.thread (t := t) (a := { s.thread t with pc := .wait }) (by simp)
      exact h2.congr rfl rfl rfl rfl rfl (by simp [Reg.next, Reg.route, Reg.put, hpc, hd])
  | routeNew t p hpc hmtx hd htype =>
      -- the constructor reads the period that was looked up
      have hp : p = (s.cl (s.thread t).ch).periodicIncNs :=
        hset.route t p (by simp [ApiThread.app, hpc, htype]) hpc
      have h1 := h.new (t := t) (x := .api t) hmtx hd
      have h2 := h1.enteringApi (t := t) (a := { s.thread t with pc := .insertMap p s.nrDescr })
        rfl rfl rfl
      exact h2.congr (by simp [hp]) rfl rfl rfl rfl
        (by simp [Reg.next, Reg.route, hpc, hd, htype])
  | routeLost t p hpc hmtx hd htype =>
      have h1 := h.thread (t := t) (a := { s.thread t with pc := .wait }) (by simp)
      exact h1.congr rfl rfl rfl rfl rfl (by simp [Reg.next, Reg.route, hpc, hd, htype])
  | insertMap t p d hpc =>
      obtain ⟨hmtx, he⟩ := h.api t p d hpc
      have h1 := h.thread (t := t) (a := { s.thread t with pc := .wait }) (by simp)
      have h2 := h1.enter he (fun t' p' d' hpc' => by
        have hmtx' := (h1.api t' p' d' hpc').1
        have ht : t' = t := by simpa [hmtx] using hmtx'.symm
        subst ht
        simp at hpc') (fun d₀ hd₀ n p' d' hpc' => by
        have hmtx' := (h1.sampler d₀ hd₀ n p' d' hpc').1
        simp [hmtx] at hmtx')
      exact h2.congr rfl rfl rfl rfl rfl (by simp [Reg.next, hpc])
  | returned t hpc hsig htype =>
      have h1 := h.thread (t := t) (a := { s.thread t with pc := .idle }) (by simp)
      exact h1.congr rfl rfl rfl rfl rfl (by simp [Reg.next, hpc])
  | deleted t hpc hsig htype =>
      have h1 := h.thread (t := t) (a := { s.thread t with pc := .closing }) (by simp)
      exact h1.congr rfl rfl rfl rfl rfl (by simp [Reg.next, hpc])
  | countOut t hpc =>
      have h1 := h.thread (t := t) (a := { s.thread t with pc := .clear }) (by simp)
      exact h1.congr rfl rfl rfl rfl rfl (by simp [Reg.next, hpc])
  | clear t hpc =>
      have h1 := h.thread (t := t) (a := ⟨.submit, (s.thread t).ch, ⟨.deleteChannel, -1, 0⟩⟩)
        (by simp)
      exact h1.congr rfl rfl rfl rfl rfl (by simp [Reg.next, hpc])
  | closing t hpc =>
      have h1 := h.thread (t := t) (a := { s.thread t with pc := .idle }) (by simp)
      exact h1.congr rfl rfl rfl rfl rfl (by simp [Reg.next, hpc])

theorem Mapped.loopStep (h : Mapped s r) (hs : LoopMove s l s') :
    Mapped s' (r.next s l) := by
  cases hs with
  | goto d now ts pc hd hgo =>
      have hpc : (s.descr d).pc ≠ .done ∧ pc ≠ .done ∧ (∀ n p d', pc ≠ .insertMap n p d') ∧
          (r.next s (.sampler d now)).entering = r.entering := by
        cases hgo with
        | start hpc | sampled _ hpc | accounted hpc | snooze hpc | noJob hpc | remove hpc
        | clock hpc | due hpc | notDue hpc => simp [hpc, Reg.next]
      have h1 := h.descr (d := d) (k := { s.descr d with tsFlush := ts, pc := pc }) hpc.1 rfl
        hpc.2.1 (.inr hpc.2.2.1)
      exact h1.congr rfl rfl rfl rfl rfl hpc.2.2.2
  | sample d now seen c rest hd hpc =>
      have h1 := h.descr (d := d) (k := { s.descr d with pc := .sample (seen ++ [c]) rest })
        (by simp [hpc]) rfl (by simp) (.inr (by simp))
      exact h1.congr rfl rfl rfl rfl rfl (by simp [Reg.next, hpc])
  | account d now c rest hd hpc =>
      have h1 := h.descr (d := d) (k := { s.descr d with pc := .account rest })
        (by simp [hpc]) rfl (by simp) (.inr (by simp))
      exact h1.congr rfl rfl rfl rfl rfl (by simp [Reg.next, hpc])
  | job d now left j q hd hpc hq =>
      have h1 := h.descr (d := d) (k := { s.descr d with jQueue := q, pc := .take left j })
        (by simp [hpc]) rfl (by simp) (.inr (by simp))
      exact h1.congr rfl rfl rfl rfl rfl (by simp [Reg.next, Reg.put, hpc, hq])
  | keep d now fs hd hpc hmtx hfs =>
      have h1 := h.descr (d := d) (k := { s.descr d with pc := .clock }) (by simp [hpc]) rfl
        (by simp) (.inr (by simp))
      exact h1.congr rfl rfl rfl rfl rfl (by simp [Reg.next, hpc])
  | removed d now d' hd hpc hmtx hd' hq hc =>
      have hmap := h.mapped hmtx hd (by simp [hpc])
      obtain rfl : d' = d := by simpa [hd'] using hmap
      have h1 := h.remove hmtx hmap hq hc
      exact h1.congr rfl rfl rfl rfl rfl (by simp [Reg.next, hpc])

theorem Mapped.takeStep (h : Mapped s r) (hs : TakeMove s l s') :
    Mapped s' (r.next s l) := by
  cases hs with
  | takeInsert d now left j hd hpc htype =>
      have h1 := h.descr (d := d) (k := { s.descr d with
        pc := .book left j (s.cl (s.thread j).ch).ctr }) (by simp [hpc]) rfl (by simp)
        (.inr (by simp))
      exact h1.congr rfl rfl rfl rfl rfl (by simp [Reg.next, hpc, htype])
  | takeMove d now left j hd hpc htype hc =>
      have h1 := h.descr (d := d) (k := { s.descr d with
        closures := (s.descr d).closures.erase (s.thread j).ch
        pc := .book left j (s.cl (s.thread j).ch).ctr }) (by simp [hpc]) rfl (by simp)
        (.inr (by simp))
      exact h1.congr rfl rfl rfl rfl rfl (by simp [Reg.next, Reg.give, hpc, htype, hc])
  | takeMissing d now left j hd hpc htype hc =>
      have h1 := h.descr (d := d) (k := { s.descr d with pc := .jobs left }) (by simp [hpc]) rfl
        (by simp) (.inr (by simp))
      have h2 := h1.signal j
      exact h2.congr rfl rfl rfl rfl rfl (by simp [Reg.next, Reg.put, hpc, htype, hc])
  | takeDelete d now left j hd hpc htype =>
      have h1 := h.descr (d := d) (k := { s.descr d with
        pc := .book left j (s.cl (s.thread j).ch).ctr }) (by simp [hpc]) rfl (by simp)
        (.inr (by simp))
      exact h1.congr rfl rfl rfl rfl rfl (by simp [Reg.next, hpc, htype])

theorem Mapped.bookStep (h : Mapped s r) (hs : BookMove s l s') :
    Mapped s' (r.next s l) := by
  cases hs with
  | bookInsert d now left j ev hd hpc htype =>
      have h1 := h.descr (d := d) (k := { (s.descr d).insert (s.thread j).ch with pc := .jobs left })
        (by simp [hpc]) rfl (by simp) (.inr (by simp))
      have h2 := h1.signal j
      exact h2.congr rfl rfl rfl rfl rfl (by simp [Reg.next, Reg.put, Reg.give, hpc, htype])
  | bookMove d now left j ev hd hpc htype =>
      have h1 := h.descr (d := d) (k := { s.descr d with pc := .submit left j }) (by simp [hpc]) rfl
        (by simp) (.inr (by simp))
      have h2 := h1.job j { (s.thread j).job with type := .insertChannel, curPeriodicIncNs := -1 }
      exact h2.congr rfl rfl rfl rfl rfl (by simp [Reg.next, hpc, htype])
  | bookDelete d now left j ev hd hpc htype hc =>
      have h1 := h.descr (d := d) (k := { s.descr d with
        closures := (s.descr d).closures.erase (s.thread j).ch, pc := .jobs left })
        (by simp [hpc]) rfl (by simp) (.inr (by simp))
      have h2 := h1.signal j
      exact h2.congr rfl rfl rfl rfl rfl (by simp [Reg.next, Reg.put, Reg.give, hpc, htype, hc])
  | bookDeleteMissing d now left j ev hd hpc htype hc =>
      have h1 := h.descr (d := d) (k := { s.descr d with pc := .jobs left }) (by simp [hpc]) rfl
        (by simp) (.inr (by simp))
      have h2 := h1.signal j
      exact h2.congr rfl rfl rfl rfl rfl (by simp [Reg.next, Reg.put, hpc, htype, hc])

theorem Mapped.passStep (h : Mapped s r) (hj : Jobs s r) (hset : Settled s r) (hs : PassMove s l s') :
    Mapped s' (r.next s l) := by
  cases hs with
  | passOn d now left j hd hpc =>
      have h1 := h.descr (d := d) (k := { s.descr d with
        pc := .route left j (s.cl (s.thread j).ch).periodicIncNs }) (by simp [hpc]) rfl (by simp)
        (.inr (by simp))
      exact h1.congr rfl rfl rfl rfl rfl (by simp [Reg.next, hpc])
  | passFound d now left j p d' hd hpc hmtx hd' hne =>
      have h1 := h.descr (d := d) (k := { s.descr d with pc := .jobs left }) (by simp [hpc]) rfl
        (by simp) (.inr (by simp))
      have h2 := h1.descr (d := d')
        (k := { s.descr d' with jQueue := (s.descr d').jQueue ++ [j] })
        (by simpa [hne] using (h.registered p d' hd').2.2) (by simp [hne])
        (h.registered p d' hd').2.2 (.inl (by simp [hne]))
      exact h2.congr (by simp [Function.update_comm hne]) rfl rfl rfl rfl
        (by simp [Reg.next, Reg.route, Reg.put, hpc, hd'])
  | passSelf d now left j p hd hpc hmtx hd' =>
      have h1 := h.descr (d := d) (k := { s.descr d with
        jQueue := (s.descr d).jQueue ++ [j], pc := .jobs left }) (by simp [hpc]) rfl
        (by simp) (.inr (by simp))
      exact h1.congr rfl rfl rfl rfl rfl (by simp [Reg.next, Reg.route, Reg.put, hpc, hd'])
  | passNew d now left j p hd hpc hmtx hd' =>
      have hp : p = (s.cl (s.thread j).ch).periodicIncNs := hset.pass d hd left j p hpc
      have hne := Nat.ne_of_lt hd
      have h1 := h.new (t := j) (x := .sampler d) hmtx hd'
      have h2 := h1.enteringSampler (n := left)
        (k := { s.descr d with pc := .insertMap left p s.nrDescr }) (by simp [hne, hpc]) rfl rfl
        (by simp [hne]) rfl
      have htype := hj.passes d hd j (by rw [hpc]; rfl)
      exact h2.congr (by simp [hp]) rfl rfl rfl rfl
        (by simp [Reg.next, Reg.route, hpc, hd', htype])
  | passMap d now left p d' hd hpc =>
      obtain ⟨hmtx, he⟩ := h.sampler d hd left p d' hpc
      have h1 := h.descr (d := d) (k := { s.descr d with pc := .jobs left }) (by simp [hpc]) rfl
        (by simp) (.inr (by simp))
      have h2 := h1.enter he (fun t' p' d' hpc' => by
        have hmtx' := (h1.api t' p' d' hpc').1
        simp [hmtx] at hmtx') (fun d₀ hd₀ n p' d' hpc' => by
        have hmtx' := (h1.sampler d₀ hd₀ n p' d' hpc').1
        have ht : d₀ = d := by simpa [hmtx] using hmtx'.symm
        subst ht
        simp at hpc')
      exact h2.congr rfl rfl rfl rfl rfl (by simp [Reg.next, hpc])

/-- **Every move keeps the map in order.** -/
theorem Mapped.step (h : Mapped s r) (hj : Jobs s r) (hset : Settled s r) (hs : Move s l s') :
    Mapped s' (r.next s l) := by
  cases hs with
  | call hs => exact h.callStep hs
  | api hs => exact h.apiStep hset hs
  | handler c hmade => exact h.congr rfl rfl rfl rfl rfl rfl
  | loop hs => exact h.loopStep hs
  | take hs => exact h.takeStep hs
  | book hs => exact h.bookStep hs
  | pass hs => exact h.passStep hj hset hs

/-- A job is completed. -/
theorem Settled.signal (h : Settled s r) {t : Nat} (hsent : (s.thread t).pc.sent = true) :
    Settled (s.signalCompletion t) r := by
  have hpc : (s.thread t).pc ≠ .idle ∧ ∀ ok, (s.thread t).pc ≠ .openFile ok := by
    cases hpc : (s.thread t).pc <;> simp [hpc, ApiPc.sent] at hsent ⊢
  refine h.thread (fun d _ _ => ⟨rfl, id⟩) (fun happ t' hne happ' hch => ?_)
    (fun p happ hp => h.route t p happ hp) (fun happ => .inr ⟨happ, rfl⟩) ?_ ?_
    (fun hne => h.made t hpc.1)
  · exact hne (h.uniq t' t happ' happ hch)
  · simp
  · exact fun ok hok => absurd hok (hpc.2 ok)

/-- A thread goes on in the same call. -/
theorem Settled.goOn (h : Settled s r) {t : Nat} {q : ApiPc}
    (happ : ({ s.thread t with pc := q } : ApiThread).app → (s.thread t).app)
    (hroute : ∀ p, q = .route p → p = (s.cl (s.thread t).ch).periodicIncNs)
    (hopen : ∀ ok, q ≠ .openFile ok) (hbusy : q ≠ .idle → (s.thread t).pc ≠ .idle) :
    Settled (s.setThread t { s.thread t with pc := q }) r := by
  refine h.thread (fun d _ _ => ⟨rfl, id⟩) (fun ha t' hne happ' hch => ?_)
    (fun p _ hp => hroute p hp) (fun ha => .inr ⟨happ ha, rfl⟩)
    (fun ha htype hsig => h.inserting t (happ ha) htype hsig)
    (fun ok hok => absurd hok (hopen ok)) (fun hne => h.made t (hbusy hne))
  exact hne (h.uniq t' t happ' (happ ha) hch)

/-- A sampling thread goes on that has no job in its hands. -/
theorem Settled.free (h : Settled s r) (hj : Jobs s r) {d : Nat} (hd : d < s.nrDescr)
    {k : ThrDescriptor} (hc : k.closures = (s.descr d).closures)
    (hper : k.periodicIncNs = (s.descr d).periodicIncNs) (hheld : (s.descr d).pc.held = none)
    (hk : k.pc.held = none) : Settled (s.setDescr d k) r := by
  refine h.descr hc hper (fun t hl _ _ => ?_) (fun n t p hp => ?_) (fun n t ev hp => ?_)
  · cases hj.hand_eq hd hheld hl
  · rw [hp] at hk
    cases hk
  · rw [hp] at hk
    cases hk

/-- A sampling thread lets go of the job in its hands. -/
theorem Settled.release (h : Settled s r) (hj : Jobs s r) {d t : Nat} (hd : d < s.nrDescr)
    {k : ThrDescriptor} (hheld : (s.descr d).pc.held = some t)
    (hc : k.closures = (s.descr d).closures)
    (hper : k.periodicIncNs = (s.descr d).periodicIncNs) (hk : k.pc.held = none) :
    Settled (s.setDescr d k) (r.put t .nowhere) := by
  have h1 : Settled s (r.put t .nowhere) := h.put (by simp) (by simp)
  refine h1.descr hc hper (fun t' hl _ _ => ?_) (fun n t' p hp => ?_) (fun n t' ev hp => ?_)
  · simp only [Reg.put, Function.update_apply] at hl
    have heq := hj.hand_eq (t := t') hd hheld
    grind
  · rw [hp] at hk
    cases hk
  · rw [hp] at hk
    cases hk

theorem Settled.callStep (h : Settled s r) (hj : Jobs s r) (hok : OneApp s l)
    (hs : CallMove s l s') : Settled s' (r.next s l) := by
  cases hs with
  | openChannel t c ok hidle hmade =>
      have h1 := h.make hj hmade
      refine h1.thread (fun d hd hheld => ?_) (fun _ t' _ happ => h.ch_ne hmade happ) (by simp)
        (fun _ => .inl ?_) (fun _ _ _ => h.unmade c hmade) (fun _ _ => h.unmade c hmade) ?_
      · exact absurd hheld (hj.not_held (by rw [hidle]; rfl) hd)
      · exact hj.loc_eq (by rw [hidle]; rfl)
      · simp [FPCClosure.init]
  | param t c a p hidle hhandle hreq =>
      refine h.thread (fun d hd hheld => ?_) (fun _ t' _ happ => hok t' happ) (by simp)
        (fun _ => .inl ?_) (by simp) (by simp) (fun _ => h.handle c hhandle)
      · exact absurd hheld (hj.not_held (by rw [hidle]; rfl) hd)
      · exact hj.loc_eq (by rw [hidle]; rfl)
  | refuse t c a hreq => exact h
  | close t c l hl hidle hmade href =>
      have h1 : Settled (s.setThread t { s.thread t with pc := .countOut, ch := c }) r := by
        refine h.thread (fun d hd hheld => ?_) (by simp [ApiThread.app]) (by simp)
          (by simp [ApiThread.app]) (by simp [ApiThread.app]) (by simp)
          (fun _ => hmade.elim id (h.handle c))
        exact absurd hheld (hj.not_held (by rw [hidle]; rfl) hd)
      cases hl <;> exact h1
  | closeAgain t c l hl hidle hmade href =>
      have h1 : Settled (s.setThread t { s.thread t with pc := .closing, ch := c }) r := by
        refine h.thread (fun d hd hheld => ?_) (by simp [ApiThread.app]) (by simp)
          (by simp [ApiThread.app]) (by simp [ApiThread.app]) (by simp)
          (fun _ => hmade.elim id (h.handle c))
        exact absurd hheld (hj.not_held (by rw [hidle]; rfl) hd)
      cases hl <;> exact h1

theorem Settled.apiStep (h : Settled s r) (hj : Jobs s r) (hm : Mapped s r)
    (hs : ApiMove s l s') : Settled s' (r.next s l) := by
  cases hs with
  | openFailed t hpc =>
      have h1 := h.goOn (t := t) (q := .idle) (by simp [ApiThread.app]) (by simp) (by simp)
        (by simp)
      simpa [Reg.next, hpc] using h1
  | opened t hpc =>
      have happ : (s.thread t).app := by simp [ApiThread.app, hpc]
      have h1 : Settled (s.setThread t ⟨.submit, (s.thread t).ch, ⟨.insertChannel, -1, 0⟩⟩) r := by
        refine h.thread (fun d hd hheld => ?_) (fun _ t' hne happ' hch => ?_) (by simp)
          (fun _ => .inr ⟨happ, rfl⟩) (fun _ _ _ => h.opening t true hpc) (by simp)
          (fun _ => h.made t (by simp [hpc]))
        · exact absurd hheld (hj.not_held (by rw [hpc]; rfl) hd)
        · exact hne (h.uniq t' t happ' happ hch)
      have h2 := h1.cl (c := (s.thread t).ch)
        (k := { s.cl (s.thread t).ch with base := .opened, isRefCounted := true }) rfl rfl
        (h.handle _)
      exact h2.congr rfl rfl rfl (fun _ => rfl) (fun _ => rfl) h2.handle (by simp [Reg.next, hpc])
        (by simp [Reg.next, hpc])
  | submit t hpc =>
      have h1 := h.goOn (t := t) (q := .route (s.cl (s.thread t).ch).periodicIncNs)
        (by simp [ApiThread.app, hpc]) (by simp) (by simp) (by simp [hpc])
      simpa [Reg.next, hpc] using h1
  | routeFound t p d hpc hmtx hd =>
      have h1 := h.goOn (t := t) (q := .wait) (by simp [ApiThread.app, hpc]) (by simp) (by simp)
        (by simp [hpc])
      have h2 := h1.put (t := t) (x := .queue d) (fun d' hd' happ => by
        cases hd'
        have happ' : (s.thread t).app := by simpa [ApiThread.app, hpc] using happ
        simpa [← h.route t p happ' hpc] using (hm.registered p d hd).2.1) (by simp)
      have h3 := h2.descr (d := d) (k := { s.descr d with jQueue := (s.descr d).jQueue ++ [t] })
        rfl rfl (fun t' hl happ hp => h2.hand t' d happ hl hp)
        (fun n t' p' hp => h2.pass d (hm.registered p d hd).1 n t' p' hp)
        (fun n t' ev hp => h2.moving d (hm.registered p d hd).1 n t' ev hp)
      simpa [Reg.next, Reg.route, hpc, hd] using h3
  | routeNew t p hpc hmtx hd htype =>
      have happ : (s.thread t).app := by simp [ApiThread.app, hpc, htype]
      have h1 := h.new (t := t) hj p
      have h2 := h1.put (t := t) (x := .queue s.nrDescr) (fun d' hd' happ => by
        cases hd'
        simpa [ThrDescriptor.new] using h.route t p happ hpc) (by simp)
      have h3 : Settled _ _ := h2.thread (t := t)
        (a := { s.thread t with pc := .insertMap p s.nrDescr }) (fun _ _ _ => ⟨rfl, id⟩)
        (fun _ t' hne happ' hch => hne (h.uniq t' t happ' happ hch)) (by simp)
        (fun _ => .inr ⟨happ, rfl⟩) (fun _ => h.inserting t happ) (by simp)
        (fun _ => h.made t (by simp [hpc]))
      refine h3.congr ?_ rfl rfl (fun _ => rfl) (fun _ => rfl) h3.handle ?_ ?_
      · simp [← h.route t p happ hpc]
      · simp [Reg.next, Reg.route, hpc, hd, htype]
      · simp [Reg.next, Reg.route, hpc, hd, htype]
  | routeLost t p hpc hmtx hd htype =>
      have h1 := h.goOn (t := t) (q := .wait) (by simp [ApiThread.app, hpc]) (by simp) (by simp)
        (by simp [hpc])
      exact h1.congr rfl rfl rfl (fun _ => rfl) (fun _ => rfl) h1.handle
        (by simp [Reg.next, Reg.route, hpc, hd, htype])
        (by simp [Reg.next, Reg.route, hpc, hd, htype])
  | insertMap t p d hpc =>
      have h1 := h.goOn (t := t) (q := .wait) (by simp [ApiThread.app, hpc]) (by simp) (by simp)
        (by simp [hpc])
      exact h1.congr rfl rfl rfl (fun _ => rfl) (fun _ => rfl) h1.handle (by simp [Reg.next, hpc])
        (by simp [Reg.next, hpc])
  | returned t hpc hsig htype =>
      have h1 := h.goOn (t := t) (q := .idle) (by simp [ApiThread.app]) (by simp) (by simp)
        (by simp)
      have h2 := h1.cl (c := (s.thread t).ch) (k := { s.cl (s.thread t).ch with handle := true })
        rfl rfl (fun _ => h.made t (by simp [hpc]))
      simpa [Reg.next, hpc] using h2
  | deleted t hpc hsig htype =>
      have h1 := h.goOn (t := t) (q := .closing) (by simp [ApiThread.app]) (by simp) (by simp)
        (by simp [hpc])
      simpa [Reg.next, hpc] using h1
  | countOut t hpc =>
      have h1 := h.goOn (t := t) (q := .clear) (by simp [ApiThread.app]) (by simp) (by simp)
        (by simp [hpc])
      exact h1.congr rfl rfl rfl (fun _ => rfl) (fun _ => rfl) h1.handle (by simp [Reg.next, hpc])
        (by simp [Reg.next, hpc])
  | clear t hpc =>
      have h1 : Settled (s.setThread t ⟨.submit, (s.thread t).ch, ⟨.deleteChannel, -1, 0⟩⟩) r := by
        refine h.thread (fun d hd hheld => ?_) (by simp [ApiThread.app]) (by simp)
          (by simp [ApiThread.app]) (by simp) (by simp) (fun _ => h.made t (by simp [hpc]))
        exact absurd hheld (hj.not_held (by rw [hpc]; rfl) hd)
      have h2 := h1.cl (c := (s.thread t).ch) (k := { s.cl (s.thread t).ch with
        isRefCounted := false }) rfl rfl (h.handle _)
      exact h2.congr rfl rfl rfl (fun _ => rfl) (fun _ => rfl) h2.handle (by simp [Reg.next, hpc])
        (by simp [Reg.next, hpc])
  | closing t hpc =>
      have h1 := h.goOn (t := t) (q := .idle) (by simp [ApiThread.app]) (by simp) (by simp)
        (by simp)
      have h2 := h1.cl (c := (s.thread t).ch) (k := { s.cl (s.thread t).ch with
        base := (s.cl (s.thread t).ch).base.closeChannel }) rfl rfl (h.handle _)
      simpa [Reg.next, hpc] using h2

theorem Settled.loopStep (h : Settled s r) (hj : Jobs s r)
    (hs : LoopMove s l s') : Settled s' (r.next s l) := by
  cases hs with
  | goto d now ts pc hd hgo =>
      have hpc : (s.descr d).pc.held = none ∧ pc.held = none ∧
          (r.next s (.sampler d now)) = r := by
        cases hgo with
        | start hpc | sampled _ hpc | accounted hpc | snooze hpc | noJob hpc | remove hpc
        | clock hpc | due hpc | notDue hpc => simp [hpc, SamplerPc.held, Reg.next]
      have h1 := h.free hj hd (k := { s.descr d with tsFlush := ts, pc := pc }) rfl rfl hpc.1 hpc.2.1
      rw [hpc.2.2]
      exact h1
  | sample d now seen c rest hd hpc =>
      have h1 := h.free hj hd (k := { s.descr d with pc := .sample (seen ++ [c]) rest }) rfl rfl
        (by rw [hpc]; rfl) rfl
      have h2 := h1.cl (c := c) (k := (s.cl c).sample now) rfl rfl (h.handle c)
      simpa [Reg.next, hpc] using h2
  | account d now c rest hd hpc =>
      have h1 := h.free hj hd (k := { s.descr d with pc := .account rest }) rfl rfl
        (by rw [hpc]; rfl) rfl
      have h2 := h1.books (c := c) (s.cl c).books_account
      simpa [Reg.next, hpc] using h2
  | job d now left j q hd hpc hq =>
      have hheld : (s.descr d).pc.held = none := by rw [hpc]; rfl
      have hloc : r.loc j = .queue d := (hj.queue d hd j).mp (by rw [hq]; exact List.mem_cons_self)
      have h1 := h.descr (d := d) (k := { s.descr d with jQueue := q, pc := .take left j }) rfl rfl
        (fun t hl _ _ => by cases hj.hand_eq hd hheld hl) (by simp) (by simp)
      have h2 := h1.put (t := j) (x := .hand d) (by simp) (fun d' hd' happ => by
        cases hd'
        simpa using h.queue j d happ hloc)
      simpa [Reg.next, hpc, hq] using h2
  | keep d now fs hd hpc hmtx hfs =>
      have h1 := h.free hj hd (k := { s.descr d with pc := .clock }) rfl rfl (by rw [hpc]; rfl) rfl
      exact h1.congr rfl rfl rfl (fun _ => rfl) (fun _ => rfl) h1.handle (by simp [Reg.next, hpc])
        (by simp [Reg.next, hpc])
  | removed d now d' hd hpc hmtx hd' hq hc =>
      have h1 := h.free hj hd (k := { s.descr d with pc := .done }) rfl rfl (by rw [hpc]; rfl) rfl
      exact h1.congr rfl rfl rfl (fun _ => rfl) (fun _ => rfl) h1.handle (by simp [Reg.next, hpc])
        (by simp [Reg.next, hpc])

theorem Settled.takeStep (h : Settled s r) (hj : Jobs s r)
    (hs : TakeMove s l s') : Settled s' (r.next s l) := by
  cases hs with
  | takeInsert d now left j hd hpc htype =>
      have h1 := h.books (c := (s.thread j).ch) (s.cl (s.thread j).ch).books_logHeader
      have h2 := h1.cl (c := (s.thread j).ch) (k := (s.cl (s.thread j).ch).logHeader.exchange)
        (by simp [FPCClosure.exchange]) (by simp [FPCClosure.exchange])
        (fun hh => h1.handle (s.thread j).ch (by simpa [FPCClosure.exchange] using hh))
      have h3 := h2.descr (d := d) (k := { s.descr d with
        pc := .book left j (s.cl (s.thread j).ch).ctr }) rfl rfl
        (fun t hl happ _ => h2.hand t d happ hl (by simp [hpc, SamplerPc.passes])) (by simp)
        (fun n t ev hp htype' => by
          simp only [SamplerPc.book.injEq] at hp
          obtain ⟨-, rfl, -⟩ := hp
          exact absurd (htype.symm.trans htype') (by simp))
      simpa [Reg.next, hpc, htype, Function.update_idem] using h3
  | takeMove d now left j hd hpc htype hc =>
      have h1 := h.disown hd ((h.closures d hd _).mp hc)
      have h2 := h1.cl (c := (s.thread j).ch) (k := (s.cl (s.thread j).ch).exchange) rfl rfl
        (h.handle _)
      have h3 := h2.descr (d := d) (k := { s.descr d with
        closures := (s.descr d).closures.erase (s.thread j).ch
        pc := .book left j (s.cl (s.thread j).ch).ctr }) (by simp) (by simp)
        (fun t hl happ _ => h2.hand t d happ hl (by simp [hpc, SamplerPc.passes])) (by simp)
        (fun n t ev hp htype' => by
          simp only [SamplerPc.book.injEq] at hp
          obtain ⟨-, rfl, -⟩ := hp
          simp [Reg.give])
      simpa [Reg.next, hpc, htype, hc, Function.update_idem] using h3
  | takeMissing d now left j hd hpc htype hc =>
      have hheld : (s.descr d).pc.held = some j := by rw [hpc]; rfl
      have h1 := h.release hj hd (k := { s.descr d with pc := .jobs left }) hheld rfl rfl rfl
      have h2 := h1.signal (t := j) (hj.held_sent hd hheld).1
      refine h2.congr rfl rfl rfl (fun _ => rfl) (fun _ => rfl) h2.handle ?_ ?_
      · simp [Reg.next, hpc, htype, hc]
      · simp [Reg.next, hpc, htype, hc]
  | takeDelete d now left j hd hpc htype =>
      have h1 := h.cl (c := (s.thread j).ch) (k := { (s.cl (s.thread j).ch).exchange with
        callsAtDelete := (s.cl (s.thread j).ch).calls }) rfl rfl (h.handle _)
      have h2 := h1.descr (d := d) (k := { s.descr d with
        pc := .book left j (s.cl (s.thread j).ch).ctr }) rfl rfl
        (fun t hl happ _ => h1.hand t d happ hl (by simp [hpc, SamplerPc.passes])) (by simp)
        (fun n t ev hp htype' => by
          simp only [SamplerPc.book.injEq] at hp
          obtain ⟨-, rfl, -⟩ := hp
          exact absurd (htype.symm.trans htype') (by simp))
      simpa [Reg.next, hpc, htype] using h2

theorem Settled.bookStep (h : Settled s r) (hj : Jobs s r)
    (hs : BookMove s l s') : Settled s' (r.next s l) := by
  cases hs with
  | bookInsert d now left j ev hd hpc htype =>
      have hheld : (s.descr d).pc.held = some j := by rw [hpc]; rfl
      obtain ⟨hsent, hsig⟩ := hj.held_sent hd hheld
      have hloc : r.loc j = .hand d := (hj.hand d hd j).mp hheld
      have happ : (s.thread j).app := ApiThread.app_of_sent hsent (by simp [htype])
      have hj1 := hj.release (k := { s.descr d with pc := .jobs left }) hd hheld rfl rfl
      have hj2 := hj1.signal (t := j) (by simp [Reg.put]) hsent hsig
      have h1 := h.release hj hd (k := { s.descr d with pc := .jobs left }) hheld rfl rfl rfl
      have h2 := h1.signal (t := j) hsent
      have h3 := h2.own (c := (s.thread j).ch) (d := d) hj2 hd (h.inserting j happ htype hsig)
        (by simpa [signalCompletion] using
          h.hand j d happ hloc (by simp [hpc, SamplerPc.passes]))
        (h.made j (hj.held_busy hd hheld)) (fun t' happ' hch => ?_)
      · have h4 := h3.books (c := (s.thread j).ch)
          ((s.cl (s.thread j).ch).books_bookInsert now ev)
        simpa [Reg.next, hpc, htype, signalCompletion, ThrDescriptor.insert,
          Function.update_idem] using h4
      · have happj : ((s.signalCompletion j).thread j).app := by
          simpa [signalCompletion, ApiThread.app] using happ
        obtain rfl : t' = j := h2.uniq t' j happ' happj (by simpa [signalCompletion] using hch)
        simpa [signalCompletion, htype] using hsent
  | bookMove d now left j ev hd hpc htype =>
      have hheld : (s.descr d).pc.held = some j := by rw [hpc]; rfl
      obtain ⟨hsent, hsig⟩ := hj.held_sent hd hheld
      have happ : (s.thread j).app := hj.moving_app hd hpc htype
      have hown := h.moving d hd left j ev hpc htype
      let a : ApiThread := { s.thread j with
        job := { (s.thread j).job with type := .insertChannel, curPeriodicIncNs := -1 } }
      have hj1 : Jobs (s.setThread j a) r := hj.thread (fun _ => ⟨hsent, hsig, fun _ => rfl⟩)
        (fun _ _ => hsig) (hj.once j)
      have hj2 := hj1.descr (d := d) (k := { s.descr d with pc := .submit left j }) rfl
        (by simp [hpc, SamplerPc.held]) (fun t ht => by
          obtain rfl : j = t := by simpa [SamplerPc.passes] using ht
          simp [a])
      have h1 : Settled (s.setThread j a) r := by
        refine h.thread (fun _ _ _ => ⟨rfl, fun ht => ?_⟩) (fun _ t' hne happ' hch => ?_)
          (fun p _ hp => h.route j p happ hp) (fun _ => .inr ⟨happ, rfl⟩) (fun _ _ _ => hown)
          (h.opening j) (h.made j)
        · cases ht
        · exact hne (h.uniq t' j happ' happ hch)
      have h2 := h1.descr (d := d) (k := { s.descr d with pc := .submit left j }) rfl rfl
        (fun t hl _ hp => by
          have ht := hj.hand_eq hd hheld hl
          exact absurd ht hp) (by simp) (by simp)
      have hk := (s.cl (s.thread j).ch).books_bookMove now ev (s.thread j).job.curPeriodicIncNs
      have h3 := h2.reprogram (d := d) (t := j) (n := left) (c := (s.thread j).ch)
        (k := (s.cl (s.thread j).ch).bookMove now ev (s.thread j).job.curPeriodicIncNs)
        hj2 hd (by simp) (by simp [a]) hown hk.made hk.handle
      simpa [Reg.next, hpc, htype, a] using h3
  | bookDelete d now left j ev hd hpc htype hc =>
      have hheld : (s.descr d).pc.held = some j := by rw [hpc]; rfl
      obtain ⟨hsent, hsig⟩ := hj.held_sent hd hheld
      have h1 := h.release hj hd (k := { s.descr d with pc := .jobs left }) hheld rfl rfl rfl
      have h2 := h1.signal (t := j) hsent
      have h3 := h2.disown (c := (s.thread j).ch) (d := d) hd ((h.closures d hd _).mp hc)
      have h4 := h3.books (c := (s.thread j).ch) ((s.cl (s.thread j).ch).books_bookDelete now ev)
      simpa [Reg.next, hpc, htype, hc, signalCompletion, Function.update_idem] using h4
  | bookDeleteMissing d now left j ev hd hpc htype hc =>
      have hheld : (s.descr d).pc.held = some j := by rw [hpc]; rfl
      have h1 := h.release hj hd (k := { s.descr d with pc := .jobs left }) hheld rfl rfl rfl
      have h2 := h1.signal (t := j) (hj.held_sent hd hheld).1
      have h3 := h2.books (c := (s.thread j).ch) ((s.cl (s.thread j).ch).books_bookDelete now ev)
      refine h3.congr rfl rfl rfl (fun _ => rfl) (fun _ => rfl) h3.handle ?_ ?_
      · simp [Reg.next, hpc, htype, hc]
      · simp [Reg.next, hpc, htype, hc]

theorem Settled.passStep (h : Settled s r) (hj : Jobs s r) (hm : Mapped s r)
    (hs : PassMove s l s') : Settled s' (r.next s l) := by
  cases hs with
  | passOn d now left j hd hpc =>
      have hheld : (s.descr d).pc.held = some j := by rw [hpc]; rfl
      have h1 := h.descr (d := d) (k := { s.descr d with
        pc := .route left j (s.cl (s.thread j).ch).periodicIncNs }) rfl rfl
        (fun t hl _ hp => absurd (hj.hand_eq hd hheld hl) hp)
        (fun n t p hp => by
          simp only [SamplerPc.route.injEq] at hp
          obtain ⟨-, rfl, rfl⟩ := hp
          rfl) (by simp)
      simpa [Reg.next, hpc] using h1
  | passFound d now left j p d' hd hpc hmtx hd' hne =>
      have hheld : (s.descr d).pc.held = some j := by rw [hpc]; rfl
      have hreg := hm.registered p d' hd'
      have h1 := h.release hj hd (k := { s.descr d with pc := .jobs left }) hheld rfl rfl rfl
      have h2 := h1.put (t := j) (x := .queue d') (fun d₁ hd₁ _ => by
        cases hd₁
        simpa [hne, ← h.pass d hd left j p hpc] using hreg.2.1) (by simp)
      have h3 := h2.descr (d := d') (k := { s.descr d' with jQueue := (s.descr d').jQueue ++ [j] })
        (by simp [hne]) (by simp [hne])
        (fun t' hl happ hp => h2.hand t' d' happ hl (by simpa [hne] using hp))
        (fun n t' p' hp => h2.pass d' hreg.1 n t' p' (by simpa [hne] using hp))
        (fun n t' ev hp => h2.moving d' hreg.1 n t' ev (by simpa [hne] using hp))
      refine h3.congr ?_ rfl rfl (fun _ => rfl) (fun _ => rfl) h3.handle ?_ ?_
      · simp [Function.update_comm hne]
      · simp [Reg.next, Reg.route, Reg.put, hpc, hd', Function.update_idem]
      · simp [Reg.next, Reg.route, Reg.put, hpc, hd']
  | passSelf d now left j p hd hpc hmtx hd' =>
      have hheld : (s.descr d).pc.held = some j := by rw [hpc]; rfl
      have hreg := hm.registered p d hd'
      have h1 := h.release hj hd (k := { s.descr d with
        jQueue := (s.descr d).jQueue ++ [j], pc := .jobs left }) hheld rfl rfl rfl
      have h2 := h1.put (t := j) (x := .queue d) (fun d₁ hd₁ _ => by
        cases hd₁
        simpa [← h.pass d hd left j p hpc] using hreg.2.1) (by simp)
      refine h2.congr rfl rfl rfl (fun _ => rfl) (fun _ => rfl) h2.handle ?_ ?_
      · simp [Reg.next, Reg.route, Reg.put, hpc, hd', Function.update_idem]
      · simp [Reg.next, Reg.route, Reg.put, hpc, hd']
  | passNew d now left j p hd hpc hmtx hd' =>
      have hheld : (s.descr d).pc.held = some j := by rw [hpc]; rfl
      have hp := h.pass d hd left j p hpc
      have htype := hj.passes d hd j (by rw [hpc]; rfl)
      have hne := Nat.ne_of_lt hd
      have hj1 := hj.release (k := { s.descr d with pc := .insertMap left p s.nrDescr }) hd hheld
        rfl rfl
      have h1 := h.release hj hd (k := { s.descr d with pc := .insertMap left p s.nrDescr }) hheld
        rfl rfl rfl
      have h2 := h1.new (t := j) hj1 p
      have h3 := h2.put (t := j) (x := .queue s.nrDescr) (fun d₁ hd₁ _ => by
        cases hd₁
        simpa [ThrDescriptor.new] using hp) (by simp)
      refine h3.congr ?_ rfl rfl (fun _ => rfl) (fun _ => rfl) h3.handle ?_ ?_
      · simp [Function.update_comm hne, ← hp]
      · simp [Reg.next, Reg.route, Reg.put, hpc, hd', htype, Function.update_idem]
      · simp [Reg.next, Reg.route, Reg.put, hpc, hd', htype]
  | passMap d now left p d' hd hpc =>
      have h1 := h.free hj hd (k := { s.descr d with pc := .jobs left }) rfl rfl
        (by rw [hpc]; rfl) rfl
      exact h1.congr rfl rfl rfl (fun _ => rfl) (fun _ => rfl) h1.handle (by simp [Reg.next, hpc])
        (by simp [Reg.next, hpc])

/-- **Every move leaves channels and jobs where their period says.** -/
theorem Settled.step (h : Settled s r) (hj : Jobs s r) (hm : Mapped s r) (hok : OneApp s l)
    (hs : Move s l s') : Settled s' (r.next s l) := by
  cases hs with
  | call hs => exact h.callStep hj hok hs
  | api hs => exact h.apiStep hj hm hs
  | handler c hmade => exact h.cl rfl rfl (h.handle c)
  | loop hs => exact h.loopStep hj hs
  | take hs => exact h.takeStep hj hs
  | book hs => exact h.bookStep hj hs
  | pass hs => exact h.passStep hj hm hs

end Step

/-! ## reached states -/

/-- The view `r` fits the state `s`. -/
structure Fits (s : Fpc) (r : Reg) : Prop where
  jobs : Jobs s r
  mapped : Mapped s r
  settled : Settled s r

theorem fits_init : Fits init .init where
  jobs := by constructor <;> simp [init, Reg.init]
  mapped := by constructor <;> simp [init, Reg.init]
  settled := by
    constructor <;> simp [init, Reg.init, ApiThread.app, FPCClosure.unmade, FPCClosure.init]

theorem Fits.step {s s' : Fpc} {r : Reg} {l : Act} (h : Fits s r) (hok : OneApp s l)
    (hs : Move s l s') : Fits s' (r.next s l) where
  jobs := h.jobs.step h.mapped hs
  mapped := h.mapped.step h.jobs h.settled hs
  settled := h.settled.step h.jobs h.mapped hok hs

/-- **Every reached state has a view that fits it.** -/
theorem reach_fits {s : Fpc} (h : Reach step init OneApp s) : ∃ r, Fits s r := by
  refine h.invariant (I := fun s => ∃ r, Fits s r) ⟨_, fits_init⟩ ?_
  intro s l s' ⟨r, hr⟩ hok hs
  exact ⟨_, hr.step hok (step_move hs)⟩

end Fpc

end CloudProfiler
