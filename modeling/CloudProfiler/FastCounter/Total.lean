import CloudProfiler.FastCounter.Serial
import CloudProfiler.FastCounter.Submit

/-!
# CloudProfiler.FastCounter.Total

No event of the fast periodic counter is lost or counted twice, when the
calls on one channel do not overlap.

* `Tally` — the log of an open channel sums up to `total_ctr`;
* `Flows` — the calls of the handler are in `total_ctr`, in `ctr`, or on
  their way from `ctr` to `total_ctr` at one sampling thread;
* `Backed` — open channels have their file, and DELETE_CHANNEL jobs the
  events they took;
* `total_counted` — what the log says when the channel is shut down;
* `total_lost` — a close that overlaps with a change of the period loses
  events.
-/

namespace CloudProfiler

/-! ## the log -/

/-- What a line adds to the sum of the data lines. -/
def FPCLine.count : FPCLine → UInt64
  | .ctr _ n => n
  | _ => 0

namespace Base

variable {b : Base FPCLine}

/-- The sum of the counts on all data lines. -/
def counted (b : Base FPCLine) : UInt64 := (b.lines.map FPCLine.count).sum

theorem counted_put (h : b.isOpen = true) (l : FPCLine) :
    (b.put l).counted = b.counted + l.count := by
  simp [put, h, counted]

theorem getLast_put (h : b.isOpen = true) (l : FPCLine) : (b.put l).lines.getLast? = some l := by
  simp [put, h]

end Base

namespace FPCClosure

/-- The file is open, and its lines sum up to `total_ctr`. -/
structure Tally (cl : FPCClosure) : Prop where
  isOpen : cl.base.isOpen = true
  counted : cl.base.counted = cl.totalCtr

variable {cl : FPCClosure}

@[simp] theorem isOpen_flushSkipped : cl.flushSkipped.base.isOpen = cl.base.isOpen := by
  unfold flushSkipped
  split <;> simp [put]

@[simp] theorem totalCtr_flushSkipped : cl.flushSkipped.totalCtr = cl.totalCtr := by
  unfold flushSkipped
  split <;> rfl

theorem counted_flushSkipped (h : cl.base.isOpen = true) :
    cl.flushSkipped.base.counted = cl.base.counted := by
  unfold flushSkipped
  split
  · simp [put, Base.counted_put h, FPCLine.count]
  · rfl

theorem totalCtr_account : cl.account.totalCtr = cl.totalCtr + cl.sampledCtr := by
  unfold account
  split
  · next h => simp [h]
  · simp [put]

theorem totalCtr_logHeader : cl.logHeader.totalCtr = cl.totalCtr := by
  unfold logHeader
  split <;> rfl

theorem totalCtr_bookDelete (now : Timespec) (ev : UInt64) :
    (cl.bookDelete now ev).totalCtr = cl.totalCtr + ev := by
  simp [bookDelete, printTruncatedPeriod, put]

theorem totalCtr_bookMove (now : Timespec) (ev p : UInt64) :
    (cl.bookMove now ev p).totalCtr = cl.totalCtr + ev := by
  simp [bookMove, printTruncatedPeriod, put]

theorem Tally.logHeader (h : cl.Tally) : cl.logHeader.Tally := by
  unfold FPCClosure.logHeader
  split
  · exact h
  · constructor
    · simpa [put] using h.isOpen
    · simpa [put, Base.counted_put h.isOpen, FPCLine.count] using h.counted

theorem Tally.account (h : cl.Tally) : cl.account.Tally := by
  unfold FPCClosure.account
  split
  · exact ⟨h.isOpen, h.counted⟩
  · constructor
    · simpa [put] using h.isOpen
    · have hs := (books_flushSkipped { cl with totalCtr := cl.totalCtr + cl.sampledCtr }).sampledCtr
      simp [put, Base.counted_put, counted_flushSkipped, h.isOpen, h.counted, FPCLine.count, hs]

theorem Tally.bookInsert (h : cl.Tally) (now : Timespec) (ev : UInt64) :
    (cl.bookInsert now ev).Tally where
  isOpen := by simpa [FPCClosure.bookInsert, printCtrStart, put] using h.isOpen
  counted := by
    simp [FPCClosure.bookInsert, printCtrStart, put, Base.counted_put, h.isOpen, h.counted,
      FPCLine.count]

theorem Tally.bookMove (h : cl.Tally) (now : Timespec) (ev p : UInt64) :
    (cl.bookMove now ev p).Tally where
  isOpen := by simpa [FPCClosure.bookMove, printTruncatedPeriod, put] using h.isOpen
  counted := by
    rw [totalCtr_bookMove]
    simp [FPCClosure.bookMove, printTruncatedPeriod, put, Base.counted_put, counted_flushSkipped,
      h.isOpen, h.counted, FPCLine.count]

theorem Tally.bookDelete (h : cl.Tally) (now : Timespec) (ev : UInt64) :
    (cl.bookDelete now ev).Tally where
  isOpen := by simpa [FPCClosure.bookDelete, printTruncatedPeriod, put] using h.isOpen
  counted := by
    rw [totalCtr_bookDelete]
    simp [FPCClosure.bookDelete, printTruncatedPeriod, put, Base.counted_put, counted_flushSkipped,
      h.isOpen, h.counted, FPCLine.count]

/-- DELETE_CHANNEL ends the log with the total. -/
theorem getLast_bookDelete (h : cl.base.isOpen = true) (now : Timespec) (ev : UInt64) :
    (cl.bookDelete now ev).base.lines.getLast? = some (.total (cl.totalCtr + ev)) := by
  simp [bookDelete, printTruncatedPeriod, put, Base.getLast_put, h]

end FPCClosure

/-! ## events on their way -/

/-- The channels whose sample is not accounted yet. -/
def SamplerPc.sampled : SamplerPc → List Nat
  | .sample seen _ => seen
  | .account rest => rest
  | _ => []

/-- The loops of `thr_f` go through the channels. -/
def ThrDescriptor.Walks (k : ThrDescriptor) : Prop :=
  match k.pc with
  | .sample seen rest => k.closures = seen ++ rest
  | .account rest => rest <:+ k.closures
  | _ => True

namespace Fpc

/-- Sampling thread `d` has taken events of channel `c` and not booked
them. -/
def Holds (s : Fpc) (d c : Nat) : Prop :=
  c ∈ (s.descr d).pc.sampled ∨ ∃ j, (s.descr d).pc.books = some j ∧ (s.thread j).ch = c

/-- Of each channel `c`, `e c` events are on their way. -/
structure Flows (s : Fpc) (e : Nat → UInt64) : Prop where
  walks : ∀ d < s.nrDescr, (s.descr d).Walks
  sum : ∀ c, UInt64.ofNat (s.cl c).calls = (s.cl c).totalCtr + (s.cl c).ctr + e c
  sampled : ∀ d < s.nrDescr, ∀ c ∈ (s.descr d).pc.sampled, e c = (s.cl c).sampledCtr
  booked : ∀ d < s.nrDescr, ∀ n j ev, (s.descr d).pc = .book n j ev → e (s.thread j).ch = ev
  held : ∀ c, e c ≠ 0 → ∃ d < s.nrDescr, s.Holds d c

section Held

variable {s s' : Fpc} {r : Reg} {e : Nat → UInt64} {t d d' c : Nat}

/-- What a sampling thread has sampled is its own. -/
theorem Flows.owner (h : Flows s e) (hr : Fits s r) (hd : d < s.nrDescr)
    (hc : c ∈ (s.descr d).pc.sampled) : r.owner c = some d := by
  refine (hr.settled.closures d hd c).mp ?_
  have hw := h.walks d hd
  cases hpc : (s.descr d).pc with
  | sample seen rest =>
      rw [hpc] at hc
      simp only [ThrDescriptor.Walks, hpc] at hw
      rw [hw]
      exact List.mem_append_left _ hc
  | account rest =>
      rw [hpc] at hc
      simp only [ThrDescriptor.Walks, hpc] at hw
      exact hw.mem hc
  | _ =>
      rw [hpc] at hc
      cases hc

/-- The channel of a job being booked is in that sampling thread or in none. -/
theorem Owned.booked_owner (h : Owned s r) (hr : Fits s r) (hd : d < s.nrDescr) {j : Nat}
    (hb : (s.descr d).pc.books = some j) {d' : Nat} (ho : r.owner (s.thread j).ch = some d') :
    d' = d := by
  have hloc := hr.jobs.books_hand hd hb
  obtain ⟨hsent, hsig⟩ := hr.jobs.sent j (by rw [hloc]; simp)
  cases htype : (s.thread j).job.type with
  | insertChannel =>
      rw [hr.settled.inserting j (ApiThread.app_of_sent hsent (by simp [htype])) htype hsig] at ho
      cases ho
  | moveChannel =>
      rw [hr.away ⟨j, rfl, ApiPc.working_of_sent hsent, hsig, .inr ⟨htype, d, hd, hb⟩⟩] at ho
      cases ho
  | deleteChannel =>
      rw [h.here j d (.inr hloc) (.inl htype)] at ho
      exact (Option.some.inj ho).symm

/-- The events of a channel are on their way at one sampling thread only. -/
theorem Flows.holds_uniq (h : Flows s e) (hr : Fits s r) (ho : Owned s r) (hd : d < s.nrDescr)
    (hd' : d' < s.nrDescr) (hh : s.Holds d c) (hh' : s.Holds d' c) : d = d' := by
  obtain hc | ⟨j, hb, hch⟩ := hh
  · obtain hc' | ⟨j', hb', hch'⟩ := hh'
    · exact Option.some.inj ((h.owner hr hd hc).symm.trans (h.owner hr hd' hc'))
    · exact ho.booked_owner hr hd' hb' (hch' ▸ h.owner hr hd hc)
  · obtain hc' | ⟨j', hb', hch'⟩ := hh'
    · exact (ho.booked_owner hr hd hb (hch ▸ h.owner hr hd' hc')).symm
    · have hloc := hr.jobs.books_hand hd hb
      have hloc' := hr.jobs.books_hand hd' hb'
      have hj := ho.uniq j j' (hr.jobs.busy (.inr hloc)) (hr.jobs.busy (.inr hloc'))
        (hch.trans hch'.symm)
      rw [hj, hloc'] at hloc
      cases hloc
      rfl

/-- No events of a channel are on their way while a job on it is taken up. -/
theorem Flows.take_quiet (h : Flows s e) (hr : Fits s r) (ho : Owned s r) (hd : d < s.nrDescr)
    {n j : Nat} (hpc : (s.descr d).pc = .take n j)
    (hown : ∀ d', r.owner (s.thread j).ch = some d' → d' = d) (hd' : d' < s.nrDescr) :
    ¬ s.Holds d' (s.thread j).ch := by
  rintro (hc | ⟨j', hb, hch⟩)
  · obtain rfl := hown d' (h.owner hr hd' hc)
    simp [hpc, SamplerPc.sampled] at hc
  · have hloc := (hr.jobs.hand d hd j).mp (by rw [hpc]; rfl)
    have hloc' := hr.jobs.books_hand hd' hb
    have hj := ho.uniq j' j (hr.jobs.busy (.inr hloc')) (hr.jobs.busy (.inr hloc)) hch
    rw [hj, hloc] at hloc'
    cases hloc'
    simp [hpc, SamplerPc.books] at hb

/-- Nor when it is sampled. -/
theorem Flows.sample_quiet (h : Flows s e) (hr : Fits s r) (ho : Owned s r) (hd : d < s.nrDescr)
    {seen rest : List Nat} (hpc : (s.descr d).pc = .sample seen (c :: rest))
    (hd' : d' < s.nrDescr) : ¬ s.Holds d' c := by
  have hw := h.walks d hd
  simp only [ThrDescriptor.Walks, hpc] at hw
  have hown : r.owner c = some d := (hr.settled.closures d hd c).mp (by rw [hw]; simp)
  rintro (hc | ⟨j, hb, hch⟩)
  · obtain rfl : d = d' := Option.some.inj (hown.symm.trans (h.owner hr hd' hc))
    have hnodup := hr.settled.nodup d hd
    rw [hw] at hnodup
    rw [hpc] at hc
    exact (List.nodup_append.mp hnodup).2.2 c hc c List.mem_cons_self rfl
  · obtain rfl := ho.booked_owner hr hd' hb (hch ▸ hown)
    simp [hpc, SamplerPc.books] at hb

theorem Flows.eq_zero (h : Flows s e) (hq : ∀ d < s.nrDescr, ¬ s.Holds d c) : e c = 0 := by
  by_contra hne
  obtain ⟨d, hd, hh⟩ := h.held c hne
  exact hq d hd hh

end Held

section FlowMoves

variable {s s' : Fpc} {e : Nat → UInt64} {t d c : Nat}

/-- A thread goes on. -/
theorem Flows.thread (h : Flows s e) {a : ApiThread}
    (hch : ∀ d < s.nrDescr, (s.descr d).pc.books = some t → a.ch = (s.thread t).ch) :
    Flows (s.setThread t a) e where
  walks := h.walks
  sum := h.sum
  sampled := h.sampled
  booked d' hd' n j ev hpc := by
    have hpc' : (s.descr d').pc = .book n j ev := hpc
    have hold := h.booked d' hd' n j ev hpc'
    by_cases hj : j = t
    · subst hj
      simpa [hch d' hd' (by rw [hpc']; rfl)] using hold
    · simpa [hj] using hold
  held c' hc' := by
    obtain ⟨d', hd', hh⟩ := h.held c' hc'
    refine ⟨d', hd', hh.imp id fun ⟨j, hb, hj⟩ => ⟨j, hb, ?_⟩⟩
    by_cases hjt : j = t
    · subst hjt
      simpa [hch d' hd' hb] using hj
    · simpa [hjt] using hj

/-- A sampling thread goes on that has the same events. -/
theorem Flows.descr (h : Flows s e) {k : ThrDescriptor} (hw : k.Walks)
    (hs : ∀ c, c ∈ k.pc.sampled ↔ c ∈ (s.descr d).pc.sampled)
    (hb : (s.descr d).pc.books = none) (hk : k.pc.books = none) : Flows (s.setDescr d k) e where
  walks d' hd' := by
    by_cases hd : d' = d
    · subst hd; simpa using hw
    · simpa [hd] using h.walks d' hd'
  sum := h.sum
  sampled d' hd' c' := by
    by_cases hd : d' = d
    · subst hd; simpa [hs] using h.sampled d' hd' c'
    · simpa [hd] using h.sampled d' hd' c'
  booked d' hd' n j ev hpc := by
    by_cases hd : d' = d
    · subst hd
      simp only [setDescr, Function.update_self] at hpc
      simp [hpc, SamplerPc.books] at hk
    · exact h.booked d' hd' n j ev (by simpa [hd] using hpc)
  held c' hc' := by
    obtain ⟨d', hd', hh⟩ := h.held c' hc'
    refine ⟨d', hd', ?_⟩
    by_cases hd : d' = d
    · subst hd
      obtain hc | ⟨j, hj, -⟩ := hh
      · exact .inl (by simpa [hs] using hc)
      · rw [hb] at hj
        cases hj
    · simpa [Holds, hd] using hh

/-- A job is put into a queue. -/
theorem Flows.enqueue (h : Flows s e) {q : List Nat} :
    Flows (s.setDescr d { s.descr d with jQueue := q }) e := by
  have hpc : ∀ d', ((s.setDescr d { s.descr d with jQueue := q }).descr d').pc = (s.descr d').pc := by
    intro d'
    by_cases hd : d' = d
    · subst hd; simp
    · simp [hd]
  constructor
  · intro d' hd'
    have hold := h.walks d' hd'
    by_cases hd : d' = d
    · subst hd
      simp only [setDescr, Function.update_self]
      exact hold
    · simpa [hd] using hold
  · exact h.sum
  · intro d' hd' c'
    rw [hpc]
    exact h.sampled d' hd' c'
  · intro d' hd' n j ev
    rw [hpc]
    exact h.booked d' hd' n j ev
  · intro c' hc'
    simp only [Holds, hpc]
    exact h.held c' hc'

/-- A channel is logged, opened or closed. -/
theorem Flows.cl (h : Flows s e) {k : FPCClosure} (hcalls : k.calls = (s.cl c).calls)
    (htotal : k.totalCtr = (s.cl c).totalCtr) (hctr : k.ctr = (s.cl c).ctr)
    (hs : k.sampledCtr = (s.cl c).sampledCtr) : Flows (s.setCl c k) e where
  walks := h.walks
  sum c' := by
    by_cases hc : c' = c
    · subst hc; simpa [hcalls, htotal, hctr] using h.sum c'
    · simpa [hc] using h.sum c'
  sampled d' hd' c' hc' := by
    by_cases hc : c' = c
    · subst hc; simpa [hs] using h.sampled d' hd' c' hc'
    · simpa [hc] using h.sampled d' hd' c' hc'
  booked := h.booked
  held := h.held

/-- The handler is called. -/
theorem Flows.handler (h : Flows s e) : Flows (s.setCl c (s.cl c).handler) e where
  walks := h.walks
  sum c' := by
    have hold := h.sum c'
    by_cases hc : c' = c
    · subst hc
      simp only [setCl, Function.update_self, FPCClosure.handler, UInt64.ofNat_add, hold]
      grind
    · simpa [hc] using hold
  sampled d' hd' c' hc' := by
    by_cases hc : c' = c
    · subst hc; simpa [FPCClosure.handler] using h.sampled d' hd' c' hc'
    · simpa [hc] using h.sampled d' hd' c' hc'
  booked := h.booked
  held := h.held

/-- A closure is made. -/
theorem Flows.make (h : Flows s e) (hq : ∀ d < s.nrDescr, ¬ s.Holds d c) :
    Flows (s.setCl c .init) e where
  walks := h.walks
  sum c' := by
    by_cases hc : c' = c
    · subst hc; simp [FPCClosure.init, h.eq_zero hq]
    · simpa [hc] using h.sum c'
  sampled d' hd' c' hc' := by
    have hne : c' ≠ c := by
      rintro rfl
      exact hq d' hd' (.inl hc')
    simpa [hne] using h.sampled d' hd' c' hc'
  booked := h.booked
  held := h.held

/-- A descriptor is created. -/
theorem Flows.new (h : Flows s e) (p : UInt64) :
    Flows { s.setDescr s.nrDescr (.new p t) with nrDescr := s.nrDescr + 1 } e where
  walks d' hd' := by
    by_cases hd : d' = s.nrDescr
    · simp [hd, ThrDescriptor.new, ThrDescriptor.Walks]
    · simpa [hd] using h.walks d' (by simp at hd'; omega)
  sum := h.sum
  sampled d' hd' c' := by
    by_cases hd : d' = s.nrDescr
    · simp [hd, ThrDescriptor.new, SamplerPc.sampled]
    · simpa [hd] using h.sampled d' (by simp at hd'; omega) c'
  booked d' hd' n j ev := by
    by_cases hd : d' = s.nrDescr
    · simp [hd, ThrDescriptor.new]
    · simpa [hd] using h.booked d' (by simp at hd'; omega) n j ev
  held c' hc' := by
    obtain ⟨d', hd', hh⟩ := h.held c' hc'
    exact ⟨d', Nat.lt_succ_of_lt hd', by simpa [Holds, Nat.ne_of_lt hd'] using hh⟩

/-- A sampling thread takes the events from the counter, in its first loop
or for a job. -/
theorem Flows.take (h : Flows s e) (hd : d < s.nrDescr) (hq : ∀ d < s.nrDescr, ¬ s.Holds d c)
    {k : ThrDescriptor} (hw : k.Walks) (hb : (s.descr d).pc.books = none)
    {kc : FPCClosure} (hcalls : kc.calls = (s.cl c).calls)
    (htotal : kc.totalCtr = (s.cl c).totalCtr) (hctr : kc.ctr = 0)
    (hs : ∀ c', c' ∈ k.pc.sampled ↔ c' ∈ (s.descr d).pc.sampled ∨
      c' = c ∧ c ∈ k.pc.sampled)
    (hnew : c ∈ k.pc.sampled ∧ k.pc.books = none ∧ kc.sampledCtr = (s.cl c).ctr ∨
      c ∉ k.pc.sampled ∧ ∃ n j, k.pc = .book n j (s.cl c).ctr ∧ (s.thread j).ch = c) :
    Flows ((s.setCl c kc).setDescr d k) (Function.update e c (s.cl c).ctr) where
  walks d' hd' := by
    by_cases hdd : d' = d
    · subst hdd; simpa using hw
    · simpa [hdd] using h.walks d' hd'
  sum c' := by
    have hold := h.sum c'
    by_cases hc : c' = c
    · subst hc
      rw [h.eq_zero hq] at hold
      simpa [hcalls, htotal, hctr] using hold
    · simpa [hc] using hold
  sampled d' hd' c' hc' := by
    by_cases hdd : d' = d
    · subst hdd
      have hc' := (hs c').mp (by simpa using hc')
      by_cases hc : c' = c
      · subst hc
        obtain ⟨-, -, hsam⟩ | ⟨hnot, -⟩ := hnew
        · simpa using hsam.symm
        · obtain hc' | ⟨-, hc'⟩ := hc'
          · exact absurd (.inl hc') (hq d' hd')
          · exact absurd hc' hnot
      · simpa [hc] using h.sampled d' hd' c' (hc'.resolve_right fun hc' => hc hc'.1)
    · have hc'' : c' ∈ (s.descr d').pc.sampled := by simpa [hdd] using hc'
      have hc : c' ≠ c := by
        rintro rfl
        exact hq d' hd' (.inl hc'')
      simpa [hc] using h.sampled d' hd' c' hc''
  booked d' hd' n j ev hpc := by
    by_cases hdd : d' = d
    · subst hdd
      simp only [setDescr, Function.update_self] at hpc
      obtain ⟨-, hbk, -⟩ | ⟨-, n', j', hk, hch⟩ := hnew
      · simp [hpc, SamplerPc.books] at hbk
      · rw [hpc] at hk
        cases hk
        simp [hch]
    · have hpc' : (s.descr d').pc = .book n j ev := by simpa [hdd] using hpc
      have hc : (s.thread j).ch ≠ c := by
        intro hc
        exact hq d' hd' (.inr ⟨j, by rw [hpc']; rfl, hc⟩)
      simpa [hc] using h.booked d' hd' n j ev hpc'
  held c' hc' := by
    by_cases hc : c' = c
    · subst hc
      refine ⟨d, hd, ?_⟩
      obtain ⟨hmem, -, -⟩ | ⟨-, n', j', hk, hch⟩ := hnew
      · exact .inl (by simpa using hmem)
      · exact .inr ⟨j', by simp [hk, SamplerPc.books], hch⟩
    · obtain ⟨d', hd', hh⟩ := h.held c' (by simpa [hc] using hc')
      refine ⟨d', hd', ?_⟩
      by_cases hdd : d' = d
      · subst hdd
        obtain hh | ⟨j, hj, -⟩ := hh
        · exact .inl (by simpa using (hs c').mpr (.inl hh))
        · rw [hb] at hj
          cases hj
      · simpa [Holds, hdd] using hh

/-- A sampling thread books the events it has of a channel. -/
theorem Flows.book (h : Flows s e)
    (hone : ∀ d' < s.nrDescr, d' ≠ d → ¬ s.Holds d' c) {k : ThrDescriptor} (hw : k.Walks)
    (hk : k.pc.books = none) {kc : FPCClosure} (hcalls : kc.calls = (s.cl c).calls)
    (htotal : kc.totalCtr = (s.cl c).totalCtr + e c) (hctr : kc.ctr = (s.cl c).ctr)
    (hs : ∀ c', c' ∈ k.pc.sampled ↔ c' ∈ (s.descr d).pc.sampled ∧ c' ≠ c)
    (hb : ∀ j, (s.descr d).pc.books = some j → (s.thread j).ch = c) :
    Flows ((s.setCl c kc).setDescr d k) (Function.update e c 0) where
  walks d' hd' := by
    by_cases hdd : d' = d
    · subst hdd; simpa using hw
    · simpa [hdd] using h.walks d' hd'
  sum c' := by
    have hold := h.sum c'
    by_cases hc : c' = c
    · subst hc
      simp only [setDescr, setCl, Function.update_self, hcalls, htotal, hctr, hold]
      grind
    · simpa [hc] using hold
  sampled d' hd' c' hc' := by
    by_cases hdd : d' = d
    · subst hdd
      simp only [setDescr, Function.update_self, hs] at hc'
      simpa [hc'.2] using h.sampled d' hd' c' hc'.1
    · have hc'' : c' ∈ (s.descr d').pc.sampled := by simpa [hdd] using hc'
      have hc : c' ≠ c := by
        rintro rfl
        exact hone d' hd' hdd (.inl hc'')
      simpa [hc] using h.sampled d' hd' c' hc''
  booked d' hd' n j ev hpc := by
    by_cases hdd : d' = d
    · subst hdd
      simp only [setDescr, Function.update_self] at hpc
      simp [hpc, SamplerPc.books] at hk
    · have hpc' : (s.descr d').pc = .book n j ev := by simpa [hdd] using hpc
      have hc : (s.thread j).ch ≠ c := by
        intro hc
        exact hone d' hd' hdd (.inr ⟨j, by rw [hpc']; rfl, hc⟩)
      simpa [hc] using h.booked d' hd' n j ev hpc'
  held c' hc' := by
    have hc : c' ≠ c := by
      rintro rfl
      simp at hc'
    obtain ⟨d', hd', hh⟩ := h.held c' (by simpa [hc] using hc')
    refine ⟨d', hd', ?_⟩
    by_cases hdd : d' = d
    · subst hdd
      obtain hh | ⟨j, hj, hch⟩ := hh
      · exact .inl (by simpa [hs] using ⟨hh, hc⟩)
      · exact absurd (hch.symm.trans (hb j hj)) hc
    · simpa [Holds, hdd] using hh

/-- What `Flows` says does not depend on the rest of the state. -/
theorem Flows.congr (h : Flows s e) (hd : s'.descr = s.descr) (hn : s'.nrDescr = s.nrDescr)
    (ht : s'.thread = s.thread) (hcl : s'.cl = s.cl) : Flows s' e := by
  constructor
  · rw [hd, hn]; exact h.walks
  · rw [hcl]; exact h.sum
  · rw [hd, hn, hcl]; exact h.sampled
  · rw [hd, hn, ht]; exact h.booked
  · simp only [Holds, hd, hn, ht]; exact h.held

end FlowMoves

section FlowStep

variable {s s' : Fpc} {r : Reg} {e : Nat → UInt64} {l : Act}

theorem Jobs.not_books (h : Jobs s r) {t d : Nat} (hpc : (s.thread t).pc.sent = false)
    (hd : d < s.nrDescr) : (s.descr d).pc.books ≠ some t := by
  intro hb
  rw [(h.sent t (by rw [h.books_hand hd hb]; simp)).1] at hpc
  contradiction

/-- The loops of `thr_f` start and end. -/
theorem Goto.walks {k : ThrDescriptor} {pc : SamplerPc} (h : Goto k pc) (hw : k.Walks)
    (ts : Timespec) : { k with tsFlush := ts, pc := pc }.Walks ∧
      (∀ c, c ∈ pc.sampled ↔ c ∈ k.pc.sampled) ∧ k.pc.books = none ∧ pc.books = none := by
  cases h with
  | sampled seen hpc =>
      simp only [ThrDescriptor.Walks, hpc, List.append_nil] at hw
      simp [ThrDescriptor.Walks, SamplerPc.sampled, SamplerPc.books, hpc, hw]
  | start hpc | accounted hpc | snooze hpc | noJob hpc | remove hpc | clock hpc | due hpc
  | notDue hpc => simp [ThrDescriptor.Walks, SamplerPc.sampled, SamplerPc.books, hpc]

/-- A job is done with. -/
theorem Flows.bookJob (h : Flows s e) (hr : Fits s r) (ho : Owned s r) {d n j : Nat} {ev : UInt64}
    (hd : d < s.nrDescr) (hpc : (s.descr d).pc = .book n j ev) {k : ThrDescriptor} (hw : k.Walks)
    (hk : k.pc.books = none) (hsam : k.pc.sampled = []) {kc : FPCClosure}
    (hcalls : kc.calls = (s.cl (s.thread j).ch).calls) (hctr : kc.ctr = (s.cl (s.thread j).ch).ctr)
    (htotal : kc.totalCtr = (s.cl (s.thread j).ch).totalCtr + ev) :
    Flows ((s.setCl (s.thread j).ch kc).setDescr d k) (Function.update e (s.thread j).ch 0) := by
  have hb : (s.descr d).pc.books = some j := by rw [hpc]; rfl
  refine h.book (fun d' hd' hne hh => hne ?_) hw hk hcalls ?_ hctr ?_ (fun j' hj' => ?_)
  · exact h.holds_uniq hr ho hd' hd hh (.inr ⟨j, hb, rfl⟩)
  · rw [htotal, h.booked d hd n j ev hpc]
  · intro c'
    rw [hsam, hpc]
    simp [SamplerPc.sampled]
  · rw [hb] at hj'
    cases hj'
    rfl

theorem Flows.callStep (h : Flows s e) (hr : Fits s r) (hs : CallMove s l s') :
    ∃ e', Flows s' e' := by
  have hj := hr.jobs
  cases hs with
  | openChannel t c ok hidle hmade =>
      have h1 := h.make (c := c) (fun d hd hh => by
        obtain hc | ⟨j, hb, rfl⟩ := hh
        · have hown := h.owner hr hd hc
          rw [hr.settled.unmade c hmade] at hown
          cases hown
        · rw [hr.settled.made j (hj.busy (.inr (hj.books_hand hd hb)))] at hmade
          cases hmade)
      exact ⟨e, h1.thread fun d hd hb => absurd hb (hj.not_books (by rw [hidle]; rfl) hd)⟩
  | param t c a p hidle hhandle hreq =>
      exact ⟨e, h.thread fun d hd hb => absurd hb (hj.not_books (by rw [hidle]; rfl) hd)⟩
  | refuse t c a hreq => exact ⟨e, h⟩
  | close t c l hl hidle hmade href | closeAgain t c l hl hidle hmade href =>
      exact ⟨e, h.thread fun d hd hb => absurd hb (hj.not_books (by rw [hidle]; rfl) hd)⟩

theorem Flows.apiStep (h : Flows s e) (hr : Fits s r) (hs : ApiMove s l s') :
    ∃ e', Flows s' e' := by
  have hj := hr.jobs
  cases hs with
  | openFailed t hpc | submit t hpc | deleted t hpc => exact ⟨e, h.thread fun _ _ _ => rfl⟩
  | opened t hpc =>
      have h1 := h.cl (c := (s.thread t).ch)
        (k := { s.cl (s.thread t).ch with base := .opened, isRefCounted := true }) rfl rfl rfl rfl
      have h2 := h1.thread (t := t) (a := ⟨.submit, (s.thread t).ch, ⟨.insertChannel, -1, 0⟩⟩)
        fun _ _ _ => rfl
      exact ⟨e, h2.congr rfl rfl rfl rfl⟩
  | routeFound t p d hpc hmtx hd =>
      have h1 : Flows (s.setDescr d { s.descr d with jQueue := (s.descr d).jQueue ++ [t] }) e :=
        h.enqueue
      exact ⟨e, h1.thread fun _ _ _ => rfl⟩
  | routeNew t p hpc hmtx hd htype =>
      have h1 := h.new (t := t) (s.cl (s.thread t).ch).periodicIncNs
      have h2 := h1.thread (t := t) (a := { s.thread t with pc := .insertMap p s.nrDescr })
        fun _ _ _ => rfl
      exact ⟨e, h2.congr rfl rfl rfl rfl⟩
  | routeLost t p hpc hmtx hd htype =>
      have h1 := h.thread (t := t) (a := { s.thread t with pc := .wait }) fun _ _ _ => rfl
      exact ⟨e, h1.congr rfl rfl rfl rfl⟩
  | insertMap t p d hpc =>
      have h1 := h.thread (t := t) (a := { s.thread t with pc := .wait }) fun _ _ _ => rfl
      exact ⟨e, h1.congr rfl rfl rfl rfl⟩
  | returned t hpc hsig htype =>
      have h1 := h.cl (c := (s.thread t).ch) (k := { s.cl (s.thread t).ch with handle := true })
        rfl rfl rfl rfl
      exact ⟨e, h1.thread fun _ _ _ => rfl⟩
  | countOut t hpc =>
      have h1 := h.thread (t := t) (a := { s.thread t with pc := .clear }) fun _ _ _ => rfl
      exact ⟨e, h1.congr rfl rfl rfl rfl⟩
  | clear t hpc =>
      have h1 := h.cl (c := (s.thread t).ch) (k := { s.cl (s.thread t).ch with
        isRefCounted := false }) rfl rfl rfl rfl
      exact ⟨e, h1.thread fun d hd hb => absurd hb (hj.not_books (by rw [hpc]; rfl) hd)⟩
  | closing t hpc =>
      have h1 := h.cl (c := (s.thread t).ch) (k := { s.cl (s.thread t).ch with
        base := (s.cl (s.thread t).ch).base.closeChannel }) rfl rfl rfl rfl
      exact ⟨e, h1.thread fun _ _ _ => rfl⟩

theorem Flows.loopStep (h : Flows s e) (hr : Fits s r) (ho : Owned s r) (hs : LoopMove s l s') :
    ∃ e', Flows s' e' := by
  cases hs with
  | goto d now ts pc hd hgo =>
      obtain ⟨hw, hsam, hb, hk⟩ := hgo.walks (h.walks d hd) ts
      exact ⟨e, h.descr hw hsam hb hk⟩
  | sample d now seen c rest hd hpc =>
      have hw := h.walks d hd
      simp only [ThrDescriptor.Walks, hpc] at hw
      refine ⟨_, h.take hd (fun d' hd' => h.sample_quiet hr ho hd hpc hd') ?_
        (by simp [hpc, SamplerPc.books]) rfl rfl rfl ?_ (.inl ⟨?_, rfl, rfl⟩)⟩
      · simp [ThrDescriptor.Walks, hw]
      · simp [hpc, SamplerPc.sampled]
      · simp [SamplerPc.sampled]
  | account d now c rest hd hpc =>
      have hk := (s.cl c).books_account
      have hmem : c ∈ (s.descr d).pc.sampled := by rw [hpc]; exact List.mem_cons_self
      have hw := h.walks d hd
      simp only [ThrDescriptor.Walks, hpc] at hw
      have hnot : c ∉ rest :=
        (List.nodup_cons.mp ((hr.settled.nodup d hd).sublist hw.sublist)).1
      refine ⟨_, h.book (d := d) (fun d' hd' hne hh => hne ?_) ?_ rfl hk.calls ?_ hk.ctr ?_
        (by simp [hpc, SamplerPc.books])⟩
      · exact h.holds_uniq hr ho hd' hd hh (.inl hmem)
      · exact (List.suffix_cons c rest).trans hw
      · rw [h.sampled d hd c hmem]
        exact FPCClosure.totalCtr_account
      · intro c'
        simp only [hpc, SamplerPc.sampled, List.mem_cons]
        grind
  | job d now left j q hd hpc hq =>
      exact ⟨e, h.descr trivial (by simp [hpc, SamplerPc.sampled]) (by simp [hpc, SamplerPc.books])
        rfl⟩
  | keep d now fs hd hpc hmtx hfs =>
      have h1 := h.descr (d := d) (k := { s.descr d with pc := .clock }) trivial
        (by simp [hpc, SamplerPc.sampled]) (by simp [hpc, SamplerPc.books]) rfl
      exact ⟨e, h1.congr rfl rfl rfl rfl⟩
  | removed d now d' hd hpc =>
      have h1 := h.descr (d := d) (k := { s.descr d with pc := .done }) trivial
        (by simp [hpc, SamplerPc.sampled]) (by simp [hpc, SamplerPc.books]) rfl
      exact ⟨e, h1.congr rfl rfl rfl rfl⟩

theorem Flows.takeStep (h : Flows s e) (hr : Fits s r) (ho : Owned s r) (hs : TakeMove s l s') :
    ∃ e', Flows s' e' := by
  have hj := hr.jobs
  cases hs with
  | takeInsert d now left j hd hpc htype =>
      have hk := (s.cl (s.thread j).ch).books_logHeader
      obtain ⟨hsent, hsig⟩ := hj.held_sent (t := j) hd (by rw [hpc]; rfl)
      have hown := hr.settled.inserting j (ApiThread.app_of_sent hsent (by simp [htype])) htype hsig
      refine ⟨_, h.take hd (fun d' hd' => h.take_quiet hr ho hd hpc (by simp [hown]) hd') ?_
        (by simp [hpc, SamplerPc.books]) hk.calls FPCClosure.totalCtr_logHeader rfl ?_
        (.inr ⟨?_, left, j, rfl, rfl⟩)⟩
      · trivial
      · simp [hpc, SamplerPc.sampled]
      · simp [SamplerPc.sampled]
  | takeMove d now left j hd hpc htype hc =>
      have hown := (hr.settled.closures d hd _).mp hc
      refine ⟨_, h.take hd (fun d' hd' => h.take_quiet hr ho hd hpc
        (fun d' hd' => Option.some.inj (hd'.symm.trans hown)) hd') ?_
        (by simp [hpc, SamplerPc.books]) rfl rfl rfl ?_ (.inr ⟨?_, left, j, rfl, rfl⟩)⟩
      · trivial
      · simp [hpc, SamplerPc.sampled]
      · simp [SamplerPc.sampled]
  | takeMissing d now left j hd hpc htype hc =>
      have h1 := h.descr (d := d) (k := { s.descr d with pc := .jobs left }) trivial
        (by simp [hpc, SamplerPc.sampled]) (by simp [hpc, SamplerPc.books]) rfl
      have h2 := h1.thread (t := j) (a := { s.thread j with
        job := { (s.thread j).job with signals := (s.thread j).job.signals + 1 } }) fun _ _ _ => rfl
      exact ⟨e, h2.congr rfl rfl rfl rfl⟩
  | takeDelete d now left j hd hpc htype =>
      have hloc := (hj.hand d hd j).mp (by rw [hpc]; rfl)
      have hown := ho.here j d (.inr hloc) (.inl htype)
      refine ⟨_, h.take hd (fun d' hd' => h.take_quiet hr ho hd hpc
        (fun d' hd' => Option.some.inj (hd'.symm.trans hown)) hd') ?_
        (by simp [hpc, SamplerPc.books]) rfl rfl rfl ?_ (.inr ⟨?_, left, j, rfl, rfl⟩)⟩
      · trivial
      · simp [hpc, SamplerPc.sampled]
      · simp [SamplerPc.sampled]

theorem Flows.bookStep (h : Flows s e) (hr : Fits s r) (ho : Owned s r) (hs : BookMove s l s') :
    ∃ e', Flows s' e' := by
  have hj := hr.jobs
  cases hs with
  | bookInsert d now left j ev hd hpc htype =>
      have hk := (s.cl (s.thread j).ch).books_bookInsert now ev
      have h1 := h.bookJob hr ho hd hpc (k := { (s.descr d).insert (s.thread j).ch with
        pc := .jobs left }) trivial rfl rfl hk.calls hk.ctr rfl
      have h2 := h1.thread (t := j) (a := { s.thread j with
        job := { (s.thread j).job with signals := (s.thread j).job.signals + 1 } }) fun _ _ _ => rfl
      exact ⟨_, h2.congr rfl rfl rfl rfl⟩
  | bookMove d now left j ev hd hpc htype =>
      have hk := (s.cl (s.thread j).ch).books_bookMove now ev (s.thread j).job.curPeriodicIncNs
      have h1 := h.bookJob hr ho hd hpc (k := { s.descr d with pc := .submit left j }) trivial rfl
        rfl hk.calls hk.ctr (FPCClosure.totalCtr_bookMove now ev _)
      have h2 := h1.thread (t := j) (a := { s.thread j with
        job := { (s.thread j).job with type := .insertChannel, curPeriodicIncNs := -1 } })
        fun _ _ _ => rfl
      exact ⟨_, h2.congr rfl rfl rfl rfl⟩
  | bookDelete d now left j ev hd hpc htype hc =>
      have hk := (s.cl (s.thread j).ch).books_bookDelete now ev
      have h1 := h.bookJob hr ho hd hpc (k := { s.descr d with
        closures := (s.descr d).closures.erase (s.thread j).ch, pc := .jobs left }) trivial rfl rfl
        hk.calls hk.ctr (FPCClosure.totalCtr_bookDelete now ev)
      have h2 := h1.thread (t := j) (a := { s.thread j with
        job := { (s.thread j).job with signals := (s.thread j).job.signals + 1 } }) fun _ _ _ => rfl
      exact ⟨_, h2.congr rfl rfl rfl rfl⟩
  | bookDeleteMissing d now left j ev hd hpc htype hc =>
      have hown := ho.here j d (.inr ((hj.hand d hd j).mp (by rw [hpc]; rfl))) (.inl htype)
      exact absurd ((hr.settled.closures d hd _).mpr hown) hc

theorem Flows.passStep (h : Flows s e) (hs : PassMove s l s') : ∃ e', Flows s' e' := by
  cases hs with
  | passOn d now left j hd hpc | passSelf d now left j p hd hpc =>
      exact ⟨e, h.descr trivial (by simp [hpc, SamplerPc.sampled]) (by simp [hpc, SamplerPc.books])
        rfl⟩
  | passFound d now left j p d' hd hpc hmtx hd' hne =>
      have h1 := h.enqueue (d := d') (q := (s.descr d').jQueue ++ [j])
      have h2 := h1.descr (d := d) (k := { s.descr d with pc := .jobs left }) trivial
        (by simp [hne.symm, hpc, SamplerPc.sampled]) (by simp [hne.symm, hpc, SamplerPc.books]) rfl
      exact ⟨e, h2⟩
  | passNew d now left j p hd hpc hmtx hd' =>
      have hne := Nat.ne_of_lt hd
      have h1 := h.new (t := j) (s.cl (s.thread j).ch).periodicIncNs
      have h2 := h1.descr (d := d) (k := { s.descr d with pc := .insertMap left p s.nrDescr })
        trivial (by simp [hne, hpc, SamplerPc.sampled]) (by simp [hne, hpc, SamplerPc.books]) rfl
      exact ⟨e, h2.congr rfl rfl rfl rfl⟩
  | passMap d now left p d' hd hpc =>
      have h1 := h.descr (d := d) (k := { s.descr d with pc := .jobs left }) trivial
        (by simp [hpc, SamplerPc.sampled]) (by simp [hpc, SamplerPc.books]) rfl
      exact ⟨e, h1.congr rfl rfl rfl rfl⟩

/-- **Every move keeps account of the events.** -/
theorem Flows.step (h : Flows s e) (hr : Fits s r) (ho : Owned s r) (hs : Move s l s') :
    ∃ e', Flows s' e' := by
  cases hs with
  | call hs => exact h.callStep hr hs
  | api hs => exact h.apiStep hr hs
  | handler c hmade => exact ⟨e, h.handler⟩
  | loop hs => exact h.loopStep hr ho hs
  | take hs => exact h.takeStep hr ho hs
  | book hs => exact h.bookStep hr ho hs
  | pass hs => exact h.passStep hs

end FlowStep

/-! ## the log of an open channel -/

/-- Channel `c` is open, or is being shut down. -/
def Live (s : Fpc) (c : Nat) : Prop :=
  (s.cl c).isRefCounted = true ∨ ∃ t, (s.thread t).ch = c ∧ (s.thread t).deletes

/-- The thread shuts its channel down, or has done so. -/
def Shuts (a : ApiThread) : Prop :=
  a.pc.working = true ∧ a.job.type = .deleteChannel ∨ a.pc = .closing

/-- Open channels have their file. -/
structure Backed (s : Fpc) (r : Reg) : Prop where
  backed : ∀ c, r.owner c ≠ none → s.Live c
  carried : ∀ t, s.Carries t → (s.cl (s.thread t).ch).isRefCounted = true
  shut : ∀ t, Shuts (s.thread t) → (s.cl (s.thread t).ch).isRefCounted = false
  lines : ∀ c, s.Live c → (s.cl c).Tally
  opening : ∀ t ok, (s.thread t).pc = .openFile ok → (s.cl (s.thread t).ch).totalCtr = 0
  final : ∀ d < s.nrDescr, ∀ n j ev, (s.descr d).pc = .book n j ev →
    (s.thread j).job.type = .deleteChannel →
    UInt64.ofNat (s.cl (s.thread j).ch).callsAtDelete = (s.cl (s.thread j).ch).totalCtr + ev

section BackMoves

variable {s s' : Fpc} {r r' : Reg} {t d c : Nat}

/-- What `Backed` says does not depend on the rest of the state. -/
theorem Backed.congr (h : Backed s r) (hd : s'.descr = s.descr) (hn : s'.nrDescr = s.nrDescr)
    (ht : s'.thread = s.thread) (hcl : s'.cl = s.cl) (ho : r'.owner = r.owner) : Backed s' r' := by
  constructor
  · simp only [Live, ht, hcl, ho]; exact h.backed
  · simp only [Carries, hd, hn, ht, hcl]; exact h.carried
  · rw [ht, hcl]; exact h.shut
  · simp only [Live, ht, hcl]; exact h.lines
  · rw [ht, hcl]; exact h.opening
  · rw [hd, hn, ht, hcl]; exact h.final

/-- A thread goes on.  The conditions are those of its new state. -/
theorem Backed.thread (h : Backed s r) {a : ApiThread}
    (hlive : (s.thread t).deletes → a.deletes ∧ a.ch = (s.thread t).ch ∨
      r.owner (s.thread t).ch = none)
    (hdel : a.deletes → s.Live a.ch)
    (hcar : (s.setThread t a).Carries t → (s.cl a.ch).isRefCounted = true)
    (hshut : Shuts a → (s.cl a.ch).isRefCounted = false)
    (hopen : ∀ ok, a.pc = .openFile ok → (s.cl a.ch).totalCtr = 0)
    (hfinal : ∀ d < s.nrDescr, (s.descr d).pc.books = some t → a.ch = (s.thread t).ch ∧
      (a.job.type = .deleteChannel → (s.thread t).job.type = .deleteChannel)) :
    Backed (s.setThread t a) r where
  backed c' hc' := by
    obtain href | ⟨t', hch, hd'⟩ := h.backed c' hc'
    · exact .inl href
    · by_cases ht : t' = t
      · subst ht
        obtain ⟨hd'', hch'⟩ | hnone := hlive hd'
        · exact .inr ⟨t', by simpa [hch'] using hch, by simpa using hd''⟩
        · rw [hch] at hnone
          exact absurd hnone hc'
      · exact .inr ⟨t', by simpa [ht] using hch, by simpa [ht] using hd'⟩
  carried t' := by
    by_cases ht : t' = t
    · subst ht; simpa using hcar
    · simpa [Carries, ht] using h.carried t'
  shut t' := by
    by_cases ht : t' = t
    · subst ht; simpa using hshut
    · simpa [ht] using h.shut t'
  lines c' hc' := by
    refine h.lines c' ?_
    obtain href | ⟨t', hch, hd'⟩ := hc'
    · exact .inl href
    · by_cases ht : t' = t
      · subst ht
        simp only [setThread, Function.update_self] at hch hd'
        exact hch ▸ hdel hd'
      · exact .inr ⟨t', by simpa [ht] using hch, by simpa [ht] using hd'⟩
  opening t' ok := by
    by_cases ht : t' = t
    · subst ht; simpa using hopen ok
    · simpa [ht] using h.opening t' ok
  final d' hd' n j ev hpc htype := by
    have hpc' : (s.descr d').pc = .book n j ev := hpc
    by_cases hj : j = t
    · subst hj
      obtain ⟨hch, ht⟩ := hfinal d' hd' (by rw [hpc']; rfl)
      simpa [hch] using h.final d' hd' n j ev hpc' (ht (by simpa using htype))
    · simpa [hj] using h.final d' hd' n j ev hpc' (by simpa [hj] using htype)

/-- A sampling thread goes on. -/
theorem Backed.descr (h : Backed s r) {k : ThrDescriptor}
    (hcar : ∀ t, k.pc.books = some t → (s.descr d).pc.books = some t ∨
      ((s.thread t).job.type = .moveChannel → (s.cl (s.thread t).ch).isRefCounted = true))
    (hfin : ∀ n j ev, k.pc = .book n j ev → (s.thread j).job.type = .deleteChannel →
      UInt64.ofNat (s.cl (s.thread j).ch).callsAtDelete = (s.cl (s.thread j).ch).totalCtr + ev) :
    Backed (s.setDescr d k) r where
  backed := h.backed
  carried t' hc := by
    obtain ⟨hw, hsig, hins | ⟨hmove, d', hd', hb⟩⟩ := hc
    · exact h.carried t' ⟨hw, hsig, .inl hins⟩
    · by_cases hd : d' = d
      · subst hd
        obtain hb' | href := hcar t' (by simpa using hb)
        · exact h.carried t' ⟨hw, hsig, .inr ⟨hmove, d', hd', hb'⟩⟩
        · exact href hmove
      · exact h.carried t' ⟨hw, hsig, .inr ⟨hmove, d', hd', by simpa [hd] using hb⟩⟩
  shut := h.shut
  lines := h.lines
  opening := h.opening
  final d' hd' n j ev := by
    by_cases hd : d' = d
    · subst hd; simpa using hfin n j ev
    · simpa [hd] using h.final d' hd' n j ev

/-- A channel is logged or counted. -/
theorem Backed.cl (h : Backed s r) {k : FPCClosure}
    (href : k.isRefCounted = (s.cl c).isRefCounted) (htally : s.Live c → k.Tally)
    (htotal : k.totalCtr = (s.cl c).totalCtr ∨
      ∀ t ok, (s.thread t).pc = .openFile ok → (s.thread t).ch ≠ c)
    (hfin : k.totalCtr = (s.cl c).totalCtr ∧ k.callsAtDelete = (s.cl c).callsAtDelete ∨
      ∀ d < s.nrDescr, ¬ s.Holds d c) : Backed (s.setCl c k) r := by
  have href' : ∀ c', ((s.setCl c k).cl c').isRefCounted = (s.cl c').isRefCounted := by
    intro c'
    by_cases hc : c' = c
    · subst hc; simpa using href
    · simp [hc]
  constructor
  · simp only [Live, href']; exact h.backed
  · intro t' hc
    rw [href']
    exact h.carried t' hc
  · intro t' ht'
    rw [href']
    exact h.shut t' ht'
  · intro c' hc'
    simp only [Live, href'] at hc'
    by_cases hc : c' = c
    · subst hc; simpa using htally hc'
    · simpa [hc] using h.lines c' hc'
  · intro t' ok hpc
    have hpc' : (s.thread t').pc = .openFile ok := hpc
    have hold := h.opening t' ok hpc'
    by_cases hc : (s.thread t').ch = c
    · obtain htotal | hne := htotal
      · simpa [hc, htotal] using hold
      · exact absurd hc (hne t' ok hpc')
    · simpa [hc] using hold
  · intro d' hd' n j ev hpc htype
    have hpc' : (s.descr d').pc = .book n j ev := hpc
    have hold := h.final d' hd' n j ev hpc' htype
    by_cases hc : (s.thread j).ch = c
    · obtain ⟨h1, h2⟩ | hq := hfin
      · simpa [hc, h1, h2] using hold
      · exact absurd (.inr ⟨j, by rw [hpc']; rfl, hc⟩) (hq d' hd')
    · simpa [hc] using hold

/-- A channel gets to a sampling thread or away from it. -/
theorem Backed.give (h : Backed s r) {o : Option Nat} (ho : o ≠ none → s.Live c) :
    Backed s (r.give c o) where
  backed c' hc' := by
    by_cases hc : c' = c
    · subst hc
      exact ho (by simpa [Reg.give] using hc')
    · exact h.backed c' (by simpa [Reg.give, hc] using hc')
  carried := h.carried
  shut := h.shut
  lines := h.lines
  opening := h.opening
  final := h.final

/-- A descriptor is created. -/
theorem Backed.new (h : Backed s r) (p : UInt64) :
    Backed { s.setDescr s.nrDescr (.new p t) with nrDescr := s.nrDescr + 1 } r where
  backed := h.backed
  carried t' hc := by
    obtain ⟨hw, hsig, hins | ⟨hmove, d', hd', hb⟩⟩ := hc
    · exact h.carried t' ⟨hw, hsig, .inl hins⟩
    · by_cases hd : d' = s.nrDescr
      · simp [hd, ThrDescriptor.new, SamplerPc.books] at hb
      · simp only [setDescr, Function.update_of_ne hd] at hb hd'
        exact h.carried t' ⟨hw, hsig, .inr ⟨hmove, d', by omega, hb⟩⟩
  shut := h.shut
  lines := h.lines
  opening := h.opening
  final d' hd' n j ev := by
    by_cases hd : d' = s.nrDescr
    · simp [hd, ThrDescriptor.new]
    · simpa [hd] using h.final d' (by simp at hd'; omega) n j ev

/-- `closeChannel` clears the flag of its channel. -/
theorem Backed.clear (h : Backed s r) (ho : Owned s r) (hj : Jobs s r)
    (hpc : (s.thread t).pc = .clear)
    (href : (s.cl (s.thread t).ch).isRefCounted = true) :
    Backed ((s.setCl (s.thread t).ch { s.cl (s.thread t).ch with isRefCounted := false }).setThread t
      ⟨.submit, (s.thread t).ch, ⟨.deleteChannel, -1, 0⟩⟩) r := by
  have hone : ∀ t', t' ≠ t → (s.thread t').pc ≠ .idle → (s.thread t').ch ≠ (s.thread t).ch :=
    fun t' ht hb hch => ht (ho.uniq t' t hb (by simp [hpc]) hch)
  have hdel : ∀ t', (s.thread t').deletes → t' ≠ t := by
    rintro t' hd rfl
    have hw := hd.1
    simp [hpc, ApiPc.working] at hw
  constructor
  · intro c' hc'
    by_cases hc : c' = (s.thread t).ch
    · exact .inr ⟨t, by simp [hc], by simp [ApiThread.deletes, ApiPc.working]⟩
    · obtain href' | ⟨t', hch, hd⟩ := h.backed c' hc'
      · exact .inl (by simpa [hc] using href')
      · exact .inr ⟨t', by simpa [hdel t' hd] using hch, by simpa [hdel t' hd] using hd⟩
  · intro t' hc
    have ht : t' ≠ t := by
      rintro rfl
      simp [Carries] at hc
    have hc' : s.Carries t' := by simpa [Carries, ht] using hc
    simpa [ht, hone t' ht (ApiPc.busy_of_working hc'.1)] using h.carried t' hc'
  · intro t' hs
    by_cases ht : t' = t
    · subst ht; simp
    · have hold := h.shut t' (by simpa [ht] using hs)
      by_cases hc : (s.thread t').ch = (s.thread t).ch
      · simp [ht, hc]
      · simpa [ht, hc] using hold
  · intro c' hc'
    have hl : s.Live c' := by
      by_cases hc : c' = (s.thread t).ch
      · exact .inl (hc ▸ href)
      · obtain href' | ⟨t', hch, hd⟩ := hc'
        · exact .inl (by simpa [hc] using href')
        · have ht : t' ≠ t := by
            rintro rfl
            simp at hch
            exact hc hch.symm
          exact .inr ⟨t', by simpa [ht] using hch, by simpa [ht] using hd⟩
    have hold := h.lines c' hl
    by_cases hc : c' = (s.thread t).ch
    · subst hc
      simpa using (⟨hold.1, hold.2⟩ :
        FPCClosure.Tally { s.cl (s.thread t).ch with isRefCounted := false })
    · simpa [hc] using hold
  · intro t' ok hpc'
    have ht : t' ≠ t := by
      rintro rfl
      simp at hpc'
    have hpc'' : (s.thread t').pc = .openFile ok := by simpa [ht] using hpc'
    simpa [ht, hone t' ht (by simp [hpc''])] using h.opening t' ok hpc''
  · intro d' hd' n j ev hpc' htype
    have hpc'' : (s.descr d').pc = .book n j ev := hpc'
    have hb : (s.descr d').pc.books = some j := by rw [hpc'']; rfl
    have hjt : j ≠ t := by
      rintro rfl
      exact hj.not_books (by rw [hpc]; rfl) hd' hb
    have hne := hone j hjt (hj.busy (.inr (hj.books_hand hd' hb)))
    simpa [hjt, hne] using h.final d' hd' n j ev hpc'' (by simpa [hjt] using htype)

/-- The file of a channel is opened. -/
theorem Backed.opened (h : Backed s r) (ho : Owned s r) (hj : Jobs s r)
    (hpc : (s.thread t).pc = .openFile true) :
    Backed ((s.setCl (s.thread t).ch
        { s.cl (s.thread t).ch with base := .opened, isRefCounted := true }).setThread t
      ⟨.submit, (s.thread t).ch, ⟨.insertChannel, -1, 0⟩⟩) r := by
  have hone : ∀ t', t' ≠ t → (s.thread t').pc ≠ .idle → (s.thread t').ch ≠ (s.thread t).ch :=
    fun t' ht hb hch => ht (ho.uniq t' t hb (by simp [hpc]) hch)
  have hdel : ∀ t', (s.thread t').deletes → t' ≠ t := by
    rintro t' hd rfl
    have hw := hd.1
    simp [hpc, ApiPc.working] at hw
  constructor
  · intro c' hc'
    obtain href' | ⟨t', hch, hd⟩ := h.backed c' hc'
    · refine .inl ?_
      by_cases hc : c' = (s.thread t).ch
      · simp [hc]
      · simpa [hc] using href'
    · exact .inr ⟨t', by simpa [hdel t' hd] using hch, by simpa [hdel t' hd] using hd⟩
  · intro t' hc
    by_cases ht : t' = t
    · simp [ht]
    · have hc' : s.Carries t' := by simpa [Carries, ht] using hc
      simpa [ht, hone t' ht (ApiPc.busy_of_working hc'.1)] using h.carried t' hc'
  · intro t' hs
    by_cases ht : t' = t
    · subst ht
      simp [Shuts] at hs
    · have hs' : Shuts (s.thread t') := by simpa [ht] using hs
      have hb : (s.thread t').pc ≠ .idle := by
        obtain hs' | hs' := hs'
        · exact ApiPc.busy_of_working hs'.1
        · simp [hs']
      simpa [ht, hone t' ht hb] using h.shut t' hs'
  · intro c' hc'
    by_cases hc : c' = (s.thread t).ch
    · subst hc
      have htotal := h.opening t true hpc
      constructor
      · simp [Base.opened]
      · simp [Base.opened, Base.counted, htotal]
    · have hl : s.Live c' := by
        obtain href' | ⟨t', hch, hd⟩ := hc'
        · exact .inl (by simpa [hc] using href')
        · have ht : t' ≠ t := by
            rintro rfl
            simp [ApiThread.deletes] at hd
          exact .inr ⟨t', by simpa [ht] using hch, by simpa [ht] using hd⟩
      simpa [hc] using h.lines c' hl
  · intro t' ok hpc'
    have ht : t' ≠ t := by
      rintro rfl
      simp at hpc'
    have hpc'' : (s.thread t').pc = .openFile ok := by simpa [ht] using hpc'
    simpa [ht, hone t' ht (by simp [hpc''])] using h.opening t' ok hpc''
  · intro d' hd' n j ev hpc' htype
    have hpc'' : (s.descr d').pc = .book n j ev := hpc'
    have hb : (s.descr d').pc.books = some j := by rw [hpc'']; rfl
    have hjt : j ≠ t := by
      rintro rfl
      exact hj.not_books (by rw [hpc]; rfl) hd' hb
    have hne := hone j hjt (hj.busy (.inr (hj.books_hand hd' hb)))
    simpa [hjt, hne] using h.final d' hd' n j ev hpc'' (by simpa [hjt] using htype)

/-- A closure is made. -/
theorem Backed.make (h : Backed s r) (hr : Fits s r) (hmade : (s.cl c).made = false) :
    Backed (s.setCl c .init) r := by
  have hone : ∀ t, (s.thread t).pc ≠ .idle → (s.thread t).ch ≠ c := by
    rintro t hb rfl
    rw [hr.settled.made t hb] at hmade
    cases hmade
  constructor
  · intro c' hc'
    have hne : c' ≠ c := by
      rintro rfl
      exact hc' (hr.settled.unmade c' hmade)
    exact (h.backed c' hc').imp (by simp [hne]) id
  · intro t' hc
    simpa [hone t' (ApiPc.busy_of_working hc.1)] using h.carried t' hc
  · intro t' hs
    have hold := h.shut t' hs
    by_cases hc : (s.thread t').ch = c
    · simp [hc, FPCClosure.init]
    · simpa [hc] using hold
  · intro c' hc'
    have hne : c' ≠ c := by
      rintro rfl
      obtain href | ⟨t', hch, hd⟩ := hc'
      · simp [FPCClosure.init] at href
      · exact hone t' (ApiPc.busy_of_working hd.1) hch
    simpa [hne] using h.lines c' (hc'.imp (by simp [hne]) id)
  · intro t' ok hpc
    have hpc' : (s.thread t').pc = .openFile ok := hpc
    simpa [hone t' (by simp [hpc'])] using h.opening t' ok hpc'
  · intro d' hd' n j ev hpc htype
    have hpc' : (s.descr d').pc = .book n j ev := hpc
    have hb : (s.descr d').pc.books = some j := by rw [hpc']; rfl
    have hne := hone j (hr.jobs.busy (.inr (hr.jobs.books_hand hd' hb)))
    simpa [hne] using h.final d' hd' n j ev hpc' htype

/-- A thread goes on in the same call. -/
theorem Backed.goOn (h : Backed s r) {q : ApiPc}
    (hw : q.working = true → (s.thread t).pc.working = true)
    (hw' : (s.thread t).deletes → q.working = true)
    (hshut : q = .closing → Shuts (s.thread t)) (hopen : ∀ ok, q ≠ .openFile ok) :
    Backed (s.setThread t { s.thread t with pc := q }) r := by
  refine h.thread (fun hd => .inl ⟨⟨hw' hd, hd.2⟩, rfl⟩) (fun hd => ?_) (fun hc => ?_) (fun hs => ?_)
    (fun ok hok => absurd hok (hopen ok)) (fun _ _ _ => ⟨rfl, id⟩)
  · exact .inr ⟨t, rfl, hw hd.1, hd.2⟩
  · obtain ⟨hw'', hsig, hcar⟩ := hc
    simp only [setThread, Function.update_self] at hw'' hsig hcar
    exact h.carried t ⟨hw hw'', hsig, hcar⟩
  · obtain hs | hs := hs
    · exact h.shut t (.inl ⟨hw hs.1, hs.2⟩)
    · exact h.shut t (hshut hs)

/-- A job is completed; a DELETE_CHANNEL job has taken its channel. -/
theorem Backed.signal (h : Backed s r)
    (hdel : (s.thread t).job.type = .deleteChannel → r.owner (s.thread t).ch = none) :
    Backed (s.signalCompletion t) r := by
  refine h.thread (fun hd => .inr (hdel hd.2.1)) (by simp [ApiThread.deletes]) ?_ (h.shut t)
    (h.opening t) (fun _ _ _ => ⟨rfl, id⟩)
  simp [Carries]

end BackMoves

section BackStep

variable {s s' : Fpc} {r : Reg} {e : Nat → UInt64} {l : Act}

/-- A sampling thread that holds events of a channel is the only one; when
it lets go of them, none does. -/
theorem Flows.released (h : Flows s e) (hr : Fits s r) (ho : Owned s r) {d c : Nat}
    (hd : d < s.nrDescr) (hh : s.Holds d c) {k : ThrDescriptor} (hsam : c ∉ k.pc.sampled)
    (hb : k.pc.books = none) : ∀ d' < s.nrDescr, ¬ (s.setDescr d k).Holds d' c := by
  intro d' hd' hh'
  by_cases hdd : d' = d
  · subst hdd
    obtain hc | ⟨j, hj, -⟩ := hh'
    · exact hsam (by simpa using hc)
    · simp only [setDescr, Function.update_self, hb] at hj
      cases hj
  · exact hdd (h.holds_uniq hr ho hd' hd (by simpa [Holds, hdd] using hh') hh)

/-- A channel on which a job is being processed is not being opened. -/
theorem Owned.not_opening (ho : Owned s r) (hj : Jobs s r) {d j : Nat} (hd : d < s.nrDescr)
    (hheld : (s.descr d).pc.held = some j) :
    ∀ t ok, (s.thread t).pc = .openFile ok → (s.thread t).ch ≠ (s.thread j).ch := by
  intro t ok hpc hch
  obtain rfl := ho.uniq t j (by simp [hpc]) (hj.held_busy hd hheld) hch
  have hsent := (hj.held_sent hd hheld).1
  simp [hpc, ApiPc.sent] at hsent

theorem Backed.callStep (h : Backed s r) (hr : Fits s r) (hs : CallMove s l s') :
    Backed s' (r.next s l) := by
  have hj := hr.jobs
  cases hs with
  | openChannel t c ok hidle hmade =>
      have h1 := h.make (c := c) hr hmade
      refine h1.thread (fun hd => ?_) (by simp [ApiThread.deletes, ApiPc.working])
        (by simp [Carries, ApiPc.working]) (by simp [Shuts, ApiPc.working])
        (by simp [FPCClosure.init]) (fun d hd hb => ?_)
      · exact absurd hidle (ApiPc.busy_of_working hd.1)
      · exact absurd hb (hj.not_books (by rw [hidle]; rfl) hd)
  | param t c a p hidle hhandle hreq =>
      refine h.thread (fun hd => ?_) (by simp [ApiThread.deletes]) (fun hc => ?_) (by simp [Shuts])
        (by simp) (fun d hd hb => ?_)
      · exact absurd hidle (ApiPc.busy_of_working hd.1)
      · obtain ⟨-, -, hins | ⟨-, d, hd, hb⟩⟩ := hc
        · simp at hins
        · exact absurd hb (hj.not_books (by rw [hidle]; rfl) hd)
      · exact absurd hb (hj.not_books (by rw [hidle]; rfl) hd)
  | refuse t c a hreq => exact h
  | close t c l hl hidle hmade href =>
      have h1 : Backed (s.setThread t { s.thread t with pc := .countOut, ch := c }) r := by
        refine h.thread (fun hd => ?_) (by simp [ApiThread.deletes, ApiPc.working])
          (by simp [Carries, ApiPc.working]) (by simp [Shuts, ApiPc.working]) (by simp)
          (fun d hd hb => ?_)
        · exact absurd hidle (ApiPc.busy_of_working hd.1)
        · exact absurd hb (hj.not_books (by rw [hidle]; rfl) hd)
      exact h1.congr rfl rfl rfl rfl (by cases hl <;> rfl)
  | closeAgain t c l hl hidle hmade href =>
      have h1 : Backed (s.setThread t { s.thread t with pc := .closing, ch := c }) r := by
        refine h.thread (fun hd => ?_) (by simp [ApiThread.deletes, ApiPc.working])
          (by simp [Carries, ApiPc.working]) (fun _ => href) (by simp) (fun d hd hb => ?_)
        · exact absurd hidle (ApiPc.busy_of_working hd.1)
        · exact absurd hb (hj.not_books (by rw [hidle]; rfl) hd)
      exact h1.congr rfl rfl rfl rfl (by cases hl <;> rfl)

theorem Backed.apiStep (h : Backed s r) (hr : Fits s r) (ho : Owned s r)
    (hg : Flagged s) (hs : ApiMove s l s') : Backed s' (r.next s l) := by
  have hj := hr.jobs
  cases hs with
  | openFailed t hpc =>
      have h1 := h.goOn (t := t) (q := .idle) (by simp [ApiPc.working])
        (fun hd => by simp [ApiThread.deletes, hpc, ApiPc.working] at hd) (by simp) (by simp)
      exact h1.congr rfl rfl rfl rfl (by simp [Reg.next, hpc])
  | opened t hpc =>
      exact (h.opened ho hj hpc).congr rfl rfl rfl rfl (by simp [Reg.next, hpc])
  | submit t hpc =>
      have h1 := h.goOn (t := t) (q := .route (s.cl (s.thread t).ch).periodicIncNs)
        (by simp [hpc, ApiPc.working]) (by simp [ApiPc.working]) (by simp) (by simp)
      exact h1.congr rfl rfl rfl rfl (by simp [Reg.next, hpc])
  | routeFound t p d hpc hmtx hd =>
      have h1 := h.descr (d := d) (k := { s.descr d with jQueue := (s.descr d).jQueue ++ [t] })
        (fun _ hb => .inl hb) (h.final d (hr.mapped.registered p d hd).1)
      have h2 := h1.goOn (t := t) (q := .wait) (by simp [hpc, ApiPc.working])
        (by simp [ApiPc.working]) (by simp) (by simp)
      exact h2.congr rfl rfl rfl rfl (by simp [Reg.next, Reg.route, Reg.put, hpc, hd])
  | routeNew t p hpc hmtx hd htype =>
      have h1 := h.new (t := t) (s.cl (s.thread t).ch).periodicIncNs
      have h2 := h1.goOn (t := t) (q := .insertMap p s.nrDescr) (by simp [hpc, ApiPc.working])
        (by simp [ApiPc.working]) (by simp) (by simp)
      exact h2.congr rfl rfl rfl rfl (by simp [Reg.next, Reg.route, Reg.put, hpc, hd, htype])
  | routeLost t p hpc hmtx hd htype =>
      have h1 := h.goOn (t := t) (q := .wait) (by simp [hpc, ApiPc.working])
        (by simp [ApiPc.working]) (by simp) (by simp)
      exact h1.congr rfl rfl rfl rfl (by simp [Reg.next, Reg.route, hpc, hd, htype])
  | insertMap t p d hpc =>
      have h1 := h.goOn (t := t) (q := .wait) (by simp [hpc, ApiPc.working])
        (by simp [ApiPc.working]) (by simp) (by simp)
      exact h1.congr rfl rfl rfl rfl (by simp [Reg.next, hpc])
  | returned t hpc hsig htype =>
      have h1 := h.goOn (t := t) (q := .idle) (by simp [ApiPc.working])
        (fun hd => absurd hd.2.2 hsig) (by simp) (by simp)
      have h2 := h1.cl (c := (s.thread t).ch) (k := { s.cl (s.thread t).ch with handle := true }) rfl
        (fun hl => ⟨(h1.lines _ hl).1, (h1.lines _ hl).2⟩) (.inl rfl) (.inl ⟨rfl, rfl⟩)
      exact h2.congr rfl rfl rfl rfl (by simp [Reg.next, hpc])
  | deleted t hpc hsig htype =>
      have h1 := h.goOn (t := t) (q := .closing) (by simp [ApiPc.working])
        (fun hd => absurd hd.2.2 hsig) (fun _ => .inl ⟨by rw [hpc]; rfl, htype⟩) (by simp)
      exact h1.congr rfl rfl rfl rfl (by simp [Reg.next, hpc])
  | countOut t hpc =>
      have h1 := h.goOn (t := t) (q := .clear) (by simp [ApiPc.working])
        (fun hd => by simp [ApiThread.deletes, hpc, ApiPc.working] at hd) (by simp) (by simp)
      exact h1.congr rfl rfl rfl rfl (by simp [Reg.next, hpc])
  | clear t hpc =>
      have h1 := h.clear ho hj hpc (hg t (by rw [hpc]; rfl))
      exact h1.congr rfl rfl rfl rfl (by simp [Reg.next, hpc])
  | closing t hpc =>
      have hshut := h.shut t (.inr hpc)
      have hdead : ¬ s.Live (s.thread t).ch := by
        rintro (href | ⟨t', hch, hd⟩)
        · rw [hshut] at href
          cases href
        · obtain rfl := ho.uniq t' t (ApiPc.busy_of_working hd.1) (by simp [hpc]) hch
          have hw := hd.1
          simp [hpc, ApiPc.working] at hw
      have h1 := h.cl (c := (s.thread t).ch) (k := { s.cl (s.thread t).ch with
        base := (s.cl (s.thread t).ch).base.closeChannel }) rfl (fun hl => absurd hl hdead)
        (.inl rfl) (.inl ⟨rfl, rfl⟩)
      have h2 := h1.goOn (t := t) (q := .idle) (by simp [ApiPc.working])
        (fun hd => by simp [ApiThread.deletes, hpc, ApiPc.working] at hd) (by simp) (by simp)
      exact h2.congr rfl rfl rfl rfl (by simp [Reg.next, hpc])

theorem Backed.loopStep (h : Backed s r) (hf : Flows s e) (hr : Fits s r) (ho : Owned s r)
    (hs : LoopMove s l s') : Backed s' (r.next s l) := by
  cases hs with
  | goto d now ts pc hd hgo =>
      obtain ⟨-, -, -, hk⟩ := hgo.walks (hf.walks d hd) ts
      have hnext : r.next s (.sampler d now) = r := by
        cases hgo with
        | start hpc | sampled _ hpc | accounted hpc | snooze hpc | noJob hpc | remove hpc
        | clock hpc | due hpc | notDue hpc => simp [hpc, Reg.next]
      rw [hnext]
      refine h.descr (by simp [hk]) (fun n j ev hp => ?_)
      have hp' : pc = .book n j ev := hp
      rw [hp'] at hk
      cases hk
  | sample d now seen c rest hd hpc =>
      have h1 := h.cl (c := c) (k := (s.cl c).sample now) rfl
        (fun hl => ⟨(h.lines _ hl).1, (h.lines _ hl).2⟩) (.inl rfl) (.inl ⟨rfl, rfl⟩)
      have h2 := h1.descr (d := d) (k := { s.descr d with pc := .sample (seen ++ [c]) rest })
        (by simp [SamplerPc.books]) (by simp)
      exact h2.congr rfl rfl rfl rfl (by simp [Reg.next, hpc])
  | account d now c rest hd hpc =>
      have hk := (s.cl c).books_account
      have hmem : c ∈ (s.descr d).pc.sampled := by rw [hpc]; exact List.mem_cons_self
      have hown := hf.owner hr hd hmem
      have hw := hf.walks d hd
      simp only [ThrDescriptor.Walks, hpc] at hw
      have hnot : c ∉ rest :=
        (List.nodup_cons.mp ((hr.settled.nodup d hd).sublist hw.sublist)).1
      have h1 := h.descr (d := d) (k := { s.descr d with pc := .account rest })
        (by simp [SamplerPc.books]) (by simp)
      have h2 := h1.cl (c := c) (k := (s.cl c).account) hk.isRefCounted
        (fun hl => (h.lines c hl).account) (.inr fun t ok hpc' hch => ?_)
        (.inr (hf.released hr ho hd (.inl hmem) hnot rfl))
      · exact h2.congr rfl rfl rfl rfl (by simp [Reg.next, hpc])
      · have hch' : (s.thread t).ch = c := hch
        have hnone := hr.settled.opening t ok hpc'
        rw [hch', hown] at hnone
        cases hnone
  | job d now left j q hd hpc hq =>
      have h1 := h.descr (d := d) (k := { s.descr d with jQueue := q, pc := .take left j })
        (by simp [SamplerPc.books]) (by simp)
      exact h1.congr rfl rfl rfl rfl (by simp [Reg.next, Reg.put, hpc, hq])
  | keep d now fs hd hpc hmtx hfs =>
      have h1 := h.descr (d := d) (k := { s.descr d with pc := .clock })
        (by simp [SamplerPc.books]) (by simp)
      exact h1.congr rfl rfl rfl rfl (by simp [Reg.next, hpc])
  | removed d now d' hd hpc hmtx hd' hq hc =>
      have h1 := h.descr (d := d) (k := { s.descr d with pc := .done })
        (by simp [SamplerPc.books]) (by simp)
      exact h1.congr rfl rfl rfl rfl (by simp [Reg.next, hpc])

theorem Backed.takeStep (h : Backed s r) (hf : Flows s e) (hr : Fits s r) (ho : Owned s r)
    (hs : TakeMove s l s') : Backed s' (r.next s l) := by
  have hj := hr.jobs
  cases hs with
  | takeInsert d now left j hd hpc htype =>
      have hk := (s.cl (s.thread j).ch).books_logHeader
      have htotal : (s.cl (s.thread j).ch).logHeader.totalCtr = (s.cl (s.thread j).ch).totalCtr :=
        FPCClosure.totalCtr_logHeader
      have h1 := h.cl (c := (s.thread j).ch) (k := (s.cl (s.thread j).ch).logHeader.exchange)
        hk.isRefCounted (fun hl => ⟨(h.lines _ hl).logHeader.1, (h.lines _ hl).logHeader.2⟩)
        (.inl htotal) (.inl ⟨htotal, hk.callsAtDelete⟩)
      have h2 := h1.descr (d := d) (k := { s.descr d with
        pc := .book left j (s.cl (s.thread j).ch).ctr }) (fun t hb => .inr fun hmove => ?_)
        (fun n t ev hp hdel => ?_)
      · exact h2.congr rfl rfl rfl rfl (by simp [Reg.next, hpc, htype])
      · obtain rfl : j = t := by simpa [SamplerPc.books] using hb
        simp [htype] at hmove
      · obtain ⟨-, rfl, -⟩ : left = n ∧ j = t ∧ _ := by simpa using hp
        simp [htype] at hdel
  | takeMove d now left j hd hpc htype hc =>
      have hheld : (s.descr d).pc.held = some j := by rw [hpc]; rfl
      have hown := (hr.settled.closures d hd _).mp hc
      have href : (s.cl (s.thread j).ch).isRefCounted = true := by
        obtain href | ⟨t', hch, hdel⟩ := h.backed _ (by rw [hown]; simp)
        · exact href
        · obtain rfl := ho.uniq t' j (ApiPc.busy_of_working hdel.1) (hj.held_busy hd hheld) hch
          have htype' := hdel.2.1
          simp [htype] at htype'
      have h1 := h.cl (c := (s.thread j).ch) (k := (s.cl (s.thread j).ch).exchange) rfl
        (fun hl => ⟨(h.lines _ hl).1, (h.lines _ hl).2⟩) (.inl rfl) (.inl ⟨rfl, rfl⟩)
      have h2 := h1.descr (d := d) (k := { s.descr d with
        closures := (s.descr d).closures.erase (s.thread j).ch
        pc := .book left j (s.cl (s.thread j).ch).ctr }) (fun t hb => .inr fun _ => ?_)
        (fun n t ev hp hdel => ?_)
      · have h3 := h2.give (c := (s.thread j).ch) (o := none) (by simp)
        exact h3.congr rfl rfl rfl rfl (by simp [Reg.next, hpc, htype, hc])
      · obtain rfl : j = t := by simpa [SamplerPc.books] using hb
        simpa [FPCClosure.exchange] using href
      · obtain ⟨-, rfl, -⟩ : left = n ∧ j = t ∧ _ := by simpa using hp
        simp [htype] at hdel
  | takeMissing d now left j hd hpc htype hc =>
      have h1 := h.signal (t := j) (by simp [htype])
      have h2 := h1.descr (d := d) (k := { s.descr d with pc := .jobs left })
        (by simp [SamplerPc.books]) (by simp)
      exact h2.congr rfl rfl rfl rfl (by simp [Reg.next, Reg.put, hpc, htype, hc])
  | takeDelete d now left j hd hpc htype =>
      have hloc := (hj.hand d hd j).mp (by rw [hpc]; rfl)
      have hown := ho.here j d (.inr hloc) (.inl htype)
      have hquiet : ∀ d' < s.nrDescr, ¬ s.Holds d' (s.thread j).ch := fun d' hd' =>
        hf.take_quiet hr ho hd hpc (fun d' hd' => Option.some.inj (hd'.symm.trans hown)) hd'
      have hsum := hf.sum (s.thread j).ch
      rw [hf.eq_zero hquiet, UInt64.add_zero] at hsum
      have h1 := h.cl (c := (s.thread j).ch) (k := { (s.cl (s.thread j).ch).exchange with
        callsAtDelete := (s.cl (s.thread j).ch).calls }) rfl
        (fun hl => ⟨(h.lines _ hl).1, (h.lines _ hl).2⟩) (.inl rfl) (.inr hquiet)
      have h2 := h1.descr (d := d) (k := { s.descr d with
        pc := .book left j (s.cl (s.thread j).ch).ctr }) (fun t hb => .inr fun hmove => ?_)
        (fun n t ev hp _ => ?_)
      · exact h2.congr rfl rfl rfl rfl (by simp [Reg.next, hpc, htype])
      · obtain rfl : j = t := by simpa [SamplerPc.books] using hb
        simp [htype] at hmove
      · obtain ⟨-, rfl, rfl⟩ : left = n ∧ j = t ∧ (s.cl (s.thread j).ch).ctr = ev := by
          simpa using hp
        simpa [FPCClosure.exchange] using hsum

theorem Backed.bookStep (h : Backed s r) (hf : Flows s e) (hr : Fits s r) (ho : Owned s r)
    (hs : BookMove s l s') : Backed s' (r.next s l) := by
  have hj := hr.jobs
  cases hs with
  | bookInsert d now left j ev hd hpc htype =>
      have hheld : (s.descr d).pc.held = some j := by rw [hpc]; rfl
      obtain ⟨hsent, hsig⟩ := hj.held_sent hd hheld
      have href := h.carried j ⟨ApiPc.working_of_sent hsent, hsig, .inl htype⟩
      have hk := (s.cl (s.thread j).ch).books_bookInsert now ev
      have h1 := h.give (c := (s.thread j).ch) (o := some d) (fun _ => .inl href)
      have h2 := h1.descr (d := d) (k := { (s.descr d).insert (s.thread j).ch with pc := .jobs left })
        (by simp [SamplerPc.books]) (by simp)
      have h3 := h2.cl (c := (s.thread j).ch) (k := (s.cl (s.thread j).ch).bookInsert now ev)
        hk.isRefCounted (fun hl => (h.lines _ hl).bookInsert now ev)
        (.inr (ho.not_opening hj hd hheld))
        (.inr (hf.released hr ho hd (.inr ⟨j, by rw [hpc]; rfl, rfl⟩) (by simp [SamplerPc.sampled])
          rfl))
      have h4 := h3.signal (t := j) (by simp [htype])
      exact h4.congr rfl rfl rfl rfl (by simp [Reg.next, Reg.give, Reg.put, hpc, htype])
  | bookMove d now left j ev hd hpc htype =>
      have hheld : (s.descr d).pc.held = some j := by rw [hpc]; rfl
      obtain ⟨hsent, hsig⟩ := hj.held_sent hd hheld
      have href := h.carried j ⟨ApiPc.working_of_sent hsent, hsig,
        .inr ⟨htype, d, hd, by rw [hpc]; rfl⟩⟩
      have hk := (s.cl (s.thread j).ch).books_bookMove now ev (s.thread j).job.curPeriodicIncNs
      have h1 := h.descr (d := d) (k := { s.descr d with pc := .submit left j })
        (by simp [SamplerPc.books]) (by simp)
      have h2 := h1.cl (c := (s.thread j).ch)
        (k := (s.cl (s.thread j).ch).bookMove now ev (s.thread j).job.curPeriodicIncNs)
        hk.isRefCounted (fun hl => (h.lines _ hl).bookMove now ev _)
        (.inr (ho.not_opening hj hd hheld))
        (.inr (hf.released hr ho hd (.inr ⟨j, by rw [hpc]; rfl, rfl⟩) (by simp [SamplerPc.sampled])
          rfl))
      have h3 := h2.thread (t := j) (a := { s.thread j with
        job := { (s.thread j).job with type := .insertChannel, curPeriodicIncNs := -1 } })
        (fun hdel => ?_) (by simp [ApiThread.deletes]) (fun _ => ?_) (fun hs => ?_) (h2.opening j)
        (by simp)
      · exact h3.congr rfl rfl rfl rfl (by simp [Reg.next, hpc, htype])
      · have htype' : (s.thread j).job.type = .deleteChannel := hdel.2.1
        simp [htype] at htype'
      · simpa [hk.isRefCounted] using href
      · obtain hs | hs := hs
        · simp at hs
        · exact h2.shut j (.inr hs)
  | bookDelete d now left j ev hd hpc htype hc =>
      have hheld : (s.descr d).pc.held = some j := by rw [hpc]; rfl
      have hk := (s.cl (s.thread j).ch).books_bookDelete now ev
      have h1 := h.descr (d := d) (k := { s.descr d with
        closures := (s.descr d).closures.erase (s.thread j).ch, pc := .jobs left })
        (by simp [SamplerPc.books]) (by simp)
      have h2 := h1.cl (c := (s.thread j).ch) (k := (s.cl (s.thread j).ch).bookDelete now ev)
        hk.isRefCounted (fun hl => (h.lines _ hl).bookDelete now ev)
        (.inr (ho.not_opening hj hd hheld))
        (.inr (hf.released hr ho hd (.inr ⟨j, by rw [hpc]; rfl, rfl⟩) (by simp [SamplerPc.sampled])
          rfl))
      have h3 := h2.give (c := (s.thread j).ch) (o := none) (by simp)
      have h4 := h3.signal (t := j) (by simp [Reg.give])
      exact h4.congr rfl rfl rfl rfl (by simp [Reg.next, Reg.give, Reg.put, hpc, htype, hc])
  | bookDeleteMissing d now left j ev hd hpc htype hc =>
      have hown := ho.here j d (.inr ((hj.hand d hd j).mp (by rw [hpc]; rfl))) (.inl htype)
      exact absurd ((hr.settled.closures d hd _).mpr hown) hc

theorem Backed.passStep (h : Backed s r) (hr : Fits s r) (hs : PassMove s l s') :
    Backed s' (r.next s l) := by
  have hj := hr.jobs
  cases hs with
  | passOn d now left j hd hpc =>
      have h1 := h.descr (d := d) (k := { s.descr d with
        pc := .route left j (s.cl (s.thread j).ch).periodicIncNs }) (by simp [SamplerPc.books])
        (by simp)
      exact h1.congr rfl rfl rfl rfl (by simp [Reg.next, hpc])
  | passFound d now left j p d' hd hpc hmtx hd' hne =>
      have h1 := h.descr (d := d') (k := { s.descr d' with jQueue := (s.descr d').jQueue ++ [j] })
        (fun _ hb => .inl hb) (h.final d' (hr.mapped.registered p d' hd').1)
      have h2 := h1.descr (d := d) (k := { s.descr d with pc := .jobs left })
        (by simp [SamplerPc.books]) (by simp)
      exact h2.congr rfl rfl rfl rfl (by simp [Reg.next, Reg.route, Reg.put, hpc, hd'])
  | passSelf d now left j p hd hpc hmtx hd' =>
      have h1 := h.descr (d := d) (k := { s.descr d with
        jQueue := (s.descr d).jQueue ++ [j], pc := .jobs left }) (by simp [SamplerPc.books])
        (by simp)
      exact h1.congr rfl rfl rfl rfl (by simp [Reg.next, Reg.route, Reg.put, hpc, hd'])
  | passNew d now left j p hd hpc hmtx hd' =>
      have htype := hj.passes d hd j (by rw [hpc]; rfl)
      have h1 := h.new (t := j) (s.cl (s.thread j).ch).periodicIncNs
      have h2 := h1.descr (d := d) (k := { s.descr d with pc := .insertMap left p s.nrDescr })
        (by simp [SamplerPc.books]) (by simp)
      exact h2.congr rfl rfl rfl rfl (by simp [Reg.next, Reg.route, Reg.put, hpc, hd', htype])
  | passMap d now left p d' hd hpc =>
      have h1 := h.descr (d := d) (k := { s.descr d with pc := .jobs left })
        (by simp [SamplerPc.books]) (by simp)
      exact h1.congr rfl rfl rfl rfl (by simp [Reg.next, hpc])

/-- **Every move keeps the log of an open channel.** -/
theorem Backed.step (h : Backed s r) (hf : Flows s e) (hr : Fits s r) (ho : Owned s r)
    (hg : Flagged s) (hs : Move s l s') : Backed s' (r.next s l) := by
  cases hs with
  | call hs => exact h.callStep hr hs
  | api hs => exact h.apiStep hr ho hg hs
  | handler c hmade =>
      exact h.cl rfl (fun hl => ⟨(h.lines _ hl).1, (h.lines _ hl).2⟩) (.inl rfl) (.inl ⟨rfl, rfl⟩)
  | loop hs => exact h.loopStep hf hr ho hs
  | take hs => exact h.takeStep hf hr ho hs
  | book hs => exact h.bookStep hf hr ho hs
  | pass hs => exact h.passStep hr hs

end BackStep

/-! ## runs -/

theorem reach_backed {s : Fpc} (h : Reach step init OneCall s) :
    ∃ r e, Fits s r ∧ Owned s r ∧ Flows s e ∧ Backed s r := by
  have hinv : ∃ r e, Fits s r ∧ Owned s r ∧ Flagged s ∧ Flows s e ∧ Backed s r := by
    refine h.invariant
      (I := fun s => ∃ r e, Fits s r ∧ Owned s r ∧ Flagged s ∧ Flows s e ∧ Backed s r)
      ⟨.init, fun _ => 0, fits_init, owned_init, flagged_init, ?_, ?_⟩ ?_
    · constructor <;> simp [init, FPCClosure.unmade, FPCClosure.init]
    · constructor <;> simp [init, Reg.init, Live, Carries, Shuts, ApiThread.deletes, ApiPc.working,
        FPCClosure.unmade, FPCClosure.init]
    · rintro s l s' ⟨r, e, hr, ho, hg, hf, hb⟩ hok hs
      have hm := step_move hs
      obtain ⟨e', hf'⟩ := hf.step hr ho hm
      exact ⟨_, e', hr.step hok.oneApp hm, ho.step hr hg hok hm, hg.step hr ho hm, hf',
        hb.step hf hr ho hg hm⟩
  obtain ⟨r, e, hr, ho, -, hf, hb⟩ := hinv
  exact ⟨r, e, hr, ho, hf, hb⟩

/-- The step of a sampling thread that completes a DELETE_CHANNEL job. -/
theorem step_bookDelete {s s' : Fpc} {d n j : Nat} {ev : UInt64} {now : Timespec}
    (hpc : (s.descr d).pc = .book n j ev) (htype : (s.thread j).job.type = .deleteChannel)
    (hs : step s (.sampler d now) = some s') : d < s.nrDescr ∧
      s'.cl (s.thread j).ch = (s.cl (s.thread j).ch).bookDelete now ev := by
  simp only [step] at hs
  split at hs
  · next hd =>
    simp only [sampler, hpc, Option.some.injEq] at hs
    subst hs
    refine ⟨hd, ?_⟩
    simp only [bookJob, htype, dequeueChannel]
    split <;> simp [signalCompletion]
  · contradiction

/-- **No event is lost or counted twice**, when the calls on a channel do not
overlap.  When a DELETE_CHANNEL job completes, the log of its channel ends
with the total, which is the sum of the counts on all data lines and, modulo
2⁶⁴, the number of handler calls before the job took the counter. -/
theorem total_counted {s s' : Fpc} (h : Reach step init OneCall s) {d n j : Nat} {ev : UInt64}
    {now : Timespec} (hpc : (s.descr d).pc = .book n j ev)
    (htype : (s.thread j).job.type = .deleteChannel) (hs : step s (.sampler d now) = some s') :
    ∃ total, (s'.cl (s.thread j).ch).base.lines.getLast? = some (.total total) ∧
      (s'.cl (s.thread j).ch).base.counted = total ∧
      UInt64.ofNat (s'.cl (s.thread j).ch).callsAtDelete = total := by
  obtain ⟨r, e, hr, ho, hf, hb⟩ := reach_backed h
  obtain ⟨hd, hcl⟩ := step_bookDelete hpc htype hs
  obtain ⟨hsent, hsig⟩ := hr.jobs.held_sent (t := j) hd (by rw [hpc]; rfl)
  have hlive : s.Live (s.thread j).ch :=
    .inr ⟨j, rfl, ApiPc.working_of_sent hsent, htype, hsig⟩
  have htally := hb.lines _ hlive
  have hk := (s.cl (s.thread j).ch).books_bookDelete now ev
  refine ⟨(s.cl (s.thread j).ch).totalCtr + ev, ?_, ?_, ?_⟩
  · rw [hcl]
    exact FPCClosure.getLast_bookDelete htally.isOpen now ev
  · rw [hcl, (htally.bookDelete now ev).counted]
    exact FPCClosure.totalCtr_bookDelete now ev
  · rw [hcl, hk.callsAtDelete]
    exact hb.final d hd n j ev hpc htype

/-- Channel 0 counts one event and is closed. -/
def countedRun : List Act :=
  [Act.openChannel 0 0 true] ++ List.replicate 4 (Act.api 0) ++
  List.replicate 7 (Act.sampler 0 .zero) ++
  [Act.api 0, Act.handler 0, Act.closeChannel 0 0] ++ List.replicate 4 (Act.api 0) ++
  List.replicate 7 (Act.sampler 0 .zero)

/-- The event is in the total. -/
theorem total_counted_once : ∃ s s', Reach step init OneCall s ∧
    step s (.sampler 0 .zero) = some s' ∧
    (s'.cl 0).base.lines.getLast? = some (.total 1) ∧ (s'.cl 0).base.counted = 1 := by
  obtain ⟨s, hr, hs⟩ : ∃ s, Reach step init (OneCallOf 1) s ∧
      decide ((s.descr 0).pc = .book 0 0 1 ∧ (s.thread 0).job.type = .deleteChannel ∧
        (s.thread 0).ch = 0 ∧ ((step s (.sampler 0 .zero)).map fun s =>
          (s.cl 0).callsAtDelete) = some 1) = true :=
    Reach.of_exec_any countedRun _ (by decide +kernel)
  obtain ⟨hpc, htype, hch, hcalls⟩ := of_decide_eq_true hs
  obtain ⟨s', hstep, hcalls⟩ := Option.map_eq_some_iff.mp hcalls
  obtain ⟨total, hlast, hsum, htotal⟩ := total_counted (reach_oneCall hr) hpc htype hstep
  rw [hch] at hlast hsum htotal
  rw [hcalls] at htotal
  exact ⟨s, s', reach_oneCall hr, hstep, by rw [hlast, ← htotal]; rfl, by rw [hsum, ← htotal]; rfl⟩

/-- Thread 1 closes channel 0 after it has read the old period; thread 0 then
gives the channel a new period, whose sampling thread takes the event. -/
def lostRun : List Act :=
  [Act.openChannel 0 0 true] ++ List.replicate 4 (Act.api 0) ++
  List.replicate 7 (Act.sampler 0 .zero) ++ [Act.api 0] ++
  [Act.parameterizeChannel 0 0 ⟨0, 5, fun _ => 0⟩, Act.api 0, Act.api 0] ++
  [Act.closeChannel 1 0] ++ List.replicate 3 (Act.api 1) ++
  List.replicate 11 (Act.sampler 0 .zero) ++ List.replicate 9 (Act.sampler 1 .zero) ++
  [Act.handler 0, Act.sampler 1 { Timespec.zero with tvSec := 1 }, Act.sampler 1 .zero, Act.api 1] ++
  List.replicate 7 (Act.sampler 0 .zero)

/-- **An event is lost**: it is neither in the total nor in the log. -/
theorem total_lost : ∃ s s', Reach step init OneApp s ∧ (s.descr 0).pc = .book 0 1 0 ∧
    (s.thread 1).job.type = .deleteChannel ∧ step s (.sampler 0 .zero) = some s' ∧
    (s'.cl 0).base.lines.getLast? = some (.total 0) ∧ (s'.cl 0).callsAtDelete = 1 := by
  obtain ⟨s, hr, hs⟩ : ∃ s, Reach step init (fun s l => OneAppOf 2 s l ∧ anyStep s l) s ∧
      decide ((s.descr 0).pc = .book 0 1 0 ∧ (s.thread 1).job.type = .deleteChannel ∧
        ((step s (.sampler 0 .zero)).map fun s =>
          ((s.cl 0).base.lines.getLast?, (s.cl 0).callsAtDelete)) =
            some (some (.total 0), 1)) = true :=
    Reach.of_exec_any lostRun _ (by decide +kernel)
  obtain ⟨hpc, htype, hlog⟩ := of_decide_eq_true hs
  obtain ⟨s', hstep, hlog⟩ := Option.map_eq_some_iff.mp hlog
  obtain ⟨hlast, hcalls⟩ := Prod.mk.inj hlog
  exact ⟨s, s', (reach_oneApp hr).mono fun _ _ h => h.1, hpc, htype, hstep, hlast, hcalls⟩

end Fpc

end CloudProfiler
