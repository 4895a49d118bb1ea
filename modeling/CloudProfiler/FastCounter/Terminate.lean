import CloudProfiler.Census
import CloudProfiler.FastCounter.Return
import CloudProfiler.FastCounter.Total

/-!
# CloudProfiler.FastCounter.Terminate

When the sampling threads of the fast periodic counter terminate.  The
sampling thread of the default period is to stay as long as a channel is
open, all others as long as they have a channel or a job.

* `Counted` — what `nr_open_channels` is the number of;
* `step_remove` — how a sampling thread gets to `removeThrDescriptor`;
* `remove_vacant` — no sampling thread gets there with channels and no job,
  as long as `closeChannel` does not count a channel out while its sampling
  thread asks `shallTerminate`;
* `default_stays` — the default sampling thread stays in `thr_map` while
  channels are open, as long as the rule for the other periods does not apply
  to it.
-/

namespace CloudProfiler

/-- Channel numbers are of type `int32_t` and counted from 0. -/
def chNrLimit : Nat := 2 ^ 31

namespace Fpc

/-- The number of a new channel is a channel number. -/
def Numbered (_ : Fpc) : Act → Prop
  | .openChannel _ c _ => c < chNrLimit
  | _ => True

instance : DecidableRel Numbered
  | _, .openChannel _ c _ => inferInstanceAs (Decidable (c < chNrLimit))
  | _, .parameterizeChannel _ _ _ | _, .closeChannel _ _ | _, .api _ | _, .handler _
  | _, .sampler _ _ => .isTrue trivial

/-! ## the number of open channels -/

/-- `nr_open_channels` is the number of the channels `m`, all of them below
`n`.  These have their flag, and a channel with the flag is among them until
`closeChannel` has counted it out. -/
structure Counted (s : Fpc) (m : Nat → Bool) (n : Nat) : Prop where
  count : s.nrOpenChannels.toNat = tally Bool.toNat n m
  number : ∀ c, (s.cl c).made = true → c < n
  flagged : ∀ c, m c = true → (s.cl c).isRefCounted = true
  missing : ∀ c, (s.cl c).isRefCounted = true → m c = false →
    ∃ t, (s.thread t).pc = .clear ∧ (s.thread t).ch = c
  counting : ∀ t, (s.thread t).pc = .countOut → m (s.thread t).ch = true
  cleared : ∀ t, (s.thread t).pc = .clear → m (s.thread t).ch = false

section Counts

variable {s s' : Fpc} {r : Reg} {l : Act} {m : Nat → Bool} {n t d c : Nat}

/-- A channel that is being opened is not counted. -/
theorem Owned.opening (ho : Owned s r) (hr : Fits s r) {ok : Bool}
    (hpc : (s.thread t).pc = .openFile ok) : (s.cl (s.thread t).ch).isRefCounted = false := by
  by_contra href
  obtain ⟨t', hch, hcar⟩ | howner := ho.owned _ (by simpa using href)
  · obtain rfl := ho.uniq t' t (ApiPc.busy_of_working hcar.1) (by simp [hpc]) hch
    have hw := hcar.1
    rw [hpc] at hw
    cases hw
  · exact howner (hr.settled.opening t ok hpc)

/-- No channel is open, and none is counted: a flag is about to be cleared. -/
theorem Counted.none (h : Counted s m n) (hr : Fits s r) (ho : Owned s r)
    (hnr : s.nrOpenChannels = 0) (href : (s.cl c).isRefCounted = true) :
    ∃ t, (s.thread t).pc = .clear ∧ (s.thread t).ch = c := by
  refine h.missing c href ?_
  have hzero : tally Bool.toNat n m = 0 := by rw [← h.count, hnr]; rfl
  simpa using tally_eq_zero.mp hzero c (h.number c (ho.made hr href))

/-- A channel is made. -/
theorem Counted.opens (h : Counted s m n) (hr : Fits s r) (ho : Owned s r) (hc : c < n)
    (hidle : (s.thread t).pc = .idle) (hmade : (s.cl c).made = false) {ok : Bool} :
    Counted ((s.setCl c .init).setThread t { s.thread t with pc := .openFile ok, ch := c }) m n := by
  have hunflagged : (s.cl c).isRefCounted = false := by
    by_contra href
    rw [ho.made hr (by simpa using href)] at hmade
    cases hmade
  refine ⟨h.count, fun c' hc' => ?_, fun c' hm => ?_, fun c' href hm => ?_, fun t' hpc => ?_,
    fun t' hpc => ?_⟩
  · by_cases hcc : c' = c
    · exact hcc ▸ hc
    · exact h.number c' (by simpa [hcc] using hc')
  · have href := h.flagged c' hm
    have hne : c' ≠ c := by
      rintro rfl
      rw [hunflagged] at href
      cases href
    simpa [hne] using href
  · by_cases hcc : c' = c
    · simp [hcc, FPCClosure.init] at href
    · obtain ⟨t', hpc, hch⟩ := h.missing c' (by simpa [hcc] using href) hm
      have hne : t' ≠ t := by
        rintro rfl
        rw [hidle] at hpc
        cases hpc
      exact ⟨t', by simpa [hne] using hpc, by simpa [hne] using hch⟩
  · by_cases ht : t' = t
    · simp [ht] at hpc
    · simpa [ht] using h.counting t' (by simpa [ht] using hpc)
  · by_cases ht : t' = t
    · simp [ht] at hpc
    · simpa [ht] using h.cleared t' (by simpa [ht] using hpc)

/-- A channel is counted in. -/
theorem Counted.opened (h : Counted s m n) (hr : Fits s r) (ho : Owned s r) (hn : n < 2 ^ 32)
    (hpc : (s.thread t).pc = .openFile true) :
    Counted { (s.setCl (s.thread t).ch
        { s.cl (s.thread t).ch with base := .opened, isRefCounted := true }).setThread t
        ⟨.submit, (s.thread t).ch, ⟨.insertChannel, -1, 0⟩⟩ with
      nrOpenChannels := s.nrOpenChannels + 1 } (Function.update m (s.thread t).ch true) n := by
  have hbusy : (s.thread t).pc ≠ .idle := by simp [hpc]
  have hlt : (s.thread t).ch < n := h.number _ (hr.settled.made t hbusy)
  have hout : m (s.thread t).ch = false := by
    by_contra hm
    have href := h.flagged _ (by simpa using hm)
    rw [ho.opening hr hpc] at href
    cases href
  have hne : ∀ t', t' ≠ t → (s.thread t').pc ≠ .idle → (s.thread t').ch ≠ (s.thread t).ch :=
    fun t' ht hb hch => ht (ho.uniq t' t hb hbusy hch)
  refine ⟨?_, fun c' hc' => ?_, fun c' hm => ?_, fun c' href hm => ?_, fun t' hpc' => ?_,
    fun t' hpc' => ?_⟩
  · have htally := tally_update (w := Bool.toNat) (f := m) hlt true
    have hle := (tally_le_card (w := Bool.toNat) (n := n)
      (f := Function.update m (s.thread t).ch true) fun _ _ => Bool.toNat_le _).1
    rw [hout] at htally
    show (s.nrOpenChannels + 1).toNat = _
    rw [UInt32.toNat_add, h.count, UInt32.toNat_one, Nat.mod_eq_of_lt] <;>
      simp only [Bool.toNat_false, Bool.toNat_true] at htally <;> omega
  · by_cases hcc : c' = (s.thread t).ch
    · exact hcc ▸ hlt
    · exact h.number c' (by simpa [hcc] using hc')
  · by_cases hcc : c' = (s.thread t).ch
    · simp [hcc]
    · simpa [hcc] using h.flagged c' (by simpa [hcc] using hm)
  · by_cases hcc : c' = (s.thread t).ch
    · simp [hcc] at hm
    · obtain ⟨t', hpc', hch⟩ := h.missing c' (by simpa [hcc] using href) (by simpa [hcc] using hm)
      have ht : t' ≠ t := by
        rintro rfl
        rw [hpc] at hpc'
        cases hpc'
      exact ⟨t', by simpa [ht] using hpc', by simpa [ht] using hch⟩
  · by_cases ht : t' = t
    · simp [ht] at hpc'
    · have hold : (s.thread t').pc = .countOut := by simpa [ht] using hpc'
      simpa [ht, hne t' ht (by simp [hold])] using h.counting t' hold
  · by_cases ht : t' = t
    · simp [ht] at hpc'
    · have hold : (s.thread t').pc = .clear := by simpa [ht] using hpc'
      simpa [ht, hne t' ht (by simp [hold])] using h.cleared t' hold

/-- `closeChannel` has found its channel counted. -/
theorem Counted.found (h : Counted s m n) (hok : OneCall s l) (hl : Closes t c l)
    (hidle : (s.thread t).pc = .idle) (href : (s.cl c).isRefCounted = true) :
    Counted (s.setThread t { s.thread t with pc := .countOut, ch := c }) m n := by
  refine ⟨h.count, h.number, h.flagged, fun c' href' hm => ?_, fun t' hpc => ?_, fun t' hpc => ?_⟩
  · obtain ⟨t', hpc, hch⟩ := h.missing c' href' hm
    have ht : t' ≠ t := by
      rintro rfl
      rw [hidle] at hpc
      cases hpc
    exact ⟨t', by simpa [ht] using hpc, by simpa [ht] using hch⟩
  · by_cases ht : t' = t
    · -- no other call on the channel could have counted it out
      by_contra hm
      obtain ⟨t₁, hpc₁, hch₁⟩ := h.missing c href (by simpa [ht] using hm)
      exact hok.closes hl t₁ (by simp [hpc₁]) hch₁
    · simpa [ht] using h.counting t' (by simpa [ht] using hpc)
  · by_cases ht : t' = t
    · simp [ht] at hpc
    · simpa [ht] using h.cleared t' (by simpa [ht] using hpc)

/-- A channel is counted out. -/
theorem Counted.countOut (h : Counted s m n) (hr : Fits s r) (ho : Owned s r)
    (hpc : (s.thread t).pc = .countOut) :
    Counted { s.setThread t { s.thread t with pc := .clear } with
      nrOpenChannels := s.nrOpenChannels - 1 } (Function.update m (s.thread t).ch false) n := by
  have hbusy : (s.thread t).pc ≠ .idle := by simp [hpc]
  have hin := h.counting t hpc
  have hlt : (s.thread t).ch < n := h.number _ (hr.settled.made t hbusy)
  have hne : ∀ t', t' ≠ t → (s.thread t').pc ≠ .idle → (s.thread t').ch ≠ (s.thread t).ch :=
    fun t' ht hb hch => ht (ho.uniq t' t hb hbusy hch)
  refine ⟨?_, h.number, fun c' hm => ?_, fun c' href hm => ?_, fun t' hpc' => ?_,
    fun t' hpc' => ?_⟩
  · have htally := tally_update (w := Bool.toNat) (f := m) hlt false
    rw [hin] at htally
    simp only [Bool.toNat_false, Bool.toNat_true] at htally
    have hle : (1 : UInt32) ≤ s.nrOpenChannels := by
      rw [UInt32.le_iff_toNat_le, h.count, UInt32.toNat_one]
      omega
    show (s.nrOpenChannels - 1).toNat = _
    rw [UInt32.toNat_sub_of_le _ _ hle, h.count, UInt32.toNat_one]
    omega
  · by_cases hcc : c' = (s.thread t).ch
    · simp [hcc] at hm
    · exact h.flagged c' (by simpa [hcc] using hm)
  · by_cases hcc : c' = (s.thread t).ch
    · exact ⟨t, by simp, by simp [hcc]⟩
    · obtain ⟨t', hpc', hch⟩ := h.missing c' href (by simpa [hcc] using hm)
      have ht : t' ≠ t := by
        rintro rfl
        rw [hpc] at hpc'
        cases hpc'
      exact ⟨t', by simpa [ht] using hpc', by simpa [ht] using hch⟩
  · by_cases ht : t' = t
    · simp [ht] at hpc'
    · have hold : (s.thread t').pc = .countOut := by simpa [ht] using hpc'
      simpa [ht, hne t' ht (by simp [hold])] using h.counting t' hold
  · by_cases ht : t' = t
    · simp [ht]
    · have hold : (s.thread t').pc = .clear := by simpa [ht] using hpc'
      simpa [ht, hne t' ht (by simp [hold])] using h.cleared t' hold

/-- The flag of a channel that was counted out is cleared. -/
theorem Counted.clear (h : Counted s m n) (hpc : (s.thread t).pc = .clear) :
    Counted ((s.setCl (s.thread t).ch { s.cl (s.thread t).ch with isRefCounted := false }).setThread t
      ⟨.submit, (s.thread t).ch, ⟨.deleteChannel, -1, 0⟩⟩) m n := by
  have hout := h.cleared t hpc
  refine ⟨h.count, fun c' hc' => ?_, fun c' hm => ?_, fun c' href hm => ?_, fun t' hpc' => ?_,
    fun t' hpc' => ?_⟩
  · refine h.number c' ?_
    by_cases hcc : c' = (s.thread t).ch
    · simpa [hcc] using hc'
    · simpa [hcc] using hc'
  · have hne : c' ≠ (s.thread t).ch := by
      rintro rfl
      rw [hout] at hm
      cases hm
    simpa [hne] using h.flagged c' hm
  · by_cases hcc : c' = (s.thread t).ch
    · simp [hcc] at href
    · obtain ⟨t', hpc', hch⟩ := h.missing c' (by simpa [hcc] using href) hm
      have ht : t' ≠ t := by
        rintro rfl
        exact hcc hch.symm
      exact ⟨t', by simpa [ht] using hpc', by simpa [ht] using hch⟩
  · by_cases ht : t' = t
    · simp [ht] at hpc'
    · simpa [ht] using h.counting t' (by simpa [ht] using hpc')
  · by_cases ht : t' = t
    · simp [ht] at hpc'
    · simpa [ht] using h.cleared t' (by simpa [ht] using hpc')

/-- **Every step keeps count of the open channels**, when the calls on a
channel do not overlap. -/
theorem Counted.step (h : Counted s m n) (hn : n < 2 ^ 32) (hr : Fits s r) (ho : Owned s r)
    (hok : OneCall s l) (hnumber : ∀ t c ok, l = .openChannel t c ok → c < n) (hs : Move s l s') :
    ∃ m', Counted s' m' n := by
  cases hs.countMove with
  | opens t c ok hl hidle hmade hs' =>
      exact ⟨m, hs' ▸ h.opens hr ho (hnumber t c ok hl) hidle hmade⟩
  | opened t hl hpc hs' => exact ⟨_, hs' ▸ h.opened hr ho hn hpc⟩
  | found t c hl hidle href hs' => exact ⟨m, hs' ▸ h.found hok hl hidle href⟩
  | countOut t hl hpc hs' => exact ⟨_, hs' ▸ h.countOut hr ho hpc⟩
  | clear t hl hpc hs' => exact ⟨m, hs' ▸ h.clear hpc⟩
  | same _ hnr hcl hthread =>
      refine ⟨m, by rw [hnr, h.count], fun c hc => h.number c ((hcl c).1 ▸ hc),
        fun c hm => by rw [(hcl c).2, h.flagged c hm], fun c href hm => ?_, fun t hpc => ?_,
        fun t hpc => ?_⟩
      · obtain ⟨t, hpc, hch⟩ := h.missing c ((hcl c).2 ▸ href) hm
        obtain ⟨hpc', hch'⟩ := hthread t (.inl (by rw [hpc]; rfl))
        exact ⟨t, hpc'.trans hpc, hch'.trans hch⟩
      · obtain ⟨hpc', hch'⟩ := hthread t (.inr (by rw [hpc]; rfl))
        rw [hch']
        exact h.counting t (hpc' ▸ hpc)
      · obtain ⟨hpc', hch'⟩ := hthread t (.inr (by rw [hpc]; rfl))
        rw [hch']
        exact h.cleared t (hpc' ▸ hpc)

theorem chNrLimit_lt : chNrLimit < 2 ^ 32 := by decide

theorem Numbered.number (h : Numbered s l) (t c : Nat) (ok : Bool)
    (hl : l = .openChannel t c ok) : c < chNrLimit := by
  subst hl
  exact h

theorem counted_init (n : Nat) : Counted init (fun _ => false) n where
  count := (tally_eq_zero.mpr fun _ _ => rfl).symm
  number c hc := by cases hc
  flagged c hc := by cases hc
  missing c hc := by cases hc
  counting t hpc := by cases hpc
  cleared t hpc := by cases hpc

end Counts

/-! ## the way to `removeThrDescriptor` -/

section Remove

variable {s s' : Fpc} {l : Act} {d : Nat}

/-- A sampling thread gets to `removeThrDescriptor` from `shallTerminate`; and
while it is there its queue grows and nothing else changes. -/
theorem step_remove (hs : s.step l = some s') (hd : d < s'.nrDescr)
    (hpc : (s'.descr d).pc = .remove) : d < s.nrDescr ∧
      (s'.descr d).closures = (s.descr d).closures ∧
      (s'.descr d).periodicIncNs = (s.descr d).periodicIncNs ∧
      (∃ q, (s'.descr d).jQueue = (s.descr d).jQueue ++ q) ∧
      ((s.descr d).pc = .remove ∨ (∃ now, l = .sampler d now) ∧ (s.descr d).pc = .terminate ∧
        s.shallTerminate d = true ∧ s'.nrOpenChannels = s.nrOpenChannels) := by
  have hm := step_move hs
  by_cases hlt : d < s.nrDescr
  · refine ⟨hlt, ?_⟩
    by_cases hl : ∃ now, l = .sampler d now
    · obtain ⟨now, rfl⟩ := hl
      simp only [step, if_pos hlt] at hs
      cases hm with
      | call hm =>
          cases hm with
          | close t c l hl | closeAgain t c l hl => cases hl
      | api hm | pass hm => cases hm <;> simp at hpc
      | loop hm =>
          cases hm with
          | goto d now ts pc hd hgo =>
              simp only [setDescr, Function.update_self] at hpc
              subst hpc
              cases hgo with
              | remove hterm =>
                  refine ⟨by simp, by simp, ⟨[], by simp⟩, .inr ⟨⟨now, rfl⟩, hterm, ?_, rfl⟩⟩
                  simp only [sampler, hterm] at hs
                  by_contra hno
                  rw [if_neg hno] at hs
                  have hclock := congrArg (fun s => (s.descr d).pc) (Option.some.inj hs)
                  simp at hclock
          | _ => simp at hpc
      | take hm =>
          cases hm with
          | takeMissing d now left j hd hp =>
              simp [signalCompletion] at hpc
          | _ => simp at hpc
      | book hm =>
          cases hm with
          | bookInsert d now left j ev hd hp | bookDelete d now left j ev hd hp
          | bookDeleteMissing d now left j ev hd hp =>
              simp [signalCompletion] at hpc
          | _ => simp at hpc
    · have hl' : ∀ now, l ≠ .sampler d now := fun now he => hl ⟨now, he⟩
      obtain ⟨q, hq⟩ := hm.descr_frame hlt hl'
      rw [hq] at hpc ⊢
      exact ⟨rfl, rfl, ⟨q, rfl⟩, .inl hpc⟩
  · rw [hm.new_pc hlt hd] at hpc
    cases hpc

/-- `shallTerminate` for the default period. -/
theorem shallTerminate_cases (h : s.shallTerminate d = true) :
    (s.descr d).periodicIncNs = fpcDefaultPeriod ∧ s.nrOpenChannels = 0 ∨
      (s.descr d).jQueue = [] ∧ (s.descr d).closures = [] := by
  unfold shallTerminate at h
  split at h
  · next hdefault => exact .inl hdefault
  · exact .inr (by simpa using h)

end Remove

/-! ## sampling threads with channels -/

/-- No sampling thread is at `removeThrDescriptor` with channels and no
job. -/
def Vacant (s : Fpc) : Prop :=
  ∀ d < s.nrDescr, (s.descr d).pc = .remove → (s.descr d).jQueue = [] → (s.descr d).closures = []

/-- `closeChannel` has counted its channel out, and the channel is not deleted
yet. -/
def CountedOut (a : ApiThread) : Prop := a.pc = .clear ∨ a.deletes

/-- When the default sampling thread has no job and finds no channel counted,
every `closeChannel` that has counted one of its channels out has submitted
its job. -/
def Submitted (s : Fpc) : Act → Prop
  | .sampler d _ => (s.descr d).pc = .terminate → (s.descr d).periodicIncNs = fpcDefaultPeriod →
      s.nrOpenChannels = 0 → (s.descr d).jQueue = [] → ∀ t, CountedOut (s.thread t) →
      (s.thread t).ch ∈ (s.descr d).closures → (s.thread t).pc.sent = true
  | _ => True

section Vacancy

variable {s s' : Fpc} {r : Reg} {l : Act} {m : Nat → Bool} {d n : Nat} {p : UInt64}

/-- A submitted DELETE_CHANNEL job is at the sampling thread that has its
channel. -/
theorem Owned.deleting_at (h : Owned s r) (hr : Fits s r) {t : Nat} (hdel : (s.thread t).deletes)
    (hkept : s.Kept t) (hown : r.owner (s.thread t).ch = some d) :
    t ∈ (s.descr d).jQueue ∨ (s.descr d).pc.held = some t := by
  have hsig := hdel.2.2
  obtain hone | ⟨-, d', hd', hq | hheld⟩ := hkept
  · rw [hsig] at hone
    cases hone
  · have hloc := (hr.jobs.queue d' hd' t).mp hq.1
    have hown' := h.here t d' (.inl hloc) (.inl hdel.2.1)
    rw [hown] at hown'
    cases hown'
    exact .inl hq.1
  · have hloc := (hr.jobs.hand d' hd' t).mp hheld
    have hown' := h.here t d' (.inr hloc) (.inl hdel.2.1)
    rw [hown] at hown'
    cases hown'
    exact .inr hheld

/-- While no channel is counted, a sampling thread without a job that asks
`shallTerminate` has no channel but those that are being closed. -/
theorem Owned.terminate_vacant (h : Owned s r) (hr : Fits s r) (hb : Backed s r)
    (hc : Counted s m n) (hk : ∀ t, (s.thread t).pc.sent = true → s.Kept t) (hd : d < s.nrDescr)
    (hpc : (s.descr d).pc = .terminate) (hzero : s.nrOpenChannels = 0)
    (hq : (s.descr d).jQueue = [])
    (hsub : ∀ t, CountedOut (s.thread t) → (s.thread t).ch ∈ (s.descr d).closures →
      (s.thread t).pc.sent = true) : (s.descr d).closures = [] := by
  refine List.eq_nil_iff_forall_not_mem.mpr fun c hmem => ?_
  have hown := (hr.settled.closures d hd c).mp hmem
  obtain href | ⟨t, rfl, hdel⟩ := hb.backed c (by rw [hown]; simp)
  · obtain ⟨t, hclear, rfl⟩ := hc.none hr h hzero href
    have hsent := hsub t (.inl hclear) hmem
    rw [hclear] at hsent
    cases hsent
  · obtain hat | hheld := h.deleting_at hr hdel (hk t (hsub t (.inr hdel) hmem)) hown
    · rw [hq] at hat
      cases hat
    · rw [hpc] at hheld
      cases hheld

/-- Where a sampling thread is looked up, it is the one in the map. -/
theorem Mapped.thrMap_eq (h : Mapped s r) (hd : d < s.nrDescr) (hlive : (s.descr d).pc ≠ .done)
    {d' : Nat} (hd' : s.thrMap (s.descr d).periodicIncNs = some d') : d' = d := by
  obtain hmap | he := h.live d hd hlive
  · exact Option.some.inj (hd'.symm.trans hmap)
  · rw [(h.entering _ _ he).2.2.2] at hd'
    cases hd'

/-- `removeThrDescriptor` logs that channels remain if there are channels and
no job. -/
theorem step_remaining (hs : s.step l = some s') (hf : .remaining p ∈ s'.fails) :
    .remaining p ∈ s.fails ∨ ∃ d < s.nrDescr, (s.descr d).pc = .remove ∧
      ∃ d', s.thrMap (s.descr d).periodicIncNs = some d' ∧ (s.descr d').jQueue = [] ∧
        (s.descr d').closures ≠ [] := by
  cases step_move hs with
  | call hm => cases hm <;> exact .inl hf
  | api hm =>
      cases hm with
      | routeLost => exact .inl (by simpa using hf)
      | _ => exact .inl hf
  | handler => exact .inl hf
  | loop hm =>
      cases hm with
      | keep d now fs hd hpc hmtx hfs =>
          simp only [step, if_pos hd, sampler, hpc] at hs
          obtain ⟨⟨s₁, removed⟩, hrem, hs⟩ := Option.map_eq_some_iff.mp hs
          have hfails : s₁.fails = fs := congrArg Fpc.fails hs
          unfold removeThrDescriptor at hrem
          rw [hmtx, Option.isSome_none, if_neg Bool.false_ne_true] at hrem
          split at hrem
          · cases hrem
            rw [← hfails] at hf
            exact .inl (by simpa using hf)
          · next d' hd' =>
            split at hrem
            · cases hrem
              rw [← hfails] at hf
              exact .inl hf
            · next hq =>
              split at hrem
              · next hc =>
                exact .inr ⟨d, hd, hpc, d', hd', by simpa using hq, List.ne_nil_of_length_pos hc⟩
              · cases hrem
                rw [← hfails] at hf
                exact .inl hf
      | _ => exact .inl hf
  | take hm =>
      cases hm with
      | takeMissing => exact .inl (by simpa [signalCompletion] using hf)
      | _ => exact .inl hf
  | book hm =>
      cases hm with
      | bookDeleteMissing => exact .inl (by simpa [signalCompletion] using hf)
      | _ => exact .inl hf
  | pass hm => cases hm <;> exact .inl hf

theorem reach_counted (h : Reach step init (fun s l => OneCall s l ∧ Numbered s l) s) :
    ∃ m, Counted s m chNrLimit := by
  refine h.invariant_of (I := fun s => ∃ m, Counted s m chNrLimit)
    (fun s hs => reach_owned (hs.mono fun _ _ hok => hok.1)) ⟨_, counted_init _⟩ ?_
  intro s l s' ⟨r, hr, ho, _⟩ ⟨m, hi⟩ hok hs
  exact hi.step chNrLimit_lt hr ho hok.1 hok.2.number (step_move hs)

/-- **A step keeps the sampling threads vacant** that are at
`removeThrDescriptor` if and only if the jobs of `closeChannel` are
submitted. -/
theorem vacant_step_iff (h : Reach step init (fun s l => OneCall s l ∧ Numbered s l) s)
    (hv : Vacant s) (hs : s.step l = some s') : Vacant s' ↔ Submitted s l := by
  constructor
  · intro hv'
    cases l with
    | sampler d now =>
        intro hpc hper hzero hq t hdel hmem
        have hlt : d < s.nrDescr := by
          by_contra hlt
          rw [step, if_neg hlt] at hs
          cases hs
        have hshall : s.shallTerminate d = true := by simp [shallTerminate, hper, hzero]
        simp only [step, if_pos hlt, sampler, hpc, hshall, if_true, Option.some.injEq] at hs
        subst hs
        have hnil := hv' d hlt (by simp) (by simpa using hq)
        simp only [setDescr, Function.update_self] at hnil
        rw [hnil] at hmem
        cases hmem
    | _ => trivial
  · intro hok d hd hpc hq'
    obtain ⟨hlt, hclosures, -, ⟨q, hq⟩, hremove | ⟨⟨now, rfl⟩, hterm, hshall, -⟩⟩ :=
      step_remove hs hd hpc
    · rw [hq] at hq'
      rw [hclosures]
      exact hv d hlt hremove (List.append_eq_nil_iff.mp hq').1
    · rw [hq] at hq'
      rw [hclosures]
      have hnil := (List.append_eq_nil_iff.mp hq').1
      obtain ⟨hper, hzero⟩ | ⟨-, hc⟩ := shallTerminate_cases hshall
      · have hone := h.mono fun _ _ hok => hok.1
        obtain ⟨r, e, hr, ho, -, hb⟩ := reach_backed hone
        obtain ⟨r', hsound⟩ := reach_sound hone
        obtain ⟨m, hc⟩ := reach_counted h
        exact ho.terminate_vacant hr hb hc
          (fun t => hsound.fits.kept hsound.somewhere) hlt hterm hzero hnil
          (hok hterm hper hzero hnil)
      · exact hc

end Vacancy

/-- The calls on a channel do not overlap, and those of `closeChannel` have
submitted their jobs. -/
def SerialSubmitted (s : Fpc) (l : Act) : Prop := OneCall s l ∧ Numbered s l ∧ Submitted s l

/-- **No sampling thread that has channels and no job is removed**, when the
calls on a channel do not overlap, as long as the jobs of `closeChannel` are
submitted; the error for remaining channels is not logged.  The first step
that does otherwise leads to `removeThrDescriptor` with channels and no
job. -/
theorem remove_vacant {s : Fpc}
    (h : Reach step init SerialSubmitted s) :
    Vacant s ∧ (∀ p, .remaining p ∉ s.fails) ∧
      ∀ l s', step s l = some s' → (Vacant s' ↔ Submitted s l) := by
  have hone : ∀ {s}, Reach step init SerialSubmitted s →
      Reach step init (fun s l => OneCall s l ∧ Numbered s l) s :=
    fun h => h.mono fun _ _ hok => ⟨hok.1, hok.2.1⟩
  have hinv : Vacant s ∧ ∀ p, .remaining p ∉ s.fails := by
    refine h.invariant_of (I := fun s => Vacant s ∧ ∀ p, .remaining p ∉ s.fails)
      (J := Reach step init SerialSubmitted) (fun _ hr => hr) ⟨nofun, nofun⟩ ?_
    intro s l s' hr ⟨hv, hfails⟩ hok hs
    refine ⟨(vacant_step_iff (hone hr) hv hs).mpr hok.2.2, fun p hp => ?_⟩
    obtain hold | ⟨d, hd, hpc, d', hd', hq, hc⟩ := step_remaining hs hp
    · exact hfails p hold
    · obtain ⟨r, hfits⟩ := reach_fits ((hone hr).mono fun _ _ hok => hok.1.oneApp)
      obtain rfl := hfits.mapped.thrMap_eq hd (by rw [hpc]; nofun) hd'
      exact hc (hv d' hd hpc hq)
  exact ⟨hinv.1, hinv.2, fun l s' hs => vacant_step_iff (hone h) hinv.1 hs⟩

/-- A sampling thread that finds no channel counted has a job or no
channel. -/
def Emptied (s : Fpc) : Act → Prop
  | .sampler d _ => (s.descr d).pc = .terminate → s.nrOpenChannels = 0 →
      (s.descr d).jQueue = [] → (s.descr d).closures = []
  | _ => True

instance : DecidableRel Emptied
  | s, .sampler d _ => inferInstanceAs (Decidable ((s.descr d).pc = .terminate →
      s.nrOpenChannels = 0 → (s.descr d).jQueue = [] → (s.descr d).closures = []))
  | _, .openChannel _ _ _ | _, .parameterizeChannel _ _ _ | _, .closeChannel _ _ | _, .api _
  | _, .handler _ => .isTrue trivial

theorem Emptied.submitted {s : Fpc} {l : Act} (h : Emptied s l) : Submitted s l := by
  cases l with
  | sampler d now =>
      intro hpc _ hzero hq t _ hmem
      rw [h hpc hzero hq] at hmem
      cases hmem
  | _ => trivial

/-- Channel 0 is opened; `closeChannel` counts it out. -/
def closingRun : List Act :=
  [Act.openChannel 0 0 true] ++ List.replicate 4 (Act.api 0) ++
  List.replicate 7 (Act.sampler 0 .zero) ++ [Act.api 0, Act.closeChannel 0 0, Act.api 0]

/-- The job is submitted at once; the sampling thread has no channel left. -/
def closedRun : List Act :=
  closingRun ++ List.replicate 3 (Act.api 0) ++ List.replicate 10 (Act.sampler 0 .zero)

/-- The sampling thread of a closed channel is about to be removed. -/
theorem remove_vacant_closed : ∃ s, Reach step init SerialSubmitted s ∧
    (s.descr 0).pc = .remove ∧ (s.descr 0).jQueue = [] ∧ (s.descr 0).closures = [] := by
  obtain ⟨s, hr, hs⟩ : ∃ s,
      Reach step init (fun s l => OneCallOf 1 s l ∧ Numbered s l ∧ Emptied s l) s ∧
        decide (0 < s.nrDescr ∧ (s.descr 0).pc = .remove ∧ (s.descr 0).jQueue = []) = true :=
    Reach.of_exec_any closedRun _ (by decide +kernel)
  obtain ⟨hd, hpc, hq⟩ := of_decide_eq_true hs
  have hr' : Reach step init SerialSubmitted s :=
    (reach_oneCallOf hr).mono fun _ _ hok => ⟨hok.1, hok.2.1, hok.2.2.submitted⟩
  exact ⟨s, hr', hpc, hq, (remove_vacant hr').1 0 hd hpc hq⟩

/-- **A sampling thread is to be removed that has a channel**: `closeChannel`
has counted the channel out, and its job is not submitted yet. -/
theorem remove_remaining : ∃ s s', Reach step init OneCall s ∧ ¬ Vacant s ∧
    step s (.sampler 0 .zero) = some s' ∧ .remaining fpcDefaultPeriod ∈ s'.fails := by
  obtain ⟨s, hr, hs⟩ : ∃ s, Reach step init (OneCallOf 1) s ∧ decide (0 < s.nrDescr ∧
      (s.descr 0).pc = .remove ∧ (s.descr 0).jQueue = [] ∧ (s.descr 0).closures = [0] ∧
        ((step s (.sampler 0 .zero)).map fun s => s.fails) =
          some [.remaining fpcDefaultPeriod]) = true :=
    Reach.of_exec_any (closingRun ++ List.replicate 2 (.sampler 0 .zero)) _ (by decide +kernel)
  obtain ⟨hd, hpc, hq, hc, hlog⟩ := of_decide_eq_true hs
  obtain ⟨s', hstep, hlog⟩ := Option.map_eq_some_iff.mp hlog
  refine ⟨s, s', reach_oneCall hr, fun hv => ?_, hstep, ?_⟩
  · rw [hv 0 hd hpc hq] at hc
    cases hc
  · rw [hlog]
    exact List.mem_singleton_self _

/-! ## entries of `thr_map` -/

/-- Who is about to enter a descriptor into `thr_map` holds the mutex, and
there is none for that period. -/
structure Entering (s : Fpc) : Prop where
  api : ∀ t p d, (s.thread t).pc = .insertMap p d → s.mtxThrMap = some (.api t) ∧ s.thrMap p = none
  sampler : ∀ d₀ < s.nrDescr, ∀ n p d, (s.descr d₀).pc = .insertMap n p d →
    s.mtxThrMap = some (.sampler d₀) ∧ s.thrMap p = none

section Map

variable {s s' : Fpc} {l : Act} {t d d₀ n : Nat} {p : UInt64}

/-- What a step does to `thr_map`: nothing, or it enters a descriptor, or
removes one while nobody holds the mutex. -/
theorem Move.map_frame (hs : Move s l s') :
    (s'.thrMap = s.thrMap ∧ (s.mtxThrMap ≠ none → s'.mtxThrMap = s.mtxThrMap)) ∨
    (∃ p d, s'.thrMap = Function.update s.thrMap p (some d) ∧
      ((∃ t, l = .api t ∧ (s.thread t).pc = .insertMap p d) ∨
        ∃ d₀ now n, l = .sampler d₀ now ∧ d₀ < s.nrDescr ∧ (s.descr d₀).pc = .insertMap n p d)) ∨
    (∃ d < s.nrDescr, (s.descr d).pc = .remove ∧ s.mtxThrMap = none ∧
      s'.thrMap = Function.update s.thrMap (s.descr d).periodicIncNs none) := by
  cases hs with
  | call hs | take hs | book hs => cases hs <;> exact .inl ⟨rfl, fun _ => rfl⟩
  | api hs =>
      cases hs with
      | insertMap t p d hpc => exact .inr (.inl ⟨p, d, rfl, .inl ⟨t, rfl, hpc⟩⟩)
      | routeNew t p hpc hmtx =>
          exact .inl ⟨rfl, fun hne => absurd hmtx hne⟩
      | _ => exact .inl ⟨rfl, fun _ => rfl⟩
  | handler => exact .inl ⟨rfl, fun _ => rfl⟩
  | loop hs =>
      cases hs with
      | removed d now d' hd hpc hmtx => exact .inr (.inr ⟨d, hd, hpc, hmtx, rfl⟩)
      | _ => exact .inl ⟨rfl, fun _ => rfl⟩
  | pass hs =>
      cases hs with
      | passMap d now left p d' hd hpc =>
          exact .inr (.inl ⟨p, d', rfl, .inr ⟨d, now, left, rfl, hd, hpc⟩⟩)
      | passNew d now left j p hd hpc hmtx =>
          exact .inl ⟨rfl, fun hne => absurd hmtx hne⟩
      | _ => exact .inl ⟨rfl, fun _ => rfl⟩

/-- A call that is about to enter a descriptor was so before, or has just
looked up its period. -/
theorem Move.api_enters (hs : Move s l s') (hpc : (s'.thread t).pc = .insertMap p d) :
    (s.thrMap p = none ∧ s'.mtxThrMap = some (.api t) ∧ s'.thrMap = s.thrMap) ∨
      (s.thread t).pc = .insertMap p d ∧ l ≠ .api t := by
  by_cases hl : l.thread = some t
  · cases hs with
    | call hs =>
        cases hs with
        | close t₀ c l hc | closeAgain t₀ c l hc =>
            rw [hc.thread] at hl
            obtain rfl : t₀ = t := Option.some.inj hl
            simp at hpc
        | refuse t₀ c a => exact .inr ⟨hpc, nofun⟩
        | openChannel t₀ | param t₀ =>
            obtain rfl : t₀ = t := Option.some.inj hl
            simp at hpc
    | api hs =>
        cases hs with
        | routeNew t₀ p₀ hroute hmtx hp =>
            obtain rfl : t₀ = t := Option.some.inj hl
            simp only [setThread, setDescr, Function.update_self, ApiPc.insertMap.injEq] at hpc
            exact .inl ⟨hpc.1 ▸ hp, rfl, rfl⟩
        | openFailed t₀ | opened t₀ | submit t₀ | routeFound t₀ | routeLost t₀ | insertMap t₀
        | returned t₀ | deleted t₀ | countOut t₀ | clear t₀ | closing t₀ =>
            obtain rfl : t₀ = t := Option.some.inj hl
            simp at hpc
    | handler => cases hl
    | loop hs | take hs | book hs | pass hs => cases hs <;> cases hl
  · exact .inr ⟨(hs.pc_eq hl).symm.trans hpc, fun he => hl (by rw [he]; rfl)⟩

theorem Move.sampler_enters (hs : Move s l s') (hd : d₀ < s'.nrDescr)
    (hpc : (s'.descr d₀).pc = .insertMap n p d) :
    (s.thrMap p = none ∧ s'.mtxThrMap = some (.sampler d₀) ∧ s'.thrMap = s.thrMap) ∨
      d₀ < s.nrDescr ∧ (s.descr d₀).pc = .insertMap n p d ∧ ∀ now, l ≠ .sampler d₀ now := by
  by_cases hlt : d₀ < s.nrDescr
  · by_cases hl : ∃ now, l = .sampler d₀ now
    · obtain ⟨now, rfl⟩ := hl
      cases hs with
      | call hs =>
          cases hs with
          | close t c l hc | closeAgain t c l hc => cases hc
      | api hs => cases hs
      | loop hs =>
          cases hs with
          | goto d now ts pc hd hgo =>
              simp only [setDescr, Function.update_self] at hpc
              subst hpc
              cases hgo
          | _ => simp at hpc
      | take hs =>
          cases hs with
          | takeMissing =>
              simp [signalCompletion] at hpc
          | _ => simp at hpc
      | book hs =>
          cases hs with
          | bookInsert | bookDelete | bookDeleteMissing =>
              simp [signalCompletion] at hpc
          | _ => simp at hpc
      | pass hs =>
          cases hs with
          | passNew d now left j p₀ hd hroute hmtx hp =>
              simp only [setDescr, Function.update_self, SamplerPc.insertMap.injEq] at hpc
              exact .inl ⟨hpc.2.1 ▸ hp, rfl, rfl⟩
          | _ => simp at hpc
    · have hl' : ∀ now, l ≠ .sampler d₀ now := fun now he => hl ⟨now, he⟩
      exact .inr ⟨hlt, (hs.sampler_pc_eq hlt hl').symm.trans hpc, hl'⟩
  · rw [hs.new_pc hlt hd] at hpc
    cases hpc

/-- **Every step keeps the map under the mutex.** -/
theorem Entering.step (h : Entering s) (hs : Move s l s') : Entering s' := by
  have hframe : ∀ x p, s.mtxThrMap = some x → s.thrMap p = none →
      (∀ t, x = .api t → l ≠ .api t) → (∀ d, x = .sampler d → ∀ now, l ≠ .sampler d now) →
      s'.mtxThrMap = some x ∧ s'.thrMap p = none := by
    intro x p hmtx hp hapi hsampler
    rcases hs.map_frame with ⟨hmap, hm⟩ | ⟨p', d, -, ⟨t, hl, hpc⟩ | ⟨d₀, now, n, hl, hd₀, hpc⟩⟩ |
      ⟨d, -, -, hnone, -⟩
    · rw [hm (by rw [hmtx]; simp), hmap]
      exact ⟨hmtx, hp⟩
    · have hx := (h.api t p' d hpc).1
      rw [hmtx] at hx
      exact absurd hl (hapi t (Option.some.inj hx))
    · have hx := (h.sampler d₀ hd₀ n p' d hpc).1
      rw [hmtx] at hx
      exact absurd hl (hsampler d₀ (Option.some.inj hx) now)
    · rw [hmtx] at hnone
      cases hnone
  constructor
  · intro t p d hpc
    obtain ⟨hp, hmtx, hmap⟩ | ⟨hpc₀, hl⟩ := hs.api_enters hpc
    · exact ⟨hmtx, by rw [hmap, hp]⟩
    · obtain ⟨hmtx, hp⟩ := h.api t p d hpc₀
      exact hframe _ p hmtx hp (fun t' ht' => by cases ht'; exact hl) nofun
  · intro d₀ hd₀ n p d hpc
    obtain ⟨hp, hmtx, hmap⟩ | ⟨hlt, hpc₀, hl⟩ := hs.sampler_enters hd₀ hpc
    · exact ⟨hmtx, by rw [hmap, hp]⟩
    · obtain ⟨hmtx, hp⟩ := h.sampler d₀ hlt n p d hpc₀
      exact hframe _ p hmtx hp nofun fun d' hd' => by cases hd'; exact hl

end Map

/-! ## the default sampling thread -/

/-- The default sampling thread asks `shallTerminate` while channels are open
only if it has a channel or a job. -/
def InUse (s : Fpc) : Act → Prop
  | .sampler d _ => (s.descr d).pc = .terminate → (s.descr d).periodicIncNs = fpcDefaultPeriod →
      s.nrOpenChannels ≠ 0 → (s.descr d).jQueue ≠ [] ∨ (s.descr d).closures ≠ []
  | _ => True

/-- No call counts a channel in or out while the default sampling thread is
between `shallTerminate` and `removeThrDescriptor`. -/
def NotLeaving (s : Fpc) : Act → Prop
  | .api t => (s.thread t).pc = .openFile true ∨ (s.thread t).pc = .countOut → ∀ d < s.nrDescr,
      (s.descr d).periodicIncNs = fpcDefaultPeriod → (s.descr d).pc ≠ .remove
  | _ => True

/-- Both. -/
def StaysInUse (s : Fpc) (l : Act) : Prop := InUse s l ∧ NotLeaving s l

instance : DecidableRel InUse
  | s, .sampler d _ => inferInstanceAs (Decidable ((s.descr d).pc = .terminate →
      (s.descr d).periodicIncNs = fpcDefaultPeriod → s.nrOpenChannels ≠ 0 →
      (s.descr d).jQueue ≠ [] ∨ (s.descr d).closures ≠ []))
  | _, .openChannel _ _ _ | _, .parameterizeChannel _ _ _ | _, .closeChannel _ _ | _, .api _
  | _, .handler _ => .isTrue trivial

instance : DecidableRel NotLeaving
  | s, .api t => inferInstanceAs (Decidable ((s.thread t).pc = .openFile true ∨
      (s.thread t).pc = .countOut → ∀ d < s.nrDescr,
      (s.descr d).periodicIncNs = fpcDefaultPeriod → (s.descr d).pc ≠ .remove))
  | _, .openChannel _ _ _ | _, .parameterizeChannel _ _ _ | _, .closeChannel _ _ | _, .handler _
  | _, .sampler _ _ => .isTrue trivial

instance : DecidableRel StaysInUse := fun s l =>
  inferInstanceAs (Decidable (InUse s l ∧ NotLeaving s l))

/-- A sampling thread of the default period is about to be removed only when
no channel is open. -/
def Leaving (s : Fpc) : Prop :=
  ∀ d < s.nrDescr, (s.descr d).pc = .remove →
    (s.descr d).periodicIncNs = fpcDefaultPeriod → s.nrOpenChannels = 0

section Default

variable {s s' : Fpc} {l : Act} {d : Nat}

theorem Leaving.step (h : Leaving s) (hok : StaysInUse s l) (hs : s.step l = some s') :
    Leaving s' := by
  intro d hd hpc hper
  obtain ⟨hlt, -, hper₀, -, hremove | ⟨⟨now, rfl⟩, hterm, hshall, hnr⟩⟩ := step_remove hs hd hpc
  · rw [hper₀] at hper
    have hzero := h d hlt hremove hper
    cases (step_move hs).countMove with
    | opens _ _ _ _ _ _ hs' => rw [hs']; exact hzero
    | opened t hl hopen =>
        subst hl
        exact absurd hremove (hok.2 (.inl hopen) d hlt hper)
    | found _ _ _ _ _ hs' => rw [hs']; exact hzero
    | countOut t hl hout =>
        subst hl
        exact absurd hremove (hok.2 (.inr hout) d hlt hper)
    | clear _ _ _ hs' => rw [hs']; exact hzero
    | same _ hnr => rw [hnr, hzero]
  · rw [hnr]
    rw [hper₀] at hper
    by_contra hopen
    obtain ⟨-, hzero⟩ | ⟨hq, hc⟩ := shallTerminate_cases hshall
    · exact hopen hzero
    · obtain hne | hne := hok.1 hterm hper hopen
      · exact hne hq
      · exact hne hc

/-- While channels are open the default sampling thread stays in the map. -/
theorem Leaving.thrMap (h : Leaving s) (he : Entering s) (hopen : s.nrOpenChannels ≠ 0)
    (hd : s.thrMap fpcDefaultPeriod = some d) (hs : Move s l s') :
    s'.thrMap fpcDefaultPeriod = some d := by
  obtain ⟨hmap, -⟩ | ⟨p, d', hmap, henter⟩ | ⟨d', hd', hpc, -, hmap⟩ := hs.map_frame
  · rw [hmap, hd]
  · have hp : s.thrMap p = none := by
      obtain ⟨t, -, hpc⟩ | ⟨d₀, now, n, -, hd₀, hpc⟩ := henter
      · exact (he.api t p d' hpc).2
      · exact (he.sampler d₀ hd₀ n p d' hpc).2
    have hne : fpcDefaultPeriod ≠ p := by
      rintro rfl
      rw [hd] at hp
      cases hp
    rw [hmap, Function.update_of_ne hne, hd]
  · have hne : fpcDefaultPeriod ≠ (s.descr d').periodicIncNs := fun hper =>
      hopen (h d' hd' hpc hper.symm)
    rw [hmap, Function.update_of_ne hne, hd]

end Default

/-- **The default sampling thread stays in `thr_map` while channels are
open**, as long as it does not ask `shallTerminate` without a channel and a
job, and no channel is counted in or out while it leaves. -/
theorem default_stays {s s' : Fpc} {d : Nat} (h : Reach step init StaysInUse s)
    (hd : s.thrMap fpcDefaultPeriod = some d)
    (h' : Reach step s (fun s l => StaysInUse s l ∧ s.nrOpenChannels ≠ 0) s') :
    s'.thrMap fpcDefaultPeriod = some d := by
  have hinit : Leaving init ∧ Entering init :=
    ⟨fun d hd => absurd hd (Nat.not_lt_zero d), nofun, nofun⟩
  have hinv : Leaving s ∧ Entering s := h.invariant (I := fun s => Leaving s ∧ Entering s) hinit
    fun _ _ _ hi hok hs => ⟨hi.1.step hok hs, hi.2.step (step_move hs)⟩
  have hrun : (Leaving s' ∧ Entering s') ∧ s'.thrMap fpcDefaultPeriod = some d :=
    h'.invariant (I := fun s => (Leaving s ∧ Entering s) ∧ s.thrMap fpcDefaultPeriod = some d)
      ⟨hinv, hd⟩ fun _ _ _ hi hok hs =>
        ⟨⟨hi.1.1.step hok.1 hs, hi.1.2.step (step_move hs)⟩,
          hi.1.1.thrMap hi.1.2 hok.2 hi.2 (step_move hs)⟩
  exact hrun.2

/-- Channels 0 and 1 are open, and thread 0 gives channel 0 another period. -/
def twoRun : List Act :=
  [Act.openChannel 0 0 true] ++ List.replicate 4 (Act.api 0) ++
  List.replicate 7 (Act.sampler 0 .zero) ++ [Act.api 0, Act.openChannel 0 1 true] ++
  List.replicate 3 (Act.api 0) ++ List.replicate 8 (Act.sampler 0 .zero)

/-- The default sampling thread stays for channel 1. -/
theorem default_stays_two : ∃ s s', Reach step init StaysInUse s ∧
    Reach step s (fun s l => StaysInUse s l ∧ s.nrOpenChannels ≠ 0) s' ∧
    s'.thrMap 5 = some 1 ∧ s'.thrMap fpcDefaultPeriod = some 0 := by
  obtain ⟨s, hr, hs⟩ : ∃ s, Reach step init StaysInUse s ∧
      (decide (s.thrMap fpcDefaultPeriod = some 0) &&
        (exec step (fun s l => StaysInUse s l ∧ s.nrOpenChannels ≠ 0) s
          ([Act.api 0, Act.parameterizeChannel 0 0 ⟨0, 5, fun _ => 0⟩, Act.api 0, Act.api 0] ++
            List.replicate 15 (Act.sampler 0 .zero))).any
          fun s => decide (s.thrMap 5 = some 1)) = true :=
    Reach.of_exec_any twoRun _ (by decide +kernel)
  obtain ⟨hmap, hrun⟩ := Bool.and_eq_true_iff.mp hs
  rw [Option.any_eq_true] at hrun
  obtain ⟨s', hs', hnew⟩ := hrun
  have hr' := Reach.init.exec hs'
  exact ⟨s, s', hr, hr', of_decide_eq_true hnew, default_stays hr (of_decide_eq_true hmap) hr'⟩

/-- Threads 0 and 1 both find channel 0 counted.  Thread 0 counts it out and
closes it, and the default sampling thread is about to be removed when thread
1 counts it out once more. -/
def twiceRun : List Act :=
  [Act.openChannel 0 0 true] ++ List.replicate 4 (Act.api 0) ++
  List.replicate 7 (Act.sampler 0 .zero) ++
  [Act.api 0, Act.closeChannel 0 0, Act.closeChannel 1 0] ++ List.replicate 4 (Act.api 0) ++
  List.replicate 10 (Act.sampler 0 .zero) ++ [Act.api 1]

/-- **The default sampling thread is removed while a channel is open**: its
last channel has got another period; or the channel is opened just before
`removeThrDescriptor`; or two calls of `closeChannel` have counted the same
channel out, so that `nr_open_channels` has wrapped. -/
theorem default_removed :
    (∃ s s', Reach step init OneCall s ∧ s.thrMap fpcDefaultPeriod = some 0 ∧
      s.nrOpenChannels = 1 ∧ s.thrMap 5 = some 1 ∧ step s (.sampler 0 .zero) = some s' ∧
      s'.thrMap fpcDefaultPeriod = none ∧ s'.nrOpenChannels = 1) ∧
    (∃ s s', Reach step init OneCall s ∧ s.thrMap fpcDefaultPeriod = some 0 ∧
      s.nrOpenChannels = 1 ∧ (s.thread 1).pc = .submit ∧ step s (.sampler 0 .zero) = some s' ∧
      s'.thrMap fpcDefaultPeriod = none ∧ s'.nrOpenChannels = 1) ∧
    ∃ s s', Reach step init OneApp s ∧ s.thrMap fpcDefaultPeriod = some 0 ∧
      s.nrOpenChannels = -1 ∧ step s (.sampler 0 .zero) = some s' ∧
      s'.thrMap fpcDefaultPeriod = none ∧ s'.nrOpenChannels = -1 := by
  refine ⟨?_, ?_, ?_⟩
  · obtain ⟨s, hr, hs⟩ : ∃ s, Reach step init (OneCallOf 1) s ∧
        decide (s.thrMap fpcDefaultPeriod = some 0 ∧ s.nrOpenChannels = 1 ∧ s.thrMap 5 = some 1 ∧
          ((step s (.sampler 0 .zero)).map fun s =>
            (s.thrMap fpcDefaultPeriod, s.nrOpenChannels)) = some (none, 1)) = true :=
      Reach.of_exec_any (movingRun 12) _ (by decide +kernel)
    obtain ⟨hmap, hnr, hnew, hstep⟩ := of_decide_eq_true hs
    obtain ⟨s', hs', hend⟩ := Option.map_eq_some_iff.mp hstep
    obtain ⟨hmap', hnr'⟩ := Prod.mk.inj hend
    exact ⟨s, s', reach_oneCall hr, hmap, hnr, hnew, hs', hmap', hnr'⟩
  · obtain ⟨s, hr, hs⟩ : ∃ s, Reach step init (OneCallOf 2) s ∧
        decide (s.thrMap fpcDefaultPeriod = some 0 ∧ s.nrOpenChannels = 1 ∧
          (s.thread 1).pc = .submit ∧ ((step s (.sampler 0 .zero)).map fun s =>
            (s.thrMap fpcDefaultPeriod, s.nrOpenChannels)) = some (none, 1)) = true :=
      Reach.of_exec_any (closedRun ++ [.openChannel 1 1 true, .api 1]) _ (by decide +kernel)
    obtain ⟨hmap, hnr, hpc, hstep⟩ := of_decide_eq_true hs
    obtain ⟨s', hs', hend⟩ := Option.map_eq_some_iff.mp hstep
    obtain ⟨hmap', hnr'⟩ := Prod.mk.inj hend
    exact ⟨s, s', reach_oneCall hr, hmap, hnr, hpc, hs', hmap', hnr'⟩
  · obtain ⟨s, hr, hs⟩ : ∃ s, Reach step init (fun s l => OneAppOf 2 s l ∧ anyStep s l) s ∧
        decide (s.thrMap fpcDefaultPeriod = some 0 ∧ s.nrOpenChannels = -1 ∧
          ((step s (.sampler 0 .zero)).map fun s =>
            (s.thrMap fpcDefaultPeriod, s.nrOpenChannels)) = some (none, -1)) = true :=
      Reach.of_exec_any twiceRun _ (by decide +kernel)
    obtain ⟨hmap, hnr, hstep⟩ := of_decide_eq_true hs
    obtain ⟨s', hs', hend⟩ := Option.map_eq_some_iff.mp hstep
    obtain ⟨hmap', hnr'⟩ := Prod.mk.inj hend
    exact ⟨s, s', (reach_oneApp hr).mono fun _ _ hok => hok.1, hmap, hnr, hs', hmap', hnr'⟩

end Fpc

end CloudProfiler
