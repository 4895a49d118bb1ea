import CloudProfiler.FastCounter.Total
import CloudProfiler.RunLength

/-!
# CloudProfiler.FastCounter.Interval

What the log of a FASTPERIODICCOUNTER channel says about the intervals of its
sampling thread.  Between the job that puts the channel into a sampling thread
and the one that takes it out, each pass of the thread through its loop takes
one sample; the log has a data line for each sample with events, and a line
with their number for those without.

* `Flushed` — no skipped intervals are left over from another sampling thread;
* `Touched`, `Served.touched` — only its own sampling thread writes to the log
  of a channel;
* `Window` — log, skipped intervals and samples agree;
* `interval_accounting` — what the log says when the channel is taken out.
-/

namespace CloudProfiler

open RunLength

/-- What a line says about intervals of the sampling thread. -/
def FPCLine.intervals : FPCLine → Option (Entry Timespec UInt64)
  | .skipped n => some (.zeros n.toNat)
  | .ctr ts n => some (.value ts n)
  | _ => none

namespace FPCClosure

/-- `k` has the log and the samples of `cl`. -/
structure Keeps (cl k : FPCClosure) : Prop where
  base : k.base = cl.base
  skipped : k.skippedIntervals = cl.skippedIntervals
  sampledCtr : k.sampledCtr = cl.sampledCtr
  sampledTs : k.sampledTs = cl.sampledTs

theorem keeps_refl (cl : FPCClosure) : cl.Keeps cl := ⟨rfl, rfl, rfl, rfl⟩

variable {cl : FPCClosure}

/-- The line for the intervals that were skipped. -/
def skippedLines (cl : FPCClosure) : List FPCLine :=
  if cl.skippedIntervals > 0 then [.skipped cl.skippedIntervals] else []

/-- What it says. -/
theorem intervals_skippedLines (cl : FPCClosure) :
    cl.skippedLines.map FPCLine.intervals = (run cl.skippedIntervals.toNat).map some := by
  unfold run skippedLines
  by_cases hz : cl.skippedIntervals = 0
  · simp [hz]
  · have hpos : cl.skippedIntervals > 0 := UInt64.pos_iff_ne_zero.mpr hz
    have hne : cl.skippedIntervals.toNat ≠ 0 := fun he => hz (UInt64.toNat_inj.mp he)
    rw [if_neg hne, if_pos hpos]
    rfl

theorem lines_put (h : cl.base.isOpen = true) (l : FPCLine) :
    (cl.put l).base.lines = cl.base.lines ++ [l] := by
  simp [put, Base.put, h]

theorem skippedIntervals_flushSkipped (cl : FPCClosure) :
    cl.flushSkipped.skippedIntervals = 0 := by
  unfold flushSkipped
  split
  · rfl
  · next hle => simpa using hle

theorem lines_flushSkipped (h : cl.base.isOpen = true) :
    cl.flushSkipped.base.lines = cl.base.lines ++ cl.skippedLines := by
  unfold flushSkipped skippedLines
  split
  · exact lines_put h _
  · exact (List.append_nil _).symm

/-- The skipped intervals are written after a new total. -/
theorem lines_flushTotal (h : cl.base.isOpen = true) (n : UInt64) :
    { cl with totalCtr := n }.flushSkipped.base.lines = cl.base.lines ++ cl.skippedLines := by
  have hk : { cl with totalCtr := n }.base.isOpen = true := h
  exact lines_flushSkipped hk

theorem isOpen_flushTotal (h : cl.base.isOpen = true) (n : UInt64) :
    { cl with totalCtr := n }.flushSkipped.base.isOpen = true := by simpa using h

theorem sampledTs_flushSkipped (cl : FPCClosure) : cl.flushSkipped.sampledTs = cl.sampledTs := by
  unfold flushSkipped
  split <;> rfl

/-- A pass without events is counted, and nothing is written. -/
theorem account_zero (h : cl.sampledCtr = 0) :
    cl.account.base = cl.base ∧ cl.account.skippedIntervals = cl.skippedIntervals + 1 := by
  simp [account, h]

/-- A pass with events is written, after those without. -/
theorem account_events (h : cl.sampledCtr ≠ 0) (hopen : cl.base.isOpen = true) :
    cl.account.base.lines = cl.base.lines ++ cl.skippedLines ++ [.ctr cl.sampledTs cl.sampledCtr] ∧
      cl.account.skippedIntervals = 0 := by
  unfold account
  rw [if_neg h]
  refine ⟨?_, skippedIntervals_flushSkipped _⟩
  rw [lines_put (isOpen_flushTotal hopen _), lines_flushTotal hopen, sampledTs_flushSkipped,
    (books_flushSkipped _).sampledCtr]

theorem lines_printTruncatedPeriod (h : cl.base.isOpen = true) (now : Timespec) (ev : UInt64)
    (m : String) : (cl.printTruncatedPeriod now ev m).base.lines =
      cl.base.lines ++ [.ctr now ev, .truncated, .msg m] := by
  simp [printTruncatedPeriod, put, Base.put, h]

/-- MOVE_CHANNEL writes the skipped intervals first. -/
theorem lines_bookMove (h : cl.base.isOpen = true) (now : Timespec) (ev p : UInt64) :
    (cl.bookMove now ev p).base.lines = cl.base.lines ++ cl.skippedLines ++
      [.ctr now ev, .truncated, .msg "timer reprogrammed"] := by
  show (printTruncatedPeriod _ now ev "timer reprogrammed").base.lines = _
  rw [lines_printTruncatedPeriod (isOpen_flushTotal h _), lines_flushTotal h]

@[simp] theorem skippedIntervals_bookMove (now : Timespec) (ev p : UInt64) :
    (cl.bookMove now ev p).skippedIntervals = 0 := skippedIntervals_flushSkipped _

/-- So does DELETE_CHANNEL. -/
theorem lines_bookDelete (h : cl.base.isOpen = true) (now : Timespec) (ev : UInt64) :
    (cl.bookDelete now ev).base.lines = cl.base.lines ++ cl.skippedLines ++
      [.ctr now ev, .truncated, .msg "timer shut down", .total (cl.totalCtr + ev)] := by
  have hopen := isOpen_flushTotal h (cl.totalCtr + ev)
  have hopen' : (printTruncatedPeriod { cl with totalCtr := cl.totalCtr + ev }.flushSkipped now ev
      "timer shut down").base.isOpen = true := by simpa [printTruncatedPeriod, put] using hopen
  have htotal : (printTruncatedPeriod { cl with totalCtr := cl.totalCtr + ev }.flushSkipped now ev
      "timer shut down").totalCtr = cl.totalCtr + ev := by simp [printTruncatedPeriod, put]
  unfold bookDelete
  rw [lines_put hopen', htotal, lines_printTruncatedPeriod hopen, lines_flushTotal h]
  simp

end FPCClosure

/-- The channel that is next in the second loop of `thr_f`. -/
def SamplerPc.accounts : SamplerPc → Option Nat
  | .account (c :: _) => some c
  | _ => none

theorem SamplerPc.eq_book {pc : SamplerPc} {j : Nat} (h : j ∈ pc.books) :
    ∃ n ev, pc = .book n j ev := by
  cases pc with
  | book n j' ev =>
      obtain rfl : j' = j := Option.some.inj h
      exact ⟨n, ev, rfl⟩
  | _ => cases h

namespace Fpc

/-! ## who writes to the log of a channel -/

/-- Why a step writes to the log of channel `c`, or changes its sample or the
number of its skipped intervals. -/
inductive Touched (s : Fpc) (l : Act) (c : Nat) : Prop
  | made (t : Nat) (ok : Bool) (hl : l = .openChannel t c ok) (hmade : (s.cl c).made = false)
  | file (t : Nat) (hl : l = .api t) (hpc : (s.thread t).pc = .openFile true ∨
      (s.thread t).pc = .closing) (hc : (s.thread t).ch = c)
  | sample (d : Nat) (now : Timespec) (seen rest : List Nat) (hl : l = .sampler d now)
      (hd : d < s.nrDescr) (hpc : (s.descr d).pc = .sample seen (c :: rest))
  | account (d : Nat) (now : Timespec) (rest : List Nat) (hl : l = .sampler d now)
      (hd : d < s.nrDescr) (hpc : (s.descr d).pc = .account (c :: rest))
  | header (d : Nat) (now : Timespec) (n j : Nat) (hl : l = .sampler d now)
      (hd : d < s.nrDescr) (hpc : (s.descr d).pc = .take n j)
      (htype : (s.thread j).job.type = .insertChannel) (hc : (s.thread j).ch = c)
  | book (d : Nat) (now : Timespec) (n j : Nat) (ev : UInt64) (hl : l = .sampler d now)
      (hd : d < s.nrDescr) (hpc : (s.descr d).pc = .book n j ev) (hc : (s.thread j).ch = c)

section Touches

variable {s s' : Fpc} {r : Reg} {l : Act} {t d c : Nat}

/-- The steps that touch channel `c`. -/
theorem Move.touched (hs : Move s l s') (c : Nat) : (s.cl c).Keeps (s'.cl c) ∨ Touched s l c := by
  have hset : ∀ {c₀ : Nat} {k : FPCClosure}, (c = c₀ → (s.cl c₀).Keeps k ∨ Touched s l c) →
      (s.cl c).Keeps (Function.update s.cl c₀ k c) ∨ Touched s l c := by
    intro c₀ k h
    by_cases hc : c = c₀
    · subst hc
      rw [Function.update_self]
      exact h rfl
    · rw [Function.update_of_ne hc]
      exact .inl (FPCClosure.keeps_refl _)
  cases hs with
  | call hs =>
      cases hs with
      | openChannel t c₀ ok hidle hmade =>
          exact hset fun he => .inr (.made t ok (he ▸ rfl) (he ▸ hmade))
      | _ => exact .inl (FPCClosure.keeps_refl _)
  | api hs =>
      cases hs with
      | opened t hpc => exact hset fun he => .inr (.file t rfl (.inl hpc) he.symm)
      | closing t hpc => exact hset fun he => .inr (.file t rfl (.inr hpc) he.symm)
      | returned | clear => exact hset fun _ => .inl ⟨rfl, rfl, rfl, rfl⟩
      | _ => exact .inl (FPCClosure.keeps_refl _)
  | handler => exact hset fun _ => .inl ⟨rfl, rfl, rfl, rfl⟩
  | loop hs =>
      cases hs with
      | sample d now seen c₀ rest hd hpc =>
          exact hset fun he => .inr (.sample d now seen rest rfl hd (he ▸ hpc))
      | account d now c₀ rest hd hpc =>
          exact hset fun he => .inr (.account d now rest rfl hd (he ▸ hpc))
      | _ => exact .inl (FPCClosure.keeps_refl _)
  | take hs =>
      cases hs with
      | takeInsert d now left j hd hpc htype =>
          exact hset fun he => .inr (.header d now left j rfl hd hpc htype he.symm)
      | takeMove | takeDelete => exact hset fun _ => .inl ⟨rfl, rfl, rfl, rfl⟩
      | _ => exact .inl (FPCClosure.keeps_refl _)
  | book hs =>
      cases hs with
      | bookInsert d now left j ev hd hpc | bookMove d now left j ev hd hpc
      | bookDelete d now left j ev hd hpc | bookDeleteMissing d now left j ev hd hpc =>
          exact hset fun he => .inr (.book d now left j ev rfl hd hpc he.symm)
  | pass hs => cases hs <;> exact .inl (FPCClosure.keeps_refl _)

/-- What is known of a state reached by calls that do not overlap. -/
structure Serial (s : Fpc) (r : Reg) : Prop where
  fits : Fits s r
  owned : Owned s r
  backed : Backed s r
  walks : ∀ d < s.nrDescr, (s.descr d).Walks

/-- Sampling thread `d` has channel `c`, or has just taken it out to move
it. -/
def Served (s : Fpc) (d c : Nat) : Prop :=
  d < s.nrDescr ∧ (c ∈ (s.descr d).closures ∨ ∃ n j ev, (s.descr d).pc = .book n j ev ∧
    (s.thread j).ch = c ∧ (s.thread j).job.type = .moveChannel)

/-- The step ends the job that takes channel `c` out of sampling thread
`d`. -/
def Removes (s : Fpc) (d c : Nat) : Act → Prop
  | .sampler d' _ => d' = d ∧ ∃ j ∈ (s.descr d).pc.books, (s.thread j).ch = c ∧
      (s.thread j).job.type ≠ .insertChannel
  | _ => False

instance (s : Fpc) (d c : Nat) : DecidablePred (Removes s d c)
  | .sampler d' _ => inferInstanceAs (Decidable (d' = d ∧ ∃ j ∈ (s.descr d).pc.books,
      (s.thread j).ch = c ∧ (s.thread j).job.type ≠ .insertChannel))
  | .openChannel _ _ _ | .parameterizeChannel _ _ _ | .closeChannel _ _ | .api _ | .handler _ =>
      .isFalse id

/-- A channel in a loop of `thr_f` is one of the sampling thread. -/
theorem Serial.looped (h : Serial s r) (hd : d < s.nrDescr)
    (hpc : (∃ seen rest, (s.descr d).pc = .sample seen (c :: rest)) ∨
      ∃ rest, (s.descr d).pc = .account (c :: rest)) : r.owner c = some d := by
  refine (h.fits.settled.closures d hd c).mp ?_
  have hw := h.walks d hd
  obtain ⟨seen, rest, hpc⟩ | ⟨rest, hpc⟩ := hpc
  · simp only [ThrDescriptor.Walks, hpc] at hw
    rw [hw]
    simp
  · simp only [ThrDescriptor.Walks, hpc] at hw
    exact hw.mem List.mem_cons_self

/-- The job that moves the channel carries it. -/
theorem Served.carries (hk : Serial s r) {n j : Nat} {ev : UInt64} (hd : d < s.nrDescr)
    (hpc : (s.descr d).pc = .book n j ev) (htype : (s.thread j).job.type = .moveChannel) :
    s.Carries j ∧ r.loc j = .hand d ∧ (s.thread j).pc.sent = true := by
  have hb : (s.descr d).pc.books = some j := by rw [hpc]; rfl
  have hloc := hk.fits.jobs.books_hand hd hb
  obtain ⟨hsent, hsig⟩ := hk.fits.jobs.sent j (by rw [hloc]; simp)
  exact ⟨⟨ApiPc.working_of_sent hsent, hsig, .inr ⟨htype, d, hd, hb⟩⟩, hloc, hsent⟩

/-- The channel is in no other sampling thread. -/
theorem Served.owner (h : Served s d c) (hk : Serial s r) {d' : Nat} (ho : r.owner c = some d') :
    d' = d := by
  obtain ⟨hd, hmem | ⟨n, j, ev, hpc, rfl, htype⟩⟩ := h
  · rw [(hk.fits.settled.closures d hd c).mp hmem] at ho
    exact (Option.some.inj ho).symm
  · rw [hk.fits.away ⟨j, rfl, (Served.carries hk hd hpc htype).1⟩] at ho
    cases ho

/-- The channel is open, or is being shut down. -/
theorem Served.live (h : Served s d c) (hk : Serial s r) : s.Live c := by
  obtain ⟨hd, hmem | ⟨n, j, ev, hpc, rfl, htype⟩⟩ := h
  · exact hk.backed.backed c (by rw [(hk.fits.settled.closures d hd c).mp hmem]; simp)
  · exact .inl (hk.backed.carried j (Served.carries hk hd hpc htype).1)

/-- The channel is in use by no call that opens or closes its file. -/
theorem Served.not_file (h : Served s d c) (hk : Serial s r)
    (hpc : (s.thread t).pc = .openFile true ∨ (s.thread t).pc = .closing) :
    (s.thread t).ch ≠ c := by
  rintro rfl
  have hbusy : (s.thread t).pc ≠ .idle := by obtain hpc | hpc := hpc <;> simp [hpc]
  have hcall : ∀ t', (s.thread t').ch = (s.thread t).ch → (s.thread t').pc.working = false := by
    intro t' hch
    by_contra hw
    have hw' : (s.thread t').pc.working = true := by simpa using hw
    obtain rfl := hk.owned.uniq t' t (ApiPc.busy_of_working hw') hbusy hch
    obtain hpc | hpc := hpc <;> simp [hpc, ApiPc.working] at hw'
  have hnot : ∀ t', (s.thread t').ch = (s.thread t).ch → ¬ (s.thread t').deletes := by
    intro t' hch hdel
    have hw := hdel.1
    rw [hcall t' hch] at hw
    cases hw
  obtain hpc | hpc := hpc
  · obtain ⟨hd, hmem | ⟨n, j, ev, hbook, hch, htype⟩⟩ := h
    · have ho := (hk.fits.settled.closures d hd _).mp hmem
      rw [hk.fits.settled.opening t true hpc] at ho
      cases ho
    · have hw := (Served.carries hk hd hbook htype).1.1
      rw [hcall j hch] at hw
      cases hw
  · obtain href | ⟨t', hch, hdel⟩ := h.live hk
    · rw [hk.backed.shut t (.inr hpc)] at href
      cases href
    · exact hnot t' hch hdel

/-- A job that is to insert a channel is for another one. -/
theorem Served.not_insert (h : Served s d c) (hk : Serial s r) {d' j : Nat} (hd' : d' < s.nrDescr)
    (hheld : (s.descr d').pc.held = some j) (htype : (s.thread j).job.type = .insertChannel) :
    (s.thread j).ch ≠ c := by
  rintro rfl
  obtain ⟨hsent, hsig⟩ := hk.fits.jobs.held_sent hd' hheld
  have hbusy := ApiPc.busy_of_working (ApiPc.working_of_sent hsent)
  obtain ⟨hd, hmem | ⟨n, j', ev, hbook, hch, htype'⟩⟩ := h
  · have ho := (hk.fits.settled.closures d hd _).mp hmem
    have happ := ApiThread.app_of_sent hsent (by simp [htype])
    rw [hk.fits.settled.inserting j happ htype hsig] at ho
    cases ho
  · obtain ⟨⟨hw, -, -⟩, -, -⟩ := Served.carries hk hd hbook htype'
    obtain rfl := hk.owned.uniq j' j (ApiPc.busy_of_working hw) hbusy hch
    rw [htype] at htype'
    cases htype'

/-- **Only its own sampling thread touches a channel.** -/
theorem Served.touched (h : Served s d c) (hk : Serial s r) (ht : Touched s l c) :
    ∃ now, l = .sampler d now ∧
      ((∃ seen rest, (s.descr d).pc = .sample seen (c :: rest)) ∨
        (∃ rest, (s.descr d).pc = .account (c :: rest)) ∨
        ∃ n j ev, (s.descr d).pc = .book n j ev ∧ (s.thread j).ch = c ∧
          (s.thread j).job.type ≠ .insertChannel) := by
  cases ht with
  | made t ok hl hmade =>
      obtain ⟨hd, hmem | ⟨n, j, ev, hpc, rfl, htype⟩⟩ := h
      · have ho := (hk.fits.settled.closures d hd c).mp hmem
        rw [hk.fits.settled.unmade c hmade] at ho
        cases ho
      · have hbusy := ApiPc.busy_of_working (Served.carries hk hd hpc htype).1.1
        rw [hk.fits.settled.made j hbusy] at hmade
        cases hmade
  | file t hl hpc hc => exact absurd hc (h.not_file hk hpc)
  | sample d' now seen rest hl hd hpc =>
      obtain rfl := h.owner hk (hk.looped hd (.inl ⟨seen, rest, hpc⟩))
      exact ⟨now, hl, .inl ⟨seen, rest, hpc⟩⟩
  | account d' now rest hl hd hpc =>
      obtain rfl := h.owner hk (hk.looped hd (.inr ⟨rest, hpc⟩))
      exact ⟨now, hl, .inr (.inl ⟨rest, hpc⟩)⟩
  | header d' now n j hl hd hpc htype hc =>
      exact absurd hc (h.not_insert hk hd (by rw [hpc]; rfl) htype)
  | book d' now n j ev hl hd' hpc hc =>
      have hb : (s.descr d').pc.books = some j := by rw [hpc]; rfl
      have htype : (s.thread j).job.type ≠ .insertChannel := fun htype =>
        h.not_insert hk hd' (by rw [hpc]; rfl) htype hc
      have hd : d' = d := by
        obtain ⟨hd, hmem | ⟨n', j', ev', hpc', hch, htype'⟩⟩ := h
        · have ho := (hk.fits.settled.closures d hd c).mp hmem
          rw [← hc] at ho
          exact (hk.owned.booked_owner hk.fits hd' hb ho).symm
        · obtain ⟨⟨hw, -, -⟩, hloc', -⟩ := Served.carries hk hd hpc' htype'
          have hloc := hk.fits.jobs.books_hand hd' hb
          obtain rfl := hk.owned.uniq j' j (ApiPc.busy_of_working hw)
            (hk.fits.jobs.busy (.inr hloc)) (hch.trans hc.symm)
          rw [hloc'] at hloc
          cases hloc
          rfl
      subst hd
      exact ⟨now, hl, .inr (.inr ⟨n, j, ev, hpc, hc, htype⟩)⟩

/-- Nobody else changes the job in the hands of a sampling thread. -/
theorem Jobs.held_frame (h : Jobs s r) (hs : Move s l s') (hd : d < s.nrDescr) {j : Nat}
    (hheld : (s.descr d).pc.held = some j) (hl : ∀ now, l ≠ .sampler d now) :
    (s'.thread j).ch = (s.thread j).ch ∧ (s'.thread j).job = (s.thread j).job := by
  have hloc := (h.hand d hd j).mp hheld
  obtain ⟨hsent, hsig⟩ := h.held_sent hd hheld
  have hset : ∀ {t₀ : Nat} {a : ApiThread},
      (j = t₀ → a.ch = (s.thread t₀).ch ∧ a.job = (s.thread t₀).job) →
      (Function.update s.thread t₀ a j).ch = (s.thread j).ch ∧
        (Function.update s.thread t₀ a j).job = (s.thread j).job := by
    intro t₀ a ha
    by_cases hj : j = t₀
    · subst hj
      rw [Function.update_self]
      exact ha rfl
    · rw [Function.update_of_ne hj]
      exact ⟨rfl, rfl⟩
  have hne : ∀ {d' now n j'}, l = .sampler d' now → d' < s.nrDescr →
      (s.descr d').pc.held = some j' → n = j' → j ≠ n := by
    rintro d' now n j' rfl hd' hheld' rfl rfl
    have hloc' := (h.hand d' hd' j).mp hheld'
    rw [hloc] at hloc'
    cases hloc'
    exact hl now rfl
  cases hs with
  | call hs =>
      cases hs with
      | openChannel t c ok hidle | param t c a p hidle | close t c l hc hidle
      | closeAgain t c l hc hidle =>
          refine hset fun he => ?_
          subst he
          rw [hidle] at hsent
          cases hsent
      | _ => exact ⟨rfl, rfl⟩
  | api hs =>
      cases hs with
      | opened t hpc | clear t hpc =>
          refine hset fun he => ?_
          subst he
          rw [hpc] at hsent
          cases hsent
      | openFailed | submit | routeFound | routeNew | routeLost | insertMap | returned | deleted
      | countOut | closing => exact hset fun _ => ⟨rfl, rfl⟩
  | handler => exact ⟨rfl, rfl⟩
  | loop hs | pass hs => cases hs <;> exact ⟨rfl, rfl⟩
  | take hs =>
      cases hs with
      | takeMissing d' now left j' hd' hpc =>
          exact hset fun he => absurd he (hne rfl hd' (by rw [hpc]; rfl) rfl)
      | _ => exact ⟨rfl, rfl⟩
  | book hs =>
      cases hs with
      | bookInsert d' now left j' ev hd' hpc | bookMove d' now left j' ev hd' hpc
      | bookDelete d' now left j' ev hd' hpc | bookDeleteMissing d' now left j' ev hd' hpc =>
          exact hset fun he => absurd he (hne rfl hd' (by rw [hpc]; rfl) rfl)

/-! ## skipped intervals before a channel is inserted -/

/-- The call will insert its channel into a sampling thread. -/
def WillInsert (a : ApiThread) : Prop :=
  (∃ ok, a.pc = .openFile ok) ∨
    a.pc.working = true ∧ a.job.type = .insertChannel ∧ a.job.signals = 0

/-- No skipped intervals are left over from another sampling thread. -/
def Flushed (s : Fpc) : Prop :=
  ∀ t, WillInsert (s.thread t) → (s.cl (s.thread t).ch).skippedIntervals = 0

/-- The number of skipped intervals changes in the second loop of `thr_f`, or
becomes zero. -/
theorem Move.skipped_frame (hs : Move s l s') (c : Nat) :
    (s'.cl c).skippedIntervals = (s.cl c).skippedIntervals ∨ (s'.cl c).skippedIntervals = 0 ∨
      ∃ d < s.nrDescr, ∃ rest, (s.descr d).pc = .account (c :: rest) := by
  have hset : ∀ {c₀ : Nat} {k : FPCClosure} {P : Prop},
      (c = c₀ → k.skippedIntervals = (s.cl c₀).skippedIntervals ∨ k.skippedIntervals = 0 ∨ P) →
      (Function.update s.cl c₀ k c).skippedIntervals = (s.cl c).skippedIntervals ∨
        (Function.update s.cl c₀ k c).skippedIntervals = 0 ∨ P := by
    intro c₀ k P h
    by_cases hc : c = c₀
    · subst hc
      rw [Function.update_self]
      exact h rfl
    · rw [Function.update_of_ne hc]
      exact .inl rfl
  cases hs with
  | call hs =>
      cases hs with
      | openChannel => exact hset fun _ => .inr (.inl rfl)
      | _ => exact .inl rfl
  | api hs =>
      cases hs with
      | opened | clear | closing | returned => exact hset fun _ => .inl rfl
      | _ => exact .inl rfl
  | handler => exact hset fun _ => .inl rfl
  | loop hs =>
      cases hs with
      | sample => exact hset fun _ => .inl rfl
      | account d now c₀ rest hd hpc => exact hset fun he => .inr (.inr ⟨d, hd, rest, he ▸ hpc⟩)
      | _ => exact .inl rfl
  | take hs =>
      cases hs with
      | takeMove | takeDelete => exact hset fun _ => .inl rfl
      | takeInsert d now left j =>
          refine hset fun _ => .inl ?_
          simp only [FPCClosure.exchange, FPCClosure.logHeader]
          split <;> rfl
      | _ => exact .inl rfl
  | book hs =>
      cases hs with
      | bookInsert => exact hset fun _ => .inl rfl
      | bookMove | bookDelete | bookDeleteMissing =>
          exact hset fun _ => .inr (.inl (FPCClosure.skippedIntervals_flushSkipped _))
  | pass hs => cases hs <;> exact .inl rfl

/-- A call that will insert its channel would do so before, or nothing is left
over. -/
theorem Move.willInsert_frame (hs : Move s l s') (hw : WillInsert (s'.thread t)) :
    WillInsert (s.thread t) ∧ (s'.thread t).ch = (s.thread t).ch ∨
      (s'.cl (s'.thread t).ch).skippedIntervals = 0 := by
  have hset : ∀ {t₀ : Nat} {a : ApiThread}, WillInsert (Function.update s.thread t₀ a t) →
      (t = t₀ → WillInsert a → WillInsert (s.thread t₀) ∧ a.ch = (s.thread t₀).ch) →
      WillInsert (s.thread t) ∧ (Function.update s.thread t₀ a t).ch = (s.thread t).ch := by
    intro t₀ a hw ha
    by_cases ht : t = t₀
    · subst ht
      rw [Function.update_self] at hw ⊢
      exact ha rfl hw
    · rw [Function.update_of_ne ht] at hw ⊢
      exact ⟨hw, rfl⟩
  have hsignal : ∀ {j : Nat}, WillInsert ((s.signalCompletion j).thread t) →
      WillInsert (s.thread t) ∧ ((s.signalCompletion j).thread t).ch = (s.thread t).ch := by
    intro j hw
    refine hset hw fun ht hw => ⟨?_, rfl⟩
    obtain hopen | ⟨-, -, hsig⟩ := hw
    · exact .inl hopen
    · cases hsig
  cases hs with
  | call hs =>
      cases hs with
      | openChannel t₀ c ok =>
          by_cases ht : t = t₀
          · subst ht
            exact .inr (by simp [FPCClosure.init])
          · exact .inl (hset hw fun he => absurd he ht)
      | param | close | closeAgain =>
          exact .inl (hset hw fun _ hw => by simp [WillInsert, ApiPc.working] at hw)
      | _ => exact .inl ⟨hw, rfl⟩
  | api hs =>
      cases hs with
      | opened t₀ hpc => exact .inl (hset hw fun _ _ => ⟨.inl ⟨true, hpc⟩, rfl⟩)
      | openFailed | returned | deleted | countOut | clear | closing =>
          exact .inl (hset hw fun _ hw => by simp [WillInsert, ApiPc.working] at hw)
      | submit t₀ hpc | routeFound t₀ p d hpc | routeNew t₀ p hpc | routeLost t₀ p hpc
      | insertMap t₀ p d hpc =>
          refine .inl (hset hw fun _ hw => ⟨.inr ⟨by rw [hpc]; rfl, ?_⟩, rfl⟩)
          obtain ⟨ok, hopen⟩ | ⟨-, hjob⟩ := hw
          · cases hopen
          · exact hjob
  | handler => exact .inl ⟨hw, rfl⟩
  | loop hs | pass hs => cases hs <;> exact .inl ⟨hw, rfl⟩
  | take hs =>
      cases hs with
      | takeMissing d now left j => exact .inl (hsignal hw)
      | _ => exact .inl ⟨hw, rfl⟩
  | book hs =>
      cases hs with
      | bookInsert d now left j | bookDelete d now left j | bookDeleteMissing d now left j =>
          exact .inl (hsignal hw)
      | bookMove d now left j =>
          by_cases ht : t = j
          · subst ht
            exact .inr (by simp)
          · exact .inl (hset hw fun he => absurd he ht)

/-- **Every step keeps this so.** -/
theorem Flushed.step (h : Flushed s) (hk : Serial s r) (hs : Move s l s') : Flushed s' := by
  intro t hw
  obtain ⟨hw₀, hch⟩ | hzero := hs.willInsert_frame hw
  · have hzero := h t hw₀
    rw [hch]
    obtain heq | heq | ⟨d, hd, rest, hpc⟩ := hs.skipped_frame (s.thread t).ch
    · rw [heq, hzero]
    · exact heq
    · have ho := hk.looped hd (.inr ⟨rest, hpc⟩)
      have hnone : r.owner (s.thread t).ch = none := by
        obtain ⟨ok, hopen⟩ | ⟨hwork, htype, hsig⟩ := hw₀
        · exact hk.fits.settled.opening t ok hopen
        · exact hk.fits.away ⟨t, rfl, hwork, hsig, .inl htype⟩
      rw [hnone] at ho
      cases ho
  · exact hzero

end Touches

/-! ## samples and passes -/

/-- The sample of channel `c` that sampling thread `d` takes in a step. -/
def sampleOf (s : Fpc) (d c : Nat) : Act → List (Timespec × UInt64)
  | .sampler d' now =>
      if d' = d then
        match (s.descr d).pc with
        | .sample _ (c' :: _) => if c' = c then [(now, (s.cl c).ctr)] else []
        | _ => []
      else []
  | _ => []

/-- Whether sampling thread `d` ends a pass, with the second loop of `thr_f`,
in a step. -/
def passOf (s : Fpc) (d : Nat) : Act → Nat
  | .sampler d' _ => if d' = d ∧ (s.descr d).pc = .account [] then 1 else 0
  | _ => 0

/-- The samples of channel `c` in a run, with their times. -/
def samples (d c : Nat) (tr : List (Fpc × Act)) : List (Timespec × UInt64) :=
  tr.flatMap fun p => sampleOf p.1 d c p.2

/-- The passes of sampling thread `d` in a run. -/
def passes (d : Nat) (tr : List (Fpc × Act)) : Nat := (tr.map fun p => passOf p.1 d p.2).sum

/-- Whether channel `c` has been sampled in the pass that is under way. -/
def inPass (c : Nat) : SamplerPc → Nat
  | .sample seen _ => if c ∈ seen then 1 else 0
  | .account _ => 1
  | _ => 0

@[simp] theorem samples_concat (d c : Nat) (tr : List (Fpc × Act)) (s : Fpc) (l : Act) :
    samples d c (tr ++ [(s, l)]) = samples d c tr ++ sampleOf s d c l := by
  simp [samples]

@[simp] theorem passes_concat (d : Nat) (tr : List (Fpc × Act)) (s : Fpc) (l : Act) :
    passes d (tr ++ [(s, l)]) = passes d tr + passOf s d l := by
  simp [passes]

section Window

variable {s s' : Fpc} {r : Reg} {l : Act} {d c : Nat} {tr : List (Fpc × Act)}
  {before : List FPCLine}

theorem sampleOf_other (hl : ∀ now, l ≠ .sampler d now) : sampleOf s d c l = [] := by
  cases l with
  | sampler d' now =>
      have hne : d' ≠ d := fun he => hl now (he ▸ rfl)
      simp [sampleOf, hne]
  | _ => rfl

theorem passOf_other (hl : ∀ now, l ≠ .sampler d now) : passOf s d l = 0 := by
  cases l with
  | sampler d' now =>
      have hne : d' ≠ d := fun he => hl now (he ▸ rfl)
      simp [passOf, hne]
  | _ => rfl

/-- A sampling thread has its channels until a job takes them out. -/
theorem Served.step (h : Served s d c) (hk : Serial s r) (hs : Move s l s')
    (hrem : ¬ Removes s d c l) : Served s' d c := by
  obtain ⟨hd, hserved⟩ := h
  refine ⟨Nat.lt_of_lt_of_le hd hs.nrDescr_le, ?_⟩
  by_cases hl : ∃ now, l = .sampler d now
  · obtain ⟨now, rfl⟩ := hl
    have hmem : c ∈ (s.descr d).closures := by
      obtain hmem | ⟨n, j, ev, hpc, hch, htype⟩ := hserved
      · exact hmem
      · exact absurd ⟨rfl, j, by rw [hpc]; rfl, hch, by simp [htype]⟩ hrem
    cases hs with
    | call hs =>
        cases hs with
        | close t c₀ l hc | closeAgain t c₀ l hc => cases hc
    | api hs => cases hs
    | loop hs =>
        cases hs with
        | goto | sample | account | job | keep | removed => exact .inl (by simpa using hmem)
    | take hs =>
        cases hs with
        | takeInsert | takeDelete => exact .inl (by simpa using hmem)
        | takeMissing => exact .inl (by simpa [signalCompletion] using hmem)
        | takeMove d now left j hd hpc htype =>
            by_cases hc : (s.thread j).ch = c
            · exact .inr ⟨left, j, (s.cl (s.thread j).ch).ctr, by simp, hc, htype⟩
            · exact .inl (by simpa using (List.mem_erase_of_ne (Ne.symm hc)).mpr hmem)
    | book hs =>
        cases hs with
        | bookMove => exact .inl (by simpa using hmem)
        | bookDeleteMissing => exact .inl (by simpa [signalCompletion] using hmem)
        | bookInsert d now left j ev hd hpc htype =>
            refine .inl ?_
            simp only [setDescr, Function.update_self, ThrDescriptor.insert]
            split
            · exact hmem
            · exact (List.mem_orderedInsert _).mpr (.inr hmem)
        | bookDelete d now left j ev hd hpc htype =>
            have hne : c ≠ (s.thread j).ch := fun he =>
              hrem ⟨rfl, j, by rw [hpc]; rfl, he.symm, by simp [htype]⟩
            exact .inl (by simpa [signalCompletion] using (List.mem_erase_of_ne hne).mpr hmem)
    | pass hs =>
        cases hs with
        | passOn | passFound | passSelf | passMap => exact .inl (by simpa using hmem)
        | passNew d => exact .inl (by simpa using hmem)
  · have hl' : ∀ now, l ≠ .sampler d now := fun now he => hl ⟨now, he⟩
    obtain ⟨q, hq⟩ := hs.descr_frame hd hl'
    rw [hq]
    obtain hmem | ⟨n, j, ev, hpc, hch, htype⟩ := hserved
    · exact .inl hmem
    · obtain ⟨hch', hjob'⟩ := hk.fits.jobs.held_frame hs hd (by rw [hpc]; rfl) hl'
      exact .inr ⟨n, j, ev, hpc, hch' ▸ hch, by rw [hjob', htype]⟩

/-- The position in the loops changes with the passes, and with the samples of
the channel. -/
theorem pass_frame (hk : Serial s r) (hmem : c ∈ (s.descr d).closures) {now : Timespec}
    (hs : Move s (.sampler d now) s')
    (hno : (∀ seen rest, (s.descr d).pc ≠ .sample seen (c :: rest)) ∧
      ∀ rest, (s.descr d).pc ≠ .account (c :: rest)) :
    (c ∈ (s'.descr d).pc.sampled ↔ c ∈ (s.descr d).pc.sampled) ∧
      sampleOf s d c (.sampler d now) = [] ∧
      passOf s d (.sampler d now) + inPass c (s'.descr d).pc = inPass c (s.descr d).pc := by
  cases hs with
  | call hs =>
      cases hs with
      | close t c₀ l hc | closeAgain t c₀ l hc => cases hc
  | api hs => cases hs
  | loop hs =>
      cases hs with
      | goto d now ts pc hd hgo =>
          have hw := hk.walks d hd
          cases hgo with
          | sampled seen hpc =>
              simp only [ThrDescriptor.Walks, hpc, List.append_nil] at hw
              rw [hw] at hmem ⊢
              simp [hpc, SamplerPc.sampled, sampleOf, passOf, inPass, hmem]
          | start hpc | accounted hpc | snooze hpc | noJob hpc | remove hpc | clock hpc | due hpc
          | notDue hpc => simp [hpc, SamplerPc.sampled, sampleOf, passOf, inPass]
      | sample d now seen c₀ rest hd hpc =>
          have hne : c ≠ c₀ := by
            rintro rfl
            exact hno.1 seen rest hpc
          simp [hpc, SamplerPc.sampled, sampleOf, passOf, inPass, hne, Ne.symm hne]
      | account d now c₀ rest hd hpc =>
          have hne : c ≠ c₀ := by
            rintro rfl
            exact hno.2 rest hpc
          simp [hpc, SamplerPc.sampled, sampleOf, passOf, inPass, hne]
      | job d now left j q hd hpc | keep d now fs hd hpc | removed d now d' hd hpc =>
          simp [hpc, SamplerPc.sampled, sampleOf, passOf, inPass]
  | take hs =>
      cases hs with
      | takeInsert d now left j hd hpc | takeMove d now left j hd hpc
      | takeDelete d now left j hd hpc =>
          simp [hpc, SamplerPc.sampled, sampleOf, passOf, inPass]
      | takeMissing d now left j hd hpc =>
          simp [hpc, SamplerPc.sampled, sampleOf, passOf, inPass, signalCompletion]
  | book hs =>
      cases hs with
      | bookInsert d now left j ev hd hpc | bookMove d now left j ev hd hpc
      | bookDelete d now left j ev hd hpc | bookDeleteMissing d now left j ev hd hpc =>
          simp [hpc, SamplerPc.sampled, sampleOf, passOf, inPass, signalCompletion]
  | pass hs =>
      cases hs with
      | passOn d now left j hd hpc | passSelf d now left j p hd hpc
      | passMap d now left p d' hd hpc | passNew d now left j p hd hpc
      | passFound d now left j p d' hd hpc =>
          simp [hpc, SamplerPc.sampled, sampleOf, passOf, inPass]

/-- The number of skipped intervals of channel `c` does not overflow. -/
def NoOverflow (c : Nat) (s : Fpc) : Act → Prop
  | .sampler d _ => (s.descr d).pc.accounts = some c → (s.cl c).sampledCtr = 0 →
      (s.cl c).skippedIntervals ≠ -1
  | _ => True

instance (c : Nat) : DecidableRel (NoOverflow c)
  | s, .sampler d _ => inferInstanceAs (Decidable ((s.descr d).pc.accounts = some c →
      (s.cl c).sampledCtr = 0 → (s.cl c).skippedIntervals ≠ -1))
  | _, .openChannel _ _ _ | _, .parameterizeChannel _ _ _ | _, .closeChannel _ _ | _, .api _
  | _, .handler _ => .isTrue trivial

/-- Since channel `c` was inserted into sampling thread `d`, with the lines
`before` in its log, the log has the samples that are accounted for, but for
the skipped intervals at the end. -/
structure Window (before : List FPCLine) (tr : List (Fpc × Act)) (s : Fpc) (d c : Nat) : Prop where
  served : Served s d c
  log : ∃ xs, samples d c tr = xs ++ (if c ∈ (s.descr d).pc.sampled then
        [((s.cl c).sampledTs, (s.cl c).sampledCtr)] else []) ∧
      (∃ lines, (s.cl c).base.lines = before ++ lines ∧
        lines.map FPCLine.intervals = (encode 0 xs).map some) ∧
      (s.cl c).skippedIntervals.toNat = pending 0 xs
  count : (samples d c tr).length = passes d tr + inPass c (s.descr d).pc

/-- Nothing happens to the channel. -/
theorem Window.goOn (h : Window before tr s d c) (hserved : Served s' d c)
    (hkeeps : (s.cl c).Keeps (s'.cl c))
    (hsam : c ∈ (s'.descr d).pc.sampled ↔ c ∈ (s.descr d).pc.sampled)
    (hsample : sampleOf s d c l = [])
    (hpass : passOf s d l + inPass c (s'.descr d).pc = inPass c (s.descr d).pc) :
    Window before (tr ++ [(s, l)]) s' d c where
  served := hserved
  log := by
    obtain ⟨xs, hxs, ⟨lines, hlines, hes⟩, hskip⟩ := h.log
    refine ⟨xs, ?_, ⟨lines, by rw [hkeeps.base, hlines], hes⟩, by rw [hkeeps.skipped, hskip]⟩
    rw [samples_concat, hsample, List.append_nil, hxs, hkeeps.sampledCtr, hkeeps.sampledTs]
    simp only [hsam]
  count := by
    rw [samples_concat, hsample, List.append_nil, passes_concat, h.count]
    omega

/-- The file of the channel is open. -/
theorem Served.isOpen (h : Served s d c) (hk : Serial s r) : (s.cl c).base.isOpen = true :=
  (hk.backed.lines c (h.live hk)).isOpen

/-- The channel is sampled. -/
theorem Window.sample (h : Window before tr s d c) (hk : Serial s r) {now : Timespec}
    {seen rest : List Nat} (hd : d < s.nrDescr) (hpc : (s.descr d).pc = .sample seen (c :: rest)) :
    Window before (tr ++ [(s, .sampler d now)]) ((s.setCl c ((s.cl c).sample now)).setDescr d
      { s.descr d with pc := .sample (seen ++ [c]) rest }) d c := by
  have hmem : c ∈ (s.descr d).closures :=
    (hk.fits.settled.closures d hd c).mpr (hk.looped hd (.inl ⟨seen, rest, hpc⟩))
  have hseen : c ∉ seen := by
    have hw := hk.walks d hd
    simp only [ThrDescriptor.Walks, hpc] at hw
    have hnodup := hk.fits.settled.nodup d hd
    rw [hw] at hnodup
    exact fun hc => (List.nodup_append.mp hnodup).2.2 c hc c List.mem_cons_self rfl
  have hsample : sampleOf s d c (.sampler d now) = [(now, (s.cl c).ctr)] := by
    simp [sampleOf, hpc]
  have hpass : passOf s d (.sampler d now) = 0 := by simp [passOf, hpc]
  obtain ⟨xs, hxs, ⟨lines, hlines, hes⟩, hskip⟩ := h.log
  rw [hpc, SamplerPc.sampled, if_neg hseen, List.append_nil] at hxs
  have hcount := h.count
  rw [hpc, inPass, if_neg hseen] at hcount
  refine ⟨⟨hd, .inl (by simpa using hmem)⟩, ⟨xs, ?_, ⟨lines, ?_, hes⟩, ?_⟩, ?_⟩
  · rw [samples_concat, hsample, hxs]
    simp [SamplerPc.sampled, FPCClosure.sample]
  · simpa [FPCClosure.sample, FPCClosure.exchange] using hlines
  · simpa [FPCClosure.sample, FPCClosure.exchange] using hskip
  · rw [samples_concat, passes_concat, hsample, hpass, List.length_append, hcount]
    simp [inPass]

/-- The sample of the channel is accounted for. -/
theorem Window.account (h : Window before tr s d c) (hk : Serial s r) {now : Timespec}
    (hok : NoOverflow c s (.sampler d now)) {rest : List Nat} (hd : d < s.nrDescr)
    (hpc : (s.descr d).pc = .account (c :: rest)) :
    Window before (tr ++ [(s, .sampler d now)]) ((s.setCl c (s.cl c).account).setDescr d
      { s.descr d with pc := .account rest }) d c := by
  have hmem : c ∈ (s.descr d).closures :=
    (hk.fits.settled.closures d hd c).mpr (hk.looped hd (.inr ⟨rest, hpc⟩))
  have hrest : c ∉ rest := by
    have hw := hk.walks d hd
    simp only [ThrDescriptor.Walks, hpc] at hw
    have hnodup := (hk.fits.settled.nodup d hd).sublist hw.sublist
    exact (List.nodup_cons.mp hnodup).1
  have hsample : sampleOf s d c (.sampler d now) = [] := by simp [sampleOf, hpc]
  have hpass : passOf s d (.sampler d now) = 0 := by simp [passOf, hpc]
  obtain ⟨xs, hxs, ⟨lines, hlines, hes⟩, hskip⟩ := h.log
  rw [hpc, SamplerPc.sampled, if_pos List.mem_cons_self] at hxs
  have hcount := h.count
  rw [hpc, inPass] at hcount
  refine ⟨⟨hd, .inl (by simpa using hmem)⟩,
    ⟨xs ++ [((s.cl c).sampledTs, (s.cl c).sampledCtr)], ?_, ?_, ?_⟩, ?_⟩
  · rw [samples_concat, hsample, hxs]
    simp [SamplerPc.sampled, hrest]
  · simp only [setDescr, setCl, Function.update_self]
    rw [encode_concat]
    by_cases hzero : (s.cl c).sampledCtr = 0
    · exact ⟨lines, by rw [(FPCClosure.account_zero hzero).1, hlines],
        by rw [if_pos hzero, List.append_nil, hes]⟩
    · refine ⟨lines ++ (s.cl c).skippedLines ++
        [.ctr (s.cl c).sampledTs (s.cl c).sampledCtr], ?_, ?_⟩
      · rw [(FPCClosure.account_events hzero (h.served.isOpen hk)).1, hlines]
        simp
      · rw [if_neg hzero, ← hskip]
        simp [hes, FPCClosure.intervals_skippedLines, FPCLine.intervals]
  · simp only [setDescr, setCl, Function.update_self]
    rw [pending_concat]
    by_cases hzero : (s.cl c).sampledCtr = 0
    · have hne : (s.cl c).skippedIntervals.toNat ≠ (-1 : UInt64).toNat := fun he =>
        hok (by rw [hpc]; rfl) hzero (UInt64.toNat_inj.mp he)
      have hmax : (-1 : UInt64).toNat = 2 ^ 64 - 1 := rfl
      have hlt := UInt64.toNat_lt (s.cl c).skippedIntervals
      rw [(FPCClosure.account_zero hzero).2, if_pos hzero, ← hskip, UInt64.toNat_add]
      exact Nat.mod_eq_of_lt (show (s.cl c).skippedIntervals.toNat + 1 < 2 ^ 64 by omega)
    · rw [(FPCClosure.account_events hzero (h.served.isOpen hk)).2, if_neg hzero]
      rfl
  · rw [samples_concat, passes_concat, hsample, hpass, List.append_nil, hcount]
    simp [inPass]

/-- **Every step keeps the log in agreement with the samples**, until the
channel is taken out. -/
theorem Window.step (h : Window before tr s d c) (hk : Serial s r) (hok : NoOverflow c s l)
    (hrem : ¬ Removes s d c l) (hs : s.step l = some s') :
    Window before (tr ++ [(s, l)]) s' d c := by
  have hm := step_move hs
  have hserved := h.served.step hk hm hrem
  by_cases hl : ∃ now, l = .sampler d now
  · obtain ⟨now, rfl⟩ := hl
    have hd := h.served.1
    have hmem : c ∈ (s.descr d).closures := by
      obtain hmem | ⟨n, j, ev, hpc, hch, htype⟩ := h.served.2
      · exact hmem
      · exact absurd ⟨rfl, j, by rw [hpc]; rfl, hch, by simp [htype]⟩ hrem
    by_cases hsample : ∃ seen rest, (s.descr d).pc = .sample seen (c :: rest)
    · obtain ⟨seen, rest, hpc⟩ := hsample
      simp only [Fpc.step, if_pos hd, sampler, hpc, Option.some.injEq] at hs
      subst hs
      exact h.sample hk hd hpc
    · by_cases haccount : ∃ rest, (s.descr d).pc = .account (c :: rest)
      · obtain ⟨rest, hpc⟩ := haccount
        simp only [Fpc.step, if_pos hd, sampler, hpc, Option.some.injEq] at hs
        subst hs
        exact h.account hk hok hd hpc
      · have hkeeps : (s.cl c).Keeps (s'.cl c) := (hm.touched c).resolve_right fun ht => by
          obtain ⟨-, -, hpc | hpc | ⟨n, j, ev, hpc, hch, htype⟩⟩ := h.served.touched hk ht
          · exact hsample hpc
          · exact haccount hpc
          · exact hrem ⟨rfl, j, by rw [hpc]; rfl, hch, htype⟩
        obtain ⟨hsam, hnone, hpass⟩ := pass_frame hk hmem hm
          ⟨fun seen rest hpc => hsample ⟨seen, rest, hpc⟩, fun rest hpc => haccount ⟨rest, hpc⟩⟩
        exact h.goOn hserved hkeeps hsam hnone hpass
  · have hl' : ∀ now, l ≠ .sampler d now := fun now he => hl ⟨now, he⟩
    have hkeeps : (s.cl c).Keeps (s'.cl c) := (hm.touched c).resolve_right fun ht => by
      obtain ⟨now, he, -⟩ := h.served.touched hk ht
      exact hl' now he
    have hpc := hm.sampler_pc_eq h.served.1 hl'
    exact h.goOn hserved hkeeps (by rw [hpc]) (sampleOf_other hl')
      (by rw [passOf_other hl', hpc, Nat.zero_add])

end Window

/-! ## runs -/

/-- The step completes an INSERT_CHANNEL job that puts channel `c` into
sampling thread `d`. -/
def Inserts (s : Fpc) (d c : Nat) : Act → Prop
  | .sampler d' _ => d' = d ∧ ∃ j ∈ (s.descr d).pc.books, (s.thread j).ch = c ∧
      (s.thread j).job.type = .insertChannel
  | _ => False

instance (s : Fpc) (d c : Nat) : DecidablePred (Inserts s d c)
  | .sampler d' _ => inferInstanceAs (Decidable (d' = d ∧ ∃ j ∈ (s.descr d).pc.books,
      (s.thread j).ch = c ∧ (s.thread j).job.type = .insertChannel))
  | .openChannel _ _ _ | .parameterizeChannel _ _ _ | .closeChannel _ _ | .api _ | .handler _ =>
      .isFalse id

/-- What the job that takes a channel out writes after the skipped
intervals. -/
inductive Truncates : List FPCLine → Prop
  | moved (now : Timespec) (ev : UInt64) :
      Truncates [.ctr now ev, .truncated, .msg "timer reprogrammed"]
  | deleted (now : Timespec) (ev total : UInt64) :
      Truncates [.ctr now ev, .truncated, .msg "timer shut down", .total total]

section Runs

variable {s s' : Fpc} {r : Reg} {l : Act} {d c n j : Nat} {ev : UInt64} {now : Timespec}
  {tr : List (Fpc × Act)} {before : List FPCLine}

theorem reach_serial (h : Reach step init OneCall s) : ∃ r, Serial s r := by
  obtain ⟨r, e, hr, ho, hf, hb⟩ := reach_backed h
  exact ⟨r, hr, ho, hb, hf.walks⟩

theorem reach_flushed (h : Reach step init OneCall s) : Flushed s :=
  h.invariant_of (J := fun s => ∃ r, Serial s r) (fun _ => reach_serial) (fun _ _ => rfl)
    fun _ _ _ ⟨_, hk⟩ hf _ hs => hf.step hk (step_move hs)

/-- The step of a sampling thread that completes an INSERT_CHANNEL job. -/
theorem step_bookInsert (hpc : (s.descr d).pc = .book n j ev)
    (htype : (s.thread j).job.type = .insertChannel) (hs : step s (.sampler d now) = some s') :
    d < s.nrDescr ∧ s' = ((s.setCl (s.thread j).ch
      ((s.cl (s.thread j).ch).bookInsert now ev)).signalCompletion j).setDescr d
        { (s.descr d).insert (s.thread j).ch with pc := .jobs n } := by
  simp only [step] at hs
  split at hs
  · next hd =>
    simp only [sampler, hpc, Option.some.injEq] at hs
    subst hs
    exact ⟨hd, by simp [bookJob, htype, signalCompletion, Function.update_idem]⟩
  · contradiction

/-- The step that takes a channel out to move it. -/
theorem step_bookMove (hpc : (s.descr d).pc = .book n j ev)
    (htype : (s.thread j).job.type = .moveChannel) (hs : step s (.sampler d now) = some s') :
    s'.cl (s.thread j).ch =
      (s.cl (s.thread j).ch).bookMove now ev (s.thread j).job.curPeriodicIncNs := by
  simp only [step] at hs
  split at hs
  · simp only [sampler, hpc, Option.some.injEq] at hs
    subst hs
    simp [bookJob, htype]
  · contradiction

/-- A channel that has just been inserted has no samples. -/
theorem Inserts.window (hins : Inserts s d c l) (hk : Serial s r) (hf : Flushed s)
    (hs : s.step l = some s') : Window (s'.cl c).base.lines [] s' d c := by
  cases l with
  | sampler d' now =>
      obtain ⟨rfl, j, hj, rfl, htype⟩ := hins
      obtain ⟨n, ev, hpc⟩ := SamplerPc.eq_book hj
      obtain ⟨hd, rfl⟩ := step_bookInsert hpc htype hs
      have hheld : (s.descr d').pc.held = some j := by rw [hpc]; rfl
      obtain ⟨hsent, hsig⟩ := hk.fits.jobs.held_sent hd hheld
      have hzero : (s.cl (s.thread j).ch).skippedIntervals = 0 :=
        hf j (.inr ⟨ApiPc.working_of_sent hsent, htype, hsig⟩)
      have hmem : (s.thread j).ch ∈ ((s.descr d').insert (s.thread j).ch).closures := by
        simp only [ThrDescriptor.insert]
        split
        · next hc => exact hc
        · exact (List.mem_orderedInsert _).mpr (.inl rfl)
      refine ⟨⟨hd, .inl (by simpa using hmem)⟩, ⟨[], ?_, ⟨[], ?_, rfl⟩, ?_⟩, ?_⟩
      · simp [samples, SamplerPc.sampled]
      · exact (List.append_nil _).symm
      · simpa [signalCompletion, FPCClosure.bookInsert, FPCClosure.printCtrStart, FPCClosure.put,
          pending] using congrArg UInt64.toNat hzero
      · simp [samples, passes, inPass]
  | _ => cases hins

/-- **Every run keeps the log in agreement with the samples**, until the
channel is taken out. -/
theorem Window.of_trace (hw : Window before [] s d c) (h : Reach Fpc.step init OneCall s)
    (htr : Trace Fpc.step s (fun s l => OneCall s l ∧ NoOverflow c s l) tr s')
    (hno : ∀ p ∈ tr, ¬ Removes p.1 d c p.2) : Window before tr s' d c := by
  induction htr with
  | init => exact hw
  | step htr hok hs ih =>
      obtain ⟨r, hk⟩ := reach_serial (h.trans (htr.reach.mono fun _ _ hok => hok.1))
      exact (ih fun p hp => hno p (List.mem_append_left _ hp)).step hk hok.2
        (hno _ (List.mem_append_right _ (List.mem_singleton_self _))) hs

/-- The job that takes the channel out writes the skipped intervals. -/
theorem Window.finish (h : Window before tr s d c) (hk : Serial s r) (hrem : Removes s d c l)
    (hs : s.step l = some s') : ∃ lines fin, (s'.cl c).base.lines = before ++ lines ++ fin ∧
      Truncates fin ∧ lines.map FPCLine.intervals =
        (encode 0 (samples d c tr) ++ run (pending 0 (samples d c tr))).map some ∧
      (samples d c tr).length = passes d tr := by
  have hopen := h.served.isOpen hk
  obtain ⟨xs, hxs, ⟨lines, hlines, hes⟩, hskip⟩ := h.log
  have hcount := h.count
  cases l with
  | sampler d' now =>
      obtain ⟨rfl, j, hj, rfl, htype⟩ := hrem
      obtain ⟨n, ev, hpc⟩ := SamplerPc.eq_book hj
      simp only [hpc, SamplerPc.sampled, List.not_mem_nil, if_false, List.append_nil] at hxs
      simp only [hpc, inPass, Nat.add_zero] at hcount
      have hes' : (lines ++ (s.cl (s.thread j).ch).skippedLines).map FPCLine.intervals =
          (encode 0 xs ++ run (pending 0 xs)).map some := by
        simp [hes, FPCClosure.intervals_skippedLines, hskip]
      rw [hxs]
      rw [hxs] at hcount
      cases hjob : (s.thread j).job.type with
      | insertChannel => exact absurd hjob htype
      | moveChannel =>
          have hcl := step_bookMove hpc hjob hs
          refine ⟨_, _, ?_, .moved now ev, hes', hcount⟩
          rw [hcl, FPCClosure.lines_bookMove hopen, hlines]
          simp
      | deleteChannel =>
          have hcl := (step_bookDelete hpc hjob hs).2
          refine ⟨_, _, ?_, .deleted now ev ((s.cl (s.thread j).ch).totalCtr + ev), hes', hcount⟩
          rw [hcl, FPCClosure.lines_bookDelete hopen, hlines]
          simp
  | _ => cases hrem

end Runs

/-- **The log accounts for every interval**, when the calls on a channel do
not overlap and fewer than 2⁶⁴ intervals are skipped in a row.  From the job
that puts channel `c` into sampling thread `d` to the one that takes it out,
each pass of the thread takes a sample of the channel.  Up to the lines of the
latter job the log has a data line for each sample with events, after the
number of those without: together they stand for as many intervals as there
were passes, and determine the number of events of each. -/
theorem interval_accounting {s₀ s₁ s₂ s₃ : Fpc} {l₀ l₃ : Act} {d c : Nat} {tr : List (Fpc × Act)}
    (h : Reach step init OneCall s₀) (hins : Inserts s₀ d c l₀) (hs₁ : step s₀ l₀ = some s₁)
    (htr : Trace step s₁ (fun s l => OneCall s l ∧ NoOverflow c s l) tr s₂)
    (hno : ∀ p ∈ tr, ¬ Removes p.1 d c p.2) (hrem : Removes s₂ d c l₃)
    (hs₃ : step s₂ l₃ = some s₃) :
    ∃ lines fin es, (s₃.cl c).base.lines = (s₁.cl c).base.lines ++ lines ++ fin ∧
      Truncates fin ∧ lines.map FPCLine.intervals = es.map some ∧
      es = encode 0 (samples d c tr) ++ run (pending 0 (samples d c tr)) ∧
      (es.map Entry.weight).sum = passes d tr ∧ decode es = (samples d c tr).map Prod.snd ∧
      ∀ tr', tr' <+: tr → passes d tr' ≤ (samples d c tr').length ∧
        (samples d c tr').length ≤ passes d tr' + 1 := by
  obtain ⟨r₀, hk₀⟩ := reach_serial h
  have hok : OneCall s₀ l₀ := by
    cases l₀ with
    | sampler d' now => trivial
    | _ => cases hins
  have h₁ : Reach step init OneCall s₁ := .step h hok hs₁
  have hstart := hins.window hk₀ (reach_flushed h) hs₁
  obtain ⟨r₂, hk₂⟩ := reach_serial (h₁.trans (htr.reach.mono fun _ _ hok => hok.1))
  obtain ⟨lines, fin, hlines, hfin, hes, hcount⟩ :=
    (hstart.of_trace h₁ htr hno).finish hk₂ hrem hs₃
  have hdecode : decode (encode 0 (samples d c tr) ++ run (pending 0 (samples d c tr))) =
      (samples d c tr).map Prod.snd := by
    simpa using decode_encode 0 (samples d c tr)
  refine ⟨lines, fin, _, hlines, hfin, hes, rfl, ?_, hdecode, fun tr' hp => ?_⟩
  · rw [← length_decode, hdecode, List.length_map, hcount]
  · obtain ⟨s', htr'⟩ := htr.of_prefix hp
    have hw := hstart.of_trace h₁ htr' fun p hmem => hno p (hp.subset hmem)
    have hin : inPass c (s'.descr d).pc ≤ 1 := by
      unfold inPass
      repeat' split
      all_goals omega
    have hcount := hw.count
    omega

/-! ## runs of few threads -/

/-- Guards that agree while all but the first `n` threads are in no call. -/
theorem trace_idle {ok ok' : Fpc → Act → Prop} {n : Nat} {s s' : Fpc} {tr : List (Fpc × Act)}
    (hthread : ∀ s l, ok s l → ∀ t, l.thread = some t → t < n)
    (hok : ∀ s l, ok s l → (∀ t, n ≤ t → (s.thread t).pc = .idle) → ok' s l)
    (h : Reach step init ok s) (htr : Trace step s ok tr s') : Trace step s ok' tr s' :=
  htr.mono_of fun s l hr hl => hok s l hl fun _ ht => reach_idle hthread (h.trans hr) ht

/-- A run on fixed labels, from the job that inserts a channel to the one that
takes it out. -/
theorem exec_interval (ok : Fpc → Act → Prop) [DecidableRel ok] (d c : Nat) (ls₀ ls : List Act)
    (Q : Fpc → List (Fpc × Act) → Fpc → Bool)
    (h : (exec step ok init ls₀).any (fun s₀ =>
      decide (Inserts s₀ d c (.sampler d .zero) ∧ ok s₀ (.sampler d .zero)) &&
        (step s₀ (.sampler d .zero)).any fun s₁ => (exec step ok s₁ ls).any fun s₂ =>
          decide (Removes s₂ d c (.sampler d .zero) ∧
            ∀ p ∈ history step s₁ ls, ¬ Removes p.1 d c p.2) &&
          (step s₂ (.sampler d .zero)).any fun s₃ => Q s₁ (history step s₁ ls) s₃) = true) :
    ∃ s₀ s₁ tr s₂ s₃, Reach step init ok s₀ ∧ Inserts s₀ d c (.sampler d .zero) ∧
      ok s₀ (.sampler d .zero) ∧ step s₀ (.sampler d .zero) = some s₁ ∧ Trace step s₁ ok tr s₂ ∧
      (∀ p ∈ tr, ¬ Removes p.1 d c p.2) ∧ Removes s₂ d c (.sampler d .zero) ∧
      step s₂ (.sampler d .zero) = some s₃ ∧ Q s₁ tr s₃ = true := by
  obtain ⟨s₀, hr, h⟩ := Reach.of_exec_any ls₀ _ h
  obtain ⟨hins, h⟩ := Bool.and_eq_true_iff.mp h
  obtain ⟨hins, hok⟩ := of_decide_eq_true hins
  obtain ⟨s₁, hs₁, h⟩ := (Option.any_eq_true ..).mp h
  obtain ⟨s₂, hs₂, h⟩ := (Option.any_eq_true ..).mp h
  obtain ⟨hrem, h⟩ := Bool.and_eq_true_iff.mp h
  obtain ⟨hrem, hno⟩ := of_decide_eq_true hrem
  obtain ⟨s₃, hs₃, hQ⟩ := (Option.any_eq_true ..).mp h
  exact ⟨s₀, s₁, _, s₂, s₃, hr, hins, hok, hs₁, Trace.init.exec hs₂, by simpa using hno, hrem, hs₃,
    by simpa using hQ⟩

/-- Channel 0 is opened, and about to be inserted. -/
def insertingRun : List Act :=
  [Act.openChannel 0 0 true] ++ List.replicate 4 (Act.api 0) ++
  List.replicate 6 (Act.sampler 0 .zero)

/-- One pass with an event and one without; then thread 0 gives the channel
another period. -/
def passingRun : List Act :=
  [Act.api 0, Act.handler 0] ++ List.replicate 2 (Act.sampler 0 .zero) ++
  List.replicate 16 (Act.sampler 0 { Timespec.zero with tvSec := 1 }) ++
  [Act.parameterizeChannel 0 0 ⟨0, 5, fun _ => 0⟩, Act.api 0, Act.api 0] ++
  List.replicate 4 (Act.sampler 0 .zero)

/-- The log has a line for each of the two passes. -/
theorem interval_accounting_twice : ∃ s₁ tr s₂ s₃ lines fin, Reach step init OneCall s₁ ∧
    Trace step s₁ OneCall tr s₂ ∧ step s₂ (.sampler 0 .zero) = some s₃ ∧ passes 0 tr = 2 ∧
    (s₃.cl 0).base.lines = (s₁.cl 0).base.lines ++ lines ++ fin ∧ Truncates fin ∧
    lines.map FPCLine.intervals =
      [some (.value { Timespec.zero with tvSec := 1 } 1), some (.zeros 1)] := by
  obtain ⟨s₀, s₁, tr, s₂, s₃, hr, hins, hok, hs₁, htr, hno, hrem, hs₃, hQ⟩ :=
    exec_interval (fun s l => OneCallOf 1 s l ∧ NoOverflow 0 s l) 0 0 insertingRun passingRun
      (fun _ tr _ => decide (passes 0 tr = 2 ∧ samples 0 0 tr =
        [({ Timespec.zero with tvSec := 1 }, 1), ({ Timespec.zero with tvSec := 1 }, 0)]))
      (by decide +kernel)
  obtain ⟨hpasses, hsamples⟩ := of_decide_eq_true hQ
  have hr₀ : Reach step init OneCall s₀ := (reach_oneCallOf hr).mono fun _ _ hok => hok.1
  have htr' : Trace step s₁ (fun s l => OneCall s l ∧ NoOverflow 0 s l) tr s₂ :=
    trace_idle (fun _ _ hl => hl.1.1) (fun _ _ hl hidle => ⟨hl.1.oneCall hidle, hl.2⟩)
      (.step hr hok hs₁) htr
  obtain ⟨lines, fin, es, hlines, hfin, hes, he, -⟩ :=
    interval_accounting hr₀ hins hs₁ htr' hno hrem hs₃
  have hr₁ : Reach step init OneCall s₁ := .step hr₀ (hok.1.oneCall fun _ ht =>
    reach_idle (fun _ _ hl => hl.1.1) hr ht) hs₁
  refine ⟨s₁, tr, s₂, s₃, lines, fin, hr₁, htr'.mono_of fun _ _ _ hok => hok.1, hs₃, hpasses,
    hlines, hfin, ?_⟩
  rw [hes, he, hsamples]
  rfl

/-- Thread 1 closes channel 0 after it has read the old period; thread 0 gives
the channel a new period, whose sampling thread is about to insert it. -/
def overtakenRun : List Act :=
  [Act.openChannel 0 0 true] ++ List.replicate 4 (Act.api 0) ++
  List.replicate 7 (Act.sampler 0 .zero) ++ [Act.api 0] ++
  [Act.parameterizeChannel 0 0 ⟨0, 5, fun _ => 0⟩, Act.api 0, Act.api 0] ++
  [Act.closeChannel 1 0] ++ List.replicate 3 (Act.api 1) ++
  List.replicate 11 (Act.sampler 0 .zero) ++ List.replicate 6 (Act.sampler 1 .zero)

/-- The old sampling thread completes the DELETE_CHANNEL job, and the file is
closed.  The new one takes two samples before thread 0 has the channel moved
on. -/
def unloggedRun : List Act :=
  [Act.api 0, Act.api 1, Act.parameterizeChannel 0 0 ⟨0, 7, fun _ => 0⟩] ++
  List.replicate 8 (Act.sampler 0 .zero) ++ List.replicate 2 (Act.api 1) ++
  List.replicate 2 (Act.sampler 1 .zero) ++
  List.replicate 16 (Act.sampler 1 { Timespec.zero with tvSec := 1 }) ++
  [Act.api 0, Act.api 0] ++ List.replicate 4 (Act.sampler 1 .zero)

/-- **Intervals are lost**: there are two passes, and the log has nothing but
what the other sampling thread wrote. -/
theorem intervals_lost : ∃ s₀ s₁ tr s₂ s₃, Reach step init OneApp s₀ ∧
    Inserts s₀ 1 0 (.sampler 1 .zero) ∧ step s₀ (.sampler 1 .zero) = some s₁ ∧
    Trace step s₁ OneApp tr s₂ ∧ (∀ p ∈ tr, ¬ Removes p.1 1 0 p.2) ∧
    Removes s₂ 1 0 (.sampler 1 .zero) ∧ step s₂ (.sampler 1 .zero) = some s₃ ∧ passes 1 tr = 2 ∧
    (s₃.cl 0).base.lines = (s₁.cl 0).base.lines ++
      [.ctr .zero 0, .truncated, .msg "timer shut down", .total 0] := by
  obtain ⟨s₀, s₁, tr, s₂, s₃, hr, hins, hok, hs₁, htr, hno, hrem, hs₃, hQ⟩ :=
    exec_interval (fun s l => OneAppOf 2 s l ∧ anyStep s l) 1 0 overtakenRun unloggedRun
      (fun s₁ tr s₃ => decide (passes 1 tr = 2 ∧ (s₃.cl 0).base.lines = (s₁.cl 0).base.lines ++
        [.ctr .zero 0, .truncated, .msg "timer shut down", .total 0])) (by decide +kernel)
  obtain ⟨hpasses, hlines⟩ := of_decide_eq_true hQ
  have htr' : Trace step s₁ OneApp tr s₂ := trace_idle (fun _ _ hl => hl.1.1)
    (fun _ _ hl hidle => hl.1.oneApp hidle) (.step hr hok hs₁) htr
  exact ⟨s₀, s₁, tr, s₂, s₃, (reach_oneApp hr).mono fun _ _ hok => hok.1, hins, hs₁, htr', hno,
    hrem, hs₃, hpasses, hlines⟩

end Fpc

end CloudProfiler
