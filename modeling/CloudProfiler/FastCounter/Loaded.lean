import CloudProfiler.FastCounter.Fits

/-!
# CloudProfiler.FastCounter.Loaded

From the handler calls to the number of tuples that `cntTuplesFromFiles` finds
in the files.

A channel that is open at some point of a run, with so many calls, keeps them:
when its DELETE_CHANNEL job takes the counter there were at least as many
(`booked`), and from when the job is completed the log ends with the total and
does not change any more (`filed`).

* `Kept` — the invariant of such a channel, `Kept.step` — every move keeps it;
* `files_loaded` — what the tool finds in the files of closed channels.
-/

namespace CloudProfiler

/-- The log ends with the total, which is the sum of its lines and the number
of calls before the DELETE_CHANNEL job took the counter. -/
structure Totalled (cl : FPCClosure) : Prop where
  counted : cl.base.counted = UInt64.ofNat cl.callsAtDelete
  total : cl.totalCtr = UInt64.ofNat cl.callsAtDelete
  last : cl.base.lines.getLast? = some (.total (UInt64.ofNat cl.callsAtDelete))

/-- Nothing changes that `Totalled` or `Live` is about. -/
structure Silent (cl k : FPCClosure) : Prop where
  lines : k.base.lines = cl.base.lines
  totalCtr : k.totalCtr = cl.totalCtr
  callsAtDelete : k.callsAtDelete = cl.callsAtDelete
  isRefCounted : k.isRefCounted = cl.isRefCounted

theorem Totalled.of_silent {cl k : FPCClosure} (h : Totalled cl) (hk : Silent cl k) :
    Totalled k where
  counted := by rw [Base.counted, hk.lines, hk.callsAtDelete]; exact h.counted
  total := by rw [hk.totalCtr, hk.callsAtDelete]; exact h.total
  last := by rw [hk.lines, hk.callsAtDelete]; exact h.last

theorem toNat_ofNat_callsAtDelete {cl : FPCClosure} (h : Fits64 cl) (hcalls : cl.calls < 2 ^ 64) :
    (UInt64.ofNat cl.callsAtDelete).toNat = cl.callsAtDelete := by
  rw [UInt64.toNat_ofNat', Nat.mod_eq_of_lt (h.atDelete.trans_lt hcalls)]

/-- The lines of a complete log, added up without a limit of 64 bits. -/
theorem Totalled.events {cl : FPCClosure} (h : Totalled cl) (hfits : Fits64 cl)
    (hcalls : cl.calls < 2 ^ 64) : events cl.base.lines = cl.callsAtDelete := by
  have hle := hfits.logged hcalls
  have hsum := congrArg UInt64.toNat h.counted
  have hdelete := toNat_ofNat_callsAtDelete hfits hcalls
  rw [Base.counted, Fpc.toNat_sum_count, hdelete] at hsum
  rw [h.total, hdelete] at hle
  rwa [Nat.mod_eq_of_lt (hle.trans_lt (hfits.atDelete.trans_lt hcalls))] at hsum

/-- Calls are added, and a DELETE_CHANNEL job that takes the counter takes
them all. -/
theorem ChannelStep.calls {x : UInt64} {cl k : FPCClosure} (h : ChannelStep x cl k)
    (hmade : cl.made = true) : k.made = true ∧ cl.calls ≤ k.calls ∧
      (k.callsAtDelete = cl.callsAtDelete ∨ k.callsAtDelete = k.calls) := by
  cases h with
  | made hnot =>
      rw [hmade] at hnot
      cases hnot
  | handler => exact ⟨hmade, Nat.le_succ _, .inl rfl⟩
  | same | opened | shut | handed | closed | sample now | takeMove | bookInsert now =>
      exact ⟨hmade, le_rfl, .inl rfl⟩
  | takeDelete => exact ⟨hmade, le_rfl, .inr rfl⟩
  | account =>
      have hk := cl.books_account
      exact ⟨hk.made.trans hmade, hk.calls.ge, .inl hk.callsAtDelete⟩
  | takeInsert =>
      have hk := cl.books_logHeader
      exact ⟨hk.made.trans hmade, hk.calls.ge, .inl hk.callsAtDelete⟩
  | bookMove now period =>
      have hk := cl.books_bookMove now x period
      exact ⟨hk.made.trans hmade, hk.calls.ge, .inl hk.callsAtDelete⟩
  | bookDelete now =>
      have hk := cl.books_bookDelete now x
      exact ⟨hk.made.trans hmade, hk.calls.ge, .inl hk.callsAtDelete⟩

namespace Fpc

/-- The log of the channel is being written, or it is complete and holds `n`
calls. -/
def Filed (n c : Nat) (s : Fpc) : Prop :=
  s.Live c ∨ Totalled (s.cl c) ∧ n ≤ (s.cl c).callsAtDelete

/-- A channel with `n` calls keeps them. -/
structure Keeps (n c : Nat) (s : Fpc) : Prop where
  made : (s.cl c).made = true
  calls : n ≤ (s.cl c).calls
  booked : ∀ d < s.nrDescr, ∀ j, (s.descr d).pc.books = some j →
    (s.thread j).job.type = .deleteChannel → (s.thread j).ch = c → n ≤ (s.cl c).callsAtDelete
  filed : Filed n c s

/-! ## moves -/

section Moves

variable {s s' : Fpc} {r : Reg} {n c d t : Nat}

theorem Keeps.congr (h : Keeps n c s) (hd : s'.descr = s.descr) (hn : s'.nrDescr = s.nrDescr)
    (ht : s'.thread = s.thread) (hcl : s'.cl = s.cl) : Keeps n c s' := by
  constructor
  · rw [hcl]; exact h.made
  · rw [hcl]; exact h.calls
  · rw [hn, hd, ht, hcl]; exact h.booked
  · simp only [Filed, Live, ht, hcl]; exact h.filed

/-- A thread goes on. -/
theorem Keeps.thread (h : Keeps n c s) {a : ApiThread}
    (hdel : (s.thread t).deletes → (s.thread t).ch = c →
      a.deletes ∧ a.ch = c ∨ Totalled (s.cl c) ∧ n ≤ (s.cl c).callsAtDelete)
    (hbook : ∀ d < s.nrDescr, (s.descr d).pc.books = some t → a.ch = (s.thread t).ch ∧
      (a.job.type = .deleteChannel → (s.thread t).job.type = .deleteChannel)) :
    Keeps n c (s.setThread t a) where
  made := h.made
  calls := h.calls
  booked d hd j hb := by
    by_cases hj : j = t
    · subst hj
      obtain ⟨hch, htype⟩ := hbook d hd hb
      simpa [hch] using fun hdel => h.booked d hd j hb (htype hdel)
    · simpa [hj] using h.booked d hd j hb
  filed := by
    obtain (href | ⟨t', hch, hdel'⟩) | htotal := h.filed
    · exact .inl (.inl href)
    · by_cases ht : t' = t
      · subst ht
        obtain ⟨ha, hac⟩ | htotal := hdel hdel' hch
        · exact .inl (.inr ⟨t', by simpa using hac, by simpa using ha⟩)
        · exact .inr htotal
      · exact .inl (.inr ⟨t', by simpa [ht] using hch, by simpa [ht] using hdel'⟩)
    · exact .inr htotal

/-- A thread that has no job begins or ends a call. -/
theorem Keeps.call (h : Keeps n c s) (hj : Jobs s r) {a : ApiThread}
    (hpc : (s.thread t).pc.working = false) : Keeps n c (s.setThread t a) := by
  have hsent : (s.thread t).pc.sent = false :=
    Bool.eq_false_iff.mpr fun h => by simp [ApiPc.working_of_sent h] at hpc
  refine h.thread (fun hdel => ?_) fun d hd hb => absurd hb (hj.not_books hsent hd)
  have hw := hdel.1
  rw [hpc] at hw
  cases hw

/-- A thread goes on in the same call. -/
theorem Keeps.goOn (h : Keeps n c s) {q : ApiPc}
    (hw : (s.thread t).deletes → q.working = true) :
    Keeps n c (s.setThread t { s.thread t with pc := q }) :=
  h.thread (fun hdel hch => .inl ⟨⟨hw hdel, hdel.2⟩, hch⟩) fun _ _ _ => ⟨rfl, id⟩

/-- A job is completed. -/
theorem Keeps.signal (h : Keeps n c s)
    (hdel : (s.thread t).job.type = .deleteChannel → (s.thread t).ch = c →
      Totalled (s.cl c) ∧ n ≤ (s.cl c).callsAtDelete) : Keeps n c (s.signalCompletion t) :=
  h.thread (fun hd hch => .inr (hdel hd.2.1 hch)) fun _ _ _ => ⟨rfl, id⟩

/-- A sampling thread goes on. -/
theorem Keeps.descr (h : Keeps n c s) {k : ThrDescriptor}
    (hk : ∀ j, k.pc.books = some j → (s.descr d).pc.books = some j ∨
      ((s.thread j).job.type = .deleteChannel → (s.thread j).ch = c →
        n ≤ (s.cl c).callsAtDelete)) (hd : d < s.nrDescr) : Keeps n c (s.setDescr d k) where
  made := h.made
  calls := h.calls
  booked d' hd' j hb := by
    by_cases hdd : d' = d
    · subst hdd
      obtain hb' | hkept := hk j (by simpa using hb)
      · exact h.booked d' hd j hb'
      · exact hkept
    · exact h.booked d' hd' j (by simpa [hdd] using hb)
  filed := h.filed

/-- A descriptor is created. -/
theorem Keeps.new (h : Keeps n c s) (p : UInt64) :
    Keeps n c { s.setDescr s.nrDescr (.new p t) with nrDescr := s.nrDescr + 1 } where
  made := h.made
  calls := h.calls
  booked d' hd' j hb := by
    by_cases hdd : d' = s.nrDescr
    · simp [hdd, ThrDescriptor.new, SamplerPc.books] at hb
    · exact h.booked d' (by simp at hd'; omega) j (by simpa [hdd] using hb)
  filed := h.filed

theorem Live.setCl (h : s.Live c) {k : FPCClosure} (hk : k.isRefCounted = (s.cl c).isRefCounted) :
    (s.setCl c k).Live c :=
  h.imp_left fun href => by simpa [hk] using href

/-- A step of a channel. -/
theorem Keeps.cl (h : Keeps n c s) (c' : Nat) {x : UInt64} {k : FPCClosure}
    (hk : ChannelStep x (s.cl c') k)
    (hfiled : c' = c → Silent (s.cl c) k ∨ (s.setCl c' k).Live c ∨
      Totalled k ∧ n ≤ k.callsAtDelete) : Keeps n c (s.setCl c' k) := by
  by_cases hc : c' = c
  · subst hc
    obtain ⟨hmade, hcalls, hdelete⟩ := hk.calls h.made
    have hle := h.calls.trans hcalls
    refine ⟨by simpa using hmade, by simpa using hle, fun d hd j hb htype hch => ?_, ?_⟩
    · have hold := h.booked d hd j hb htype hch
      obtain hdelete | hdelete := hdelete
      · simpa [hdelete] using hold
      · simpa [hdelete] using hle
    · obtain hsilent | hlive | htotal := hfiled rfl
      · obtain (href | hdel) | ⟨htotal, hn⟩ := h.filed
        · exact .inl (.inl (by simpa [hsilent.isRefCounted] using href))
        · exact .inl (.inr hdel)
        · exact .inr ⟨by simpa using htotal.of_silent hsilent,
            by simpa [hsilent.callsAtDelete] using hn⟩
      · exact .inl hlive
      · exact .inr (by simpa using htotal)
  · have hne : c ≠ c' := Ne.symm hc
    refine ⟨by simpa [hne] using h.made, by simpa [hne] using h.calls, ?_, ?_⟩
    · simpa [hne] using h.booked
    · simpa [Filed, Live, hne] using h.filed

end Moves

section Step

variable {s s' : Fpc} {r : Reg} {e : Nat → UInt64} {l : Act} {n c d j : Nat} {ev : UInt64}

/-- What the log holds when a DELETE_CHANNEL job completes. -/
theorem Backed.totalled (hb : Backed s r) (hj : Jobs s r) (hd : d < s.nrDescr) {m : Nat}
    (hpc : (s.descr d).pc = .book m j ev) (htype : (s.thread j).job.type = .deleteChannel)
    (now : Timespec) : Totalled ((s.cl (s.thread j).ch).bookDelete now ev) := by
  obtain ⟨hsent, hsig⟩ := hj.held_sent (t := j) hd (by rw [hpc]; rfl)
  have htally := hb.lines _ (.inr ⟨j, rfl, ApiPc.working_of_sent hsent, htype, hsig⟩)
  have hbooks := (s.cl (s.thread j).ch).books_bookDelete now ev
  have hfinal := hb.final d hd m j ev hpc htype
  refine ⟨?_, ?_, ?_⟩
  · rw [(htally.bookDelete now ev).counted, FPCClosure.totalCtr_bookDelete, hbooks.callsAtDelete,
      hfinal]
  · rw [FPCClosure.totalCtr_bookDelete, hbooks.callsAtDelete, hfinal]
  · rw [FPCClosure.getLast_bookDelete htally.isOpen, hbooks.callsAtDelete, hfinal]

/-- A DELETE_CHANNEL job is completed. -/
theorem Keeps.bookDelete (h : Keeps n c s) (hb : Backed s r) (hj : Jobs s r) (hd : d < s.nrDescr)
    {m : Nat} (hpc : (s.descr d).pc = .book m j ev)
    (htype : (s.thread j).job.type = .deleteChannel) (now : Timespec) :
    Keeps n c ((s.setCl (s.thread j).ch
      ((s.cl (s.thread j).ch).bookDelete now ev)).signalCompletion j) := by
  have htotal := hb.totalled hj hd hpc htype now
  have hn (hc : (s.thread j).ch = c) :
      n ≤ ((s.cl (s.thread j).ch).bookDelete now ev).callsAtDelete := by
    rw [((s.cl _).books_bookDelete now ev).callsAtDelete, hc]
    exact h.booked d hd j (by rw [hpc]; rfl) htype hc
  have h1 := h.cl (s.thread j).ch (.bookDelete now (x := ev)) fun hc => .inr (.inr ⟨htotal, hn hc⟩)
  refine h1.signal fun _ hch => ?_
  obtain rfl : (s.thread j).ch = c := hch
  simpa using ⟨htotal, hn rfl⟩

theorem Keeps.callStep (h : Keeps n c s) (hj : Jobs s r) (hs : CallMove s l s') : Keeps n c s' := by
  cases hs with
  | openChannel t c' ok hidle hmade =>
      have h1 := h.cl c' (x := 0) (.made hmade) fun hc => by
        rw [hc, h.made] at hmade
        cases hmade
      exact h1.call (hj.congr rfl rfl rfl rfl) (by simp [hidle, ApiPc.working])
  | param t c' a p hidle | close t c' l hl hidle | closeAgain t c' l hl hidle =>
      exact h.call hj (by rw [hidle]; rfl)
  | refuse => exact h

theorem Keeps.apiStep (h : Keeps n c s) (hr : Fits s r) (hs : ApiMove s l s') : Keeps n c s' := by
  have hj := hr.jobs
  cases hs with
  | openFailed t hpc => exact h.call hj (by rw [hpc]; rfl)
  | opened t hpc =>
      have h1 := h.cl (s.thread t).ch (x := 0) .opened fun hc =>
        .inr (.inl (.inl (by simp [hc])))
      have h2 := h1.call (t := t) (a := ⟨.submit, (s.thread t).ch, ⟨.insertChannel, -1, 0⟩⟩)
        (hj.congr rfl rfl rfl rfl) (by simp [hpc, ApiPc.working])
      exact h2.congr rfl rfl rfl rfl
  | submit t hpc => exact h.goOn fun _ => rfl
  | routeFound t p d hpc hmtx hd =>
      have h1 := h.descr (k := { s.descr d with jQueue := (s.descr d).jQueue ++ [t] })
        (fun _ hb => .inl hb) (hr.mapped.registered p d hd).1
      exact h1.goOn fun _ => rfl
  | routeNew t p hpc hmtx hd htype =>
      have h1 := h.new (t := t) (s.cl (s.thread t).ch).periodicIncNs
      exact (h1.goOn (t := t) (q := .insertMap p s.nrDescr) fun _ => rfl).congr rfl rfl rfl rfl
  | routeLost t p hpc hmtx hd htype =>
      exact (h.goOn (t := t) (q := .wait) fun _ => rfl).congr rfl rfl rfl rfl
  | insertMap t p d hpc =>
      exact (h.goOn (t := t) (q := .wait) fun _ => rfl).congr rfl rfl rfl rfl
  | returned t hpc hsig htype =>
      have h1 := h.cl (s.thread t).ch (x := 0) .handed fun hc =>
        .inl (hc ▸ ⟨rfl, rfl, rfl, rfl⟩)
      exact h1.goOn fun hdel => absurd hdel.2.2 hsig
  | deleted t hpc hsig htype => exact h.goOn fun hdel => absurd hdel.2.2 hsig
  | countOut t hpc =>
      have h1 := h.call (t := t) (a := { s.thread t with pc := .clear }) hj (by rw [hpc]; rfl)
      exact h1.congr rfl rfl rfl rfl
  | clear t hpc =>
      -- the DELETE_CHANNEL job keeps the channel alive from here on
      have h1 := h.call (a := ⟨.submit, (s.thread t).ch, ⟨.deleteChannel, -1, 0⟩⟩) hj (t := t)
        (by rw [hpc]; rfl)
      have h2 := h1.cl (s.thread t).ch (x := 0) .shut fun hc =>
        .inr (.inl (.inr ⟨t, by simp [hc], by simp [ApiThread.deletes, ApiPc.working]⟩))
      exact h2.congr rfl rfl rfl rfl
  | closing t hpc =>
      have h1 := h.cl (s.thread t).ch (x := 0) .closed fun hc =>
        .inl (hc ▸ ⟨rfl, rfl, rfl, rfl⟩)
      exact h1.call (hj.congr rfl rfl rfl rfl) (by simp [hpc, ApiPc.working])

theorem Keeps.loopStep (h : Keeps n c s) (hf : Flows s e) (hr : Fits s r) (hb : Backed s r)
    (hs : LoopMove s l s') : Keeps n c s' := by
  cases hs with
  | goto d now ts pc hd hgo =>
      obtain ⟨-, -, -, hk⟩ := hgo.walks (hf.walks d hd) ts
      exact h.descr (by simp [hk]) hd
  | sample d now seen c' rest hd hpc =>
      have h1 := h.cl c' (x := e c') (.sample now) fun hc => .inl (hc ▸ ⟨rfl, rfl, rfl, rfl⟩)
      exact h1.descr (by simp [SamplerPc.books]) hd
  | account d now c' rest hd hpc =>
      have hmem : c' ∈ (s.descr d).pc.sampled := by
        rw [hpc]
        exact List.mem_cons_self
      have hlive := hb.backed c' (by rw [hf.owner hr hd hmem]; simp)
      have h1 := h.cl c' (x := e c') (.account (hf.sampled d hd c' hmem).symm) fun hc =>
        .inr (.inl (hc ▸ hlive.setCl (s.cl c').books_account.isRefCounted))
      exact h1.descr (by simp [SamplerPc.books]) hd
  | job d now left j q hd hpc hq => exact h.descr (by simp [SamplerPc.books]) hd
  | keep d now fs hd hpc =>
      have h1 := h.descr (d := d) (k := { s.descr d with pc := .clock })
        (by simp [SamplerPc.books]) hd
      exact h1.congr rfl rfl rfl rfl
  | removed d now d' hd hpc =>
      have h1 := h.descr (d := d) (k := { s.descr d with pc := .done })
        (by simp [SamplerPc.books]) hd
      exact h1.congr rfl rfl rfl rfl

theorem Keeps.takeStep (h : Keeps n c s) (hj : Jobs s r) (hb : Backed s r) (hs : TakeMove s l s') :
    Keeps n c s' := by
  cases hs with
  | takeInsert d now left j hd hpc htype =>
      obtain ⟨hsent, hsig⟩ := hj.held_sent (t := j) hd (by rw [hpc]; rfl)
      have href := hb.carried j ⟨ApiPc.working_of_sent hsent, hsig, .inl htype⟩
      have h1 := h.cl (s.thread j).ch (x := 0) .takeInsert fun hc =>
        .inr (.inl (hc ▸ Live.setCl (.inl href) (s.cl _).books_logHeader.isRefCounted))
      refine h1.descr (fun j' hb => .inr fun hdel => ?_) hd
      obtain rfl : j = j' := by simpa [SamplerPc.books] using hb
      simp [htype] at hdel
  | takeMove d now left j hd hpc htype hc =>
      have h1 := h.cl (s.thread j).ch (x := 0) .takeMove fun hc =>
        .inl (hc ▸ ⟨rfl, rfl, rfl, rfl⟩)
      refine h1.descr (fun j' hb => .inr fun hdel => ?_) hd
      obtain rfl : j = j' := by simpa [SamplerPc.books] using hb
      simp [htype] at hdel
  | takeMissing d now left j hd hpc htype hc =>
      have h1 := h.signal (t := j) (by simp [htype])
      have h2 := h1.descr (d := d) (k := { s.descr d with pc := .jobs left })
        (by simp [SamplerPc.books]) hd
      exact h2.congr rfl rfl rfl rfl
  | takeDelete d now left j hd hpc htype =>
      obtain ⟨hsent, hsig⟩ := hj.held_sent (t := j) hd (by rw [hpc]; rfl)
      have h1 := h.cl (s.thread j).ch (x := 0) .takeDelete fun hc =>
        .inr (.inl (.inr ⟨j, hc, ApiPc.working_of_sent hsent, htype, hsig⟩))
      refine h1.descr (fun j' hb => .inr fun _ hch => ?_) hd
      obtain rfl : j = j' := by simpa [SamplerPc.books] using hb
      obtain rfl : (s.thread j).ch = c := hch
      simpa using h.calls

theorem Keeps.bookStep (h : Keeps n c s) (hj : Jobs s r) (hb : Backed s r) (hs : BookMove s l s') :
    Keeps n c s' := by
  cases hs with
  | bookInsert d now left j ev hd hpc htype =>
      obtain ⟨hsent, hsig⟩ := hj.held_sent (t := j) hd (by rw [hpc]; rfl)
      have href := hb.carried j ⟨ApiPc.working_of_sent hsent, hsig, .inl htype⟩
      have h1 := h.cl (s.thread j).ch (.bookInsert now (x := ev)) fun hc =>
        .inr (.inl (hc ▸ Live.setCl (.inl href) rfl))
      have h2 := h1.signal (t := j) (by simp [htype])
      exact h2.descr (by simp [SamplerPc.books]) hd
  | bookMove d now left j ev hd hpc htype =>
      obtain ⟨hsent, hsig⟩ := hj.held_sent (t := j) hd (by rw [hpc]; rfl)
      have href := hb.carried j ⟨ApiPc.working_of_sent hsent, hsig,
        .inr ⟨htype, d, hd, by rw [hpc]; rfl⟩⟩
      have hk := (s.cl (s.thread j).ch).books_bookMove now ev (s.thread j).job.curPeriodicIncNs
      have h1 := h.cl (s.thread j).ch (.bookMove now (s.thread j).job.curPeriodicIncNs (x := ev))
        fun hc => .inr (.inl (hc ▸ Live.setCl (.inl href) hk.isRefCounted))
      have h2 := h1.thread (t := j) (a := { s.thread j with
        job := { (s.thread j).job with type := .insertChannel, curPeriodicIncNs := -1 } })
        (fun hdel => ?_) (by simp)
      · exact h2.descr (by simp [SamplerPc.books]) hd
      · have htype' : (s.thread j).job.type = .deleteChannel := hdel.2.1
        simp [htype] at htype'
  | bookDelete d now left j ev hd hpc htype =>
      have h1 := (h.bookDelete hb hj hd hpc htype now).descr (d := d) (k := { s.descr d with
        closures := (s.descr d).closures.erase (s.thread j).ch, pc := .jobs left })
        (by simp [SamplerPc.books]) hd
      exact h1.congr rfl rfl rfl rfl
  | bookDeleteMissing d now left j ev hd hpc htype =>
      have h1 := (h.bookDelete hb hj hd hpc htype now).descr (d := d)
        (k := { s.descr d with pc := .jobs left }) (by simp [SamplerPc.books]) hd
      exact h1.congr rfl rfl rfl rfl

theorem Keeps.passStep (h : Keeps n c s) (hr : Fits s r) (hs : PassMove s l s') : Keeps n c s' := by
  cases hs with
  | passOn d now left j hd hpc => exact h.descr (by simp [SamplerPc.books]) hd
  | passFound d now left j p d' hd hpc hmtx hd' hne =>
      have h1 := h.descr (d := d') (k := { s.descr d' with jQueue := (s.descr d').jQueue ++ [j] })
        (fun _ hb => .inl hb) (hr.mapped.registered p d' hd').1
      exact h1.descr (by simp [SamplerPc.books]) hd
  | passSelf d now left j p hd hpc hmtx hd' => exact h.descr (by simp [SamplerPc.books]) hd
  | passNew d now left j p hd hpc hmtx hd' =>
      have h1 := h.new (t := j) (s.cl (s.thread j).ch).periodicIncNs
      have h2 := h1.descr (d := d) (k := { s.descr d with pc := .insertMap left p s.nrDescr })
        (by simp [SamplerPc.books]) (Nat.lt_succ_of_lt hd)
      exact h2.congr rfl rfl rfl rfl
  | passMap d now left p d' hd hpc =>
      have h1 := h.descr (d := d) (k := { s.descr d with pc := .jobs left })
        (by simp [SamplerPc.books]) hd
      exact h1.congr rfl rfl rfl rfl

/-- **Every move keeps the calls of the channel.** -/
theorem Keeps.step (h : Keeps n c s) (hf : Flows s e) (hr : Fits s r) (hb : Backed s r)
    (hs : Move s l s') : Keeps n c s' := by
  cases hs with
  | call hs => exact h.callStep hr.jobs hs
  | api hs => exact h.apiStep hr hs
  | handler c' hmade =>
      exact h.cl c' (x := e c') (.handler hmade) fun hc => .inl (hc ▸ ⟨rfl, rfl, rfl, rfl⟩)
  | loop hs => exact h.loopStep hf hr hb hs
  | take hs => exact h.takeStep hr.jobs hb hs
  | book hs => exact h.bookStep hr.jobs hb hs
  | pass hs => exact h.passStep hr hs

end Step

/-! ## runs -/

section Runs

variable {s₀ s : Fpc} {c : Nat}

/-- **Calls of an open channel are kept**, for as long as the run goes on. -/
theorem keeps_calls (h₀ : Reach step init OneCall s₀) (h : Reach step s₀ OneCall s)
    (hopen : (s₀.cl c).isRefCounted = true) : Keeps (s₀.cl c).calls c s := by
  refine Reach.invariant_of (J := fun s => ∃ r e, Fits s r ∧ Owned s r ∧ Flows s e ∧ Backed s r)
    (fun s hs => reach_backed (h₀.trans hs)) ?_ (fun s l s' hJ hI _ hs => ?_) h
  · obtain ⟨r, e, hr, ho, hf, hb⟩ := reach_backed h₀
    refine ⟨ho.made hr hopen, le_rfl, fun d hd j hbooks htype hch => ?_, .inl (.inl hopen)⟩
    have hsent := (hr.jobs.sent j (by rw [hr.jobs.books_hand hd hbooks]; simp)).1
    have hshut := hb.shut j (.inl ⟨ApiPc.working_of_sent hsent, htype⟩)
    rw [hch, hopen] at hshut
    cases hshut
  · obtain ⟨r, e, hr, ho, hf, hb⟩ := hJ
    exact hI.step hf hr hb (step_move hs)

/-- The log of a channel is complete once its file is closed. -/
theorem totalled_of_closed (h₀ : Reach step init OneCall s₀) (h : Reach step s₀ OneCall s)
    (hopen : (s₀.cl c).isRefCounted = true) (hclosed : (s.cl c).base.isOpen = false) :
    Totalled (s.cl c) ∧ (s₀.cl c).calls ≤ (s.cl c).callsAtDelete := by
  obtain ⟨r, e, -, -, -, hb⟩ := reach_backed (h₀.trans h)
  refine (keeps_calls h₀ h hopen).filed.resolve_left fun hlive => ?_
  rw [(hb.lines c hlive).isOpen] at hclosed
  cases hclosed

end Runs

/-! ## files -/

/-- The function `cntTuplesFromFiles` on the characters of its files. -/
def cntTuplesFromFiles (l : List (List Char)) : Option Int :=
  l.foldlM (fun count f => (loadTS_FPC f).bind fun d => countEntries d.values count) 0

theorem countEntries_eq (xs : List (List FPCEntry)) (count : Int) :
    countEntries xs count = (countEntries xs 0).map (count + ·) := by
  induction xs generalizing count with
  | nil => simp [countEntries]
  | cons x xs ih =>
      cases x with
      | nil => rfl
      | cons e _ =>
          rw [countEntries, countEntries, ih, ih (0 + e.2.2), Option.map_map]
          congr 1
          funext n
          simp [Int.add_assoc]

/-- What is found in several files adds up. -/
theorem cntTuplesFromFiles_map {cs : List Nat} {file : Nat → List Char} {counts : Nat → Nat}
    (h : ∀ c ∈ cs, cntTuples (file c) = some (counts c : Int)) :
    cntTuplesFromFiles (cs.map file) = some (((cs.map counts).sum : Nat) : Int) := by
  have hfold (count : Int) : (cs.map file).foldlM
      (fun count f => (loadTS_FPC f).bind fun d => countEntries d.values count) count =
        some (count + ((cs.map counts).sum : Nat)) := by
    induction cs generalizing count with
    | nil => simp
    | cons c cs ih =>
        obtain ⟨d, hload, hcount⟩ := Option.bind_eq_some_iff.mp (h c List.mem_cons_self)
        rw [List.map_cons, List.foldlM_cons, hload, Option.bind_some, countEntries_eq, hcount]
        refine (ih (fun c' hc' => h c' (List.mem_cons_of_mem _ hc')) _).trans ?_
        simp [Int.add_assoc]
  rw [cntTuplesFromFiles, hfold, Int.zero_add]

/-- **`cntTuplesFromFiles` counts the handler calls**: of every channel that
was open and whose file is closed now it finds the calls made while the channel
was open, and no call twice; the log ends with that number. -/
theorem files_loaded {s₀ s : Fpc} {cs : List Nat} (h₀ : Reach step init OneCall s₀)
    (h : Reach step s₀ OneCall s) (hopen : ∀ c ∈ cs, (s₀.cl c).isRefCounted = true)
    (hclosed : ∀ c ∈ cs, (s.cl c).base.isOpen = false)
    (hcalls : ∀ c ∈ cs, (s.cl c).calls < 2 ^ 64) (cal : Calendar) :
    ∃ counts : Nat → Nat,
      cntTuplesFromFiles (cs.map fun c => logFile cal (s.cl c).base.lines) =
        some (((cs.map counts).sum : Nat) : Int) ∧
      ∀ c ∈ cs, (s₀.cl c).calls ≤ counts c ∧ counts c ≤ (s.cl c).calls ∧
        (s.cl c).base.lines.getLast? = some (.total (UInt64.ofNat (counts c))) := by
  refine ⟨fun c => (s.cl c).callsAtDelete, cntTuplesFromFiles_map fun c hc => ?_, fun c hc => ?_⟩
  · obtain ⟨htotal, -⟩ := totalled_of_closed h₀ h (hopen c hc) (hclosed c hc)
    obtain ⟨hclean, hfits⟩ := reach_fits64 (h₀.trans h) c
    rw [cntTuples_logFile hclean, htotal.events hfits (hcalls c hc)]
  · obtain ⟨htotal, hle⟩ := totalled_of_closed h₀ h (hopen c hc) (hclosed c hc)
    exact ⟨hle, (reach_fits64 (h₀.trans h) c).2.atDelete, htotal.last⟩

/-- The event of a channel that is closed after it. -/
theorem files_loaded_once : ∃ s₀ s : Fpc, (s₀.cl 0).calls = 1 ∧ ∀ cal,
    cntTuplesFromFiles [logFile cal (s.cl 0).base.lines] = some 1 ∧
      (s.cl 0).base.lines.getLast? = some (.total 1) := by
  let closing : List Act := [Act.closeChannel 0 0] ++ List.replicate 4 (Act.api 0) ++
    List.replicate 8 (Act.sampler 0 .zero) ++ [Act.api 0, Act.api 0]
  obtain ⟨s₀, hr₀, hs₀⟩ : ∃ s, Reach step init (OneCallOf 1) s ∧
      decide ((s.cl 0).isRefCounted = true ∧ (s.cl 0).calls = 1 ∧
        (exec step (OneCallOf 1) s closing).any (fun s => decide ((s.cl 0).base.isOpen = false ∧
          (s.cl 0).calls = 1)) = true) = true :=
    Reach.of_exec_any ([Act.openChannel 0 0 true] ++ List.replicate 4 (Act.api 0) ++
      List.replicate 7 (Act.sampler 0 .zero) ++ [Act.api 0, Act.handler 0]) _ (by decide +kernel)
  obtain ⟨hopen, hcalls₀, hrun⟩ := of_decide_eq_true hs₀
  obtain ⟨s, hrun, hs⟩ := (Option.any_eq_true _ _).mp hrun
  obtain ⟨hclosed, hcalls⟩ := of_decide_eq_true hs
  have hr : Reach step s₀ OneCall s := (Reach.init.exec hrun).mono_of fun _ _ hr hok =>
    hok.oneCall fun _ ht => reach_idle (fun _ _ hl => hl.1) (hr₀.trans hr) ht
  refine ⟨s₀, s, hcalls₀, fun cal => ?_⟩
  have hopen : ∀ c ∈ [0], (s₀.cl c).isRefCounted = true := by simpa using hopen
  obtain ⟨counts, hsum, hcounts⟩ := files_loaded (reach_oneCall hr₀) hr hopen
    (by simpa using hclosed) (by simp [hcalls]) cal
  obtain ⟨hle₀, hle, hlast⟩ := hcounts 0 List.mem_cons_self
  have hone : counts 0 = 1 := by omega
  rw [hone] at hlast
  exact ⟨by simpa [hone] using hsum, hlast⟩

end Fpc

end CloudProfiler
