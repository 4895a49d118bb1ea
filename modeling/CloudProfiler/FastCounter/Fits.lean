import CloudProfiler.FastCounter.Throughput

/-!
# CloudProfiler.FastCounter.Fits

What a step does to one channel of the fast periodic counter.  The counters
have 64 bits; as long as there are fewer calls, nothing wraps.

* `ChannelStep` — the steps of a channel;
* `Fits64` — the counters and the log, as numbers, `reach_fits64` — in every
  reached state.
-/

namespace CloudProfiler

/-! ## what a step does to a channel -/

/-- The steps of a channel of which `x` events are on their way. -/
inductive ChannelStep (x : UInt64) (cl : FPCClosure) : FPCClosure → Prop
  | same : ChannelStep x cl cl
  | made (h : cl.made = false) : ChannelStep x cl .init
  | opened : ChannelStep x cl { cl with base := .opened, isRefCounted := true }
  | shut : ChannelStep x cl { cl with isRefCounted := false }
  | handed : ChannelStep x cl { cl with handle := true }
  | closed : ChannelStep x cl { cl with base := cl.base.closeChannel }
  | handler (h : cl.made = true) : ChannelStep x cl cl.handler
  | sample (now : Timespec) : ChannelStep x cl (cl.sample now)
  | account (h : cl.sampledCtr = x) : ChannelStep x cl cl.account
  | takeInsert : ChannelStep x cl cl.logHeader.exchange
  | takeMove : ChannelStep x cl cl.exchange
  | takeDelete : ChannelStep x cl { cl.exchange with callsAtDelete := cl.calls }
  | bookInsert (now : Timespec) : ChannelStep x cl (cl.bookInsert now x)
  | bookMove (now : Timespec) (period : UInt64) : ChannelStep x cl (cl.bookMove now x period)
  | bookDelete (now : Timespec) : ChannelStep x cl (cl.bookDelete now x)

namespace Fpc

variable {s s' : Fpc} {e : Nat → UInt64} {l : Act}

theorem channelStep_setCl {c c' : Nat} {k : FPCClosure} (h : ChannelStep (e c) (s.cl c) k) :
    ChannelStep (e c') (s.cl c') ((s.setCl c k).cl c') := by
  by_cases hc : c' = c
  · subst hc
    simpa using h
  · simpa [hc] using ChannelStep.same

/-- **Every move is a step of each channel.** -/
theorem Move.channelStep (hf : Flows s e) (hs : Move s l s') (c : Nat) :
    ChannelStep (e c) (s.cl c) (s'.cl c) := by
  have hbooked {d n j : Nat} {ev : UInt64} (hd : d < s.nrDescr)
      (hpc : (s.descr d).pc = .book n j ev) : e (s.thread j).ch = ev := hf.booked d hd n j ev hpc
  cases hs with
  | call hs =>
      cases hs with
      | openChannel t c' ok hidle hmade => exact channelStep_setCl (.made hmade)
      | param | refuse | close | closeAgain => exact .same
  | api hs =>
      cases hs with
      | opened t => exact channelStep_setCl .opened
      | returned t => exact channelStep_setCl .handed
      | clear t => exact channelStep_setCl .shut
      | closing t => exact channelStep_setCl .closed
      | openFailed | submit | routeFound | routeNew | routeLost | insertMap | deleted | countOut =>
          exact .same
  | handler c' hmade => exact channelStep_setCl (.handler hmade)
  | loop hs =>
      cases hs with
      | sample d now seen c' => exact channelStep_setCl (.sample now)
      | account d now c' rest hd hpc =>
          have hmem : c' ∈ (s.descr d).pc.sampled := by
            rw [hpc]
            exact List.mem_cons_self
          exact channelStep_setCl (.account (hf.sampled d hd c' hmem).symm)
      | goto | job | keep | removed => exact .same
  | take hs =>
      cases hs with
      | takeInsert d now left j => exact channelStep_setCl .takeInsert
      | takeMove d now left j => exact channelStep_setCl .takeMove
      | takeDelete d now left j => exact channelStep_setCl .takeDelete
      | takeMissing => exact .same
  | book hs =>
      cases hs with
      | bookInsert d now left j ev hd hpc =>
          obtain rfl := hbooked hd hpc
          exact channelStep_setCl (.bookInsert now)
      | bookMove d now left j ev hd hpc =>
          obtain rfl := hbooked hd hpc
          exact channelStep_setCl (.bookMove now _)
      | bookDelete d now left j ev hd hpc | bookDeleteMissing d now left j ev hd hpc =>
          obtain rfl := hbooked hd hpc
          exact channelStep_setCl (.bookDelete now)
  | pass hs =>
      cases hs with
      | passOn | passFound | passSelf | passNew | passMap => exact .same

end Fpc

/-! ## the log of a channel -/

section Lines

variable {x : UInt64} {cl k : FPCClosure} {l : FPCLine}

theorem Clean.logHeader (h : Clean cl) : Clean cl.logHeader := by
  unfold FPCClosure.logHeader
  split
  · exact h
  · have hlogged : Clean { cl with isHeaderLogged := true } := h
    exact hlogged.put (l := .header) trivial

theorem Clean.bookInsert (h : Clean cl) (now : Timespec) (ev : UInt64) :
    Clean (cl.bookInsert now ev) :=
  ((h.total _).put (l := .ctr now ev) trivial).put (l := .start _) trivial

/-- Messages stay one line each. -/
theorem ChannelStep.clean (h : ChannelStep x cl k) (hclean : Clean cl) : Clean k := by
  cases h with
  | made | opened => exact fun l hl => by cases hl
  | account => exact hclean.apply .account
  | takeInsert => exact hclean.logHeader
  | bookInsert now => exact hclean.bookInsert now x
  | bookMove now period => exact hclean.apply (.move now x period)
  | bookDelete now => exact hclean.apply (.delete now x)
  | same | shut | handed | closed | handler | sample | takeMove | takeDelete => exact hclean

/-- A line adds what it counts, if it is written. -/
theorem events_put (cl : FPCClosure) (l : FPCLine) :
    events (cl.put l).base.lines ≤ events cl.base.lines + l.count.toNat := by
  simp only [FPCClosure.put, Base.put]
  split
  · simp [events]
  · exact Nat.le_add_right ..

/-- A comment counts nothing. -/
theorem events_put_comment (cl : FPCClosure) (h : l.count = 0) :
    events (cl.put l).base.lines ≤ events cl.base.lines := by
  simpa [h] using events_put cl l

theorem events_flushSkipped (cl : FPCClosure) :
    events cl.flushSkipped.base.lines ≤ events cl.base.lines := by
  unfold FPCClosure.flushSkipped
  split
  · exact events_put_comment cl rfl
  · exact le_rfl

theorem events_logHeader (cl : FPCClosure) :
    events cl.logHeader.base.lines ≤ events cl.base.lines := by
  unfold FPCClosure.logHeader
  split
  · exact le_rfl
  · exact events_put_comment { cl with isHeaderLogged := true } rfl

theorem events_printTruncatedPeriod (cl : FPCClosure) (now : Timespec) (ev : UInt64)
    (msg : String) :
    events (cl.printTruncatedPeriod now ev msg).base.lines ≤
      events cl.base.lines + ev.toNat :=
  ((events_put_comment _ rfl).trans (events_put_comment _ rfl)).trans (events_put cl (.ctr now ev))

theorem events_bookInsert (cl : FPCClosure) (now : Timespec) (ev : UInt64) :
    events (cl.bookInsert now ev).base.lines ≤ events cl.base.lines + ev.toNat :=
  (events_put_comment _ rfl).trans
    (events_put { cl with totalCtr := cl.totalCtr + ev } (.ctr now ev))

theorem events_bookMove (cl : FPCClosure) (now : Timespec) (ev period : UInt64) :
    events (cl.bookMove now ev period).base.lines ≤ events cl.base.lines + ev.toNat :=
  (events_printTruncatedPeriod ..).trans
    (Nat.add_le_add_right (events_flushSkipped { cl with totalCtr := cl.totalCtr + ev }) _)

theorem events_bookDelete (cl : FPCClosure) (now : Timespec) (ev : UInt64) :
    events (cl.bookDelete now ev).base.lines ≤ events cl.base.lines + ev.toNat :=
  (events_put_comment _ rfl).trans <| (events_printTruncatedPeriod ..).trans
    (Nat.add_le_add_right (events_flushSkipped { cl with totalCtr := cl.totalCtr + ev }) _)

theorem events_account (cl : FPCClosure) :
    events cl.account.base.lines ≤ events cl.base.lines + cl.sampledCtr.toNat := by
  unfold FPCClosure.account
  split
  · exact Nat.le_add_right ..
  · next hne =>
    have hflush := events_flushSkipped { cl with totalCtr := cl.totalCtr + cl.sampledCtr }
    have hsampled := (FPCClosure.books_flushSkipped
      { cl with totalCtr := cl.totalCtr + cl.sampledCtr }).sampledCtr
    refine (events_put _ _).trans ?_
    show _ + UInt64.toNat (FPCClosure.flushSkipped _).sampledCtr ≤ _
    rw [hsampled]
    exact Nat.add_le_add_right hflush _

end Lines

/-! ## no counter wraps -/

/-- With fewer calls than `uint64_t` has values, the counters hold their number
and not a remainder of it. -/
structure Fits64 (cl : FPCClosure) : Prop where
  atDelete : cl.callsAtDelete ≤ cl.calls
  logged : cl.calls < 2 ^ 64 → events cl.base.lines ≤ cl.totalCtr.toNat
  counted : cl.calls < 2 ^ 64 → cl.totalCtr.toNat + cl.ctr.toNat ≤ cl.calls

section Fits64

variable {x : UInt64} {cl k : FPCClosure}

/-- What is on its way, as a number. -/
theorem Fits64.toNat_total (h : Fits64 cl) (hcalls : cl.calls < 2 ^ 64)
    (hsum : UInt64.ofNat cl.calls = cl.totalCtr + cl.ctr + x) :
    (cl.totalCtr + x).toNat = cl.totalCtr.toNat + x.toNat ∧
      cl.totalCtr.toNat + x.toNat + cl.ctr.toNat = cl.calls := by
  have hle := h.counted hcalls
  have htotal := cl.totalCtr.toNat_lt
  have hx := x.toNat_lt
  have hctr := cl.ctr.toNat_lt
  have hnat := congrArg UInt64.toNat hsum
  rw [UInt64.toNat_add, UInt64.toNat_add, UInt64.toNat_ofNat', Nat.mod_eq_of_lt hcalls] at hnat
  rw [UInt64.toNat_add]
  omega

/-- Events get to the total. -/
theorem Fits64.book (h : Fits64 cl) (hsum : UInt64.ofNat cl.calls = cl.totalCtr + cl.ctr + x)
    (hcalls : k.calls = cl.calls) (hdelete : k.callsAtDelete = cl.callsAtDelete)
    (hctr : k.ctr = cl.ctr) (htotal : k.totalCtr = cl.totalCtr + x)
    (hlines : events k.base.lines ≤ events cl.base.lines + x.toNat) : Fits64 k where
  atDelete := by
    rw [hdelete, hcalls]
    exact h.atDelete
  logged := fun hlt => by
    rw [hcalls] at hlt
    have hold := h.logged hlt
    rw [htotal, (h.toNat_total hlt hsum).1]
    omega
  counted := fun hlt => by
    rw [hcalls] at hlt
    obtain ⟨hadd, heq⟩ := h.toNat_total hlt hsum
    rw [hcalls, hctr, htotal, hadd]
    omega

/-- Events leave the counter, or nothing is counted. -/
theorem Fits64.take (h : Fits64 cl) (hcalls : k.calls = cl.calls)
    (hdelete : k.callsAtDelete ≤ k.calls) (hctr : k.ctr = cl.ctr ∨ k.ctr = 0)
    (htotal : k.totalCtr = cl.totalCtr) (hlines : events k.base.lines ≤ events cl.base.lines) :
    Fits64 k where
  atDelete := hdelete
  logged := fun hlt => by
    rw [htotal]
    exact hlines.trans (h.logged (hcalls ▸ hlt))
  counted := fun hlt => by
    have hold := h.counted (hcalls ▸ hlt)
    rw [hcalls, htotal]
    obtain hctr | hctr := hctr
    · rw [hctr]
      exact hold
    · rw [hctr]
      exact (Nat.le_add_right ..).trans hold

/-- **No step of a channel makes a counter wrap.** -/
theorem ChannelStep.fits64 (hk : ChannelStep x cl k) (h : Fits64 cl)
    (hsum : UInt64.ofNat cl.calls = cl.totalCtr + cl.ctr + x) : Fits64 k := by
  cases hk with
  | made => exact ⟨le_rfl, fun _ => le_rfl, fun _ => le_rfl⟩
  | opened => exact h.take rfl h.atDelete (.inl rfl) rfl (Nat.zero_le _)
  | same | shut | handed | closed => exact h.take rfl h.atDelete (.inl rfl) rfl le_rfl
  | handler =>
      have hadd (hlt : cl.calls + 1 < 2 ^ 64) : (cl.ctr + 1).toNat = cl.ctr.toNat + 1 := by
        have hold := h.counted (by omega)
        rw [UInt64.toNat_add, UInt64.toNat_one]
        omega
      refine ⟨h.atDelete.trans (Nat.le_succ _), fun hlt => h.logged (Nat.lt_of_succ_lt hlt),
        fun hlt => ?_⟩
      have hold := h.counted (Nat.lt_of_succ_lt hlt)
      show cl.totalCtr.toNat + (cl.ctr + 1).toNat ≤ cl.calls + 1
      rw [hadd hlt]
      omega
  | sample now | takeMove => exact h.take rfl h.atDelete (.inr rfl) rfl le_rfl
  | takeDelete => exact h.take rfl le_rfl (.inr rfl) rfl le_rfl
  | takeInsert =>
      have hbooks := cl.books_logHeader
      refine h.take hbooks.calls ?_ (.inr rfl) FPCClosure.totalCtr_logHeader (events_logHeader cl)
      show cl.logHeader.callsAtDelete ≤ cl.logHeader.calls
      rw [hbooks.calls, hbooks.callsAtDelete]
      exact h.atDelete
  | account hx =>
      have hbooks := cl.books_account
      subst hx
      exact h.book hsum hbooks.calls hbooks.callsAtDelete hbooks.ctr FPCClosure.totalCtr_account
        (events_account cl)
  | bookInsert now => exact h.book hsum rfl rfl rfl rfl (events_bookInsert cl now x)
  | bookMove now period =>
      have hbooks := cl.books_bookMove now x period
      exact h.book hsum hbooks.calls hbooks.callsAtDelete hbooks.ctr
        (FPCClosure.totalCtr_bookMove now x period) (events_bookMove cl now x period)
  | bookDelete now =>
      have hbooks := cl.books_bookDelete now x
      exact h.book hsum hbooks.calls hbooks.callsAtDelete hbooks.ctr
        (FPCClosure.totalCtr_bookDelete now x) (events_bookDelete cl now x)

end Fits64

/-! ## runs -/

namespace Fpc

variable {s s' : Fpc} {d n j : Nat} {ev : UInt64} {now : Timespec}

theorem reach_fits64 (h : Reach step init OneCall s) (c : Nat) :
    Clean (s.cl c) ∧ Fits64 (s.cl c) := by
  have hclean : Clean (init.cl c) := fun l hl => by cases hl
  have hinit : Fits64 (init.cl c) := ⟨le_rfl, fun _ => le_rfl, fun _ => le_rfl⟩
  refine Reach.invariant_of (I := fun s => Clean (s.cl c) ∧ Fits64 (s.cl c))
    (fun s => reach_backed) ⟨hclean, hinit⟩ ?_ h
  intro s l s' hJ hI hok hs
  obtain ⟨r, e, -, -, hf, -⟩ := hJ
  have hstep := (step_move hs).channelStep hf c
  exact ⟨hstep.clean hI.1, hstep.fits64 hI.2 (hf.sum c)⟩

theorem toNat_sum_count (ls : List FPCLine) :
    (ls.map FPCLine.count).sum.toNat = events ls % 2 ^ 64 := by
  induction ls with
  | nil => rfl
  | cons l ls ih =>
      rw [List.map_cons, List.sum_cons, UInt64.toNat_add, ih, events_cons, Nat.add_mod_mod]

end Fpc

end CloudProfiler
