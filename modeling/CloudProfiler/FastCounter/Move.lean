import CloudProfiler.FastCounter

/-!
# CloudProfiler.FastCounter.Move

What one step of the fast periodic counter can do, said once.  `Move` lists
the moves, each with the guard it was taken under and the state it leads to;
`step_move` sorts a step into them.  Invariants are proved by cases on the
moves and never unfold the step functions.

Steps of a sampling thread that change nothing but its program counter (and
the time of the next flush) are collected in `Goto`.
-/

namespace CloudProfiler

/-! ## bookkeeping of a closure -/

/-- `k` differs from `cl` in what was logged and booked only. -/
structure FPCClosure.Books (cl k : FPCClosure) : Prop where
  ctr : k.ctr = cl.ctr
  sampledCtr : k.sampledCtr = cl.sampledCtr
  periodicIncNs : k.periodicIncNs = cl.periodicIncNs
  isRefCounted : k.isRefCounted = cl.isRefCounted
  made : k.made = cl.made
  handle : k.handle = cl.handle
  calls : k.calls = cl.calls
  callsAtDelete : k.callsAtDelete = cl.callsAtDelete

namespace FPCClosure

variable (cl : FPCClosure)

theorem books_flushSkipped : cl.Books cl.flushSkipped := by
  unfold flushSkipped
  split <;> constructor <;> rfl

theorem books_logHeader : cl.Books cl.logHeader := by
  unfold logHeader
  split <;> constructor <;> rfl

theorem books_account : cl.Books cl.account := by
  unfold account
  split
  · constructor <;> rfl
  · have h := books_flushSkipped { cl with totalCtr := cl.totalCtr + cl.sampledCtr }
    exact ⟨h.1, h.2, h.3, h.4, h.5, h.6, h.7, h.8⟩

theorem books_bookInsert (now : Timespec) (ev : UInt64) : cl.Books (cl.bookInsert now ev) := by
  constructor <;> rfl

theorem books_bookDelete (now : Timespec) (ev : UInt64) : cl.Books (cl.bookDelete now ev) := by
  have h := books_flushSkipped { cl with totalCtr := cl.totalCtr + ev }
  exact ⟨h.1, h.2, h.3, h.4, h.5, h.6, h.7, h.8⟩

/-- MOVE_CHANNEL sets the period besides. -/
theorem books_bookMove (now : Timespec) (ev p : UInt64) :
    { cl with periodicIncNs := p }.Books (cl.bookMove now ev p) := by
  have h := books_flushSkipped { cl with totalCtr := cl.totalCtr + ev }
  exact ⟨h.1, h.2, rfl, h.4, h.5, h.6, h.7, h.8⟩

end FPCClosure

/-- The call is about to count its channel out. -/
def ApiPc.counts : ApiPc → Bool
  | .countOut | .clear => true
  | _ => false

namespace Fpc

attribute [simp] setCl setThread setDescr fail enterMap

/-- A sampling thread goes on without touching anything shared. -/
inductive Goto (k : ThrDescriptor) : SamplerPc → Prop
  | start (h : k.pc = .start) : Goto k (.sample [] k.closures)
  | sampled (seen : List Nat) (h : k.pc = .sample seen []) : Goto k (.account k.closures)
  | accounted (h : k.pc = .account []) : Goto k .snooze
  | snooze (h : k.pc = .snooze) : Goto k (.jobs k.jQueue.length)
  | noJob (h : k.pc = .jobs 0) : Goto k .terminate
  | remove (h : k.pc = .terminate) : Goto k .remove
  | clock (h : k.pc = .terminate) : Goto k .clock
  | due (h : k.pc = .clock) : Goto k (.sample [] k.closures)
  | notDue (h : k.pc = .clock) : Goto k .snooze

/-- The label starts to close channel `c` by thread `t`. -/
inductive Closes (t c : Nat) : Act → Prop
  | close : Closes t c (.closeChannel t c)
  | refuse (a : Arg) (h : fpcRequest a = .refuse true) : Closes t c (.parameterizeChannel t c a)

/-- An API call begins. -/
inductive CallMove (s : Fpc) : Act → Fpc → Prop
  | openChannel (t c : Nat) (ok : Bool) (hidle : (s.thread t).pc = .idle)
      (hmade : (s.cl c).made = false) : CallMove s (.openChannel t c ok)
      ((s.setCl c .init).setThread t { s.thread t with pc := .openFile ok, ch := c })
  | param (t c : Nat) (a : Arg) (p : UInt64) (hidle : (s.thread t).pc = .idle)
      (hhandle : (s.cl c).handle = true) (hreq : fpcRequest a = .move p) :
      CallMove s (.parameterizeChannel t c a)
      (s.setThread t ⟨.submit, c, ⟨.moveChannel, p, 0⟩⟩)
  | refuse (t c : Nat) (a : Arg) (hreq : fpcRequest a = .refuse false) :
      CallMove s (.parameterizeChannel t c a) s
  | close (t c : Nat) (l : Act) (hl : Closes t c l) (hidle : (s.thread t).pc = .idle)
      (hmade : (s.cl c).made = true ∨ (s.cl c).handle = true)
      (href : (s.cl c).isRefCounted = true) : CallMove s l
      (s.setThread t { s.thread t with pc := .countOut, ch := c })
  | closeAgain (t c : Nat) (l : Act) (hl : Closes t c l) (hidle : (s.thread t).pc = .idle)
      (hmade : (s.cl c).made = true ∨ (s.cl c).handle = true)
      (href : (s.cl c).isRefCounted = false) : CallMove s l
      (s.setThread t { s.thread t with pc := .closing, ch := c })

/-- An API call goes on. -/
inductive ApiMove (s : Fpc) : Act → Fpc → Prop
  | openFailed (t : Nat) (h : (s.thread t).pc = .openFile false) : ApiMove s (.api t)
      (s.setThread t { s.thread t with pc := .idle })
  | opened (t : Nat) (h : (s.thread t).pc = .openFile true) : ApiMove s (.api t)
      { (s.setCl (s.thread t).ch
            { s.cl (s.thread t).ch with base := .opened, isRefCounted := true }).setThread t
          ⟨.submit, (s.thread t).ch, ⟨.insertChannel, -1, 0⟩⟩ with
        nrOpenChannels := s.nrOpenChannels + 1 }
  | submit (t : Nat) (h : (s.thread t).pc = .submit) : ApiMove s (.api t)
      (s.setThread t { s.thread t with pc := .route (s.cl (s.thread t).ch).periodicIncNs })
  | routeFound (t : Nat) (p : UInt64) (d : Nat) (h : (s.thread t).pc = .route p)
      (hmtx : s.mtxThrMap = none) (hd : s.thrMap p = some d) : ApiMove s (.api t)
      ((s.setDescr d { s.descr d with jQueue := (s.descr d).jQueue ++ [t] }).setThread t
        { s.thread t with pc := .wait })
  | routeNew (t : Nat) (p : UInt64) (h : (s.thread t).pc = .route p)
      (hmtx : s.mtxThrMap = none) (hd : s.thrMap p = none)
      (htype : (s.thread t).job.type ≠ .deleteChannel) : ApiMove s (.api t)
      { (s.setDescr s.nrDescr (.new (s.cl (s.thread t).ch).periodicIncNs t)).setThread t
          { s.thread t with pc := .insertMap p s.nrDescr } with
        nrDescr := s.nrDescr + 1
        mtxThrMap := some (.api t) }
  | routeLost (t : Nat) (p : UInt64) (h : (s.thread t).pc = .route p)
      (hmtx : s.mtxThrMap = none) (hd : s.thrMap p = none)
      (htype : (s.thread t).job.type = .deleteChannel) : ApiMove s (.api t)
      ((s.fail (.noThread (s.thread t).ch p)).setThread t { s.thread t with pc := .wait })
  | insertMap (t : Nat) (p : UInt64) (d : Nat) (h : (s.thread t).pc = .insertMap p d) :
      ApiMove s (.api t) ((s.enterMap p d).setThread t { s.thread t with pc := .wait })
  | returned (t : Nat) (h : (s.thread t).pc = .wait) (hsig : (s.thread t).job.signals ≠ 0)
      (htype : (s.thread t).job.type ≠ .deleteChannel) : ApiMove s (.api t)
      ((s.setCl (s.thread t).ch { s.cl (s.thread t).ch with handle := true }).setThread t
        { s.thread t with pc := .idle })
  | deleted (t : Nat) (h : (s.thread t).pc = .wait) (hsig : (s.thread t).job.signals ≠ 0)
      (htype : (s.thread t).job.type = .deleteChannel) : ApiMove s (.api t)
      (s.setThread t { s.thread t with pc := .closing })
  | countOut (t : Nat) (h : (s.thread t).pc = .countOut) : ApiMove s (.api t)
      { s.setThread t { s.thread t with pc := .clear } with
        nrOpenChannels := s.nrOpenChannels - 1 }
  | clear (t : Nat) (h : (s.thread t).pc = .clear) : ApiMove s (.api t)
      ((s.setCl (s.thread t).ch { s.cl (s.thread t).ch with isRefCounted := false }).setThread t
        ⟨.submit, (s.thread t).ch, ⟨.deleteChannel, -1, 0⟩⟩)
  | closing (t : Nat) (h : (s.thread t).pc = .closing) : ApiMove s (.api t)
      ((s.setCl (s.thread t).ch { s.cl (s.thread t).ch with
          base := (s.cl (s.thread t).ch).base.closeChannel }).setThread t
        { s.thread t with pc := .idle })

/-- A sampling thread goes on in its loop. -/
inductive LoopMove (s : Fpc) : Act → Fpc → Prop
  | goto (d : Nat) (now ts : Timespec) (pc : SamplerPc) (hd : d < s.nrDescr)
      (hgo : Goto (s.descr d) pc) : LoopMove s (.sampler d now)
      (s.setDescr d { s.descr d with tsFlush := ts, pc := pc })
  | sample (d : Nat) (now : Timespec) (seen : List Nat) (c : Nat) (rest : List Nat)
      (hd : d < s.nrDescr) (h : (s.descr d).pc = .sample seen (c :: rest)) :
      LoopMove s (.sampler d now)
      ((s.setCl c ((s.cl c).sample now)).setDescr d
        { s.descr d with pc := .sample (seen ++ [c]) rest })
  | account (d : Nat) (now : Timespec) (c : Nat) (rest : List Nat)
      (hd : d < s.nrDescr) (h : (s.descr d).pc = .account (c :: rest)) :
      LoopMove s (.sampler d now)
      ((s.setCl c (s.cl c).account).setDescr d { s.descr d with pc := .account rest })
  | job (d : Nat) (now : Timespec) (left j : Nat) (q : List Nat) (hd : d < s.nrDescr)
      (h : (s.descr d).pc = .jobs (left + 1)) (hq : (s.descr d).jQueue = j :: q) :
      LoopMove s (.sampler d now)
      (s.setDescr d { s.descr d with jQueue := q, pc := .take left j })
  | keep (d : Nat) (now : Timespec) (fs : List FPCFail) (hd : d < s.nrDescr)
      (h : (s.descr d).pc = .remove) (hmtx : s.mtxThrMap = none)
      (hfs : ∀ f ∈ fs, f ∈ s.fails ∨ f = .noDescriptor (s.descr d).periodicIncNs ∨
        f = .remaining (s.descr d).periodicIncNs) : LoopMove s (.sampler d now)
      { s.setDescr d { s.descr d with pc := .clock } with fails := fs }
  | removed (d : Nat) (now : Timespec) (d' : Nat) (hd : d < s.nrDescr)
      (h : (s.descr d).pc = .remove) (hmtx : s.mtxThrMap = none)
      (hd' : s.thrMap (s.descr d).periodicIncNs = some d') (hq : (s.descr d').jQueue = [])
      (hc : (s.descr d').closures = []) : LoopMove s (.sampler d now)
      { s.setDescr d { s.descr d with pc := .done } with
        thrMap := Function.update s.thrMap (s.descr d).periodicIncNs none }

/-- A sampling thread begins with a job. -/
inductive TakeMove (s : Fpc) : Act → Fpc → Prop
  | takeInsert (d : Nat) (now : Timespec) (left j : Nat) (hd : d < s.nrDescr)
      (h : (s.descr d).pc = .take left j) (htype : (s.thread j).job.type = .insertChannel) :
      TakeMove s (.sampler d now)
      ((s.setCl (s.thread j).ch (s.cl (s.thread j).ch).logHeader.exchange).setDescr d
        { s.descr d with pc := .book left j (s.cl (s.thread j).ch).ctr })
  | takeMove (d : Nat) (now : Timespec) (left j : Nat) (hd : d < s.nrDescr)
      (h : (s.descr d).pc = .take left j) (htype : (s.thread j).job.type = .moveChannel)
      (hc : (s.thread j).ch ∈ (s.descr d).closures) : TakeMove s (.sampler d now)
      ((s.setCl (s.thread j).ch (s.cl (s.thread j).ch).exchange).setDescr d
        { s.descr d with
          closures := (s.descr d).closures.erase (s.thread j).ch
          pc := .book left j (s.cl (s.thread j).ch).ctr })
  | takeMissing (d : Nat) (now : Timespec) (left j : Nat) (hd : d < s.nrDescr)
      (h : (s.descr d).pc = .take left j) (htype : (s.thread j).job.type = .moveChannel)
      (hc : (s.thread j).ch ∉ (s.descr d).closures) : TakeMove s (.sampler d now)
      (((s.fail (.notPart (s.thread j).ch .moveChannel (s.descr d).periodicIncNs)).signalCompletion
        j).setDescr d { s.descr d with pc := .jobs left })
  | takeDelete (d : Nat) (now : Timespec) (left j : Nat) (hd : d < s.nrDescr)
      (h : (s.descr d).pc = .take left j) (htype : (s.thread j).job.type = .deleteChannel) :
      TakeMove s (.sampler d now)
      ((s.setCl (s.thread j).ch { (s.cl (s.thread j).ch).exchange with
          callsAtDelete := (s.cl (s.thread j).ch).calls }).setDescr d
        { s.descr d with pc := .book left j (s.cl (s.thread j).ch).ctr })

/-- It books the events it has taken from the counter. -/
inductive BookMove (s : Fpc) : Act → Fpc → Prop
  | bookInsert (d : Nat) (now : Timespec) (left j : Nat) (ev : UInt64) (hd : d < s.nrDescr)
      (h : (s.descr d).pc = .book left j ev) (htype : (s.thread j).job.type = .insertChannel) :
      BookMove s (.sampler d now)
      (((s.setCl (s.thread j).ch ((s.cl (s.thread j).ch).bookInsert now ev)).signalCompletion
        j).setDescr d { (s.descr d).insert (s.thread j).ch with pc := .jobs left })
  | bookMove (d : Nat) (now : Timespec) (left j : Nat) (ev : UInt64) (hd : d < s.nrDescr)
      (h : (s.descr d).pc = .book left j ev) (htype : (s.thread j).job.type = .moveChannel) :
      BookMove s (.sampler d now)
      (((s.setCl (s.thread j).ch ((s.cl (s.thread j).ch).bookMove now ev
          (s.thread j).job.curPeriodicIncNs)).setThread j { s.thread j with
            job := { (s.thread j).job with type := .insertChannel, curPeriodicIncNs := -1 } }).setDescr
        d { s.descr d with pc := .submit left j })
  | bookDelete (d : Nat) (now : Timespec) (left j : Nat) (ev : UInt64) (hd : d < s.nrDescr)
      (h : (s.descr d).pc = .book left j ev) (htype : (s.thread j).job.type = .deleteChannel)
      (hc : (s.thread j).ch ∈ (s.descr d).closures) : BookMove s (.sampler d now)
      (((s.setCl (s.thread j).ch ((s.cl (s.thread j).ch).bookDelete now ev)).signalCompletion
        j).setDescr d { s.descr d with
          closures := (s.descr d).closures.erase (s.thread j).ch
          pc := .jobs left })
  | bookDeleteMissing (d : Nat) (now : Timespec) (left j : Nat) (ev : UInt64) (hd : d < s.nrDescr)
      (h : (s.descr d).pc = .book left j ev) (htype : (s.thread j).job.type = .deleteChannel)
      (hc : (s.thread j).ch ∉ (s.descr d).closures) : BookMove s (.sampler d now)
      ((((s.setCl (s.thread j).ch ((s.cl (s.thread j).ch).bookDelete now ev)).fail
        (.notPart (s.thread j).ch .deleteChannel (s.descr d).periodicIncNs)).signalCompletion
        j).setDescr d { s.descr d with pc := .jobs left })

/-- It passes the job on to another sampling thread. -/
inductive PassMove (s : Fpc) : Act → Fpc → Prop
  | passOn (d : Nat) (now : Timespec) (left j : Nat) (hd : d < s.nrDescr)
      (h : (s.descr d).pc = .submit left j) : PassMove s (.sampler d now)
      (s.setDescr d { s.descr d with
        pc := .route left j (s.cl (s.thread j).ch).periodicIncNs })
  | passFound (d : Nat) (now : Timespec) (left j : Nat) (p : UInt64) (d' : Nat)
      (hd : d < s.nrDescr) (h : (s.descr d).pc = .route left j p)
      (hmtx : s.mtxThrMap = none) (hd' : s.thrMap p = some d') (hne : d' ≠ d) :
      PassMove s (.sampler d now)
      ((s.setDescr d' { s.descr d' with jQueue := (s.descr d').jQueue ++ [j] }).setDescr d
        { s.descr d with pc := .jobs left })
  | passSelf (d : Nat) (now : Timespec) (left j : Nat) (p : UInt64)
      (hd : d < s.nrDescr) (h : (s.descr d).pc = .route left j p)
      (hmtx : s.mtxThrMap = none) (hd' : s.thrMap p = some d) :
      PassMove s (.sampler d now)
      (s.setDescr d { s.descr d with jQueue := (s.descr d).jQueue ++ [j], pc := .jobs left })
  | passNew (d : Nat) (now : Timespec) (left j : Nat) (p : UInt64)
      (hd : d < s.nrDescr) (h : (s.descr d).pc = .route left j p)
      (hmtx : s.mtxThrMap = none) (hd' : s.thrMap p = none) : PassMove s (.sampler d now)
      { (s.setDescr s.nrDescr (.new (s.cl (s.thread j).ch).periodicIncNs j)).setDescr d
          { s.descr d with pc := .insertMap left p s.nrDescr } with
        nrDescr := s.nrDescr + 1
        mtxThrMap := some (.sampler d) }
  | passMap (d : Nat) (now : Timespec) (left : Nat) (p : UInt64) (d' : Nat)
      (hd : d < s.nrDescr) (h : (s.descr d).pc = .insertMap left p d') : PassMove s (.sampler d now)
      ((s.enterMap p d').setDescr d { s.descr d with pc := .jobs left })

/-- The moves, by who makes them. -/
inductive Move (s : Fpc) : Act → Fpc → Prop
  | call {l : Act} {s' : Fpc} (h : CallMove s l s') : Move s l s'
  | api {l : Act} {s' : Fpc} (h : ApiMove s l s') : Move s l s'
  | handler (c : Nat) (hmade : (s.cl c).made = true) : Move s (.handler c)
      (s.setCl c (s.cl c).handler)
  | loop {l : Act} {s' : Fpc} (h : LoopMove s l s') : Move s l s'
  | take {l : Act} {s' : Fpc} (h : TakeMove s l s') : Move s l s'
  | book {l : Act} {s' : Fpc} (h : BookMove s l s') : Move s l s'
  | pass {l : Act} {s' : Fpc} (h : PassMove s l s') : Move s l s'

/-! ## steps are moves -/

section Step

variable {s s' : Fpc} {t d c : Nat}

theorem startClose_move {l : Act} (hl : Closes t c l) (hidle : (s.thread t).pc = .idle)
    (hmade : (s.cl c).made = true ∨ (s.cl c).handle = true) : CallMove s l (s.startClose t c) := by
  unfold startClose
  split
  · next href => exact .close t c l hl hidle hmade href
  · next href => exact .closeAgain t c l hl hidle hmade (by simpa using href)

theorem parameterizeChannel_move {a : Arg} (h : s.parameterizeChannel t c a = some s') :
    CallMove s (.parameterizeChannel t c a) s' := by
  unfold parameterizeChannel at h
  split at h
  · next hg =>
    have hidle : (s.thread t).pc = .idle := by simpa [isIdle] using hg.1
    split at h
    · next p hreq => cases h; exact .param t c a p hidle hg.2 hreq
    · next hreq => cases h; exact startClose_move (.refuse a hreq) hidle (.inr hg.2)
    · next hreq => cases h; exact .refuse t c a hreq
  · contradiction

theorem api_move (h : s.api t = some s') : ApiMove s (.api t) s' := by
  unfold api at h
  cases hpc : (s.thread t).pc with
  | idle => simp [hpc] at h
  | openFile ok =>
      cases ok with
      | false =>
          simp only [hpc, Option.some.injEq] at h
          subst h
          exact .openFailed t hpc
      | true =>
          simp only [hpc, Option.some.injEq] at h
          subst h
          exact .opened t hpc
  | submit =>
      simp only [hpc, Option.some.injEq] at h
      subst h
      exact .submit t hpc
  | route p =>
      simp only [hpc] at h
      split at h
      · next htype =>
        unfold dequeueJobFromThrDescriptor at h
        split at h
        · simp at h
        · next hmtx =>
          rw [Option.not_isSome_iff_eq_none] at hmtx
          split at h
          · next d hd =>
            simp only [Option.map_some, Option.some.injEq] at h
            subst h
            exact .routeFound t p d hpc hmtx hd
          · next hd =>
            simp only [Option.map_some, Option.some.injEq] at h
            subst h
            exact .routeLost t p hpc hmtx hd htype
      · next htype =>
        unfold enqueueJobWithThrDescriptor at h
        split at h
        · simp at h
        · next hmtx =>
          rw [Option.not_isSome_iff_eq_none] at hmtx
          split at h
          · next d hd =>
            simp only [Option.map_some, Option.some.injEq] at h
            subst h
            exact .routeFound t p d hpc hmtx hd
          · next hd =>
            simp only [Option.map_some, Option.some.injEq] at h
            subst h
            exact .routeNew t p hpc hmtx hd htype
  | insertMap p d =>
      simp only [hpc, Option.some.injEq] at h
      subst h
      exact .insertMap t p d hpc
  | wait =>
      simp only [hpc] at h
      split at h
      · contradiction
      · next hsig =>
        split at h
        · next htype =>
          simp only [Option.some.injEq] at h
          subst h
          exact .deleted t hpc hsig htype
        · next htype =>
          simp only [Option.some.injEq] at h
          subst h
          exact .returned t hpc hsig htype
  | countOut =>
      simp only [hpc, Option.some.injEq] at h
      subst h
      exact .countOut t hpc
  | clear =>
      simp only [hpc, Option.some.injEq] at h
      subst h
      exact .clear t hpc
  | closing =>
      simp only [hpc, Option.some.injEq] at h
      subst h
      exact .closing t hpc

theorem takeJob_move {left j : Nat} {now : Timespec} (hd : d < s.nrDescr)
    (hpc : (s.descr d).pc = .take left j) : TakeMove s (.sampler d now) (s.takeJob d left j) := by
  unfold takeJob
  cases htype : (s.thread j).job.type with
  | insertChannel => exact .takeInsert d now left j hd hpc htype
  | moveChannel =>
      dsimp only
      split
      · next hc =>
        have := TakeMove.takeMove d now left j hd hpc htype hc
        simpa [dequeueChannel, hc, Function.update_idem] using this
      · next hc =>
        have := TakeMove.takeMissing d now left j hd hpc htype hc
        simpa [dequeueChannel, hc, signalCompletion] using this
  | deleteChannel => exact .takeDelete d now left j hd hpc htype

theorem bookJob_move {left j : Nat} {ev : UInt64} {now : Timespec} (hd : d < s.nrDescr)
    (hpc : (s.descr d).pc = .book left j ev) :
    BookMove s (.sampler d now) (s.bookJob d left j ev now) := by
  unfold bookJob
  cases htype : (s.thread j).job.type with
  | insertChannel =>
      have := BookMove.bookInsert d now left j ev hd hpc htype
      simpa [signalCompletion, Function.update_idem, htype] using this
  | moveChannel => exact .bookMove d now left j ev hd hpc htype
  | deleteChannel =>
      by_cases hc : (s.thread j).ch ∈ (s.descr d).closures
      · have := BookMove.bookDelete d now left j ev hd hpc htype hc
        simpa [dequeueChannel, hc, signalCompletion, Function.update_idem, htype] using this
      · have := BookMove.bookDeleteMissing d now left j ev hd hpc htype hc
        simpa [dequeueChannel, hc, signalCompletion, htype] using this

theorem sampler_move {now : Timespec} (hd : d < s.nrDescr) (h : s.sampler d now = some s') :
    Move s (.sampler d now) s' := by
  unfold sampler at h
  cases hpc : (s.descr d).pc with
  | start =>
      simp only [hpc, Option.some.injEq] at h
      subst h
      exact .loop (.goto d now _ _ hd (.start hpc))
  | sample seen rest =>
      cases rest with
      | nil =>
          simp only [hpc, Option.some.injEq] at h
          subst h
          exact .loop (.goto d now _ _ hd (.sampled seen hpc))
      | cons c rest =>
          simp only [hpc, Option.some.injEq] at h
          subst h
          exact .loop (.sample d now seen c rest hd hpc)
  | account rest =>
      cases rest with
      | nil =>
          simp only [hpc, Option.some.injEq] at h
          subst h
          exact .loop (.goto d now _ _ hd (.accounted hpc))
      | cons c rest =>
          simp only [hpc, Option.some.injEq] at h
          subst h
          exact .loop (.account d now c rest hd hpc)
  | snooze =>
      simp only [hpc, Option.some.injEq] at h
      subst h
      exact .loop (.goto d now _ _ hd (.snooze hpc))
  | jobs left =>
      cases left with
      | zero =>
          simp only [hpc, Option.some.injEq] at h
          subst h
          exact .loop (.goto d now _ _ hd (.noJob hpc))
      | succ left =>
          simp only [hpc] at h
          split at h
          · contradiction
          · next j q hq =>
            simp only [Option.some.injEq] at h
            subst h
            exact .loop (.job d now left j q hd hpc hq)
  | take left j =>
      simp only [hpc, Option.some.injEq] at h
      subst h
      exact .take (takeJob_move hd hpc)
  | book left j ev =>
      simp only [hpc, Option.some.injEq] at h
      subst h
      exact .book (bookJob_move hd hpc)
  | submit left j =>
      simp only [hpc, Option.some.injEq] at h
      subst h
      exact .pass (.passOn d now left j hd hpc)
  | route left j p =>
      simp only [hpc] at h
      unfold enqueueJobWithThrDescriptor at h
      split at h
      · simp at h
      · next hmtx =>
        rw [Option.not_isSome_iff_eq_none] at hmtx
        split at h
        · next d' hd' =>
          simp only [Option.map_some, Option.some.injEq] at h
          subst h
          by_cases hne : d' = d
          · subst hne
            have := PassMove.passSelf d' now left j p hd hpc hmtx hd'
            simpa [Function.update_idem] using Move.pass this
          · have := PassMove.passFound d now left j p d' hd hpc hmtx hd' hne
            simpa [Function.update_of_ne (Ne.symm hne)] using Move.pass this
        · next hd' =>
          simp only [Option.map_some, Option.some.injEq] at h
          subst h
          have := PassMove.passNew d now left j p hd hpc hmtx hd'
          simpa [Function.update_of_ne (Nat.ne_of_lt hd)] using Move.pass this
  | insertMap left p d' =>
      simp only [hpc, Option.some.injEq] at h
      subst h
      exact .pass (.passMap d now left p d' hd hpc)
  | terminate =>
      simp only [hpc, Option.some.injEq] at h
      subst h
      split
      · exact .loop (.goto d now _ _ hd (.remove hpc))
      · exact .loop (.goto d now _ _ hd (.clock hpc))
  | remove =>
      simp only [hpc] at h
      unfold removeThrDescriptor at h
      split at h
      · simp at h
      · next hmtx =>
        rw [Option.not_isSome_iff_eq_none] at hmtx
        split at h
        · simp only [Option.map_some, Option.some.injEq] at h
          subst h
          exact .loop (.keep d now _ hd hpc hmtx fun f hf => by
            obtain hf | hf := List.mem_append.mp hf
            · exact .inl hf
            · exact .inr (.inl (by simpa using hf)))
        · next d' hd' =>
          split at h
          · simp only [Option.map_some, Option.some.injEq] at h
            subst h
            exact .loop (.keep d now s.fails hd hpc hmtx fun f hf => .inl hf)
          · next hq =>
            split at h
            · simp only [Option.map_some, Option.some.injEq] at h
              subst h
              exact .loop (.keep d now _ hd hpc hmtx fun f hf => by
                obtain hf | hf := List.mem_append.mp hf
                · exact .inl hf
                · exact .inr (.inr (by simpa using hf)))
            · next hc =>
              simp only [Option.map_some, Option.some.injEq] at h
              subst h
              exact .loop (.removed d now d' hd hpc hmtx hd' (by simpa using hq) (by simpa using hc))
  | clock =>
      simp only [hpc] at h
      split at h
      · simp only [Option.some.injEq] at h
        subst h
        exact .loop (.goto d now _ _ hd (.due hpc))
      · simp only [Option.some.injEq] at h
        subst h
        exact .loop (.goto d now _ _ hd (.notDue hpc))
  | done => simp [hpc] at h

/-- **Every step is one of the moves.** -/
theorem step_move {l : Act} (h : s.step l = some s') : Move s l s' := by
  cases l with
  | openChannel t c ok =>
      simp only [step, openChannel] at h
      split at h
      · next hg =>
        cases h
        exact .call (.openChannel t c ok (by simpa [isIdle] using hg.1) (by simpa using hg.2))
      · contradiction
  | parameterizeChannel t c a => exact .call (parameterizeChannel_move h)
  | closeChannel t c =>
      simp only [step, closeChannel] at h
      split at h
      · next hg =>
        cases h
        exact .call (startClose_move .close (by simpa [isIdle] using hg.1) (.inl hg.2))
      · contradiction
  | api t => exact .api (api_move h)
  | handler c =>
      simp only [step] at h
      split at h
      · next hmade => cases h; exact .handler c hmade
      · contradiction
  | sampler d now =>
      simp only [step] at h
      split at h
      · next hd => exact sampler_move hd h
      · contradiction

/-- The thread of the application that takes the step. -/
def Act.thread : Act → Option Nat
  | .openChannel t _ _ | .parameterizeChannel t _ _ | .closeChannel t _ | .api t => some t
  | .handler _ | .sampler _ _ => none

theorem Closes.thread {l : Act} (h : Closes t c l) : l.thread = some t := by
  cases h <;> rfl

/-- A sampling thread changes the job of a thread and nothing else of it. -/
theorem Move.thread_eq {l : Act} (hs : Move s l s') (ht : l.thread ≠ some t) :
    (s'.thread t).pc = (s.thread t).pc ∧ (s'.thread t).ch = (s.thread t).ch := by
  cases hs with
  | call hs =>
      cases hs with
      | close t' c' l' hl | closeAgain t' c' l' hl =>
          rw [hl.thread] at ht
          have hne : t ≠ t' := fun h => ht (by rw [h])
          simp [hne]
      | openChannel t' | param t' =>
          have hne : t ≠ t' := fun h => ht (by rw [h]; rfl)
          simp [hne]
      | _ => exact ⟨rfl, rfl⟩
  | api hs =>
      cases hs with
      | openFailed t' | opened t' | submit t' | routeFound t' | routeNew t' | routeLost t'
      | insertMap t' | returned t' | deleted t' | countOut t' | clear t' | closing t' =>
          have hne : t ≠ t' := fun h => ht (by rw [h]; rfl)
          simp [hne]
  | handler => exact ⟨rfl, rfl⟩
  | loop hs | pass hs => cases hs <;> exact ⟨rfl, rfl⟩
  | take hs =>
      cases hs with
      | takeMissing d' now left j =>
          by_cases hne : t = j
          · subst hne; simp [signalCompletion]
          · simp [hne, signalCompletion]
      | _ => exact ⟨rfl, rfl⟩
  | book hs =>
      cases hs with
      | bookInsert d' now left j | bookMove d' now left j | bookDelete d' now left j
      | bookDeleteMissing d' now left j =>
          by_cases hne : t = j
          · subst hne; simp [signalCompletion]
          · simp [hne, signalCompletion]

theorem Move.pc_eq {l : Act} (hs : Move s l s') (ht : l.thread ≠ some t) :
    (s'.thread t).pc = (s.thread t).pc := (hs.thread_eq ht).1

/-- What others do to a sampling thread: they put jobs into its queue. -/
theorem Move.descr_frame {l : Act} (hs : Move s l s') (hd : d < s.nrDescr)
    (hl : ∀ now, l ≠ .sampler d now) :
    ∃ q, s'.descr d = { s.descr d with jQueue := (s.descr d).jQueue ++ q } := by
  have hnew : d ≠ s.nrDescr := by omega
  have hne : ∀ {d' now}, l = .sampler d' now → d ≠ d' := by
    rintro d' now rfl rfl
    exact hl now rfl
  cases hs with
  | call hs => cases hs <;> exact ⟨[], by simp⟩
  | api hs =>
      cases hs with
      | routeFound t p d' =>
          by_cases he : d = d'
          · exact ⟨[t], by simp [he]⟩
          · exact ⟨[], by simp [he]⟩
      | routeNew t p => exact ⟨[], by simp [hnew]⟩
      | _ => exact ⟨[], by simp⟩
  | handler => exact ⟨[], by simp⟩
  | loop hs =>
      cases hs with
      | goto d' now | sample d' now | account d' now | job d' now | keep d' now | removed d' now =>
          exact ⟨[], by simp [hne rfl]⟩
  | take hs =>
      cases hs with
      | takeInsert d' now | takeMove d' now | takeDelete d' now =>
          exact ⟨[], by simp [hne rfl]⟩
      | takeMissing d' now => exact ⟨[], by simp [hne rfl, signalCompletion]⟩
  | book hs =>
      cases hs with
      | bookInsert d' now | bookMove d' now | bookDelete d' now | bookDeleteMissing d' now =>
          exact ⟨[], by simp [hne rfl, signalCompletion]⟩
  | pass hs =>
      cases hs with
      | passFound d' now left j p d₁ =>
          by_cases he : d = d₁
          · exact ⟨[j], by simp [he ▸ hne rfl, he]⟩
          · exact ⟨[], by simp [he, hne rfl]⟩
      | passNew d' now left j p => exact ⟨[], by simp [hnew, hne rfl]⟩
      | passOn d' now | passSelf d' now | passMap d' now =>
          exact ⟨[], by simp [hne rfl]⟩

/-- A sampling thread that does not take the step stays where it is. -/
theorem Move.sampler_pc_eq {l : Act} (hs : Move s l s') (hd : d < s.nrDescr)
    (hl : ∀ now, l ≠ .sampler d now) : (s'.descr d).pc = (s.descr d).pc := by
  obtain ⟨q, hq⟩ := hs.descr_frame hd hl
  rw [hq]

theorem Move.nrDescr_le {l : Act} (hs : Move s l s') : s.nrDescr ≤ s'.nrDescr := by
  cases hs with
  | call hs | loop hs | take hs | book hs => cases hs <;> exact Nat.le_refl _
  | api hs =>
      cases hs with
      | routeNew => exact Nat.le_succ _
      | _ => exact Nat.le_refl _
  | handler => exact Nat.le_refl _
  | pass hs =>
      cases hs with
      | passNew => exact Nat.le_succ _
      | _ => exact Nat.le_refl _

/-- A new sampling thread is at its start. -/
theorem Move.new_pc {l : Act} (hs : Move s l s') (hd : ¬ d < s.nrDescr) (hd' : d < s'.nrDescr) :
    (s'.descr d).pc = .start := by
  cases hs with
  | call hs | loop hs | take hs | book hs => cases hs <;> exact absurd hd' hd
  | api hs =>
      cases hs with
      | routeNew t p =>
          obtain rfl : d = s.nrDescr := by
            simp only at hd'
            omega
          simp [ThrDescriptor.new]
      | _ => exact absurd hd' hd
  | handler => exact absurd hd' hd
  | pass hs =>
      cases hs with
      | passNew d₀ now left j p hd₀ =>
          obtain rfl : d = s.nrDescr := by
            simp only at hd'
            omega
          simp [ThrDescriptor.new, (Nat.ne_of_lt hd₀).symm]
      | _ => exact absurd hd' hd

/-- What a step does to the flags and to `nr_open_channels`. -/
inductive CountMove (s : Fpc) (l : Act) (s' : Fpc) : Prop
  | opens (t c : Nat) (ok : Bool) (hl : l = .openChannel t c ok) (hidle : (s.thread t).pc = .idle)
      (hmade : (s.cl c).made = false)
      (hs' : s' = (s.setCl c .init).setThread t { s.thread t with pc := .openFile ok, ch := c })
  | opened (t : Nat) (hl : l = .api t) (hpc : (s.thread t).pc = .openFile true)
      (hs' : s' = { (s.setCl (s.thread t).ch
          { s.cl (s.thread t).ch with base := .opened, isRefCounted := true }).setThread t
          ⟨.submit, (s.thread t).ch, ⟨.insertChannel, -1, 0⟩⟩ with
        nrOpenChannels := s.nrOpenChannels + 1 })
  | found (t c : Nat) (hl : Closes t c l) (hidle : (s.thread t).pc = .idle)
      (href : (s.cl c).isRefCounted = true)
      (hs' : s' = s.setThread t { s.thread t with pc := .countOut, ch := c })
  | countOut (t : Nat) (hl : l = .api t) (hpc : (s.thread t).pc = .countOut)
      (hs' : s' = { s.setThread t { s.thread t with pc := .clear } with
        nrOpenChannels := s.nrOpenChannels - 1 })
  | clear (t : Nat) (hl : l = .api t) (hpc : (s.thread t).pc = .clear)
      (hs' : s' = (s.setCl (s.thread t).ch
          { s.cl (s.thread t).ch with isRefCounted := false }).setThread t
        ⟨.submit, (s.thread t).ch, ⟨.deleteChannel, -1, 0⟩⟩)
  | same (hno : ∀ t c ok, l ≠ .openChannel t c ok) (hnr : s'.nrOpenChannels = s.nrOpenChannels)
      (hcl : ∀ c, (s'.cl c).made = (s.cl c).made ∧ (s'.cl c).isRefCounted = (s.cl c).isRefCounted)
      (hthread : ∀ t, (s.thread t).pc.counts = true ∨ (s'.thread t).pc.counts = true →
        (s'.thread t).pc = (s.thread t).pc ∧ (s'.thread t).ch = (s.thread t).ch)

/-- A closure that is logged to keeps its flag. -/
theorem flags_setCl {c₀ : Nat} {k : FPCClosure} (hmade : k.made = (s.cl c₀).made)
    (href : k.isRefCounted = (s.cl c₀).isRefCounted) (c : Nat) :
    (Function.update s.cl c₀ k c).made = (s.cl c).made ∧
      (Function.update s.cl c₀ k c).isRefCounted = (s.cl c).isRefCounted := by
  by_cases hc : c = c₀
  · subst hc
    simp [hmade, href]
  · simp [hc]

theorem ApiMove.countMove {l : Act} (hs : ApiMove s l s') : CountMove s l s' := by
  have hthread : (∀ t, l = .api t → (s.thread t).pc.counts = false ∧
      (s'.thread t).pc.counts = false) → ∀ t, (s.thread t).pc.counts = true ∨
      (s'.thread t).pc.counts = true →
      (s'.thread t).pc = (s.thread t).pc ∧ (s'.thread t).ch = (s.thread t).ch := by
    intro hown t hc
    by_cases ht : l.thread = some t
    · cases l with
      | api t' =>
          obtain rfl := Option.some.inj ht
          obtain ⟨h1, h2⟩ := hown t' rfl
          simp [h1, h2] at hc
      | _ => cases hs
    · exact (Move.api hs).thread_eq ht
  have hat : ∀ {t t' : Nat}, Act.api t = .api t' → t = t' := fun h => by cases h; rfl
  cases hs with
  | opened t hpc => exact .opened t rfl hpc rfl
  | countOut t hpc => exact .countOut t rfl hpc rfl
  | clear t hpc => exact .clear t rfl hpc rfl
  | returned t hpc | closing t hpc =>
      refine .same nofun rfl (flags_setCl rfl rfl) (hthread fun t' ht' => ?_)
      obtain rfl := hat ht'
      simp [hpc, ApiPc.counts]
  | openFailed t hpc | submit t hpc | routeFound t p d hpc | routeNew t p hpc | routeLost t p hpc
  | insertMap t p d hpc | deleted t hpc =>
      refine .same nofun rfl (fun _ => ⟨rfl, rfl⟩) (hthread fun t' ht' => ?_)
      obtain rfl := hat ht'
      simp [hpc, ApiPc.counts]

theorem CallMove.countMove {l : Act} (hs : CallMove s l s') : CountMove s l s' := by
  cases hs with
  | openChannel t c ok hidle hmade => exact .opens t c ok rfl hidle hmade rfl
  | close t c l hl hidle _ href => exact .found t c hl hidle href rfl
  | refuse t c a => exact .same nofun rfl (fun _ => ⟨rfl, rfl⟩) fun _ _ => ⟨rfl, rfl⟩
  | param t c a p hidle =>
      refine .same nofun rfl (fun _ => ⟨rfl, rfl⟩) fun t' hc => ?_
      by_cases ht : t' = t
      · simp [ht, hidle, ApiPc.counts] at hc
      · simp [ht]
  | closeAgain t c l hl hidle =>
      refine .same (by cases hl <;> exact nofun) rfl (fun _ => ⟨rfl, rfl⟩) fun t' hc => ?_
      by_cases ht : t' = t
      · simp [ht, hidle, ApiPc.counts] at hc
      · simp [ht]

/-- **Channels are counted by the calls that open and close them.** -/
theorem Move.countMove {l : Act} (hs : Move s l s') : CountMove s l s' := by
  have hm := hs
  -- a sampling thread leaves the calls where they are
  have hthread : l.thread = none → ∀ t, (s.thread t).pc.counts = true ∨
      (s'.thread t).pc.counts = true →
      (s'.thread t).pc = (s.thread t).pc ∧ (s'.thread t).ch = (s.thread t).ch :=
    fun hl t _ => hm.thread_eq (by rw [hl]; nofun)
  cases hs with
  | call hs => exact hs.countMove
  | api hs => exact hs.countMove
  | handler => exact .same nofun rfl (flags_setCl rfl rfl) (hthread rfl)
  | loop hs =>
      cases hs with
      | sample => exact .same nofun rfl (flags_setCl rfl rfl) (hthread rfl)
      | account d now c rest =>
          have hk := (s.cl c).books_account
          exact .same nofun rfl (flags_setCl hk.made hk.isRefCounted) (hthread rfl)
      | _ => exact .same nofun rfl (fun _ => ⟨rfl, rfl⟩) (hthread rfl)
  | take hs =>
      cases hs with
      | takeInsert d now left j =>
          have hk := (s.cl (s.thread j).ch).books_logHeader
          exact .same nofun rfl (flags_setCl hk.made hk.isRefCounted) (hthread rfl)
      | takeMissing => exact .same nofun rfl (fun _ => ⟨rfl, rfl⟩) (hthread rfl)
      | takeMove | takeDelete => exact .same nofun rfl (flags_setCl rfl rfl) (hthread rfl)
  | book hs =>
      cases hs with
      | bookInsert d now left j ev =>
          have hk := (s.cl (s.thread j).ch).books_bookInsert now ev
          exact .same nofun rfl (flags_setCl hk.made hk.isRefCounted) (hthread rfl)
      | bookMove d now left j ev =>
          have hk := (s.cl (s.thread j).ch).books_bookMove now ev (s.thread j).job.curPeriodicIncNs
          exact .same nofun rfl (flags_setCl hk.made hk.isRefCounted) (hthread rfl)
      | bookDelete d now left j ev | bookDeleteMissing d now left j ev =>
          have hk := (s.cl (s.thread j).ch).books_bookDelete now ev
          exact .same nofun rfl (flags_setCl hk.made hk.isRefCounted) (hthread rfl)
  | pass hs => cases hs <;> exact .same nofun rfl (fun _ => ⟨rfl, rfl⟩) (hthread rfl)

/-- Threads that take no step are between two calls. -/
theorem reach_idle {ok : Fpc → Act → Prop} {n : Nat}
    (hok : ∀ s l, ok s l → ∀ t, l.thread = some t → t < n) (h : Reach step init ok s)
    (ht : n ≤ t) : (s.thread t).pc = .idle := by
  refine h.invariant (I := fun s => (s.thread t).pc = .idle) rfl ?_
  intro s l s' hidle hl hs
  rw [(step_move hs).pc_eq (fun hlt => absurd (hok s l hl t hlt) (by omega)), hidle]

end Step

end Fpc

end CloudProfiler
