import CloudProfiler.Objects
import CloudProfiler.Run
import CloudProfiler.Time

/-!
# CloudProfiler.ZmqTimer

The timers of the ZMQ channels (`cpp_emit/emit.cpp`).  A channel has a pointer
to a `timer_vars`, which a thread of its own updates until `terminate` is set.
The pointer is null for the channels of `openZMQChannel` and
`openZMQBktOptChannel`; those of `openZMQBucketChannel`, and all channels that
`initTimeoutVars` was called for, get the one object that the global `tm_vars`
points to.  `closeZMQChannel` deletes what the pointer points to.

A channel also has a channel of the profiler, `ch_fpc`, which
`closeZMQChannel` closes last; `openZMQBucketChannel` leaves it null.

The calls come one after the other, each on a channel that is open; the
threads of the timers run beside them.  A use of a pointer that goes wrong
ends the run.  The socket and the context of a channel are left out, and so
is `ch_bid`, which nothing here reads.

* `Safe` — no use of a pointer went wrong, and no timer was deleted twice;
* `OneClose` — the guard: one channel is closed, and it is one with a timer
  and a `ch_fpc`;
* `zmq_timers_safe` — the timers are safe in every run that meets it, and no
  longer safe after the first step that does not.
-/

namespace CloudProfiler

/-- `BKT_TIMER_BUDGET`. -/
def bktTimerBudget : Int64 := 1000 * 1000 / 10

/-- `struct timer_vars`; its thread is deleted with it. -/
structure TimerVars where
  elapsedIntervals : UInt64
  terminate : Bool
  terminated : Bool
  deriving DecidableEq, Repr

/-- The functions that the threads run, with the local variable of the
second. -/
inductive TimerFn
  | timerFn
  | timerOptFn (budgetEnd : Timespec)
  deriving DecidableEq, Repr

/-- Where the thread of a timer is. -/
inductive TimerPc
  | start
  /-- at `while (!tm->terminate)` -/
  | test
  | work
  | stop
  | done
  deriving DecidableEq, Repr

/-- The thread of a timer. -/
structure TimerThread where
  tm : Nat
  fn : TimerFn
  pc : TimerPc
  deriving DecidableEq, Repr

/-- `struct zmq_vars`; `chFpc` is the handle that `openChannel` returned. -/
structure ZmqVars where
  tmVars : Option Nat
  tmoVars : Option Nat
  svAddress : String
  chFpc : Option Nat
  deriving DecidableEq, Repr

/-- Where the caller of the functions is. -/
inductive Caller
  | ready
  /-- at `while (!tm->terminated)` of `closeZMQChannel` -/
  | closes (ch tm : Nat)
  deriving DecidableEq, Repr

/-- The channels and the timers; `timeouts` are the arrays of `timeout_vars`,
and `nrFpc` counts the channels of the profiler that were opened. -/
structure Zmq where
  timers : Objects TimerVars
  threads : List TimerThread
  timeouts : List (List UInt64)
  channels : Objects ZmqVars
  nrFpc : Nat
  tmVars : Option Nat
  tmoVars : Option Nat
  caller : Caller
  elapsed : UInt64
  exited : Bool
  fault : Option Fault

namespace Zmq

/-- No channel was opened yet. -/
def init : Zmq where
  timers := []
  threads := []
  timeouts := []
  channels := []
  nrFpc := 0
  tmVars := none
  tmoVars := none
  caller := .ready
  elapsed := 0
  exited := false
  fault := none

/-- A new `timer_vars` with its thread. -/
def newTimer (s : Zmq) (fn : TimerFn) : Zmq :=
  { s with
    timers := s.timers.new ⟨0, false, false⟩
    threads := s.threads ++ [⟨s.timers.length, fn, .start⟩]
    tmVars := some s.timers.length }

/-- A new `zmq_vars`. -/
def newChannel (s : Zmq) (zVars : ZmqVars) : Zmq := { s with channels := s.channels.new zVars }

/-- A new `zmq_vars` without a timer, and its `ch_fpc`: `openChannel` returns
the address of a closure, of a defect one when it fails. -/
def newFpcChannel (s : Zmq) (address : String) : Zmq :=
  { s with nrFpc := s.nrFpc + 1 }.newChannel ⟨none, none, address, some s.nrFpc⟩

def openZMQChannel (s : Zmq) (address : String) : Zmq := s.newFpcChannel address

/-- `openZMQBucketChannel`; `new zmq_vars()` sets `ch_fpc` to zero, and
nothing else does. -/
def openZMQBucketChannel (s : Zmq) (address : String) : Zmq :=
  let s' := if s.tmVars = none then s.newTimer .timerFn else s
  s'.newChannel ⟨s'.tmVars, none, address, none⟩

/-- `openZMQBktOptChannel`; `new zmq_vars()` sets the pointers to null. -/
def openZMQBktOptChannel (s : Zmq) (address : String) : Zmq := s.newFpcChannel address

/-- `initTimeoutVars`; `allocated` is what `aligned_alloc` does, and `now` the
time read. -/
def initTimeoutVars (s : Zmq) (ch : Nat) (nrThreads : Int64) (allocated : Bool) (now : Timespec) :
    Except Fault Zmq :=
  if s.tmVars = none ∧ s.tmoVars = none ∧ allocated = false then .ok { s with exited := true }
  else
    let s' := if s.tmVars = none ∧ s.tmoVars = none then
        { s.newTimer (.timerOptFn now) with
          timeouts := s.timeouts ++ [List.replicate nrThreads.toInt.toNat 1]
          tmoVars := some s.timeouts.length }
      else s
    (s'.channels.modify (some ch) fun zVars =>
      { zVars with tmVars := s'.tmVars, tmoVars := s'.tmoVars }).map
      fun channels => { s' with channels := channels }

def elapsedIntervals (s : Zmq) (ch : Nat) : Except Fault Zmq := do
  let zVars ← s.channels.read (some ch)
  match zVars.tmVars with
  | some tm =>
      let tv ← s.timers.read (some tm)
      return { s with elapsed := tv.elapsedIntervals }
  | none => return { s with elapsed := 0 }

/-- `closeChannel(z_vars->ch_fpc)`, a virtual call on the closure. -/
def closeFpc : Option Nat → Except Fault Unit
  | none => .error .nullPointer
  | some _ => .ok ()

/-- `closeZMQChannel` from `delete tm->timer_thr` on. -/
def deleteChannel (s : Zmq) (ch : Nat) (tm : Option Nat) : Except Fault Zmq := do
  let _ ← s.timers.read tm
  let timers ← s.timers.delete tm
  let zVars ← s.channels.read (some ch)
  closeFpc zVars.chFpc
  let channels ← s.channels.delete (some ch)
  return { s with timers, channels, caller := .ready }

/-- `closeZMQChannel` up to the loop, which a null pointer skips. -/
def closeZMQChannel (s : Zmq) (ch : Nat) : Except Fault Zmq := do
  let zVars ← s.channels.read (some ch)
  match zVars.tmVars with
  | some tm =>
      let timers ← s.timers.modify (some tm) fun tv => { tv with terminate := true }
      return { s with timers, caller := .closes ch tm }
  | none => s.deleteChannel ch none

/-- `while (!tm->terminated)`. -/
def wait (s : Zmq) (ch tm : Nat) : Except Fault Zmq := do
  let tv ← s.timers.read (some tm)
  if tv.terminated then s.deleteChannel ch (some tm) else return s

/-- The thread goes on with `th`. -/
def goto (s : Zmq) (i : Nat) (th : TimerThread) : Zmq := { s with threads := s.threads.set i th }

/-- An assignment of the thread to a field of its timer, and where it goes on. -/
def assign (s : Zmq) (i : Nat) (th : TimerThread) (f : TimerVars → TimerVars) : Except Fault Zmq :=
  (s.timers.modify (some th.tm) f).map fun timers => { s.goto i th with timers := timers }

/-- A step of `timer_fn` or `timer_opt_fn`; `now` is the time read. -/
def timerStep (s : Zmq) (i : Nat) (th : TimerThread) (now : Timespec) : Except Fault Zmq :=
  match th.pc with
  | .start =>
      let fn := match th.fn with
        | .timerFn => .timerFn
        | .timerOptFn start => .timerOptFn (addTS start start ⟨0, bktTimerBudget, 0, 0, 0⟩)
      s.assign i { th with fn, pc := .test } fun tv => { tv with terminated := false }
  | .test =>
      (s.timers.read (some th.tm)).map fun tv =>
        s.goto i { th with pc := if tv.terminate then .stop else .work }
  | .work =>
      match th.fn with
      | .timerFn =>
          s.assign i { th with pc := .test } fun tv => { tv with elapsedIntervals := now.elapsedNs }
      | .timerOptFn budgetEnd =>
          if compareTS now budgetEnd < 0 then .ok s
          else
            s.assign i
              { th with
                fn := .timerOptFn (addTS budgetEnd budgetEnd ⟨0, bktTimerBudget, 0, 0, 0⟩)
                pc := .test }
              fun tv => { tv with elapsedIntervals := tv.elapsedIntervals + 1 }
  | .stop => s.assign i { th with pc := .done } fun tv => { tv with terminated := true }
  | .done => .ok s

/-- What happens next. -/
inductive Act
  | openZMQChannel (address : String)
  | openZMQBucketChannel (address : String)
  | openZMQBktOptChannel (address : String)
  | initTimeoutVars (ch : Nat) (nrThreads : Int64) (allocated : Bool) (now : Timespec)
  | elapsedIntervals (ch : Nat)
  | closeZMQChannel (ch : Nat)
  | wait
  | timer (i : Nat) (now : Timespec)

/-- The channel is open. -/
def isOpen (s : Zmq) (ch : Nat) : Bool := s.channels[ch]?.any (·.deletes = 0)

/-- What the next step does, if it can be taken. -/
def next (s : Zmq) : Act → Option (Except Fault Zmq)
  | .openZMQChannel address =>
      if s.caller = .ready then some (.ok (s.openZMQChannel address)) else none
  | .openZMQBucketChannel address =>
      if s.caller = .ready then some (.ok (s.openZMQBucketChannel address)) else none
  | .openZMQBktOptChannel address =>
      if s.caller = .ready then some (.ok (s.openZMQBktOptChannel address)) else none
  | .initTimeoutVars ch nrThreads allocated now =>
      if s.caller = .ready ∧ s.isOpen ch = true then
        some (s.initTimeoutVars ch nrThreads allocated now)
      else none
  | .elapsedIntervals ch =>
      if s.caller = .ready ∧ s.isOpen ch = true then some (s.elapsedIntervals ch) else none
  | .closeZMQChannel ch =>
      if s.caller = .ready ∧ s.isOpen ch = true then some (s.closeZMQChannel ch) else none
  | .wait =>
      match s.caller with
      | .ready => none
      | .closes ch tm => some (s.wait ch tm)
  | .timer i now => s.threads[i]?.map fun th => s.timerStep i th now

/-- One step; nothing happens after a use of a pointer that went wrong. -/
def step (s : Zmq) (l : Act) : Option Zmq :=
  if s.fault = none ∧ s.exited = false then
    (s.next l).map fun r =>
      match r with
      | .ok s' => s'
      | .error f => { s with fault := some f }
  else none

/-- A channel was closed. -/
def anyClosed (s : Zmq) : Bool := s.channels.any (·.deletes ≠ 0)

/-- The channel has a timer. -/
def hasTimer (s : Zmq) (ch : Nat) : Bool := s.channels[ch]?.any (·.val.tmVars.isSome)

/-- The channel has a `ch_fpc`. -/
def hasFpc (s : Zmq) (ch : Nat) : Bool := s.channels[ch]?.any (·.val.chFpc.isSome)

/-- The thread of the timer that `closeZMQChannel` waits for has ended; the
value is the channel that is closed. -/
def waited (s : Zmq) : Option Nat :=
  match s.caller with
  | .ready => none
  | .closes ch tm => if s.timers[tm]?.any (·.val.terminated) then some ch else none

/-- The guard: a channel is closed only if it has a timer and none was closed
before, its close comes to an end only if it has a `ch_fpc`, and from then on
no timer is read. -/
def OneClose (s : Zmq) : Act → Prop
  | .closeZMQChannel ch => s.hasTimer ch = true ∧ s.anyClosed = false
  | .wait => ∀ ch ∈ s.waited, s.hasFpc ch = true
  | .elapsedIntervals ch => s.hasTimer ch = false ∨ s.anyClosed = false
  | _ => True

instance : DecidableRel OneClose := fun s l => by
  unfold OneClose
  cases l <;> infer_instance

/-! ## one timer, deleted once -/

/-- There is at most one timer, every pointer points to it, and it is in use
until a channel is closed. -/
structure Good (s : Zmq) : Prop where
  fault : s.fault = none
  one : s.timers.length ≤ 1
  created : s.tmVars = none → s.timers = []
  global : ∀ tm, s.tmVars = some tm → tm < s.timers.length
  pointers : ∀ c ∈ s.channels, ∀ tm, c.val.tmVars = some tm → tm < s.timers.length
  deletes : ∀ c ∈ s.timers, c.deletes = s.anyClosed.toNat
  closed : s.anyClosed = true → s.tmVars ≠ none
  threads : ∀ (i : Nat) (th : TimerThread), s.threads[i]? = some th → th.tm = i ∧
    ∃ c : Cell TimerVars, s.timers[i]? = some c ∧
      (th.pc = .done ∨ c.deletes = 0 ∧ c.val.terminated = false)
  joined : s.threads.length = s.timers.length
  closing : ∀ ch tm, s.caller = .closes ch tm →
    tm < s.timers.length ∧ s.anyClosed = false ∧ s.isOpen ch = true

section Good

variable {s s' : Zmq} {l : Act} {r : Except Fault Zmq}

theorem isOpen_iff {ch : Nat} :
    s.isOpen ch = true ↔ ∃ c, s.channels[ch]? = some c ∧ c.deletes = 0 := by
  rw [isOpen]
  cases s.channels[ch]? <;> simp

/-- A timer that a pointer points to while no channel was closed. -/
theorem Good.inUse (h : Good s) {tm : Nat} (htm : tm < s.timers.length)
    (hclosed : s.anyClosed = false) : ∃ c, s.timers[tm]? = some c ∧ c.deletes = 0 := by
  refine ⟨s.timers[tm], List.getElem?_eq_getElem htm, ?_⟩
  rw [h.deletes _ (List.getElem_mem htm), hclosed]
  rfl

theorem Good.newTimer (h : Good s) (hnone : s.tmVars = none) (fn : TimerFn) :
    Good (s.newTimer fn) := by
  have htimers := h.created hnone
  have hthreads : s.threads = [] := by
    have := h.joined
    rw [htimers] at this
    exact List.length_eq_zero_iff.mp this
  have hopen : s.anyClosed = false := by
    rw [← Bool.not_eq_true]
    exact fun hclosed => h.closed hclosed hnone
  refine { h with
    one := ?_, created := nofun, global := ?_, pointers := ?_, deletes := ?_, closed := nofun,
    threads := ?_, joined := ?_, closing := ?_ }
  · simp [Zmq.newTimer, htimers]
  · simp [Zmq.newTimer]
  · intro c hc tm htm
    have := h.pointers c hc tm htm
    simp only [Zmq.newTimer, Objects.length_new]
    omega
  · refine Objects.forall_new h.deletes ?_
    rw [show (s.newTimer fn).anyClosed = s.anyClosed from rfl, hopen]
    rfl
  · intro i th hth
    simp only [Zmq.newTimer, hthreads, htimers, Objects.new, List.nil_append] at hth ⊢
    cases i with
    | zero =>
        cases hth
        exact ⟨rfl, _, rfl, .inr ⟨rfl, rfl⟩⟩
    | succ i => cases hth
  · simp [Zmq.newTimer, hthreads, htimers]
  · intro ch tm hcaller
    have htm := (h.closing ch tm hcaller).1
    rw [htimers] at htm
    cases htm

/-- A channel whose timer is one of those there are. -/
theorem Good.newChannel (h : Good s) {zVars : ZmqVars}
    (htm : ∀ tm, zVars.tmVars = some tm → tm < s.timers.length) : Good (s.newChannel zVars) := by
  have hany : (s.newChannel zVars).anyClosed = s.anyClosed := Objects.any_new zVars
  refine { h with
    pointers := Objects.forall_new h.pointers htm, deletes := ?_, closed := ?_, closing := ?_ }
  · rw [hany]
    exact h.deletes
  · rw [hany]
    exact h.closed
  · intro ch tm hcaller
    obtain ⟨hlt, hopen, hch⟩ := h.closing ch tm hcaller
    obtain ⟨c, hc, hd⟩ := isOpen_iff.mp hch
    refine ⟨hlt, hany.trans hopen, isOpen_iff.mpr ⟨c, ?_, hd⟩⟩
    exact List.getElem?_append_left (List.getElem?_eq_some_iff.mp hc).1 ▸ hc

/-- A channel without a timer, with a `ch_fpc`. -/
theorem Good.newFpcChannel (h : Good s) {address : String} : Good (s.newFpcChannel address) := by
  have hcount : Good { s with nrFpc := s.nrFpc + 1 } := { h with }
  exact hcount.newChannel nofun

/-- The pointers of a channel that is open are set to the global ones. -/
theorem Good.shareTimer (h : Good s) {ch : Nat} (hch : s.isOpen ch = true) :
    ∃ channels, (s.channels.modify (some ch) fun zVars =>
        { zVars with tmVars := s.tmVars, tmoVars := s.tmoVars }) = .ok channels ∧
      Good { s with channels := channels } := by
  obtain ⟨c, hc, hd⟩ := isOpen_iff.mp hch
  refine ⟨_, Objects.modify_ok hc hd _, ?_⟩
  have hany : (s.channels.set ch ⟨{ c.val with tmVars := s.tmVars, tmoVars := s.tmoVars }, 0⟩).any
      (·.deletes ≠ 0) = s.anyClosed := Objects.any_set hc (by rw [hd])
  refine { h with
    pointers := Objects.forall_set h.pointers h.global, deletes := ?_, closed := ?_,
    closing := ?_ }
  · exact fun c' hc' => (h.deletes c' hc').trans (congrArg Bool.toNat hany.symm)
  · exact fun ht => h.closed (hany.symm.trans ht)
  · intro ch' tm hcaller
    obtain ⟨hlt, hopen, hch'⟩ := h.closing ch' tm hcaller
    refine ⟨hlt, hany.trans hopen, isOpen_iff.mpr ?_⟩
    obtain ⟨c', hc', hd'⟩ := isOpen_iff.mp hch'
    by_cases heq : ch = ch'
    · subst heq
      exact ⟨_, List.getElem?_set_self (List.getElem?_eq_some_iff.mp hc).1, rfl⟩
    · exact ⟨c', (List.getElem?_set_ne heq).trans hc', hd'⟩

theorem Good.initTimeoutVars (h : Good s) {ch : Nat} {nrThreads : Int64} {allocated : Bool}
    {now : Timespec} (hch : s.isOpen ch = true) :
    ∃ s', s.initTimeoutVars ch nrThreads allocated now = .ok s' ∧ Good s' := by
  unfold Zmq.initTimeoutVars
  split
  · exact ⟨_, rfl, { h with }⟩
  · by_cases hnull : s.tmVars = none ∧ s.tmoVars = none
    · have hnew : Good { s.newTimer (.timerOptFn now) with
          timeouts := s.timeouts ++ [List.replicate nrThreads.toInt.toNat 1]
          tmoVars := some s.timeouts.length } := { h.newTimer hnull.1 (.timerOptFn now) with }
      obtain ⟨channels, hmod, hgood⟩ := hnew.shareTimer hch
      simp only [if_pos hnull]
      exact ⟨_, congrArg (Except.map _) hmod, hgood⟩
    · obtain ⟨channels, hmod, hgood⟩ := h.shareTimer hch
      simp only [if_neg hnull]
      exact ⟨_, congrArg (Except.map _) hmod, hgood⟩

/-- The channel that a call is about, and its pointer. -/
theorem Good.channel (h : Good s) {ch : Nat} (hch : s.isOpen ch = true) :
    ∃ zVars, s.channels.read (some ch) = .ok zVars ∧ s.hasTimer ch = zVars.tmVars.isSome ∧
      ∀ tm, zVars.tmVars = some tm → tm < s.timers.length := by
  obtain ⟨c, hc, hd⟩ := isOpen_iff.mp hch
  refine ⟨c.val, Objects.read_ok hc hd, ?_, h.pointers c (List.mem_of_getElem? hc)⟩
  rw [hasTimer, hc]
  rfl

theorem Good.elapsedIntervals (h : Good s) {ch : Nat} (hch : s.isOpen ch = true)
    (hok : s.hasTimer ch = false ∨ s.anyClosed = false) :
    ∃ s', s.elapsedIntervals ch = .ok s' ∧ Good s' := by
  obtain ⟨zVars, hread, htimer, hlt⟩ := h.channel hch
  unfold Zmq.elapsedIntervals
  rw [hread]
  cases htm : zVars.tmVars with
  | none =>
      refine ⟨{ s with elapsed := 0 }, ?_, { h with }⟩
      simp only [bind, Except.bind, htm]
      rfl
  | some tm =>
      have hopen : s.anyClosed = false := hok.resolve_left (by rw [htimer, htm]; simp)
      obtain ⟨c, hc, hd⟩ := h.inUse (hlt tm htm) hopen
      refine ⟨{ s with elapsed := c.val.elapsedIntervals }, ?_, { h with }⟩
      simp only [bind, Except.bind, htm, Objects.read_ok hc hd]
      rfl

/-- The only timer is deleted together with the channel. -/
theorem Good.deleteChannel (h : Good s) {ch tm : Nat} (hch : s.isOpen ch = true)
    (hfpc : s.hasFpc ch = true) (hlt : tm < s.timers.length) (hopen : s.anyClosed = false)
    (hdone : ∀ (i : Nat) (th : TimerThread), s.threads[i]? = some th → th.pc = .done) :
    ∃ s', s.deleteChannel ch (some tm) = .ok s' ∧ Good s' := by
  obtain ⟨c, hc, hd⟩ := h.inUse hlt hopen
  obtain ⟨z, hz, hzd⟩ := isOpen_iff.mp hch
  rw [hasFpc, hz] at hfpc
  obtain ⟨fpc, hfpc⟩ := Option.isSome_iff_exists.mp hfpc
  refine ⟨_, by
    simp only [Zmq.deleteChannel, bind, Except.bind, Objects.read_ok hc hd,
      Objects.delete_ok hc hd, Objects.read_ok hz hzd, hfpc, closeFpc, Objects.delete_ok hz hzd]
    rfl, ?_⟩
  have hany : ({ s with
      timers := s.timers.set tm ⟨c.val, 1⟩, channels := s.channels.set ch ⟨z.val, 1⟩,
      caller := .ready } : Zmq).anyClosed = true :=
    List.any_eq_true.mpr ⟨⟨z.val, 1⟩,
      List.mem_set (List.getElem?_eq_some_iff.mp hz).1 _, rfl⟩
  have hone := h.one
  refine { h with
    one := ?_, created := ?_, global := ?_, pointers := ?_, deletes := ?_, closed := ?_,
    threads := ?_, joined := ?_, closing := nofun }
  · exact (List.length_set ..).trans_le hone
  · intro hnone
    rw [h.created hnone] at hlt
    cases hlt
  · intro tm' htm'
    exact (h.global tm' htm').trans_eq (List.length_set ..).symm
  · refine Objects.forall_set (fun c' hc' tm' htm' => ?_) fun tm' htm' => ?_
    · exact (h.pointers c' hc' tm' htm').trans_eq (List.length_set ..).symm
    · exact (h.pointers z (List.mem_of_getElem? hz) tm' htm').trans_eq (List.length_set ..).symm
  · rw [hany]
    intro c' hc'
    obtain ⟨i, hi, rfl⟩ := List.mem_iff_getElem.mp hc'
    have hi0 : i = tm := by
      rw [List.length_set] at hi
      omega
    subst hi0
    simp
  · intro _ hnone
    rw [h.created hnone] at hlt
    cases hlt
  · intro i th hth
    obtain ⟨htm, c', hc', -⟩ := h.threads i th hth
    refine ⟨htm, ?_⟩
    by_cases heq : tm = i
    · subst heq
      exact ⟨_, List.getElem?_set_self hlt, .inl (hdone tm th hth)⟩
    · exact ⟨c', (List.getElem?_set_ne heq).trans hc', .inl (hdone i th hth)⟩
  · rw [List.length_set]
    exact h.joined

/-- An assignment to a field of a timer, which keeps `terminated` unless the
thread has ended. -/
theorem Good.setTimer (h : Good s) {tm : Nat} {c : Cell TimerVars} {v : TimerVars}
    (hc : s.timers[tm]? = some c) (hd : c.deletes = 0)
    (hterm : (∀ th : TimerThread, s.threads[tm]? = some th → th.pc = .done) ∨
      (c.val.terminated = false → v.terminated = false)) :
    Good { s with timers := s.timers.set tm ⟨v, 0⟩ } := by
  have hlt := (List.getElem?_eq_some_iff.mp hc).1
  refine { h with
    one := ?_, created := ?_, global := ?_, pointers := ?_, deletes := ?_, threads := ?_,
    joined := ?_, closing := ?_ }
  · exact (List.length_set ..).trans_le h.one
  · intro hnone
    rw [h.created hnone] at hc
    cases hc
  · exact fun tm' htm' => (h.global tm' htm').trans_eq (List.length_set ..).symm
  · exact fun c' hc' tm' htm' => (h.pointers c' hc' tm' htm').trans_eq (List.length_set ..).symm
  · exact Objects.forall_set h.deletes (hd.symm.trans (h.deletes c (List.mem_of_getElem? hc)))
  · intro i th hth
    obtain ⟨heq, c', hc', hd'⟩ := h.threads i th hth
    refine ⟨heq, ?_⟩
    by_cases hi : tm = i
    · subst hi
      cases hc.symm.trans hc'
      refine ⟨_, List.getElem?_set_self hlt, ?_⟩
      obtain hdone | hkeep := hterm
      · exact .inl (hdone th hth)
      · exact hd'.imp_right fun hlive => ⟨rfl, hkeep hlive.2⟩
    · exact ⟨c', (List.getElem?_set_ne hi).trans hc', hd'⟩
  · exact h.joined.trans (List.length_set ..).symm
  · intro ch tm' hcaller
    obtain ⟨hlt', hrest⟩ := h.closing ch tm' hcaller
    exact ⟨hlt'.trans_eq (List.length_set ..).symm, hrest⟩

/-- A thread that has not ended goes on, without an assignment. -/
theorem Good.goto (h : Good s) {i : Nat} {th th' : TimerThread} (hth : s.threads[i]? = some th)
    (hpc : th.pc ≠ .done) (htm : th'.tm = th.tm) : Good (s.goto i th') := by
  refine { h with threads := ?_, joined := (List.length_set ..).trans h.joined }
  intro j thj hj
  by_cases hij : i = j
  · subst hij
    obtain ⟨heq, c, hc, hd⟩ := h.threads i th hth
    rw [Zmq.goto, List.getElem?_set_self (List.getElem?_eq_some_iff.mp hth).1] at hj
    cases hj
    exact ⟨htm.trans heq, c, hc, .inr (hd.resolve_left hpc)⟩
  · rw [Zmq.goto, List.getElem?_set_ne hij] at hj
    exact h.threads j thj hj

theorem Good.assign (h : Good s) {i : Nat} {th th' : TimerThread} {f : TimerVars → TimerVars}
    (hth : s.threads[i]? = some th) (hpc : th.pc ≠ .done) (htm : th'.tm = th.tm)
    (hf : th'.pc = .done ∨ ∀ tv, tv.terminated = false → (f tv).terminated = false) :
    ∃ s', s.assign i th' f = .ok s' ∧ Good s' := by
  obtain ⟨heq, c, hc, hd⟩ := h.threads i th hth
  have hlive := (hd.resolve_left hpc).1
  refine ⟨{ s.goto i th' with timers := s.timers.set i ⟨f c.val, 0⟩ }, ?_, ?_⟩
  · rw [Zmq.assign, htm, heq, Objects.modify_ok hc hlive]
    rfl
  · refine (h.goto hth hpc htm).setTimer hc hlive (hf.imp (fun hdone th'' hth'' => ?_) fun hkeep =>
      hkeep c.val)
    rw [Zmq.goto, List.getElem?_set_self (List.getElem?_eq_some_iff.mp hth).1] at hth''
    cases hth''
    exact hdone

/-- **The threads use their timers only before they are deleted.** -/
theorem Good.timerStep (h : Good s) {i : Nat} {th : TimerThread} {now : Timespec}
    (hth : s.threads[i]? = some th) : ∃ s', s.timerStep i th now = .ok s' ∧ Good s' := by
  unfold Zmq.timerStep
  cases hpc : th.pc with
  | start => exact h.assign hth (by rw [hpc]; decide) rfl (.inr fun _ _ => rfl)
  | test =>
      obtain ⟨heq, c, hc, hd⟩ := h.threads i th hth
      have hlive := (hd.resolve_left (by rw [hpc]; decide)).1
      simp only [heq, Objects.read_ok hc hlive]
      exact ⟨_, rfl, h.goto hth (by rw [hpc]; decide) heq.symm⟩
  | work =>
      cases th.fn with
      | timerFn => exact h.assign hth (by rw [hpc]; decide) rfl (.inr fun _ hterm => hterm)
      | timerOptFn budgetEnd =>
          simp only
          split
          · exact ⟨s, rfl, h⟩
          · exact h.assign hth (by rw [hpc]; decide) rfl (.inr fun _ hterm => hterm)
  | stop => exact h.assign hth (by rw [hpc]; decide) rfl (.inl rfl)
  | done => exact ⟨s, rfl, h⟩

theorem Good.closeZMQChannel (h : Good s) {ch : Nat} (hch : s.isOpen ch = true)
    (hok : s.hasTimer ch = true ∧ s.anyClosed = false) :
    ∃ s', s.closeZMQChannel ch = .ok s' ∧ Good s' := by
  obtain ⟨zVars, hread, htimer, hlt⟩ := h.channel hch
  obtain ⟨htm, hopen⟩ := hok
  rw [htimer] at htm
  obtain ⟨tm, htm⟩ := Option.isSome_iff_exists.mp htm
  obtain ⟨c, hc, hd⟩ := h.inUse (hlt tm htm) hopen
  refine ⟨{ s with
    timers := s.timers.set tm ⟨{ c.val with terminate := true }, 0⟩, caller := .closes ch tm },
    ?_, ?_⟩
  · unfold Zmq.closeZMQChannel
    rw [hread]
    simp only [bind, Except.bind, htm, Objects.modify_ok hc hd]
    rfl
  · have hset := h.setTimer (v := { c.val with terminate := true }) hc hd (.inr id)
    refine { hset with closing := fun ch' tm' hcaller => ?_ }
    cases hcaller
    exact ⟨(hlt tm htm).trans_eq (List.length_set ..).symm, hopen, hch⟩

/-- While a channel is closed, it and its timer are in use. -/
theorem Good.waiting (h : Good s) {ch tm : Nat} (hcaller : s.caller = .closes ch tm) :
    ∃ c, s.timers[tm]? = some c ∧ c.deletes = 0 ∧
      s.waited = if c.val.terminated then some ch else none := by
  obtain ⟨hlt, hopen, -⟩ := h.closing ch tm hcaller
  obtain ⟨c, hc, hd⟩ := h.inUse hlt hopen
  exact ⟨c, hc, hd, by simp only [waited, hcaller, hc, Option.any_some]⟩

theorem Good.wait (h : Good s) {ch tm : Nat} (hcaller : s.caller = .closes ch tm)
    (hok : ∀ ch ∈ s.waited, s.hasFpc ch = true) : ∃ s', s.wait ch tm = .ok s' ∧ Good s' := by
  obtain ⟨hlt, hopen, hch⟩ := h.closing ch tm hcaller
  obtain ⟨c, hc, hd, hwaited⟩ := h.waiting hcaller
  unfold Zmq.wait
  rw [Objects.read_ok hc hd]
  simp only [bind, Except.bind]
  split
  · next hterm =>
    have hfpc : s.hasFpc ch = true := hok ch (by rw [hwaited, if_pos hterm]; rfl)
    refine h.deleteChannel hch hfpc hlt hopen fun i th hth => ?_
    -- the only timer says that its thread has ended
    obtain ⟨-, c', hc', hd'⟩ := h.threads i th hth
    have hlt' := (List.getElem?_eq_some_iff.mp hc').1
    have hone := h.one
    have heq : i = tm := by omega
    subst heq
    cases hc.symm.trans hc'
    exact hd'.resolve_right (by simp [hterm])
  · exact ⟨s, rfl, h⟩

/-- **Steps that meet the guard use no pointer badly.** -/
theorem Good.next (h : Good s) (hok : OneClose s l) (hs : s.next l = some r) :
    ∃ s', r = .ok s' ∧ Good s' := by
  cases l with
  | openZMQChannel address =>
      obtain ⟨-, ⟨⟩⟩ := Option.ite_none_right_eq_some.mp hs
      exact ⟨_, rfl, h.newFpcChannel⟩
  | openZMQBucketChannel address =>
      obtain ⟨-, ⟨⟩⟩ := Option.ite_none_right_eq_some.mp hs
      refine ⟨_, rfl, ?_⟩
      unfold Zmq.openZMQBucketChannel
      split
      · next hnone =>
        have hnew := h.newTimer hnone .timerFn
        exact hnew.newChannel hnew.global
      · exact h.newChannel h.global
  | openZMQBktOptChannel address =>
      obtain ⟨-, ⟨⟩⟩ := Option.ite_none_right_eq_some.mp hs
      exact ⟨_, rfl, h.newFpcChannel⟩
  | initTimeoutVars ch nrThreads allocated now =>
      obtain ⟨⟨-, hch⟩, ⟨⟩⟩ := Option.ite_none_right_eq_some.mp hs
      exact h.initTimeoutVars hch
  | elapsedIntervals ch =>
      obtain ⟨⟨-, hch⟩, ⟨⟩⟩ := Option.ite_none_right_eq_some.mp hs
      exact h.elapsedIntervals hch hok
  | closeZMQChannel ch =>
      obtain ⟨⟨-, hch⟩, ⟨⟩⟩ := Option.ite_none_right_eq_some.mp hs
      exact h.closeZMQChannel hch hok
  | wait =>
      cases hcaller : s.caller with
      | ready => simp [Zmq.next, hcaller] at hs
      | closes ch tm =>
          simp only [Zmq.next, hcaller, Option.some.injEq] at hs
          subst hs
          exact h.wait hcaller hok
  | timer i now =>
      obtain ⟨th, hth, rfl⟩ := Option.map_eq_some_iff.mp hs
      exact h.timerStep hth

theorem step_cases (hs : step s l = some s') :
    ∃ r, s.next l = some r ∧ (r = .ok s' ∨ ∃ f, r = .error f ∧ s'.fault = some f) := by
  unfold step at hs
  split at hs
  · obtain ⟨r, hr, rfl⟩ := Option.map_eq_some_iff.mp hs
    refine ⟨r, hr, ?_⟩
    cases r with
    | ok s' => exact .inl rfl
    | error f => exact .inr ⟨f, rfl, rfl⟩
  · cases hs

theorem Good.step (h : Good s) (hok : OneClose s l) (hs : Zmq.step s l = some s') : Good s' := by
  obtain ⟨r, hr, hres⟩ := step_cases hs
  obtain ⟨s₁, rfl, hgood⟩ := h.next hok hr
  obtain heq | ⟨f, hf, -⟩ := hres
  · cases heq
    exact hgood
  · cases hf

end Good

end Zmq

end CloudProfiler
