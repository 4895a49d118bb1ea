import CloudProfiler.Handler.Contract

/-!
# CloudProfiler.Handler.Periodic

The events a PERIODICCOUNTER channel counts (`periodic_counter_handler.cpp`),
over every sequence of events and changes of the period, whatever the clock
says.

What a log says in total is a sum over its lines (`Base.total`), and each
function that prints adds to it.

* `PCOp.run`, `runOps` — events and changes of the period;
* `PCOp.wraps` — the events with which `ctr` overflows;
* `events_conserved` — the counts in the log are the events, but for these.
-/

namespace CloudProfiler

/-! ## totals of a log -/

namespace Base

variable {ι : Type} {b : Base ι} {w : ι → Nat}

/-- What a log says in total: the sum of `w` over its lines. -/
def total (w : ι → Nat) (b : Base ι) : Nat := (b.lines.map w).sum

theorem total_put (h : b.isOpen = true) (l : ι) : (b.put l).total w = b.total w + w l := by
  simp [put, total, h]

@[simp] theorem total_closeChannel : b.closeChannel.total w = b.total w := rfl

end Base

namespace PCLine

/-- The events a line counts. -/
def events : PCLine → Nat
  | .count _ n | .truncated _ n => n.toNat
  | .header | .period _ _ | .skipped _ | .reprogrammed _ | .shutDown _ => 0

/-- The intervals a line accounts for. -/
def intervals : PCLine → Nat
  | .count _ _ => 1
  | .skipped n => n.toNat
  | .header | .period _ _ | .truncated _ _ | .reprogrammed _ | .shutDown _ => 0

end PCLine

/-! ## what the functions print -/

namespace PCClosure

variable {cl cl' : PCClosure} {now : Timespec} {w : PCLine → Nat}

@[simp] theorem isOpen_ensureHeader : cl.ensureHeader.base.isOpen = cl.base.isOpen := by
  unfold ensureHeader printPeriod
  split <;> simp

@[simp] theorem ctr_ensureHeader : cl.ensureHeader.ctr = cl.ctr := by
  unfold ensureHeader printPeriod
  split <;> rfl

@[simp] theorem timeStart_ensureHeader : cl.ensureHeader.timeStart = cl.timeStart := by
  unfold ensureHeader printPeriod
  split <;> rfl

/-- The header and the period count nothing. -/
theorem total_ensureHeader (hopen : cl.base.isOpen = true) (hheader : w .header = 0)
    (hperiod : ∀ start inc, w (.period start inc) = 0) :
    cl.ensureHeader.base.total w = cl.base.total w := by
  unfold ensureHeader printPeriod
  split
  · rfl
  · simp [Base.total_put, hopen, hheader, hperiod]

/-- The file with the counter printed, unless it is zero. -/
def putCount (cl : PCClosure) : Base PCLine :=
  if cl.ctr > 0 then cl.base.put (.count cl.timeFlush cl.ctr) else cl.base

@[simp] theorem isOpen_putCount : cl.putCount.isOpen = cl.base.isOpen := by
  unfold putCount
  split
  · exact Base.isOpen_put _ _
  · rfl

theorem total_putCount (hopen : cl.base.isOpen = true) :
    cl.putCount.total PCLine.events = cl.base.total PCLine.events + cl.ctr.toNat := by
  unfold putCount
  split
  · exact Base.total_put hopen _
  · next hzero =>
    have hctr : cl.ctr.toNat = 0 := by simpa [UInt64.lt_iff_toNat_lt] using hzero
    rw [hctr, Nat.add_zero]

/-- The skipped intervals, if they are printed only when there are some. -/
theorem total_put_skipped {b : Base PCLine} (hopen : b.isOpen = true) (n : UInt32) :
    (if n > 0 then b.put (.skipped n) else b).total w =
      b.total w + if n > 0 then w (.skipped n) else 0 := by
  split
  · exact Base.total_put hopen _
  · rfl

/-- `flushCtr` counts what is in the counter. -/
theorem flushCtr_total (hopen : cl.base.isOpen = true) (h : cl.flushCtr now = some cl') :
    cl'.base.isOpen = true ∧ cl'.timeStart = cl.timeStart ∧
      cl'.base.total PCLine.events = cl.base.total PCLine.events + cl.ctr.toNat := by
  obtain ⟨n, -, rfl⟩ := Option.map_eq_some_iff.mp h
  have hbase : ∃ b : Base PCLine, b.isOpen = true ∧
      b.total PCLine.events = cl.base.total PCLine.events + cl.ctr.toNat ∧
      (if compareTS now cl.timeFlush = -1 then cl.base.put (.truncated now cl.ctr)
        else cl.putCount) = b := by
    split
    · exact ⟨_, by rw [Base.isOpen_put, hopen], Base.total_put hopen _, rfl⟩
    · exact ⟨_, by rw [isOpen_putCount, hopen], total_putCount hopen, rfl⟩
  obtain ⟨b, hopen', htotal, heq⟩ := hbase
  unfold putCount at heq
  dsimp only
  rw [heq]
  refine ⟨?_, rfl, ?_⟩
  · split
    · rw [Base.isOpen_put, hopen']
    · exact hopen'
  · rw [total_put_skipped hopen', htotal]
    simp [PCLine.events]

/-- `closeChannel` counts what is in the counter. -/
theorem closeChannel_total (hopen : cl.base.isOpen = true) (h : cl.closeChannel now = some cl') :
    cl'.base.total PCLine.events = cl.base.total PCLine.events + cl.ctr.toNat := by
  obtain ⟨cl₁, h₁, rfl⟩ := Option.map_eq_some_iff.mp h
  obtain ⟨hopen₁, -, htotal⟩ := flushCtr_total (by simpa using hopen) h₁
  rw [Base.total_closeChannel, Base.total_put hopen₁, htotal, ctr_ensureHeader,
    total_ensureHeader hopen rfl fun _ _ => rfl]
  rfl

/-- The interval is over at time `now`. -/
def Expired (cl : PCClosure) (now : Timespec) : Prop :=
  now.tvSec > cl.timeFlush.tvSec ∨
    (now.tvSec = cl.timeFlush.tvSec ∧ now.tvNsec > cl.timeFlush.tvNsec)

instance (cl : PCClosure) (now : Timespec) : Decidable (cl.Expired now) :=
  inferInstanceAs (Decidable (_ ∨ _))

/-- An event before the interval is over. -/
theorem handler_of_not_expired (h : ¬ cl.Expired now) :
    cl.handler now = some { cl with ctr := cl.ctr + 1 } :=
  if_neg h

/-- The intervals that were skipped at time `now`, in 32 bits. -/
def skipped (cl : PCClosure) (now : Timespec) : UInt32 :=
  ((subtractTS now cl.timeFlush now).elapsedNs / cl.periodicIncNs).toUInt32

/-- The first event after the interval is over. -/
theorem handler_of_expired (h : cl.Expired now) (hp : cl.periodicIncNs ≠ 0) :
    cl.handler now = some { (cl.ensureHeader.printSkipped (cl.skipped now)).1 with
      timeFlush := addTS cl.timeFlush cl.timeFlush
        (periodOfNs cl.timeFlush ((1 + cl.skipped now).toUInt64 * cl.periodicIncNs))
      ctr := 1 } := by
  have hskip : cl.ensureHeader.skippedFromFlush now = some (cl.skipped now) := by
    simp [skippedFromFlush, hp, skipped]
  refine (if_pos h).trans ?_
  rw [hskip, Option.map_some]
  simp [printSkipped]

/-- What `getNextShot_and_flushCtr` prints. -/
theorem printSkipped_total (hopen : cl.base.isOpen = true) (n : UInt32) :
    (cl.printSkipped n).1.base.isOpen = true ∧
      (cl.printSkipped n).1.base.total w =
        cl.putCount.total w +
          if (if cl.ctr = 0 then n + 1 else n) > 0 then
            w (.skipped (if cl.ctr = 0 then n + 1 else n)) else 0 := by
  have hopen' : cl.putCount.isOpen = true := by rw [isOpen_putCount, hopen]
  unfold printSkipped
  dsimp only
  generalize (if cl.ctr = 0 then n + 1 else n) = total
  refine ⟨?_, total_put_skipped hopen' total⟩
  split
  · exact (Base.isOpen_put _ _).trans hopen'
  · exact hopen'

/-- A change of the period to one that is accepted. -/
theorem setArg_accepted {v : Int64} (hv : 1 ≤ v) (now : Timespec) (hopen : cl.base.isOpen = true)
    (hp : cl.periodicIncNs ≠ 0) :
    ∃ cl', setArgPeriodicCounterHandler now cl (.one 0 v) = some (0, cl') ∧
      cl'.base.isOpen = true ∧ cl'.periodicIncNs = v.toUInt64 ∧ cl'.timeStart = now ∧
      (∃ r r', cl'.timeFlush = addTS r now (periodOfNs r' v.toUInt64)) ∧ cl'.ctr = 0 ∧
      cl'.base.total PCLine.events = cl.base.total PCLine.events + cl.ctr.toNat := by
  have hno : ¬ ((Arg.one 0 v).number ≠ 0 ∨ (Arg.one 0 v).value < 0) := by
    rintro (hne | hneg)
    · exact hne rfl
    · exact (one_le_iff.mp hv).1 hneg
  obtain ⟨cl₁, h₁⟩ := flushCtr_isSome { cl.ensureHeader with timeStart := now } (by simpa using hp)
    now
  have hopen' : { cl.ensureHeader with timeStart := now }.base.isOpen = true := by simpa using hopen
  obtain ⟨hopen₁, hstart, htotal₁⟩ := flushCtr_total hopen' h₁
  rw [setArgPeriodicCounterHandler, if_neg hno, h₁, Option.map_some]
  refine ⟨_, rfl, ?_, rfl, hstart, ⟨_, _, rfl⟩, rfl, ?_⟩
  · simp [printPeriod, hopen₁]
  · have htotal := cl.total_ensureHeader (w := PCLine.events) hopen rfl fun _ _ => rfl
    simp [printPeriod, Base.total_put, hopen₁, htotal₁, htotal, PCLine.events]

end PCClosure

/-! ## events and changes of the period -/

/-- An event, or a change of the period to one that is accepted. -/
inductive PCOp
  | event (now : Timespec)
  | setPeriod (now : Timespec) (period : {v : Int64 // 1 ≤ v})

namespace PCOp

/-- The handler or the parameter handler is called. -/
def run (cl : PCClosure) : PCOp → Option PCClosure
  | event now => cl.handler now
  | setPeriod now period =>
      (setArgPeriodicCounterHandler now cl (.one 0 period)).map (·.2)

/-- The number of events. -/
def events : PCOp → Nat
  | event _ => 1
  | setPeriod _ _ => 0

/-- The event is counted with a counter that overflows. -/
def wraps (cl : PCClosure) : PCOp → Nat
  | event now => if ¬ cl.Expired now ∧ cl.ctr + 1 = 0 then 1 else 0
  | setPeriod _ _ => 0

end PCOp

/-- The operations, one after the other. -/
def runOps (cl : PCClosure) (ops : List PCOp) : Option PCClosure := ops.foldlM PCOp.run cl

/-- The number of events. -/
def eventsOf (ops : List PCOp) : Nat := (ops.map PCOp.events).sum

/-- How often the counter overflows. -/
def wrapsOf : PCClosure → List PCOp → Nat
  | _, [] => 0
  | cl, op :: ops => op.wraps cl + ((op.run cl).map fun cl' => wrapsOf cl' ops).getD 0

section Run

variable {cl : PCClosure}

/-- The counter after an event. -/
theorem ctr_add_one (ctr : UInt64) :
    (ctr + 1).toNat + (if ctr + 1 = 0 then 2 ^ 64 else 0) = ctr.toNat + 1 := by
  have hlt := ctr.toNat_lt
  have hadd : (ctr + 1).toNat = (ctr.toNat + 1) % 2 ^ 64 := UInt64.toNat_add ctr 1
  have hzero : ctr + 1 = 0 ↔ (ctr + 1).toNat = 0 := by rw [← UInt64.toNat_inj]; rfl
  split
  · next h =>
    rw [hzero] at h
    omega
  · next h =>
    rw [hzero] at h
    omega

/-- **An operation counts its events**: they are in the log or in the counter,
unless the counter overflows. -/
theorem PCOp.run_counts (op : PCOp) (hopen : cl.base.isOpen = true) (hp : cl.periodicIncNs ≠ 0) :
    ∃ cl', op.run cl = some cl' ∧ cl'.base.isOpen = true ∧ cl'.periodicIncNs ≠ 0 ∧
      cl'.base.total PCLine.events + cl'.ctr.toNat + 2 ^ 64 * op.wraps cl =
        cl.base.total PCLine.events + cl.ctr.toNat + op.events := by
  have hopen₁ : cl.ensureHeader.base.isOpen = true := by simpa using hopen
  have htotal₁ := cl.total_ensureHeader (w := PCLine.events) hopen rfl fun _ _ => rfl
  cases op with
  | event now =>
      by_cases hexp : cl.Expired now
      · obtain ⟨hopen₂, htotal₂⟩ :=
          PCClosure.printSkipped_total (w := PCLine.events) hopen₁ (cl.skipped now)
        refine ⟨_, PCClosure.handler_of_expired hexp hp, hopen₂,
          by simpa [PCClosure.printSkipped] using hp, ?_⟩
        have hone : (1 : UInt64).toNat = 1 := rfl
        simp only [htotal₂, PCClosure.total_putCount hopen₁, htotal₁, PCClosure.ctr_ensureHeader,
          PCLine.events, PCOp.wraps, PCOp.events, hexp, hone]
        simp
      · refine ⟨_, PCClosure.handler_of_not_expired hexp, hopen, hp, ?_⟩
        have hctr := ctr_add_one cl.ctr
        have hwraps : 2 ^ 64 * PCOp.wraps cl (.event now) =
            if cl.ctr + 1 = 0 then 2 ^ 64 else 0 := by simp [PCOp.wraps, hexp]
        simp only [hwraps, PCOp.events]
        omega
  | setPeriod now period =>
      obtain ⟨cl', hset, hopen', hper, -, -, hctr, htotal⟩ :=
        PCClosure.setArg_accepted period.2 now hopen hp
      refine ⟨cl', by rw [PCOp.run, hset, Option.map_some], hopen', ?_, ?_⟩
      · rw [hper]
        exact toUInt64_ne_zero (one_le_iff.mp period.2).2
      · rw [htotal, hctr]
        rfl

/-- **Run lemma.** -/
theorem runOps_counts (ops : List PCOp) (hopen : cl.base.isOpen = true)
    (hp : cl.periodicIncNs ≠ 0) :
    ∃ cl', runOps cl ops = some cl' ∧ cl'.base.isOpen = true ∧ cl'.periodicIncNs ≠ 0 ∧
      cl'.base.total PCLine.events + cl'.ctr.toNat + 2 ^ 64 * wrapsOf cl ops =
        cl.base.total PCLine.events + cl.ctr.toNat + eventsOf ops := by
  induction ops generalizing cl with
  | nil => exact ⟨cl, rfl, hopen, hp, rfl⟩
  | cons op ops ih =>
      obtain ⟨cl₁, h₁, hopen₁, hp₁, hcount₁⟩ := op.run_counts hopen hp
      obtain ⟨cl₂, h₂, hopen₂, hp₂, hcount₂⟩ := ih hopen₁ hp₁
      have hrun : runOps cl (op :: ops) = some cl₂ := by
        rw [runOps, List.foldlM_cons, h₁]
        exact h₂
      refine ⟨cl₂, hrun, hopen₂, hp₂, ?_⟩
      have hevents : eventsOf (op :: ops) = op.events + eventsOf ops := by simp [eventsOf]
      have hwraps : wrapsOf cl (op :: ops) = op.wraps cl + wrapsOf cl₁ ops := by
        simp [wrapsOf, h₁]
      rw [hevents, hwraps]
      omega

end Run

/-- **The counts in the log are the events** before the channel is closed, but
for `2 ^ 64` whenever the counter overflows. -/
theorem events_conserved (now t last : Timespec) (ops : List PCOp) :
    ∃ cl cl', runOps (initPeriodicCounterHandler now t) ops = some cl ∧
      cl.closeChannel last = some cl' ∧
      cl'.base.total PCLine.events +
        2 ^ 64 * wrapsOf (initPeriodicCounterHandler now t) ops = eventsOf ops := by
  obtain ⟨cl, hrun, hopen, hp, hcount⟩ :=
    runOps_counts ops (show (initPeriodicCounterHandler now t).base.isOpen = true from rfl)
      (show nanoSPerS ≠ 0 by decide)
  obtain ⟨cl', hclose⟩ := PCClosure.closeChannel_isSome hp last
  refine ⟨cl, cl', hrun, hclose, ?_⟩
  rw [PCClosure.closeChannel_total hopen hclose, hcount]
  simp [initPeriodicCounterHandler, Base.total, Base.opened]

/-- Events that come before the first interval is over. -/
theorem runOps_replicate {cl : PCClosure} {now : Timespec} (h : ¬ cl.Expired now) (n : Nat) :
    runOps cl (List.replicate n (.event now)) =
      some { cl with ctr := cl.ctr + UInt64.ofNat n } := by
  induction n generalizing cl with
  | zero => simp [runOps]
  | succ n ih =>
      have hrun : runOps cl (List.replicate (n + 1) (.event now)) =
          runOps { cl with ctr := cl.ctr + 1 } (List.replicate n (.event now)) := by
        rw [runOps, List.replicate_succ, List.foldlM_cons, PCOp.run,
          PCClosure.handler_of_not_expired h]
        rfl
      have hnot : ¬ { cl with ctr := cl.ctr + 1 }.Expired now := h
      rw [hrun, ih hnot]
      simp [add_assoc, add_comm (1 : UInt64)]

/-- As many events in the first interval as make the counter zero again. -/
theorem events_lost_of {n : Nat} (hn : UInt64.ofNat n = 0) : ∃ now ops cl cl', eventsOf ops = n ∧
    runOps (initPeriodicCounterHandler now now) ops = some cl ∧ cl.closeChannel now = some cl' ∧
    cl'.base.total PCLine.events = 0 := by
  have hexp : ¬ (initPeriodicCounterHandler ⟨0, 0, 0, 0, 0⟩ ⟨0, 0, 0, 0, 0⟩).Expired
      ⟨0, 0, 0, 0, 0⟩ := by decide
  have hrun := runOps_replicate hexp n
  rw [hn] at hrun
  obtain ⟨cl', hclose⟩ :=
    PCClosure.closeChannel_isSome (show ({ initPeriodicCounterHandler ⟨0, 0, 0, 0, 0⟩
      ⟨0, 0, 0, 0, 0⟩ with ctr := 0 + 0 } : PCClosure).periodicIncNs ≠ 0 by decide) ⟨0, 0, 0, 0, 0⟩
  refine ⟨_, _, _, cl', ?_, hrun, hclose, ?_⟩
  · simp [eventsOf, PCOp.events]
  · rw [PCClosure.closeChannel_total rfl hclose]
    rfl

/-- After `2 ^ 64` events in the first interval the log says that there were
none. -/
theorem events_lost : ∃ now ops cl cl', eventsOf ops = 2 ^ 64 ∧
    runOps (initPeriodicCounterHandler now now) ops = some cl ∧ cl.closeChannel now = some cl' ∧
    cl'.base.total PCLine.events = 0 :=
  events_lost_of (by decide)

end CloudProfiler
