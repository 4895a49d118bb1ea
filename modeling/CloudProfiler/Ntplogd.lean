import CloudProfiler.Config.Rendezvous
import CloudProfiler.Nanos

/-!
# CloudProfiler.Ntplogd

The daemon that logs the errors of the clock (`ntplogd/core.cpp`): it asks
`chronyc` once for every interval, drops the first answer and prints the
others, `iteration` of them or for ever.

The deadlines are `ts_wait`: the next full second after the start and every
`interval` seconds from there.  They do not depend on when the clock is read,
so no interval is skipped, however late the daemon is.

* `step` — one reading of the clock, or the end of a sleep;
* `Inv` — where the daemon is in its schedule, `Inv.step` — every step keeps it;
* `daemon_run` — which lines are printed when, and when the daemon ends.
-/

namespace CloudProfiler.Ntplogd

open Rendezvous

/-! ## the answer of chronyc -/

/-- `std::isspace`. -/
def isspace (c : Char) : Bool := c = ' ' || (9 ≤ c.toNat && c.toNat ≤ 13)

/-- The loop of `exec` on what the command prints: `fgets` reads 127 characters
or a line, and what is appended ends at the first NUL.  `left` of the
characters can still be read, and a NUL was `seen` or not. -/
def readPipe : (left : Nat) → (seen : Bool) → List Char → List Char
  | _, _, [] => []
  | left, seen, c :: cs =>
      let ends := seen || c.toNat = 0
      (if ends then [] else [c]) ++
        if c = '\n' ∨ left ≤ 1 then readPipe 127 false cs else readPipe (left - 1) ends cs

/-- `exec`. -/
def exec (output : List Char) : List Char := strip isspace (readPipe 127 false output)

/-- `struct clock_error`; `D` are the numbers of type `double`. -/
structure ClockError (D : Type) where
  system_time_offset : D
  root_delay : D
  root_dispersion : D
  deriving DecidableEq

variable {D : Type} (stod : List Char → Option D)

/-- The numbers among the words of the answer; `none` is an exception of `at` or
`stod`. -/
def clockError (output : List Char) : Option (ClockError D) :=
  let str_vec := getlines (exec output) ','
  let word (i : Nat) : Option D := str_vec[i]?.bind stod
  (word 4).bind fun system_time_offset =>
    (word 10).bind fun root_delay =>
      (word 11).map fun root_dispersion => ⟨system_time_offset, root_delay, root_dispersion⟩

/-! ## the daemon -/

/-- The options of the command line. -/
structure Options where
  interval : UInt32
  iteration : UInt32
  periodic : Bool

/-- Where the daemon is. -/
inductive Pc
  | measure
  /-- in the inner loop -/
  | snooze
  /-- `sleep_for` -/
  | sleep (sleep_ns : UInt64)
  | done
  /-- an exception that is not caught -/
  | failed
  deriving DecidableEq

structure Daemon (D : Type) where
  pc : Pc
  ts_wait : Timespec
  ts_now : Timespec
  periodic_inc_ns : UInt64
  periodic_inc : Timespec
  skippedFirst : Bool
  iteration : UInt32
  nonstop : Bool
  /-- the lines printed: the time-stamp and the numbers -/
  log : List (Timespec × ClockError D)
  deriving DecidableEq

/-- `shallTerminate`. -/
def Daemon.shallTerminate (s : Daemon D) : Bool :=
  !(s.nonstop || (!s.nonstop && decide (s.iteration > 0)))

/-- `main` and `run_interval_of` up to the outer loop; the clock reads `now`. -/
def start (o : Options) (now : Timespec) : Daemon D :=
  let nsec := o.interval.toUInt64 * nanoSPerS
  { pc := .measure
    ts_wait := { now with tvSec := now.tvSec + 1, tvNsec := 0 }
    ts_now := now
    periodic_inc_ns := nsec
    periodic_inc := periodOfNs ⟨0, 0, 0, 0, 0⟩ nsec
    skippedFirst := false
    iteration := if o.periodic then o.iteration else 1
    nonstop := o.periodic && o.iteration = 0
    log := [] }

inductive Act
  /-- the outer loop: the clock is read, `chronyc` prints `output` -/
  | measure (now : Timespec) (output : List Char)
  /-- the inner loop: the clock is read -/
  | check (now : Timespec)
  | wake
  deriving DecidableEq

/-- The outer loop up to the inner one. -/
def Daemon.measure (s : Daemon D) (now : Timespec) (output : List Char) : Daemon D :=
  match clockError stod output with
  | none => { s with ts_now := now, pc := .failed }
  | some err =>
      if s.skippedFirst then
        { s with
          ts_now := now, pc := .snooze, iteration := s.iteration - 1
          log := s.log ++ [(now, err)] }
      else { s with ts_now := now, pc := .snooze, skippedFirst := true }

/-- The inner loop. -/
def Daemon.check (s : Daemon D) (now : Timespec) : Daemon D :=
  if s.shallTerminate then { s with pc := .done }
  else if compareTS now s.ts_wait > 0 then
    { s with ts_now := now, ts_wait := addTS s.ts_wait s.ts_wait s.periodic_inc, pc := .measure }
  else
    let sleep_ns := (subtractTS ⟨0, 0, 0, 0, 0⟩ now s.ts_wait).elapsedNs
    { s with
      ts_now := now
      pc := .sleep (if sleep_ns > s.periodic_inc_ns then s.periodic_inc_ns else sleep_ns) }

def step (s : Daemon D) : Act → Option (Daemon D)
  | .measure now output => if s.pc = .measure then some (s.measure stod now output) else none
  | .check now => if s.pc = .snooze then some (s.check now) else none
  | .wake =>
      match s.pc with
      | .sleep _ => some { s with pc := .snooze }
      | _ => none

/-- The clock does not go back, and does not get near the end of its range. -/
def ClockOk (s : Daemon D) : Act → Prop
  | .measure now _ | .check now =>
      now.Normal ∧ s.ts_now.ns ≤ now.ns ∧ now.tvSec.toInt < 2 ^ 62
  | .wake => True

instance : DecidableRel (ClockOk : Daemon D → Act → Prop) := fun _ l =>
  match l with
  | .measure _ _ | .check _ => inferInstanceAs (Decidable (_ ∧ _ ∧ _))
  | .wake => .isTrue trivial

/-! ## the schedule -/

/-- How many lines are asked for. -/
def Options.lines (o : Options) : Nat := if o.periodic then o.iteration.toNat else 1

/-- The daemon runs for ever. -/
def Options.nonstop (o : Options) : Bool := o.periodic && o.iteration = 0

/-- The interval in nano-seconds. -/
def Options.ns (o : Options) : Int := o.interval.toNat * 1000000000

/-- The deadline of line `k`, when the clock read `t₀` at the start. -/
def deadline (o : Options) (t₀ : Timespec) (k : Nat) : Int :=
  (t₀.tvSec.toInt + 1) * 1000000000 + k * o.ns

/-- How many measurements were made. -/
def Daemon.measured (s : Daemon D) : Nat := s.log.length + if s.skippedFirst then 1 else 0

/-- The measurement of the current round was made. -/
def Pc.round : Pc → Nat
  | .measure | .failed => 0
  | .snooze | .sleep _ | .done => 1

/-- The daemon has passed `k` deadlines. -/
structure Inv (o : Options) (t₀ : Timespec) (k : Nat) (s : Daemon D) : Prop where
  nonstop : s.nonstop = o.nonstop
  inc_ns : s.periodic_inc_ns = o.interval.toUInt64 * nanoSPerS
  inc : s.periodic_inc = periodOfNs ⟨0, 0, 0, 0, 0⟩ (o.interval.toUInt64 * nanoSPerS)
  wait_normal : s.ts_wait.Normal
  wait : s.ts_wait.ns = deadline o t₀ k
  passed : ∀ j < k, deadline o t₀ j < s.ts_now.ns
  measured : s.measured = k + s.pc.round
  first : s.skippedFirst = false → s.log = []
  lines : ∀ i p, s.log[i]? = some p → deadline o t₀ i < p.1.ns
  count : o.nonstop = false → s.log.length + s.iteration.toNat = o.lines
  alive : s.pc = .measure → o.nonstop = true ∨ s.iteration ≠ 0
  done : s.pc = .done → o.nonstop = false ∧ s.iteration = 0
  asleep : ∀ ns, s.pc = .sleep ns →
    (ns.toNat : Int) ≤ o.ns ∧ s.ts_now.ns + ns.toNat ≤ s.ts_wait.ns

section Schedule

variable {stod} {o : Options} {t₀ now : Timespec} {k : Nat} {s s' : Daemon D} {l : Act}
  {output : List Char}

theorem toNat_inc (o : Options) : ((o.interval.toUInt64 * nanoSPerS).toNat : Int) = o.ns := by
  have hlt := o.interval.toNat_lt
  rw [UInt64.toNat_mul, UInt32.toNat_toUInt64, show nanoSPerS.toNat = 1000000000 from rfl,
    Nat.mod_eq_of_lt (by omega), Options.ns]
  push_cast
  rfl

theorem deadline_succ (o : Options) (t₀ : Timespec) (k : Nat) :
    deadline o t₀ (k + 1) = deadline o t₀ k + o.ns := by
  rw [deadline, deadline, Nat.cast_add_one, add_one_mul (k : Int), add_assoc]

theorem deadline_mono (o : Options) (t₀ : Timespec) {i j : Nat} (h : i ≤ j) :
    deadline o t₀ i ≤ deadline o t₀ j := by
  have hmul : (i : Int) * o.ns ≤ j * o.ns :=
    Int.mul_le_mul_of_nonneg_right (by omega) (by rw [Options.ns]; omega)
  unfold deadline
  omega

theorem inv_start (hsec : t₀.tvSec.toInt < 2 ^ 62) :
    Inv o t₀ 0 (start o t₀ : Daemon D) where
  nonstop := rfl
  inc_ns := rfl
  inc := rfl
  wait_normal := by
    show 0 ≤ (0 : Int64).toInt ∧ (0 : Int64).toInt < 1000000000
    decide
  wait := by
    have hge := t₀.tvSec.le_toInt
    have hadd : (t₀.tvSec + 1).toInt = t₀.tvSec.toInt + 1 := by
      rw [Int64.toInt_add, show (1 : Int64).toInt = 1 from rfl]
      exact Int.bmod_eq_of_le (by omega) (by omega)
    simp [start, Timespec.ns, deadline, hadd]
  passed j hj := absurd hj (Nat.not_lt_zero j)
  measured := rfl
  first _ := rfl
  lines i p hp := by simp [start] at hp
  count hnot := by
    unfold Options.lines
    cases h : o.periodic <;> simp [start, h]
  alive _ := by
    cases h : o.periodic
    · exact .inr (by simp [start, h])
    · by_cases hzero : o.iteration = 0
      · exact .inl (by simp [Options.nonstop, h, hzero])
      · exact .inr (by simpa [start, h] using hzero)
  done h := by cases h
  asleep ns h := by cases h

/-- The outer loop. -/
theorem Inv.measure (h : Inv o t₀ k s) (hpc : s.pc = .measure) (hnow : s.ts_now.ns ≤ now.ns) :
    Inv o t₀ k (s.measure stod now output) := by
  have hmeasured := h.measured
  rw [hpc] at hmeasured
  have hpassed : ∀ j < k, deadline o t₀ j < now.ns := fun j hj => (h.passed j hj).trans_le hnow
  unfold Daemon.measure
  split
  · exact { h with
      passed := hpassed
      measured := hmeasured
      alive := fun h => by cases h
      done := fun h => by cases h
      asleep := fun _ h => by cases h }
  · next err _ =>
    split
    · next hskipped =>
      have hlength : s.log.length + 1 = k := by
        simpa [Daemon.measured, hskipped, Pc.round] using hmeasured
      exact { h with
        passed := hpassed
        measured := by simp [Daemon.measured, hskipped, Pc.round, hlength]
        first := fun hfirst => by rw [hskipped] at hfirst; cases hfirst
        lines := fun i p hp => by
          obtain hi | hi := lt_or_ge i s.log.length
          · rw [List.getElem?_append_left hi] at hp
            exact h.lines i p hp
          · -- the new line, of the deadline that was passed last
            rw [List.getElem?_append_right hi, List.getElem?_singleton] at hp
            split at hp
            · cases hp
              exact hpassed i (by omega)
            · cases hp
        count := fun hnot => by
          have hcount := h.count hnot
          have hne := (h.alive hpc).resolve_left (by simp [hnot])
          have hpos : s.iteration.toNat ≠ 0 := fun h => hne (UInt32.toNat_inj.mp h)
          have hsub : (s.iteration - 1).toNat = s.iteration.toNat - 1 := by
            have hlt := s.iteration.toNat_lt
            rw [UInt32.toNat_sub, show (1 : UInt32).toNat = 1 from rfl]
            omega
          simp only [List.length_append, List.length_singleton, hsub]
          omega
        alive := fun h => by cases h
        done := fun h => by cases h
        asleep := fun _ h => by cases h }
    · next hskipped =>
      exact { h with
        passed := hpassed
        measured := by simpa [Daemon.measured, hskipped, Pc.round] using hmeasured
        first := fun hfirst => by cases hfirst
        alive := fun h => by cases h
        done := fun h => by cases h
        asleep := fun _ h => by cases h }

theorem shallTerminate_iff : s.shallTerminate = true ↔ s.nonstop = false ∧ s.iteration = 0 := by
  have hzero : s.iteration > 0 ↔ s.iteration ≠ 0 := UInt32.pos_iff_ne_zero
  cases h : s.nonstop <;> simp [Daemon.shallTerminate, h, hzero]

/-- The inner loop. -/
theorem Inv.check (h : Inv o t₀ k s) (hpc : s.pc = .snooze) (hnormal : now.Normal)
    (hnow : s.ts_now.ns ≤ now.ns) (hsec : now.tvSec.toInt < 2 ^ 62) :
    ∃ k, Inv o t₀ k (s.check now) := by
  have hmeasured := h.measured
  rw [hpc] at hmeasured
  have hpassed : ∀ j < k, deadline o t₀ j < now.ns := fun j hj => (h.passed j hj).trans_le hnow
  unfold Daemon.check
  split
  · next hterm =>
    obtain ⟨hnot, hzero⟩ := shallTerminate_iff.mp hterm
    exact ⟨k, { h with
      measured := hmeasured
      alive := fun h => by cases h
      done := fun _ => ⟨h.nonstop ▸ hnot, hzero⟩
      asleep := fun _ h => by cases h }⟩
  · next hterm =>
    rw [shallTerminate_iff, h.nonstop] at hterm
    split
    · next hdue =>
      have hlate := (compareTS_pos_iff hnormal h.wait_normal).mp hdue
      have hinc : s.periodic_inc.Normal := h.inc ▸ normal_periodOfNs _
      have hns : s.periodic_inc.ns = o.ns := by rw [h.inc, ns_periodOfNs, toNat_inc]
      have hinterval := o.interval.toNat_lt
      have hlimit : s.ts_wait.ns + s.periodic_inc.ns < nsLimit := by
        have hlt := hnormal.2
        rw [hns, Options.ns, nsLimit]
        unfold Timespec.ns at hlate
        unfold Timespec.ns
        omega
      have hsum : (addTS s.ts_wait s.ts_wait s.periodic_inc).ns = deadline o t₀ (k + 1) := by
        rw [ns_addTS_of_lt h.wait_normal hinc (by rw [hns, Options.ns]; omega) hlimit, hns,
          h.wait, deadline_succ]
      exact ⟨k + 1, { h with
        wait_normal := normal_addTS h.wait_normal hinc
        wait := hsum
        passed := fun j hj => by
          obtain hj | rfl := Nat.lt_succ_iff_lt_or_eq.mp hj
          · exact hpassed j hj
          · exact h.wait ▸ hlate
        measured := hmeasured
        alive := fun _ => by
          by_contra hnone
          rw [not_or, Bool.not_eq_true, not_not] at hnone
          exact hterm hnone
        done := fun h => by cases h
        asleep := fun _ h => by cases h }⟩
    · next hdue =>
      have hearly : now.ns ≤ s.ts_wait.ns :=
        not_lt.mp fun hlt => hdue ((compareTS_pos_iff hnormal h.wait_normal).mpr hlt)
      refine ⟨k, { h with
        passed := hpassed
        measured := hmeasured
        alive := fun h => by cases h
        done := fun h => by cases h
        asleep := fun ns hns => ?_ }⟩
      obtain rfl : _ = ns := Pc.sleep.inj hns
      have hsleep : ((subtractTS ⟨0, 0, 0, 0, 0⟩ now s.ts_wait).elapsedNs.toNat : Int) =
          (s.ts_wait.ns - now.ns) % 2 ^ 64 := toNat_elapsedNs_subtractTS
      have hinc := toNat_inc o
      rw [← h.inc_ns] at hinc
      split
      · next hgt =>
        rw [gt_iff_lt, UInt64.lt_iff_toNat_lt] at hgt
        exact ⟨hinc.le, by dsimp only; omega⟩
      · next hle =>
        rw [gt_iff_lt, UInt64.lt_iff_toNat_lt] at hle
        exact ⟨by omega, by dsimp only; omega⟩

/-- **Every step keeps the schedule.** -/
theorem Inv.step (h : Inv o t₀ k s) (hok : ClockOk s l) (hs : step stod s l = some s') :
    ∃ k, Inv o t₀ k s' := by
  cases l with
  | measure now output =>
      simp only [Ntplogd.step] at hs
      split at hs
      · next hpc =>
        cases hs
        exact ⟨k, h.measure hpc hok.2.1⟩
      · cases hs
  | check now =>
      simp only [Ntplogd.step] at hs
      split at hs
      · next hpc =>
        cases hs
        exact h.check hpc hok.1 hok.2.1 hok.2.2
      · cases hs
  | wake =>
      simp only [Ntplogd.step] at hs
      split at hs
      · next ns hpc =>
        cases hs
        have hmeasured := h.measured
        rw [hpc] at hmeasured
        exact ⟨k, { h with
          measured := hmeasured
          alive := fun h => by cases h
          done := fun h => by cases h
          asleep := fun _ h => by cases h }⟩
      · cases hs

end Schedule

/-! ## runs -/

/-- The step goes to sleep or wakes up. -/
def Daemon.dozes (s : Daemon D) : Act → Bool
  | .measure _ _ => false
  | .check now => !s.shallTerminate && decide (compareTS now s.ts_wait ≤ 0)
  | .wake => true

/-- How many steps are left that do not doze. -/
def Daemon.rank (s : Daemon D) : Nat :=
  match s.pc with
  | .measure => 2 * s.iteration.toNat + if s.skippedFirst then 0 else 2
  | .failed => 2 * s.iteration.toNat + (if s.skippedFirst then 0 else 2) - 1
  | .snooze | .sleep _ => 2 * s.iteration.toNat + 1
  | .done => 0

/-- What is measured in a step. -/
def measurement : Act → Option (Timespec × ClockError D)
  | .measure now output => (clockError stod output).map fun err => (now, err)
  | _ => none

/-- What the daemon has done by its schedule. -/
structure OnSchedule (o : Options) (t₀ : Timespec) (s : Daemon D) : Prop where
  lines : ∀ i p, s.log[i]? = some p → deadline o t₀ i < p.1.ns
  bounded : o.nonstop = false → s.log.length ≤ o.lines
  done : s.pc = .done → o.nonstop = false ∧ s.log.length = o.lines
  asleep : ∀ ns, s.pc = .sleep ns →
    (ns.toNat : Int) ≤ o.ns ∧ s.ts_now.ns + ns.toNat ≤ deadline o t₀ s.log.length

section Runs

variable {stod} {o : Options} {t₀ now : Timespec} {k : Nat} {s s' : Daemon D} {l : Act}
  {tr : List (Daemon D × Act)}

theorem Inv.onSchedule (h : Inv o t₀ k s) : OnSchedule o t₀ s where
  lines := h.lines
  bounded hnot := (h.count hnot).le.trans' (Nat.le_add_right ..)
  done hdone := by
    obtain ⟨hnot, hzero⟩ := h.done hdone
    have hcount := h.count hnot
    rw [hzero] at hcount
    exact ⟨hnot, hcount⟩
  asleep ns hns := by
    obtain ⟨hle, hwait⟩ := h.asleep ns hns
    have hmeasured := h.measured
    rw [hns, Daemon.measured, Pc.round] at hmeasured
    have hk : k ≤ s.log.length := by split at hmeasured <;> omega
    rw [h.wait] at hwait
    exact ⟨hle, hwait.trans (deadline_mono o t₀ hk)⟩

/-- The first answer is dropped before the first sleep. -/
theorem Inv.skippedFirst_of_snooze (h : Inv o t₀ k s) (hpc : s.pc = .snooze) :
    s.skippedFirst = true := by
  by_contra hskipped
  rw [Bool.not_eq_true] at hskipped
  have hmeasured := h.measured
  simp [hpc, Daemon.measured, Pc.round, hskipped, h.first hskipped] at hmeasured

/-- A step that does not doze is one step nearer to the end. -/
theorem Inv.rank_step (h : Inv o t₀ k s) (hnot : o.nonstop = false)
    (hs : Ntplogd.step stod s l = some s') : s'.rank + (if s.dozes l then 0 else 1) = s.rank := by
  cases l with
  | measure now output =>
      simp only [Ntplogd.step] at hs
      split at hs
      · next hpc =>
        cases hs
        have hpos : s.iteration.toNat ≠ 0 := fun hzero =>
          (h.alive hpc).resolve_left (by simp [hnot]) (UInt32.toNat_inj.mp hzero)
        have hsub : (s.iteration - 1).toNat = s.iteration.toNat - 1 := by
          have hlt := s.iteration.toNat_lt
          rw [UInt32.toNat_sub, show (1 : UInt32).toNat = 1 from rfl]
          omega
        unfold Daemon.measure
        split
        · simp only [Daemon.rank, Daemon.dozes, hpc, Bool.false_eq_true, if_false]
          omega
        · split
          · next hskipped =>
            simp only [Daemon.rank, Daemon.dozes, hpc, hskipped, hsub]
            simp
            omega
          · next hskipped => simp [Daemon.rank, Daemon.dozes, hpc, hskipped]
      · cases hs
  | check now =>
      simp only [Ntplogd.step] at hs
      split at hs
      · next hpc =>
        cases hs
        unfold Daemon.check
        split
        · next hterm =>
          obtain ⟨-, hzero⟩ := shallTerminate_iff.mp hterm
          simp [Daemon.rank, Daemon.dozes, hpc, hterm, hzero]
        · next hterm =>
          split
          · next hdue =>
            have hlate : ¬ compareTS now s.ts_wait ≤ 0 := not_le.mpr hdue
            simp [Daemon.rank, Daemon.dozes, hpc, hlate, h.skippedFirst_of_snooze hpc]
          · next hdue =>
            have hearly : compareTS now s.ts_wait ≤ 0 := not_lt.mp hdue
            simp [Daemon.rank, Daemon.dozes, hpc, hearly, hterm]
      · cases hs
  | wake =>
      simp only [Ntplogd.step] at hs
      split at hs
      · next ns hpc =>
        cases hs
        simp [Daemon.rank, Daemon.dozes, hpc]
      · cases hs

/-- What is measured first is not printed. -/
theorem log_step (hs : Ntplogd.step stod s l = some s') :
    s'.skippedFirst = (s.skippedFirst || (measurement stod l).isSome) ∧
      s'.log = s.log ++ if s.skippedFirst then (measurement stod l).toList else [] := by
  cases l with
  | measure now output =>
      simp only [Ntplogd.step] at hs
      split at hs
      · cases hs
        simp only [Daemon.measure, measurement]
        cases clockError stod output with
        | none => simp
        | some err => cases s.skippedFirst <;> simp
      · cases hs
  | check now =>
      simp only [Ntplogd.step] at hs
      split at hs
      · cases hs
        unfold Daemon.check
        split
        · simp [measurement]
        · split <;> simp [measurement]
      · cases hs
  | wake =>
      simp only [Ntplogd.step] at hs
      split at hs
      · cases hs
        simp [measurement]
      · cases hs

theorem log_eq (h : Trace (Ntplogd.step stod) (start o t₀) ClockOk tr s) :
    s.skippedFirst = !(tr.filterMap (measurement stod ·.2)).isEmpty ∧
      s.log = (tr.filterMap (measurement stod ·.2)).drop 1 := by
  induction h with
  | init => exact ⟨rfl, rfl⟩
  | @step tr s s' l _ _ hs ih =>
      obtain ⟨hfirst, hlog⟩ := log_step hs
      rw [List.filterMap_append, hfirst, hlog, ih.1, ih.2]
      cases tr.filterMap (measurement stod ·.2) with
      | nil => cases h : measurement stod l <;> simp [h]
      | cons p ms => cases h : measurement stod l <;> simp [h]

theorem trace_inv (hsec : t₀.tvSec.toInt < 2 ^ 62)
    (h : Trace (Ntplogd.step stod) (start o t₀) ClockOk tr s) : ∃ k, Inv o t₀ k s :=
  h.reach.invariant (I := fun s => ∃ k, Inv o t₀ k s) ⟨0, inv_start hsec⟩
    fun _ _ _ ⟨_, hk⟩ hok hs => hk.step hok hs

theorem rank_start : (start o t₀ : Daemon D).rank = 2 * o.lines + 2 := by
  unfold Options.lines
  cases h : o.periodic <;> simp [start, Daemon.rank, h]

/-- **A run of the daemon**: whatever the readings of a clock that does not go
back, line `k` has a time-stamp later than its deadline; sleeping, the daemon
asks for no more than the interval and not past the next deadline; the lines are
the answers of `chronyc` in their order, without the first; and it ends after
`2 * n + 2` steps that do not doze, with the `n` lines it was asked for. -/
theorem daemon_run (hsec : t₀.tvSec.toInt < 2 ^ 62)
    (h : Trace (Ntplogd.step stod) (start o t₀) ClockOk tr s) :
    OnSchedule o t₀ s ∧ s.log = (tr.filterMap (measurement stod ·.2)).drop 1 ∧
      (o.nonstop = false → tr.countP (fun p => !p.1.dozes p.2) + s.rank = 2 * o.lines + 2) := by
  obtain ⟨k, hk⟩ := trace_inv hsec h
  refine ⟨hk.onSchedule, (log_eq h).2, fun hnot => ?_⟩
  clear hk
  induction h with
  | init => exact (Nat.zero_add _).trans rank_start
  | @step tr s s' l htr _ hs ih =>
      obtain ⟨k, hk⟩ := trace_inv hsec htr
      have hrank := hk.rank_step hnot hs
      rw [List.countP_append, List.countP_singleton]
      cases hdozes : s.dozes l <;> simp [hdozes] at hrank ⊢ <;> omega

/-- One line is asked for, and `chronyc` answers the same twice. -/
theorem daemon_run_once : ∃ tr, ∃ s : Daemon Int,
    Trace (Ntplogd.step parseInt) (start ⟨1, 0, false⟩ ⟨0, 0, 0, 0, 0⟩) ClockOk tr s ∧
      s.pc = .done ∧ s.log = (tr.filterMap (measurement parseInt ·.2)).drop 1 ∧
        tr.countP (fun p => !p.1.dozes p.2) = 4 := by
  let answer := "0,0,0,0,5,0,0,0,0,0,6,7\n".toList
  obtain ⟨tr, s, ht, hs⟩ : ∃ tr, ∃ s : Daemon Int,
      Trace (Ntplogd.step parseInt) (start ⟨1, 0, false⟩ ⟨0, 0, 0, 0, 0⟩) ClockOk tr s ∧
        decide (s.pc = .done) = true :=
    Trace.of_exec_any [.measure ⟨0, 1, 0, 0, 0⟩ answer, .check ⟨0, 2, 0, 0, 0⟩, .wake,
      .check ⟨1, 1, 0, 0, 0⟩, .measure ⟨1, 2, 0, 0, 0⟩ answer, .check ⟨1, 3, 0, 0, 0⟩]
      (fun _ (s : Daemon Int) => decide (s.pc = .done)) (by decide +kernel)
  have hpc := of_decide_eq_true hs
  obtain ⟨-, hlog, hcount⟩ := daemon_run (by decide) ht
  refine ⟨tr, s, ht, hpc, hlog, ?_⟩
  simpa [Daemon.rank, hpc, Options.lines] using hcount rfl

end Runs

end CloudProfiler.Ntplogd
