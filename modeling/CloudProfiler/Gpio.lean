import CloudProfiler.Handler
import CloudProfiler.Run
import CloudProfiler.Sense

/-!
# CloudProfiler.Gpio

GPIO round trips (`gpiortt_handler.cpp`): a client and a master, two boards
connected by four lines.  Each side has an output for the barrier and one for
the signals, which it only toggles, and reads the two outputs of the other.

A step is what one side does between two accesses to the lines; a side that
waits may look at its line any number of times.  `toggledC`, `toggledM` and
`returned` are histories, read by no step.

* `Gpio.clientStep` — `GPIORTTHandler_client`, and the barrier in
  `setArgGPIORTTHandler`;
* `Gpio.masterStep` — `GPIORTTHandler_server`;
* `LockStep` — the two sides run in lock-step;
* `gpio_lock_step` — in every reached state.
-/

namespace CloudProfiler

/-- `PIN_LINE_M`. -/
def pinLineM : Nat := 8

/-- `PIN_LINE_C`. -/
def pinLineC : Nat := 9

/-- `PIN_BARR_M`. -/
def pinBarrM : Nat := 10

/-- `PIN_BARR_C`. -/
def pinBarrC : Nat := 11

/-- The registers of a board: the direction of each pin (0 is output) and
what it puts out. -/
structure Board where
  fsel : BitVec 32
  outp : BitVec 32

namespace Board

/-- `initGPIO`. -/
def initGPIO (isMaster : Bool) (b : Board) : Board :=
  let line := if isMaster then pinLineM else pinLineC
  let barr := if isMaster then pinBarrM else pinBarrC
  { fsel := clear (clear (b.fsel ||| 0xFFFFFFFF) line) barr
    outp := clear (clear b.outp line) barr }

/-- `*(gpio + OUTP_OFFSET) ^= 1UL << p`. -/
def toggle (b : Board) (p : Nat) : Board := { b with outp := CloudProfiler.toggle b.outp p }

/-- `PIN(*(gpio + INP_OFFSET), p)`: the level of the line at pin `p`, which is
low when neither board drives it. -/
def inp (b peer : Board) (p : Nat) : BitVec 32 :=
  if pin b.fsel p = 0 then pin b.outp p
  else if pin peer.fsel p = 0 then pin peer.outp p
  else 0

end Board

/-- `struct GPIORTT_closure`, without the fields that `initGPIO` uses to get
at the registers. -/
structure GPIORTTClosure where
  base : Base (Int64 × UInt64)
  start : UInt64
  stop : UInt64
  elapsed : UInt64
  isMaster : Bool
  barrM : BitVec 32
  barrC : BitVec 32
  lineM : BitVec 32
  lineC : BitVec 32

/-- `initGPIORTTHandler`, with the file opened, and argument 2 set. -/
def initGPIORTTHandler (isMaster : Bool) : GPIORTTClosure :=
  ⟨.opened, 0, 0, 0, isMaster, 0, 0, 0, 0⟩

/-- Where the client is. -/
inductive ClientPc
  /-- before the barrier -/
  | start
  | waitBarr
  /-- between two calls of the handler -/
  | idle
  | signal (tuple : Int64)
  | waitLine (tuple : Int64)
  deriving DecidableEq, Repr

/-- Where the thread of the master is. -/
inductive MasterPc
  /-- before the barrier -/
  | start
  | waitBarr
  | signalBarr
  | loop
  | waitLine
  | signal
  | done
  deriving DecidableEq, Repr

/-- The two sides. -/
structure Gpio where
  client : Board
  master : Board
  clientCl : GPIORTTClosure
  masterCl : GPIORTTClosure
  clientPc : ClientPc
  masterPc : MasterPc
  toggledC : Nat
  toggledM : Nat
  returned : Nat

namespace Gpio

/-- Both sides after `initGPIO`, whatever their registers held before. -/
def init (client master : Board) : Gpio where
  client := client.initGPIO false
  master := master.initGPIO true
  clientCl := initGPIORTTHandler false
  masterCl := initGPIORTTHandler true
  clientPc := .start
  masterPc := .start
  toggledC := 0
  toggledM := 0
  returned := 0

/-- `GPIORTTHandler_client` is called. -/
def call (s : Gpio) (tuple : Int64) : Option Gpio :=
  if s.clientPc = .idle then
    some { s with
      clientCl := { s.clientCl with
        lineC := reverseSense s.clientCl.lineC
        lineM := reverseSense s.clientCl.lineM }
      clientPc := .signal tuple }
  else none

/-- The next step of the client; `cycles` is the cycle counter. -/
def clientStep (s : Gpio) (cycles : UInt64) : Option Gpio :=
  match s.clientPc with
  | .start =>
      some { s with
        clientCl := { s.clientCl with
          barrC := reverseSense s.clientCl.barrC
          barrM := reverseSense s.clientCl.barrM }
        client := s.client.toggle pinBarrC
        clientPc := .waitBarr }
  | .waitBarr =>
      if s.client.inp s.master pinBarrM = s.clientCl.barrM then some { s with clientPc := .idle }
      else some s
  | .idle => none
  | .signal tuple =>
      some { s with
        clientCl := { s.clientCl with start := cycles }
        client := s.client.toggle pinLineC
        clientPc := .waitLine tuple
        toggledC := s.toggledC + 1 }
  | .waitLine tuple =>
      if s.client.inp s.master pinLineM = s.clientCl.lineM then
        let elapsed := cycles - s.clientCl.start
        some { s with
          clientCl := { s.clientCl with
            stop := cycles
            elapsed := elapsed
            base := s.clientCl.base.put (tuple, elapsed) }
          clientPc := .idle
          returned := s.returned + 1 }
      else some s

/-- The next step of the master's thread. -/
def masterStep (s : Gpio) : Option Gpio :=
  match s.masterPc with
  | .start =>
      some { s with
        masterCl := { s.masterCl with barrC := reverseSense s.masterCl.barrC }
        masterPc := .waitBarr }
  | .waitBarr =>
      if s.master.inp s.client pinBarrC = s.masterCl.barrC then
        some { s with
          masterCl := { s.masterCl with barrM := reverseSense s.masterCl.barrM }
          masterPc := .signalBarr }
      else some s
  | .signalBarr => some { s with master := s.master.toggle pinBarrM, masterPc := .loop }
  | .loop =>
      if s.masterCl.isMaster then
        some { s with
          masterCl := { s.masterCl with
            lineC := reverseSense s.masterCl.lineC
            lineM := reverseSense s.masterCl.lineM }
          masterPc := .waitLine }
      else some { s with masterPc := .done }
  | .waitLine =>
      if s.master.inp s.client pinLineC = s.masterCl.lineC then some { s with masterPc := .signal }
      else some s
  | .signal =>
      some { s with
        master := s.master.toggle pinLineM
        masterPc := .loop
        toggledM := s.toggledM + 1 }
  | .done => none

/-- What happens next. -/
inductive Act
  | call (tuple : Int64)
  | client (cycles : UInt64)
  | master

/-- One step. -/
def step (s : Gpio) : Act → Option Gpio
  | .call tuple => s.call tuple
  | .client cycles => s.clientStep cycles
  | .master => s.masterStep

/-! ## lock-step -/

end Gpio

/-- The number of barrier toggles of the client. -/
def ClientPc.barr : ClientPc → Nat
  | .start => 0
  | _ => 1

/-- The client has passed the barrier. -/
def ClientPc.passed : ClientPc → Bool
  | .start | .waitBarr => false
  | _ => true

/-- The calls under way. -/
def ClientPc.calls : ClientPc → Nat
  | .signal _ | .waitLine _ => 1
  | _ => 0

/-- The signals sent by the call under way. -/
def ClientPc.sent : ClientPc → Nat
  | .waitLine _ => 1
  | _ => 0

/-- How often the master has reversed `barr_c`. -/
def MasterPc.expects : MasterPc → Nat
  | .start => 0
  | _ => 1

/-- The master has passed the barrier. -/
def MasterPc.passed : MasterPc → Bool
  | .start | .waitBarr => false
  | _ => true

/-- The number of barrier toggles of the master. -/
def MasterPc.barr : MasterPc → Nat
  | .start | .waitBarr | .signalBarr => 0
  | _ => 1

/-- The signals the master waits for or has to answer. -/
def MasterPc.waits : MasterPc → Nat
  | .waitLine | .signal => 1
  | _ => 0

namespace Gpio

/-- **The two sides run in lock-step.**  Neither passes the barrier before the
other has reached it, the answers lag the signals by at most one, and between
two calls each call that returned was one signal and one answer. -/
structure LockStep (s : Gpio) : Prop where
  client : s.clientPc.passed = true → s.masterPc ≠ .start
  master : s.masterPc.passed = true → s.clientPc ≠ .start
  answered : s.toggledM ≤ s.toggledC
  lag : s.toggledC ≤ s.toggledM + 1
  returned : s.clientPc = .idle → s.toggledM = s.returned ∧ s.toggledC = s.returned

/-- The lines show how often they were toggled, and the sense variables how
often that is expected. -/
structure Inv (s : Gpio) : Prop where
  clientDirs : s.client.fsel = clear (clear 0xFFFFFFFF pinLineC) pinBarrC
  masterDirs : s.master.fsel = clear (clear 0xFFFFFFFF pinLineM) pinBarrM
  isMaster : s.masterCl.isMaster = true
  levelBarrC : pin s.client.outp pinBarrC = sense 32 s.clientPc.barr
  levelLineC : pin s.client.outp pinLineC = sense 32 s.toggledC
  levelBarrM : pin s.master.outp pinBarrM = sense 32 s.masterPc.barr
  levelLineM : pin s.master.outp pinLineM = sense 32 s.toggledM
  clientBarr : s.clientCl.barrM = sense 32 s.clientPc.barr
  clientLine : s.clientCl.lineM = sense 32 (s.returned + s.clientPc.calls)
  masterBarr : s.masterCl.barrC = sense 32 s.masterPc.expects
  masterLine : s.masterCl.lineC = sense 32 (s.toggledM + s.masterPc.waits)
  sent : s.toggledC = s.returned + s.clientPc.sent
  answered : s.toggledM ≤ s.toggledC
  lag : s.toggledC ≤ s.toggledM + 1
  idle : s.clientPc.sent = 0 → s.toggledM = s.toggledC
  asked : s.masterPc = .signal → s.toggledC = s.toggledM + 1
  barrC : s.clientPc.passed = true → s.masterPc.barr = 1
  barrM : s.masterPc.passed = true → s.clientPc.barr = 1

section Inv

variable {s s' : Gpio} {l : Act}

theorem Inv.lockStep (h : Inv s) : LockStep s where
  client hp hm := by
    have hbarr := h.barrC hp
    simp [hm, MasterPc.barr] at hbarr
  master hp hc := by
    have hbarr := h.barrM hp
    simp [hc, ClientPc.barr] at hbarr
  answered := h.answered
  lag := h.lag
  returned hc := by
    have hsent := h.sent
    have hidle := h.idle (by rw [hc]; rfl)
    simp only [hc, ClientPc.sent] at hsent
    omega

theorem outp_toggle_self {b : Board} {p n : Nat} (hp : p < 32) (h : pin b.outp p = sense 32 n) :
    pin (b.toggle p).outp p = sense 32 (n + 1) := by
  rw [Board.toggle, pin_toggle_self hp, h, reverseSense_sense]

/-- What the client reads. -/
theorem Inv.client_inp (h : Inv s) :
    s.client.inp s.master pinBarrM = sense 32 s.masterPc.barr ∧
      s.client.inp s.master pinLineM = sense 32 s.toggledM := by
  rw [← h.levelBarrM, ← h.levelLineM, Board.inp, Board.inp, h.clientDirs, h.masterDirs]
  exact ⟨by rw [if_neg (by decide), if_pos (by decide)],
    by rw [if_neg (by decide), if_pos (by decide)]⟩

/-- What the master reads. -/
theorem Inv.master_inp (h : Inv s) :
    s.master.inp s.client pinBarrC = sense 32 s.clientPc.barr ∧
      s.master.inp s.client pinLineC = sense 32 s.toggledC := by
  rw [← h.levelBarrC, ← h.levelLineC, Board.inp, Board.inp, h.clientDirs, h.masterDirs]
  exact ⟨by rw [if_neg (by decide), if_pos (by decide)],
    by rw [if_neg (by decide), if_pos (by decide)]⟩

theorem inv_init (client master : Board) : Inv (init client master) where
  clientDirs := by
    simp only [init, Board.initGPIO]
    rw [show (0xFFFFFFFF : BitVec 32) = BitVec.allOnes 32 from rfl, BitVec.or_allOnes]
    rfl
  masterDirs := by
    simp only [init, Board.initGPIO]
    rw [show (0xFFFFFFFF : BitVec 32) = BitVec.allOnes 32 from rfl, BitVec.or_allOnes]
    rfl
  isMaster := rfl
  levelBarrC := pin_clear_self _ _
  levelLineC := (pin_clear_of_ne (by decide) (by decide)).trans (pin_clear_self _ _)
  levelBarrM := pin_clear_self _ _
  levelLineM := (pin_clear_of_ne (by decide) (by decide)).trans (pin_clear_self _ _)
  clientBarr := rfl
  clientLine := rfl
  masterBarr := rfl
  masterLine := rfl
  sent := rfl
  answered := Nat.le_refl _
  lag := Nat.le_succ _
  idle _ := rfl
  asked hm := by cases hm
  barrC hp := by cases hp
  barrM hp := by cases hp

theorem Inv.call (h : Inv s) {tuple : Int64} (hs : s.call tuple = some s') : Inv s' := by
  unfold Gpio.call at hs
  split at hs
  · next hpc =>
    cases hs
    have hbits := h.levelBarrC
    have hbarr := h.clientBarr
    have hline := h.clientLine
    have hsent := h.sent
    rw [hpc] at hbits hbarr hline hsent
    refine { h with
      levelBarrC := hbits, clientBarr := hbarr, clientLine := ?_, sent := hsent, idle := ?_,
      barrC := ?_, barrM := fun _ => rfl }
    · simp only [hline, reverseSense_sense, ClientPc.calls]
    · exact fun _ => h.idle (by rw [hpc]; rfl)
    · exact fun _ => h.barrC (by rw [hpc]; rfl)
  · cases hs

/-- **Every step of the client keeps the invariant.** -/
theorem Inv.client (h : Inv s) {cycles : UInt64} (hs : s.clientStep cycles = some s') : Inv s' := by
  unfold clientStep at hs
  obtain ⟨hreadBarr, hreadLine⟩ := h.client_inp
  have hbits := h.levelBarrC
  have hbarr := h.clientBarr
  have hline := h.clientLine
  have hsent := h.sent
  cases hpc : s.clientPc with
  | start =>
      rw [hpc] at hs hbits hbarr hline hsent
      cases hs
      refine { h with
        clientDirs := h.clientDirs, levelBarrC := ?_, levelLineC := ?_, clientBarr := ?_,
        clientLine := hline, sent := hsent, idle := ?_, barrC := nofun, barrM := fun _ => rfl }
      · exact outp_toggle_self (by decide) hbits
      · exact (pin_toggle_of_ne (by decide)).trans h.levelLineC
      · exact (congrArg reverseSense hbarr).trans (reverseSense_sense _)
      · exact fun _ => h.idle (by rw [hpc]; rfl)
  | waitBarr =>
      rw [hpc] at hs hbits hbarr hline hsent
      simp only at hs
      split at hs
      · next heq =>
        cases hs
        have hmaster : s.masterPc.barr = 1 := by
          rw [hreadBarr, hbarr] at heq
          exact sense_reached (by decide) (by cases s.masterPc <;> decide) (Nat.le_add_left _ _) heq
        exact { h with
          levelBarrC := hbits, clientBarr := hbarr, clientLine := hline, sent := hsent,
          idle := fun _ => h.idle (by rw [hpc]; rfl), barrC := fun _ => hmaster,
          barrM := fun _ => rfl }
      · cases hs
        exact h
  | idle =>
      rw [hpc] at hs
      cases hs
  | signal tuple =>
      have hidle := h.idle (by rw [hpc]; rfl)
      rw [hpc] at hs hbits hbarr hline hsent
      cases hs
      refine { h with
        clientDirs := h.clientDirs, levelBarrC := ?_, levelLineC := ?_, clientBarr := hbarr,
        clientLine := hline, sent := ?_, answered := ?_, lag := ?_, idle := nofun, asked := ?_,
        barrC := fun _ => h.barrC (by rw [hpc]; rfl), barrM := fun _ => rfl }
      · exact (pin_toggle_of_ne (by decide)).trans hbits
      · exact outp_toggle_self (by decide) h.levelLineC
      · exact congrArg (· + 1) hsent
      · exact Nat.le_succ_of_le h.answered
      · exact Nat.succ_le_succ (Nat.le_of_eq hidle.symm)
      · intro hm
        have hasked := h.asked hm
        omega
  | waitLine tuple =>
      rw [hpc] at hs hbits hbarr hline hsent
      simp only at hs
      split at hs
      · next heq =>
        cases hs
        -- the master has answered: its line is no longer behind
        have hmaster : s.toggledM = s.returned + 1 := by
          rw [hreadLine, hline] at heq
          have hle := h.answered
          have hlag := h.lag
          rw [hsent] at hle hlag
          exact sense_reached (by decide) hle hlag heq
        exact { h with
          levelBarrC := hbits, clientBarr := hbarr, clientLine := hline, sent := hsent,
          idle := fun _ => hmaster.trans hsent.symm,
          barrC := fun _ => h.barrC (by rw [hpc]; rfl), barrM := fun _ => rfl }
      · cases hs
        exact h

/-- **Every step of the master keeps the invariant.** -/
theorem Inv.master (h : Inv s) (hs : s.masterStep = some s') : Inv s' := by
  unfold masterStep at hs
  obtain ⟨hreadBarr, hreadLine⟩ := h.master_inp
  have hbits := h.levelBarrM
  have hbarr := h.masterBarr
  have hline := h.masterLine
  have hpassed := h.barrC
  cases hpc : s.masterPc with
  | start =>
      rw [hpc] at hs hbits hbarr hline hpassed
      cases hs
      refine { h with
        levelBarrM := hbits, masterBarr := ?_, masterLine := hline, asked := nofun,
        barrC := hpassed, barrM := nofun }
      exact (congrArg reverseSense hbarr).trans (reverseSense_sense _)
  | waitBarr =>
      rw [hpc] at hs hbits hbarr hline hpassed
      simp only at hs
      split at hs
      · next heq =>
        cases hs
        have hclient : s.clientPc.barr = 1 := by
          rw [hreadBarr, hbarr] at heq
          have hone : s.clientPc.barr ≤ 1 := by cases s.clientPc <;> simp [ClientPc.barr]
          exact sense_reached (by decide) hone (Nat.le_add_left _ _) heq
        exact { h with
          levelBarrM := hbits, masterBarr := hbarr, masterLine := hline, asked := nofun,
          barrC := hpassed, barrM := fun _ => hclient }
      · cases hs
        exact h
  | signalBarr =>
      rw [hpc] at hs hbits hbarr hline
      cases hs
      refine { h with
        masterDirs := h.masterDirs, levelBarrM := ?_, levelLineM := ?_, masterBarr := hbarr,
        masterLine := hline, asked := nofun, barrC := fun _ => rfl,
        barrM := fun _ => h.barrM (by rw [hpc]; rfl) }
      · exact outp_toggle_self (by decide) hbits
      · exact (pin_toggle_of_ne (by decide)).trans h.levelLineM
  | loop =>
      rw [hpc] at hs hbits hbarr hline
      simp only [if_pos h.isMaster] at hs
      cases hs
      refine { h with
        isMaster := h.isMaster, levelBarrM := hbits, masterBarr := hbarr, masterLine := ?_,
        asked := nofun, barrC := fun _ => rfl, barrM := fun _ => h.barrM (by rw [hpc]; rfl) }
      exact (congrArg reverseSense hline).trans (reverseSense_sense _)
  | waitLine =>
      rw [hpc] at hs hbits hbarr hline
      simp only at hs
      split at hs
      · next heq =>
        cases hs
        have hclient : s.toggledC = s.toggledM + 1 := by
          rw [hreadLine, hline] at heq
          exact sense_reached (by decide) h.lag (Nat.succ_le_succ h.answered) heq
        exact { h with
          levelBarrM := hbits, masterBarr := hbarr, masterLine := hline, asked := fun _ => hclient,
          barrC := fun _ => rfl, barrM := fun _ => h.barrM (by rw [hpc]; rfl) }
      · cases hs
        exact h
  | signal =>
      have hasked := h.asked hpc
      rw [hpc] at hs hbits hbarr hline
      cases hs
      refine { h with
        masterDirs := h.masterDirs, levelBarrM := ?_, levelLineM := ?_, masterBarr := hbarr,
        masterLine := hline, answered := Nat.le_of_eq hasked.symm,
        lag := Nat.le_succ_of_le (Nat.le_of_eq hasked), idle := fun _ => hasked.symm,
        asked := nofun, barrC := fun _ => rfl, barrM := fun _ => h.barrM (by rw [hpc]; rfl) }
      · exact (pin_toggle_of_ne (by decide)).trans hbits
      · exact outp_toggle_self (by decide) h.levelLineM
  | done =>
      rw [hpc] at hs
      cases hs

theorem Inv.step (h : Inv s) (hs : step s l = some s') : Inv s' := by
  cases l with
  | call tuple => exact h.call hs
  | client cycles => exact h.client hs
  | master => exact h.master hs

/-- **The handshake runs in lock-step**, whatever the registers held before
`initGPIO` and however the two sides interleave. -/
theorem gpio_lock_step {client master : Board} (h : Reach step (init client master) anyStep s) :
    LockStep s := by
  have hinv : Inv s := h.invariant (inv_init client master) fun _ _ _ hi _ hs => hi.step hs
  exact hinv.lockStep

/-- A run in which the client has returned from one call of the handler. -/
theorem gpio_lock_step_one : ∃ s, Reach step (init ⟨0, 0⟩ ⟨0, 0⟩) anyStep s ∧
    s.returned = 1 ∧ s.toggledM = 1 ∧ LockStep s := by
  obtain ⟨s, hr, hp⟩ : ∃ s, Reach step (init ⟨0, 0⟩ ⟨0, 0⟩) anyStep s ∧
      decide (s.returned = 1 ∧ s.toggledM = 1) = true := Reach.of_exec_any
    [.client 0, .master, .master, .master, .client 0, .call 7, .client 10, .master, .master,
      .master, .client 15]
    _ (by decide +kernel)
  obtain ⟨hret, htog⟩ := of_decide_eq_true hp
  exact ⟨s, hr, hret, htog, gpio_lock_step hr⟩

end Inv

end Gpio

end CloudProfiler
