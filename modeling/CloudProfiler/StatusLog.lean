import CloudProfiler.Mutex
import CloudProfiler.Run

/-!
# CloudProfiler.StatusLog

The status log (`log.cpp`): `logFail` and `logStatus` write to `logf`, which
they open when it is not open yet, and `mtx_outfile` is to keep the threads
apart.

A step is what one thread does between two accesses to what is shared.  The
mutex is locked and unlocked by hand: `lock` waits until it is free, and
`unlock` frees it whoever holds it.  Between `unlock` and the nested
`openStatusLogFile` both logging functions let the others in; `logFail` locks
again afterwards and `logStatus` does not.

* `State.run` — the next step of a call;
* `Exclusive` — what the mutex is for;
* `FindsOpen` — the guard: `logStatus` finds the file open;
* `status_log_exclusive` — the log is exclusive in every run that meets it;
* `logStatus_unlocked` — it is not in other runs.
-/

namespace CloudProfiler

namespace StatusLog

/-- The two logging functions. -/
inductive LogFn
  | logFail | logStatus
  deriving DecidableEq, Repr

/-- The text that a logging function writes. -/
def LogFn.text (fn : LogFn) (file : String) (line : Nat) (msg : String) : String :=
  match fn with
  | .logFail => "ERROR: " ++ msg ++ ", line # " ++ toString line ++ ", file " ++ file ++ "\n"
  | .logStatus => "STATUS: " ++ msg ++ ", file " ++ file ++ ", line # " ++ toString line ++ "\n"

/-- The message of the overloads with an error value. -/
def withError (msg : String) (err : Int) : String := msg ++ ", error: " ++ toString err ++ "\n"

/-- The calls; a logging call has the error value of its overload. -/
inductive Call
  | openStatusLogFile
  | closeStatusLogFile
  | log (fn : LogFn) (file : String) (line : Nat) (msg : String) (err : Option Int)

/-- Where a thread is.  `back` is the logging call that `openStatusLogFile`
returns to. -/
inductive Pc
  | idle
  | openLock (back : Option (LogFn × String))
  | openTest (back : Option (LogFn × String))
  | openFile (back : Option (LogFn × String))
  | openUnlock (back : Option (LogFn × String))
  | closeLock
  | closeTest
  | closeUnlock
  | lock (fn : LogFn) (text : String)
  | test (fn : LogFn) (text : String)
  | release (fn : LogFn) (text : String)
  | relock (text : String)
  | write (text : String)
  | unlock
  deriving DecidableEq, Repr

namespace Pc

/-- The thread ought to hold the mutex. -/
def inside : Pc → Bool
  | .openTest _ | .openFile _ | .openUnlock _ | .closeTest | .closeUnlock
  | .test _ _ | .release _ _ | .write _ | .unlock => true
  | .idle | .openLock _ | .closeLock | .lock _ _ | .relock _ => false

/-- `logStatus` looks whether the file is open. -/
def testsForStatus : Pc → Bool
  | .test .logStatus _ => true
  | _ => false

/-- The next step writes to `logf`. -/
def writes : Pc → Bool
  | .write _ => true
  | _ => false

/-- The next step unlocks the mutex. -/
def unlocks : Pc → Bool
  | .openUnlock _ | .closeUnlock | .release _ _ | .unlock => true
  | _ => false

theorem inside_of_writes {p : Pc} (h : p.writes = true) : p.inside = true := by
  cases p with
  | write text => rfl
  | _ => cases h

theorem inside_of_unlocks {p : Pc} (h : p.unlocks = true) : p.inside = true := by
  cases p with
  | openUnlock | closeUnlock | release | unlock => rfl
  | _ => cases h

/-- The steps of the call that are left, at most. -/
def left : Pc → Nat
  | .idle => 0
  | .unlock | .closeUnlock | .openUnlock none => 1
  | .write _ | .closeTest | .openFile none => 2
  | .relock _ | .closeLock | .openTest none => 3
  | .openUnlock (some _) | .openLock none => 4
  | .openFile (some _) => 5
  | .openTest (some _) => 6
  | .openLock (some _) => 7
  | .release _ _ => 8
  | .test _ _ => 9
  | .lock _ _ => 10

/-- The first step of a call. -/
def ofCall : Call → Pc
  | .openStatusLogFile => .openLock none
  | .closeStatusLogFile => .closeLock
  | .log fn file line msg err => .lock fn (fn.text file line (err.elim msg (withError msg)))

end Pc

/-- `logf`, with the name of the file it was opened for. -/
structure LogFile where
  isOpen : Bool
  name : String
  content : List String

/-- What `openStatusLogFile` gets from outside: the IP address, the process
id, and whether the file can be opened. -/
structure Env where
  ip : String
  pid : Nat
  opens : Bool

/-- The threads and the variables of `log.cpp`; `console` is what was written
to `std::cout`. -/
structure State where
  pc : Nat → Pc
  mtxOutfile : Option Nat
  logf : LogFile
  outfileName : String
  toConsole : Bool
  console : List String

/-- No call is under way; the log file is in whatever state. -/
def init (logf : LogFile) (outfileName : String) (toConsole : Bool) : State where
  pc _ := .idle
  mtxOutfile := none
  logf := logf
  outfileName := outfileName
  toConsole := toConsole
  console := []

namespace State

def goto (s : State) (t : Nat) (p : Pc) : State := { s with pc := Function.update s.pc t p }

/-- `mtx_outfile.lock()`, and on to `p`. -/
def lock (s : State) (t : Nat) (p : Pc) : Option State :=
  if s.mtxOutfile = none then some { s.goto t p with mtxOutfile := some t } else none

/-- `mtx_outfile.unlock()`, and on to `p`. -/
def unlock (s : State) (t : Nat) (p : Pc) : State := { s.goto t p with mtxOutfile := none }

/-- `logf.open` for a file that is truncated; a failed open leaves `logf`
closed. -/
def openLogf (s : State) (e : Env) : State :=
  let name := s.outfileName ++ ":" ++ e.ip ++ ":" ++ toString e.pid ++ ".txt"
  if e.opens then { s with logf := ⟨true, name, []⟩ } else s

/-- `logf << text`, and to the console if this is asked for. -/
def put (s : State) (text : String) : State :=
  { s with
    logf := if s.logf.isOpen then { s.logf with content := s.logf.content ++ [text] } else s.logf
    console := if s.toConsole then s.console ++ [text] else s.console }

/-- The next step of the call of thread `t`. -/
def run (s : State) (t : Nat) (e : Env) : Option State :=
  match s.pc t with
  | .idle => none
  -- openStatusLogFile
  | .openLock back => s.lock t (.openTest back)
  | .openTest back => some (s.goto t (if s.logf.isOpen then .openUnlock back else .openFile back))
  | .openFile back => some ((s.openLogf e).goto t (.openUnlock back))
  | .openUnlock none => some (s.unlock t .idle)
  | .openUnlock (some (.logFail, text)) => some (s.unlock t (.relock text))
  | .openUnlock (some (.logStatus, text)) => some (s.unlock t (.write text))
  -- closeStatusLogFile
  | .closeLock => s.lock t .closeTest
  | .closeTest =>
      some ({ s with logf := { s.logf with isOpen := false } }.goto t .closeUnlock)
  | .closeUnlock => some (s.unlock t .idle)
  -- logFail and logStatus
  | .lock fn text => s.lock t (.test fn text)
  | .test fn text => some (s.goto t (if s.logf.isOpen then .write text else .release fn text))
  | .release fn text => some (s.unlock t (.openLock (some (fn, text))))
  | .relock text => s.lock t (.write text)
  | .write text => some ((s.put text).goto t .unlock)
  | .unlock => some (s.unlock t .idle)

end State

/-- What happens next: a thread makes a call, or goes on with its call. -/
inductive Act
  | call (t : Nat) (c : Call)
  | run (t : Nat) (e : Env)

/-- One step. -/
def step (s : State) : Act → Option State
  | .call t c => if s.pc t = .idle then some (s.goto t (.ofCall c)) else none
  | .run t e => s.run t e

/-- **What the mutex is for**: a thread writes to `logf` and unlocks the mutex
only while it holds it, and does not hold it when its call has returned; and
no call waits for ever, since some call can go on, one that waits for nobody
or the one that holds the mutex. -/
structure Exclusive (s : State) : Prop where
  write : ∀ t, (s.pc t).writes = true → s.mtxOutfile = some t
  unlock : ∀ t, (s.pc t).unlocks = true → s.mtxOutfile = some t
  returned : ∀ t, s.pc t = .idle → s.mtxOutfile ≠ some t
  goesOn : ∀ t, s.pc t ≠ .idle → ∀ e,
    ((s.run t e).isSome = true ∨ ∃ u, s.mtxOutfile = some u ∧ (s.run u e).isSome = true)

/-- `logStatus` finds the file open. -/
def FindsOpen (s : State) : Act → Prop
  | .run t _ => (s.pc t).testsForStatus = true → s.logf.isOpen = true
  | .call _ _ => True

instance : DecidableRel FindsOpen := fun s l => by
  cases l <;> unfold FindsOpen <;> infer_instance

/-- The part of `logStatus` in which it has unlocked the mutex, before its
next `unlock`. -/
def Pc.lost : Pc → Bool
  | .release fn _ => fn = .logStatus
  | .openLock back | .openTest back | .openFile back | .openUnlock back =>
      back.any fun b => b.1 = .logStatus
  | _ => false

section Step

variable {s s' : State} {t : Nat} {e : Env} {l : Act}

theorem lock_cases {p : Pc} (h : s.lock t p = some s') :
    s.mtxOutfile = none ∧ s'.pc = Function.update s.pc t p ∧ s'.mtxOutfile = some t := by
  unfold State.lock at h
  split at h
  · next hfree =>
    cases h
    exact ⟨hfree, rfl, rfl⟩
  · cases h

/-- Every step of a call brings it closer to its end, and uses the mutex
well unless `logStatus` finds the file closed. -/
theorem run_cases (h : s.run t e = some s') :
    ∃ p, s'.pc = Function.update s.pc t p ∧ p.left < (s.pc t).left ∧
      ((s.pc t).lost = false → FindsOpen s (.run t e) →
        p.lost = false ∧ Mutex.Moves Pc.inside s.pc s.mtxOutfile t p s'.mtxOutfile) := by
  unfold State.run at h
  cases hpc : s.pc t with
  | idle =>
      rw [hpc] at h
      cases h
  | openLock back =>
      rw [hpc] at h
      obtain ⟨hfree, hpc', hm⟩ := lock_cases h
      refine ⟨.openTest back, hpc', by cases back <;> simp [Pc.left], fun hl _ => ⟨hl, ?_⟩⟩
      rw [hm]
      exact .lock hfree rfl
  | openTest back =>
      rw [hpc] at h
      cases h
      by_cases hopen : s.logf.isOpen = true
      · refine ⟨.openUnlock back, by simp [State.goto, hopen], by cases back <;> simp [Pc.left],
          fun hl _ => ⟨hl, .keep (by rw [hpc]; rfl)⟩⟩
      · refine ⟨.openFile back, by simp [State.goto, hopen], by cases back <;> simp [Pc.left],
          fun hl _ => ⟨hl, .keep (by rw [hpc]; rfl)⟩⟩
  | openFile back =>
      rw [hpc] at h
      cases h
      have hpc' : (s.openLogf e).pc = s.pc := by
        unfold State.openLogf
        split <;> rfl
      have hm : (s.openLogf e).mtxOutfile = s.mtxOutfile := by
        unfold State.openLogf
        split <;> rfl
      refine ⟨.openUnlock back, by simp [State.goto, hpc'], by cases back <;> simp [Pc.left],
        fun hl _ => ⟨hl, ?_⟩⟩
      simp only [State.goto, hm]
      exact .keep (by rw [hpc]; rfl)
  | openUnlock back =>
      rw [hpc] at h
      obtain _ | ⟨fn, text⟩ := back
      · cases h
        exact ⟨.idle, rfl, by decide, fun _ _ => ⟨rfl, .unlock (by rw [hpc]; rfl) rfl⟩⟩
      · cases fn with
        | logFail =>
            cases h
            exact ⟨.relock text, rfl, by simp [Pc.left], fun _ _ =>
              ⟨rfl, .unlock (by rw [hpc]; rfl) rfl⟩⟩
        | logStatus =>
            cases h
            exact ⟨.write text, rfl, by simp [Pc.left], fun hl => by cases hl⟩
  | closeLock =>
      rw [hpc] at h
      obtain ⟨hfree, hpc', hm⟩ := lock_cases h
      refine ⟨.closeTest, hpc', by decide, fun _ _ => ⟨rfl, ?_⟩⟩
      rw [hm]
      exact .lock hfree rfl
  | closeTest =>
      rw [hpc] at h
      cases h
      exact ⟨.closeUnlock, rfl, by decide, fun _ _ => ⟨rfl, .keep (by rw [hpc]; rfl)⟩⟩
  | closeUnlock =>
      rw [hpc] at h
      cases h
      exact ⟨.idle, rfl, by decide, fun _ _ => ⟨rfl, .unlock (by rw [hpc]; rfl) rfl⟩⟩
  | lock fn text =>
      rw [hpc] at h
      obtain ⟨hfree, hpc', hm⟩ := lock_cases h
      refine ⟨.test fn text, hpc', by simp [Pc.left], fun _ _ => ⟨rfl, ?_⟩⟩
      rw [hm]
      exact .lock hfree rfl
  | test fn text =>
      rw [hpc] at h
      cases h
      by_cases hopen : s.logf.isOpen = true
      · exact ⟨.write text, by simp [State.goto, hopen], by simp [Pc.left],
          fun _ _ => ⟨rfl, .keep (by rw [hpc]; rfl)⟩⟩
      · refine ⟨.release fn text, by simp [State.goto, hopen], by simp [Pc.left],
          fun _ hok => ?_⟩
        cases fn with
        | logFail => exact ⟨rfl, .keep (by rw [hpc]; rfl)⟩
        | logStatus => exact absurd (hok (by rw [hpc]; rfl)) hopen
  | release fn text =>
      rw [hpc] at h
      cases h
      exact ⟨.openLock (some (fn, text)), rfl, by simp [Pc.left], fun hl _ =>
        ⟨hl, .unlock (by rw [hpc]; rfl) rfl⟩⟩
  | relock text =>
      rw [hpc] at h
      obtain ⟨hfree, hpc', hm⟩ := lock_cases h
      refine ⟨.write text, hpc', by simp [Pc.left], fun _ _ => ⟨rfl, ?_⟩⟩
      rw [hm]
      exact .lock hfree rfl
  | write text =>
      rw [hpc] at h
      cases h
      exact ⟨.unlock, rfl, by simp [Pc.left], fun _ _ => ⟨rfl, .keep (by rw [hpc]; rfl)⟩⟩
  | unlock =>
      rw [hpc] at h
      cases h
      exact ⟨.idle, rfl, by decide, fun _ _ => ⟨rfl, .unlock (by rw [hpc]; rfl) rfl⟩⟩

/-- The thread that is inside goes on, and so does every thread in a call
when the mutex is free. -/
theorem run_isSome (h : (s.pc t).inside = true ∨ s.mtxOutfile = none ∧ s.pc t ≠ .idle) (e : Env) :
    (s.run t e).isSome = true := by
  unfold State.run
  cases hpc : s.pc t with
  | idle => simp [hpc, Pc.inside] at h
  | openLock | closeLock | lock | relock =>
      have hfree : s.mtxOutfile = none := by simpa [hpc, Pc.inside] using h
      simp [State.lock, hfree]
  | openUnlock back => obtain _ | ⟨_ | _, text⟩ := back <;> rfl
  | _ => rfl

/-- The threads hold the mutex where they ought to. -/
structure Good (s : State) : Prop where
  held : Mutex.Held Pc.inside s.pc s.mtxOutfile
  status : ∀ t, (s.pc t).lost = false

/-- **Every step that meets the guard** keeps the mutex where it ought to be. -/
theorem Good.step (h : Good s) (hok : FindsOpen s l) (hs : step s l = some s') : Good s' := by
  cases l with
  | call t c =>
      simp only [StatusLog.step] at hs
      split at hs
      · next hidle =>
        cases hs
        have hout : (Pc.ofCall c).inside = false ∧ (Pc.ofCall c).lost = false := by
          cases c <;> exact ⟨rfl, rfl⟩
        refine ⟨h.held.step (.keep (by rw [hidle]; exact hout.1)), fun u => ?_⟩
        by_cases hu : u = t
        · simp [State.goto, hu, hout.2]
        · simpa [State.goto, hu] using h.status u
      · cases hs
  | run t e =>
      obtain ⟨p, hpc, -, hwell⟩ := run_cases hs
      obtain ⟨hl, hmoves⟩ := hwell (h.status t) hok
      refine ⟨by rw [hpc]; exact h.held.step hmoves, fun u => ?_⟩
      rw [hpc]
      by_cases hu : u = t
      · simp [hu, hl]
      · simpa [hu] using h.status u

theorem Good.exclusive (h : Good s) : Exclusive s where
  write t hw := (h.held t).mpr (Pc.inside_of_writes hw)
  unlock t hu := (h.held t).mpr (Pc.inside_of_unlocks hu)
  returned t hpc hm := by simpa [hpc, Pc.inside] using (h.held t).mp hm
  goesOn t hpc e := by
    cases hm : s.mtxOutfile with
    | none => exact .inl (run_isSome (.inr ⟨hm, hpc⟩) e)
    | some u => exact .inr ⟨u, rfl, run_isSome (.inl ((h.held u).mp hm)) e⟩

end Step

section Runs

variable {logf : LogFile} {outfileName : String} {toConsole : Bool} {s : State}

/-- **The log is exclusive**, in every run in which `logStatus` finds the file
open, and every step of a call brings it closer to its end. -/
theorem status_log_exclusive
    (h : Reach step (init logf outfileName toConsole) FindsOpen s) :
    Exclusive s ∧
      ∀ t e s', step s (.run t e) = some s' → (s'.pc t).left < (s.pc t).left := by
  have hgood : Good s := by
    refine h.invariant ⟨.init fun _ => rfl, fun _ => rfl⟩ fun _ _ _ hg hok hs => hg.step hok hs
  refine ⟨hgood.exclusive, fun t e s' hs => ?_⟩
  obtain ⟨p, hpc, hleft, -⟩ := run_cases hs
  simpa [hpc] using hleft

end Runs

/-- The log is closed, as when the process starts. -/
def atStart : State := init ⟨false, "", []⟩ "/tmp/cloud_profiler_logfile" false

/-- Thread `t` makes a call and takes `n` steps; the file can be opened. -/
def calls (t : Nat) (c : Call) (n : Nat) : List Act :=
  .call t c :: List.replicate n (.run t ⟨"10.0.0.1", 4711, true⟩)

/-- A status message of `channels.cpp`. -/
def aStatus : Call := .log .logStatus "channels.cpp" 1 "channel opened" none

/-- After `openStatusLogFile`, a thread that logs a status writes with the
mutex held. -/
theorem status_log_exclusive_opened : ∃ s, Reach step atStart FindsOpen s ∧
    (s.pc 0).writes = true ∧ s.mtxOutfile = some 0 := by
  obtain ⟨s, hr, hs⟩ : ∃ s, Reach step atStart FindsOpen s ∧ (s.pc 0).writes = true :=
    Reach.of_exec_any (calls 0 .openStatusLogFile 4 ++ calls 0 aStatus 2) _ (by decide +kernel)
  exact ⟨s, hr, hs, (status_log_exclusive hr).1.write 0 hs⟩

/-- **`logStatus` writes without the mutex** when it has opened the file
itself, while another thread holds it. -/
theorem logStatus_unlocked : ∃ s, Reach step atStart anyStep s ∧
    (s.pc 0).writes = true ∧ s.mtxOutfile = some 1 ∧ ¬ Exclusive s := by
  obtain ⟨s, hr, hs⟩ : ∃ s, Reach step atStart anyStep s ∧
      decide ((s.pc 0).writes = true ∧ s.mtxOutfile = some 1) = true :=
    Reach.of_exec_any (calls 0 aStatus 7 ++ calls 1 .closeStatusLogFile 1) _ (by decide +kernel)
  obtain ⟨hw, hm⟩ := of_decide_eq_true hs
  refine ⟨s, hr, hw, hm, fun hex => ?_⟩
  have hheld := hex.write 0 hw
  rw [hm] at hheld
  cases hheld

end StatusLog

end CloudProfiler
