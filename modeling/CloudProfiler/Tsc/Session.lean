import CloudProfiler.Nanos
import CloudProfiler.Tsc.Matrix
import CloudProfiler.Tsc.Sample

/-!
# CloudProfiler.Tsc.Session

A session of `tsc_master` and its slaves, with the round trips themselves:
`request_measurement` on one side, `get_commands` and `measure_tsc_rtt`
(`tsc_slave.cpp`) on the other, every statement a step of its own.  A slave
that is told that the session ends leaves `get_commands` and asks to be
registered again; the next call of `slave_registration` answers, after
`request_measurement` has returned.

The sender of a pair has a DEALER socket, connected to the ROUTER socket of the
host of the receiver; it waits for the answer to one message before it sends
the next.  The receiver answers with a reading of its own clock.

* `Session.step` — one statement of the master or of a slave;
* `Clocked` — what the slaves read: each its own clock, at the time they do;
* `step_move` — the steps, and that the master takes those of the protocol.
-/

namespace CloudProfiler.Tsc

/-! ## the source -/

/-- The message `TSC_req_cyc`. -/
structure TSC_req_cyc where
  reply_cyc : Int64
  reply_ns : Int64
  reply_aux : UInt32
deriving DecidableEq

/-- A reading of the clock in nano-seconds. -/
def nanos (ts : Timespec) : Int64 := ts.tvSec * 1000000000 + ts.tvNsec

/-- What the receiver puts into the message. -/
def answerOf (ts : Timespec) : TSC_req_cyc := ⟨ts.tsc.toInt64, nanos ts, ts.aux⟩

/-- What the sender puts into `RTTs[i]`. -/
def sampleOf (ts_stt ts_end : Timespec) (m : TSC_req_cyc) : RTT_data where
  ts_stt := ts_stt.tsc.toInt64
  ns_stt := nanos ts_stt
  ts_end := ts_end.tsc.toInt64
  ns_end := nanos ts_end
  reply_cyc := m.reply_cyc
  reply_ns := m.reply_ns
  aux_stt := ts_stt.aux
  aux_end := ts_end.aux
  reply_aux := m.reply_aux

/-- What the receiver reports. -/
def receiverResult (mm_req : MSG_measure_req) : MSG_measure_result :=
  { MSG_measure_result.zero with
    rtt_ns := -1, from_cyc := -1, to_cyc := -1
    slave_from := mm_req.slave_from, slave_to := mm_req.slave_to, finished := 0 }

/-- Where a slave is.  The sender is in `start` at the head of its loop and
then in the reading of the clock, in `send`, in `recv`, and in `stop` in the
second reading; the receiver is in `listen` at the head of its loop and then in
`recv`, in `stamp` in the reading of the clock, and in `answer` in `send`. -/
inductive SlavePc
  /-- waiting for a command -/
  | command
  | start (mm_req : MSG_measure_req) (RTTs : List RTT_data)
  | send (mm_req : MSG_measure_req) (RTTs : List RTT_data) (ts_stt : Timespec)
  | recv (mm_req : MSG_measure_req) (RTTs : List RTT_data) (ts_stt : Timespec)
  | stop (mm_req : MSG_measure_req) (RTTs : List RTT_data) (ts_stt : Timespec) (m : TSC_req_cyc)
  | listen (mm_req : MSG_measure_req) (i : Nat)
  | stamp (mm_req : MSG_measure_req) (i : Nat) (identity : Slave)
  | answer (mm_req : MSG_measure_req) (i : Nat) (identity : Slave) (m : TSC_req_cyc)
  /-- the reply to the master -/
  | result (mm_req : MSG_measure_req) (mm_res : MSG_measure_result)
  /-- `get_commands` has returned, `register_to_master` is about to send -/
  | register
  /-- waiting to be registered -/
  | registering
deriving DecidableEq

/-- The state of a session.  A message to a ROUTER socket carries the identity
of its sender; what else is in it is never read.  `registrations` are the
requests to be registered again, which nobody receives.  `time` is the time
that passes, which no program reads. -/
structure Session where
  master : State
  slaves : Slave → SlavePc
  messages : Ipv4 → List Slave
  answers : Slave → List TSC_req_cyc
  registrations : List Slave
  time : Nat

/-- The call of `request_measurement`, when all slaves are registered. -/
def Session.init (slaves : Slaves) : Session :=
  ⟨Tsc.init slaves, fun _ => .command, fun _ => [], fun _ => [], [], 0⟩

/-- `now` is the reading of the clock, if the statement takes one. -/
inductive Event
  | master
  | poll (ready : List Slave)
  | sort (rs : List MeasureResult)
  | slave (a : Slave) (now : Timespec)
  | tick

namespace Session

variable (slaves : Slaves) (nr_iter : Nat)

/-- The slave is somewhere else now. -/
def goto (s : Session) (a : Slave) (pc : SlavePc) : Session :=
  { s with slaves := Function.update s.slaves a pc }

/-- One statement of a slave; `nr_iter` is the `iter_per_measurement` of every
request. -/
def slaveStep (s : Session) (a : Slave) (now : Timespec) : Option Session :=
  match s.slaves a with
  | .command =>
      match s.master.sock a with
      | .asked mm_req => some (s.goto a
          (if mm_req.finished = 0 then
            if a = mm_req.slave_from then .start mm_req [] else .listen mm_req 0
          else .result mm_req { MSG_measure_result.zero with finished := 1 }))
      | _ => none
  | .start mm_req RTTs => some (s.goto a
      (if RTTs.length < nr_iter then .send mm_req RTTs now
      else .result mm_req (sentResult mm_req RTTs)))
  | .send mm_req RTTs ts_stt =>
      let ip := mm_req.slave_to.ip
      some { s.goto a (.recv mm_req RTTs ts_stt) with
        messages := Function.update s.messages ip (s.messages ip ++ [a]) }
  | .recv mm_req RTTs ts_stt =>
      match s.answers a with
      | [] => none
      | m :: rest => some { s.goto a (.stop mm_req RTTs ts_stt m) with
          answers := Function.update s.answers a rest }
  | .stop mm_req RTTs ts_stt m =>
      some (s.goto a (.start mm_req (RTTs ++ [sampleOf ts_stt now m])))
  | .listen mm_req i =>
      if i < nr_iter then
        match s.messages a.ip with
        | [] => none
        | identity :: rest => some { s.goto a (.stamp mm_req i identity) with
            messages := Function.update s.messages a.ip rest }
      else some (s.goto a (.result mm_req (receiverResult mm_req)))
  | .stamp mm_req i identity => some (s.goto a (.answer mm_req i identity (answerOf now)))
  | .answer mm_req i identity m =>
      some { s.goto a (.listen mm_req (i + 1)) with
        answers := Function.update s.answers identity (s.answers identity ++ [m]) }
  | .result mm_req mm_res =>
      some { s.goto a (if mm_req.finished = 0 then .command else .register) with
        master := { s.master with
          sock := Function.update s.master.sock a (.readable mm_res) } }
  | .register => some { s.goto a .registering with registrations := s.registrations ++ [a] }
  | .registering => none

/-- One step of the session. -/
def step (s : Session) : Event → Option Session
  | .master => (masterStep slaves s.master).map fun master => { s with master := master }
  | .poll ready => (Tsc.step slaves s.master (.poll ready)).map fun master =>
      { s with master := master }
  | .sort rs => (Tsc.step slaves s.master (.sort rs)).map fun master => { s with master := master }
  | .slave a now => s.slaveStep nr_iter a now
  | .tick => some { s with time := s.time + 1 }

end Session

/-! ## clocks -/

/-- What slave `a` reads at time `t`: its own clock, between 1970 and 2262, and
a cycle counter that has not run for centuries. -/
structure Reads (clock : Slave → Nat → Int) (a : Slave) (t : Nat) (now : Timespec) : Prop where
  ns : now.ns = clock a t
  nonneg : 0 ≤ now.ns
  lt : now.ns < 2 ^ 63
  cycles : now.tsc.toNat < 2 ^ 63 - 1

instance (clock : Slave → Nat → Int) (a : Slave) (t : Nat) (now : Timespec) :
    Decidable (Reads clock a t now) :=
  decidable_of_iff (now.ns = clock a t ∧ 0 ≤ now.ns ∧ now.ns < 2 ^ 63 ∧
    now.tsc.toNat < 2 ^ 63 - 1)
    ⟨fun ⟨h1, h2, h3, h4⟩ => ⟨h1, h2, h3, h4⟩, fun h => ⟨h.ns, h.nonneg, h.lt, h.cycles⟩⟩

/-- The slaves read their clocks. -/
def Clocked (clock : Slave → Nat → Int) (s : Session) : Event → Prop
  | .slave a now => Reads clock a s.time now
  | _ => True

instance (clock : Slave → Nat → Int) : DecidableRel (Clocked clock) := fun s e =>
  match e with
  | .slave a now => inferInstanceAs (Decidable (Reads clock a s.time now))
  | .master | .poll _ | .sort _ | .tick => .isTrue trivial

section Readings

variable {clock : Slave → Nat → Int} {a : Slave} {t : Nat} {now : Timespec}

theorem Reads.toInt_nanos (h : Reads clock a t now) : (nanos now).toInt = clock a t := by
  have hnonneg := h.nonneg
  have hlt := h.lt
  rw [← h.ns]
  have hns : (nanos now).toInt = now.ns.bmod (2 ^ 64) := by
    rw [nanos, Int64.toInt_add, Int64.toInt_mul, Timespec.ns]
    simp
  rw [hns]
  exact Int.bmod_eq_of_le (by omega) (by omega)

theorem Reads.toInt_cycles (h : Reads clock a t now) :
    now.tsc.toInt64.toInt = now.tsc.toNat := by
  have hcycles := h.cycles
  exact toInt_toInt64 (by omega)

end Readings

/-! ## what a step does -/

/-- The statements of a slave. -/
inductive SlaveMove (nr_iter : Nat) (s : Session) (a : Slave) (now : Timespec) : Session → Prop
  | finish {mm_req : MSG_measure_req} (h : s.slaves a = .command)
      (hsock : s.master.sock a = .asked mm_req) (hfin : mm_req.finished ≠ 0) :
      SlaveMove nr_iter s a now
        (s.goto a (.result mm_req { MSG_measure_result.zero with finished := 1 }))
  | begin {mm_req : MSG_measure_req} (h : s.slaves a = .command)
      (hsock : s.master.sock a = .asked mm_req) (hfin : mm_req.finished = 0)
      (hfrom : a = mm_req.slave_from) : SlaveMove nr_iter s a now (s.goto a (.start mm_req []))
  | serve {mm_req : MSG_measure_req} (h : s.slaves a = .command)
      (hsock : s.master.sock a = .asked mm_req) (hfin : mm_req.finished = 0)
      (hfrom : a ≠ mm_req.slave_from) : SlaveMove nr_iter s a now (s.goto a (.listen mm_req 0))
  | start {mm_req : MSG_measure_req} {RTTs : List RTT_data} (h : s.slaves a = .start mm_req RTTs)
      (hlt : RTTs.length < nr_iter) : SlaveMove nr_iter s a now (s.goto a (.send mm_req RTTs now))
  | sent {mm_req : MSG_measure_req} {RTTs : List RTT_data} (h : s.slaves a = .start mm_req RTTs)
      (hlt : ¬ RTTs.length < nr_iter) :
      SlaveMove nr_iter s a now (s.goto a (.result mm_req (sentResult mm_req RTTs)))
  | send {mm_req : MSG_measure_req} {RTTs : List RTT_data} {ts_stt : Timespec}
      (h : s.slaves a = .send mm_req RTTs ts_stt) : SlaveMove nr_iter s a now
        { s.goto a (.recv mm_req RTTs ts_stt) with
          messages := Function.update s.messages mm_req.slave_to.ip
            (s.messages mm_req.slave_to.ip ++ [a]) }
  | recv {mm_req : MSG_measure_req} {RTTs : List RTT_data} {ts_stt : Timespec} {m : TSC_req_cyc}
      {rest : List TSC_req_cyc} (h : s.slaves a = .recv mm_req RTTs ts_stt)
      (hans : s.answers a = m :: rest) : SlaveMove nr_iter s a now
        { s.goto a (.stop mm_req RTTs ts_stt m) with
          answers := Function.update s.answers a rest }
  | stop {mm_req : MSG_measure_req} {RTTs : List RTT_data} {ts_stt : Timespec} {m : TSC_req_cyc}
      (h : s.slaves a = .stop mm_req RTTs ts_stt m) : SlaveMove nr_iter s a now
        (s.goto a (.start mm_req (RTTs ++ [sampleOf ts_stt now m])))
  | listen {mm_req : MSG_measure_req} {i : Nat} {identity : Slave} {rest : List Slave}
      (h : s.slaves a = .listen mm_req i) (hlt : i < nr_iter)
      (hmsg : s.messages a.ip = identity :: rest) : SlaveMove nr_iter s a now
        { s.goto a (.stamp mm_req i identity) with
          messages := Function.update s.messages a.ip rest }
  | served {mm_req : MSG_measure_req} {i : Nat} (h : s.slaves a = .listen mm_req i)
      (hlt : ¬ i < nr_iter) :
      SlaveMove nr_iter s a now (s.goto a (.result mm_req (receiverResult mm_req)))
  | stamp {mm_req : MSG_measure_req} {i : Nat} {identity : Slave}
      (h : s.slaves a = .stamp mm_req i identity) : SlaveMove nr_iter s a now
        (s.goto a (.answer mm_req i identity (answerOf now)))
  | answer {mm_req : MSG_measure_req} {i : Nat} {identity : Slave} {m : TSC_req_cyc}
      (h : s.slaves a = .answer mm_req i identity m) : SlaveMove nr_iter s a now
        { s.goto a (.listen mm_req (i + 1)) with
          answers := Function.update s.answers identity (s.answers identity ++ [m]) }
  | result {mm_req : MSG_measure_req} {mm_res : MSG_measure_result}
      (h : s.slaves a = .result mm_req mm_res) : SlaveMove nr_iter s a now
        { s.goto a (if mm_req.finished = 0 then .command else .register) with
          master := { s.master with
            sock := Function.update s.master.sock a (.readable mm_res) } }
  | register (h : s.slaves a = .register) : SlaveMove nr_iter s a now
        { s.goto a .registering with registrations := s.registrations ++ [a] }

section Moves

variable {slaves : Slaves} {nr_iter : Nat} {s s' : Session} {a : Slave} {now : Timespec}

theorem slaveStep_move (h : s.slaveStep nr_iter a now = some s') :
    SlaveMove nr_iter s a now s' := by
  unfold Session.slaveStep at h
  cases hpc : s.slaves a with
  | command =>
      simp only [hpc] at h
      split at h
      · next mm_req hsock =>
        obtain rfl := Option.some.inj h
        by_cases hfin : mm_req.finished = 0
        · rw [if_pos hfin]
          by_cases hfrom : a = mm_req.slave_from
          · rw [if_pos hfrom]
            exact .begin hpc hsock hfin hfrom
          · rw [if_neg hfrom]
            exact .serve hpc hsock hfin hfrom
        · rw [if_neg hfin]
          exact .finish hpc hsock hfin
      · cases h
  | start mm_req RTTs =>
      simp only [hpc, Option.some.injEq] at h
      subst h
      split
      · next hlt => exact .start hpc hlt
      · next hlt => exact .sent hpc hlt
  | send mm_req RTTs ts_stt =>
      simp only [hpc, Option.some.injEq] at h
      exact h ▸ .send hpc
  | recv mm_req RTTs ts_stt =>
      simp only [hpc] at h
      split at h
      · cases h
      · next m rest hans => exact Option.some.inj h ▸ .recv hpc hans
  | stop mm_req RTTs ts_stt m =>
      simp only [hpc, Option.some.injEq] at h
      exact h ▸ .stop hpc
  | listen mm_req i =>
      simp only [hpc] at h
      split at h
      · next hlt =>
        split at h
        · cases h
        · next identity rest hmsg => exact Option.some.inj h ▸ .listen hpc hlt hmsg
      · next hlt => exact Option.some.inj h ▸ .served hpc hlt
  | stamp mm_req i identity =>
      simp only [hpc, Option.some.injEq] at h
      exact h ▸ .stamp hpc
  | answer mm_req i identity m =>
      simp only [hpc, Option.some.injEq] at h
      exact h ▸ .answer hpc
  | result mm_req mm_res =>
      simp only [hpc, Option.some.injEq] at h
      exact h ▸ .result hpc
  | register =>
      simp only [hpc, Option.some.injEq] at h
      exact h ▸ .register hpc
  | registering =>
      simp only [hpc] at h
      cases h

/-- What the master does to its sockets and to the list of results. -/
inductive MasterMove (s s' : State) : Prop
  | quiet (hsock : s'.sock = s.sock) (hres : s'.measResultList = s.measResultList)
  | ask (b : Slave) (req : MSG_measure_req) (hidle : s.sock b = .idle)
      (hsock : s'.sock = Function.update s.sock b (.asked req))
      (hres : s'.measResultList = s.measResultList)
  | collect (b : Slave) (res : MSG_measure_result) {p : Slave × Slave} {todo : List Slave}
      {numPolled : Nat} {numSocketsToPoll : Int} {left : List (Slave × Slave)}
      (hpc : s.pc = .recv p (b :: todo) numPolled numSocketsToPoll left)
      (hread : s.sock b = .readable res) (hsock : s'.sock = Function.update s.sock b .idle)
      (hres : s'.measResultList = collect s.measResultList res)
  | take (b : Slave) (res : MSG_measure_result) (hread : s.sock b = .readable res)
      (hsock : s'.sock = Function.update s.sock b .idle)
      (hres : s'.measResultList = s.measResultList)

theorem masterMove_ask (m : State) (b : Slave) (req : MSG_measure_req) (next : Pc) :
    MasterMove m (m.ask b req next) := by
  cases hsock : m.sock b with
  | idle =>
      rw [ask_of_idle hsock]
      exact .ask b req hsock rfl rfl
  | asked | readable =>
      rw [State.ask, hsock]
      exact .quiet rfl rfl

theorem masterStep_move {m m' : State} (h : masterStep slaves m = some m') : MasterMove m m' := by
  unfold masterStep at h
  split at h
  · exact Option.some.inj h ▸ .quiet rfl rfl
  · exact Option.some.inj h ▸ .quiet rfl rfl
  · exact Option.some.inj h ▸ .quiet rfl rfl
  · split at h
    · exact Option.some.inj h ▸ .quiet rfl rfl
    · exact Option.some.inj h ▸ masterMove_ask m _ _ _
  · exact Option.some.inj h ▸ .quiet rfl rfl
  · next hpc =>
    split at h
    · next mma hread => exact Option.some.inj h ▸ .collect _ mma hpc hread rfl rfl
    · cases h
    · exact Option.some.inj h ▸ .quiet rfl rfl
  · exact Option.some.inj h ▸ .quiet rfl rfl
  · exact Option.some.inj h ▸ masterMove_ask m _ _ _
  · split at h
    · next mma hread => exact Option.some.inj h ▸ .take _ mma hread rfl rfl
    · cases h
    · exact Option.some.inj h ▸ .quiet rfl rfl
  · cases h

/-- A slave that was asked is left alone. -/
theorem MasterMove.asked {m m' : State} {req : MSG_measure_req} (h : MasterMove m m')
    (ha : m.sock a = .asked req) : m'.sock a = .asked req := by
  cases h with
  | quiet hs _ => rw [hs, ha]
  | ask b req' hidle hs _ =>
      have hne : a ≠ b := fun hab => by simp [hab ▸ hidle] at ha
      rw [hs, Function.update_of_ne hne, ha]
  | collect b res _ hread hs _ | take b res hread hs _ =>
      have hne : a ≠ b := fun hab => by simp [hab ▸ hread] at ha
      rw [hs, Function.update_of_ne hne, ha]

/-- A step of a session: time passes, a slave is at its statement, or the
master is at its own in the protocol. -/
inductive SessionMove (slaves : Slaves) (nr_iter : Nat) (s : Session) : Event → Session → Prop
  | tick : SessionMove slaves nr_iter s .tick { s with time := s.time + 1 }
  | slave {a : Slave} {now : Timespec} {s' : Session} (h : SlaveMove nr_iter s a now s') :
      SessionMove slaves nr_iter s (.slave a now) s'
  | master {e : Event} {l : Label} {m : State} (hl : ∀ a r, l ≠ .reply a r)
      (h : Tsc.step slaves s.master l = some m) (hmove : MasterMove s.master m) :
      SessionMove slaves nr_iter s e { s with master := m }

theorem step_move {e : Event} (h : s.step slaves nr_iter e = some s') :
    SessionMove slaves nr_iter s e s' := by
  cases e with
  | master =>
      obtain ⟨m, hm, rfl⟩ := Option.map_eq_some_iff.mp h
      exact .master (l := .master) (by simp) hm (masterStep_move hm)
  | poll ready =>
      obtain ⟨m, hm, rfl⟩ := Option.map_eq_some_iff.mp h
      refine .master (by simp) hm ?_
      simp only [Tsc.step] at hm
      split at hm
      · split at hm
        · exact Option.some.inj hm ▸ .quiet rfl rfl
        · cases hm
      · cases hm
  | sort rs =>
      obtain ⟨m, hm, rfl⟩ := Option.map_eq_some_iff.mp h
      refine .master (by simp) hm ?_
      simp only [Tsc.step] at hm
      split at hm
      · split at hm
        · exact Option.some.inj hm ▸ .quiet rfl rfl
        · cases hm
      · cases hm
  | slave a now => exact .slave (slaveStep_move h)
  | tick =>
      obtain rfl := Option.some.inj h
      exact .tick

end Moves

end CloudProfiler.Tsc
