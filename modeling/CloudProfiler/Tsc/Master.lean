import Mathlib.Data.List.Sort
import Mathlib.Logic.Function.Basic
import CloudProfiler.Run
import CloudProfiler.Tsc

/-!
# CloudProfiler.Tsc.Master

The measuring protocol between `tsc_master` and its slaves:
`request_measurement` on one side, `get_commands` on the other.

The master has one REQ socket per slave.  A REQ socket refuses a second
request before the reply to the first was received: `send` then throws, and
the master skips to writing its log.  The slaves answer in any order and at
any time; `poll` reports some of the sockets that can be read.

* `step` — one statement of the master, or one reply;
* `allPairs` — the pairs the master goes through;
* `registered` — how `slave_registration` builds the map of slaves.
-/

namespace CloudProfiler.Tsc

/-! ## messages -/

/-- The first port given to a slave. -/
def tsc_command_default_port : Int := 9103

/-- An address of zeros, as in a message initialised with `{0,}`. -/
def noSlave : Slave := ⟨⟨[], by simp, by simp⟩, 0⟩

/-- The message `MSG_measure_req`. -/
structure MSG_measure_req where
  slave_from : Slave
  slave_to : Slave
  finished : Int
deriving DecidableEq

/-- The message `MSG_measure_result`. -/
structure MSG_measure_result where
  slave_from : Slave
  slave_to : Slave
  rtt_ns : Int
  from_cyc : Int
  from_ns : Int
  to_cyc : Int
  to_ns : Int
  end_cyc : Int
  end_ns : Int
  from_aux : Int
  to_aux : Int
  end_aux : Int
  finished : Int
deriving DecidableEq

/-- `MSG_measure_result mm_res = {0,}`. -/
def MSG_measure_result.zero : MSG_measure_result :=
  ⟨noSlave, noSlave, 0, 0, 0, 0, 0, 0, 0, 0, 0, 0, 0⟩

/-- The request for a pair, sent to both of its slaves. -/
def measureReq (p : Slave × Slave) : MSG_measure_req := ⟨p.1, p.2, 0⟩

/-- The request that ends a session. -/
def finishReq : MSG_measure_req := ⟨noSlave, noSlave, 1⟩

/-- What the fastest of a sender's round trips was measured to be.  The cycle
counter is never `-1`, the value that marks a receiver's result. -/
structure Measurement where
  from_cyc : Int
  from_ns : Int
  to_cyc : Int
  to_ns : Int
  end_cyc : Int
  end_ns : Int
  from_aux : Nat
  to_aux : Nat
  end_aux : Nat
  counted : from_cyc ≠ -1

/-- The function `measure_tsc_rtt`: the fields it sets in the result. -/
def measure_tsc_rtt (isServer : Bool) (m : Measurement) (mm_res : MSG_measure_result) :
    MSG_measure_result :=
  if isServer then
    { mm_res with
      from_cyc := m.from_cyc, from_ns := m.from_ns, to_cyc := m.to_cyc, to_ns := m.to_ns
      end_cyc := m.end_cyc, end_ns := m.end_ns
      from_aux := m.from_aux, to_aux := m.to_aux, end_aux := m.end_aux }
  else { mm_res with rtt_ns := -1, from_cyc := -1, to_cyc := -1 }

/-- The loop body of `get_commands`: the reply of a slave to a request. -/
def replyTo (info : Slave) (mm_req : MSG_measure_req) (m : Measurement) : MSG_measure_result :=
  if mm_req.finished = 0 then
    { measure_tsc_rtt (info = mm_req.slave_from) m .zero with
      slave_from := mm_req.slave_from, slave_to := mm_req.slave_to, finished := 0 }
  else { MSG_measure_result.zero with finished := 1 }

/-- The conversion of an `int64_t` to `uint32_t`. -/
def toUInt32 (z : Int) : Nat := (z % 2 ^ 32).toNat

/-- The `MeasureResult` made of a reply. -/
def measureResult (mma : MSG_measure_result) : MeasureResult where
  from_slave := mma.slave_from
  to_slave := mma.slave_to
  rtt_ns := mma.end_ns - mma.from_ns
  from_cyc := mma.from_cyc
  from_ns := mma.from_ns
  to_cyc := mma.to_cyc
  to_ns := mma.to_ns
  end_cyc := mma.end_cyc
  end_ns := mma.end_ns
  from_aux := toUInt32 mma.from_aux
  to_aux := toUInt32 mma.to_aux
  end_aux := toUInt32 mma.end_aux

/-! ## the map of slaves -/

/-- The map of slaves in the order it is iterated in; its keys are the
addresses. -/
structure Slaves where
  list : List Slave
  nodup : (list.map Slave.address).Nodup

namespace Slaves

/-- `slaves.find(slave_id)`. -/
def find (slaves : Slaves) (slave_id : List Char) : Option Slave :=
  slaves.list.find? (·.address = slave_id)

/-- The pairs of the two nested loops over the map. -/
def allPairs (slaves : Slaves) : List (Slave × Slave) :=
  slaves.list.flatMap fun a => (slaves.list.filter (a.address ≠ ·.address)).map fun b => (a, b)

variable {slaves : Slaves}

theorem find_eq_none {id : List Char} :
    slaves.find id = none ↔ id ∉ slaves.list.map Slave.address := by
  simp [find]

/-- A registered slave is found under its address. -/
theorem find_address {a : Slave} (h : a ∈ slaves.list) : slaves.find a.address = some a := by
  obtain ⟨b, hb⟩ : ∃ b, slaves.find a.address = some b :=
    Option.ne_none_iff_exists'.mp fun hn => find_eq_none.mp hn (List.mem_map_of_mem h)
  have hab : b.address = a.address := by simpa using List.find?_some hb
  rw [hb, address_injective hab]

theorem nodup_list : slaves.list.Nodup := slaves.nodup.of_map _

/-- The port the loop of `slave_registration` ends with: the first free one
from `port` on, if one of the next `fuel` ports is free. -/
def curPort (slaves : Slaves) (ip : Ipv4) : Nat → Int → Int
  | 0, port => port
  | fuel + 1, port =>
      if (slaves.find (Slave.address ⟨ip, port⟩)).isSome then slaves.curPort ip fuel (port + 1)
      else port

/-- A port is passed over only when it is taken. -/
theorem taken_of_curPort_taken {ip : Ipv4} {fuel : Nat} {port : Int}
    (h : slaves.find (Slave.address ⟨ip, slaves.curPort ip fuel port⟩) ≠ none) :
    ∀ i ≤ fuel, (⟨ip, port + i⟩ : Slave) ∈ slaves.list := by
  have hmem (q : Int) (hq : slaves.find (Slave.address ⟨ip, q⟩) ≠ none) :
      (⟨ip, q⟩ : Slave) ∈ slaves.list := by
    rw [Ne, find_eq_none, not_not] at hq
    obtain ⟨a, ha, heq⟩ := List.mem_map.mp hq
    rwa [← address_injective heq]
  induction fuel generalizing port with
  | zero =>
      intro i hi
      simpa [Nat.le_zero.mp hi] using hmem port h
  | succ fuel ih =>
      rw [curPort] at h
      split at h
      · next htaken =>
        intro i hi
        cases i with
        | zero => simpa using hmem port (by simpa [Option.isSome_iff_ne_none] using htaken)
        | succ i =>
            have := ih h i (by omega)
            rwa [show port + ((i + 1 : Nat) : Int) = port + 1 + i by push_cast; omega]
      · next hfree => exact absurd (by simpa using hfree) h

/-- One of the ports tried is free: there are more of them than slaves. -/
theorem find_curPort (slaves : Slaves) (ip : Ipv4) (port : Int) :
    slaves.find (Slave.address ⟨ip, slaves.curPort ip slaves.list.length port⟩) = none := by
  by_contra h
  have hmem := taken_of_curPort_taken h
  let tried := (List.range (slaves.list.length + 1)).map fun i : Nat => (⟨ip, port + i⟩ : Slave)
  have hnodup : tried.Nodup := by
    refine List.nodup_range.map fun i j hij => ?_
    have : (i : Int) = j := by simpa using hij
    omega
  have hsub : tried ⊆ slaves.list := fun a ha => by
    obtain ⟨i, hi, rfl⟩ := List.mem_map.mp ha
    exact hmem i (Nat.le_of_lt_succ (List.mem_range.mp hi))
  have hlen := (List.subperm_of_subset hnodup hsub).length_le
  rw [List.length_map, List.length_range] at hlen
  omega

/-- The body of the loop of `slave_registration`: a slave is entered under the
first port that is free for its address. -/
def register (slaves : Slaves) (cur_ip : Ipv4) : Slaves where
  list := slaves.list ++
    [⟨cur_ip, slaves.curPort cur_ip slaves.list.length tsc_command_default_port⟩]
  nodup := by
    rw [List.map_append, List.map_singleton]
    exact List.nodup_append.mpr ⟨slaves.nodup, List.nodup_singleton _, fun a ha b hb he =>
      find_eq_none.mp (find_curPort slaves cur_ip tsc_command_default_port)
        (List.mem_singleton.mp hb ▸ he ▸ ha)⟩

/-- The map `slave_registration` fills, one request after the other. -/
def registered (ips : List Ipv4) : Slaves := ips.foldl register ⟨[], List.nodup_nil⟩

end Slaves

/-! ## the system -/

/-- A REQ socket of the master, and what its slave has made of the request. -/
inductive Sock
  | idle
  | asked (req : MSG_measure_req)
  | readable (res : MSG_measure_result)
deriving DecidableEq

/-- Where the master is.  `pair left` is the head of the loop over the pairs,
`send` and `recv` the loops over the two targets and over the sockets `poll`
reported; `exit` is a call of `exit(EXIT_FAILURE)`. -/
inductive Pc
  | pair (left : List (Slave × Slave))
  | send (p : Slave × Slave) (targets : List Slave) (left : List (Slave × Slave))
  | poll (p : Slave × Slave) (numSocketsToPoll : Int) (left : List (Slave × Slave))
  | recv (p : Slave × Slave) (todo : List Slave) (numPolled : Nat) (numSocketsToPoll : Int)
      (left : List (Slave × Slave))
  | finish (left : List Slave)
  | finishRecv (a : Slave) (left : List Slave)
  | sort
  | done
  | exit
deriving DecidableEq

/-- The state: besides the master's, the requests it tried to send and the
replies it received, in order. -/
structure State where
  pc : Pc
  sock : Slave → Sock
  measResultList : List MeasureResult
  log : List (List Char)
  requests : List (Slave × MSG_measure_req)
  replies : List (Slave × MSG_measure_result)

/-- The call of `request_measurement`, with the list of results cleared. -/
def init (slaves : Slaves) : State := ⟨.pair slaves.allPairs, fun _ => .idle, [], [], [], []⟩

/-- `master` is the next statement of the master, `poll ready` the return of
`zmq::poll` with `ready` the sockets whose `revents` are set, `sort rs` the
sorted list written to the log; `reply a m` is slave `a` answering. -/
inductive Label
  | master
  | poll (ready : List Slave)
  | sort (rs : List MeasureResult)
  | reply (a : Slave) (m : Measurement)

/-- `sock->send`: a socket that waits for a reply throws, and the handler of
the exception goes on to the log. -/
def State.ask (s : State) (a : Slave) (req : MSG_measure_req) (next : Pc) : State :=
  match s.sock a with
  | .idle =>
      { s with
        pc := next, sock := Function.update s.sock a (.asked req)
        requests := s.requests ++ [(a, req)] }
  | _ => { s with pc := .sort, requests := s.requests ++ [(a, req)] }

/-- `sock->recv` of a message. -/
def State.take (s : State) (a : Slave) (res : MSG_measure_result) (next : Pc) : State :=
  { s with
    pc := next, sock := Function.update s.sock a .idle, replies := s.replies ++ [(a, res)] }

/-- The list of results after a reply; the receiver's does not count. -/
def collect (rs : List MeasureResult) (mma : MSG_measure_result) : List MeasureResult :=
  if mma.from_cyc ≠ -1 then rs ++ [measureResult mma] else rs

/-- Whether a socket has a message to receive. -/
def State.canRead (s : State) (a : Slave) : Bool :=
  match s.sock a with
  | .readable _ => true
  | _ => false

/-- One statement of `request_measurement`. -/
def masterStep (slaves : Slaves) (s : State) : Option State :=
  match s.pc with
  | .pair [] => some { s with pc := .finish slaves.list }
  | .pair (p :: left) => some { s with pc := .send p [p.1, p.2] left }
  | .send p [] left => some { s with pc := .poll p 2 left }
  | .send p (a :: targets) left =>
      match slaves.find a.address with
      | none => some { s with pc := .exit }
      | some a => some (s.ask a (measureReq p) (.send p targets left))
  | .recv p [] numPolled numSocketsToPoll left =>
      some { s with
        pc := if 0 < numSocketsToPoll - numPolled then .poll p (numSocketsToPoll - numPolled) left
          else .pair left }
  | .recv p (a :: todo) numPolled numSocketsToPoll left =>
      match s.sock a with
      | .readable mma =>
          some { s.take a mma (.recv p todo numPolled numSocketsToPoll left) with
            measResultList := collect s.measResultList mma }
      | .asked _ => none
      | .idle => some { s with pc := .sort }
  | .finish [] => some { s with pc := .sort }
  | .finish (a :: left) => some (s.ask a finishReq (.finishRecv a left))
  | .finishRecv a left =>
      -- a reply that is not final is only logged
      match s.sock a with
      | .readable mma => some (s.take a mma (.finish left))
      | .asked _ => none
      | .idle => some { s with pc := .sort }
  | _ => none

/-- One step of the system. -/
def step (slaves : Slaves) (s : State) : Label → Option State
  | .master => masterStep slaves s
  | .poll ready =>
      match s.pc with
      | .poll p numSocketsToPoll left =>
          if ready ≠ [] ∧ ready.Sublist [p.1, p.2] ∧ ∀ a ∈ ready, s.canRead a then
            some { s with pc := .recv p ready ready.length numSocketsToPoll left }
          else none
      | _ => none
  | .sort rs =>
      match s.pc with
      | .sort =>
          if IsSorted s.measResultList rs then
            some { s with pc := .done, log := rs.map logLine }
          else none
      | _ => none
  | .reply a m =>
      match s.sock a with
      | .asked req => some { s with sock := Function.update s.sock a (.readable (replyTo a req m)) }
      | _ => none

end CloudProfiler.Tsc
