import CloudProfiler.Loop
import CloudProfiler.Numeral
import CloudProfiler.Run
import CloudProfiler.Tsc.Bulk

/-!
# CloudProfiler.Tsc.Async

The asynchronous run of `tsc_slave_1`: `do_bulk_async_send_and_recv`
(`tsc_slave_1.cpp`).

The requests are sent in bulks, or one at a time if the bulk size is `-1`.  The
peer answers each of them once, in any order and after any time.

* `step` — one statement of the loop, or one reply;
* `Inv` — what both modes keep;
* `accountsForAll_iff` — for which sizes no message is lost and the loop goes
  on;
* `ends_sendBulk_iff` — for which the sender of `do_bulk_async_send` ends.
-/

namespace CloudProfiler.Tsc.Async

/-! ## the source -/

/-- The number of iterations, from the command line: an `int`. -/
def nrIterations (iterstring : List Char) : Option Int32 :=
  (convertA2I iterstring).toOption.map fun n => n.toUInt32.toInt32

/-- The variables of the measurements. -/
structure Stats where
  min_cyc : Int64
  min_nsec : Int64
  accum_nsec : Int64
  reply_cyc : Int64

def Stats.init : Stats := ⟨Int64.maxValue, Int64.maxValue, 0, 0⟩

/-- What a reply does to them. -/
def Stats.add (s : Stats) (r : RoundTrip) : Stats where
  min_cyc := if r.cur_cyc < s.min_cyc then r.cur_cyc else s.min_cyc
  min_nsec := if r.cur_nsec < s.min_nsec then r.cur_nsec else s.min_nsec
  reply_cyc := if r.cur_nsec < s.min_nsec then r.msg.reply_cyc else s.reply_cyc
  accum_nsec := s.accum_nsec + r.cur_nsec

/-- Where the loop is: at its head, where it looks for something to send, in
the loop that sends, before and in the one that receives, or behind it all. -/
inductive Pc
  | round
  | fill
  | send (i : Int)
  | drain
  | poll
  | done
deriving DecidableEq

/-- The variables of the loop, the requests that are not answered, and the
replies that can be read, by the number of their request. -/
structure State where
  pc : Pc
  recv_ctr : Int
  sent_ctr : Int
  to_send : Int
  to_recv : Int
  received : Int
  stats : Stats
  asked : List Int
  readable : List Int

def init : State := ⟨.round, 0, 0, 0, 0, 0, .init, [], []⟩

/-- `next r` is the next statement, `r` what is received if it receives;
`reply q` is the peer answering request `q`. -/
inductive Label
  | next (r : RoundTrip)
  | reply (q : Int)

section Step

variable (nr_iter bulk_sz : Int)

/-- The size of the next bulk, of what is left after `ctr`. -/
def bulkOf (ctr : Int) : Int :=
  if bulk_sz = -1 then 1 else if nr_iter - ctr ≥ bulk_sz then bulk_sz else nr_iter - ctr

/-- The end of the loop that receives. -/
def State.again (s : State) : State :=
  { s with pc := if bulk_sz ≠ -1 ∧ s.received < s.to_recv then .poll else .round }

/-- One statement. -/
def State.next (s : State) (r : RoundTrip) : Option State :=
  match s.pc with
  | .round => some { s with pc := if s.recv_ctr ≥ nr_iter then .done else .fill }
  | .fill =>
      if s.sent_ctr < nr_iter then
        some { s with to_send := bulkOf nr_iter bulk_sz s.sent_ctr, pc := .send 0 }
      else some { s with pc := .drain }
  | .send i =>
      if i < s.to_send then
        some { s with
          sent_ctr := s.sent_ctr + 1, asked := s.asked ++ [s.sent_ctr], pc := .send (i + 1) }
      else some { s with pc := .drain }
  | .drain =>
      some { s with to_recv := bulkOf nr_iter bulk_sz s.recv_ctr, received := 0, pc := .poll }
  | .poll =>
      match s.readable with
      | [] => some (s.again bulk_sz)
      | _ :: rest =>
          some (State.again bulk_sz { s with
            readable := rest, recv_ctr := s.recv_ctr + 1, received := s.received + 1
            stats := s.stats.add r })
  | .done => none

/-- One step of the system. -/
def step (s : State) : Label → Option State
  | .next r => s.next nr_iter bulk_sz r
  | .reply q =>
      if q ∈ s.asked then
        some { s with asked := s.asked.erase q, readable := s.readable ++ [q] }
      else none

/-- The states of a run. -/
abbrev Reached (s : State) : Prop := Reach (step nr_iter bulk_sz) init anyStep s

/-- The run is stuck: everything that was sent was received, and nothing will
be sent any more. -/
def Wedged (s : State) : Prop :=
  s.recv_ctr < nr_iter ∧ s.sent_ctr = s.recv_ctr ∧ s.asked = [] ∧ s.readable = [] ∧
    ∀ s', Reach (step nr_iter bulk_sz) s anyStep s' → s'.sent_ctr = s.sent_ctr

/-- **Every message is accounted for.** -/
structure AccountsForAll : Prop where
  balanced : bulk_sz ≠ -1 → ∀ s, Reached nr_iter bulk_sz s → s.pc = .round →
    s.sent_ctr = s.recv_ctr
  bounded : bulk_sz ≠ -1 → ∀ s, Reached nr_iter bulk_sz s → s.sent_ctr - s.recv_ctr ≤ bulk_sz
  limited : bulk_sz ≠ -1 → ∀ s, Reached nr_iter bulk_sz s → s.sent_ctr ≤ nr_iter
  lively : ∀ s, Reached nr_iter bulk_sz s → ¬ Wedged nr_iter bulk_sz s
  divides : ∀ s, Reached nr_iter bulk_sz s → s.pc = .done → s.recv_ctr ≠ 0

end Step

/-! ## the invariant -/

section Invariant

variable {nr_iter bulk_sz : Int} {s s' : State} {l : Label}

/-- What holds at each place.  Where the loop receives there is something to
receive. -/
def AtPc (nr_iter bulk_sz : Int) (s : State) : Pc → Prop
  | .round => bulk_sz ≠ -1 → s.sent_ctr = s.recv_ctr
  | .fill => s.recv_ctr < nr_iter ∧ (bulk_sz ≠ -1 → s.sent_ctr = s.recv_ctr)
  | .send i =>
      0 ≤ i ∧ i ≤ s.to_send ∧ 1 ≤ s.to_send ∧ s.recv_ctr + i ≤ s.sent_ctr ∧
        s.sent_ctr + (s.to_send - i) ≤ nr_iter ∧ s.recv_ctr < nr_iter ∧
        (bulk_sz ≠ -1 → s.sent_ctr = s.recv_ctr + i ∧
          s.to_send = bulkOf nr_iter bulk_sz s.recv_ctr)
  | .drain =>
      s.recv_ctr < s.sent_ctr ∧
        (bulk_sz ≠ -1 → s.sent_ctr = s.recv_ctr + bulkOf nr_iter bulk_sz s.recv_ctr)
  | .poll =>
      s.recv_ctr < s.sent_ctr ∧
        (bulk_sz ≠ -1 → s.sent_ctr = s.recv_ctr + (s.to_recv - s.received) ∧
          s.received < s.to_recv)
  | .done => nr_iter ≤ s.recv_ctr

structure Inv (nr_iter bulk_sz : Int) (s : State) : Prop where
  count : s.sent_ctr = s.recv_ctr + s.asked.length + s.readable.length
  limited : s.sent_ctr ≤ nr_iter
  bounded : bulk_sz ≠ -1 → s.sent_ctr - s.recv_ctr ≤ bulk_sz
  pc : AtPc nr_iter bulk_sz s s.pc

/-- A bulk is not empty, not too large, and does not exceed what is left. -/
theorem bulkOf_spec (hbulk : bulk_sz = -1 ∨ 1 ≤ bulk_sz) {ctr : Int} (h : ctr < nr_iter) :
    1 ≤ bulkOf nr_iter bulk_sz ctr ∧ (bulk_sz ≠ -1 → bulkOf nr_iter bulk_sz ctr ≤ bulk_sz) ∧
      ctr + bulkOf nr_iter bulk_sz ctr ≤ nr_iter := by
  rw [bulkOf]
  split
  · omega
  · split <;> omega

theorem inv_init (hnr : 1 ≤ nr_iter) (hbulk : bulk_sz = -1 ∨ 1 ≤ bulk_sz) :
    Inv nr_iter bulk_sz init :=
  ⟨rfl, by simp only [init]; omega, by simp only [init]; omega, fun _ => rfl⟩

theorem Inv.reply (hi : Inv nr_iter bulk_sz s) {q : Int} (hq : q ∈ s.asked) :
    Inv nr_iter bulk_sz { s with asked := s.asked.erase q, readable := s.readable ++ [q] } := by
  have hlen := List.length_erase_of_mem hq
  have hpos := List.length_pos_of_mem hq
  refine ⟨?_, hi.limited, hi.bounded, ?_⟩
  · have := hi.count
    simp only [List.length_append, List.length_singleton, hlen]
    omega
  · have hpc := hi.pc
    revert hpc
    cases s.pc <;> exact id

/-- The end of the loop that receives: either more of the bulk is to come, or
all of it was received. -/
theorem inv_again (hcount : s.sent_ctr = s.recv_ctr + s.asked.length + s.readable.length)
    (hlimited : s.sent_ctr ≤ nr_iter) (hbounded : bulk_sz ≠ -1 → s.sent_ctr - s.recv_ctr ≤ bulk_sz)
    (hleft : bulk_sz ≠ -1 → s.sent_ctr = s.recv_ctr + (s.to_recv - s.received) ∧
      s.received ≤ s.to_recv) : Inv nr_iter bulk_sz (s.again bulk_sz) := by
  refine ⟨hcount, hlimited, hbounded, ?_⟩
  rw [State.again]
  by_cases hmore : bulk_sz ≠ -1 ∧ s.received < s.to_recv
  · rw [if_pos hmore]
    obtain ⟨heq, -⟩ := hleft hmore.1
    exact ⟨by dsimp only; omega, fun _ => ⟨heq, hmore.2⟩⟩
  · rw [if_neg hmore]
    intro hb
    obtain ⟨heq, hle⟩ := hleft hb
    have hdone : ¬ s.received < s.to_recv := fun hlt => hmore ⟨hb, hlt⟩
    dsimp only
    omega

/-- A bulk is begun. -/
theorem Inv.fill (hbulk : bulk_sz = -1 ∨ 1 ≤ bulk_sz) (hi : Inv nr_iter bulk_sz s)
    (h : s.pc = .fill) {r : RoundTrip} (hs : s.next nr_iter bulk_sz r = some s') :
    Inv nr_iter bulk_sz s' := by
  have hpc := hi.pc
  rw [h] at hpc
  obtain ⟨hlt, heq⟩ := hpc
  rw [State.next, h] at hs
  dsimp only at hs
  by_cases hmore : s.sent_ctr < nr_iter
  · rw [if_pos hmore] at hs
    cases hs
    obtain ⟨hpos, -, hfits⟩ := bulkOf_spec hbulk hmore
    have hcount := hi.count
    refine ⟨hcount, hi.limited, hi.bounded, le_rfl, ?_, hpos, ?_, ?_, hlt, fun hb => ?_⟩
    · dsimp only
      omega
    · dsimp only
      omega
    · dsimp only
      omega
    · obtain hsame := heq hb
      exact ⟨by dsimp only; omega, by dsimp only; rw [hsame]⟩
  · rw [if_neg hmore] at hs
    cases hs
    refine ⟨hi.count, hi.limited, hi.bounded, ?_, fun hb => ?_⟩
    · dsimp only
      omega
    · have := heq hb
      omega

/-- A request is sent, or all of the bulk was. -/
theorem Inv.send {i : Int} (hbulk : bulk_sz = -1 ∨ 1 ≤ bulk_sz) (hi : Inv nr_iter bulk_sz s)
    (h : s.pc = .send i) {r : RoundTrip} (hs : s.next nr_iter bulk_sz r = some s') :
    Inv nr_iter bulk_sz s' := by
  have hpc := hi.pc
  rw [h] at hpc
  obtain ⟨h0, hle, hpos, hsent, hfits, hlt, heq⟩ := hpc
  have hcount := hi.count
  rw [State.next, h] at hs
  dsimp only at hs
  by_cases hmore : i < s.to_send
  · rw [if_pos hmore] at hs
    cases hs
    obtain ⟨-, hsize, -⟩ := bulkOf_spec hbulk hlt
    refine ⟨?_, ?_, fun hb => ?_, ?_⟩
    · simp only [List.length_append, List.length_singleton]
      omega
    · dsimp only
      omega
    · obtain ⟨hsame, hbulkOf⟩ := heq hb
      have := hsize hb
      dsimp only
      omega
    · refine ⟨by omega, by dsimp only; omega, hpos, by dsimp only; omega,
        by dsimp only; omega, hlt, fun hb => ?_⟩
      obtain ⟨hsame, hbulkOf⟩ := heq hb
      exact ⟨by dsimp only; omega, hbulkOf⟩
  · rw [if_neg hmore] at hs
    cases hs
    refine ⟨hcount, hi.limited, hi.bounded, ?_, fun hb => ?_⟩
    · dsimp only
      omega
    · obtain ⟨hsame, hbulkOf⟩ := heq hb
      dsimp only
      omega

/-- A reply is received, or none can be read. -/
theorem Inv.poll (hi : Inv nr_iter bulk_sz s) (h : s.pc = .poll) {r : RoundTrip}
    (hs : s.next nr_iter bulk_sz r = some s') : Inv nr_iter bulk_sz s' := by
  have hpc := hi.pc
  rw [h] at hpc
  obtain ⟨hlt, heq⟩ := hpc
  have hcount := hi.count
  rw [State.next, h] at hs
  cases hread : s.readable with
  | nil =>
      rw [hread] at hs
      cases hs
      exact inv_again hcount hi.limited hi.bounded fun hb => ⟨(heq hb).1, (heq hb).2.le⟩
  | cons q rest =>
      rw [hread] at hs hcount
      cases hs
      rw [List.length_cons] at hcount
      refine inv_again ?_ hi.limited (fun hb => ?_) fun hb => ?_
      · dsimp only
        omega
      · have := hi.bounded hb
        dsimp only
        omega
      · have := heq hb
        dsimp only
        omega

/-- **Step lemma**: one case for each place. -/
theorem Inv.next (hbulk : bulk_sz = -1 ∨ 1 ≤ bulk_sz) (hi : Inv nr_iter bulk_sz s) {r : RoundTrip}
    (hs : s.next nr_iter bulk_sz r = some s') : Inv nr_iter bulk_sz s' := by
  have hpc := hi.pc
  cases h : s.pc with
  | round =>
      rw [h] at hpc
      rw [State.next, h] at hs
      cases hs
      refine ⟨hi.count, hi.limited, hi.bounded, ?_⟩
      by_cases hge : s.recv_ctr ≥ nr_iter
      · rw [if_pos hge]
        exact hge
      · rw [if_neg hge]
        exact ⟨Int.not_le.mp hge, hpc⟩
  | fill => exact hi.fill hbulk h hs
  | send i => exact hi.send hbulk h hs
  | drain =>
      rw [h] at hpc
      obtain ⟨hlt, heq⟩ := hpc
      have hlimited := hi.limited
      rw [State.next, h] at hs
      cases hs
      obtain ⟨hpos, -, -⟩ := bulkOf_spec hbulk (by omega : s.recv_ctr < nr_iter)
      refine ⟨hi.count, hlimited, hi.bounded, hlt, fun hb => ⟨?_, ?_⟩⟩
      · have := heq hb
        dsimp only
        omega
      · dsimp only
        omega
  | poll => exact hi.poll h hs
  | done =>
      rw [State.next, h] at hs
      cases hs

/-- **The invariant holds in every state of every run.** -/
theorem Inv.of_reached (hnr : 1 ≤ nr_iter) (hbulk : bulk_sz = -1 ∨ 1 ≤ bulk_sz)
    (hr : Reached nr_iter bulk_sz s) : Inv nr_iter bulk_sz s := by
  refine Reach.invariant (inv_init hnr hbulk) (fun s l s' hi _ hs => ?_) hr
  cases l with
  | next r => exact hi.next hbulk hs
  | reply q =>
      rw [step] at hs
      split at hs
      · next hq =>
        cases hs
        exact hi.reply hq
      · cases hs

end Invariant

/-! ## going on -/

section Progress

variable {nr_iter bulk_sz : Int} {s s' : State} {l : Label}

/-- Some run from here sends another request. -/
def Sends (nr_iter bulk_sz : Int) (s : State) : Prop :=
  ∃ s', Reach (step nr_iter bulk_sz) s anyStep s' ∧ s.sent_ctr < s'.sent_ctr

/-- Steps that send nothing do not matter. -/
theorem Sends.of_step (hs : step nr_iter bulk_sz s l = some s') (hsame : s'.sent_ctr = s.sent_ctr)
    (h : Sends nr_iter bulk_sz s') : Sends nr_iter bulk_sz s := by
  obtain ⟨s'', hr, hlt⟩ := h
  exact ⟨s'', (Reach.init.step trivial hs).trans hr, hsame ▸ hlt⟩

/-- A message of zeros. -/
def noTrip : RoundTrip := ⟨⟨0, 0, 0, 0, 0⟩, 0, 0⟩

theorem sends_send {i : Int} (hpc : s.pc = .send i) (hlt : i < s.to_send) :
    Sends nr_iter bulk_sz s := by
  have hs : step nr_iter bulk_sz s (.next noTrip) = some { s with
      sent_ctr := s.sent_ctr + 1, asked := s.asked ++ [s.sent_ctr], pc := .send (i + 1) } := by
    rw [step, State.next, hpc]
    exact if_pos hlt
  exact ⟨_, Reach.init.step trivial hs, Int.lt_succ s.sent_ctr⟩

theorem sends_fill (hbulk : bulk_sz = -1 ∨ 1 ≤ bulk_sz) (hpc : s.pc = .fill)
    (hlt : s.sent_ctr < nr_iter) : Sends nr_iter bulk_sz s := by
  have hs : step nr_iter bulk_sz s (.next noTrip) =
      some { s with to_send := bulkOf nr_iter bulk_sz s.sent_ctr, pc := .send 0 } := by
    rw [step, State.next, hpc]
    exact if_pos hlt
  exact .of_step hs rfl (sends_send rfl (bulkOf_spec hbulk hlt).1)

theorem sends_round (hbulk : bulk_sz = -1 ∨ 1 ≤ bulk_sz) (hpc : s.pc = .round)
    (hrecv : s.recv_ctr < nr_iter) (hlt : s.sent_ctr < nr_iter) : Sends nr_iter bulk_sz s := by
  have hs : step nr_iter bulk_sz s (.next noTrip) = some { s with pc := .fill } := by
    rw [step, State.next, hpc]
    exact congrArg some (by rw [if_neg (Int.not_le.mpr hrecv)])
  exact .of_step hs rfl (sends_fill hbulk rfl hlt)

/-- **The loop goes on** when all that was sent was received. -/
theorem Inv.sends (hbulk : bulk_sz = -1 ∨ 1 ≤ bulk_sz) (hi : Inv nr_iter bulk_sz s)
    (hrecv : s.recv_ctr < nr_iter) (heq : s.sent_ctr = s.recv_ctr) : Sends nr_iter bulk_sz s := by
  have hpc := hi.pc
  cases h : s.pc with
  | round => exact sends_round hbulk h hrecv (heq ▸ hrecv)
  | fill => exact sends_fill hbulk h (heq ▸ hrecv)
  | send i =>
      rw [h] at hpc
      obtain ⟨h0, -, hpos, hsent, -⟩ := hpc
      exact sends_send h (by omega)
  | drain =>
      rw [h] at hpc
      have := hpc.1
      omega
  | poll =>
      rw [h] at hpc
      have := hpc.1
      omega
  | done =>
      rw [h] at hpc
      have hle : nr_iter ≤ s.recv_ctr := hpc
      omega

/-! ## sizes that do not work -/

/-- Nothing was sent, and nothing will be. -/
structure Idle (s : State) : Prop where
  sent : s.sent_ctr = 0
  recv : s.recv_ctr = 0
  asked : s.asked = []
  readable : s.readable = []
  send : ∀ i, s.pc = .send i → s.to_send ≤ i

theorem Idle.again (h : Idle s) : Idle (s.again bulk_sz) := by
  refine ⟨h.sent, h.recv, h.asked, h.readable, fun i hi => ?_⟩
  rw [State.again] at hi
  dsimp only at hi
  split at hi <;> cases hi

theorem Idle.next (hle : bulk_sz ≤ 0) (hbulk : bulk_sz ≠ -1) (h : Idle s) {r : RoundTrip}
    (hs : s.next nr_iter bulk_sz r = some s') : Idle s' := by
  rw [State.next] at hs
  cases hpc : s.pc with
  | round =>
      rw [hpc] at hs
      cases hs
      refine ⟨h.sent, h.recv, h.asked, h.readable, fun i hi => ?_⟩
      dsimp only at hi
      split at hi <;> cases hi
  | fill =>
      rw [hpc] at hs
      dsimp only at hs
      split at hs
      · next hlt =>
        cases hs
        have hbulkOf : bulkOf nr_iter bulk_sz s.sent_ctr = bulk_sz := by
          rw [bulkOf, if_neg hbulk, if_pos (by omega)]
        refine ⟨h.sent, h.recv, h.asked, h.readable, fun i hi => ?_⟩
        cases hi
        dsimp only
        omega
      · cases hs
        exact ⟨h.sent, h.recv, h.asked, h.readable, fun i hi => by cases hi⟩
  | send i =>
      rw [hpc] at hs
      dsimp only at hs
      rw [if_neg (Int.not_lt.mpr (h.send i hpc))] at hs
      cases hs
      exact ⟨h.sent, h.recv, h.asked, h.readable, fun i hi => by cases hi⟩
  | drain =>
      rw [hpc] at hs
      cases hs
      exact ⟨h.sent, h.recv, h.asked, h.readable, fun i hi => by cases hi⟩
  | poll =>
      rw [hpc, h.readable] at hs
      cases hs
      exact h.again
  | done =>
      rw [hpc] at hs
      cases hs

/-- Bulks that are empty or negative are never sent. -/
theorem Idle.of_reached (hle : bulk_sz ≤ 0) (hbulk : bulk_sz ≠ -1)
    (hr : Reached nr_iter bulk_sz s) : Idle s := by
  have hinit : Idle init := ⟨rfl, rfl, rfl, rfl, fun i hi => by cases hi⟩
  refine Reach.invariant hinit (fun s l s' hi _ hs => ?_) hr
  cases l with
  | next r => exact hi.next hle hbulk hs
  | reply q =>
      rw [step, hi.asked, if_neg List.not_mem_nil] at hs
      cases hs

theorem wedged_init (hnr : 1 ≤ nr_iter) (hle : bulk_sz ≤ 0) (hbulk : bulk_sz ≠ -1) :
    Wedged nr_iter bulk_sz init :=
  ⟨Int.lt_of_lt_of_le (by decide) hnr, rfl, rfl, rfl,
    fun _ hr => (Idle.of_reached hle hbulk hr).sent⟩

/-- Without iterations the loop ends at once. -/
theorem reached_done (hnr : nr_iter ≤ 0) : Reached nr_iter bulk_sz { init with pc := .done } := by
  refine Reach.init.step (l := .next noTrip) trivial ?_
  show some { init with pc := if init.recv_ctr ≥ nr_iter then Pc.done else .fill } = _
  rw [if_pos (show init.recv_ctr ≥ nr_iter from hnr)]

/-! ## which sizes work -/

theorem accountsForAll_of (hnr : 1 ≤ nr_iter) (hbulk : bulk_sz = -1 ∨ 1 ≤ bulk_sz) :
    AccountsForAll nr_iter bulk_sz where
  balanced hb s hr hpc := by
    have h := (Inv.of_reached hnr hbulk hr).pc
    rw [hpc] at h
    exact h hb
  bounded hb _ hr := (Inv.of_reached hnr hbulk hr).bounded hb
  limited _ _ hr := (Inv.of_reached hnr hbulk hr).limited
  lively s hr := by
    rintro ⟨hlt, heq, -, -, hstuck⟩
    obtain ⟨s', hr', hmore⟩ := (Inv.of_reached hnr hbulk hr).sends hbulk hlt heq
    have := hstuck s' hr'
    omega
  divides s hr hpc := by
    have h := (Inv.of_reached hnr hbulk hr).pc
    rw [hpc] at h
    have hle : nr_iter ≤ s.recv_ctr := h
    omega

/-- **All messages are accounted for if and only if** there is something to
send, and the bulks are not empty. -/
theorem accountsForAll_iff (nr_iter : Int32) (bulk_sz : Int64) :
    AccountsForAll nr_iter.toInt bulk_sz.toInt ↔ 1 ≤ nr_iter ∧ (bulk_sz = -1 ∨ 1 ≤ bulk_sz) := by
  have hone : (1 : Int32).toInt = 1 := rfl
  have hone' : (1 : Int64).toInt = 1 := rfl
  rw [Int32.le_iff_toInt_le, Int64.le_iff_toInt_le, ← Int64.toInt_inj (y := -1), hone, hone',
    show (-1 : Int64).toInt = -1 from rfl]
  refine ⟨fun h => ?_, fun ⟨hnr, hbulk⟩ => accountsForAll_of hnr hbulk⟩
  have hnr : 1 ≤ nr_iter.toInt := by
    by_contra hnr
    exact h.divides _ (reached_done (by omega)) rfl rfl
  refine ⟨hnr, ?_⟩
  by_contra hbulk
  obtain ⟨hne, hle⟩ := not_or.mp hbulk
  exact h.lively init .init (wedged_init hnr (by omega) hne)

/-- Bulks of no message, and no iterations at all. -/
theorem not_accountsForAll : ¬ AccountsForAll 10 0 ∧ ¬ AccountsForAll 0 5 :=
  ⟨fun h => h.lively init .init (wedged_init (by decide) (by decide) (by decide)),
    fun h => h.divides _ (reached_done (by decide)) rfl rfl⟩

/-! ## the command line -/

/-- Every number of iterations can be given. -/
theorem exists_nrIterations (n : Int32) : ∃ s, nrIterations s = some n := by
  have hlow := n.le_toInt
  have hhigh := n.toInt_lt
  have hnumeral := numeral_intText n.toInt
  have hfits : FitsProduct n.toInt 1 := fun _ => by omega
  have hagree := convertA2I_eq (intText n.toInt)
  rw [if_pos (convertA2Inoexit_valid_iff.mpr ⟨_, _, hnumeral⟩)] at hagree
  have hresult := (hnumeral.result_eq_iff hfits).mpr ⟨hfits, fun _ => .inl (by omega)⟩
  refine ⟨intText n.toInt, ?_⟩
  rw [nrIterations, hagree]
  refine congrArg some (Int32.toInt_inj.mp ?_)
  generalize (convertA2Inoexit (intText n.toInt)).result = x at hresult ⊢
  show x.toUInt32.toInt32.toInt = n.toInt
  rw [toInt_toUInt32_toInt32, Int.bmod_def]
  omega

end Progress

/-! ## a socket for sending only -/

section Sender

variable {nr_iter bulk_sz : Int}

/-- The body of `do_bulk_async_send`, on `sent_ctr`. -/
def sendBulk (nr_iter bulk_sz sent_ctr : Int) : Int × Bool :=
  if sent_ctr ≥ nr_iter then (sent_ctr, true)
  else (sent_ctr + (bulkOf nr_iter bulk_sz sent_ctr).toNat, false)

/-- The bulks add up to what is left. -/
theorem ends_sendBulk (hbulk : bulk_sz = -1 ∨ 1 ≤ bulk_sz) {sent_ctr : Int} {left : Nat}
    (h : sent_ctr + left = nr_iter) : Ends (sendBulk nr_iter bulk_sz) sent_ctr nr_iter := by
  induction left using Nat.strongRecOn generalizing sent_ctr with
  | _ left ih =>
      obtain rfl | hpos := Nat.eq_zero_or_pos left
      · obtain rfl : sent_ctr = nr_iter := by omega
        exact .break (if_pos (Int.le_refl sent_ctr))
      · have hlt : sent_ctr < nr_iter := by omega
        obtain ⟨hone, -, hle⟩ := bulkOf_spec hbulk hlt
        refine .next (if_neg (Int.not_le.mpr hlt)) (ih (nr_iter - sent_ctr -
          (bulkOf nr_iter bulk_sz sent_ctr).toNat).toNat (by omega) (by omega))

/-- **The sender alone ends if and only if** there is nothing to send, or the
bulks are not empty; it has sent everything then. -/
theorem ends_sendBulk_iff (sent : Int) :
    Ends (sendBulk nr_iter bulk_sz) 0 sent ↔
      sent = max 0 nr_iter ∧ (nr_iter ≤ 0 ∨ bulk_sz = -1 ∨ 1 ≤ bulk_sz) := by
  by_cases hnr : nr_iter ≤ 0
  · have hbreak : sendBulk nr_iter bulk_sz 0 = (0, true) := if_pos hnr
    rw [ends_break hbreak, Int.max_eq_left hnr]
    simp only [hnr, true_or, and_true]
  · by_cases hbulk : bulk_sz = -1 ∨ 1 ≤ bulk_sz
    · have hleft : 0 + (nr_iter.toNat : Int) = nr_iter := by omega
      have hall := ends_sendBulk hbulk hleft
      rw [Int.max_eq_right (by omega)]
      simp only [hbulk, or_true, and_true]
      exact ⟨fun h => h.unique hall, fun h => h ▸ hall⟩
    · obtain ⟨hne, hle⟩ := not_or.mp hbulk
      have hstay : sendBulk nr_iter bulk_sz 0 = (0, false) := by
        rw [sendBulk, if_neg hnr, bulkOf, if_neg hne, if_pos (by omega),
          Int.toNat_of_nonpos (by omega)]
        rfl
      simp only [hnr, hbulk, or_self, and_false, iff_false]
      rintro ⟨n, hn⟩
      rw [loop_eq_none (I := (· = 0)) (fun s hs => by rw [hs, hstay]; exact ⟨rfl, rfl⟩) rfl] at hn
      cases hn

end Sender

end CloudProfiler.Tsc.Async
