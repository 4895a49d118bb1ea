import CloudProfiler.Config.Message
import CloudProfiler.Emit.Load
import CloudProfiler.Emit.Receive
import CloudProfiler.Emit.Schedule

/-!
# CloudProfiler.Emit.Deliver

The way of the tuples from the loader to the pipeline (`cpp_emit/emit.cpp`):
each thread of the server (`mt_emitScheduler`) sends its tuples to the thread
of the client with its number (`mt_client`), which copies each message and
pushes the copy to its queue, from which `mt_recvStr` takes it.

A PUSH and a PULL socket that are connected keep the order of the messages.
The first one is no tuple; the client drops it.  No poison pills are sent, as
with a `pill_dur` of zero: they would follow the tuples through the same
sockets and queues.  The rate is above 1000 tuples per second; up to that rate
a thread sends in every window as many tuples as in a second.

* `EmitBounded` — whatever the clock, a thread sends each tuple at most once;
* `Delivery`, `deliverStep` — the threads of both sides;
* `DeliverInv` — where the tuples are;
* `delivered` — what `recvStr` returns.
-/

namespace CloudProfiler

open Pieces

/-! ## one sender on any clock -/

/-- Where the clock is after `r` rounds, if it is read at any time. -/
structure RoundsInv {τ : Type} (v : EmitVars) (start : Timespec) (r : Nat) (s : EmitThread τ) :
    Prop where
  normal : s.budgetEnd.Normal
  budgetEnd : s.budgetEnd.ns = start.ns + (r + s.pc.windows) * 1000000
  tsEnd : s.tsEnd = ⟨start.tvSec + v.emitDur, start.tvNsec, 0, 0, 0⟩
  running : s.pc ≠ .done → (r : Int) < 1000 * v.emitDur.toInt
  bounded : (r : Int) ≤ 1000 * v.emitDur.toInt

/-- After some number of rounds. -/
def EmitBounded {τ : Type} (v : EmitVars) (vec : List τ) (start : Timespec) (s : EmitThread τ) :
    Prop :=
  ∃ r, EmitInv vec v.perMsThroughput.toInt.toNat r s ∧ RoundsInv v start r s

/-- A rate above 1000, of tuples that are there for `emit_dur` seconds, with
windows that an `int` counts. -/
structure RateFits {τ : Type} (v : EmitVars) (vec : List τ) : Prop where
  rate : 1000 < v.perSecThroughput.toInt
  small : v.perSecThroughput.toInt < 1000 * 2 ^ 31
  duration : 1 ≤ v.emitDur.toInt
  length : (vec.length : Int) = v.perSecThroughput.toInt * v.emitDur.toInt

section Sender

variable {τ : Type} {v : EmitVars} {vec : List τ} {start now : Timespec} {s s' : EmitThread τ}
  {r : Nat}

theorem RateFits.perMs (hv : RateFits v vec) :
    v.perMsThroughput.toInt = (v.perMsThroughput.toInt.toNat : Nat) ∧
      v.perMsThroughput.toInt.toNat < 2 ^ 31 := by
  have hrate := hv.rate
  have hsmall := hv.small
  have heq := toInt_perMsThroughput hv.rate
  omega

theorem ScheduleInv.roundsInv (h : ScheduleInv v start r s) : RoundsInv v start r s := by
  refine ⟨h.normal, h.budgetEnd, h.tsEnd, h.running, ?_⟩
  by_cases hpc : s.pc = .done
  · exact (h.ended hpc).le
  · exact (h.running hpc).le

theorem RoundsInv.step (hv : ClockFits v start) (hdur : 1 ≤ v.emitDur.toInt)
    (hs : RoundsInv v start r s) (hnow : now.Normal) (h : emitStep v vec s now = some s') :
    RoundsInv v start (r + if s.EndsWindow now then 1 else 0) s' := by
  obtain ⟨hnormal, hbudget, hend, hrunning, hbounded⟩ := hs
  obtain ⟨hendNormal, hendNs⟩ := hv.tsEnd hdur hend
  obtain ⟨hnot, rfl⟩ | ⟨i, hpc, hnot, hemit⟩ | ⟨hends, hcases⟩ := emitStep_cases h
  · rw [if_neg hnot]
    exact ⟨hnormal, hbudget, hend, hrunning, hbounded⟩
  · rw [if_neg hnot, Nat.add_zero]
    rw [hpc] at hbudget hrunning
    exact (EmitThread.emit_schedule (s := { s with curTime := now }) hv hnormal
      (by simpa [EmitPc.windows] using hbudget) hend (hrunning (by simp)) hemit).roundsInv
  · have hlate := hends.2
    rw [compareTS_neg_iff hnow hnormal] at hlate
    rw [hends.1] at hbudget hrunning
    simp only [EmitPc.windows] at hbudget
    have hrunning := hrunning (by simp)
    rw [if_pos hends]
    obtain ⟨-, rfl⟩ | ⟨hnext, hemit⟩ := hcases
    · exact ⟨hnormal, by simpa [EmitPc.windows] using hbudget, hend, fun hne => absurd rfl hne,
        by omega⟩
    · rw [compareTS_neg_iff hnow hendNormal] at hnext
      exact (EmitThread.emit_schedule (s := { s with curTime := now }) hv hnormal
        (by simpa using hbudget) hend (by omega) hemit).roundsInv

theorem emitBounded_init (hv : ClockFits v start) (hrate : RateFits v vec)
    (h : mtEmitScheduler v vec start = some s) : EmitBounded v vec start s := by
  obtain ⟨s₁, hemit, -, -, hbudget, hend⟩ := mtEmitScheduler_cases h
  obtain ⟨hnormal, hns⟩ := addTS_null (u := ⟨0, 0, 0, 0, 0⟩) hv.normal
  rw [← hbudget] at hnormal hns
  have hdur := hrate.duration
  refine ⟨0, mtEmitScheduler_inv hrate.perMs.1 h, ScheduleInv.roundsInv ?_⟩
  exact EmitThread.emit_schedule hv hnormal (by simpa using hns) hend (by omega) hemit

theorem EmitBounded.step (hv : ClockFits v start) (hrate : RateFits v vec)
    (hs : EmitBounded v vec start s) (hnow : now.Normal) (h : emitStep v vec s now = some s') :
    EmitBounded v vec start s' := by
  obtain ⟨r, hemit, hrounds⟩ := hs
  exact ⟨_, hemit.step hrate.perMs.1 hrate.perMs.2 h, hrounds.step hv hrate.duration hnow h⟩

/-- The emissions of the rounds, and of the one that is not over. -/
theorem EmitBounded.length_le (hs : EmitBounded v vec start s) :
    s.sent.length ≤ 1000 * v.emitDur.toInt.toNat * v.perMsThroughput.toInt.toNat := by
  obtain ⟨r, hemit, hrounds⟩ := hs
  have hcount := hemit.count
  have hbounded := hrounds.bounded
  by_cases hpc : s.pc = .done
  · rw [hpc] at hcount
    simp only [EmitPc.emissions, Nat.add_zero] at hcount
    rw [hcount]
    exact Nat.mul_le_mul_right _ (by omega)
  · have hrunning := hrounds.running hpc
    have hcounter := hemit.counter
    have hemissions : s.pc.emissions v.perMsThroughput.toInt.toNat ≤
        v.perMsThroughput.toInt.toNat := by
      cases h : s.pc with
      | poll i =>
          rw [h] at hcounter
          obtain ⟨hi, hlt⟩ := hcounter
          simp only [EmitPc.emissions]
          omega
      | sync => exact Nat.le_refl _
      | done => exact absurd h hpc
    calc s.sent.length ≤ (r + 1) * v.perMsThroughput.toInt.toNat := by
          rw [hcount, Nat.succ_mul]
          omega
      _ ≤ _ := Nat.mul_le_mul_right _ (by omega)

/-- **No tuple is sent twice**: the tuples that were sent are the first ones. -/
theorem EmitBounded.sent_prefixed (hrate : RateFits v vec) (hs : EmitBounded v vec start s) :
    s.sent <+: vec := by
  have hle : s.sent.length ≤ vec.length := by
    have hperMs := toInt_perMsThroughput hrate.rate
    have hlength := hrate.length
    have hdur := hrate.duration
    calc s.sent.length
        ≤ v.emitDur.toInt.toNat * (1000 * v.perMsThroughput.toInt.toNat) := by
          rw [← Nat.mul_assoc, Nat.mul_comm v.emitDur.toInt.toNat]
          exact hs.length_le
      _ ≤ v.emitDur.toInt.toNat * v.perSecThroughput.toInt.toNat :=
          Nat.mul_le_mul_left _ (by omega)
      _ = vec.length := by
          have hrate := hrate.rate
          rw [← Int.natCast_inj, Int.natCast_mul, Int.toNat_of_nonneg (by omega),
            Int.toNat_of_nonneg (by omega), hlength, Int.mul_comm]
  obtain ⟨r, hemit, hrounds⟩ := hs
  refine List.prefix_iff_getElem?.mpr fun k hk => ?_
  rw [← List.getElem?_eq_getElem hk, hemit.sent k hk, Nat.mod_eq_of_lt (by omega)]

end Sender

/-! ## the threads of both sides -/

/-- Where a thread of the client is. -/
inductive MtClientPc
  /-- before the initial message -/
  | start
  | receiving
  /-- with a copy of a message -/
  | holding (str : List UInt8)
  deriving DecidableEq

/-- The copy of a message: `strncpy` of its size, and a NUL. -/
def copyOf (msg : TupleBytes) : List UInt8 :=
  (cStr msg ++ List.replicate msg.length 0).take msg.length ++ [0]

/-- The message a thread of the server sends first. -/
def initMessage : TupleBytes := [105, 110, 105, 116, 0]

/-- `nr_threads` threads on each side, and the thread that calls `recvStr` on
the channel of the client. -/
structure Delivery (T : Nat) where
  senders : Fin T → EmitThread TupleBytes
  /-- The messages on their way. -/
  wires : Fin T → List TupleBytes
  clients : Fin T → MtClientPc
  receiver : Receiver (List UInt8)

inductive DeliverLabel (T : Nat)
  /-- A thread of the server reads the clock. -/
  | emit (q : Fin T) (now : Timespec)
  | recv (q : Fin T)
  | push (q : Fin T)
  | recvStr
  | attempt

section Delivery

variable {T : Nat}

/-- The threads of the server have passed the barrier, and the client has
opened its channel. -/
def Delivery.init (senders : Fin T → EmitThread TupleBytes) : Delivery T where
  senders := senders
  wires q := initMessage :: (senders q).sent
  clients _ := .start
  receiver := { Receiver.init with channels := [some T] }

def deliverStep (v : EmitVars) (vecs : Fin T → List TupleBytes) (s : Delivery T) :
    DeliverLabel T → Option (Delivery T)
  | .emit q now =>
      (emitStep v (vecs q) (s.senders q) now).map fun sender =>
        { s with
          senders := Function.update s.senders q sender
          wires := Function.update s.wires q
            (s.wires q ++ sender.sent.drop (s.senders q).sent.length) }
  | .recv q =>
      match s.clients q, s.wires q with
      | .start, _ :: rest =>
          some { s with
            wires := Function.update s.wires q rest
            clients := Function.update s.clients q .receiving }
      | .receiving, msg :: rest =>
          some { s with
            wires := Function.update s.wires q rest
            clients := Function.update s.clients q (.holding (copyOf msg)) }
      | _, _ => none
  | .push q =>
      match s.clients q with
      | .holding str =>
          (recvStep s.receiver (.push 0 q str)).map fun receiver =>
            { s with
              clients := Function.update s.clients q .receiving
              receiver := receiver }
      | _ => none
  | .recvStr => (recvStep s.receiver (.recvStr 0)).map fun receiver => { s with receiver := receiver }
  | .attempt => (recvStep s.receiver .attempt).map fun receiver => { s with receiver := receiver }

/-- The clock delivers normal time-stamps. -/
def NormalClock (_ : Delivery T) : DeliverLabel T → Prop
  | .emit _ now => now.Normal
  | _ => True

instance : DecidableRel (NormalClock : Delivery T → DeliverLabel T → Prop) := fun _ l =>
  match l with
  | .emit _ now => inferInstanceAs (Decidable now.Normal)
  | .recv _ | .push _ | .recvStr | .attempt => .isTrue trivial

/-- The copy a thread of the client has. -/
def MtClientPc.held : MtClientPc → List (List UInt8)
  | .holding str => [str]
  | _ => []

/-- The messages of a thread of the server: first the initial one. -/
def MtClientPc.unread : MtClientPc → List TupleBytes
  | .start => [initMessage]
  | _ => []

/-- The receiving thread works on the one channel there is. -/
structure OneChannel (T : Nat) (r : Receiver (List UInt8)) : Prop where
  inv : RecvInv r
  channels : r.channels = [some T]
  position : r.position T < T
  polling : ∀ ch, r.pc = .polling ch → ch = 0

/-- Where the tuples are. -/
structure DeliverInv (v : EmitVars) (vecs : Fin T → List TupleBytes) (starts : Fin T → Timespec)
    (s : Delivery T) : Prop where
  senders : ∀ q, EmitBounded v (vecs q) (starts q) (s.senders q)
  wires : ∀ q, ∃ tuples, s.wires q = (s.clients q).unread ++ tuples ∧
    (s.senders q).sent.map copyOf =
      ofQueue 0 q s.receiver.pushed ++ (s.clients q).held ++ tuples.map copyOf
  receiver : OneChannel T s.receiver

end Delivery

section Delivery

variable {T : Nat} {v : EmitVars} {vecs : Fin T → List TupleBytes} {starts : Fin T → Timespec}
  {s s' : Delivery T} {l : DeliverLabel T} {r r' : Receiver (List UInt8)}

/-! ## the receiver -/

theorem OneChannel.nrQueues (h : OneChannel T r) : r.nrQueues 0 = some T := by
  rw [Receiver.nrQueues, h.channels]
  rfl

theorem OneChannel.push (h : OneChannel T r) {q : Nat} {str : List UInt8}
    (hstep : recvStep r (.push 0 q str) = some r') :
    OneChannel T r' ∧ r'.pushed = r.pushed ++ [(0, q, str)] := by
  have hok : InRange r (.push 0 q str) := trivial
  have hinv := h.inv.move (recvStep_move hok hstep)
  simp only [recvStep, h.inv.fault, h.nrQueues, Option.bind_some, Bool.false_eq_true, if_false]
    at hstep
  split at hstep
  · obtain rfl := Option.some.inj hstep
    exact ⟨⟨hinv, h.channels, h.position, h.polling⟩, rfl⟩
  · cases hstep

theorem OneChannel.recvStr (h : OneChannel T r) (hstep : recvStep r (.recvStr 0) = some r') :
    OneChannel T r' ∧ r'.pushed = r.pushed := by
  have hok : InRange r (.recvStr 0) := ⟨T, h.nrQueues, h.position⟩
  have hinv := h.inv.move (recvStep_move hok hstep)
  have hpos := h.position
  have hT : T ≠ 0 := by omega
  simp only [recvStep, h.inv.fault, h.channels, hT, List.getElem?_cons_zero, Option.map_some,
    Bool.false_eq_true, if_false] at hstep
  split at hstep
  · obtain rfl := Option.some.inj hstep
    exact ⟨⟨hinv, rfl, hpos, fun ch hch => (RecvPc.polling.inj hch).symm⟩, rfl⟩
  · cases hstep

/-- An attempt goes to the next queue. -/
theorem OneChannel.attempt (h : OneChannel T r) (hstep : recvStep r .attempt = some r') :
    OneChannel T r' ∧ r'.pushed = r.pushed := by
  have hok : InRange r .attempt := trivial
  have hinv := h.inv.move (recvStep_move hok hstep)
  have hnext : (if T = 1 then 0 else Receiver.advance T r.i) < T := by
    rw [position_advance h.position]
    exact Rotation.next_lt h.position
  cases hpc : r.pc with
  | ready => simp [recvStep, h.inv.fault, hpc] at hstep
  | polling ch =>
      obtain rfl := h.polling ch hpc
      rw [recvStep_attempt h.inv.fault hpc h.nrQueues, Option.some.injEq] at hstep
      subst hstep
      cases hqueue : r.queue 0 (r.position T) with
      | nil =>
          rw [attempt_nil h.position hqueue] at hinv ⊢
          exact ⟨⟨hinv, h.channels, hnext, h.polling⟩, rfl⟩
      | cons str rest =>
          rw [attempt_cons h.position hqueue] at hinv ⊢
          exact ⟨⟨hinv, h.channels, hnext, fun _ hch => by cases hch⟩, rfl⟩

/-! ## the steps -/

/-- A thread of the server sends what it has not sent yet. -/
theorem emitStep_sent {sender sender' : EmitThread TupleBytes} {vec : List TupleBytes}
    {now : Timespec} (h : emitStep v vec sender now = some sender') :
    sender'.sent = sender.sent ++ sender'.sent.drop sender.sent.length := by
  have hemit {s₁ : EmitThread TupleBytes} {i : Int32} (hemit : s₁.emit v vec i = some sender')
      (hsent : s₁.sent = sender.sent) :
      sender'.sent = sender.sent ++ sender'.sent.drop sender.sent.length := by
    unfold EmitThread.emit at hemit
    split at hemit
    · obtain ⟨str, -, rfl⟩ := Option.map_eq_some_iff.mp hemit
      simp [hsent]
    · obtain rfl := Option.some.inj hemit
      simp [hsent]
  obtain ⟨-, rfl⟩ | ⟨i, -, -, h⟩ | ⟨-, ⟨-, rfl⟩ | ⟨-, h⟩⟩ := emitStep_cases h
  · simp
  · exact hemit h rfl
  · simp
  · exact hemit h rfl

theorem deliverInv_init {senders : Fin T → EmitThread TupleBytes} (hT : 1 ≤ T)
    (hrate : ∀ q, RateFits v (vecs q)) (hclock : ∀ q, ClockFits v (starts q))
    (h : ∀ q, mtEmitScheduler v (vecs q) (starts q) = some (senders q)) :
    DeliverInv v vecs starts (.init senders) where
  senders q := emitBounded_init (hclock q) (hrate q) (h q)
  wires q := ⟨(senders q).sent, rfl, rfl⟩
  receiver := by
    refine ⟨⟨rfl, fun ch n hn => ?_, nofun, fun _ _ => rfl⟩, rfl, ?_, nofun⟩
    · have hjoin : ([some T] : List (Option Nat))[ch]? = some (some n) :=
        Option.join_eq_some_iff.mp hn
      have hmem := List.mem_of_getElem? hjoin
      have hn : n = T := Option.some.inj (List.mem_singleton.mp hmem)
      omega
    · show (if T = 1 then 0 else 0) < T
      split <;> omega

theorem DeliverInv.emit {q : Fin T} {now : Timespec} (hs : DeliverInv v vecs starts s)
    (hrate : RateFits v (vecs q)) (hclock : ClockFits v (starts q)) (hnow : now.Normal)
    (h : deliverStep v vecs s (.emit q now) = some s') : DeliverInv v vecs starts s' := by
  obtain ⟨sender, hemit, rfl⟩ := Option.map_eq_some_iff.mp h
  refine ⟨fun q' => ?_, fun q' => ?_, hs.receiver⟩
  · by_cases hq : q' = q
    · subst hq
      simpa using (hs.senders q').step hclock hrate hnow hemit
    · simpa [Function.update_of_ne hq] using hs.senders q'
  · obtain ⟨tuples, hwire, hsent⟩ := hs.wires q'
    by_cases hq : q' = q
    · subst hq
      refine ⟨tuples ++ sender.sent.drop (s.senders q').sent.length, ?_, ?_⟩
      · simp [hwire]
      · simp only [Function.update_self]
        rw [emitStep_sent hemit, List.map_append, hsent]
        simp
    · exact ⟨tuples, by simpa [Function.update_of_ne hq] using hwire,
        by simpa [Function.update_of_ne hq] using hsent⟩

theorem DeliverInv.recv {q : Fin T} (hs : DeliverInv v vecs starts s)
    (h : deliverStep v vecs s (.recv q) = some s') : DeliverInv v vecs starts s' := by
  have hother {wire : List TupleBytes} {client : MtClientPc} {q' : Fin T} (hq : q' ≠ q) :
      ∃ tuples, Function.update s.wires q wire q' =
          (Function.update s.clients q client q').unread ++ tuples ∧
        (s.senders q').sent.map copyOf = ofQueue 0 q' s.receiver.pushed ++
          (Function.update s.clients q client q').held ++ tuples.map copyOf := by
    simpa [Function.update_of_ne hq] using hs.wires q'
  obtain ⟨tuples, hwire, hsent⟩ := hs.wires q
  simp only [deliverStep] at h
  split at h
  · next msg rest hclient hrest =>
    obtain rfl := Option.some.inj h
    refine ⟨hs.senders, fun q' => ?_, hs.receiver⟩
    by_cases hq : q' = q
    · subst hq
      rw [hclient, hrest] at hwire
      obtain ⟨-, rfl⟩ := List.cons.inj hwire
      exact ⟨rest, by simp [MtClientPc.unread], by simpa [hclient, MtClientPc.held] using hsent⟩
    · exact hother hq
  · next msg rest hclient hrest =>
    obtain rfl := Option.some.inj h
    refine ⟨hs.senders, fun q' => ?_, hs.receiver⟩
    by_cases hq : q' = q
    · subst hq
      rw [hclient, hrest] at hwire
      obtain rfl : msg :: rest = tuples := hwire
      exact ⟨rest, by simp [MtClientPc.unread], by simpa [hclient, MtClientPc.held] using hsent⟩
    · exact hother hq
  · cases h

theorem DeliverInv.push {q : Fin T} (hs : DeliverInv v vecs starts s)
    (h : deliverStep v vecs s (.push q) = some s') : DeliverInv v vecs starts s' := by
  simp only [deliverStep] at h
  split at h
  · next str hclient =>
    obtain ⟨receiver, hstep, rfl⟩ := Option.map_eq_some_iff.mp h
    obtain ⟨hreceiver, hpushed⟩ := hs.receiver.push hstep
    refine ⟨hs.senders, fun q' => ?_, hreceiver⟩
    obtain ⟨tuples, hwire, hsent⟩ := hs.wires q'
    refine ⟨tuples, ?_, ?_⟩
    · by_cases hq : q' = q
      · subst hq
        simpa [hclient, MtClientPc.unread] using hwire
      · simpa [Function.update_of_ne hq] using hwire
    · rw [hsent, hpushed, ofQueue_concat]
      by_cases hq : q' = q
      · subst hq
        simp [hclient, MtClientPc.held]
      · have hne : q.val ≠ q'.val := fun heq => hq (Fin.ext heq.symm)
        simp [Function.update_of_ne hq, hne]
  · cases h

theorem DeliverInv.step (hrate : ∀ q, RateFits v (vecs q)) (hclock : ∀ q, ClockFits v (starts q))
    (hs : DeliverInv v vecs starts s) (hok : NormalClock s l)
    (h : deliverStep v vecs s l = some s') : DeliverInv v vecs starts s' := by
  cases l with
  | emit q now => exact hs.emit (hrate q) (hclock q) hok h
  | recv q => exact hs.recv h
  | push q => exact hs.push h
  | recvStr =>
      obtain ⟨receiver, hstep, rfl⟩ := Option.map_eq_some_iff.mp h
      obtain ⟨hreceiver, hpushed⟩ := hs.receiver.recvStr hstep
      exact ⟨hs.senders, fun q => by rw [hpushed]; exact hs.wires q, hreceiver⟩
  | attempt =>
      obtain ⟨receiver, hstep, rfl⟩ := Option.map_eq_some_iff.mp h
      obtain ⟨hreceiver, hpushed⟩ := hs.receiver.attempt hstep
      exact ⟨hs.senders, fun q => by rw [hpushed]; exact hs.wires q, hreceiver⟩

end Delivery

/-! ## loaded and delivered -/

/-- The sender has been initialised for the tuples `xs`, `R` for each of `T`
threads. -/
structure Preloads (v : EmitVars) (nrThreads : Int64) (R T : Nat) (xs : List TupleBytes) : Prop where
  threads : nrThreads.toInt = T
  pos : 1 ≤ T
  rate : 1000 < v.perSecThroughput.toInt
  small : v.perSecThroughput.toInt < 1000 * 2 ^ 31
  duration : 1 ≤ v.emitDur.toInt
  size : v.perSecThroughput.toInt * v.emitDur.toInt = R
  fits : R * T ≤ 2 ^ 63
  length : xs.length = R * T

/-- What has become of the tuples of a thread, read as C strings. -/
structure Delivered {T : Nat} (R : Nat) (xs : List TupleBytes) (s : Delivery T) (q : Fin T) :
    Prop where
  sent : (s.senders q).sent <+: piece R xs q
  kept : ∃ tuples, s.wires q = (s.clients q).unread ++ tuples ∧
    (s.senders q).sent.map cStr =
      (ofQueue 0 q s.receiver.returned ++ s.receiver.queue 0 q ++ (s.clients q).held).map cStr ++
        tuples.map cStr
  returned : (ofQueue 0 q s.receiver.returned).map cStr <+: (piece R xs q).map cStr

theorem cStr_copyOf (msg : TupleBytes) : cStr (copyOf msg) = cStr msg := by
  have hle : (cStr msg).length ≤ msg.length := (List.takeWhile_prefix _).length_le
  unfold copyOf
  rw [List.take_append, List.take_of_length_le hle, List.append_assoc,
    cStr_append_of_not_mem (zero_not_mem_cStr msg)]
  have hzeros : cStr ((List.replicate msg.length 0).take (msg.length - (cStr msg).length) ++ [0]) =
      [] := by
    rw [List.take_replicate, ← List.replicate_succ', List.replicate_succ]
    simp [cStr]
  rw [hzeros, List.append_nil]

section Delivered

variable {v : EmitVars} {tupIdxOffset nrThreads : Int64} {R T : Nat} {xs : List TupleBytes}
  {vars : SvVars} {vecs : Fin T → List TupleBytes}

theorem Preloads.piece_eq (h : Preloads v nrThreads R T xs)
    (hload : loadTuples (initDGSender v.emitDur tupIdxOffset v.perSecThroughput nrThreads) xs =
      some vars) (hvecs : ∀ q : Fin T, vars.barrays[q.val]? = some (vecs q)) (q : Fin T) :
    vecs q = piece R xs q := by
  have hpos := h.pos
  have hthreads := h.threads
  have hR : (v.perSecThroughput * v.emitDur).toUInt64.toNat = R := by
    have hle : R ≤ 2 ^ 63 := (Nat.le_mul_of_pos_right R hpos).trans h.fits
    have hnat := toNat_toUInt64 (v.perSecThroughput * v.emitDur)
    rw [Int64.toInt_mul, h.size] at hnat
    obtain ⟨k, hk⟩ := exists_bmod_eq (R : Int)
    omega
  obtain ⟨hfits, hinit⟩ := loadInv_init
    (show initDGSender v.emitDur tupIdxOffset v.perSecThroughput nrThreads = _ from rfl)
    (by omega) hR (show nrThreads.toInt.toNat = T by omega) h.fits
  obtain ⟨vars', hload', hinv⟩ := hinit.run hfits xs
  obtain rfl : vars' = vars := Option.some.inj (hload'.symm.trans hload)
  have hget := hvecs q
  rw [hinv.barrays, getElem?_pieces q.isLt] at hget
  exact (Option.some.inj hget).symm

theorem Preloads.rateFits (h : Preloads v nrThreads R T xs)
    (hvecs : ∀ q : Fin T, vecs q = piece R xs q) (q : Fin T) : RateFits v (vecs q) := by
  refine ⟨h.rate, h.small, h.duration, ?_⟩
  have hlt : q.val + 1 ≤ T := q.isLt
  have hle : (q.val + 1) * R ≤ R * T := by
    rw [Nat.mul_comm]
    exact Nat.mul_le_mul_left R hlt
  rw [Nat.succ_mul] at hle
  have hlength : (piece R xs q).length = R := by
    rw [piece, List.length_take, List.length_drop, h.length]
    omega
  rw [hvecs, hlength, h.size]

/-- **Delivery**: in every interleaving of the threads, and however they read
the clock, `recvStr` returns from each queue the tuples that were loaded for
its thread, in their order and none of them twice, and those that it has not
returned are still on their way. -/
theorem delivered {starts : Fin T → Timespec} {senders : Fin T → EmitThread TupleBytes}
    {s : Delivery T} (h : Preloads v nrThreads R T xs)
    (hload : loadTuples (initDGSender v.emitDur tupIdxOffset v.perSecThroughput nrThreads) xs =
      some vars)
    (hvecs : ∀ q : Fin T, vars.barrays[q.val]? = some (vecs q))
    (hclock : ∀ q, ClockFits v (starts q))
    (hstart : ∀ q, mtEmitScheduler v (vecs q) (starts q) = some (senders q))
    (hr : Reach (deliverStep v vecs) (.init senders) NormalClock s) (q : Fin T) :
    Delivered R xs s q := by
  have hpiece := h.piece_eq hload hvecs
  have hrate := h.rateFits hpiece
  have hinv : DeliverInv v vecs starts s :=
    hr.invariant (deliverInv_init h.pos hrate hclock hstart) fun _ _ _ hs hok hstep =>
      hs.step hrate hclock hok hstep
  have hsent : (s.senders q).sent <+: piece R xs q := by
    rw [← hpiece]
    exact (hinv.senders q).sent_prefixed (hrate q)
  obtain ⟨tuples, hwire, hcopies⟩ := hinv.wires q
  have hkept : (s.senders q).sent.map cStr =
      (ofQueue 0 q s.receiver.returned ++ s.receiver.queue 0 q ++ (s.clients q).held).map cStr ++
        tuples.map cStr := by
    have hmap := congrArg (List.map cStr) hcopies
    have hcopy : cStr ∘ copyOf = cStr := funext cStr_copyOf
    rw [List.map_map, hcopy, hinv.receiver.inv.fifo, List.map_append, List.map_map, hcopy] at hmap
    exact hmap
  refine ⟨hsent, ⟨tuples, hwire, hkept⟩, ?_⟩
  refine List.IsPrefix.trans ?_ (hsent.map cStr)
  rw [hkept, List.map_append, List.map_append, List.append_assoc, List.append_assoc]
  exact List.prefix_append ..

end Delivered

/-! ## tuples with a NUL in the middle -/

namespace CutTuples

def tuples : List TupleBytes := List.replicate 1500 [65, 0, 66]

/-- After the first emission. -/
def sender : EmitThread TupleBytes where
  pc := .poll 0
  iter := 1
  curTime := Steady.millis 0
  emitEnd := Steady.nanos 664766
  budgetEnd := Steady.millis 0
  tsEnd := Steady.millis 1000
  sent := [[65, 0, 66]]

theorem mtEmitScheduler_tuples : mtEmitScheduler (varsAt 1500) tuples (Steady.millis 0) =
    some sender := by
  decide +kernel

theorem preloads_tuples : Preloads (varsAt 1500) 1 1500 1 tuples where
  threads := by decide
  pos := by decide
  rate := by decide
  small := by decide
  duration := by decide
  size := by decide
  fits := by decide
  length := List.length_replicate

end CutTuples

/-- Of a tuple the part in front of its NUL is returned. -/
theorem delivered_rate1500 : ∃ s : Delivery 1, Delivered 1500 CutTuples.tuples s 0 ∧
    (ofQueue 0 0 s.receiver.returned).map cStr = [[65]] := by
  obtain ⟨hfits, hinit⟩ := loadInv_init (R := 1500) (T := 1)
    (show initDGSender 1 0 1500 1 = _ from rfl) (by decide) (by decide) (by decide) (by decide)
  obtain ⟨vars, hload, hinv⟩ := hinit.run hfits CutTuples.tuples
  have hvecs : ∀ q : Fin 1, vars.barrays[q.val]? = some CutTuples.tuples := fun q => by
    obtain rfl := Subsingleton.elim q 0
    rw [hinv.barrays]
    exact (getElem?_pieces (by decide)).trans
      (congrArg some (List.take_of_length_le List.length_replicate.le))
  obtain ⟨s, hr, hs⟩ : ∃ s, Reach (deliverStep (varsAt 1500) fun _ : Fin 1 => CutTuples.tuples)
      (.init fun _ => CutTuples.sender) NormalClock s ∧
      decide ((ofQueue 0 0 s.receiver.returned).map cStr = [[65]]) = true :=
    Reach.of_exec_any [.recv 0, .recv 0, .push 0, .recvStr, .attempt] _ (by decide)
  have hclock : ∀ _ : Fin 1, ClockFits (varsAt 1500) (Steady.millis 0) := fun _ =>
    ⟨by decide, by decide, by decide, by decide⟩
  exact ⟨s, delivered CutTuples.preloads_tuples hload hvecs hclock
    (fun _ => CutTuples.mtEmitScheduler_tuples) hr 0, of_decide_eq_true hs⟩

end CloudProfiler
