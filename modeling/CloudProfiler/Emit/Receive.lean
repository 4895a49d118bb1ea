import CloudProfiler.Rotation
import CloudProfiler.Run
import Mathlib.Logic.Function.Basic

/-!
# CloudProfiler.Emit.Receive

Receiving from TCP channels (`mt_recvStr` of `cpp_emit/emit.cpp`).  A channel
has a queue for each of its threads, which pushes the strings it receives;
`recvStr` goes round the queues until it can pop one.  The position is a
static variable, which all channels share: after a call on a wide channel it
may be outside a narrower one.

The steps are those of the one thread that calls `recvStr`, an access to a
queue each, and the pushes of the other threads between them.

* `RecvInv` — the position is inside the channel, and the queues hold what was
  pushed and not returned;
* `RecvLater` — what the attempts of a call have seen;
* `receive_safe` — receiving is safe when the position is inside the channel
  at every call.
-/

namespace CloudProfiler

/-- `QUEUE_SIZE`. -/
def spscQueueSize : Nat := 500 * 1000

/-- Where the receiving thread is. -/
inductive RecvPc
  | ready
  /-- in a loop of `mt_recvStr` on the channel -/
  | polling (ch : Nat)
  deriving DecidableEq

/-- The TCP channels, and what has been done with them. -/
structure Receiver (α : Type) where
  /-- For each channel the size of `queues`; a null pointer for a server. -/
  channels : List (Option Nat)
  queue : Nat → Nat → List α
  /-- The static variable of `mt_recvStr`. -/
  i : Nat
  pc : RecvPc
  fault : Bool
  attempts : Nat
  /-- By channel and queue. -/
  pushed : List (Nat × Nat × α)
  returned : List (Nat × Nat × α)

inductive RecvLabel (α : Type)
  | openTCPChannel (isServer : Bool) (addresses : List String) (nrThreads : Nat)
  | openSelfFeedChannel (nrThreads : Nat)
  /-- A thread pushes a string. -/
  | push (ch q : Nat) (str : α)
  | recvStr (ch : Nat)
  /-- The receiving thread tries the next queue. -/
  | attempt

namespace Receiver

variable {α : Type}

def init : Receiver α where
  channels := []
  queue _ _ := []
  i := 0
  pc := .ready
  fault := false
  attempts := 0
  pushed := []
  returned := []

variable (s : Receiver α)

/-- The number of queues of an open channel. -/
def nrQueues (ch : Nat) : Option Nat := s.channels[ch]?.join

/-- The queue that is tried next, of `n`. -/
def position (n : Nat) : Nat := if n = 1 then 0 else s.i

def setQueue (ch q : Nat) (l : List α) : Nat → Nat → List α :=
  Function.update s.queue ch (Function.update (s.queue ch) q l)

/-- The static variable after an attempt, in the branches of `mt_recvStr`. -/
def advance (n i : Nat) : Nat :=
  if n = 1 then i
  else if n = 2 then (if i = 0 then 1 else 0)
  else if i + 1 = n then 0 else i + 1

/-- An attempt on the queue at the position. -/
def attempt (ch n : Nat) : Receiver α :=
  let s' := { s with attempts := s.attempts + 1, i := advance n s.i }
  if s.position n < n then
    match s.queue ch (s.position n) with
    | [] => s'
    | str :: rest =>
        { s' with
          queue := s.setQueue ch (s.position n) rest
          pc := .ready
          returned := s.returned ++ [(ch, s.position n, str)] }
  else { s with fault := true }

end Receiver

section Receive

variable {α : Type}

/-- A step of the receiving thread, or of another one.  A channel that is not
a server needs an address for each thread. -/
def recvStep (s : Receiver α) (l : RecvLabel α) : Option (Receiver α) :=
  if s.fault then none
  else
    match l with
    | .openTCPChannel isServer addresses nrThreads =>
        if isServer then some { s with channels := s.channels ++ [none] }
        else if nrThreads ≤ addresses.length then
          some { s with channels := s.channels ++ [some nrThreads] }
        else none
    | .openSelfFeedChannel nrThreads => some { s with channels := s.channels ++ [some nrThreads] }
    | .push ch q str =>
        (s.nrQueues ch).bind fun n =>
          if q < n ∧ (s.queue ch q).length < spscQueueSize then
            some { s with
              queue := s.setQueue ch q (s.queue ch q ++ [str])
              pushed := s.pushed ++ [(ch, q, str)] }
          else none
    | .recvStr ch =>
        if s.pc = .ready then
          s.channels[ch]?.map fun queues =>
            match queues with
            | none => { s with fault := true }
            | some n => if n = 0 then s else { s with pc := .polling ch }
        else none
    | .attempt =>
        match s.pc with
        | .ready => none
        | .polling ch => (s.nrQueues ch).map fun n => s.attempt ch n

/-- The channels are opened with at least one thread. -/
def WithThreads (_ : Receiver α) : RecvLabel α → Prop
  | .openTCPChannel _ _ nrThreads => 1 ≤ nrThreads
  | .openSelfFeedChannel nrThreads => 1 ≤ nrThreads
  | _ => True

/-- And `recvStr` is called on channels with queues, one of which is at the
position. -/
def InRange (s : Receiver α) : RecvLabel α → Prop
  | .recvStr ch => ∃ n ∈ s.nrQueues ch, s.position n < n
  | l => WithThreads s l

instance : DecidableRel (WithThreads : Receiver α → RecvLabel α → Prop) := fun _ l =>
  match l with
  | .openTCPChannel _ _ nrThreads => inferInstanceAs (Decidable (1 ≤ nrThreads))
  | .openSelfFeedChannel nrThreads => inferInstanceAs (Decidable (1 ≤ nrThreads))
  | .push _ _ _ => .isTrue trivial
  | .recvStr _ => .isTrue trivial
  | .attempt => .isTrue trivial

instance : DecidableRel (InRange : Receiver α → RecvLabel α → Prop) := fun s l =>
  match l with
  | .openTCPChannel _ _ nrThreads => inferInstanceAs (Decidable (1 ≤ nrThreads))
  | .openSelfFeedChannel nrThreads => inferInstanceAs (Decidable (1 ≤ nrThreads))
  | .push _ _ _ => .isTrue trivial
  | .recvStr ch => inferInstanceAs (Decidable (∃ n ∈ s.nrQueues ch, s.position n < n))
  | .attempt => .isTrue trivial

/-- The strings of a queue. -/
def ofQueue (ch q : Nat) (log : List (Nat × Nat × α)) : List α :=
  log.filterMap fun e => if e.1 = ch ∧ e.2.1 = q then some e.2.2 else none

structure RecvInv (s : Receiver α) : Prop where
  fault : s.fault = false
  opened : ∀ ch n, s.nrQueues ch = some n → 1 ≤ n
  polling : ∀ ch, s.pc = .polling ch → ∃ n, s.nrQueues ch = some n ∧ s.position n < n
  fifo : ∀ ch q, ofQueue ch q s.pushed = ofQueue ch q s.returned ++ s.queue ch q

end Receive

section Receive

variable {α : Type} {s s' : Receiver α} {l : RecvLabel α} {ch q n : Nat} {str : α}

theorem ofQueue_concat (log : List (Nat × Nat × α)) (ch' q' : Nat) :
    ofQueue ch' q' (log ++ [(ch, q, str)]) =
      ofQueue ch' q' log ++ if ch = ch' ∧ q = q' then [str] else [] := by
  unfold ofQueue
  rw [List.filterMap_append]
  by_cases h : ch = ch' ∧ q = q'
  · simp [h]
  · simp [h]

theorem setQueue_apply (l : List α) (ch' q' : Nat) :
    s.setQueue ch q l ch' q' = if ch = ch' ∧ q = q' then l else s.queue ch' q' := by
  unfold Receiver.setQueue
  by_cases hch : ch = ch'
  · subst hch
    by_cases hq : q = q'
    · subst hq
      simp
    · simp [hq, Function.update_of_ne (Ne.symm hq)]
  · simp [hch, Function.update_of_ne (Ne.symm hch)]

/-- The three branches go round the queues. -/
theorem position_advance (h : s.position n < n) :
    (if n = 1 then 0 else Receiver.advance n s.i) = Rotation.next n (s.position n) := by
  unfold Receiver.position at *
  unfold Receiver.advance Rotation.next
  by_cases h1 : n = 1
  · simp [h1]
  · by_cases h2 : n = 2
    · subst h2
      simp only [h1, if_false] at h
      simp only [h1, if_false, if_true]
      split <;> split <;> omega
    · simp [h1, h2]

/-! ## the steps -/

/-- What a step does in a run that meets the condition. -/
inductive RecvMove (s : Receiver α) : Receiver α → Prop
  | opens (c : Option Nat) (hc : ∀ n, c = some n → 1 ≤ n) :
      RecvMove s { s with channels := s.channels ++ [c] }
  | pushes (ch q n : Nat) (str : α) (hn : s.nrQueues ch = some n) :
      RecvMove s { s with
        queue := s.setQueue ch q (s.queue ch q ++ [str])
        pushed := s.pushed ++ [(ch, q, str)] }
  | calls (ch n : Nat) (hpc : s.pc = .ready) (hn : s.nrQueues ch = some n)
      (hpos : s.position n < n) : RecvMove s { s with pc := .polling ch }
  | attempts (ch n : Nat) (hpc : s.pc = .polling ch) (hn : s.nrQueues ch = some n) :
      RecvMove s (s.attempt ch n)

theorem recvStep_move (hok : InRange s l) (h : recvStep s l = some s') : RecvMove s s' := by
  unfold recvStep at h
  split at h
  · cases h
  · cases l with
    | openTCPChannel isServer addresses nrThreads =>
        dsimp only at h
        split at h
        · obtain rfl := Option.some.inj h
          exact .opens none nofun
        · split at h
          · obtain rfl := Option.some.inj h
            exact .opens _ fun n hn => Option.some.inj hn ▸ hok
          · cases h
    | openSelfFeedChannel nrThreads =>
        obtain rfl := Option.some.inj h
        exact .opens _ fun n hn => Option.some.inj hn ▸ hok
    | push ch q str =>
        obtain ⟨n, hn, h⟩ := Option.bind_eq_some_iff.mp h
        split at h
        · obtain rfl := Option.some.inj h
          exact .pushes ch q n str hn
        · cases h
    | recvStr ch =>
        obtain ⟨n, hn, hpos⟩ := hok
        have hch : s.channels[ch]? = some (some n) := Option.join_eq_some_iff.mp hn
        dsimp only at h
        split at h
        · next hpc =>
          rw [hch, Option.map_some] at h
          dsimp only at h
          rw [if_neg (by omega)] at h
          obtain rfl := Option.some.inj h
          exact .calls ch n hpc hn hpos
        · cases h
    | attempt =>
        dsimp only at h
        split at h
        · cases h
        · next ch hpc =>
          obtain ⟨n, hn, rfl⟩ := Option.map_eq_some_iff.mp h
          exact .attempts ch n hpc hn

/-- A channel stays open. -/
theorem nrQueues_opens (c : Option Nat) (h : s.nrQueues ch = some n) :
    ({ s with channels := s.channels ++ [c] } : Receiver α).nrQueues ch = some n := by
  have hch : s.channels[ch]? = some (some n) := Option.join_eq_some_iff.mp h
  obtain ⟨hlt, -⟩ := List.getElem?_eq_some_iff.mp hch
  rw [Receiver.nrQueues, List.getElem?_append_left hlt]
  exact h

theorem recvStep_attempt (hfault : s.fault = false) (hpc : s.pc = .polling ch)
    (hn : s.nrQueues ch = some n) : recvStep s .attempt = some (s.attempt ch n) := by
  simp [recvStep, hfault, hpc, hn]

/-- An attempt outside the channel. -/
theorem attempt_fault (hpos : ¬ s.position n < n) : s.attempt ch n = { s with fault := true } :=
  if_neg hpos

/-- An attempt on an empty queue. -/
theorem attempt_nil (hpos : s.position n < n) (h : s.queue ch (s.position n) = []) :
    s.attempt ch n =
      { s with attempts := s.attempts + 1, i := Receiver.advance n s.i } := by
  simp only [Receiver.attempt, if_pos hpos, h]

/-- An attempt that pops a string. -/
theorem attempt_cons {rest : List α} (hpos : s.position n < n)
    (h : s.queue ch (s.position n) = str :: rest) :
    s.attempt ch n =
      { s with
        attempts := s.attempts + 1
        i := Receiver.advance n s.i
        queue := s.setQueue ch (s.position n) rest
        pc := .ready
        returned := s.returned ++ [(ch, s.position n, str)] } := by
  simp only [Receiver.attempt, if_pos hpos, h]

theorem recvInv_init : RecvInv (Receiver.init : Receiver α) where
  fault := rfl
  opened _ _ h := by cases h
  polling _ h := by cases h
  fifo _ _ := rfl

theorem RecvInv.move (hs : RecvInv s) (h : RecvMove s s') : RecvInv s' := by
  obtain ⟨hfault, hopened, hpolling, hfifo⟩ := hs
  cases h with
  | opens c hc =>
      refine ⟨hfault, fun ch n hn => ?_, fun ch hpc => ?_, hfifo⟩
      · have hjoin : (s.channels ++ [c])[ch]? = some (some n) := Option.join_eq_some_iff.mp hn
        rw [List.getElem?_append] at hjoin
        split at hjoin
        · exact hopened ch n (Option.join_eq_some_iff.mpr hjoin)
        · have hmem := List.mem_of_getElem? hjoin
          exact hc n (List.mem_singleton.mp hmem).symm
      · obtain ⟨n, hn, hpos⟩ := hpolling ch hpc
        exact ⟨n, nrQueues_opens c hn, hpos⟩
  | pushes ch q n str hn =>
      refine ⟨hfault, hopened, hpolling, fun ch' q' => ?_⟩
      dsimp only
      rw [ofQueue_concat, setQueue_apply, hfifo ch' q']
      by_cases heq : ch = ch' ∧ q = q'
      · obtain ⟨rfl, rfl⟩ := heq
        simp
      · simp [heq]
  | calls ch n hpc hn hpos =>
      refine ⟨hfault, hopened, fun ch' hpc' => ?_, hfifo⟩
      cases hpc'
      exact ⟨n, hn, hpos⟩
  | attempts ch n hpc hn =>
      obtain ⟨m, hm, hpos⟩ := hpolling ch hpc
      obtain rfl : n = m := Option.some.inj (hn.symm.trans hm)
      cases hqueue : s.queue ch (s.position n) with
      | nil =>
          rw [attempt_nil hpos hqueue]
          refine ⟨hfault, hopened, fun ch' hpc' => ?_, hfifo⟩
          obtain rfl : ch = ch' := RecvPc.polling.inj (hpc.symm.trans hpc')
          refine ⟨n, hn, ?_⟩
          show (if n = 1 then 0 else Receiver.advance n s.i) < n
          rw [position_advance hpos]
          exact Rotation.next_lt hpos
      | cons str rest =>
          rw [attempt_cons hpos hqueue]
          refine ⟨hfault, hopened, nofun, fun ch' q' => ?_⟩
          dsimp only
          rw [ofQueue_concat, setQueue_apply, hfifo ch' q']
          by_cases heq : ch = ch' ∧ s.position n = q'
          · obtain ⟨rfl, rfl⟩ := heq
            simp [hqueue]
          · simp [heq]

theorem receive_inv (h : Reach recvStep Receiver.init InRange s) : RecvInv s :=
  h.invariant recvInv_init fun _ _ _ hs hok hstep => hs.move (recvStep_move hok hstep)

/-! ## one call -/

/-- From `s` in a call on `ch` to `s'`: until the call returns, its attempts
have gone round the queues, and those they tried were empty. -/
structure RecvLater (ch n : Nat) (s s' : Receiver α) : Prop where
  returned_le : s.returned.length ≤ s'.returned.length
  width : s'.nrQueues ch = some n
  call : s'.returned.length = s.returned.length → s'.pc = .polling ch ∧
    ∃ k, s'.attempts = s.attempts + k ∧
      s'.position n = (Rotation.next n)^[k] (s.position n) ∧
      ∀ j < k, s.queue ch ((Rotation.next n)^[j] (s.position n)) = []
  queue : s'.returned.length = s.returned.length → ∀ q, s.queue ch q <+: s'.queue ch q

theorem RecvLater.refl (hpc : s.pc = .polling ch) (hn : s.nrQueues ch = some n) :
    RecvLater ch n s s where
  returned_le := Nat.le_refl _
  width := hn
  call _ := ⟨hpc, 0, rfl, rfl, fun _ hj => absurd hj (Nat.not_lt_zero _)⟩
  queue _ _ := List.prefix_refl _

theorem RecvLater.move {u : Receiver α} (hs : RecvInv s') (h : RecvLater ch n s s')
    (hmove : RecvMove s' u) : RecvLater ch n s u := by
  obtain ⟨hle, hwidth, hcall, hqueue⟩ := h
  cases hmove with
  | opens c _ => exact ⟨hle, nrQueues_opens c hwidth, hcall, hqueue⟩
  | pushes ch' q' m str _ =>
      refine ⟨hle, hwidth, hcall, fun hsame q => (hqueue hsame q).trans ?_⟩
      dsimp only
      rw [setQueue_apply]
      split
      · next heq =>
        rw [heq.1, heq.2]
        exact List.prefix_append ..
      · exact List.prefix_refl _
  | calls ch' m hpc _ _ =>
      refine ⟨hle, hwidth, fun hsame => ?_, hqueue⟩
      have hpolling := (hcall hsame).1
      rw [hpc] at hpolling
      cases hpolling
  | attempts ch' m hpc hm =>
      obtain ⟨m', hm', hpos⟩ := hs.polling ch' hpc
      obtain rfl : m = m' := Option.some.inj (hm.symm.trans hm')
      cases hfound : s'.queue ch' (s'.position m) with
      | cons str rest =>
          rw [attempt_cons hpos hfound]
          have hmore : s.returned.length <
              (s'.returned ++ [(ch', s'.position m, str)]).length := by
            rw [List.length_append, List.length_singleton]
            omega
          exact ⟨hmore.le, hwidth, fun hsame => absurd hsame hmore.ne',
            fun hsame => absurd hsame hmore.ne'⟩
      | nil =>
          rw [attempt_nil hpos hfound]
          refine ⟨hle, hwidth, fun hsame => ?_, hqueue⟩
          obtain ⟨hpolling, k, hattempts, hposition, htried⟩ := hcall hsame
          obtain rfl : ch' = ch := RecvPc.polling.inj (hpc.symm.trans hpolling)
          obtain rfl : m = n := Option.some.inj (hm.symm.trans hwidth)
          refine ⟨hpc, k + 1, by rw [hattempts]; rfl, ?_, fun j hj => ?_⟩
          · rw [Function.iterate_succ_apply', ← hposition]
            exact position_advance hpos
          · obtain hlt | rfl := Nat.lt_succ_iff_lt_or_eq.mp hj
            · exact htried j hlt
            · have hprefix := hqueue hsame (s'.position m)
              rw [hfound, List.prefix_nil, hposition] at hprefix
              exact hprefix

/-- A call that does not meet the condition goes wrong at once. -/
theorem fault_of_not_inRange (hs : RecvInv s) (hpc : s.pc = .ready) (hch : ch < s.channels.length)
    (hnot : ¬ InRange s (.recvStr ch)) :
    ∃ s₁, recvStep s (.recvStr ch) = some s₁ ∧
      (s₁.fault = true ∨ ∃ s₂, recvStep s₁ .attempt = some s₂ ∧ s₂.fault = true) := by
  cases hqueues : s.channels[ch] with
  | none =>
      exact ⟨{ s with fault := true }, by simp [recvStep, hs.fault, hpc, hch, hqueues], .inl rfl⟩
  | some n =>
      have hn : s.nrQueues ch = some n := by simp [Receiver.nrQueues, hch, hqueues]
      have hpos : ¬ s.position n < n := fun hpos => hnot ⟨n, hn, hpos⟩
      have hne : n ≠ 0 := by
        have hle := hs.opened ch n hn
        omega
      let s₁ : Receiver α := { s with pc := .polling ch }
      have hcall : recvStep s (.recvStr ch) = some s₁ := by
        simp [recvStep, hs.fault, hpc, hch, hqueues, hne, s₁]
      have hattempt : recvStep s₁ .attempt = some (s₁.attempt ch n) :=
        recvStep_attempt hs.fault rfl hn
      refine ⟨s₁, hcall, .inr ⟨_, hattempt, ?_⟩⟩
      rw [attempt_fault (s := s₁) hpos]

theorem recvLater_of_reach (hs : RecvInv s) (hpc : s.pc = .polling ch) (hn : s.nrQueues ch = some n)
    (h : Reach recvStep s InRange s') : RecvLater ch n s s' :=
  (h.invariant (I := fun s' => RecvInv s' ∧ RecvLater ch n s s') ⟨hs, .refl hpc hn⟩
    fun _ _ _ ih hok hstep =>
      have hmove := recvStep_move hok hstep
      ⟨ih.1.move hmove, ih.2.move ih.1 hmove⟩).2

end Receive

/-- What receiving from the channels is to be. -/
structure ReceiveSafe {α : Type} (s : Receiver α) : Prop where
  fault : s.fault = false
  /-- The queue that is tried is one of the channel's. -/
  index : ∀ ch, s.pc = .polling ch → ∃ n, s.nrQueues ch = some n ∧ s.position n < n
  /-- A call returns the head of a queue of its channel. -/
  head : ∀ ch s', s.pc = .polling ch → recvStep s .attempt = some s' → s'.pc = .ready →
    ∃ n str rest, s.nrQueues ch = some n ∧ s.position n < n ∧
      s.queue ch (s.position n) = str :: rest ∧
      s'.returned = s.returned ++ [(ch, s.position n, str)]
  /-- The strings of a queue are returned in order; none is lost. -/
  fifo : ∀ ch q, ofQueue ch q s.pushed = ofQueue ch q s.returned ++ s.queue ch q
  /-- Unless the call returns before, it comes to each queue within one
  rotation, and returns there if the queue is not empty. -/
  rotation : ∀ ch n q, s.pc = .polling ch → s.nrQueues ch = some n → q < n →
    ∃ k < n, ∀ s', Reach recvStep s InRange s' → s'.returned.length = s.returned.length →
      (s'.attempts = s.attempts + k → s'.position n = q) ∧
        (s.queue ch q ≠ [] → s'.attempts ≤ s.attempts + k)

/-- **Receiving** is safe in every state of every run in which each call finds
the shared position inside its channel. -/
theorem receive_safe {α : Type} (s : Receiver α) (h : Reach recvStep Receiver.init InRange s) :
    ReceiveSafe s := by
  have hs := receive_inv h
  refine ⟨hs.fault, hs.polling, fun ch s' hpc hstep hready => ?_, hs.fifo,
    fun ch n q hpc hn hq => ?_⟩
  · obtain ⟨n, hn, hpos⟩ := hs.polling ch hpc
    have hattempt : s' = s.attempt ch n :=
      Option.some.inj (hstep.symm.trans (recvStep_attempt hs.fault hpc hn))
    cases hqueue : s.queue ch (s.position n) with
    | nil =>
        rw [hattempt, attempt_nil hpos hqueue] at hready
        cases hpc.symm.trans hready
    | cons str rest =>
        refine ⟨n, str, rest, hn, hpos, hqueue, ?_⟩
        rw [hattempt, attempt_cons hpos hqueue]
  · obtain ⟨m, hm, hpos⟩ := hs.polling ch hpc
    obtain rfl : n = m := Option.some.inj (hn.symm.trans hm)
    obtain ⟨k, hk, hiter⟩ := Rotation.exists_iterate_next hpos hq
    refine ⟨k, hk, fun s' h' hsame => ?_⟩
    obtain ⟨-, j, hattempts, hposition, htried⟩ := (recvLater_of_reach hs hpc hn h').call hsame
    constructor
    · intro heq
      obtain rfl : j = k := by omega
      rw [hposition, hiter]
    · intro hne
      by_contra hmore
      exact hne (hiter ▸ htried k (by omega))

/-- Calls on channels of three and of two queues. -/
theorem receive_safe_two_channels :
    ∃ s : Receiver Nat, Reach recvStep Receiver.init InRange s ∧ ReceiveSafe s ∧
      s.returned = [(0, 0, 7), (1, 1, 8)] := by
  have hrun : (exec recvStep InRange (Receiver.init : Receiver Nat)
      [.openSelfFeedChannel 3, .openTCPChannel false ["a", "b"] 2, .push 0 0 7, .recvStr 0, .attempt,
        .recvStr 1, .push 1 1 8, .attempt]).any
          (fun s => s.returned = [(0, 0, 7), (1, 1, 8)]) = true := by
    decide
  obtain ⟨s, hs, hreturned⟩ := Reach.of_exec_any _ _ hrun
  exact ⟨s, hs, receive_safe s hs, by simpa using hreturned⟩

/-- After two calls on a channel of three queues, a call on one of two uses its
third queue. -/
theorem receive_out_of_range :
    ∃ s s' : Receiver Nat, Reach recvStep Receiver.init WithThreads s ∧ s.pc = .polling 1 ∧
      s.nrQueues 1 = some 2 ∧ s.position 2 = 2 ∧ recvStep s .attempt = some s' ∧
      s'.fault = true := by
  have hrun : (exec recvStep WithThreads (Receiver.init : Receiver Nat)
      [.openSelfFeedChannel 3, .openSelfFeedChannel 2, .push 0 0 7, .push 0 1 8, .recvStr 0,
        .attempt, .recvStr 0, .attempt, .recvStr 1]).any
          (fun s => s.fault = false ∧ s.pc = .polling 1 ∧ s.nrQueues 1 = some 2 ∧
            s.position 2 = 2) = true := by
    decide
  obtain ⟨s, hs, hpc⟩ := Reach.of_exec_any _ _ hrun
  obtain ⟨hfault, hpc, hn, hpos⟩ := of_decide_eq_true hpc
  refine ⟨s, _, hs, hpc, hn, hpos, recvStep_attempt hfault hpc hn, ?_⟩
  rw [attempt_fault (by omega)]

end CloudProfiler
