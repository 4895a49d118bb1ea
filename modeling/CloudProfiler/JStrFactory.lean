import Mathlib.Data.List.Chain
import CloudProfiler.JObjFactory

/-!
# CloudProfiler.JStrFactory

The bucket threads of `JStrFactory.java`.  They too hand arrays of tuples to
a consumer, but nothing is given back: a thread cycles through
`QUEUE_SIZE + 1` buckets and relies on the capacity of `values_q` to not
come round to a bucket that is still read.

`ZMQValBucketThread` and `ZVBucketOptThread` send the number of tuples
through a second queue and are read by `fetchVBucket` and `fetchVBucketNB`;
`ZMQValBkt1QThread` sends the buckets only and is read by `fetchV1QBucket`.
A queue holds exactly `QUEUE_SIZE` elements.

* `Cycle` — the buckets under way are consecutive ones;
* `JStrFactory.held_bucket_stable_iff` — the bucket in use is overwritten
  exactly when its thread goes on while a full queue is waiting.
-/

namespace CloudProfiler

/-- The threads that hand out buckets. -/
inductive BucketThread
  | zmqValBucket | zvBucketOpt | zmqValBkt1Q
  deriving DecidableEq, Repr

/-- Whether the thread sends the number of tuples. -/
def BucketThread.hasLengthQ : BucketThread → Bool
  | .zmqValBucket | .zvBucketOpt => true
  | .zmqValBkt1Q => false

/-- Where `run` is; the bucket of the iteration is the one at `arr_idx`. -/
inductive CyclePc
  /-- in the native fetch -/
  | fetch
  | fill (nrFilled : Int32) (bIdx : Nat)
  | offerLength (nrFilled : Int32)
  | offerValues
  /-- ended by an exception -/
  | dead
  deriving DecidableEq, Repr

/-- A socket: its queues and its thread. -/
structure StrSocket where
  valuesQ : List Bucket
  lengthQ : List Int32
  arrIdx : Nat
  pc : CyclePc
  deriving DecidableEq, Repr

/-- The calls of the consumer. -/
inductive FetchCall
  | fetchVBucket | fetchVBucketNB | fetchV1QBucket
  deriving DecidableEq, Repr

/-- The call can be used with the thread. -/
def FetchCall.reads : FetchCall → BucketThread → Bool
  | .fetchVBucket, thr | .fetchVBucketNB, thr => thr.hasLengthQ
  | .fetchV1QBucket, thr => !thr.hasLengthQ

/-- Where the consumer is. -/
inductive FetchPc
  /-- between two calls -/
  | idle
  | pollLength (call : FetchCall)
  | pollValues (nrFilled : Int32)
  | poll1Q
  /-- has taken a bucket and is about to return it -/
  | ret (vBucket : Bucket) (nrFilled : Option Int32)
  deriving DecidableEq, Repr

/-- The factory.  `inUse` is the bucket the consumer was handed last, and
`nrFilled` the number of tuples that came with it. -/
structure JStrFactory (V : Type) where
  sock : Nat → StrSocket
  mem : Bucket → Nat → Option V
  queueIdx : Nat
  pc : FetchPc
  inUse : Option Bucket
  nrFilled : Option Int32

namespace JStrFactory

section Model

variable {V : Type} (thr : BucketThread) (nrSockets tuningKnob : Nat)

/-- After the factory's `init…` and `runFactory`. -/
def init : JStrFactory V :=
  ⟨fun _ => ⟨[], [], 0, .fetch⟩, fun _ _ => none, 0, .idle, none, none⟩

/-- Replace socket `i`. -/
def setSock (s : JStrFactory V) (i : Nat) (k : StrSocket) : JStrFactory V :=
  { s with sock := Function.update s.sock i k }

/-- A step of the thread of socket `i`.  `nr` is what the native fetch
returns and `v` the tuple made of the string, `none` if that throws. -/
def run (i : Nat) (nr : Int32) (v : Option V) (s : JStrFactory V) : Option (JStrFactory V) :=
  let k := s.sock i
  match k.pc with
  | .fetch => some (s.setSock i { k with pc := .fill nr 0 })
  | .fill nr j =>
      if (j : Int) < nr.toInt then
        if v.isSome ∧ j < tuningKnob then
          some { s.setSock i { k with pc := .fill nr (j + 1) } with
            mem := Function.update s.mem ⟨i, k.arrIdx⟩
              (Function.update (s.mem ⟨i, k.arrIdx⟩) j v) }
        else
          some (s.setSock i { k with pc := .dead })
      else if thr.hasLengthQ then
        some (s.setSock i { k with pc := .offerLength nr })
      else
        some (s.setSock i { k with pc := .offerValues })
  | .offerLength nr =>
      if queueSize ≤ k.lengthQ.length then
        some s
      else
        some (s.setSock i { k with lengthQ := k.lengthQ ++ [nr], pc := .offerValues })
  | .offerValues =>
      if queueSize ≤ k.valuesQ.length then
        some s
      else
        some (s.setSock i { k with
          valuesQ := k.valuesQ ++ [⟨i, k.arrIdx⟩]
          arrIdx := if k.arrIdx + 1 > queueSize then 0 else k.arrIdx + 1
          pc := .fetch })
  | .dead => none

/-- The bucket a step of the thread of socket `i` stores into. -/
def stores (i : Nat) (v : Option V) (s : JStrFactory V) : Option Bucket :=
  match (s.sock i).pc with
  | .fill nr j =>
      if (j : Int) < nr.toInt ∧ v.isSome ∧ j < tuningKnob then some ⟨i, (s.sock i).arrIdx⟩ else none
  | .fetch | .offerLength _ | .offerValues | .dead => none

/-- The queue a fetch looks at. -/
def idx (s : JStrFactory V) : Nat := if nrSockets = 1 then 0 else s.queueIdx

/-- Go on to the next queue. -/
def rotate (s : JStrFactory V) : JStrFactory V :=
  if nrSockets = 1 then s
  else if nrSockets = 2 then { s with queueIdx := if s.queueIdx = 0 then 1 else 0 }
  else { s with queueIdx := if s.queueIdx + 1 = nrSockets then 0 else s.queueIdx + 1 }

/-- A step of the consumer; `call` is what it calls when it is between two
calls. -/
def fetch (call : FetchCall) (s : JStrFactory V) : Option (JStrFactory V) :=
  match s.pc with
  | .idle =>
      if call.reads thr ∧ nrSockets ≠ 0 then
        some { s with pc := if call = .fetchV1QBucket then .poll1Q else .pollLength call }
      else
        none
  | .pollLength call =>
      let k := s.sock (s.idx nrSockets)
      match k.lengthQ with
      | [] =>
          -- `fetchVBucket` tries the next queue, `fetchVBucketNB` returns
          some { s.rotate nrSockets with
            pc := if call = .fetchVBucket then .pollLength call else .idle }
      | nr :: q =>
          some { s.setSock (s.idx nrSockets) { k with lengthQ := q } with pc := .pollValues nr }
  | .pollValues nr =>
      let k := s.sock (s.idx nrSockets)
      match k.valuesQ with
      | [] => some s
      | b :: q =>
          some { (s.setSock (s.idx nrSockets) { k with valuesQ := q }).rotate nrSockets with
            pc := .ret b (some nr) }
  | .poll1Q =>
      let k := s.sock (s.idx nrSockets)
      match k.valuesQ with
      | [] => some (s.rotate nrSockets)
      | b :: q =>
          some { (s.setSock (s.idx nrSockets) { k with valuesQ := q }).rotate nrSockets with
            pc := .ret b none }
  | .ret b nr => some { s with inUse := some b, nrFilled := nr, pc := .idle }

/-- Who takes the next step. -/
inductive Act (V : Type)
  | producer (i : Nat) (nr : Int32) (v : Option V)
  | consumer (call : FetchCall)

/-- One step of the factory. -/
def step (s : JStrFactory V) : Act V → Option (JStrFactory V)
  | .producer i nr v => if i < nrSockets then run thr tuningKnob i nr v s else none
  | .consumer call => fetch thr nrSockets call s

end Model

/-! ## the cycle of the buckets -/

section Cycle

variable {V : Type} {thr : BucketThread} {n knob : Nat} {s s' : JStrFactory V} {i : Nat}

/-- `b'` is the bucket its thread fills after `b`. -/
def Follows (b b' : Bucket) : Prop :=
  b.thread = b'.thread ∧ b.k ≤ queueSize ∧ b'.k = (b.k + 1) % (queueSize + 1)

/-- The bucket the consumer has polled but not returned yet. -/
def polled (s : JStrFactory V) : Option Bucket :=
  match s.pc with
  | .ret b _ => some b
  | .idle | .pollLength _ | .pollValues _ | .poll1Q => none

/-- The buckets of socket `i` that the consumer has. -/
def taken (s : JStrFactory V) (i : Nat) : List Bucket :=
  (s.inUse.toList ++ s.polled.toList).filter (·.thread = i)

/-- The buckets of a socket that are under way, `l` of them with the
consumer, are consecutive ones and end where the thread is. -/
structure Cycle (i : Nat) (l : List Bucket) (k : StrSocket) : Prop where
  chain : List.IsChain Follows (l ++ k.valuesQ ++ [⟨i, k.arrIdx⟩])
  arrIdx : k.arrIdx ≤ queueSize
  room : k.valuesQ.length ≤ queueSize

/-- The invariant. -/
def Cycles (s : JStrFactory V) : Prop := ∀ i, Cycle i (s.taken i) (s.sock i)

/-- A chain comes back to its first bucket after `QUEUE_SIZE + 1` steps. -/
theorem Follows.last_eq {l : List Bucket} {b c : Bucket}
    (h : List.IsChain Follows (b :: l ++ [c])) :
    b.thread = c.thread ∧ b.k ≤ queueSize ∧ c.k = (b.k + (l.length + 1)) % (queueSize + 1) := by
  induction l generalizing b with
  | nil => simpa [Follows] using h
  | cons a l ih =>
      rw [List.cons_append, List.cons_append, List.isChain_cons_cons] at h
      obtain ⟨⟨hthread, hk, ha⟩, hrest⟩ := h
      obtain ⟨hthread', -, hc⟩ := ih hrest
      refine ⟨hthread.trans hthread', hk, ?_⟩
      rw [hc, ha, Nat.mod_add_mod, List.length_cons]
      congr 1
      omega

section Socket

variable {l l' : List Bucket} {k : StrSocket}

theorem Cycle.thread_eq {b : Bucket} (h : Cycle i l k) (hb : b ∈ l ++ k.valuesQ) :
    b.thread = i := by
  obtain ⟨l₁, l₂, hl⟩ := List.append_of_mem hb
  have hchain := h.chain
  rw [hl, List.append_assoc] at hchain
  exact (Follows.last_eq (hchain.suffix (List.suffix_append _ _))).1

/-- The thread puts its bucket into the queue. -/
theorem Cycle.offer (h : Cycle i l k) (hroom : ¬ queueSize ≤ k.valuesQ.length) (pc : CyclePc) :
    Cycle i l { k with
      valuesQ := k.valuesQ ++ [⟨i, k.arrIdx⟩]
      arrIdx := if k.arrIdx + 1 > queueSize then 0 else k.arrIdx + 1
      pc := pc } := by
  have hidx := h.arrIdx
  refine ⟨?_, ?_, ?_⟩
  · show List.IsChain Follows (l ++ (k.valuesQ ++ [⟨i, k.arrIdx⟩]) ++ [_])
    rw [← List.append_assoc l]
    refine List.isChain_append.mpr ⟨h.chain, List.isChain_singleton _, ?_⟩
    intro b hb c hc
    simp only [List.getLast?_append, List.getLast?_singleton, Option.some_or, Option.mem_def,
      Option.some.injEq, List.head?_cons] at hb hc
    subst hb hc
    refine ⟨rfl, hidx, ?_⟩
    dsimp only
    split
    · next hlast =>
      have : k.arrIdx + 1 = queueSize + 1 := by omega
      rw [this, Nat.mod_self]
    · next hlast => rw [Nat.mod_eq_of_lt (by omega)]
  · dsimp only
    split <;> omega
  · simp only [List.length_append, List.length_singleton]
    omega

/-- The consumer takes the bucket at the front. -/
theorem Cycle.take {b : Bucket} {q : List Bucket} (h : Cycle i l k) (hq : k.valuesQ = b :: q) :
    Cycle i (l ++ [b]) { k with valuesQ := q } := by
  refine ⟨?_, h.arrIdx, ?_⟩
  · have hchain := h.chain
    rw [hq] at hchain
    simpa using hchain
  · have hroom := h.room
    rw [hq, List.length_cons] at hroom
    show q.length ≤ queueSize
    omega

/-- The consumer is done with its oldest buckets. -/
theorem Cycle.suffix (h : Cycle i l k) (hl : l' <:+ l) : Cycle i l' k := by
  refine ⟨h.chain.suffix ?_, h.arrIdx, h.room⟩
  obtain ⟨l₀, rfl⟩ := hl
  exact ⟨l₀, by simp⟩

end Socket

theorem Cycles.init : (JStrFactory.init : JStrFactory V).Cycles := fun _ =>
  ⟨List.isChain_singleton _, Nat.zero_le _, Nat.zero_le _⟩

/-- The thread of a socket changes neither the consumer nor other sockets. -/
theorem Cycles.setSock (h : s.Cycles) {k : StrSocket} (hk : Cycle i (s.taken i) k) :
    (s.setSock i k).Cycles := by
  intro j
  show Cycle j (s.taken j) (Function.update s.sock i k j)
  by_cases hj : j = i
  · subst hj
    rwa [Function.update_self]
  · rw [Function.update_of_ne hj]
    exact h j

/-- The threads keep the invariant. -/
theorem Cycles.run {nr : Int32} {v : Option V} (h : s.Cycles)
    (hs : JStrFactory.run thr knob i nr v s = some s') : s'.Cycles := by
  obtain ⟨hchain, hidx, hroom⟩ := h i
  have hpc : ∀ pc lens, Cycle i (s.taken i) { s.sock i with lengthQ := lens, pc := pc } :=
    fun _ _ => ⟨hchain, hidx, hroom⟩
  unfold JStrFactory.run at hs
  cases hp : (s.sock i).pc with
  | fetch =>
      simp only [hp, Option.some.injEq] at hs
      subst hs
      exact h.setSock (hpc _ _)
  | fill nr j =>
      simp only [hp] at hs
      split at hs
      · split at hs
        · simp only [Option.some.injEq] at hs
          subst hs
          exact h.setSock (hpc _ _)
        · simp only [Option.some.injEq] at hs
          subst hs
          exact h.setSock (hpc _ _)
      · split at hs
        · simp only [Option.some.injEq] at hs
          subst hs
          exact h.setSock (hpc _ _)
        · simp only [Option.some.injEq] at hs
          subst hs
          exact h.setSock (hpc _ _)
  | offerLength nr =>
      simp only [hp] at hs
      split at hs
      · simp only [Option.some.injEq] at hs
        subst hs
        exact h
      · simp only [Option.some.injEq] at hs
        subst hs
        exact h.setSock (hpc _ _)
  | offerValues =>
      simp only [hp] at hs
      split at hs
      · simp only [Option.some.injEq] at hs
        subst hs
        exact h
      · next hfree =>
        simp only [Option.some.injEq] at hs
        subst hs
        exact h.setSock ((h i).offer hfree _)
  | dead =>
      simp only [hp] at hs
      contradiction

/-- `rotate` changes the index only. -/
theorem rotate_eq (n : Nat) (s : JStrFactory V) :
    s.rotate n = { s with queueIdx := (s.rotate n).queueIdx } := by
  unfold rotate
  split
  · rfl
  · split <;> rfl

/-- The consumer takes a bucket. -/
theorem Cycles.take {b : Bucket} {q : List Bucket} (h : s.Cycles) (hpc : s.polled = none)
    (hq : (s.sock i).valuesQ = b :: q) (idx : Nat) (nr : Option Int32) :
    Cycles { s.setSock i { s.sock i with valuesQ := q } with queueIdx := idx, pc := .ret b nr } := by
  have hthread : b.thread = i := (h i).thread_eq (by simp [hq])
  intro j
  have hj := h j
  rw [taken, hpc] at hj
  show Cycle j ((s.inUse.toList ++ [b]).filter (·.thread = j)) (Function.update s.sock i _ j)
  rw [List.filter_append]
  by_cases hji : j = i
  · subst hji
    rw [Function.update_self]
    simpa [hthread] using hj.take hq
  · rw [Function.update_of_ne hji]
    have hne : ¬ b.thread = j := fun ht => hji (ht.symm.trans hthread)
    simpa [hne] using hj

/-- The invariant speaks about the buckets only. -/
theorem Cycles.frame (h : s.Cycles) (hu : s'.inUse = s.inUse) (hp : s'.polled = s.polled)
    (hk : ∀ i, (s'.sock i).valuesQ = (s.sock i).valuesQ ∧ (s'.sock i).arrIdx = (s.sock i).arrIdx) :
    s'.Cycles := by
  intro i
  obtain ⟨hchain, hidx, hroom⟩ := h i
  obtain ⟨hv, ha⟩ := hk i
  rw [taken, ← hu, ← hp] at hchain
  exact ⟨by rw [hv, ha]; exact hchain, by rw [ha]; exact hidx, by rw [hv]; exact hroom⟩

/-- The consumer keeps the invariant. -/
theorem Cycles.fetch {call : FetchCall} (h : s.Cycles)
    (hs : JStrFactory.fetch thr n call s = some s') : s'.Cycles := by
  unfold JStrFactory.fetch at hs
  cases hpc : s.pc with
  | idle =>
      simp only [hpc] at hs
      split at hs
      · simp only [Option.some.injEq] at hs
        subst hs
        refine h.frame rfl ?_ fun i => ⟨rfl, rfl⟩
        by_cases hc : call = .fetchV1QBucket <;> simp [polled, hpc, hc]
      · contradiction
  | pollLength call =>
      simp only [hpc] at hs
      cases hq : (s.sock (s.idx n)).lengthQ with
      | nil =>
          simp only [hq, Option.some.injEq] at hs
          subst hs
          rw [rotate_eq]
          refine h.frame rfl ?_ fun i => ⟨rfl, rfl⟩
          by_cases hc : call = .fetchVBucket <;> simp [polled, hpc, hc]
      | cons nr q =>
          simp only [hq, Option.some.injEq] at hs
          subst hs
          refine h.frame rfl (by simp [polled, hpc]) fun i => ?_
          by_cases hi : i = s.idx n
          · simp [JStrFactory.setSock, hi]
          · simp [JStrFactory.setSock, hi]
  | pollValues nr =>
      simp only [hpc] at hs
      cases hq : (s.sock (s.idx n)).valuesQ with
      | nil =>
          simp only [hq, Option.some.injEq] at hs
          subst hs
          exact h
      | cons b q =>
          simp only [hq, Option.some.injEq] at hs
          subst hs
          rw [rotate_eq]
          exact h.take (by simp [polled, hpc]) hq _ _
  | poll1Q =>
      simp only [hpc] at hs
      cases hq : (s.sock (s.idx n)).valuesQ with
      | nil =>
          simp only [hq, Option.some.injEq] at hs
          subst hs
          rw [rotate_eq]
          exact h.frame rfl rfl fun i => ⟨rfl, rfl⟩
      | cons b q =>
          simp only [hq, Option.some.injEq] at hs
          subst hs
          rw [rotate_eq]
          exact h.take (by simp [polled, hpc]) hq _ _
  | ret b nr =>
      simp only [hpc, Option.some.injEq] at hs
      subst hs
      intro i
      -- the bucket that was in use until now is dropped from the front
      refine (h i).suffix ?_
      simp only [taken, polled, hpc, List.filter_append, Option.toList_some, Option.toList_none,
        List.append_nil]
      exact List.suffix_append _ _

/-- Every state of the factory satisfies the invariant. -/
theorem reach_cycles {ok : JStrFactory V → Act V → Prop}
    (hr : Reach (step thr n knob) JStrFactory.init ok s) : s.Cycles := by
  refine hr.invariant .init fun s l s' h _ hs => ?_
  cases l with
  | producer i nr v =>
      simp only [step] at hs
      split at hs
      · exact h.run hs
      · contradiction
  | consumer call => exact h.fetch hs

end Cycle

/-! ## the result -/

section Result

variable {V : Type} {thr : BucketThread} {n knob : Nat} {s s' : JStrFactory V} {i : Nat}

/-- The bucket a step stores into. -/
def storesInto (knob : Nat) (s : JStrFactory V) : Act V → Option Bucket
  | .producer i _ v => stores knob i v s
  | .consumer _ => none

/-- Number of buckets of socket `i` between its thread and the end of the
next fetch: in `values_q`, or polled from it and not returned yet. -/
def waiting (s : JStrFactory V) (i : Nat) : Nat :=
  (s.sock i).valuesQ.length + (s.polled.toList.filter (·.thread = i)).length

/-- The step is not a store of a thread whose bucket is in use while
`QUEUE_SIZE` of its buckets are waiting. -/
def NotBehind (knob : Nat) (s : JStrFactory V) : Act V → Prop
  | .producer i _ v =>
      (stores knob i v s).isSome → s.inUse.any (·.thread = i) → s.waiting i ≠ queueSize
  | .consumer _ => True

instance (knob : Nat) (s : JStrFactory V) (l : Act V) : Decidable (NotBehind knob s l) :=
  match l with
  | .producer i _ v => inferInstanceAs (Decidable ((stores knob i v s).isSome →
      s.inUse.any (·.thread = i) → s.waiting i ≠ queueSize))
  | .consumer _ => .isTrue trivial

/-- The step does not store into the bucket in use. -/
def KeepsInUse (knob : Nat) (s : JStrFactory V) (l : Act V) : Prop :=
  ∀ b, s.inUse = some b → storesInto knob s l ≠ some b

theorem eq_of_stores {v : Option V} {c : Bucket} (h : stores knob i v s = some c) :
    c = ⟨i, (s.sock i).arrIdx⟩ := by
  unfold stores at h
  cases hpc : (s.sock i).pc with
  | fill nr j =>
      simp only [hpc] at h
      split at h
      · exact (Option.some.inj h).symm
      · contradiction
  | fetch | offerLength _ | offerValues | dead => simp [hpc] at h

/-- Where the thread is relative to its bucket in use. -/
theorem Cycles.arrIdx_eq {b : Bucket} (h : s.Cycles) (hb : s.inUse = some b)
    (hthread : b.thread = i) :
    b.k ≤ queueSize ∧ (s.sock i).arrIdx = (b.k + (s.waiting i + 1)) % (queueSize + 1) := by
  have hchain := (h i).chain
  simp only [taken, hb, Option.toList_some, List.cons_append, List.nil_append, List.filter_cons,
    hthread, decide_true, if_true] at hchain
  obtain ⟨-, hk, hlast⟩ := Follows.last_eq hchain
  refine ⟨hk, ?_⟩
  rw [waiting, Nat.add_comm (List.length _), ← List.length_append]
  exact hlast

/-- No more than a full queue and the polled bucket are waiting. -/
theorem Cycles.waiting_le (h : s.Cycles) (i : Nat) : s.waiting i ≤ queueSize + 1 := by
  have hroom := (h i).room
  have hpolled : (s.polled.toList.filter (·.thread = i)).length ≤ 1 :=
    (List.length_filter_le _ _).trans (by cases s.polled <;> simp)
  unfold waiting
  omega

/-- In every state, a store hits the bucket in use exactly when the consumer
is a full queue behind. -/
theorem Cycles.keepsInUse_iff (h : s.Cycles) (l : Act V) :
    KeepsInUse knob s l ↔ NotBehind knob s l := by
  cases l with
  | consumer call => exact iff_of_true (fun b _ => by simp [storesInto]) trivial
  | producer i nr v =>
      cases hst : stores knob i v s with
      | none => exact iff_of_true (fun b _ => by simp [storesInto, hst]) (by simp [NotBehind, hst])
      | some c =>
          have hc := eq_of_stores hst
          have hw := h.waiting_le i
          -- the store hits bucket `b` in use if `waiting + 1` is a full round
          have hiff : ∀ b, s.inUse = some b → b.thread = i →
              (c ≠ b ↔ s.waiting i ≠ queueSize) := by
            intro b hb hthread
            obtain ⟨hk, harr⟩ := h.arrIdx_eq hb hthread
            have hb' : c = b ↔ (s.sock i).arrIdx = b.k := by
              rw [hc]
              exact ⟨fun he => by rw [← he], fun he => by rw [he, ← hthread]⟩
            rw [ne_eq, ne_eq, not_iff_not, hb', harr]
            simp only [queueSize] at *
            omega
          constructor
          · intro hkeep _ hin
            obtain ⟨b, hb, hthread⟩ := (Option.any_eq_true _ _).mp hin
            simp only [decide_eq_true_eq] at hthread
            refine (hiff b hb hthread).mp fun he => hkeep b hb ?_
            rw [storesInto, hst, he]
          · intro hnb b hb he
            rw [storesInto, hst] at he
            obtain rfl := Option.some.inj he
            have hthread : c.thread = i := by rw [hc]
            have hne := hnb (by rw [hst]; rfl) (by simp [hb, hthread])
            exact (hiff c hb hthread).mpr hne rfl

/-- **The bucket in use is stable exactly in the runs in which no thread
goes on storing while the consumer is a full queue behind.** -/
theorem held_bucket_stable_iff (thr : BucketThread) (n knob : Nat)
    (tr : List (JStrFactory V × Act V)) (s : JStrFactory V)
    (ht : Trace (step thr n knob) JStrFactory.init anyStep tr s) :
    (∀ p ∈ tr, KeepsInUse knob p.1 p.2) ↔ ∀ p ∈ tr, NotBehind knob p.1 p.2 := by
  have hstep : ∀ p ∈ tr, (KeepsInUse knob p.1 p.2 ↔ NotBehind knob p.1 p.2) := fun p hp =>
    (reach_cycles (ht.reach_of_mem hp)).keepsInUse_iff p.2
  exact forall₂_congr hstep

/-- A thread delivers a bucket with one tuple. -/
def deliver : List (Act Nat) := List.replicate 5 (.producer 0 1 (some 7))

/-- The first bucket is fetched, then the thread fills the queue and goes
on. -/
def lappedRun : List (Act Nat) :=
  deliver ++ List.replicate 4 (.consumer .fetchVBucketNB) ++
    (List.replicate queueSize deliver).flatten ++ List.replicate 2 (.producer 0 1 (some 7))

/-- **Counterexample**: the bucket the consumer reads is overwritten. -/
theorem bucket_in_use_overwritten :
    ∃ (tr : List (JStrFactory Nat × Act Nat)) (s : JStrFactory Nat),
      Trace (step .zvBucketOpt 1 800) JStrFactory.init anyStep tr s ∧
        ∃ p ∈ tr, ¬ KeepsInUse 800 p.1 p.2 := by
  have hrun : ∃ (tr : List (JStrFactory Nat × Act Nat)) (s : JStrFactory Nat),
      Trace (step .zvBucketOpt 1 800) JStrFactory.init anyStep tr s ∧
        (tr.getLast?.any fun p => p.1.inUse = some ⟨0, 0⟩ ∧
          storesInto 800 p.1 p.2 = some ⟨0, 0⟩) = true :=
    Trace.of_exec_any lappedRun _ (by decide +kernel)
  obtain ⟨tr, s, ht, hlast⟩ := hrun
  obtain ⟨p, hp, hhit⟩ := (Option.any_eq_true _ _).mp hlast
  simp only [decide_eq_true_eq] at hhit
  exact ⟨tr, s, ht, p, List.mem_of_getLast? hp, fun hkeep => hkeep _ hhit.1 hhit.2⟩

theorem held_bucket_stable_one_ahead :
    ∃ (tr : List (JStrFactory Nat × Act Nat)) (s : JStrFactory Nat),
      Trace (step .zvBucketOpt 1 800) JStrFactory.init anyStep tr s ∧ s.inUse = some ⟨0, 0⟩ ∧
        ∀ p ∈ tr, KeepsInUse 800 p.1 p.2 := by
  -- the consumer has the first bucket while the thread fills the second one
  have hrun : ∃ (tr : List (JStrFactory Nat × Act Nat)) (s : JStrFactory Nat),
      Trace (step .zvBucketOpt 1 800) JStrFactory.init anyStep tr s ∧
        decide (s.inUse = some ⟨0, 0⟩ ∧ ∀ p ∈ tr, NotBehind 800 p.1 p.2) = true :=
    Trace.of_exec_any (deliver ++ List.replicate 4 (.consumer .fetchVBucketNB) ++ deliver) _
      (by decide +kernel)
  obtain ⟨tr, s, ht, hs⟩ := hrun
  simp only [decide_eq_true_eq] at hs
  exact ⟨tr, s, ht, hs.1, (held_bucket_stable_iff .zvBucketOpt 1 800 tr s ht).mpr hs.2⟩

end Result

end JStrFactory

end CloudProfiler
