import Mathlib.Data.List.Nodup
import Mathlib.Logic.Function.Basic
import CloudProfiler.Dict
import CloudProfiler.Run

/-!
# CloudProfiler.JObjFactory

`JObjFactory.java`: one `ZVBucketOptThread` per socket fills arrays of
tuples (buckets) and hands them to a consumer, which gives each bucket back
with its next call of `fetchVBucketNB`.

A socket has three queues: `values_q` and `length_q` towards the consumer,
which the producer offers to one after the other, and `back_q` for the
return.  They are JCTools queues and the only thing known of them is that
they are first-in first-out and when `offer` may fail: `full cap n` says
whether it does on a queue made for `cap` elements that holds `n`.

Every access to a queue and every store into a bucket is a step of its own.
`produced` and `fetched` are histories, no step reads them.

* `Socket.Ok` — where the buckets of one socket are and in which order;
* `JObjFactory.buckets_recycled` — no bucket is lost, duplicated or written
  while the consumer reads it.
-/

namespace CloudProfiler

/-- `Globals.QUEUE_SIZE`. -/
def queueSize : Nat := 100

/-- A `Values[]`: bucket `k` of those that thread `thread` allocated. -/
structure Bucket where
  thread : Nat
  k : Nat
  deriving DecidableEq, Repr

/-- Where `ZVBucketOptThread.run` is. -/
inductive ProducerPc
  /-- in `fetchObjBktOpt` -/
  | fetch
  /-- polls `back_q` -/
  | pollBack (nrFilled : Int32)
  /-- about to store tuple `bIdx` into the bucket -/
  | fill (nrFilled : Int32) (vBucket : Bucket) (bIdx : Nat)
  /-- offers to `length_q` -/
  | offerLength (nrFilled : Int32) (vBucket : Bucket)
  /-- offers to `values_q` -/
  | offerValues (vBucket : Bucket)
  /-- ended by an exception while filling a bucket -/
  | dead (vBucket : Bucket)
  deriving DecidableEq, Repr

/-- The buckets a producer has in its hands. -/
def ProducerPc.hands : ProducerPc → List Bucket
  | .fetch | .pollBack _ => []
  | .fill _ b _ | .offerLength _ b | .offerValues b | .dead b => [b]

/-- The buckets that are filled but not in `values_q` yet. -/
def ProducerPc.toOffer : ProducerPc → List Bucket
  | .offerLength _ b | .offerValues b => [b]
  | .fetch | .pollBack _ | .fill _ _ _ | .dead _ => []

/-- The lengths that are not in `length_q` yet. -/
def ProducerPc.toOfferLength : ProducerPc → List Int32
  | .offerLength nr _ => [nr]
  | .fetch | .pollBack _ | .fill _ _ _ | .offerValues _ | .dead _ => []

/-- A socket: its queues and its thread. -/
structure Socket where
  valuesQ : List Bucket
  lengthQ : List Int32
  backQ : List Bucket
  pc : ProducerPc
  produced : List (Bucket × Int32)
  fetched : List (Bucket × Int32)
  deriving DecidableEq, Repr

/-- Where `fetchVBucketNB` is. -/
inductive ConsumerPc
  /-- between two calls -/
  | idle
  | giveBack
  | pollLength
  | pollValues (nrFilled : Int32)
  deriving DecidableEq, Repr

/-- The factory.  `mem` is the content of the buckets and `failMsg` the one
message `SharedVariables` logs. -/
structure JObjFactory (V : Type) where
  sock : Nat → Socket
  mem : Bucket → Nat → Option V
  queueIdx : Nat
  oldQueueIdx : Nat
  vBucketFilled : Option Bucket
  pc : ConsumerPc
  data : Option (Bucket × Int32)
  failMsg : Option String

namespace JObjFactory

section Model

variable {V : Type} (full : Nat → Nat → Bool) (nrSockets tuningKnob : Nat)

/-- The constructor of `ZVBucketOptThread` offers the buckets to `back_q`
and does not look at the result. -/
def initBackQ (i : Nat) : List Bucket :=
  (List.range (queueSize + 1)).foldl
    (fun q k => if full (queueSize + 1) q.length then q else q ++ [⟨i, k⟩]) []

/-- After `initZVBucketOpt` and `runFactory`. -/
def initZVBucketOpt : JObjFactory V where
  sock i := ⟨[], [], initBackQ full i, .fetch, [], []⟩
  mem _ _ := none
  queueIdx := 0
  oldQueueIdx := 0
  vBucketFilled := none
  pc := .idle
  data := none
  failMsg := none

/-- Replace socket `i`. -/
def setSock (s : JObjFactory V) (i : Nat) (k : Socket) : JObjFactory V :=
  { s with sock := Function.update s.sock i k }

/-- `SharedVariables.markOverflow` and `markUnderflow`: both test and set
`bufferOverflow`, so only the first message is logged. -/
def mark (s : JObjFactory V) (msg : String) : JObjFactory V :=
  { s with failMsg := s.failMsg <|> some msg }

/-- A step of the thread of socket `i`.  `nr` is what `fetchObjBktOpt`
returns and `v` the tuple read from the `Input`, `none` if that throws. -/
def run (i : Nat) (nr : Int32) (v : Option V) (s : JObjFactory V) : Option (JObjFactory V) :=
  let k := s.sock i
  match k.pc with
  | .fetch => some (s.setSock i { k with pc := .pollBack nr })
  | .pollBack nr =>
      match k.backQ with
      | [] => some s
      | b :: q => some (s.setSock i { k with backQ := q, pc := .fill nr b 0 })
  | .fill nr b j =>
      if (j : Int) < nr.toInt then
        if v.isSome ∧ j < tuningKnob then
          some { s.setSock i { k with pc := .fill nr b (j + 1) } with
            mem := Function.update s.mem b (Function.update (s.mem b) j v) }
        else
          some (s.setSock i { k with pc := .dead b })
      else
        some (s.setSock i { k with
          pc := .offerLength nr b
          produced := k.produced ++ [(b, nr)] })
  | .offerLength nr b =>
      if full queueSize k.lengthQ.length then
        some (s.mark "Bucket queue is full")
      else
        some (s.setSock i { k with lengthQ := k.lengthQ ++ [nr], pc := .offerValues b })
  | .offerValues b =>
      if full queueSize k.valuesQ.length then
        some s
      else
        some (s.setSock i { k with valuesQ := k.valuesQ ++ [b], pc := .fetch })
  | .dead _ => none

/-- The queue `fetchVBucketNB` looks at. -/
def idx (s : JObjFactory V) : Nat := if nrSockets = 1 then 0 else s.queueIdx

/-- The end of `fetchVBucketNB`: remember the queue and go on to the next
one. -/
def rotate (s : JObjFactory V) : JObjFactory V :=
  if nrSockets = 1 then s
  else if nrSockets = 2 then
    { s with oldQueueIdx := s.queueIdx, queueIdx := if s.queueIdx = 0 then 1 else 0 }
  else
    { s with
      oldQueueIdx := s.queueIdx
      queueIdx := if s.queueIdx + 1 = nrSockets then 0 else s.queueIdx + 1 }

/-- A step of the consumer in `fetchVBucketNB`. -/
def fetchVBucketNB (s : JObjFactory V) : Option (JObjFactory V) :=
  match s.pc with
  | .idle => some { s with pc := if s.vBucketFilled.isSome then .giveBack else .pollLength }
  | .giveBack =>
      match s.vBucketFilled with
      | none => none
      | some b =>
          let k := s.sock s.oldQueueIdx
          if full (queueSize + 1) k.backQ.length then
            some s
          else
            some { s.setSock s.oldQueueIdx { k with backQ := k.backQ ++ [b] } with
              vBucketFilled := none
              pc := .pollLength }
  | .pollLength =>
      if nrSockets = 0 then
        some { s.mark "Bucket queue is empty" with pc := .idle }
      else
        let k := s.sock (s.idx nrSockets)
        match k.lengthQ with
        | [] => some { (s.rotate nrSockets).mark "Bucket queue is empty" with pc := .idle }
        | nr :: q =>
            some { s.setSock (s.idx nrSockets) { k with lengthQ := q } with pc := .pollValues nr }
  | .pollValues nr =>
      let k := s.sock (s.idx nrSockets)
      match k.valuesQ with
      | [] => some s
      | b :: q =>
          some { (s.setSock (s.idx nrSockets) { k with
              valuesQ := q
              fetched := k.fetched ++ [(b, nr)] }).rotate nrSockets with
            vBucketFilled := some b
            data := some (b, nr)
            pc := .idle }

/-- Who takes the next step. -/
inductive Act (V : Type)
  | producer (i : Nat) (nr : Int32) (v : Option V)
  | consumer

/-- One step of the factory. -/
def step (s : JObjFactory V) : Act V → Option (JObjFactory V)
  | .producer i nr v => if i < nrSockets then run full tuningKnob i nr v s else none
  | .consumer => fetchVBucketNB full nrSockets s

end Model

end JObjFactory

/-! ## one socket -/

section Socket

/-- What holds of socket `i` when the consumer has bucket `held` in its
hands and has taken the lengths `lens` without their buckets. -/
structure Socket.Ok (i : Nat) (held : Option Bucket) (lens : List Int32) (k : Socket) : Prop where
  /-- each bucket of the thread is at one place, other buckets at none -/
  place : ∀ b, k.backQ.count b + k.pc.hands.count b + k.valuesQ.count b +
    (if b.thread = i then held.toList.count b else 0) =
      if b.thread = i ∧ b.k ≤ queueSize then 1 else 0
  /-- the buckets arrive in production order -/
  values : k.produced.map Prod.fst = k.fetched.map Prod.fst ++ k.valuesQ ++ k.pc.toOffer
  /-- and so do the lengths -/
  lengths : k.produced.map Prod.snd =
    k.fetched.map Prod.snd ++ lens ++ k.lengthQ ++ k.pc.toOfferLength

variable {i : Nat} {held : Option Bucket} {lens : List Int32} {k : Socket} {b : Bucket}
  {nr : Int32}

/-- Steps of the thread that change only its program point, not the bucket
in its hands. -/
theorem Socket.Ok.goto {pc : ProducerPc} (h : k.Ok i held lens) (hhands : pc.hands = k.pc.hands)
    (hoffer : pc.toOffer = k.pc.toOffer) (hlen : pc.toOfferLength = k.pc.toOfferLength) :
    Socket.Ok i held lens { k with pc := pc } where
  place b := by rw [hhands]; exact h.place b
  values := by rw [hoffer]; exact h.values
  lengths := by rw [hlen]; exact h.lengths

theorem Socket.Ok.pollBack {q : List Bucket} (h : k.Ok i held lens) (hpc : k.pc = .pollBack nr)
    (hq : k.backQ = b :: q) :
    Socket.Ok i held lens { k with backQ := q, pc := .fill nr b 0 } where
  place b' := by
    have := h.place b'
    rw [hpc, hq, List.count_cons] at this
    simp only [ProducerPc.hands, List.count_nil, List.count_singleton] at this ⊢
    omega
  values := by simpa [hpc, ProducerPc.toOffer] using h.values
  lengths := by simpa [hpc, ProducerPc.toOfferLength] using h.lengths

theorem Socket.Ok.filled {j : Nat} (h : k.Ok i held lens) (hpc : k.pc = .fill nr b j) :
    Socket.Ok i held lens
      { k with pc := .offerLength nr b, produced := k.produced ++ [(b, nr)] } where
  place b' := by simpa [hpc, ProducerPc.hands] using h.place b'
  values := by simp [h.values, hpc, ProducerPc.toOffer]
  lengths := by simp [h.lengths, hpc, ProducerPc.toOfferLength]

theorem Socket.Ok.offerLength (h : k.Ok i held lens) (hpc : k.pc = .offerLength nr b) :
    Socket.Ok i held lens { k with lengthQ := k.lengthQ ++ [nr], pc := .offerValues b } where
  place b' := by simpa [hpc, ProducerPc.hands] using h.place b'
  values := by simpa [hpc, ProducerPc.toOffer] using h.values
  lengths := by simpa [hpc, ProducerPc.toOfferLength] using h.lengths

theorem Socket.Ok.offerValues (h : k.Ok i held lens) (hpc : k.pc = .offerValues b) :
    Socket.Ok i held lens { k with valuesQ := k.valuesQ ++ [b], pc := .fetch } where
  place b' := by
    have := h.place b'
    rw [hpc] at this
    simp only [ProducerPc.hands, List.count_nil, List.count_append] at this ⊢
    omega
  values := by simpa [hpc, ProducerPc.toOffer] using h.values
  lengths := by simpa [hpc, ProducerPc.toOfferLength] using h.lengths

/-- The consumer gives its bucket back. -/
theorem Socket.Ok.giveBack (h : k.Ok i (some b) lens) (hb : b.thread = i) :
    Socket.Ok i none lens { k with backQ := k.backQ ++ [b] } where
  place b' := by
    have := h.place b'
    simp only [List.count_append, Option.toList_some, Option.toList_none, List.count_singleton,
      List.count_nil] at this ⊢
    grind
  values := h.values
  lengths := h.lengths

/-- A bucket of another thread leaves the consumer's hands, or comes into
them. -/
theorem Socket.Ok.foreign {held' : Option Bucket} (h : k.Ok i held lens)
    (hf : ∀ b, held = some b → b.thread ≠ i) (hf' : ∀ b, held' = some b → b.thread ≠ i) :
    k.Ok i held' lens where
  place b := by
    have := h.place b
    cases held <;> cases held' <;> grind
  values := h.values
  lengths := h.lengths

theorem Socket.Ok.takeLength {q : List Int32} (h : k.Ok i held []) (hq : k.lengthQ = nr :: q) :
    Socket.Ok i held [nr] { k with lengthQ := q } where
  place := h.place
  values := h.values
  lengths := by simpa [hq] using h.lengths

/-- A bucket in `values_q` is one of the thread. -/
theorem Socket.Ok.thread_eq {q : List Bucket} (h : k.Ok i held lens) (hq : k.valuesQ = b :: q) :
    b.thread = i := by
  have := h.place b
  rw [hq, List.count_cons_self] at this
  by_contra hne
  rw [if_neg (fun hb : b.thread = i ∧ b.k ≤ queueSize => hne hb.1)] at this
  omega

theorem Socket.Ok.takeValues {q : List Bucket} (h : k.Ok i none [nr]) (hq : k.valuesQ = b :: q) :
    Socket.Ok i (some b) [] { k with valuesQ := q, fetched := k.fetched ++ [(b, nr)] } where
  place b' := by
    have hb := h.thread_eq hq
    have := h.place b'
    simp only [hq, List.count_cons, Option.toList_some, Option.toList_none, List.count_nil] at this ⊢
    grind
  values := by simpa [hq] using h.values
  lengths := by simpa using h.lengths

/-- **Buckets and lengths match**: what was fetched is what was produced
first. -/
theorem Socket.Ok.fetched_initial (h : k.Ok i held lens) : k.fetched <+: k.produced := by
  rw [List.prefix_iff_eq_take]
  refine pairs_ext ?_ ?_
  · rw [List.map_take, h.values, List.append_assoc, List.take_left' (by simp)]
  · rw [List.map_take, h.lengths, List.append_assoc, List.append_assoc, List.take_left' (by simp)]

end Socket

/-! ## the factory -/

namespace JObjFactory

section Factory

variable {V : Type} {full : Nat → Nat → Bool} {n knob : Nat} {s s' : JObjFactory V} {i : Nat}

/-- The length the consumer has taken from socket `i` without its bucket. -/
def lens (n : Nat) (s : JObjFactory V) (i : Nat) : List Int32 :=
  match s.pc with
  | .pollValues nr => if i = s.idx n then [nr] else []
  | .idle | .giveBack | .pollLength => []

/-- The invariant. -/
structure Inv (n : Nat) (s : JObjFactory V) : Prop where
  sock : ∀ i < n, (s.sock i).Ok i s.vBucketFilled (s.lens n i)
  queueIdx : n ≠ 0 → s.queueIdx < n
  single : n = 1 → s.oldQueueIdx = 0
  filled : ∀ b, s.vBucketFilled = some b → b.thread = s.oldQueueIdx ∧ s.oldQueueIdx < n
  polling : s.pc = .pollLength ∨ (∃ nr, s.pc = .pollValues nr) → n ≠ 0 → s.vBucketFilled = none
  sockets : ∀ nr, s.pc = .pollValues nr → n ≠ 0
  data : ∀ b, s.vBucketFilled = some b →
    ∃ nr, s.data = some (b, nr) ∧ (s.sock b.thread).fetched.getLast? = some (b, nr)

theorem initBackQ_eq (hfull : ∀ cap m, full cap m = true → cap ≤ m) (i : Nat) :
    initBackQ full i = (List.range (queueSize + 1)).map (⟨i, ·⟩) := by
  have hgo : ∀ m ≤ queueSize + 1, (List.range m).foldl
      (fun q k => if full (queueSize + 1) q.length then q else q ++ [⟨i, k⟩]) [] =
        (List.range m).map (Bucket.mk i) := by
    intro m
    induction m with
    | zero => intro _; rfl
    | succ m ih =>
        intro hm
        have hroom : full (queueSize + 1) m = false :=
          Bool.eq_false_iff.mpr fun h => absurd (hfull _ _ h) (by omega)
        rw [List.range_succ, List.foldl_append, ih (by omega)]
        simp [hroom]
  exact hgo _ (Nat.le_refl _)

theorem Inv.init (hfull : ∀ cap m, full cap m = true → cap ≤ m) :
    (initZVBucketOpt full : JObjFactory V).Inv n where
  sock i hi := by
    refine ⟨fun b => ?_, rfl, rfl⟩
    have hnodup : ((List.range (queueSize + 1)).map (Bucket.mk i)).Nodup :=
      List.Nodup.map (fun _ _ h => (Bucket.mk.inj h).2) List.nodup_range
    show (initBackQ full i).count b + 0 + 0 + (if b.thread = i then 0 else 0) = _
    rw [initBackQ_eq hfull, hnodup.count]
    obtain ⟨t, j⟩ := b
    grind
  queueIdx h := Nat.pos_of_ne_zero h
  single _ := rfl
  filled b h := by cases h
  polling _ _ := rfl
  sockets nr h := by cases h
  data b h := by cases h

/-- A step that changes socket `i` only, and neither what was fetched from
it nor the consumer. -/
theorem Inv.setSock (h : s.Inv n) {k : Socket} (hk : k.Ok i s.vBucketFilled (s.lens n i))
    (hf : k.fetched = (s.sock i).fetched) : (s.setSock i k).Inv n where
  sock j hj := by
    show (Function.update s.sock i k j).Ok j s.vBucketFilled (s.lens n j)
    by_cases hji : j = i
    · subst hji
      rw [Function.update_self]
      exact hk
    · rw [Function.update_of_ne hji]
      exact h.sock j hj
  queueIdx := h.queueIdx
  single := h.single
  filled := h.filled
  polling := h.polling
  sockets := h.sockets
  data b hb := by
    obtain ⟨nr, hd, hlast⟩ := h.data b hb
    refine ⟨nr, hd, ?_⟩
    show (Function.update s.sock i k b.thread).fetched.getLast? = some (b, nr)
    by_cases hi : b.thread = i
    · rw [hi, Function.update_self, hf, ← hi, hlast]
    · rw [Function.update_of_ne hi, hlast]

/-- What the invariant does not speak about may change. -/
theorem Inv.frame (h : s.Inv n) (mem : Bucket → Nat → Option V) (msg : Option String) :
    Inv n { s with mem := mem, failMsg := msg } :=
  ⟨h.sock, h.queueIdx, h.single, h.filled, h.polling, h.sockets, h.data⟩

/-- The threads keep the invariant. -/
theorem Inv.run {nr : Int32} {v : Option V} (h : s.Inv n) (hi : i < n)
    (hs : run full knob i nr v s = some s') : s'.Inv n := by
  have hok := h.sock i hi
  unfold JObjFactory.run at hs
  cases hpc : (s.sock i).pc with
  | fetch =>
      simp only [hpc, Option.some.injEq] at hs
      subst hs
      exact h.setSock (hok.goto (by simp [hpc, ProducerPc.hands])
        (by simp [hpc, ProducerPc.toOffer]) (by simp [hpc, ProducerPc.toOfferLength])) rfl
  | pollBack nr =>
      simp only [hpc] at hs
      cases hq : (s.sock i).backQ with
      | nil =>
          simp only [hq, Option.some.injEq] at hs
          subst hs
          exact h
      | cons b q =>
          simp only [hq, Option.some.injEq] at hs
          subst hs
          exact h.setSock (hok.pollBack hpc hq) rfl
  | fill nr b j =>
      simp only [hpc] at hs
      split at hs
      · split at hs
        · simp only [Option.some.injEq] at hs
          subst hs
          have hfill : Socket.Ok i s.vBucketFilled (s.lens n i)
              { s.sock i with pc := .fill nr b (j + 1) } :=
            hok.goto (by simp [hpc, ProducerPc.hands]) (by simp [hpc, ProducerPc.toOffer])
              (by simp [hpc, ProducerPc.toOfferLength])
          exact (h.setSock hfill rfl).frame _ _
        · simp only [Option.some.injEq] at hs
          subst hs
          exact h.setSock (hok.goto (by simp [hpc, ProducerPc.hands])
            (by simp [hpc, ProducerPc.toOffer]) (by simp [hpc, ProducerPc.toOfferLength])) rfl
      · simp only [Option.some.injEq] at hs
        subst hs
        exact h.setSock (hok.filled hpc) rfl
  | offerLength nr b =>
      simp only [hpc] at hs
      split at hs
      · simp only [Option.some.injEq] at hs
        subst hs
        exact h.frame _ _
      · simp only [Option.some.injEq] at hs
        subst hs
        exact h.setSock (hok.offerLength hpc) rfl
  | offerValues b =>
      simp only [hpc] at hs
      split at hs
      · simp only [Option.some.injEq] at hs
        subst hs
        exact h
      · simp only [Option.some.injEq] at hs
        subst hs
        exact h.setSock (hok.offerValues hpc) rfl
  | dead b =>
      simp only [hpc] at hs
      contradiction

theorem lens_eq_nil (hpc : ∀ nr, s.pc ≠ .pollValues nr) (i : Nat) : s.lens n i = [] := by
  unfold lens
  cases h : s.pc with
  | pollValues nr => exact absurd h (hpc nr)
  | idle | giveBack | pollLength => rfl

/-- `rotate` touches the two indices only. -/
theorem rotate_eq (n : Nat) (s : JObjFactory V) :
    s.rotate n = { s with
      oldQueueIdx := (s.rotate n).oldQueueIdx, queueIdx := (s.rotate n).queueIdx } := by
  unfold rotate
  split
  · rfl
  · split <;> rfl

/-- The queue just looked at becomes the old one, and the next one exists. -/
theorem rotate_idx (hq : s.queueIdx < n) (hsingle : n = 1 → s.oldQueueIdx = 0) :
    (s.rotate n).oldQueueIdx = s.idx n ∧ (s.rotate n).queueIdx < n := by
  unfold rotate idx
  split
  · next h => exact ⟨hsingle h, hq⟩
  · split
    · exact ⟨rfl, by dsimp only; split <;> omega⟩
    · exact ⟨rfl, by dsimp only; split <;> omega⟩

theorem idx_lt (hq : s.queueIdx < n) : s.idx n < n := by
  unfold idx
  split
  · omega
  · exact hq

/-- The end of a call: the consumer goes on to the next queue, with the
bucket it took from this one or none. -/
theorem Inv.of_rotate (hq : s.queueIdx < n) (hsingle : n = 1 → s.oldQueueIdx = 0)
    (held : Option Bucket) (data : Option (Bucket × Int32)) (msg : Option String)
    (hsock : ∀ i < n, (s.sock i).Ok i held [])
    (hheld : ∀ b, held = some b → b.thread = s.idx n)
    (hdata : ∀ b, held = some b →
      ∃ nr, data = some (b, nr) ∧ (s.sock b.thread).fetched.getLast? = some (b, nr)) :
    Inv n { s.rotate n with vBucketFilled := held, data := data, failMsg := msg, pc := .idle } := by
  obtain ⟨hold, hnext⟩ := rotate_idx hq hsingle
  have hidx := idx_lt hq
  rw [rotate_eq]
  exact {
    sock := hsock
    queueIdx := fun _ => hnext
    single := fun h1 => by show (s.rotate n).oldQueueIdx = 0; rw [hold, idx, if_pos h1]
    filled := fun b hb => by
      show b.thread = (s.rotate n).oldQueueIdx ∧ (s.rotate n).oldQueueIdx < n
      rw [hold]
      exact ⟨hheld b hb, hidx⟩
    polling := fun hp => by simp at hp
    sockets := fun nr hp => by cases hp
    data := hdata }

/-- The consumer keeps the invariant. -/
theorem Inv.fetchVBucketNB (h : s.Inv n) (hs : fetchVBucketNB full n s = some s') : s'.Inv n := by
  unfold JObjFactory.fetchVBucketNB at hs
  cases hpc : s.pc with
  | idle =>
      simp only [hpc, Option.some.injEq] at hs
      subst hs
      have hlens : ∀ i, s.lens n i = [] := lens_eq_nil (by simp [hpc])
      refine ⟨fun i hi => ?_, h.queueIdx, h.single, h.filled, fun hp _ => ?_, fun nr hp => ?_, h.data⟩
      · have hok := h.sock i hi
        rw [hlens i] at hok
        rw [lens_eq_nil (by intro nr; dsimp only; split <;> simp)]
        exact hok
      · cases hb : s.vBucketFilled with
        | none => rfl
        | some b => simp [hb] at hp
      · dsimp only at hp
        split at hp <;> cases hp
  | giveBack =>
      simp only [hpc] at hs
      cases hb : s.vBucketFilled with
      | none => simp [hb] at hs
      | some b =>
          simp only [hb] at hs
          split at hs
          · simp only [Option.some.injEq] at hs
            subst hs
            exact h
          · simp only [Option.some.injEq] at hs
            subst hs
            obtain ⟨hthread, hlt⟩ := h.filled b hb
            have hlens : ∀ i, s.lens n i = [] := lens_eq_nil (by simp [hpc])
            refine ⟨fun i hi => ?_, h.queueIdx, h.single, nofun, fun _ _ => rfl, nofun, nofun⟩
            have hok := h.sock i hi
            rw [hlens i, hb] at hok
            rw [lens_eq_nil (by simp)]
            show (Function.update s.sock s.oldQueueIdx _ i).Ok i none []
            by_cases hi : i = s.oldQueueIdx
            · subst hi
              rw [Function.update_self]
              exact hok.giveBack hthread
            · rw [Function.update_of_ne hi]
              refine hok.foreign (fun b' hb' => ?_) nofun
              obtain rfl := Option.some.inj hb'
              exact fun ht => hi (ht.symm.trans hthread)
  | pollLength =>
      simp only [hpc] at hs
      have hlens : ∀ i, s.lens n i = [] := lens_eq_nil (by simp [hpc])
      have hsock : ∀ i < n, (s.sock i).Ok i s.vBucketFilled [] := fun i hi => by
        have hok := h.sock i hi
        rwa [hlens i] at hok
      split at hs
      · next hn =>
        simp only [Option.some.injEq] at hs
        subst hs
        exact ⟨fun i hi => absurd hi (by omega), fun h => absurd hn h, h.single, h.filled,
          fun _ h => absurd hn h, nofun, h.data⟩
      · next hn =>
        have hnone := h.polling (.inl hpc) hn
        cases hq : (s.sock (s.idx n)).lengthQ with
        | nil =>
            simp only [hq, Option.some.injEq] at hs
            subst hs
            rw [hnone] at hsock
            have hrot := Inv.of_rotate (h.queueIdx hn) h.single none s.data
              (s.failMsg <|> some "Bucket queue is empty") hsock nofun nofun
            rw [rotate_eq] at hrot ⊢
            rw [← hnone] at hrot
            exact hrot
        | cons nr q =>
            simp only [hq, Option.some.injEq] at hs
            subst hs
            refine ⟨fun i hi => ?_, h.queueIdx, h.single, ?_, fun _ _ => hnone, fun _ _ => hn, ?_⟩
            · show (Function.update s.sock (s.idx n) _ i).Ok i s.vBucketFilled
                (if i = s.idx n then [nr] else [])
              by_cases hi' : i = s.idx n
              · rw [hi', Function.update_self, if_pos rfl]
                exact (hsock _ (idx_lt (h.queueIdx hn))).takeLength hq
              · rw [Function.update_of_ne hi', if_neg hi']
                exact hsock i hi
            · intro b hb
              exact absurd (hnone.symm.trans hb) (by simp)
            · intro b hb
              exact absurd (hnone.symm.trans hb) (by simp)
  | pollValues nr =>
      simp only [hpc] at hs
      cases hq : (s.sock (s.idx n)).valuesQ with
      | nil =>
          simp only [hq, Option.some.injEq] at hs
          subst hs
          exact h
      | cons b q =>
          simp only [hq, Option.some.injEq] at hs
          subst hs
          have hn := h.sockets nr hpc
          have hnone := h.polling (.inr ⟨nr, hpc⟩) hn
          have hlt := idx_lt (h.queueIdx hn)
          have hsock : ∀ i < n, (s.sock i).Ok i none (if i = s.idx n then [nr] else []) :=
            fun i hi => by
              have hok := h.sock i hi
              rwa [hnone, lens, hpc] at hok
          have hidx : (s.sock (s.idx n)).Ok (s.idx n) none [nr] := by
            have hok := hsock _ hlt
            rwa [if_pos rfl] at hok
          have hthread := hidx.thread_eq hq
          have hrot := Inv.of_rotate (n := n) (s := s.setSock (s.idx n)
            { s.sock (s.idx n) with
              valuesQ := q, fetched := (s.sock (s.idx n)).fetched ++ [(b, nr)] })
            (h.queueIdx hn) h.single (some b) (some (b, nr)) s.failMsg ?_ ?_ ?_
          · rw [rotate_eq] at hrot ⊢
            exact hrot
          · intro i hi
            show (Function.update s.sock (s.idx n) _ i).Ok i (some b) []
            by_cases hi' : i = s.idx n
            · rw [hi', Function.update_self]
              exact hidx.takeValues hq
            · have hok := hsock i hi
              rw [if_neg hi'] at hok
              rw [Function.update_of_ne hi']
              refine hok.foreign nofun fun b' hb' => ?_
              obtain rfl := Option.some.inj hb'
              exact fun ht => hi' (ht.symm.trans hthread)
          · intro b' hb'
            obtain rfl := Option.some.inj hb'
            exact hthread
          · intro b' hb'
            obtain rfl := Option.some.inj hb'
            refine ⟨nr, rfl, ?_⟩
            show (Function.update s.sock (s.idx n) _ b.thread).fetched.getLast? = some (b, nr)
            rw [hthread, Function.update_self]
            simp

/-- Every state of the factory satisfies the invariant. -/
theorem reach_inv (hfull : ∀ cap m, full cap m = true → cap ≤ m)
    (hr : Reach (step full n knob) (initZVBucketOpt full) anyStep s) : s.Inv n := by
  refine hr.invariant (Inv.init hfull) fun s l s' h _ hs => ?_
  cases l with
  | producer i nr v =>
      simp only [step] at hs
      split at hs
      · next hi => exact h.run hi hs
      · contradiction
  | consumer => exact h.fetchVBucketNB hs

/-- A thread does not store into a bucket that the consumer has. -/
theorem Inv.mem_run {nr : Int32} {v : Option V} {b : Bucket} (h : s.Inv n) (hi : i < n)
    (hb : s.vBucketFilled = some b) (hs : JObjFactory.run full knob i nr v s = some s') :
    s'.mem b = s.mem b := by
  unfold JObjFactory.run at hs
  cases hpc : (s.sock i).pc with
  | fill nr b' j =>
      have hne : b ≠ b' := by
        intro he
        have hplace := (h.sock i hi).place b
        rw [hb, hpc, he] at hplace
        simp only [ProducerPc.hands, Option.toList_some, List.count_singleton_self] at hplace
        grind
      simp only [hpc] at hs
      split at hs
      · split at hs
        · simp only [Option.some.injEq] at hs
          subst hs
          exact Function.update_of_ne hne _ _
        · simp only [Option.some.injEq] at hs
          subst hs
          rfl
      · simp only [Option.some.injEq] at hs
        subst hs
        rfl
  | fetch | pollBack _ | offerLength _ _ | offerValues _ | dead _ =>
      simp only [hpc] at hs
      grind [JObjFactory.setSock, JObjFactory.mark]

/-- While the consumer has a bucket, its next step keeps it or gives it back
to the thread it came from. -/
theorem Inv.held_fetchVBucketNB {b : Bucket} (h : s.Inv n) (hb : s.vBucketFilled = some b)
    (hs : JObjFactory.fetchVBucketNB full n s = some s') :
    s'.mem b = s.mem b ∧ (s'.vBucketFilled = some b ∨ s'.vBucketFilled = none ∧
      (s'.sock b.thread).backQ = (s.sock b.thread).backQ ++ [b]) := by
  unfold JObjFactory.fetchVBucketNB at hs
  cases hpc : s.pc with
  | idle =>
      simp only [hpc, Option.some.injEq] at hs
      subst hs
      exact ⟨rfl, .inl hb⟩
  | giveBack =>
      simp only [hpc, hb] at hs
      split at hs
      · simp only [Option.some.injEq] at hs
        subst hs
        exact ⟨rfl, .inl hb⟩
      · simp only [Option.some.injEq] at hs
        subst hs
        refine ⟨rfl, .inr ⟨rfl, ?_⟩⟩
        rw [(h.filled b hb).1, JObjFactory.setSock]
        simp only [Function.update_self]
  | pollLength =>
      simp only [hpc] at hs
      split at hs
      · simp only [Option.some.injEq] at hs
        subst hs
        exact ⟨rfl, .inl hb⟩
      · next hn => exact absurd ((h.polling (.inl hpc) hn).symm.trans hb) (by simp)
  | pollValues nr =>
      have hnone := h.polling (.inr ⟨nr, hpc⟩) (h.sockets nr hpc)
      exact absurd (hnone.symm.trans hb) (by simp)

/-- What recycling the buckets promises of a state. -/
structure Recycled (full : Nat → Nat → Bool) (n knob : Nat) (s : JObjFactory V) : Prop where
  /-- a bucket is in exactly one of the back queue, the producer's hands, the
  values queue and the consumer's hands, and nowhere at another socket -/
  place : ∀ i < n, ∀ k ≤ queueSize,
    (s.sock i).backQ.count ⟨i, k⟩ + (s.sock i).pc.hands.count ⟨i, k⟩ +
      (s.sock i).valuesQ.count ⟨i, k⟩ + s.vBucketFilled.toList.count ⟨i, k⟩ = 1 ∧
    ∀ j < n, j ≠ i → (s.sock j).backQ.count ⟨i, k⟩ + (s.sock j).pc.hands.count ⟨i, k⟩ +
      (s.sock j).valuesQ.count ⟨i, k⟩ = 0
  /-- the consumer's bucket is the one its last fetch returned, with its
  length -/
  returned : ∀ b, s.vBucketFilled = some b → b.thread < n ∧
    ∃ nr, s.data = some (b, nr) ∧ (s.sock b.thread).fetched.getLast? = some (b, nr)
  /-- no step changes the content of the consumer's bucket -/
  stable : ∀ b, s.vBucketFilled = some b → ∀ l s', step full n knob s l = some s' →
    s'.mem b = s.mem b
  /-- it stays the consumer's until it goes to the back queue it came from -/
  givenBack : ∀ b, s.vBucketFilled = some b → ∀ l s', step full n knob s l = some s' →
    s'.vBucketFilled = some b ∨ l = .consumer ∧ s'.vBucketFilled = none ∧
      (s'.sock b.thread).backQ = (s.sock b.thread).backQ ++ [b]
  /-- what was fetched, buckets with their lengths, is what was produced first -/
  order : ∀ i < n, (s.sock i).fetched <+: (s.sock i).produced
  /-- and the rest is in the values queue or about to be put there -/
  complete : ∀ i < n, (s.sock i).produced.map Prod.fst =
    (s.sock i).fetched.map Prod.fst ++ (s.sock i).valuesQ ++ (s.sock i).pc.toOffer

theorem vBucketFilled_run {nr : Int32} {v : Option V}
    (hs : JObjFactory.run full knob i nr v s = some s') : s'.vBucketFilled = s.vBucketFilled := by
  unfold JObjFactory.run at hs
  cases hpc : (s.sock i).pc with
  | fetch | pollBack _ | fill _ _ _ | offerLength _ _ | offerValues _ | dead _ =>
      simp only [hpc] at hs
      grind [JObjFactory.setSock, JObjFactory.mark]

/-- **The buckets are recycled safely**, for every number of sockets and
every interleaving of the threads with the consumer. -/
theorem buckets_recycled (full : Nat → Nat → Bool) (hfull : ∀ cap m, full cap m = true → cap ≤ m)
    (n knob : Nat) (s : JObjFactory V)
    (hr : Reach (step full n knob) (initZVBucketOpt full) anyStep s) : Recycled full n knob s := by
  have h := reach_inv hfull hr
  refine ⟨fun i hi k hk => ⟨?_, fun j hj hji => ?_⟩, fun b hb => ?_, fun b hb l s' hs => ?_,
    fun b hb l s' hs => ?_, fun i hi => (h.sock i hi).fetched_initial,
    fun i hi => (h.sock i hi).values⟩
  · have hplace := (h.sock i hi).place ⟨i, k⟩
    rwa [if_pos rfl, if_pos ⟨rfl, hk⟩] at hplace
  · have hplace := (h.sock j hj).place ⟨i, k⟩
    rwa [if_neg (Ne.symm hji), if_neg fun hm => hji hm.1.symm] at hplace
  · obtain ⟨hthread, hlt⟩ := h.filled b hb
    exact ⟨hthread ▸ hlt, h.data b hb⟩
  · cases l with
    | producer i nr v =>
        simp only [step] at hs
        split at hs
        · next hi => exact h.mem_run hi hb hs
        · contradiction
    | consumer => exact (h.held_fetchVBucketNB hb hs).1
  · cases l with
    | producer i nr v =>
        simp only [step] at hs
        split at hs
        · exact .inl ((vBucketFilled_run hs).trans hb)
        · contradiction
    | consumer =>
        obtain hkeep | hback := (h.held_fetchVBucketNB hb hs).2
        · exact .inl hkeep
        · exact .inr ⟨rfl, hback⟩

/-- A queue that holds what it was made for. -/
def exactly (cap m : Nat) : Bool := decide (cap ≤ m)

theorem buckets_recycled_after_fetch :
    ∃ s : JObjFactory Nat, s.vBucketFilled = some ⟨1, 0⟩ ∧ s.data = some (⟨1, 0⟩, 2) ∧
      Recycled exactly 3 800 s := by
  -- socket 1 delivers a bucket with two tuples; the consumer finds it with its second call
  have hrun : ∃ s : JObjFactory Nat,
      Reach (step exactly 3 800) (initZVBucketOpt exactly) anyStep s ∧
        decide (s.vBucketFilled = some ⟨1, 0⟩ ∧ s.data = some (⟨1, 0⟩, 2)) = true :=
    Reach.of_exec_any
      (List.replicate 7 (.producer 1 2 (some 5)) ++ List.replicate 5 .consumer) _
      (by decide +kernel)
  obtain ⟨s, hr, hs⟩ := hrun
  simp only [decide_eq_true_eq] at hs
  exact ⟨s, hs.1, hs.2,
    buckets_recycled exactly (fun cap m h => by simpa [exactly] using h) 3 800 s hr⟩

end Factory

end JObjFactory

end CloudProfiler
