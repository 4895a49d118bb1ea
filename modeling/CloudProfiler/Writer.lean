import Mathlib.Logic.Function.Basic
import CloudProfiler.Block
import CloudProfiler.Resequence

/-!
# CloudProfiler.Writer

The file side of the I/O thread (`io_thread.cpp`): the reorder tables
`next_block` and `pending`, the channels' files, and the two functions that
write a block.

`next_block` and `pending` are vectors indexed by the channel number; a
`Sink` keeps their entries and the size of `pending`, and an access beyond
the size is undefined behaviour, `none` here.  So are writing the NULL image
of a block whose compression failed, and the increment of an entry of
`next_block` beyond `INT_MAX`.

The compression threads finish blocks in any order.  `writeCompressedBlock`
is a resequencer (`CloudProfiler.Resequence`) per channel:
`writeCompressedBlock_arrive` says so, and
`arrivals_written_in_order` follows from the resequencer's laws for every
interleaving of every arrival order.
-/

namespace CloudProfiler

/-- Size of `next_block`, and number of queues `createPriorityQueue` adds. -/
def nextBlockSize : Nat := 200

/-- What the I/O thread writes to: the reorder tables and the files. -/
structure Sink where
  nextBlock : Nat → Nat
  pending : Nat → List Packed
  pendingSize : Nat
  chLogf : Nat → Ofstream

/-- The tables before the first I/O thread starts; no file is open. -/
def Sink.init : Sink := ⟨fun _ => 0, fun _ => [], 0, fun _ => .unopened⟩

/-- Replace the file of channel `c`. -/
def Sink.setLogf (k : Sink) (c : Nat) (f : Ofstream) : Sink :=
  { k with chLogf := Function.update k.chLogf c f }

/-- `createPriorityQueue`: every start of an I/O thread adds 200 queues. -/
def createPriorityQueue (k : Sink) : Sink :=
  { k with pendingSize := k.pendingSize + nextBlockSize }

/-- The record loop of `writeUncompressedBlock` and the close that may
follow it. -/
def writeRecords (w : WriteHandler) (f : Ofstream) (ds : List LogData) (closeFile : Bool) :
    Ofstream :=
  let f := ds.foldl (fun f d => f.write (w.bytes d)) f
  if closeFile then f.close else f

/-- `writeCompressed`. -/
def writeCompressed (f : Ofstream) (b : Packed) : Option Ofstream :=
  b.image.map fun bs => (f.write (leBytes 4 bs.length)).write bs

/-- `next_block[channel]++`. -/
def nextId (n : Nat) : Option Nat := if n < intMax then some (n + 1) else none

/-- The loop of `writeCompressedBlock` over the pending queue of a channel,
from `next_block` and the file to what they are after it. -/
def writePending : Nat → Ofstream → List Packed → Option (Nat × Ofstream × List Packed)
  | n, f, [] => some (n, f, [])
  | n, f, t :: q =>
      if t.blockId = n then
        (writeCompressed f t).bind fun f => (nextId n).bind fun n =>
          writePending n (if t.closeFile then f.close else f) q
      else
        some (n, f, t :: q)

/-- `writeCompressedBlock`. -/
def writeCompressedBlock (k : Sink) (data : Packed) : Option Sink :=
  if data.ch < nextBlockSize ∧ data.ch < k.pendingSize then
    if data.blockId = k.nextBlock data.ch then
      (writeCompressed (k.chLogf data.ch) data).bind fun f =>
        (nextId (k.nextBlock data.ch)).bind fun n =>
          (writePending n f (k.pending data.ch)).map fun (n, f, q) =>
            { k with
              nextBlock := Function.update k.nextBlock data.ch n
              pending := Function.update k.pending data.ch q
              chLogf := Function.update k.chLogf data.ch (if data.closeFile then f.close else f) }
    else
      some { k with
        pending := Function.update k.pending data.ch
          (pqPush Packed.blockId data (k.pending data.ch)) }
  else
    none

/-! ## what reaches the file -/

/-- The records of a block go out one after the other. -/
theorem writeRecords_eq (w : WriteHandler) (f : Ofstream) (ds : List LogData) (c : Bool) :
    writeRecords w f ds c =
      if c then (f.write (ds.flatMap w.bytes)).close else f.write (ds.flatMap w.bytes) := by
  have h : ds.foldl (fun f d => f.write (w.bytes d)) f = f.write (ds.flatMap w.bytes) := by
    induction ds generalizing f with
    | nil => simp
    | cons d ds ih => rw [List.foldl_cons, ih, Ofstream.write_append, List.flatMap_cons]
  simp only [writeRecords, h]

/-- The bytes of a compressed block in the file. -/
def Packed.bytes (b : Packed) : List UInt8 := sizePrefixed (b.image.getD [])

/-- Write a block and close the file behind it if it says so. -/
def Ofstream.put (f : Ofstream) (b : Packed) : Ofstream :=
  if b.closeFile then (f.write b.bytes).close else f.write b.bytes

/-- A compressed block that can be written: it has its image, and its id has
a successor. -/
def Packed.Writable (b : Packed) : Prop := b.image.isSome ∧ b.blockId < intMax

theorem nextId_eq {n : Nat} (h : n < intMax) : nextId n = some (n + 1) := if_pos h

theorem writeCompressed_eq {b : Packed} (f : Ofstream) (h : b.image.isSome) :
    writeCompressed f b = some (f.write b.bytes) := by
  obtain ⟨bs, hbs⟩ := Option.isSome_iff_exists.mp h
  simp [writeCompressed, Packed.bytes, sizePrefixed, hbs, Ofstream.write_append]

/-- The pending loop releases a run of the queue. -/
theorem writePending_eq (n : Nat) (f : Ofstream) (q : List Packed)
    (h : ∀ b ∈ q, b.Writable) :
    writePending n f q =
      some (n + (takeRun Packed.blockId n q).length, (takeRun Packed.blockId n q).foldl .put f,
        dropRun Packed.blockId n q) := by
  induction q generalizing n f with
  | nil => rfl
  | cons t q ih =>
      simp only [writePending, takeRun, dropRun]
      split
      · next hid =>
        obtain ⟨himg, hlt⟩ := h t List.mem_cons_self
        have hq : ∀ b ∈ q, b.Writable := fun b hb => h b (List.mem_cons_of_mem t hb)
        rw [writeCompressed_eq f himg, Option.bind_some, nextId_eq (hid ▸ hlt), Option.bind_some,
          ih _ _ hq, List.length_cons, List.foldl_cons, Ofstream.put]
        simp only [Nat.add_assoc, Nat.add_comm 1]
      · rfl

/-! ## one channel as a resequencer -/

/-- The entries of channel `c` are those of a resequencer that has emitted
its output into the file `f₀`. -/
structure Tracks (f₀ : Ofstream) (k : Sink) (c : Nat) (r : Reseq Packed) : Prop where
  nextBlock : k.nextBlock c = r.out.length
  pending : k.pending c = r.parked
  chLogf : k.chLogf c = r.out.foldl .put f₀

/-- The entries of channel `c` are the same in both sinks. -/
structure SameAt (k k' : Sink) (c : Nat) : Prop where
  nextBlock : k'.nextBlock c = k.nextBlock c
  pending : k'.pending c = k.pending c
  chLogf : k'.chLogf c = k.chLogf c

theorem Tracks.congr {f₀ : Ofstream} {k k' : Sink} {c : Nat} {r : Reseq Packed}
    (h : Tracks f₀ k c r) (hs : SameAt k k' c) : Tracks f₀ k' c r :=
  ⟨hs.nextBlock.trans h.nextBlock, hs.pending.trans h.pending, hs.chLogf.trans h.chLogf⟩

/-- **One block**: `writeCompressedBlock` is an arrival at the resequencer of
its channel and touches no other channel. -/
theorem writeCompressedBlock_arrive {f₀ : Ofstream} {k : Sink} {b : Packed} {r : Reseq Packed}
    (hidx : b.ch < nextBlockSize ∧ b.ch < k.pendingSize) (ht : Tracks f₀ k b.ch r)
    (hwrit : ∀ x ∈ b :: r.parked, x.Writable)
    (hclose : b.closeFile = true → b.blockId = r.out.length → r.parked = []) :
    ∃ k', writeCompressedBlock k b = some k' ∧ Tracks f₀ k' b.ch (r.arrive Packed.blockId b) ∧
      (∀ c, c ≠ b.ch → SameAt k k' c) ∧ k'.pendingSize = k.pendingSize := by
  unfold writeCompressedBlock
  rw [if_pos hidx, ht.nextBlock, ht.pending, Reseq.arrive]
  by_cases hid : b.blockId = r.out.length
  · obtain ⟨himg, hlt⟩ := hwrit b List.mem_cons_self
    rw [if_pos hid, if_pos hid, writeCompressed_eq _ himg, Option.bind_some, nextId_eq (hid ▸ hlt),
      Option.bind_some, writePending_eq _ _ _ fun x hx => hwrit x (List.mem_cons_of_mem b hx)]
    refine ⟨_, rfl, ⟨?_, ?_, ?_⟩, fun c hc => ⟨?_, ?_, ?_⟩, rfl⟩
    · simp only [Function.update_self, List.length_append, List.length_cons]
      omega
    · simp only [Function.update_self]
    · -- a closing block has nothing parked behind it, so the close comes last either way
      simp only [Function.update_self, List.foldl_append, List.foldl_cons, ht.chLogf]
      by_cases hc : b.closeFile = true
      · simp [Ofstream.put, hc, hclose hc hid, takeRun]
      · simp [Ofstream.put, hc]
    all_goals simp only [Function.update_of_ne hc]
  · rw [if_neg hid, if_neg hid]
    refine ⟨_, rfl, ⟨ht.nextBlock, ?_, ht.chLogf⟩, fun c hc => ⟨rfl, ?_, rfl⟩, rfl⟩
    · simp only [Function.update_self]
    · simp only [Function.update_of_ne hc]

/-- A block touches the entries of its channel only. -/
theorem writeCompressedBlock_frame {k k' : Sink} {b : Packed} {c : Nat}
    (h : writeCompressedBlock k b = some k') (hc : c ≠ b.ch) : SameAt k k' c := by
  unfold writeCompressedBlock at h
  split at h
  · split at h
    · simp only [Option.bind_eq_some_iff, Option.map_eq_some_iff, Prod.exists] at h
      obtain ⟨f, -, n, -, n', f', q, -, rfl⟩ := h
      constructor <;> simp only [Function.update_of_ne hc]
    · cases h
      exact ⟨rfl, Function.update_of_ne hc _ _, rfl⟩
  · contradiction

theorem writeCompressedBlock_pendingSize {k k' : Sink} {b : Packed}
    (h : writeCompressedBlock k b = some k') : k'.pendingSize = k.pendingSize := by
  unfold writeCompressedBlock at h
  split at h
  · split at h
    · simp only [Option.bind_eq_some_iff, Option.map_eq_some_iff, Prod.exists] at h
      obtain ⟨f, -, n, -, n', f', q, -, rfl⟩ := h
      rfl
    · cases h
      rfl
  · contradiction

/-! ## every arrival order -/

/-- The blocks of a channel in the order of their ids `0, 1, …`: each has its
compressed image, the last one and no other carries `close_file`, and there
are fewer than `2 ^ 31`, so that their number is an `int`. -/
structure Numbered (c : Nat) (B : List Packed) : Prop where
  ch : ∀ b ∈ B, b.ch = c
  ids : B.map Packed.blockId = List.range B.length
  bound : B.length ≤ intMax
  close : ∀ b ∈ B, b.closeFile = true ↔ b.blockId + 1 = B.length
  image : ∀ b ∈ B, b.image.isSome

/-- Position and id agree in a list of blocks numbered from `0`. -/
theorem blockId_of_getElem? {l : List Packed} (hids : l.map Packed.blockId = List.range l.length)
    {i : Nat} {b : Packed} (hb : l[i]? = some b) : b.blockId = i := by
  have hlt : i < l.length := (List.getElem?_eq_some_iff.mp hb).1
  have h := congrArg (fun m : List Nat => m[i]?) hids
  simp only [List.getElem?_map, hb, Option.map_some, List.getElem?_range hlt] at h
  exact Option.some.inj h

/-- Block `i` of the channel is the one with id `i`. -/
theorem Numbered.getElem? {c : Nat} {B : List Packed} (h : Numbered c B) {b : Packed}
    (hb : b ∈ B) : B[b.blockId]? = some b := by
  obtain ⟨i, hi⟩ := List.mem_iff_getElem?.mp hb
  rw [blockId_of_getElem? h.ids hi, hi]

/-- Every block of the channel can be written. -/
theorem Numbered.writable {c : Nat} {B : List Packed} (h : Numbered c B) {b : Packed}
    (hb : b ∈ B) : b.Writable := by
  have hlt := (List.getElem?_eq_some_iff.mp (h.getElem? hb)).1
  exact ⟨h.image b hb, Nat.lt_of_lt_of_le hlt h.bound⟩

/-- Blocks with ids `0, …, m - 1` are the first `m` blocks. -/
theorem Numbered.eq_take {c : Nat} {B out : List Packed} (h : Numbered c B)
    (hsub : ∀ b ∈ out, b ∈ B) (hids : out.map Packed.blockId = List.range out.length) :
    out = B.take out.length := by
  refine List.ext_getElem? fun i => ?_
  cases hi : out[i]? with
  | none =>
      have hle := List.getElem?_eq_none_iff.mp hi
      rw [List.getElem?_eq_none (by rw [List.length_take]; omega)]
  | some b =>
      have hlt := (List.getElem?_eq_some_iff.mp hi).1
      have hB := h.getElem? (hsub b (List.mem_of_getElem? hi))
      rw [blockId_of_getElem? hids hi] at hB
      rw [List.getElem?_take_of_lt hlt, hB]

/-- A block that is not the last leaves the file open. -/
theorem foldl_put_of_not_close {f : Ofstream} {l : List Packed}
    (h : ∀ b ∈ l, b.closeFile = false) : l.foldl .put f = f.write (l.flatMap Packed.bytes) := by
  induction l generalizing f with
  | nil => simp
  | cons b l ih =>
      rw [List.foldl_cons, ih fun x hx => h x (List.mem_cons_of_mem b hx), List.flatMap_cons,
        Ofstream.put, h b List.mem_cons_self, ← Ofstream.write_append]
      rfl

/-- The blocks in front of block `j` have smaller ids. -/
theorem Numbered.blockId_lt {c : Nat} {B : List Packed} (h : Numbered c B) {j : Nat} {b : Packed}
    (hb : b ∈ B.take j) : b ∈ B ∧ b.blockId < j := by
  obtain ⟨i, hi⟩ := List.mem_iff_getElem?.mp hb
  have hij : i < j := by
    have := (List.getElem?_eq_some_iff.mp hi).1
    rw [List.length_take] at this
    omega
  rw [List.getElem?_take_of_lt hij] at hi
  exact ⟨List.mem_of_getElem? hi, by rw [blockId_of_getElem? h.ids hi]; exact hij⟩

/-- The file of a channel after its first `m` blocks. -/
theorem Numbered.foldl_put_take {c : Nat} {B : List Packed} (h : Numbered c B) (hB : B ≠ [])
    {m : Nat} (hm : m ≤ B.length) :
    (B.take m).foldl Ofstream.put Ofstream.opened =
      ⟨(B.take m).flatMap Packed.bytes, decide (m < B.length), if m = B.length then 1 else 0⟩ := by
  have hopen : ∀ j, j < B.length → ∀ b ∈ B.take j, b.closeFile = false := by
    intro j hj b hb
    obtain ⟨hmem, hlt⟩ := h.blockId_lt hb
    refine Bool.eq_false_iff.mpr fun hc => ?_
    have := (h.close b hmem).mp hc
    omega
  obtain hlt | hge := Nat.lt_or_ge m B.length
  · rw [foldl_put_of_not_close (hopen m hlt)]
    simp [Ofstream.write, Ofstream.opened, hlt, Nat.ne_of_lt hlt]
  · -- the last block closes the file behind itself
    obtain ⟨B', b, rfl⟩ := (List.eq_nil_or_concat' B).resolve_left hB
    have hmlen : m = (B' ++ [b]).length := Nat.le_antisymm hm hge
    have hB' := hopen B'.length (by simp)
    rw [List.take_left] at hB'
    have hlast : (B' ++ [b])[B'.length]? = some b := by simp
    have hclose : b.closeFile = true :=
      (h.close b (by simp)).mpr (by simp [blockId_of_getElem? h.ids hlast])
    rw [hmlen, List.take_length, List.foldl_append, foldl_put_of_not_close hB']
    simp [Ofstream.put, hclose, Ofstream.write, Ofstream.opened, Ofstream.close]

/-- What is known of channel `c` after the arrivals `pre`: its entries track
a resequencer that has seen exactly the blocks of `c` in `pre`. -/
def ArrivedAt (k₀ k : Sink) (pre : List Packed) (c : Nat) : Prop :=
  ∃ r, Tracks (k₀.chLogf c) k c r ∧ r.Ok Packed.blockId ∧
    (r.out ++ r.parked).Perm (pre.filter (·.ch == c))

section Arrivals

variable {B : Nat → List Packed} {arr : List Packed} {k₀ : Sink}
  (hB : ∀ c, Numbered c (B c)) (harr : ∀ c, (arr.filter (·.ch == c)).Perm (B c))
  (hidx : ∀ c, B c ≠ [] → c < nextBlockSize ∧ c < k₀.pendingSize)
include hB harr hidx

/-- Step lemma: one more arrival. -/
theorem arrivedAt_step {pre post : List Packed} {b : Packed} {k : Sink}
    (happ : arr = pre ++ b :: post) (hsize : k.pendingSize = k₀.pendingSize)
    (h : ∀ c, B c ≠ [] → ArrivedAt k₀ k pre c) :
    ∃ k', writeCompressedBlock k b = some k' ∧ k'.pendingSize = k₀.pendingSize ∧
      ∀ c, B c ≠ [] → ArrivedAt k₀ k' (pre ++ [b]) c := by
  -- the blocks of `b`'s channel that have arrived, `b` and those still to come
  have hperm : (pre.filter (·.ch == b.ch) ++ b :: post.filter (·.ch == b.ch)).Perm (B b.ch) := by
    have := harr b.ch
    rwa [happ, List.filter_append, List.filter_cons_of_pos (by simp)] at this
  have hbB : b ∈ B b.ch := hperm.mem_iff.mp (by simp)
  have hne : B b.ch ≠ [] := List.ne_nil_of_mem hbB
  obtain ⟨r, ht, hok, hseen⟩ := h b.ch hne
  have hseenB : ∀ x ∈ r.out ++ r.parked, x ∈ B b.ch := fun x hx =>
    hperm.mem_iff.mp (List.mem_append_left _ (hseen.mem_iff.mp hx))
  have hnew : ∀ x ∈ r.out ++ r.parked, x.blockId ≠ b.blockId := by
    have hnodup : ((pre.filter (·.ch == b.ch) ++ b :: post.filter (·.ch == b.ch)).map
        Packed.blockId).Nodup := by
      rw [(hperm.map Packed.blockId).nodup_iff, (hB b.ch).ids]
      exact List.nodup_range
    rw [List.map_append, List.map_cons, List.nodup_append] at hnodup
    intro x hx
    exact hnodup.2.2 x.blockId (List.mem_map_of_mem (hseen.mem_iff.mp hx)) b.blockId (by simp)
  have hwrit : ∀ x ∈ b :: r.parked, x.Writable := by
    intro x hx
    obtain rfl | hx := List.mem_cons.mp hx
    · exact (hB _).writable hbB
    · exact (hB _).writable (hseenB x (List.mem_append_right _ hx))
  have hclose : b.closeFile = true → b.blockId = r.out.length → r.parked = [] := by
    intro hc hid
    have hlast := ((hB b.ch).close b hbB).mp hc
    refine List.eq_nil_iff_forall_not_mem.mpr fun x hx => ?_
    have hxB := hseenB x (List.mem_append_right _ hx)
    have hxlt := (List.getElem?_eq_some_iff.mp ((hB b.ch).getElem? hxB)).1
    have hxge := hok.parked.2 x hx
    omega
  obtain ⟨k', hw, ht', hother, hsz⟩ :=
    writeCompressedBlock_arrive ⟨(hidx b.ch hne).1, by rw [hsize]; exact (hidx b.ch hne).2⟩ ht
      hwrit hclose
  refine ⟨k', hw, hsz.trans hsize, fun c hc => ?_⟩
  by_cases hcb : c = b.ch
  · subst hcb
    refine ⟨r.arrive Packed.blockId b, ht', Reseq.arrive_ok hok hnew, ?_⟩
    rw [List.filter_append, List.filter_cons_of_pos (by simp), List.filter_nil]
    exact (Reseq.arrive_perm r b).trans
      ((hseen.cons b).trans (List.perm_append_singleton b _).symm)
  · obtain ⟨r', ht'', hok', hseen'⟩ := h c hc
    refine ⟨r', ht''.congr (hother c hcb), hok', ?_⟩
    rw [List.filter_append, List.filter_cons_of_neg (by simpa using Ne.symm hcb), List.filter_nil,
      List.append_nil]
    exact hseen'

/-- Run lemma: every prefix of the arrivals is processed without undefined
behaviour. -/
theorem arrivedAt_prefix (hk : ∀ c, B c ≠ [] → k₀.nextBlock c = 0 ∧ k₀.pending c = [])
    (pre : List Packed) : ∀ post, arr = pre ++ post → ∃ k, pre.foldlM writeCompressedBlock k₀ = some k ∧
      k.pendingSize = k₀.pendingSize ∧ ∀ c, B c ≠ [] → ArrivedAt k₀ k pre c := by
  induction pre using List.reverseRecOn with
  | nil =>
      intro _ _
      refine ⟨k₀, rfl, rfl, fun c hc => ⟨⟨[], []⟩, ?_, ⟨rfl, List.Pairwise.nil, by simp⟩, by simp⟩⟩
      exact ⟨(hk c hc).1, (hk c hc).2, rfl⟩
  | append_singleton pre b ih =>
      intro post happ
      rw [List.append_assoc, List.singleton_append] at happ
      obtain ⟨k, hpre, hsize, hinv⟩ := ih (b :: post) happ
      obtain ⟨k', hb, hsize', hinv'⟩ := arrivedAt_step hB harr hidx happ hsize hinv
      refine ⟨k', ?_, hsize', hinv'⟩
      rw [List.foldlM_append, hpre]
      simpa using hb

end Arrivals

/-- Channel `c`, with blocks `B`, after the arrivals `pre`: the blocks in the
file are exactly those with an id below `next_block`, in order, all of which
have arrived; `pending` holds exactly the arrived ids from `next_block` on;
the file is closed, once, when the last block is in it and not before. -/
structure PrefixWritten (k : Sink) (c : Nat) (B pre : List Packed) : Prop where
  le : k.nextBlock c ≤ B.length
  file : k.chLogf c = ⟨(B.take (k.nextBlock c)).flatMap Packed.bytes,
    decide (k.nextBlock c < B.length), if k.nextBlock c = B.length then 1 else 0⟩
  arrived : (List.range (k.nextBlock c)).Perm
    (((pre.filter (·.ch == c)).map Packed.blockId).filter (· < k.nextBlock c))
  pending : ((k.pending c).map Packed.blockId).Perm
    (((pre.filter (·.ch == c)).map Packed.blockId).filter (k.nextBlock c ≤ ·))

/-- What `ArrivedAt` amounts to on the file and the tables. -/
theorem ArrivedAt.prefixWritten {k₀ k : Sink} {pre : List Packed} {c : Nat} {B : List Packed}
    (h : ArrivedAt k₀ k pre c) (hB : Numbered c B) (hne : B ≠ [])
    (hf : k₀.chLogf c = Ofstream.opened) (hsub : ∀ b ∈ pre, b.ch = c → b ∈ B) :
    PrefixWritten k c B pre := by
  obtain ⟨r, ht, hok, hseen⟩ := h
  have hmem : ∀ b ∈ r.out ++ r.parked, b ∈ B := fun b hb => by
    have := List.mem_filter.mp (hseen.mem_iff.mp hb)
    exact hsub b this.1 (by simpa using this.2)
  have hout : r.out = B.take r.out.length :=
    hB.eq_take (fun b hb => hmem b (List.mem_append_left _ hb)) hok.out
  have hle : r.out.length ≤ B.length := by
    have := congrArg List.length hout
    rw [List.length_take] at this
    omega
  have hids : (r.out.map Packed.blockId ++ r.parked.map Packed.blockId).Perm
      ((pre.filter (·.ch == c)).map Packed.blockId) := by
    rw [← List.map_append]
    exact hseen.map _
  have hparked : ∀ i ∈ r.parked.map Packed.blockId, r.out.length < i := by
    intro i hi
    obtain ⟨b, hb, rfl⟩ := List.mem_map.mp hi
    exact hok.parked.2 b hb
  constructor <;> rw [ht.nextBlock]
  · exact hle
  · rw [ht.chLogf, hf, hout, List.length_take, Nat.min_eq_left hle]
    exact hB.foldl_put_take hne hle
  · refine List.Perm.trans ?_ (hids.filter _)
    rw [List.filter_append, hok.out, List.filter_eq_self.mpr (by simp), List.filter_eq_nil_iff.mpr
      fun i hi => by simpa using Nat.le_of_lt (hparked i hi), List.append_nil]
  · rw [ht.pending]
    refine List.Perm.trans ?_ (hids.filter _)
    rw [List.filter_append, hok.out, List.filter_eq_nil_iff.mpr (by simp), List.nil_append,
      List.filter_eq_self.mpr fun i hi => by simpa using Nat.le_of_lt (hparked i hi)]

/-- **Out-of-order blocks are written in order.**  For every family of
channels with valid numbers, each with blocks `0, …, n - 1` (fewer than
`2 ^ 31`, so that `next_block` does not overflow), and every
interleaving of arbitrary arrival orders: after every prefix of the arrivals
the files hold a prefix of the blocks and the rest of what arrived is
pending, and after all of them every file holds all its blocks, in order,
and has been closed once, with nothing pending. -/
theorem arrivals_written_in_order (B : Nat → List Packed) (arr : List Packed) (k₀ : Sink)
    (hB : ∀ c, Numbered c (B c)) (harr : ∀ c, (arr.filter (·.ch == c)).Perm (B c))
    (hidx : ∀ c, B c ≠ [] → c < nextBlockSize ∧ c < k₀.pendingSize)
    (hk : ∀ c, B c ≠ [] → k₀.nextBlock c = 0 ∧ k₀.pending c = [] ∧ k₀.chLogf c = .opened) :
    (∀ pre post, arr = pre ++ post → ∃ k, pre.foldlM writeCompressedBlock k₀ = some k ∧
      ∀ c, B c ≠ [] → PrefixWritten k c (B c) pre) ∧
    ∃ k, arr.foldlM writeCompressedBlock k₀ = some k ∧
      ∀ c, B c ≠ [] → k.nextBlock c = (B c).length ∧ k.pending c = [] ∧
        k.chLogf c = ⟨(B c).flatMap Packed.bytes, false, 1⟩ := by
  have hrun := arrivedAt_prefix hB harr hidx fun c hc => ⟨(hk c hc).1, (hk c hc).2.1⟩
  have hsub : ∀ c, ∀ b ∈ arr, b.ch = c → b ∈ B c := fun c b hb hc =>
    (harr c).mem_iff.mp (List.mem_filter.mpr ⟨hb, by simpa using hc⟩)
  have hfacts : ∀ pre post k, arr = pre ++ post → (∀ c, B c ≠ [] → ArrivedAt k₀ k pre c) →
      ∀ c, B c ≠ [] → PrefixWritten k c (B c) pre := by
    intro pre post k happ hinv c hc
    refine (hinv c hc).prefixWritten (hB c) hc (hk c hc).2.2 fun b hb => hsub c b ?_
    rw [happ]
    exact List.mem_append_left _ hb
  refine ⟨fun pre post happ => ?_, ?_⟩
  · obtain ⟨k, hpre, -, hinv⟩ := hrun pre post happ
    exact ⟨k, hpre, hfacts pre post k happ hinv⟩
  · obtain ⟨k, hall, -, hinv⟩ := hrun arr [] (by simp)
    refine ⟨k, hall, fun c hc => ?_⟩
    obtain ⟨r, ht, hok, hseen⟩ := hinv c hc
    have hdone := hok.complete (n := (B c).length) (by
      rw [← (hB c).ids]
      exact (hseen.trans (harr c)).map _)
    have hn : k.nextBlock c = (B c).length := ht.nextBlock.trans hdone.2
    refine ⟨hn, ht.pending.trans hdone.1, ?_⟩
    have hfile := (hfacts arr [] k (by simp) hinv c hc).file
    simpa [hn] using hfile

/-- Two channels; the closing block of channel 3 arrives before its first
block and waits. -/
theorem arrivals_written_in_order_swapped :
    ∃ k, [(⟨3, 1, true, some [7]⟩ : Packed), ⟨5, 0, true, some []⟩,
        ⟨3, 0, false, some [8, 9]⟩].foldlM writeCompressedBlock
        (createPriorityQueue { Sink.init with chLogf := fun _ => .opened }) = some k ∧
      k.chLogf 3 = ⟨[2, 0, 0, 0, 8, 9, 1, 0, 0, 0, 7], false, 1⟩ := by
  have h := (arrivals_written_in_order
    (fun c => if c = 3 then [⟨3, 0, false, some [8, 9]⟩, ⟨3, 1, true, some [7]⟩]
      else if c = 5 then [⟨5, 0, true, some []⟩] else [])
    [⟨3, 1, true, some [7]⟩, ⟨5, 0, true, some []⟩, ⟨3, 0, false, some [8, 9]⟩]
    (createPriorityQueue { Sink.init with chLogf := fun _ => .opened })
    (fun c => by
      by_cases h3 : c = 3
      · subst h3; constructor <;> decide
      · by_cases h5 : c = 5
        · subst h5; constructor <;> decide
        · constructor <;> simp [h3, h5])
    (fun c => by
      by_cases h3 : c = 3
      · subst h3; decide
      · by_cases h5 : c = 5
        · subst h5; decide
        · simp [h3, h5, Ne.symm h3, Ne.symm h5])
    (fun c hc => by
      by_cases h3 : c = 3
      · subst h3; decide
      · by_cases h5 : c = 5
        · subst h5; decide
        · simp [h3, h5] at hc)
    (fun c _ => ⟨rfl, rfl, rfl⟩)).2
  obtain ⟨k, hk, hall⟩ := h
  refine ⟨k, hk, (hall 3 (by simp)).2.2.trans ?_⟩
  decide

end CloudProfiler
