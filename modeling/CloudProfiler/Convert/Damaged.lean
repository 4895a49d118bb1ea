import Mathlib.Data.List.Flatten
import CloudProfiler.Convert

/-!
# CloudProfiler.Convert.Damaged

`decompress` on any file.  A compressed log file is a sequence of blocks, each
behind its size; `splitBlocks` takes the complete ones off the front of a byte
string and leaves what is not one.

The loop makes one iteration for every complete block that fits the buffer and
a last one for the rest (`decompressBody_sizePrefixed`, `decompressBody_tail`),
whatever the codec does; a block that does not fit overruns the buffer
(`decompressBody_overrun`).  The size is used as it is read, and the result of
the codec is reported and nothing else, hence

* `decompress_contained_iff` — all reads fit the buffer and the failed blocks
  leave no trace in the output exactly when the sizes in the file do and a
  failing call of the codec leaves the size 0.
-/

namespace CloudProfiler

/-! ## the blocks of a file -/

/-- The complete block at the front of a file, and what follows it. -/
def frontBlock (file : List UInt8) : Option (List UInt8 × List UInt8) :=
  let blockSize := intAt (file.take 4)
  let rest := file.drop 4
  if 4 ≤ file.length ∧ 0 ≤ blockSize ∧ blockSize ≤ rest.length then
    some (rest.take blockSize.toNat, rest.drop blockSize.toNat)
  else
    none

theorem frontBlock_eq_some {file b rest : List UInt8} (h : frontBlock file = some (b, rest)) :
    file = sizePrefixed b ++ rest ∧ b.length < 2 ^ 31 := by
  simp only [frontBlock] at h
  split at h
  · next hc =>
    obtain ⟨h4, h0, hle⟩ := hc
    cases h
    have htake : (file.take 4).length = 4 := by simp [h4]
    obtain ⟨himg, hlt⟩ := leBytes_intAt htake h0
    have hlen : ((file.drop 4).take (intAt (file.take 4)).toNat).length =
        (intAt (file.take 4)).toNat := by
      rw [List.length_take]
      omega
    rw [sizePrefixed, hlen, himg, List.append_assoc, List.take_append_drop, List.take_append_drop]
    exact ⟨rfl, hlt⟩
  · cases h

/-- The complete blocks of a file, and what is behind them. -/
def splitBlocks (file : List UInt8) : List (List UInt8) × List UInt8 :=
  match _hf : frontBlock file with
  | some (b, rest) =>
      let p := splitBlocks rest
      (b :: p.1, p.2)
  | none => ([], file)
termination_by file.length
decreasing_by
  obtain ⟨rfl, -⟩ := frontBlock_eq_some _hf
  simp [sizePrefixed]
  omega

/-- A file is its complete blocks and a rest that does not begin with one. -/
theorem splitBlocks_eq (file : List UInt8) :
    file = (splitBlocks file).1.flatMap sizePrefixed ++ (splitBlocks file).2 ∧
      (∀ b ∈ (splitBlocks file).1, b.length < 2 ^ 31) ∧
      frontBlock (splitBlocks file).2 = none := by
  fun_induction splitBlocks file with
  | case1 file b rest h _ ih =>
      obtain ⟨hfile, hlen⟩ := frontBlock_eq_some h
      obtain ⟨hrest, hlens, htail⟩ := ih
      refine ⟨?_, fun b' hb' => ?_, htail⟩
      · rw [hfile, List.flatMap_cons, List.append_assoc]
        exact congrArg _ hrest
      · obtain rfl | hb' := List.mem_cons.mp hb'
        · exact hlen
        · exact hlens b' hb'
  | case2 file h => exact ⟨rfl, by simp, h⟩

theorem frontBlock_sizePrefixed {b : List UInt8} (rest : List UInt8) (hb : b.length < 2 ^ 31) :
    frontBlock (sizePrefixed b ++ rest) = some (b, rest) := by
  have htake : (sizePrefixed b ++ rest).take 4 = leBytes 4 b.length := by simp [sizePrefixed]
  have hdrop : (sizePrefixed b ++ rest).drop 4 = b ++ rest := by simp [sizePrefixed]
  have hfit : 4 ≤ (sizePrefixed b ++ rest).length ∧ 0 ≤ (b.length : Int) ∧
      (b.length : Int) ≤ (b ++ rest).length := by
    simp [sizePrefixed]
  simp only [frontBlock, htake, hdrop, intAt_leBytes hb]
  rw [if_pos hfit, Int.toNat_natCast, List.take_left, List.drop_left]

theorem splitBlocks_of_some {file b rest : List UInt8} (h : frontBlock file = some (b, rest)) :
    splitBlocks file = (b :: (splitBlocks rest).1, (splitBlocks rest).2) := by
  rw [splitBlocks]
  split
  · next h' =>
    rw [h] at h'
    cases h'
    rfl
  · next h' =>
    rw [h] at h'
    cases h'

theorem splitBlocks_of_none {file : List UInt8} (h : frontBlock file = none) :
    splitBlocks file = ([], file) := by
  rw [splitBlocks]
  split
  · next h' =>
    rw [h] at h'
    cases h'
  · rfl

/-- There is one way only to take a file apart. -/
theorem splitBlocks_append {blocks : List (List UInt8)} {tail : List UInt8}
    (hlen : ∀ b ∈ blocks, b.length < 2 ^ 31) (htail : frontBlock tail = none) :
    splitBlocks (blocks.flatMap sizePrefixed ++ tail) = (blocks, tail) := by
  induction blocks with
  | nil => exact splitBlocks_of_none htail
  | cons b blocks ih =>
      rw [List.flatMap_cons, List.append_assoc,
        splitBlocks_of_some (frontBlock_sizePrefixed _ (hlen b List.mem_cons_self)),
        ih fun b' hb' => hlen b' (List.mem_cons_of_mem b hb')]

/-! ## one iteration -/

/-- `block_size` when it is used in the iteration that begins in `s`. -/
def Decompress.request (s : Decompress) : Int :=
  intAt (store (s.logToRead.read 4).1 s.blockSize)

section Iteration

variable {un : Unsquash} {codec : String} {s : Decompress}

/-- The size that is read where at least its four bytes are left. -/
theorem Decompress.request_eq {file : List UInt8} {ends : Bool} (h4 : 4 ≤ file.length)
    (hsize : s.blockSize.length = 4) (hr : s.logToRead = .reading file ends) :
    s.logToRead.read 4 = (file.take 4, .reading (file.drop 4) ends) ∧
      store (file.take 4) s.blockSize = file.take 4 ∧ s.request = intAt (file.take 4) := by
  have hlen : (file.take 4).length = 4 := by
    rw [List.length_take]
    omega
  have hread : s.logToRead.read 4 = (file.take 4, .reading (file.drop 4) ends) := by
    rw [hr]
    exact Ifstream.read_take (n := 4) h4
  have hstore := store_of_length_eq (hlen.trans hsize.symm)
  exact ⟨hread, hstore, by rw [Decompress.request, hread, hstore]⟩

/-- The iteration in which the read of a block stores more bytes than the
buffer has. -/
theorem decompressBody_overrun {file : List UInt8} {ends : Bool} (h4 : 4 ≤ file.length)
    (hs : s.InSized) (hr : s.logToRead = .reading file ends) (h0 : 0 ≤ intAt (file.take 4))
    (hblock : (convBufferSize : Int) < intAt (file.take 4))
    (hrest : convBufferSize < (file.drop 4).length) :
    ∃ t, decompressBody un codec s = (t, true) ∧ t.overrun = true := by
  obtain ⟨hread, hstore, -⟩ := Decompress.request_eq h4 hs.blockSize hr
  have hstored : s.inBuf.length <
      ((Ifstream.reading (file.drop 4) ends).read (intAt (file.take 4))).1.length := by
    rw [hs.inBuf]
    by_cases hle : (intAt (file.take 4)).toNat ≤ (file.drop 4).length
    · have hget : (Ifstream.reading (file.drop 4) ends).read _ = _ := Ifstream.read_take hle
      rw [Int.toNat_of_nonneg h0] at hget
      rw [hget, List.length_take]
      omega
    · cases ends with
      | true => rwa [Ifstream.read_short _ (by omega)]
      | false => rwa [Ifstream.read_bad _ (by omega)]
  unfold decompressBody
  simp only [hread, hstore, hstored, if_true]
  exact ⟨_, rfl, rfl⟩

/-- What is there of a block cut short fits the buffer. -/
def TailFits (tail : List UInt8) : Prop :=
  0 ≤ intAt (tail.take 4) → tail.length ≤ convBufferSize + 4

/-- So it does when the block as a whole would. -/
theorem tailFits_of_size {tail blockSize : List UInt8} (ht : frontBlock tail = none)
    (hsize : blockSize.length = 4) (hle : intAt (store (tail.take 4) blockSize) ≤ convBufferSize) :
    TailFits tail := by
  intro h0
  by_cases h4 : tail.length < 4
  · omega
  · have hlen : (tail.take 4).length = 4 := by
      rw [List.length_take]
      omega
    rw [store_of_length_eq (hlen.trans hsize.symm)] at hle
    simp only [frontBlock, ite_eq_right_iff, reduceCtorEq, imp_false, not_and, Int.not_le] at ht
    have hshort := ht (by omega) h0
    rw [List.length_drop] at hshort
    omega

/-- The iteration that does not find a complete block: the end of the file is
met reading the size or reading the block, and nothing is written. -/
theorem decompressBody_tail {tail : List UInt8} (ht : frontBlock tail = none)
    (hs : s.InSized) (hr : s.logToRead = .reading tail true) :
    s.request = intAt (store (tail.take 4) s.blockSize) ∧
      ∃ t, decompressBody un codec s = (t, true) ∧ t.logToWrite = s.logToWrite ∧
        (TailFits tail → t.overrun = s.overrun) := by
  have hend : (s.logToRead.read 4).1 = tail.take 4 ∧
      ((s.logToRead.read 4).2.read s.request).2.eof = true ∧
      (TailFits tail → ((s.logToRead.read 4).2.read s.request).1.length ≤ s.inBuf.length) := by
    rw [hs.inBuf]
    by_cases h4 : tail.length < 4
    · have hread : s.logToRead.read 4 = (tail, ⟨[], true, true, true, false⟩) := by
        rw [hr]
        exact Ifstream.read_short _ (by omega)
      rw [hread, Ifstream.read_of_eof _ _ rfl, List.take_of_length_le (by omega)]
      exact ⟨rfl, rfl, fun _ => Nat.zero_le _⟩
    · obtain ⟨hread, -, hreq⟩ := Decompress.request_eq (Nat.le_of_not_lt h4) hs.blockSize hr
      simp only [frontBlock, ite_eq_right_iff, reduceCtorEq, imp_false, not_and, Int.not_le] at ht
      rw [hread, hreq]
      refine ⟨rfl, ?_⟩
      by_cases hneg : intAt (tail.take 4) < 0
      · rw [Ifstream.read_neg _ hneg]
        exact ⟨rfl, fun _ => Nat.zero_le _⟩
      · have hshort := ht (by omega) (by omega)
        rw [Ifstream.read_short _ hshort]
        refine ⟨rfl, fun hfit => ?_⟩
        have hle := hfit (by omega)
        rw [List.length_drop]
        omega
  obtain ⟨htake, heof, hfit⟩ := hend
  have hreq : s.request = intAt (store (tail.take 4) s.blockSize) := by
    rw [Decompress.request, htake]
  refine ⟨hreq, ?_⟩
  rw [Decompress.request] at heof hfit
  unfold decompressBody
  simp only [heof, if_true]
  split
  · next hover => exact ⟨_, rfl, rfl, fun hle => absurd (hfit hle) (Nat.not_le_of_lt hover)⟩
  · exact ⟨_, rfl, rfl, fun _ => rfl⟩

end Iteration

/-! ## the loop -/

/-- One iteration of the loop of `decompress`, the codec behaving as `uns i`
in its call number `i`. -/
def decompressCall (uns : Nat → Unsquash) (codec : String) (s : Nat × Decompress) :
    (Nat × Decompress) × Bool :=
  let (t, stop) := decompressBody (uns s.1) codec s.2
  ((s.1 + 1, t), stop)

/-- `decompress` with a codec whose calls need not behave alike. -/
def decompressCalls (uns : Nat → Unsquash) (codec : String) (file : Option (List UInt8))
    (mem : Nat → UInt8) (n : Nat) : Option (List UInt8) :=
  ((loop (decompressCall uns codec) n (0, .start (.opened file) mem)).bind fun s =>
    s.2.written).map fun f => f.close.content

/-- What the calls of the codec return: one call for a block, on the buffer
the previous one left. -/
def codecCalls (uns : Nat → Unsquash) (c : Codec) :
    Nat → List UInt8 → List (List UInt8) → List (Bool × Nat × List UInt8)
  | _, _, [] => []
  | i, out, b :: blocks =>
      let r := uns i c b out
      r :: codecCalls uns c (i + 1) r.2.2 blocks

/-- What a call of the codec sends to the output. -/
def imageOf (r : Bool × Nat × List UInt8) : List UInt8 := r.2.2.take r.2.1

/-- The memory of `block_size` behind some blocks. -/
def sizeBehind (blockSize : List UInt8) (blocks : List (List UInt8)) : List UInt8 :=
  blocks.foldl (fun _ b => leBytes 4 b.length) blockSize

theorem length_sizeBehind {blockSize : List UInt8} (h : blockSize.length = 4)
    (blocks : List (List UInt8)) : (sizeBehind blockSize blocks).length = 4 := by
  induction blocks generalizing blockSize with
  | nil => exact h
  | cons b blocks ih => exact ih (by simp)

section Loop

variable {s : Decompress} {blocks : List (List UInt8)} {tail : List UInt8}

/-- With one codec behaviour for all calls this is `decompress`. -/
theorem decompressCalls_const (un : Unsquash) (codec : String) (file : Option (List UInt8))
    (mem : Nat → UInt8) (n : Nat) :
    decompressCalls (fun _ => un) codec file mem n = decompress un codec file mem n := by
  have hloop : ∀ n i s, (loop (decompressCall (fun _ => un) codec) n (i, s)).map Prod.snd =
      loop (decompressBody un codec) n s := by
    intro n
    induction n with
    | zero => exact fun _ _ => rfl
    | succ n ih =>
        intro i s
        have hcall : decompressCall (fun _ => un) codec (i, s) =
            ((i + 1, (decompressBody un codec s).1), (decompressBody un codec s).2) := rfl
        rw [loop, loop, hcall]
        dsimp only
        by_cases hstop : (decompressBody un codec s).2 = true
        · rw [if_pos hstop, if_pos hstop, Option.map_some]
        · rw [if_neg hstop, if_neg hstop, ih]
  rw [decompressCalls, decompress, ← hloop n 0, Option.bind_map]
  rfl

variable (uns : Nat → Unsquash) (codec : String) (i : Nat)

/-- An iteration over a complete block that fits the buffer. -/
theorem decompressCall_block {b rest : List UInt8} {ends : Bool} (hb : b.length ≤ convBufferSize)
    (hs : s.InSized) (hr : s.logToRead = .reading (sizePrefixed b ++ rest) ends) :
    s.request = b.length ∧ ∃ t, decompressCall uns codec (i, s) = ((i + 1, t), false) ∧
      t.logToRead = .reading rest ends ∧ t.InSized ∧ t.blockSize = leBytes 4 b.length ∧
      t.overrun = s.overrun ∧
      t.outBuf = (uns i (codecNamed codec) b s.outBuf).2.2 ∧
      t.logToWrite = s.logToWrite.write (imageOf (uns i (codecNamed codec) b s.outBuf)) := by
  have hsize : convBufferSize < 2 ^ 31 := by decide
  have hread : s.logToRead.read 4 = (leBytes 4 b.length, .reading (b ++ rest) ends) := by
    rw [hr, sizePrefixed, List.append_assoc, Ifstream.read_append _ _ (by simp)]
  constructor
  · rw [Decompress.request, hread, store_of_length_eq (by simp [hs.blockSize]),
      intAt_leBytes (by omega)]
  · rw [decompressCall, decompressBody_sizePrefixed hb hs hr]
    refine ⟨_, rfl, rfl, ⟨by simp, ?_⟩, rfl, rfl, rfl, rfl⟩
    exact (length_store (by rw [hs.inBuf]; exact hb)).trans hs.inBuf

/-- An iteration over a complete block that does not. -/
theorem decompressCall_overrun {b rest : List UInt8} {ends : Bool} (hb : convBufferSize < b.length)
    (hb' : b.length < 2 ^ 31) (hs : s.InSized)
    (hr : s.logToRead = .reading (sizePrefixed b ++ rest) ends) :
    s.request = b.length ∧
      ∃ t, decompressCall uns codec (i, s) = ((i + 1, t), true) ∧ t.overrun = true := by
  have htake : (sizePrefixed b ++ rest).take 4 = leBytes 4 b.length := by simp [sizePrefixed]
  have h4 : 4 ≤ (sizePrefixed b ++ rest).length := by simp [sizePrefixed]
  have hint : intAt ((sizePrefixed b ++ rest).take 4) = b.length := by
    rw [htake, intAt_leBytes hb']
  obtain ⟨-, -, hreq⟩ := Decompress.request_eq h4 hs.blockSize hr
  obtain ⟨t, ht, hover⟩ : ∃ t, decompressBody (uns i) codec s = (t, true) ∧ t.overrun = true :=
    decompressBody_overrun h4 hs hr (by omega) (by omega) (by simp [sizePrefixed]; omega)
  exact ⟨hreq.trans hint, t, by rw [decompressCall, ht], hover⟩

/-- The iteration that finds the rest of the file. -/
theorem decompressCall_tail (ht : frontBlock tail = none) (hs : s.InSized)
    (hr : s.logToRead = .reading tail true) :
    s.request = intAt (store (tail.take 4) s.blockSize) ∧
      ∃ t, decompressCall uns codec (i, s) = ((i + 1, t), true) ∧ t.logToWrite = s.logToWrite ∧
        (TailFits tail → t.overrun = s.overrun) := by
  obtain ⟨hreq, t, hbody, hw⟩ := decompressBody_tail ht hs hr
  refine ⟨hreq, t, ?_, hw⟩
  rw [decompressCall, hbody]

/-- The sizes the iterations use, as far as a bound that keeps the buffer goes:
those of the blocks, and whatever is in `block_size` at the end. -/
theorem visits_request {P : Int → Prop} (hP : ∀ n, P n → n ≤ convBufferSize)
    (hlen : ∀ b ∈ blocks, b.length < 2 ^ 31) (htail : frontBlock tail = none) (hs : s.InSized)
    (hr : s.logToRead = .reading (blocks.flatMap sizePrefixed ++ tail) true) :
    (∀ t, Visits (decompressCall uns codec) (i, s) t → P t.2.request) ↔
      (∀ b ∈ blocks, P b.length) ∧
        P (intAt (store (tail.take 4) (sizeBehind s.blockSize blocks))) := by
  induction blocks generalizing i s with
  | nil =>
      obtain ⟨hreq, t, hcall, -⟩ := decompressCall_tail uns codec i htail hs hr
      simp only [visits_break hcall, forall_eq, hreq, List.not_mem_nil, false_implies, implies_true,
        true_and, sizeBehind, List.foldl_nil]
  | cons b blocks ih =>
      rw [List.flatMap_cons, List.append_assoc] at hr
      by_cases hb : b.length ≤ convBufferSize
      · obtain ⟨hreq, t, hcall, hr', hs', hsize', -, -, -⟩ := decompressCall_block uns codec i hb hs hr
        have hrest := ih (i + 1) (fun b' hb' => hlen b' (List.mem_cons_of_mem b hb')) hs' hr'
        rw [hsize'] at hrest
        simp only [visits_next hcall, or_imp, forall_and, forall_eq, hreq, hrest,
          List.forall_mem_cons, sizeBehind, List.foldl_cons, and_assoc]
      · -- the block that overruns the buffer keeps no such bound
        have hnot : ¬ P b.length := fun hp => hb (Int.ofNat_le.mp (hP _ hp))
        obtain ⟨hreq, t, hcall, -⟩ := decompressCall_overrun uns codec i (Nat.lt_of_not_le hb)
          (hlen b List.mem_cons_self) hs hr
        simp only [visits_break hcall, forall_eq, hreq, List.forall_mem_cons, hnot, false_and]

/-- The loop ends and has written what the codec calls sent. -/
theorem decompressCall_ends (hlen : ∀ b ∈ blocks, b.length ≤ convBufferSize)
    (htail : frontBlock tail = none) (hs : s.InSized)
    (hfit : TailFits tail)
    (hr : s.logToRead = .reading (blocks.flatMap sizePrefixed ++ tail) true) :
    ∃ t, Ends (decompressCall uns codec) (i, s) t ∧ t.2.overrun = s.overrun ∧ t.2.logToWrite =
      s.logToWrite.write ((codecCalls uns (codecNamed codec) i s.outBuf blocks).flatMap imageOf) := by
  induction blocks generalizing i s with
  | nil =>
      obtain ⟨-, t, hcall, hw, hover⟩ := decompressCall_tail uns codec i htail hs hr
      exact ⟨(i + 1, t), .break hcall, hover hfit, by simp [hw, codecCalls]⟩
  | cons b blocks ih =>
      rw [List.flatMap_cons, List.append_assoc] at hr
      obtain ⟨-, t, hcall, hr', hs', -, hover', hout, hw⟩ := decompressCall_block uns codec i
        (hlen b List.mem_cons_self) hs hr
      obtain ⟨u, hu, hover, hwu⟩ := ih (i + 1) (fun b' hb' => hlen b' (List.mem_cons_of_mem b hb'))
        hs' hr'
      refine ⟨u, .next hcall hu, hover.trans hover', ?_⟩
      rw [hwu, hw, hout, Ofstream.write_append, codecCalls, List.flatMap_cons]

end Loop

/-! ## damaged files -/

/-- The assumption on the codec: whether or not a call succeeds, it stays
within the output buffer. -/
def WithinBuffer (uns : Nat → Unsquash) : Prop :=
  ∀ i c b out, (uns i c b out).2.1 ≤ out.length ∧ (uns i c b out).2.2.length = out.length

section Damaged

variable (uns : Nat → Unsquash) (codec : String) (file : List UInt8) (mem : Nat → UInt8)

/-- The calls of the codec `decompress` makes for the complete blocks of a
file. -/
def fileCalls : List (Bool × Nat × List UInt8) :=
  codecCalls uns (codecNamed codec) 0 (Decompress.start (.opened (some file)) mem).outBuf
    (splitBlocks file).1

/-- What `decompress` uses as a size behind the last complete block: what is
left of the file, up to 4 bytes, over what `block_size` held. -/
def lastSize : Int :=
  intAt (store ((splitBlocks file).2.take 4)
    (sizeBehind (Decompress.start (.opened (some file)) mem).blockSize (splitBlocks file).1))

/-- Damage to the file is contained: every read into the buffer `in` asks for
no more than it holds, and the output is made of the images of the blocks the
codec could decompress. -/
structure DamageContained : Prop where
  reads : ∀ t, Visits (decompressCall uns codec) (0, .start (.opened (some file)) mem) t →
    0 ≤ t.2.request ∧ t.2.request ≤ convBufferSize
  output : ∃ n, ∀ m ≥ n, decompressCalls uns codec (some file) mem m =
    some (((fileCalls uns codec file mem).filter (·.1)).flatMap imageOf)

/-- The sizes in the file fit the buffer, and a codec that fails says that it
has left nothing. -/
structure Harmless : Prop where
  blocks : ∀ b ∈ (splitBlocks file).1, b.length ≤ convBufferSize
  tail : 0 ≤ lastSize file mem ∧ lastSize file mem ≤ convBufferSize
  failures : ∀ r ∈ fileCalls uns codec file mem, r.1 = false → r.2.1 = 0

/-- Where the sizes fit the buffer, the output is what the codec left, whatever
it reported. -/
theorem decompressCalls_eq (hblocks : ∀ b ∈ (splitBlocks file).1, b.length ≤ convBufferSize)
    (hlast : lastSize file mem ≤ convBufferSize) :
    ∃ n, ∀ m ≥ n, decompressCalls uns codec (some file) mem m =
      some ((fileCalls uns codec file mem).flatMap imageOf) := by
  obtain ⟨hfile, -, htail⟩ := splitBlocks_eq file
  have hs := (Decompress.start_sized (.opened (some file)) mem).toInSized
  have hsize : (sizeBehind (Decompress.start (.opened (some file)) mem).blockSize
      (splitBlocks file).1).length = 4 := length_sizeBehind hs.blockSize _
  obtain ⟨t, ht, hover, hw⟩ := decompressCall_ends uns codec 0 hblocks htail hs
    (tailFits_of_size htail hsize hlast) (by rw [← hfile]; rfl)
  obtain ⟨n, hn⟩ := ht.loop
  refine ⟨n, fun m hm => ?_⟩
  have hwritten : t.2.written = some t.2.logToWrite :=
    if_neg (by rw [hover, Decompress.start_overrun]; exact Bool.false_ne_true)
  rw [decompressCalls, hn m hm, Option.bind_some, hwritten, Option.map_some, hw]
  rfl

variable {uns codec file mem}

/-- Leaving some pieces out of a sequence changes it unless they are empty. -/
theorem flatMap_filter_eq {α β : Type} (f : α → List β) (p : α → Bool) (l : List α) :
    l.flatMap f = (l.filter p).flatMap f ↔ ∀ a ∈ l, p a = false → f a = [] := by
  induction l with
  | nil => simp
  | cons a l ih =>
      by_cases hp : p a = true
      · rw [List.filter_cons_of_pos hp, List.flatMap_cons, List.flatMap_cons,
          List.append_cancel_left_eq, ih, List.forall_mem_cons]
        simp [hp]
      · rw [List.filter_cons_of_neg hp, List.flatMap_cons, List.forall_mem_cons, ← ih]
        have hle : ((l.filter p).flatMap f).length ≤ (l.flatMap f).length := by
          exact (List.filter_sublist.flatMap f).length_le
        constructor
        · intro h
          have hlen := congrArg List.length h
          rw [List.length_append] at hlen
          have hnil : f a = [] := List.eq_nil_of_length_eq_zero (by omega)
          refine ⟨fun _ => hnil, ?_⟩
          rw [hnil, List.nil_append] at h
          exact h
        · rintro ⟨hnil, h⟩
          rw [hnil (by simpa using hp), List.nil_append, h]

theorem codecCalls_within (hun : WithinBuffer uns) {c : Codec} {i : Nat} {out : List UInt8}
    {blocks : List (List UInt8)} :
    ∀ r ∈ codecCalls uns c i out blocks, r.2.1 ≤ r.2.2.length := by
  induction blocks generalizing i out with
  | nil => exact fun r hr => absurd hr List.not_mem_nil
  | cons b blocks ih =>
      intro r hr
      obtain rfl | hr := List.mem_cons.mp hr
      · obtain ⟨hle, hlen⟩ := hun i c b out
        rw [hlen]
        exact hle
      · exact ih r hr

/-- Where the sizes fit the buffer, the failed blocks leave no trace exactly when
every failing call of the codec leaves the size 0. -/
theorem output_iff (hun : WithinBuffer uns)
    (hblocks : ∀ b ∈ (splitBlocks file).1, b.length ≤ convBufferSize)
    (hlast : lastSize file mem ≤ convBufferSize) :
    (∃ n, ∀ m ≥ n, decompressCalls uns codec (some file) mem m =
      some (((fileCalls uns codec file mem).filter (·.1)).flatMap imageOf)) ↔
      ∀ r ∈ fileCalls uns codec file mem, r.1 = false → r.2.1 = 0 := by
  obtain ⟨n, hn⟩ := decompressCalls_eq uns codec file mem hblocks hlast
  have hnil : ∀ r ∈ fileCalls uns codec file mem, imageOf r = [] ↔ r.2.1 = 0 := by
    intro r hr
    have hle := codecCalls_within hun r hr
    rw [imageOf, List.take_eq_nil_iff, ← List.length_eq_zero_iff]
    omega
  have hiff : (fileCalls uns codec file mem).flatMap imageOf =
      ((fileCalls uns codec file mem).filter (·.1)).flatMap imageOf ↔
      ∀ r ∈ fileCalls uns codec file mem, r.1 = false → r.2.1 = 0 := by
    rw [flatMap_filter_eq]
    exact forall₂_congr fun r hr => by rw [hnil r hr]
  rw [← hiff]
  constructor
  · rintro ⟨k, hk⟩
    have h := hk (max n k) (Nat.le_max_right n k)
    rw [hn _ (Nat.le_max_left n k)] at h
    exact Option.some.inj h
  · intro h
    exact ⟨n, fun m hm => by rw [hn m hm, h]⟩

/-- **Damaged files.**  For any content of the file and any behaviour of the
codec: the reads fit the buffer and only the blocks that could be decompressed
leave something in the output, exactly when every complete block fits the
buffer, so does the size that stands behind them, and every failing call of
the codec leaves the size 0. -/
theorem decompress_contained_iff (uns : Nat → Unsquash) (hun : WithinBuffer uns) (codec : String)
    (file : List UInt8) (mem : Nat → UInt8) :
    DamageContained uns codec file mem ↔ Harmless uns codec file mem := by
  obtain ⟨hfile, hlen, htail⟩ := splitBlocks_eq file
  have hreads := visits_request uns codec 0 (P := fun n => 0 ≤ n ∧ n ≤ convBufferSize)
    (fun _ => And.right) hlen htail
    (Decompress.start_sized (.opened (some file)) mem).toInSized (by rw [← hfile]; rfl)
  have hblocks : (∀ b ∈ (splitBlocks file).1,
      0 ≤ (b.length : Int) ∧ (b.length : Int) ≤ convBufferSize) ↔
      ∀ b ∈ (splitBlocks file).1, b.length ≤ convBufferSize := by
    refine forall₂_congr fun b _ => ?_
    omega
  constructor
  · intro h
    obtain ⟨hb, ht⟩ := hreads.mp h.reads
    rw [hblocks] at hb
    exact ⟨hb, ht, (output_iff hun hb ht.2).mp h.output⟩
  · intro h
    exact ⟨hreads.mpr ⟨hblocks.mpr h.blocks, h.tail⟩,
      (output_iff hun h.blocks h.tail.2).mpr h.failures⟩

end Damaged

/-- A codec that copies, and refuses what does not fit. -/
def copyUnsquash : Unsquash := fun _ b out =>
  if b.length ≤ out.length then (true, b.length, store b out) else (false, 0, out)

theorem copyUnsquash_within : WithinBuffer fun _ => copyUnsquash := by
  intro i c b out
  by_cases hfit : b.length ≤ out.length
  · simp only [copyUnsquash, if_pos hfit]
    exact ⟨hfit, length_store hfit⟩
  · simp only [copyUnsquash, if_neg hfit]
    exact ⟨Nat.zero_le out.length, trivial⟩

/-- A file of one block, cut off in the second. -/
theorem decompress_contained_cut :
    DamageContained (fun _ => copyUnsquash) "z" [3, 0, 0, 0, 7, 8, 9, 3, 0, 0, 0, 7] fun _ => 0 := by
  have hsplit : splitBlocks [3, 0, 0, 0, 7, 8, 9, 3, 0, 0, 0, 7] = ([[7, 8, 9]], [3, 0, 0, 0, 7]) :=
    @splitBlocks_append [[7, 8, 9]] _ (by decide) (by decide)
  refine (decompress_contained_iff _ copyUnsquash_within "z" _ _).mpr ⟨?_, ?_, ?_⟩
  · rw [hsplit]
    decide
  · rw [lastSize, hsplit]
    decide
  · intro r hr hfail
    have hout : (Decompress.start (.opened (some [3, 0, 0, 0, 7, 8, 9, 3, 0, 0, 0, 7]))
        fun _ => 0).outBuf.length = convBufferSize := (Decompress.start_sized _ _).outBuf
    rw [fileCalls, hsplit, codecCalls, codecCalls, List.mem_singleton] at hr
    rw [hr, copyUnsquash, if_pos (by rw [hout]; decide)] at hfail
    cases hfail

/-- A codec that fails and leaves `size` and the buffer as they were. -/
def refuse : Unsquash := fun _ _ out => (false, out.length, out)

/-- **Damage spreads.**  For a block that the codec refuses the whole buffer
is written; for a size of -1 a read asks for -1 bytes. -/
theorem damage_not_contained :
    (WithinBuffer fun _ => refuse) ∧
      ¬ DamageContained (fun _ => refuse) "z" [0, 0, 0, 0] (fun _ => 0) ∧
      ¬ DamageContained (fun _ => refuse) "z" [255, 255, 255, 255] (fun _ => 0) := by
  refine ⟨fun i c b out => ⟨Nat.le_refl out.length, rfl⟩, fun h => ?_, fun h => ?_⟩
  · have hsplit : splitBlocks [0, 0, 0, 0] = ([[]], []) :=
      @splitBlocks_append [[]] _ (by decide) (by decide)
    have hout : (Decompress.start (.opened (some [0, 0, 0, 0])) fun _ => 0).outBuf.length =
        convBufferSize := (Decompress.start_sized _ _).outBuf
    have hlast : lastSize [0, 0, 0, 0] (fun _ => 0) ≤ convBufferSize := by
      rw [lastSize, hsplit]
      decide
    obtain ⟨n, hn⟩ := h.output
    obtain ⟨k, hk⟩ := decompressCalls_eq (fun _ => refuse) "z" [0, 0, 0, 0] (fun _ => 0)
      (by rw [hsplit]; decide) hlast
    have hall := hn (max n k) (Nat.le_max_left n k)
    rw [hk _ (Nat.le_max_right n k), fileCalls, hsplit] at hall
    have hlen := congrArg (Option.map List.length) hall
    simp [codecCalls, refuse, imageOf, hout] at hlen
    exact absurd hlen (by decide)
  · have hread := h.reads _ (.here _)
    have hreq : (Decompress.start (.opened (some [255, 255, 255, 255])) fun _ => 0).request = -1 := by
      decide
    rw [hreq] at hread
    exact absurd hread.1 (by decide)

end CloudProfiler
