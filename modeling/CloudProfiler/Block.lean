import CloudProfiler.Log

/-!
# CloudProfiler.Block

Buffer blocks: `block_data` with its record array, the functions of
`block_data.cpp` that fill it, and the compression of a full block
(`comp_thread.cpp`).

The record array is a function of the index, so that stale entries behind
`block_idx` are part of the model, as they are of the array.  The codec is
third-party code (`squash`) and a parameter: a function from the codec and
the input bytes to the compressed bytes, `none` when the call fails.
-/

namespace CloudProfiler

/-- `BUFFER_BLOCK_SIZE`: records per block. -/
def bufferBlockSize : Nat := 1000000

/-- `NUM_BUFFER_BLOCK`: blocks per channel. -/
def numBufferBlock : Nat := 32

/-- `INT_MAX`: `block_id`, `block_cnt` and the entries of `next_block` are
`int`s that start at 0 and are only incremented, so that they are numbers up
to this one; the increment beyond it is undefined behaviour. -/
def intMax : Nat := 2 ^ 31 - 1

/-- `struct block_data` as created by `initBufferIdentityHandler`.  The
channel it belongs to (`ch_cl`, `queue`) is part of its address, see `Ptr`;
`compress` is the same for all blocks of a channel and kept with the
channel. -/
structure BlockData where
  blockId : Nat
  block : Nat → LogData
  blockIdx : Nat
  closeFile : Bool

/-- Address of a block: the `k`-th of the blocks of channel `ch`. -/
structure Ptr where
  ch : Nat
  k : Nat
  deriving DecidableEq, Repr

namespace BlockData

/-- The constructor `block_data(compress, ch_cl, queue)`; `mem` is what the
freshly allocated record array holds. -/
def new (mem : Nat → LogData) : BlockData := ⟨0, mem, 0, false⟩

/-- The records in front of `block_idx`, the ones a writer takes. -/
def records (b : BlockData) : List LogData := (List.range b.blockIdx).map b.block

/-- `writeOnBlock`. -/
def writeOnBlock (b : BlockData) (d : LogData) : BlockData :=
  { b with
    block := fun i => if i = b.blockIdx then d else b.block i
    blockIdx := b.blockIdx + 1 }

/-- `writeOnBlockTsc`: of the time-stamp only `tsc` is stored, the seconds
are zeroed and `aux` keeps what the slot held before. -/
def writeOnBlockTsc (b : BlockData) (d : LogData) : BlockData :=
  { b with
    block := fun i =>
      if i = b.blockIdx then
        ⟨d.tuple, { (b.block i).ts with tvSec := 0, tvNsec := 0, tsc := d.ts.tsc }⟩
      else b.block i
    blockIdx := b.blockIdx + 1 }

/-- `checkBlockIsFull`. -/
def checkBlockIsFull (b : BlockData) : Bool := b.blockIdx == bufferBlockSize

theorem records_eq_nil {b : BlockData} (h : b.blockIdx = 0) : b.records = [] := by
  simp [records, h]

/-- Writing a record appends it to the records of the block. -/
theorem records_writeOnBlock (b : BlockData) (d : LogData) :
    (b.writeOnBlock d).records = b.records ++ [d] := by
  simp only [records, writeOnBlock, List.range_succ, List.map_append, List.map_cons, List.map_nil,
    if_true]
  congr 1
  refine List.map_congr_left fun i hi => ?_
  rw [if_neg (Nat.ne_of_lt (List.mem_range.mp hi))]

@[simp] theorem blockIdx_writeOnBlock (b : BlockData) (d : LogData) :
    (b.writeOnBlock d).blockIdx = b.blockIdx + 1 := rfl

@[simp] theorem blockIdx_writeOnBlockTsc (b : BlockData) (d : LogData) :
    (b.writeOnBlockTsc d).blockIdx = b.blockIdx + 1 := rfl

end BlockData

/-! ## compression -/

/-- The codecs `compressBlock` asks `squash` for. -/
inductive Codec
  | zstd | lzo1x
  deriving DecidableEq, Repr

/-- `squash_codec_compress_with_options`: the compressed bytes, or failure. -/
abbrev Squash := Codec → List UInt8 → Option (List UInt8)

/-- The codec `compressBlock` picks: everything but ZSTD is `lzo1x`. -/
def codecOf (f : LogFormat) : Codec := if f = .zstd then .zstd else .lzo1x

/-- `compressBlock`: compress the memory image of the records of a block. -/
def compressBlock (sq : Squash) (f : LogFormat) (ds : List LogData) : Option (List UInt8) :=
  sq (codecOf f) (ds.flatMap LogData.image)

/-- The copy of a block that `compressBlockAndSend` hands to the I/O thread:
`block_data(const block_data&)` with `block` and `block_idx` set to the
compressed data and its size.  `image = none` is the NULL that a failed
`compressBlock` returns. -/
structure Packed where
  ch : Nat
  blockId : Nat
  closeFile : Bool
  image : Option (List UInt8)
  deriving DecidableEq, Repr

/-- What `writeCompressed` puts into the file for compressed data `bs`: its
size as an `int`, then the data. -/
def sizePrefixed (bs : List UInt8) : List UInt8 := leBytes 4 bs.length ++ bs

end CloudProfiler
