import CloudProfiler.Writer
import CloudProfiler.Loop

/-!
# CloudProfiler.Convert

The log converter `btoa_converter.cpp`: `decompress`, which turns a
compressed log file into a binary one, and `convertBinToASCII`, which turns
a binary log file into text.

The converter is another program than the profiler; what the two agree on is
the layout of the file only.  Variables and buffers are therefore memory
here, lists of bytes that a read from the file overwrites from the front,
and keep what they held when a read falls short.

`compressed_round_trip` — what was logged comes out of the converter.
-/

namespace CloudProfiler

/-! ## reading -/

/-- `std::ifstream log_to_read`: what can still be read, what is behind it
(the end of the file, if `ends`; else the next read of the file fails, as on a
directory or a damaged disk), and the `eof`, `fail` and `bad` bits. -/
structure Ifstream where
  rest : List UInt8
  ends : Bool
  eof : Bool
  fail : Bool
  bad : Bool
  deriving DecidableEq, Repr

namespace Ifstream

/-- A stream without a bit set. -/
def reading (rest : List UInt8) (ends : Bool) : Ifstream := ⟨rest, ends, false, false, false⟩

/-- `open` of a file with the given content; a file that cannot be opened
has none, and leaves the `fail` bit. -/
def opened : Option (List UInt8) → Ifstream
  | some content => reading content true
  | none => ⟨[], true, false, true, false⟩

/-- `good`. -/
def good (f : Ifstream) : Bool := !f.eof && !f.fail && !f.bad

/-- `read(s, n)`: the bytes stored at `s`.  A stream that is not good reads
nothing; one that has less than `n` bytes left before the end of the file (or
is asked for a negative number of bytes) gets the `eof` and the `fail` bit; one
whose file cannot be read on gets the `bad` bit. -/
def read (f : Ifstream) (n : Int) : List UInt8 × Ifstream :=
  if !f.good then ([], { f with fail := true })
  else if n < 0 then ([], { f with eof := true, fail := true })
  else if n.toNat ≤ f.rest.length then
    (f.rest.take n.toNat, { f with rest := f.rest.drop n.toNat })
  else if f.ends then (f.rest, { f with rest := [], eof := true, fail := true })
  else (f.rest, { f with rest := [], bad := true })

variable {ends : Bool}

/-- A read that falls short takes what is left and finds the end of the
file. -/
theorem read_short (bs : List UInt8) {n : Int} (hn : bs.length < n) :
    (reading bs true).read n = (bs, ⟨[], true, true, true, false⟩) := by
  have hnot : ¬ n < 0 := by omega
  have hnat : ¬ n.toNat ≤ bs.length := by omega
  simp [read, reading, good, hnot, hnat]

/-- Or it finds a file that cannot be read on. -/
theorem read_bad (bs : List UInt8) {n : Int} (hn : bs.length < n) :
    (reading bs false).read n = (bs, ⟨[], false, false, false, true⟩) := by
  have hnot : ¬ n < 0 := by omega
  have hnat : ¬ n.toNat ≤ bs.length := by omega
  simp [read, reading, good, hnot, hnat]

/-- A negative number of bytes is like the end of the file. -/
theorem read_neg (bs : List UInt8) {n : Int} (hn : n < 0) :
    (reading bs ends).read n = ([], ⟨bs, ends, true, true, false⟩) := by
  simp [read, reading, good, hn]

/-- A read of what is in the file. -/
theorem read_take {bs : List UInt8} {n : Nat} (hn : n ≤ bs.length) :
    (reading bs ends).read n = (bs.take n, reading (bs.drop n) ends) := by
  have hnot : ¬ (n : Int) < 0 := by omega
  simp [read, reading, good, hnot, hn]

theorem read_append (bs rest : List UInt8) {n : Int} (hn : n = bs.length) :
    (reading (bs ++ rest) ends).read n = (bs, reading rest ends) := by
  rw [hn, read_take (by simp), List.take_left, List.drop_left]

/-- Nothing is read from a stream that is not good, and its other bits
stay. -/
theorem read_of_not_good (f : Ifstream) (n : Int) (h : f.good = false) :
    f.read n = ([], { f with fail := true }) := by
  simp [read, h]

/-- Nothing is read behind the end of the file, and its `eof` bit stays. -/
theorem read_of_eof (f : Ifstream) (n : Int) (h : f.eof = true) :
    f.read n = ([], { f with fail := true }) :=
  read_of_not_good f n (by simp [good, h])

end Ifstream

/-- Store bytes at the front of a stretch of memory. -/
def store (bs mem : List UInt8) : List UInt8 := bs ++ mem.drop bs.length

theorem length_store {bs mem : List UInt8} (h : bs.length ≤ mem.length) :
    (store bs mem).length = mem.length := by
  simp only [store, List.length_append, List.length_drop]
  omega

theorem store_of_length_eq {bs mem : List UInt8} (h : bs.length = mem.length) :
    store bs mem = bs := by
  simp [store, h]

theorem take_store (bs mem : List UInt8) : (store bs mem).take bs.length = bs := by
  simp [store]

/-- Freshly allocated memory of `n` bytes; `mem` is what it happens to
hold. -/
def alloc (n : Nat) (mem : Nat → UInt8) : List UInt8 := (List.range n).map mem

@[simp] theorem length_alloc (n : Nat) (mem : Nat → UInt8) : (alloc n mem).length = n := by
  simp [alloc]

/-! ## numbers in memory -/

/-- The number whose memory image is `bs`, the inverse of `leBytes`. -/
def leNat : List UInt8 → Nat
  | [] => 0
  | b :: bs => b.toNat + 256 * leNat bs

theorem leBytes_succ (n x : Nat) : leBytes (n + 1) x = UInt8.ofNat x :: leBytes n (x / 256) := by
  unfold leBytes
  rw [List.range_succ_eq_map, List.map_cons, List.map_map]
  congr 1
  · simp
  · refine List.map_congr_left fun i _ => ?_
    rw [Function.comp_apply, Nat.pow_succ', Nat.div_div_eq_div_mul]

theorem leNat_leBytes (n x : Nat) : leNat (leBytes n x) = x % 256 ^ n := by
  induction n generalizing x with
  | zero => simp [leBytes, leNat, Nat.mod_one]
  | succ n ih =>
      rw [leBytes_succ, leNat, ih, Nat.pow_succ', Nat.mod_mul]
      simp

/-- `int64_t` in memory. -/
def int64At (bs : List UInt8) : Int64 := (UInt64.ofNat (leNat bs)).toInt64

/-- `int` in memory. -/
def intAt (bs : List UInt8) : Int := (UInt32.ofNat (leNat bs)).toInt32.toInt

theorem int64At_leBytes (x : Int64) : int64At (leBytes 8 x.toUInt64.toNat) = x := by
  have hlt : x.toUInt64.toNat < 256 ^ 8 := x.toUInt64.toNat_lt
  simp only [int64At, leNat_leBytes, Nat.mod_eq_of_lt hlt, UInt64.ofNat_toNat,
    Int64.toInt64_toUInt64]

theorem intAt_leBytes {n : Nat} (h : n < 2 ^ 31) : intAt (leBytes 4 n) = n := by
  have hlt : n < 256 ^ 4 := by omega
  have hint : (Int32.ofNat n).toInt = n := Int32.toInt_ofNat_of_lt h
  simp only [intAt, leNat_leBytes, Nat.mod_eq_of_lt hlt, UInt32.toInt32_ofNat', hint]

/-- Memory is the image of the number it holds. -/
theorem leBytes_leNat (bs : List UInt8) : leBytes bs.length (leNat bs) = bs := by
  induction bs with
  | nil => rfl
  | cons b bs ih =>
      have hb : b.toNat < 256 := b.toNat_lt
      have hdiv : (b.toNat + 256 * leNat bs) / 256 = leNat bs := by omega
      have hmod : UInt8.ofNat (b.toNat + 256 * leNat bs) = b := by
        rw [← UInt8.toNat_inj, UInt8.toNat_ofNat']
        omega
      rw [List.length_cons, leNat, leBytes_succ, hdiv, hmod, ih]

theorem leNat_lt (bs : List UInt8) : leNat bs < 256 ^ bs.length := by
  induction bs with
  | nil => exact Nat.one_pos
  | cons b bs ih =>
      have hb : b.toNat < 256 := b.toNat_lt
      rw [leNat, List.length_cons, Nat.pow_succ]
      omega

/-- So it is of an `int` that is not negative. -/
theorem leBytes_intAt {bs : List UInt8} (hlen : bs.length = 4) (h : 0 ≤ intAt bs) :
    leBytes 4 (intAt bs).toNat = bs ∧ (intAt bs).toNat < 2 ^ 31 := by
  have hlt : leNat bs < 256 ^ 4 := by
    rw [← hlen]
    exact leNat_lt bs
  have hint : intAt bs = (leNat bs : Int).bmod (2 ^ 32) := by
    rw [intAt, UInt32.toInt32_ofNat', Int32.toInt_ofNat']
    rfl
  have hnat : (intAt bs).toNat = leNat bs ∧ leNat bs < 2 ^ 31 := by
    rw [Int.bmod_def] at hint
    omega
  rw [hnat.1]
  refine ⟨?_, hnat.2⟩
  rw [← hlen, leBytes_leNat]

/-- `timespec` in memory. -/
def timespecAt (bs : List UInt8) : Timespec :=
  ⟨int64At (bs.take 8), int64At ((bs.drop 8).take 8), UInt64.ofNat (leNat ((bs.drop 16).take 8)),
    UInt32.ofNat (leNat ((bs.drop 24).take 4)), UInt32.ofNat (leNat ((bs.drop 28).take 4))⟩

theorem drop_leBytes {n k : Nat} (x : Nat) (h : n ≤ k) : (leBytes n x).drop k = [] :=
  List.drop_eq_nil_of_le (by simpa using h)

theorem take_leBytes (n x : Nat) : (leBytes n x).take n = leBytes n x :=
  List.take_of_length_le (by simp)

theorem timespecAt_image (ts : Timespec) : timespecAt ts.image = ts := by
  have htsc : ts.tsc.toNat < 256 ^ 8 := ts.tsc.toNat_lt
  have haux : ts.aux.toNat < 256 ^ 4 := ts.aux.toNat_lt
  have hpad : ts.pad.toNat < 256 ^ 4 := ts.pad.toNat_lt
  simp [timespecAt, Timespec.image, List.drop_append, int64At_leBytes,
    drop_leBytes, take_leBytes, leNat_leBytes]

/-! ## the converter -/

/-- `format_to_str`: the letter in the name of a log file. -/
def formatToStr : LogFormat → String
  | .ascii => "a"
  | .binary => "b"
  | .zstd => "z"
  | .lzo1x => "l"
  | .asciiTsc => "i"
  | .binaryTsc => "y"
  | .zstdTsc => "d"
  | .lzo1xTsc => "x"

/-- `squash_codec_decompress`, from the codec, the compressed data and the
output buffer (its length is the room there is) to whether the call
succeeded, the size it leaves in `size`, and the buffer. -/
abbrev Unsquash := Codec → List UInt8 → List UInt8 → Bool × Nat × List UInt8

/-- Size of the buffers `in` and `out`. -/
def convBufferSize : Nat := bufferBlockSize * 40

/-- What the loop of `decompress` works on.  `overrun` says that more was read
into `in` than it holds; behind that write everything is possible, and the
model stops there. -/
structure Decompress where
  logToRead : Ifstream
  logToWrite : Ofstream
  blockSize : List UInt8
  inBuf : List UInt8
  outBuf : List UInt8
  overrun : Bool

/-- Before the loop; `mem` is what the uninitialised memory holds. -/
def Decompress.start (logToRead : Ifstream) (mem : Nat → UInt8) : Decompress where
  logToRead := logToRead
  logToWrite := .opened
  blockSize := alloc 4 mem
  inBuf := alloc convBufferSize fun i => mem (4 + i)
  outBuf := alloc convBufferSize fun i => mem (4 + convBufferSize + i)
  overrun := false

/-- One iteration of the loop of `decompress`.  The result of the codec is
reported on `std::cerr` only. -/
def decompressBody (un : Unsquash) (codec : String) (s : Decompress) : Decompress × Bool :=
  let (bs, f) := s.logToRead.read 4
  let blockSize := store bs s.blockSize
  let (bs, f) := f.read (intAt blockSize)
  if s.inBuf.length < bs.length then
    ({ s with logToRead := f, blockSize := blockSize, overrun := true }, true)
  else
    let inBuf := store bs s.inBuf
    if f.eof then
      ({ s with logToRead := f, blockSize := blockSize, inBuf := inBuf }, true)
    else
      let c := if codec = formatToStr .zstd then .zstd else .lzo1x
      -- `block_size` is converted to `size_t`
      let (_, size, outBuf) := un c (inBuf.take (intAt blockSize % 2 ^ 64).toNat) s.outBuf
      (⟨f, s.logToWrite.write (outBuf.take size), blockSize, inBuf, outBuf, s.overrun⟩, false)

/-- What the loop leaves in the file, unless it has overrun a buffer. -/
def Decompress.written (s : Decompress) : Option Ofstream :=
  if s.overrun then none else some s.logToWrite

/-- `decompress`: the content of the file it writes, if the loop ends within
`n` iterations. -/
def decompress (un : Unsquash) (codec : String) (file : Option (List UInt8)) (mem : Nat → UInt8)
    (n : Nat) : Option (List UInt8) :=
  ((loop (decompressBody un codec) n (.start (.opened file) mem)).bind
    Decompress.written).map fun f => f.close.content

/-- `readInBinary`.  The first read takes `sizeof(tuple)`, the size of a
pointer. -/
def readInBinary (f : Ifstream) (tuple ts : List UInt8) : Ifstream × List UInt8 × List UInt8 :=
  let (bs, f) := f.read 8
  let (bs', f) := f.read 32
  (f, store bs tuple, store bs' ts)

/-- What the loop of `convertBinToASCII` works on. -/
structure ToAscii where
  logToRead : Ifstream
  logToWrite : Ofstream
  tuple : List UInt8
  ts : List UInt8

/-- Before the loop. -/
def ToAscii.start (logToRead : Ifstream) (mem : Nat → UInt8) : ToAscii :=
  ⟨logToRead, .opened, alloc 8 mem, alloc 32 fun i => mem (8 + i)⟩

/-- One iteration of the loop of `convertBinToASCII`. -/
def toAsciiBody (s : ToAscii) : ToAscii × Bool :=
  let (f, tuple, ts) := readInBinary s.logToRead s.tuple s.ts
  if f.eof then
    ({ s with logToRead := f, tuple := tuple, ts := ts }, true)
  else
    (⟨f, s.logToWrite.write (writeInAscii (int64At tuple) (timespecAt ts)), tuple, ts⟩, false)

/-- `convertBinToASCII`: the content of the file it writes, if the loop ends
within `n` iterations. -/
def convertBinToASCII (file : Option (List UInt8)) (mem : Nat → UInt8) (n : Nat) :
    Option (List UInt8) :=
  (loop toAsciiBody n (.start (.opened file) mem)).map fun s => s.logToWrite.close.content

/-! ## binary logs -/

/-- An iteration over a complete record. -/
theorem toAsciiBody_image {s : ToAscii} {d : LogData} {rest : List UInt8}
    (hr : s.logToRead = .reading (d.image ++ rest) true) (htuple : s.tuple.length = 8)
    (hts : s.ts.length = 32) :
    toAsciiBody s = (⟨.reading rest true, s.logToWrite.write (writeInAscii d.tuple d.ts),
      leBytes 8 d.tuple.toUInt64.toNat, d.ts.image⟩, false) := by
  have hlen : d.ts.image.length = 32 := by simp [Timespec.image]
  have hread : readInBinary s.logToRead s.tuple s.ts =
      (.reading rest true, leBytes 8 d.tuple.toUInt64.toNat, d.ts.image) := by
    unfold readInBinary
    rw [hr, LogData.image, List.append_assoc, Ifstream.read_append _ _ (by simp)]
    dsimp only
    rw [Ifstream.read_append _ _ (by simp [hlen])]
    dsimp only
    rw [store_of_length_eq (by simp [htuple]), store_of_length_eq (by simp [hlen, hts])]
  rw [toAsciiBody, hread]
  simp [Ifstream.reading, int64At_leBytes, timespecAt_image]

/-- The iteration that does not find a complete record.  Either read may be
the one that falls short; the test comes after both. -/
theorem toAsciiBody_short {s : ToAscii} {rest : List UInt8}
    (hr : s.logToRead = .reading rest true) (hlen : rest.length < 40) :
    ∃ s', toAsciiBody s = (s', true) ∧ s'.logToWrite = s.logToWrite := by
  have hread : (readInBinary s.logToRead s.tuple s.ts).1.eof = true := by
    unfold readInBinary
    rw [hr]
    by_cases htuple : rest.length < 8
    · rw [Ifstream.read_short _ (by omega)]
      dsimp only
      rw [Ifstream.read_of_eof _ _ rfl]
    · have hts : (rest.drop 8).length < 32 := by
        rw [List.length_drop]
        omega
      have hread : (Ifstream.reading rest true).read 8 =
          (rest.take 8, .reading (rest.drop 8) true) := Ifstream.read_take (n := 8) (by omega)
      rw [hread]
      dsimp only
      rw [Ifstream.read_short _ (by omega)]
  unfold toAsciiBody
  simp only [hread, if_true]
  exact ⟨_, rfl, rfl⟩

/-- The loop of `convertBinToASCII` over the images of records and part of
another. -/
theorem toAscii_ends (ds : List LogData) {s : ToAscii} {rest : List UInt8}
    (hr : s.logToRead = .reading (ds.flatMap LogData.image ++ rest) true)
    (hlen : rest.length < 40) (htuple : s.tuple.length = 8) (hts : s.ts.length = 32) :
    ∃ t, Ends toAsciiBody s t ∧
      t.logToWrite = s.logToWrite.write (ds.flatMap fun d => writeInAscii d.tuple d.ts) := by
  induction ds generalizing s with
  | nil =>
      obtain ⟨t, ht, hw⟩ := toAsciiBody_short hr hlen
      exact ⟨t, .break ht, by simp [hw]⟩
  | cons d ds ih =>
      rw [List.flatMap_cons, List.append_assoc] at hr
      have hbody := toAsciiBody_image hr htuple hts
      obtain ⟨t, ht, hw⟩ := ih (s := ⟨.reading (ds.flatMap LogData.image ++ rest) true,
        s.logToWrite.write (writeInAscii d.tuple d.ts), leBytes 8 d.tuple.toUInt64.toNat,
        d.ts.image⟩) rfl (by simp) (by simp [Timespec.image])
      refine ⟨t, .next hbody ht, ?_⟩
      rw [hw, Ofstream.write_append, List.flatMap_cons]

/-- `convertBinToASCII` turns the images of records into their lines and
drops what is behind them. -/
theorem convertBinToASCII_images (ds : List LogData) {rest : List UInt8} (hlen : rest.length < 40)
    (mem : Nat → UInt8) :
    ∃ n, ∀ m ≥ n, convertBinToASCII (some (ds.flatMap LogData.image ++ rest)) mem m =
      some (ds.flatMap fun d => writeInAscii d.tuple d.ts) := by
  obtain ⟨t, ht, hw⟩ := toAscii_ends ds
    (s := .start (.opened (some (ds.flatMap LogData.image ++ rest))) mem) rfl hlen (length_alloc _ _)
    (length_alloc _ _)
  obtain ⟨n, hn⟩ := ht.loop
  refine ⟨n, fun m hm => ?_⟩
  rw [convertBinToASCII, hn m hm, Option.map_some, hw]
  rfl

/-- A sequence of pieces of one size, cut anywhere: the whole pieces, and less
than one more. -/
theorem take_flatMap_of_length {α β : Type} {f : α → List β} {n : Nat} (hn : 0 < n)
    (hf : ∀ a, (f a).length = n) (l : List α) (k : Nat) :
    ∃ r, (l.flatMap f).take k = (l.take (k / n)).flatMap f ++ r ∧ r.length < n := by
  induction l generalizing k with
  | nil => exact ⟨[], by simp, hn⟩
  | cons a l ih =>
      by_cases hk : k < n
      · refine ⟨(f a).take k, ?_, ?_⟩
        · rw [Nat.div_eq_of_lt hk, List.flatMap_cons,
            List.take_append_of_le_length (by rw [hf]; exact Nat.le_of_lt hk)]
          rfl
        · rw [List.length_take, hf]
          exact Nat.lt_of_le_of_lt (Nat.min_le_left k n) hk
      · obtain ⟨j, rfl⟩ := Nat.exists_eq_add_of_le (Nat.le_of_not_lt hk)
        obtain ⟨r, hr, hlt⟩ := ih j
        refine ⟨r, ?_, hlt⟩
        rw [Nat.add_div_left j hn, List.take_succ_cons, List.flatMap_cons, List.flatMap_cons,
          List.append_assoc, ← hr, List.take_append, hf, List.take_of_length_le (by rw [hf]; omega),
          Nat.add_sub_cancel_left]

/-- **A binary log cut short.**  The file holds the first `k` bytes of what
`writeInBinary` writes for the records; the first `k / 40` records are
complete in it, and `convertBinToASCII` writes their lines and nothing
else. -/
theorem convertBinToASCII_truncated (ds : List LogData) (k : Nat) (mem : Nat → UInt8) :
    ∃ n, ∀ m ≥ n,
      convertBinToASCII (some ((ds.flatMap WriteHandler.writeInBinary.bytes).take k)) mem m =
        some ((ds.take (k / 40)).flatMap WriteHandler.writeInAscii.bytes) := by
  obtain ⟨rest, hfile, hlen⟩ := take_flatMap_of_length (by decide) length_image ds k
  change ∃ n, ∀ m ≥ n, convertBinToASCII (some ((ds.flatMap LogData.image).take k)) mem m = _
  rw [hfile]
  exact convertBinToASCII_images (ds.take (k / 40)) hlen mem

/-! ## compressed logs -/

/-- The assumption on the codec: data that was compressed is decompressed
into every output buffer with room for it, its size being reported. -/
def Unsquash.Inverts (un : Unsquash) (sq : Squash) : Prop :=
  ∀ c x y out, sq c x = some y → x.length ≤ out.length →
    ∃ out', un c y out = (true, x.length, out') ∧ out'.take x.length = x ∧
      out'.length = out.length

/-- The blocks of a channel, given by their records, written in block order
by `writeCompressed`, the last one closing the file. -/
def writeBlocks (sq : Squash) (fmt : LogFormat) (ch : Nat) (blocks : List (List LogData)) :
    Option Ofstream :=
  blocks.zipIdx.foldlM (fun f b => writeCompressed f
    ⟨ch, b.2, b.2 + 1 == blocks.length, compressBlock sq fmt b.1⟩) .opened

section Compressed

variable {sq : Squash} {un : Unsquash} {fmt : LogFormat}

/-- The image of a block, compressed. -/
def packedImage (sq : Squash) (fmt : LogFormat) (ds : List LogData) : List UInt8 :=
  (compressBlock sq fmt ds).getD []

/-- What is in the file. -/
theorem writeBlocks_content (ch : Nat) {blocks : List (List LogData)}
    (h : ∀ ds ∈ blocks, (compressBlock sq fmt ds).isSome) :
    ∃ f, writeBlocks sq fmt ch blocks = some f ∧
      f.content = blocks.flatMap fun ds => sizePrefixed (packedImage sq fmt ds) := by
  have hgo : ∀ (l : List (List LogData × Nat)) (f₀ : Ofstream), f₀.isOpen = true →
      (∀ b ∈ l, (compressBlock sq fmt b.1).isSome) →
      ∃ f, l.foldlM (fun f b => writeCompressed f
        ⟨ch, b.2, b.2 + 1 == blocks.length, compressBlock sq fmt b.1⟩) f₀ = some f ∧
        f.content = f₀.content ++ l.flatMap fun b => sizePrefixed (packedImage sq fmt b.1) := by
    intro l
    induction l with
    | nil => exact fun f₀ _ _ => ⟨f₀, rfl, by simp⟩
    | cons b l ih =>
        intro f₀ hopen hl
        rw [List.foldlM_cons, writeCompressed_eq _ (hl b List.mem_cons_self)]
        obtain ⟨f, hf, hc⟩ := ih (f₀.write (sizePrefixed (packedImage sq fmt b.1)))
          (by simpa using hopen) fun b' hb' => hl b' (List.mem_cons_of_mem b hb')
        refine ⟨f, hf, ?_⟩
        rw [hc, Ofstream.content_write_of_isOpen hopen, List.flatMap_cons, List.append_assoc]
  have hmem : ∀ b ∈ blocks.zipIdx, (compressBlock sq fmt b.1).isSome := fun b hb =>
    h b.1 (List.fst_mem_of_mem_zipIdx hb)
  obtain ⟨f, hf, hc⟩ := hgo blocks.zipIdx .opened rfl hmem
  refine ⟨f, hf, ?_⟩
  rw [hc, ← List.flatMap_map Prod.fst fun ds => sizePrefixed (packedImage sq fmt ds)]
  simp [Ofstream.opened]

/-- The buffers that `decompress` reads into keep their sizes. -/
structure Decompress.InSized (s : Decompress) : Prop where
  blockSize : s.blockSize.length = 4
  inBuf : s.inBuf.length = convBufferSize

/-- So does the one the codec writes to. -/
structure Decompress.Sized (s : Decompress) : Prop extends s.InSized where
  outBuf : s.outBuf.length = convBufferSize

theorem Decompress.start_sized (f : Ifstream) (mem : Nat → UInt8) :
    (Decompress.start f mem).Sized := by
  unfold Decompress.start
  refine ⟨⟨?_, ?_⟩, ?_⟩
  · simp only [length_alloc]
  · simp only [length_alloc]
  · simp only [length_alloc]

theorem Decompress.start_overrun (f : Ifstream) (mem : Nat → UInt8) :
    (Decompress.start f mem).overrun = false := rfl

/-- The codec the file name stands for. -/
def codecNamed (codec : String) : Codec := if codec = formatToStr .zstd then .zstd else .lzo1x

/-- The codec named in the file name is the one the data was compressed
with. -/
theorem codec_of_name (h : fmt = .zstd ∨ fmt = .lzo1x) :
    codecNamed (formatToStr fmt) = codecOf fmt := by
  cases h with
  | inl h => rw [h]; rfl
  | inr h => rw [h]; rfl

theorem length_images (ds : List LogData) : (ds.flatMap LogData.image).length = ds.length * 40 := by
  simp [List.length_flatMap, length_image]

/-- An iteration over a complete block: what the codec leaves in the buffer
goes to the file, as much of it as the codec says. -/
theorem decompressBody_sizePrefixed {codec : String} {s : Decompress} {b rest : List UInt8}
    {ends : Bool} (hb : b.length ≤ convBufferSize) (hs : s.InSized)
    (hr : s.logToRead = .reading (sizePrefixed b ++ rest) ends) :
    decompressBody un codec s =
      (⟨.reading rest ends,
        s.logToWrite.write ((un (codecNamed codec) b s.outBuf).2.2.take
          (un (codecNamed codec) b s.outBuf).2.1),
        leBytes 4 b.length, store b s.inBuf, (un (codecNamed codec) b s.outBuf).2.2, s.overrun⟩,
        false) := by
  have hsize : convBufferSize < 2 ^ 31 := by decide
  have hblock : store (leBytes 4 b.length) s.blockSize = leBytes 4 b.length :=
    store_of_length_eq (by simp [hs.blockSize])
  have hmod : ((b.length : Int) % 2 ^ 64).toNat = b.length := by omega
  have hfit : ¬ s.inBuf.length < b.length := by rw [hs.inBuf]; omega
  unfold decompressBody
  rw [hr, sizePrefixed, List.append_assoc, Ifstream.read_append _ _ (by simp)]
  dsimp only
  rw [hblock, intAt_leBytes (by omega), Ifstream.read_append _ _ rfl]
  dsimp only
  rw [if_neg hfit, if_neg (by simp [Ifstream.reading]), hmod, take_store, ← codecNamed]

/-- An iteration over a complete block. -/
theorem decompressBody_block (hun : un.Inverts sq) (hfmt : fmt = .zstd ∨ fmt = .lzo1x)
    {s : Decompress} {ds : List LogData} {img rest : List UInt8} (hs : s.Sized)
    (hr : s.logToRead = .reading (sizePrefixed img ++ rest) true)
    (himg : compressBlock sq fmt ds = some img) (hfit : img.length ≤ convBufferSize)
    (hlen : ds.length ≤ bufferBlockSize) :
    ∃ s', decompressBody un (formatToStr fmt) s = (s', false) ∧ s'.Sized ∧
      s'.logToRead = .reading rest true ∧ s'.overrun = s.overrun ∧
      s'.logToWrite = s.logToWrite.write (ds.flatMap LogData.image) := by
  have hraw : (ds.flatMap LogData.image).length ≤ s.outBuf.length := by
    rw [hs.outBuf, length_images, convBufferSize]
    exact Nat.mul_le_mul_right 40 hlen
  obtain ⟨out', hout, htake, hol⟩ := hun (codecOf fmt) _ img s.outBuf himg hraw
  rw [decompressBody_sizePrefixed hfit hs.toInSized hr, codec_of_name hfmt, hout]
  refine ⟨_, rfl, ⟨⟨by simp, ?_⟩, ?_⟩, rfl, rfl, ?_⟩
  · exact (length_store (by rw [hs.inBuf]; exact hfit)).trans hs.inBuf
  · exact hol.trans hs.outBuf
  · rw [htake]

/-- The iteration that finds the end of the file: the size is not read, so
neither is a block. -/
theorem decompressBody_nil (codec : String) {s : Decompress}
    (hr : s.logToRead = .reading [] true) :
    ∃ s', decompressBody un codec s = (s', true) ∧ s'.overrun = s.overrun ∧
      s'.logToWrite = s.logToWrite := by
  unfold decompressBody
  rw [hr, Ifstream.read_short _ (by decide)]
  dsimp only
  rw [Ifstream.read_of_eof _ _ rfl]
  exact ⟨_, rfl, rfl, rfl⟩

/-- The block fits the buffers of the converter. -/
structure Fits (sq : Squash) (fmt : LogFormat) (ds : List LogData) : Prop where
  records : ds.length ≤ bufferBlockSize
  image : ∃ img, compressBlock sq fmt ds = some img ∧ img.length ≤ convBufferSize

/-- The loop of `decompress` over complete blocks. -/
theorem decompress_ends (hun : un.Inverts sq) (hfmt : fmt = .zstd ∨ fmt = .lzo1x)
    (blocks : List (List LogData)) (hfits : ∀ ds ∈ blocks, Fits sq fmt ds) {s : Decompress}
    (hs : s.Sized) (hr : s.logToRead =
      .reading (blocks.flatMap fun ds => sizePrefixed (packedImage sq fmt ds)) true) :
    ∃ t, Ends (decompressBody un (formatToStr fmt)) s t ∧ t.overrun = s.overrun ∧
      t.logToWrite = s.logToWrite.write (blocks.flatten.flatMap LogData.image) := by
  induction blocks generalizing s with
  | nil =>
      obtain ⟨t, ht, hover, hw⟩ := decompressBody_nil (formatToStr fmt) hr
      exact ⟨t, .break ht, hover, by simp [hw]⟩
  | cons ds blocks ih =>
      have hds := hfits ds List.mem_cons_self
      obtain ⟨img, himg, hlen⟩ := hds.image
      have hpacked : packedImage sq fmt ds = img := by simp [packedImage, himg]
      rw [List.flatMap_cons, hpacked] at hr
      obtain ⟨s', hbody, hs', hr', hover', hw'⟩ :=
        decompressBody_block hun hfmt hs hr himg hlen hds.records
      obtain ⟨t, ht, hover, hw⟩ := ih (fun ds' h => hfits ds' (List.mem_cons_of_mem ds h)) hs' hr'
      refine ⟨t, .next hbody ht, hover.trans hover', ?_⟩
      rw [hw, hw', Ofstream.write_append, List.flatten_cons, List.flatMap_append]

/-- **What was logged comes out of the converter.**  The records of a
compressed channel, cut into blocks in any way and written in block order,
are decompressed to the concatenation of their images, and these are
converted to the lines `writeInAscii` makes of the records. -/
theorem compressed_round_trip (sq : Squash) (un : Unsquash) (hun : un.Inverts sq)
    (fmt : LogFormat) (hfmt : fmt = .zstd ∨ fmt = .lzo1x) (ch : Nat)
    (blocks : List (List LogData)) (hfits : ∀ ds ∈ blocks, Fits sq fmt ds)
    (mem mem' : Nat → UInt8) :
    ∃ f, writeBlocks sq fmt ch blocks = some f ∧
      (∃ n, ∀ m ≥ n, decompress un (formatToStr fmt) (some f.content) mem m =
        some (blocks.flatten.flatMap LogData.image)) ∧
      ∃ n, ∀ m ≥ n, convertBinToASCII (some (blocks.flatten.flatMap LogData.image)) mem' m =
        some (blocks.flatten.flatMap fun d => writeInAscii d.tuple d.ts) := by
  have hsome : ∀ ds ∈ blocks, (compressBlock sq fmt ds).isSome := fun ds hds => by
    obtain ⟨img, himg, -⟩ := (hfits ds hds).image
    simp [himg]
  obtain ⟨f, hf, hcontent⟩ := writeBlocks_content ch hsome
  have hascii :=
    convertBinToASCII_images blocks.flatten (show ([] : List UInt8).length < 40 by decide) mem'
  rw [List.append_nil] at hascii
  refine ⟨f, hf, ?_, hascii⟩
  obtain ⟨t, ht, hover, hw⟩ := decompress_ends hun hfmt blocks hfits
    (Decompress.start_sized (.opened (some f.content)) mem) (by rw [← hcontent]; rfl)
  obtain ⟨n, hn⟩ := ht.loop
  refine ⟨n, fun m hm => ?_⟩
  have hwritten : t.written = some t.logToWrite :=
    if_neg (by rw [hover, Decompress.start_overrun]; exact Bool.false_ne_true)
  rw [decompress, hn m hm, Option.bind_some, hwritten, Option.map_some, hw]
  rfl

/-- `lzo1x` on up to 238 bytes without repetitions: one run of literals,
then the end marker. -/
def literalRun : Squash := fun _ x =>
  some ((if x = [] then [] else [UInt8.ofNat (x.length + 17)]) ++ x ++ [17, 0, 0])

/-- The inverse of `literalRun`. -/
def ofLiteralRun : Unsquash := fun _ y out =>
  let x := y.tail.take (y.length - 4)
  (true, x.length, store x out)

theorem ofLiteralRun_inverts : ofLiteralRun.Inverts literalRun := by
  intro c x y out hy hlen
  obtain rfl := Option.some.inj hy
  have hx : (((if x = [] then [] else [UInt8.ofNat (x.length + 17)]) ++ x ++ [17, 0, 0]).tail.take
      (((if x = [] then [] else [UInt8.ofNat (x.length + 17)]) ++ x ++ [17, 0, 0]).length - 4)) =
      x := by
    cases x with
    | nil => rfl
    | cons b x => simp
  refine ⟨store x out, ?_, take_store x out, length_store hlen⟩
  rw [ofLiteralRun, hx]

/-- A record whose image has no repetitions. -/
def sampleRecord : LogData :=
  ⟨0x0807060504030201, 0x100f0e0d0c0b0a09, 0x1817161514131211, 0x201f1e1d1c1b1a19, 0x24232221,
    0x28272625⟩

theorem compressed_round_trip_literal_run :
    ∃ f, writeBlocks literalRun .lzo1x 0 [[sampleRecord], []] = some f ∧
      (∃ n, ∀ m ≥ n, decompress ofLiteralRun "l" (some f.content) (fun _ => 0) m =
        some sampleRecord.image) ∧
      ∃ n, ∀ m ≥ n, convertBinToASCII (some sampleRecord.image) (fun _ => 0) m =
        some (writeInAscii sampleRecord.tuple sampleRecord.ts) := by
  have hfits : ∀ ds ∈ [[sampleRecord], []], Fits literalRun .lzo1x ds := by
    intro ds hds
    refine ⟨?_, _, rfl, ?_⟩
    · obtain rfl | rfl := List.mem_pair.mp hds <;> decide
    · obtain rfl | rfl := List.mem_pair.mp hds <;> decide
  have h := compressed_round_trip literalRun ofLiteralRun ofLiteralRun_inverts .lzo1x (.inr rfl) 0
    [[sampleRecord], []] hfits (fun _ => 0) (fun _ => 0)
  simpa [formatToStr] using h

end Compressed

end CloudProfiler
