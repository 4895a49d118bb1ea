import CloudProfiler.Convert.Damaged
import CloudProfiler.FileName

/-!
# CloudProfiler.Convert.Terminate

When the converter ends.  Both of its loops leave on the `eof` bit only.  On a
file that can be read to its end every iteration takes its 4 or 40 bytes off
the file, a block of size 0 included, so the number of iterations is bounded by
the length of the file (`decompressCall_loop`, `toAsciiBody_isSome`).  A stream
whose open failed, or whose file cannot be read on, never gets the bit
(`Endless`): its loop does not end, unless a block in front of that place says
that it has a negative size.  A block that is larger than the buffer overruns
it, and nothing is said about what comes after.

`runConversions` puts the loops into the file system, where the second
conversion of `convertLogFileToAscii` reads what the first has written.

* `Decompressible` — what is in a file that `decompress` gets to the end of;
* `converter_terminates_iff` — the loops end exactly when every file opened
  for reading can be opened and read to its end.
-/

namespace CloudProfiler

/-! ## the file system -/

/-- What the converter meets: the files there are, which names it may open for
reading and for writing, and behind how many bytes reading a file fails (at
once if it is a directory). -/
structure FileSystem where
  content : List Char → Option (List UInt8)
  readable : List Char → Bool
  writable : List Char → Bool
  breaks : List Char → Option Nat

/-- A file that was opened: the bytes that can be read, and whether the end of
the file is behind them. -/
structure Source where
  bytes : List UInt8
  ends : Bool
  deriving DecidableEq, Repr

/-- The stream after `open`. -/
def Source.stream : Option Source → Ifstream
  | some src => .reading src.bytes src.ends
  | none => .opened none

namespace FileSystem

/-- What `std::ifstream::open` finds. -/
def openIn (fs : FileSystem) (path : List Char) : Option Source :=
  if fs.readable path then
    (fs.content path).map fun bs =>
      match fs.breaks path with
      | some k => ⟨bs.take k, false⟩
      | none => ⟨bs, true⟩
  else none

/-- Write a file, where this is allowed. -/
def save (fs : FileSystem) (path : List Char) (content : List UInt8) : FileSystem :=
  if fs.writable path then { fs with content := Function.update fs.content path (some content) }
  else fs

/-- `std::ofstream::open` with `trunc`: the file is there and empty, if it can
be opened. -/
def openOut (fs : FileSystem) (path : List Char) : FileSystem × Ofstream :=
  (fs.save path [], if fs.writable path then .opened else .unopened)

end FileSystem

/-- `absolute_path.replace(idx + 1, 1, str)`. -/
def replaceLetter (path : List Char) (idx : Nat) (str : String) : List Char :=
  path.take (idx + 1) ++ str.toList ++ path.drop (idx + 2)

namespace Conversion

/-- The file a conversion reads. -/
def input (path : List Char) : Conversion → List Char
  | .decompress idx codec => replaceLetter path idx codec
  | .convertBinToASCII idx => replaceLetter path idx (formatToStr .binary)

/-- The file it writes; the name is made from that of the input. -/
def output (path : List Char) : Conversion → List Char
  | .decompress idx codec => replaceLetter (replaceLetter path idx codec) idx (formatToStr .binary)
  | .convertBinToASCII idx =>
      replaceLetter (replaceLetter path idx (formatToStr .binary)) idx (formatToStr .ascii)

/-- `decompress` and `convertBinToASCII` with their files, allowing their loop
`bound n` iterations for an input of which `n` bytes can be read.  `uns` are
the calls of the codec, `mem` is what uninitialised memory holds. -/
def run (uns : Nat → Unsquash) (mem : Conversion → Nat → UInt8) (bound : Nat → Nat)
    (path : List Char) (fs : FileSystem) (c : Conversion) : Option FileSystem :=
  let file := fs.openIn (c.input path)
  let n := bound (file.elim 0 fun src => src.bytes.length)
  let (fs, logToWrite) := fs.openOut (c.output path)
  let written : Option Ofstream := match c with
    | .decompress _ codec =>
        (loop (decompressCall uns codec) n
          (0, { Decompress.start (Source.stream file) (mem c) with logToWrite := logToWrite })).bind
            fun s => s.2.written
    | .convertBinToASCII _ =>
        (loop toAsciiBody n
          { ToAscii.start (Source.stream file) (mem c) with logToWrite := logToWrite }).map
            fun s => s.logToWrite
  written.map fun f => fs.save (c.output path) f.close.content

end Conversion

/-- The conversions of a call, one after the other. -/
def runConversions (uns : Nat → Unsquash) (mem : Conversion → Nat → UInt8) (bound : Nat → Nat)
    (path : List Char) (fs : FileSystem) (cs : List Conversion) : Option FileSystem :=
  cs.foldlM (Conversion.run uns mem bound path) fs

/-! ## what can be converted -/

/-- The bytes behind the complete blocks stop the loop of `decompress`: the end
of the file is behind them, or the size in front of them is negative; and they
fit the buffer. -/
def Stops (tail : List UInt8) (ends : Bool) : Prop :=
  (ends = true ∨ 4 ≤ tail.length ∧ intAt (tail.take 4) < 0) ∧ TailFits tail

/-- The complete blocks of the file fit the buffer, and what is behind them
stops the loop. -/
structure Decompressible (src : Source) : Prop where
  blocks : ∀ b ∈ (splitBlocks src.bytes).1, b.length ≤ convBufferSize
  tail : Stops (splitBlocks src.bytes).2 src.ends

/-- What a conversion asks of its input. -/
def Conversion.Accepts (src : Source) : Conversion → Prop
  | .decompress _ _ => Decompressible src
  | .convertBinToASCII _ => src.ends = true

/-- Every file the conversions open for reading can be opened when its turn
comes, and is one they can convert; a file that an earlier one opened for
writing is there then. -/
def Convertible (path : List Char) : FileSystem → List Conversion → Prop
  | _, [] => True
  | fs, c :: cs =>
      (∃ src, fs.openIn (c.input path) = some src ∧ c.Accepts src) ∧
        Convertible path (fs.openOut (c.output path)).1 cs

/-! ## streams without end -/

/-- The stream does not get the `eof` bit, unless asked for a negative number
of bytes. -/
def Ifstream.Endless (f : Ifstream) : Prop := f.eof = false ∧ (f.good = false ∨ f.ends = false)

theorem Ifstream.endless_fail : (opened none).Endless := ⟨rfl, .inl rfl⟩

theorem Ifstream.endless_reading (rest : List UInt8) : (reading rest false).Endless :=
  ⟨rfl, .inr rfl⟩

theorem Ifstream.Endless.read {f : Ifstream} (h : f.Endless) {n : Int} (hn : 0 ≤ n) :
    (f.read n).2.Endless := by
  obtain ⟨heof, hrest⟩ := h
  unfold Ifstream.read
  split
  · exact ⟨heof, .inl (by simp [good])⟩
  · next hgood =>
    have hends : f.ends = false := hrest.resolve_left (by simpa using hgood)
    rw [if_neg (Int.not_lt.mpr hn)]
    split
    · exact ⟨heof, .inr hends⟩
    · rw [if_neg (by simp [hends])]
      exact ⟨heof, .inr hends⟩

/-! ## the loops -/

theorem length_flatMap_sizePrefixed (blocks : List (List UInt8)) :
    4 * blocks.length ≤ (blocks.flatMap sizePrefixed).length := by
  induction blocks with
  | nil => exact Nat.le_refl 0
  | cons b blocks ih =>
      rw [List.flatMap_cons, List.length_append, List.length_cons, sizePrefixed, List.length_append,
        length_leBytes]
      omega

theorem loop_succ {σ : Type} {body : σ → σ × Bool} {s t : σ} (h : body s = (t, false)) (n : Nat) :
    loop body (n + 1) s = loop body n t := by
  simp [loop, h]

section Loops

variable {uns : Nat → Unsquash} {codec : String} {i : Nat} {s : Decompress}
  {blocks : List (List UInt8)} {tail : List UInt8} {ends : Bool}

/-- The iteration that finds what stops the loop. -/
theorem decompressCall_stops (ht : frontBlock tail = none) (hstops : Stops tail ends)
    (hs : s.InSized) (hr : s.logToRead = .reading tail ends) :
    ∃ t, decompressCall uns codec (i, s) = ((i + 1, t), true) ∧ t.overrun = s.overrun := by
  obtain ⟨hend, hfit⟩ := hstops
  by_cases hneg : 4 ≤ tail.length ∧ intAt (tail.take 4) < 0
  · obtain ⟨hread, hstore, -⟩ := Decompress.request_eq hneg.1 hs.blockSize hr
    unfold decompressCall decompressBody
    simp only [hread, hstore, Ifstream.read_neg _ hneg.2]
    exact ⟨_, rfl, rfl⟩
  · rw [hend.resolve_right hneg] at hr
    obtain ⟨-, t, hcall, -, hover⟩ := decompressCall_tail uns codec i ht hs hr
    exact ⟨t, hcall, hover hfit⟩

/-- A stream that is not good, but for another bit than `eof`, stays so, and
the loop does not end. -/
theorem decompressCall_eq_none (heof : s.logToRead.eof = false) (hgood : s.logToRead.good = false)
    (n : Nat) : loop (decompressCall uns codec) n (i, s) = none := by
  refine loop_eq_none (I := fun s : Nat × Decompress =>
    s.2.logToRead.eof = false ∧ s.2.logToRead.good = false) ?_ ⟨heof, hgood⟩ n
  rintro ⟨j, s⟩ ⟨heof, hgood⟩
  dsimp only at heof hgood
  obtain ⟨f, hread, hfail, hread', heof'⟩ : ∃ f : Ifstream, (∀ n, s.logToRead.read n = ([], f)) ∧
      f.good = false ∧ (∀ n, f.read n = ([], f)) ∧ f.eof = false :=
    ⟨{ s.logToRead with fail := true }, fun n => Ifstream.read_of_not_good _ n hgood,
      by simp [Ifstream.good],
      fun n => Ifstream.read_of_not_good _ n (by simp [Ifstream.good]), heof⟩
  unfold decompressCall decompressBody
  simp only [hread, hread', List.length_nil, Nat.not_lt_zero, if_false, heof', Bool.false_eq_true]
  exact ⟨trivial, trivial, hfail⟩

/-- The iteration that comes to a place where the file cannot be read on. -/
theorem decompressCall_bad (ht : frontBlock tail = none) (hfit : TailFits tail)
    (hneg : ¬ (4 ≤ tail.length ∧ intAt (tail.take 4) < 0)) (hs : s.InSized)
    (hr : s.logToRead = .reading tail false) :
    ∃ t, decompressCall uns codec (i, s) = ((i + 1, t), false) ∧ t.logToRead.eof = false ∧
      t.logToRead.good = false := by
  by_cases h4 : tail.length < 4
  · have hread : s.logToRead.read 4 = (tail, ⟨[], false, false, false, true⟩) := by
      rw [hr]
      exact Ifstream.read_bad _ (by omega)
    unfold decompressCall decompressBody
    simp only [hread, Ifstream.read_of_not_good ⟨[], false, false, false, true⟩ _ rfl,
      List.length_nil, Nat.not_lt_zero, if_false, Bool.false_eq_true]
    exact ⟨_, rfl, rfl, rfl⟩
  · obtain ⟨hread, hstore, -⟩ := Decompress.request_eq (Nat.le_of_not_lt h4) hs.blockSize hr
    have h0 : 0 ≤ intAt (tail.take 4) := by omega
    simp only [frontBlock, ite_eq_right_iff, reduceCtorEq, imp_false, not_and, Int.not_le] at ht
    have hshort := ht (by omega) h0
    have hle := hfit h0
    have hin : ¬ s.inBuf.length < (tail.drop 4).length := by
      rw [hs.inBuf, List.length_drop]
      omega
    unfold decompressCall decompressBody
    simp only [hread, hstore, Ifstream.read_bad _ hshort, hin, if_false, Bool.false_eq_true]
    exact ⟨_, rfl, rfl, rfl⟩

/-- The iteration that finds a block cut short, larger than the buffer. -/
theorem decompressCall_not_fits (ht : frontBlock tail = none) (hfit : ¬ TailFits tail)
    (hs : s.InSized) (hr : s.logToRead = .reading tail ends) :
    ∃ t, decompressCall uns codec (i, s) = ((i + 1, t), true) ∧ t.overrun = true := by
  simp only [TailFits, Classical.not_imp, Nat.not_le] at hfit
  obtain ⟨h0, hlt⟩ := hfit
  simp only [frontBlock, ite_eq_right_iff, reduceCtorEq, imp_false, not_and, Int.not_le] at ht
  have hshort := ht (by omega) h0
  have hdrop : convBufferSize < (tail.drop 4).length := by
    rw [List.length_drop]
    omega
  obtain ⟨t, hbody, hover⟩ : ∃ t, decompressBody (uns i) codec s = (t, true) ∧ t.overrun = true :=
    decompressBody_overrun (by omega) hs hr h0 (by omega) hdrop
  exact ⟨t, by rw [decompressCall, hbody], hover⟩

/-- **`decompress` comes to the end of a file that it can digest**, in one
iteration for each block and one more. -/
theorem decompressCall_loop (uns : Nat → Unsquash) (codec : String)
    (hlen : ∀ b ∈ blocks, b.length ≤ convBufferSize)
    (ht : frontBlock tail = none) (hstops : Stops tail ends) (hs : s.InSized)
    (hr : s.logToRead = .reading (blocks.flatMap sizePrefixed ++ tail) ends) :
    ∃ t, loop (decompressCall uns codec) (blocks.length + 1) (i, s) = some t ∧
      t.2.overrun = s.overrun := by
  induction blocks generalizing i s with
  | nil =>
      obtain ⟨t, hcall, hover⟩ : ∃ t, decompressCall uns codec (i, s) = ((i + 1, t), true) ∧ _ :=
        decompressCall_stops ht hstops hs hr
      exact ⟨(i + 1, t), by simp [loop, hcall], hover⟩
  | cons b blocks ih =>
      rw [List.flatMap_cons, List.append_assoc] at hr
      obtain ⟨-, t, hcall, hr', hs', -, hover', -, -⟩ := decompressCall_block uns codec i
        (hlen b List.mem_cons_self) hs hr
      obtain ⟨u, hu, hover⟩ := ih (fun b' hb' => hlen b' (List.mem_cons_of_mem b hb')) hs' hr'
      exact ⟨u, by rw [List.length_cons, loop_succ hcall, hu], hover.trans hover'⟩

/-- On every other file it overruns the buffer, or it does not end. -/
theorem decompressCall_overruns (hlen : ∀ b ∈ blocks, b.length < 2 ^ 31)
    (ht : frontBlock tail = none)
    (hnot : ¬ ((∀ b ∈ blocks, b.length ≤ convBufferSize) ∧ Stops tail ends)) (hs : s.InSized)
    (hr : s.logToRead = .reading (blocks.flatMap sizePrefixed ++ tail) ends) {n : Nat}
    {t : Nat × Decompress} (hloop : loop (decompressCall uns codec) n (i, s) = some t) :
    t.2.overrun = true := by
  have hbreak : ∀ {u : Decompress}, decompressCall uns codec (i, s) = ((i + 1, u), true) →
      u.overrun = true → t.2.overrun = true := by
    intro u hcall hover
    rwa [Ends.unique ⟨n, hloop⟩ (.break hcall)]
  induction blocks generalizing i s n with
  | nil =>
      rw [List.flatMap_nil, List.nil_append] at hr
      by_cases hfit : TailFits tail
      · have hneg : ¬ (ends = true ∨ 4 ≤ tail.length ∧ intAt (tail.take 4) < 0) := fun hend =>
          hnot ⟨by simp, hend, hfit⟩
        rw [not_or, Bool.not_eq_true] at hneg
        rw [hneg.1] at hr
        obtain ⟨u, hcall, heof, hgood⟩ : ∃ u, decompressCall uns codec (i, s) = ((i + 1, u), false) ∧
            u.logToRead.eof = false ∧ u.logToRead.good = false :=
          decompressCall_bad ht hfit hneg.2 hs hr
        cases n with
        | zero => cases hloop
        | succ n =>
            rw [loop_succ hcall, decompressCall_eq_none heof hgood] at hloop
            cases hloop
      · obtain ⟨u, hcall, hover⟩ := decompressCall_not_fits ht hfit hs hr
        exact hbreak hcall hover
  | cons b blocks ih =>
      rw [List.flatMap_cons, List.append_assoc] at hr
      by_cases hb : b.length ≤ convBufferSize
      · obtain ⟨-, u, hcall, hr', hs', -⟩ := decompressCall_block uns codec i hb hs hr
        cases n with
        | zero => cases hloop
        | succ n =>
            rw [loop_succ hcall] at hloop
            refine ih (fun b' hb' => hlen b' (List.mem_cons_of_mem b hb')) (fun h => hnot ⟨?_, h.2⟩)
              hs' hr' hloop fun hcall' hover' => ?_
            · exact List.forall_mem_cons.mpr ⟨hb, h.1⟩
            · rwa [Ends.unique ⟨n, hloop⟩ (.break hcall')]
      · obtain ⟨-, u, hcall, hover⟩ := decompressCall_overrun uns codec i (Nat.lt_of_not_le hb)
          (hlen b List.mem_cons_self) hs hr
        exact hbreak hcall hover

/-- An iteration that finds 40 bytes takes them. -/
theorem toAsciiBody_long {s : ToAscii} {rest : List UInt8} (hr : s.logToRead = .reading rest true)
    (hlen : 40 ≤ rest.length) :
    ∃ t, toAsciiBody s = (t, false) ∧ t.logToRead = .reading (rest.drop 40) true := by
  have htuple : (Ifstream.reading rest true).read 8 =
      (rest.take 8, .reading (rest.drop 8) true) := Ifstream.read_take (n := 8) (by omega)
  have hts : (Ifstream.reading (rest.drop 8) true).read 32 =
      ((rest.drop 8).take 32, .reading ((rest.drop 8).drop 32) true) :=
    Ifstream.read_take (n := 32) (by rw [List.length_drop]; omega)
  have hread : (readInBinary s.logToRead s.tuple s.ts).1 = .reading (rest.drop 40) true := by
    unfold readInBinary
    rw [hr, htuple]
    dsimp only
    rw [hts, List.drop_drop]
  unfold toAsciiBody
  simp only [hread, Ifstream.reading, Bool.false_eq_true, if_false]
  exact ⟨_, rfl, rfl⟩

/-- The loop of `convertBinToASCII` over a file of `n` bytes makes at most
`n / 40 + 1` iterations. -/
theorem toAsciiBody_isSome {file : List UInt8} {s : ToAscii}
    (hr : s.logToRead = .reading file true) :
    (loop toAsciiBody (file.length / 40 + 1) s).isSome = true := by
  have hm : file.length = s.logToRead.rest.length := by rw [hr]; rfl
  rw [hm]
  refine loop_isSome_of_measure (m := fun s : ToAscii => s.logToRead.rest.length)
    (I := fun s => ∃ rest, s.logToRead = .reading rest true) (by decide) ?_ ⟨file, hr⟩
  rintro s ⟨rest, hr⟩ hgo
  by_cases hlen : rest.length < 40
  · obtain ⟨t, ht, -⟩ := toAsciiBody_short hr hlen
    rw [ht] at hgo
    cases hgo
  · obtain ⟨t, ht, hr'⟩ := toAsciiBody_long hr (by omega)
    rw [ht]
    refine ⟨⟨_, hr'⟩, ?_⟩
    rw [hr, hr']
    simp only [Ifstream.reading, List.length_drop]
    omega

/-- On a stream without end it does not end. -/
theorem toAsciiBody_eq_none {s : ToAscii} (hr : s.logToRead.Endless) (n : Nat) :
    loop toAsciiBody n s = none := by
  refine loop_eq_none (I := fun s : ToAscii => s.logToRead.Endless) ?_ hr n
  intro s hr
  have hread : (readInBinary s.logToRead s.tuple s.ts).1.Endless :=
    (hr.read (by decide)).read (by decide)
  unfold toAsciiBody
  simp only [hread.1, Bool.false_eq_true, if_false]
  exact ⟨trivial, hread⟩

end Loops

/-! ## one conversion -/

/-- Two file systems that let the same files be opened, and read to the same
places. -/
structure SameNames (fs fs' : FileSystem) : Prop where
  readable : fs'.readable = fs.readable
  writable : fs'.writable = fs.writable
  breaks : fs'.breaks = fs.breaks
  content : ∀ path, (fs'.content path).isSome = (fs.content path).isSome

section Conversions

variable {uns : Nat → Unsquash} {mem : Conversion → Nat → UInt8} {bound : Nat → Nat}
  {path : List Char} {fs fs' : FileSystem} {c : Conversion} {cs : List Conversion}

theorem FileSystem.content_save (fs : FileSystem) (path p : List Char) (bs : List UInt8) :
    (fs.save path bs).content p =
      if p = path ∧ fs.writable path = true then some bs else fs.content p := by
  unfold FileSystem.save
  cases hw : fs.writable path with
  | false => simp
  | true => simp [Function.update_apply]

theorem FileSystem.flags_save (fs : FileSystem) (path : List Char) (bs : List UInt8) :
    (fs.save path bs).readable = fs.readable ∧ (fs.save path bs).writable = fs.writable ∧
      (fs.save path bs).breaks = fs.breaks := by
  unfold FileSystem.save
  split <;> exact ⟨rfl, rfl, rfl⟩

/-- What is written to a file does not change which names there are. -/
theorem sameNames_save_save (fs : FileSystem) (path : List Char) (bs bs' : List UInt8) :
    SameNames (fs.save path bs) ((fs.save path bs).save path bs') := by
  obtain ⟨hr, hw, hb⟩ := (fs.save path bs).flags_save path bs'
  refine ⟨hr, hw, hb, fun p => ?_⟩
  rw [FileSystem.content_save, FileSystem.content_save, (fs.flags_save path bs).2.1]
  split <;> rfl

theorem SameNames.openIn (h : SameNames fs fs') (path : List Char) :
    (fs'.openIn path).map Source.ends = (fs.openIn path).map Source.ends := by
  simp only [FileSystem.openIn, h.readable, h.breaks]
  split
  · have hsome := h.content path
    cases hc : fs.content path <;> cases hc' : fs'.content path <;> simp [hc, hc'] at hsome ⊢
    cases fs.breaks path <;> rfl
  · rfl

theorem SameNames.save (h : SameNames fs fs') (path : List Char) (bs : List UInt8) :
    SameNames (fs.save path bs) (fs'.save path bs) := by
  obtain ⟨hr, hw, hb⟩ := fs.flags_save path bs
  obtain ⟨hr', hw', hb'⟩ := fs'.flags_save path bs
  refine ⟨?_, ?_, ?_, fun p => ?_⟩
  · rw [hr, hr', h.readable]
  · rw [hw, hw', h.writable]
  · rw [hb, hb', h.breaks]
  · rw [FileSystem.content_save, FileSystem.content_save, h.writable]
    split
    · rfl
    · exact h.content p

/-- Conversions to ASCII do not ask what is in their inputs. -/
def ToAsciiOnly (cs : List Conversion) : Prop := ∀ c ∈ cs, ∃ idx, c = .convertBinToASCII idx

theorem accepts_toAscii_iff {idx : Nat} {file : Option Source} :
    (∃ src, file = some src ∧ (Conversion.convertBinToASCII idx).Accepts src) ↔
      file.map Source.ends = some true := by
  cases file <;> simp [Conversion.Accepts]

theorem SameNames.convertible_iff (h : SameNames fs fs') (hcs : ToAsciiOnly cs) :
    Convertible path fs' cs ↔ Convertible path fs cs := by
  induction cs generalizing fs fs' with
  | nil => rfl
  | cons c cs ih =>
      obtain ⟨⟨idx, rfl⟩, hrest⟩ := List.forall_mem_cons.mp hcs
      simp only [Convertible, accepts_toAscii_iff, h.openIn, FileSystem.openOut]
      rw [ih (h.save _ []) hrest]

/-- What an ended conversion leaves of the file system. -/
theorem Conversion.run_sameNames (h : c.run uns mem bound path fs = some fs') :
    SameNames (fs.openOut (c.output path)).1 fs' := by
  simp only [Conversion.run, FileSystem.openOut, Option.map_eq_some_iff] at h
  obtain ⟨f, -, rfl⟩ := h
  exact sameNames_save_save fs (c.output path) [] f.close.content

theorem Decompress.InSized.setOutput {s : Decompress} (h : s.InSized) (f : Ofstream) :
    ({ s with logToWrite := f } : Decompress).InSized :=
  ⟨h.blockSize, h.inBuf⟩

/-- A conversion does not come to its end without an input that it accepts. -/
theorem Conversion.run_eq_none
    (h : ¬ ∃ src, fs.openIn (c.input path) = some src ∧ c.Accepts src) :
    c.run uns mem bound path fs = none := by
  unfold Conversion.run
  cases c with
  | decompress idx codec =>
      dsimp only
      rw [Option.map_eq_none_iff, Option.bind_eq_none_iff]
      rintro ⟨i, t⟩ hloop
      have hs := (Decompress.start_sized (Source.stream (fs.openIn
        (Conversion.input path (.decompress idx codec)))) (mem (.decompress idx codec))).toInSized
      cases hfile : fs.openIn (Conversion.input path (.decompress idx codec)) with
      | none =>
          rw [hfile, decompressCall_eq_none rfl rfl] at hloop
          cases hloop
      | some src =>
          rw [hfile] at hloop hs
          obtain ⟨hbytes, hlen, htail⟩ := splitBlocks_eq src.bytes
          have hover := decompressCall_overruns
            (s := { Decompress.start (Source.stream (some src)) (mem (.decompress idx codec)) with
              logToWrite := (fs.openOut (Conversion.output path (.decompress idx codec))).2 })
            hlen htail (fun hd => h ⟨src, hfile, ⟨hd.1, hd.2⟩⟩) (hs.setOutput _)
            (congrArg (Ifstream.reading · src.ends) hbytes) hloop
          exact if_pos hover
  | convertBinToASCII idx =>
      dsimp only
      have hend : (Source.stream (fs.openIn
          (Conversion.input path (.convertBinToASCII idx)))).Endless := by
        cases hfile : fs.openIn (Conversion.input path (.convertBinToASCII idx)) with
        | none => exact Ifstream.endless_fail
        | some src =>
            have hends : src.ends = false := by
              rw [← Bool.not_eq_true]
              exact fun hends => h ⟨src, hfile, hends⟩
            rw [Source.stream, hends]
            exact Ifstream.endless_reading src.bytes
      rw [toAsciiBody_eq_none hend]
      rfl

/-- With one it does, within as many iterations as there are bytes. -/
theorem Conversion.run_isSome
    (h : ∃ src, fs.openIn (c.input path) = some src ∧ c.Accepts src) :
    (c.run uns mem (max 1) path fs).isSome = true := by
  obtain ⟨src, hfile, haccepts⟩ := h
  unfold Conversion.run
  rw [hfile]
  cases c with
  | decompress idx codec =>
      obtain ⟨hbytes, -, htail⟩ := splitBlocks_eq src.bytes
      have hs := (Decompress.start_sized (Source.stream (some src))
        (mem (.decompress idx codec))).toInSized
      obtain ⟨t, ht, hover⟩ := decompressCall_loop uns codec (i := 0)
        (s := { Decompress.start (Source.stream (some src)) (mem (.decompress idx codec)) with
          logToWrite := (fs.openOut (Conversion.output path (.decompress idx codec))).2 })
        haccepts.blocks htail haccepts.tail (hs.setOutput _)
        (congrArg (Ifstream.reading · src.ends) hbytes)
      have hn : (splitBlocks src.bytes).1.length + 1 ≤ max 1 src.bytes.length := by
        have hlen := congrArg List.length hbytes
        rw [List.length_append] at hlen
        have hle := length_flatMap_sizePrefixed (splitBlocks src.bytes).1
        omega
      have hfalse : t.2.overrun = false := hover.trans
        (Decompress.start_overrun (Source.stream (some src)) (mem (.decompress idx codec)))
      have hwritten : t.2.written = some t.2.logToWrite :=
        if_neg (by rw [hfalse]; exact Bool.false_ne_true)
      dsimp only [Option.elim_some]
      rw [loop_mono ht hn, Option.bind_some, hwritten]
      rfl
  | convertBinToASCII idx =>
      have hr : Source.stream (some src) = .reading src.bytes true :=
        congrArg (Ifstream.reading src.bytes) haccepts
      obtain ⟨t, ht⟩ := Option.isSome_iff_exists.mp
        (toAsciiBody_isSome
          (s := { ToAscii.start (Source.stream (some src)) (mem (.convertBinToASCII idx)) with
            logToWrite := (fs.openOut (Conversion.output path (.convertBinToASCII idx))).2 }) hr)
      dsimp only [Option.elim_some]
      rw [loop_mono ht (by omega)]
      rfl

/-! ## a call -/

/-- Conversions that end have had inputs that they accept. -/
theorem convertible_of_run (hcs : ToAsciiOnly cs.tail)
    (h : (runConversions uns mem bound path fs cs).isSome = true) : Convertible path fs cs := by
  induction cs generalizing fs with
  | nil => trivial
  | cons c cs ih =>
      rw [runConversions, List.foldlM_cons] at h
      cases hc : c.run uns mem bound path fs with
      | none => simp [hc] at h
      | some fs' =>
          rw [hc] at h
          refine ⟨?_, ((Conversion.run_sameNames hc).convertible_iff hcs).mp
            (ih (fun c hc => hcs c (List.mem_of_mem_tail hc)) h)⟩
          by_contra hnot
          rw [Conversion.run_eq_none hnot] at hc
          cases hc

/-- Conversions that have such inputs end. -/
theorem run_of_convertible (hcs : ToAsciiOnly cs.tail) (h : Convertible path fs cs) :
    (runConversions uns mem (max 1) path fs cs).isSome = true := by
  induction cs generalizing fs with
  | nil => rfl
  | cons c cs ih =>
      obtain ⟨hin, hrest⟩ := h
      obtain ⟨fs', hc⟩ := Option.isSome_iff_exists.mp (Conversion.run_isSome hin)
      rw [runConversions, List.foldlM_cons, hc]
      exact ih (fun c hc => hcs c (List.mem_of_mem_tail hc))
        (((Conversion.run_sameNames hc).convertible_iff hcs).mpr hrest)

theorem toAsciiOnly_convertLogFile (decomp : Bool) :
    ToAsciiOnly (convertLogFile path decomp).tail := by
  unfold convertLogFile
  split
  · split <;> exact List.forall_mem_nil _
  · split <;> exact List.forall_mem_nil _

theorem toAsciiOnly_convertLogFileToAscii : ToAsciiOnly (convertLogFileToAscii path).tail := by
  unfold convertLogFileToAscii
  split
  · exact List.forall_mem_singleton.mpr ⟨_, rfl⟩
  · exact List.forall_mem_singleton.mpr ⟨_, rfl⟩
  · split <;> exact List.forall_mem_nil _

end Conversions

/-- The loops of a call end when each may make `bound n` iterations for an
input of `n` bytes. -/
def EndsWithin (uns : Nat → Unsquash) (mem : Conversion → Nat → UInt8) (bound : Nat → Nat)
    (path : List Char) (fs : FileSystem) (cs : List Conversion) : Prop :=
  (runConversions uns mem bound path fs cs).isSome = true

/-- **When the converter ends.**  For every path, every state of the file
system and every behaviour of the codec: the loops of a call of
`convertLogFile` or `convertLogFileToAscii` end, each within as many iterations
as its input has bytes (one, if it is empty), exactly when the files to be read
can be opened and are ones they can convert.  Otherwise no bound is enough. -/
theorem converter_terminates_iff (uns : Nat → Unsquash) (mem : Conversion → Nat → UInt8)
    (path : List Char) (fs : FileSystem) :
    (∀ decomp,
      (EndsWithin uns mem (max 1) path fs (convertLogFile path decomp) ↔
        Convertible path fs (convertLogFile path decomp)) ∧
      ((∃ bound, EndsWithin uns mem bound path fs (convertLogFile path decomp)) ↔
        Convertible path fs (convertLogFile path decomp))) ∧
    (EndsWithin uns mem (max 1) path fs (convertLogFileToAscii path) ↔
      Convertible path fs (convertLogFileToAscii path)) ∧
    ((∃ bound, EndsWithin uns mem bound path fs (convertLogFileToAscii path)) ↔
      Convertible path fs (convertLogFileToAscii path)) := by
  have hone : ∀ cs, ToAsciiOnly cs.tail →
      (EndsWithin uns mem (max 1) path fs cs ↔ Convertible path fs cs) := fun cs hcs =>
    ⟨convertible_of_run hcs, run_of_convertible hcs⟩
  have hany : ∀ cs, ToAsciiOnly cs.tail →
      ((∃ bound, EndsWithin uns mem bound path fs cs) ↔ Convertible path fs cs) := fun cs hcs =>
    ⟨fun ⟨_, h⟩ => convertible_of_run hcs h, fun h => ⟨max 1, run_of_convertible hcs h⟩⟩
  exact ⟨fun decomp =>
      ⟨hone _ (toAsciiOnly_convertLogFile decomp), hany _ (toAsciiOnly_convertLogFile decomp)⟩,
    hone _ toAsciiOnly_convertLogFileToAscii, hany _ toAsciiOnly_convertLogFileToAscii⟩

/-- **A missing file, and a directory.**  The conversion of `:b:` does not end
without any file, nor when `:b:` is a directory. -/
theorem converter_runs_forever :
    (¬ ∃ bound, EndsWithin (fun _ => refuse) (fun _ _ => 0) bound [':', 'b', ':']
      ⟨fun _ => none, fun _ => true, fun _ => true, fun _ => none⟩
      (convertLogFileToAscii [':', 'b', ':'])) ∧
    ¬ ∃ bound, EndsWithin (fun _ => refuse) (fun _ _ => 0) bound [':', 'b', ':']
      ⟨fun _ => some [], fun _ => true, fun _ => false, fun _ => some 0⟩
      (convertLogFileToAscii [':', 'b', ':']) := by
  have hconv : convertLogFileToAscii [':', 'b', ':'] = [.convertBinToASCII 0] := by decide
  have hnil : ToAsciiOnly [Conversion.convertBinToASCII 0].tail := List.forall_mem_nil _
  rw [hconv]
  constructor
  · rintro ⟨bound, h⟩
    obtain ⟨⟨src, hsrc, -⟩, -⟩ := convertible_of_run hnil h
    cases hsrc
  · rintro ⟨bound, h⟩
    obtain ⟨⟨src, hsrc, hends⟩, -⟩ := convertible_of_run hnil h
    cases hsrc
    cases hends

end CloudProfiler
