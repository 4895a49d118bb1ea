import Mathlib.Data.Char
import Mathlib.Data.UInt

/-!
# CloudProfiler.Log

What a channel logs and where it goes: the log formats, the extended
`timespec`, the `log_data` record of a buffer block, the output file, and
the four record writers of `id_handler.cpp`.

The file is the part of `std::ofstream` the handlers use: `write` appends
while the file is open and has no effect once it is closed (the stream is
then in a failed state), and `closes` counts the calls of `close`.
-/

namespace CloudProfiler

/-- `enum log_format` of `cloud_profiler.h`. -/
inductive LogFormat
  | ascii | asciiTsc | binary | binaryTsc | zstd | zstdTsc | lzo1x | lzo1xTsc
  deriving DecidableEq, Repr

/-- The formats whose handler is one of the `…Tsc` handlers. -/
def LogFormat.isTsc : LogFormat → Bool
  | .asciiTsc | .binaryTsc | .zstdTsc | .lzo1xTsc => true
  | .ascii | .binary | .zstd | .lzo1x => false

/-- `struct timespec` of `time_tsc.h`.  `pad` is the padding the compiler
adds after `aux` to make the struct 32 bytes long: a struct assignment
carries it along and `writeInBinary` writes it out. -/
structure Timespec where
  tvSec : Int64
  tvNsec : Int64
  tsc : UInt64
  aux : UInt32
  pad : UInt32
  deriving DecidableEq, Repr

/-- `struct log_data`: one record of a buffer block. -/
structure LogData where
  tuple : Int64
  ts : Timespec
  deriving DecidableEq, Repr

/-! ## the output file -/

/-- `std::ofstream ch_logf`. -/
structure Ofstream where
  content : List UInt8
  isOpen : Bool
  closes : Nat
  deriving DecidableEq, Repr

namespace Ofstream

/-- The stream of a closure whose file was not opened yet. -/
def unopened : Ofstream := ⟨[], false, 0⟩

/-- `ch_logf.open` in truncating mode. -/
def opened : Ofstream := ⟨[], true, 0⟩

/-- `ch_logf.write`. -/
def write (f : Ofstream) (bs : List UInt8) : Ofstream :=
  if f.isOpen then { f with content := f.content ++ bs } else f

/-- `ch_logf.close`. -/
def close (f : Ofstream) : Ofstream := { f with isOpen := false, closes := f.closes + 1 }

theorem write_append (f : Ofstream) (as bs : List UInt8) :
    (f.write as).write bs = f.write (as ++ bs) := by
  cases h : f.isOpen <;> simp [write, h]

@[simp] theorem write_nil (f : Ofstream) : f.write [] = f := by
  simp [write]

@[simp] theorem isOpen_write (f : Ofstream) (bs : List UInt8) : (f.write bs).isOpen = f.isOpen := by
  unfold write; split <;> rfl

@[simp] theorem closes_write (f : Ofstream) (bs : List UInt8) : (f.write bs).closes = f.closes := by
  unfold write; split <;> rfl

theorem content_write_of_isOpen {f : Ofstream} (h : f.isOpen = true) (bs : List UInt8) :
    (f.write bs).content = f.content ++ bs := by
  simp [write, h]

@[simp] theorem content_close (f : Ofstream) : f.close.content = f.content := rfl

@[simp] theorem isOpen_close (f : Ofstream) : f.close.isOpen = false := rfl

@[simp] theorem closes_close (f : Ofstream) : f.close.closes = f.closes + 1 := rfl

end Ofstream

/-! ## the record writers -/

/-- The low `n` bytes of a number, least significant first: the memory image
of an unsigned integer on the machines the profiler runs on. -/
def leBytes (n x : Nat) : List UInt8 :=
  (List.range n).map fun i => UInt8.ofNat (x / 256 ^ i)

@[simp] theorem length_leBytes (n x : Nat) : (leBytes n x).length = n := by
  simp [leBytes]

/-- The characters a stream inserter emits. -/
def asciiBytes (s : String) : List UInt8 := s.toList.map fun c => UInt8.ofNat c.toNat

/-- Memory image of a `timespec`. -/
def Timespec.image (ts : Timespec) : List UInt8 :=
  leBytes 8 ts.tvSec.toUInt64.toNat ++ leBytes 8 ts.tvNsec.toUInt64.toNat ++
    leBytes 8 ts.tsc.toNat ++ leBytes 4 ts.aux.toNat ++ leBytes 4 ts.pad.toNat

/-- Memory image of a `log_data`, as the codecs see it: 40 bytes. -/
def LogData.image (d : LogData) : List UInt8 :=
  leBytes 8 d.tuple.toUInt64.toNat ++ d.ts.image

theorem length_image (d : LogData) : d.image.length = 40 := by
  simp [LogData.image, Timespec.image]

/-- `writeInAscii`. -/
def writeInAscii (tuple : Int64) (ts : Timespec) : List UInt8 :=
  asciiBytes (toString tuple.toInt ++ ", " ++ toString ts.tvSec.toInt ++ ", " ++
    toString ts.tvNsec.toInt ++ ", " ++ toString ts.tsc.toNat ++ ", " ++
    toString ts.aux.toNat ++ "\n")

/-- `writeInAsciiTsc`. -/
def writeInAsciiTsc (tuple : Int64) (ts : Timespec) : List UInt8 :=
  asciiBytes (toString tuple.toInt ++ ", " ++ toString ts.tsc.toNat ++ ", " ++
    toString ts.aux.toNat ++ "\n")

/-- `writeInBinary`. -/
def writeInBinary (tuple : Int64) (ts : Timespec) : List UInt8 :=
  leBytes 8 tuple.toUInt64.toNat ++ ts.image

/-- `writeInBinaryTsc`. -/
def writeInBinaryTsc (tuple : Int64) (ts : Timespec) : List UInt8 :=
  leBytes 8 tuple.toUInt64.toNat ++ leBytes 8 ts.tsc.toNat

/-- The values `write_handler_f` takes. -/
inductive WriteHandler
  | writeInAscii | writeInAsciiTsc | writeInBinary | writeInBinaryTsc
  deriving DecidableEq, Repr

/-- The bytes a call through `write_handler_f` inserts into the stream. -/
def WriteHandler.bytes : WriteHandler → LogData → List UInt8
  | .writeInAscii, d => CloudProfiler.writeInAscii d.tuple d.ts
  | .writeInAsciiTsc, d => CloudProfiler.writeInAsciiTsc d.tuple d.ts
  | .writeInBinary, d => CloudProfiler.writeInBinary d.tuple d.ts
  | .writeInBinaryTsc, d => CloudProfiler.writeInBinaryTsc d.tuple d.ts

end CloudProfiler
