import CloudProfiler.Log

/-!
# CloudProfiler.Identity

The unbuffered handlers of `id_handler.cpp`: every call of `logTS` takes a
time-stamp and writes the record straight to the channel's file.  They are
what buffered logging is measured against.

`initIdentityHandler` has no case for the compressed formats, so both
function pointers of such a closure stay unset.
-/

namespace CloudProfiler

/-- The values `handler_f` takes on an IDENTITY channel. -/
inductive IdHandler
  | identityHandler | identityHandlerTsc
  deriving DecidableEq, Repr

/-- `struct id_closure`, with the fields the handlers use. -/
structure IdClosure where
  handlerF : Option IdHandler
  writeHandlerF : Option WriteHandler
  firstLogging : Bool
  chLogf : Ofstream
  deriving DecidableEq, Repr

/-- `initIdentityHandler`, with the channel's file opened. -/
def initIdentityHandler : LogFormat → IdClosure
  | .ascii => ⟨some .identityHandler, some .writeInAscii, true, .opened⟩
  | .asciiTsc => ⟨some .identityHandlerTsc, some .writeInAscii, true, .opened⟩
  | .binary => ⟨some .identityHandler, some .writeInBinary, true, .opened⟩
  | .binaryTsc => ⟨some .identityHandlerTsc, some .writeInBinary, true, .opened⟩
  | .zstd | .zstdTsc | .lzo1x | .lzo1xTsc => ⟨none, none, true, .opened⟩

/-- A call through `write_handler_f`; an unset pointer cannot be called. -/
def IdClosure.callWriteHandler (cl : IdClosure) (d : LogData) : Option IdClosure :=
  cl.writeHandlerF.map fun w => { cl with chLogf := cl.chLogf.write (w.bytes d) }

/-- `IdentityHandler`, the time-stamp it takes being `d.ts`. -/
def identityHandler (cl : IdClosure) (d : LogData) : Option IdClosure :=
  cl.callWriteHandler d

/-- `IdentityHandlerTsc`: the first record is written in full, later ones by
the corresponding `…Tsc` writer.  Only `d.ts.tsc` is fresh on later calls. -/
def identityHandlerTsc (cl : IdClosure) (d : LogData) : Option IdClosure :=
  if cl.firstLogging then
    (IdClosure.callWriteHandler { cl with firstLogging := false } d).map fun cl =>
      { cl with
        writeHandlerF := if cl.writeHandlerF = some .writeInAscii then some .writeInAsciiTsc
          else some .writeInBinaryTsc }
  else
    cl.callWriteHandler d

/-- One `logTS` call (tuple ≠ -1) on an IDENTITY channel. -/
def IdClosure.logTS (cl : IdClosure) (d : LogData) : Option IdClosure :=
  match cl.handlerF with
  | some .identityHandler => identityHandler cl d
  | some .identityHandlerTsc => identityHandlerTsc cl d
  | none => none

/-- A sequence of `logTS` calls on an IDENTITY channel. -/
def IdClosure.logAll : IdClosure → List LogData → Option IdClosure
  | cl, [] => some cl
  | cl, d :: ds => (cl.logTS d).bind (·.logAll ds)

/-- Direct logging with a fixed writer appends the records one after the
other. -/
theorem logAll_identityHandler {w : WriteHandler} (ds : List LogData) (cl : IdClosure)
    (hh : cl.handlerF = some .identityHandler) (hw : cl.writeHandlerF = some w) :
    cl.logAll ds = some { cl with chLogf := cl.chLogf.write (ds.flatMap w.bytes) } := by
  induction ds generalizing cl with
  | nil => simp [IdClosure.logAll]
  | cons d ds ih =>
      have hcall : cl.logTS d = some { cl with chLogf := cl.chLogf.write (w.bytes d) } := by
        simp [IdClosure.logTS, hh, identityHandler, IdClosure.callWriteHandler, hw]
      rw [IdClosure.logAll, hcall, Option.bind_some,
        ih { cl with chLogf := cl.chLogf.write (w.bytes d) } hh hw]
      simp [Ofstream.write_append]

end CloudProfiler
