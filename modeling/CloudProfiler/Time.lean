import CloudProfiler.Log

/-!
# CloudProfiler.Time

Arithmetic on the extended `timespec` (`time.cpp`, `globals.h`).  A function
that writes its result through a pointer takes what the result held before:
`aux` is not assigned.  Signed arithmetic wraps, as the compilers in use do.
-/

namespace CloudProfiler

/-- `NANO_S_PER_S`. -/
def nanoSPerS : UInt64 := 1000000000

/-- `addTS`. -/
def addTS (result t1 t2 : Timespec) : Timespec :=
  let sec := t1.tvSec + t2.tvSec
  let nsec := t1.tvNsec + t2.tvNsec
  if nsec ≥ nanoSPerS.toInt64 then
    { result with
      tvSec := sec + 1, tvNsec := nsec - nanoSPerS.toInt64, tsc := t1.tsc + t2.tsc }
  else
    { result with tvSec := sec, tvNsec := nsec, tsc := t1.tsc + t2.tsc }

/-- `subtractTS`: from `start` to `stop`. -/
def subtractTS (result start stop : Timespec) : Timespec :=
  if stop.tvNsec - start.tvNsec < 0 then
    { result with
      tvSec := stop.tvSec - start.tvSec - 1
      tvNsec := stop.tvNsec - start.tvNsec + nanoSPerS.toInt64
      tsc := stop.tsc - start.tsc }
  else
    { result with
      tvSec := stop.tvSec - start.tvSec
      tvNsec := stop.tvNsec - start.tvNsec
      tsc := stop.tsc - start.tsc }

/-- `divideTS`, with its return value. -/
def divideTS (result t : Timespec) (div : Int32) : Int × Timespec :=
  if div = 0 ∨ t.tvSec > (18446744073709551614 / nanoSPerS).toInt64 then (-1, result)
  else
    let ns := (t.tvSec.toUInt64 * nanoSPerS + t.tvNsec.toUInt64) / div.toInt64.toUInt64
    (0, { result with
      tvSec := (ns / nanoSPerS).toInt64
      tvNsec := (ns % nanoSPerS).toInt64
      tsc := t.tsc / div.toInt64.toUInt64 })

/-- `compareTS`. -/
def compareTS (t1 t2 : Timespec) : Int :=
  if t1.tvSec = t2.tvSec ∧ t1.tvNsec = t2.tvNsec then 0
  else if t1.tvSec < t2.tvSec ∨ (t1.tvSec = t2.tvSec ∧ t1.tvNsec < t2.tvNsec) then -1
  else 1

/-- A duration as the handlers convert it to nano-seconds. -/
def Timespec.elapsedNs (t : Timespec) : UInt64 := t.tvSec.toUInt64 * nanoSPerS + t.tvNsec.toUInt64

/-- A duration in nano-seconds as the handlers convert it to a `timespec`. -/
def periodOfNs (result : Timespec) (ns : UInt64) : Timespec :=
  { result with tvSec := (ns / nanoSPerS).toInt64, tvNsec := (ns % nanoSPerS).toInt64 }

end CloudProfiler
