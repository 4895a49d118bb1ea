import CloudProfiler.Log
import CloudProfiler.TupleLog

/-!
# CloudProfiler.LogText

The lines of `writeInAscii` as the Python scripts read them.

* `textOf` — the characters of a file;
* `textOf_writeInAscii` — a line starts with its tuple and time-stamp;
* `loadTS_writeInAscii` — what `loadTS` makes of a log.
-/

namespace CloudProfiler

/-- The characters of a file whose bytes are ASCII. -/
def textOf (bs : List UInt8) : List Char := bs.map fun b => Char.ofNat b.toNat

/-! ## numerals -/

theorem toList_toString_nat (n : Nat) : (toString n).toList = natText n :=
  String.toList_ofList

theorem toList_toString_int (z : Int) : (toString z).toList = intText z := by
  cases z with
  | ofNat n => exact toList_toString_nat n
  | negSucc n =>
      have happend : (toString (Int.negSucc n)).toList = "-".toList ++ (toString (n + 1)).toList :=
        String.toList_append
      rw [happend, toList_toString_nat]
      rfl

/-! ## lines -/

section Lines

variable {c : Char} {s : String}

/-- A character a stream inserter emits is read back. -/
theorem ofNat_toNat_ofNat (h : c.toNat < 256) : Char.ofNat (UInt8.ofNat c.toNat).toNat = c := by
  rw [UInt8.toNat_ofNat', Nat.mod_eq_of_lt h, Char.ofNat_toNat]

theorem textOf_asciiBytes (h : ∀ c ∈ s.toList, c.toNat < 256) :
    textOf (asciiBytes s) = s.toList := by
  rw [textOf, asciiBytes, List.map_map]
  exact (List.map_congr_left fun c hc => ofNat_toNat_ofNat (h c hc)).trans (List.map_id _)

theorem toNat_lt_of_isDigit (h : c.isDigit = true) : c.toNat < 256 := by
  simp only [Char.isDigit, Bool.and_eq_true, decide_eq_true_eq] at h
  have hle : c.toNat ≤ 57 := UInt32.le_iff_toNat_le.mp h.2
  omega

theorem toNat_lt_of_mem_natText {n : Nat} (h : c ∈ natText n) : c.toNat < 256 :=
  toNat_lt_of_isDigit (isDigit_of_mem_natText h)

theorem toNat_lt_of_mem_intText {z : Int} (h : c ∈ intText z) : c.toNat < 256 := by
  obtain rfl | h := mem_intText h
  · decide
  · exact toNat_lt_of_isDigit h

/-- What `writeInAscii` writes behind the time-stamp. -/
def counterText (ts : Timespec) : List Char :=
  natText ts.tsc.toNat ++ ',' :: ' ' :: natText ts.aux.toNat

theorem newline_not_mem_counterText (ts : Timespec) : '\n' ∉ counterText ts := by
  have hnat (n : Nat) : '\n' ∉ natText n := fun h => by
    have := isDigit_of_mem_natText h
    simp at this
  simp [counterText, hnat]

/-- **A line of the log.** -/
theorem textOf_writeInAscii (tuple : Int64) (ts : Timespec) :
    textOf (writeInAscii tuple ts) = tupleText tuple ts (counterText ts) ++ ['\n'] := by
  have hline : (toString tuple.toInt ++ ", " ++ toString ts.tvSec.toInt ++ ", " ++
      toString ts.tvNsec.toInt ++ ", " ++ toString ts.tsc.toNat ++ ", " ++
      toString ts.aux.toNat ++ "\n").toList = tupleText tuple ts (counterText ts) ++ ['\n'] := by
    simp only [String.toList_append, toList_toString_nat, toList_toString_int, tupleText,
      counterText, List.append_assoc, List.cons_append]
    rfl
  rw [writeInAscii, textOf_asciiBytes, hline]
  rw [hline]
  intro c hc
  simp only [tupleText, counterText, List.append_assoc, List.cons_append,
    List.mem_append, List.mem_cons, List.not_mem_nil, or_false] at hc
  obtain h | rfl | rfl | h | rfl | rfl | h | rfl | rfl | h | rfl | rfl | h | rfl := hc
  · exact toNat_lt_of_mem_intText h
  · decide
  · decide
  · exact toNat_lt_of_mem_intText h
  · decide
  · decide
  · exact toNat_lt_of_mem_intText h
  · decide
  · decide
  · exact toNat_lt_of_mem_natText h
  · decide
  · decide
  · exact toNat_lt_of_mem_natText h
  · decide

end Lines

/-! ## logs -/

/-- The entry of a record in what `loadTS` returns. -/
def LogData.entry (d : LogData) : Int × TSEntry := (d.tuple.toInt, d.ts.entry)

/-- **A log is loaded**: every record under its tuple. -/
theorem loadTS_writeInAscii (ds : List LogData) :
    loadTS (textOf (ds.flatMap fun d => writeInAscii d.tuple d.ts)) =
      some (Dict.group (ds.map LogData.entry)) := by
  have htext : textOf (ds.flatMap fun d => writeInAscii d.tuple d.ts) =
      unlines (ds.map fun d => tupleText d.tuple d.ts (counterText d.ts)) := by
    rw [textOf, List.map_flatMap, unlines, List.flatMap_map]
    exact List.flatMap_congr fun d _ => textOf_writeInAscii d.tuple d.ts
  rw [htext, loadTS_tupleLog ds fun d _ => newline_not_mem_counterText d.ts]
  rfl

end CloudProfiler
