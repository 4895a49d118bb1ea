import CloudProfiler.Elapsed

/-!
# CloudProfiler.TupleLog

Logs each line of which starts with a tuple and its time-stamp.  Most channels
write such a log, and each has columns of its own after these three; `loadTS`
(`util.py`) reads no further.

* `tupleText` — such a line;
* `loadTS_tupleLog` — the log is loaded, grouped by tuple.
-/

namespace CloudProfiler

/-- A line that starts with a tuple and its time-stamp. -/
def tupleText (tuple : Int64) (ts : Timespec) (rest : List Char) : List Char :=
  intText tuple.toInt ++ ',' :: ' ' :: (intText ts.tvSec.toInt ++
    ',' :: ' ' :: (intText ts.tvNsec.toInt ++ ',' :: ' ' :: rest))

theorem newline_not_mem_tupleText {tuple : Int64} {ts : Timespec} {rest : List Char}
    (h : '\n' ∉ rest) : '\n' ∉ tupleText tuple ts rest := by
  simp [tupleText, newline_not_mem_intText, h]

/-- The columns of the line. -/
theorem splitOn_tupleText (tuple : Int64) (ts : Timespec) (rest : List Char) :
    (tupleText tuple ts rest).splitOn ',' =
      intText tuple.toInt :: (' ' :: intText ts.tvSec.toInt) ::
        (' ' :: intText ts.tvNsec.toInt) :: (' ' :: rest).splitOn ',' := by
  unfold tupleText
  rw [List.splitOn_append_cons_self_of_not_mem (comma_not_mem_intText _), ← List.cons_append,
    List.splitOn_append_cons_self_of_not_mem (by simp [comma_not_mem_intText]),
    ← List.cons_append, List.splitOn_append_cons_self_of_not_mem (by simp [comma_not_mem_intText])]

theorem loadTSLines_tupleText (tuple : Int64) (ts : Timespec) (rest : List Char)
    (lines : List (List Char)) (d : Dict Int (List TSEntry)) :
    loadTSLines (tupleText tuple ts rest :: lines) d =
      loadTSLines lines (d.append tuple.toInt ts.entry) := by
  rw [loadTSLines, splitOn_tupleText]
  simp only [parseInt_intText, parseInt_blank_intText, Option.bind_some]
  rfl

section Load

variable {ι : Type} {tuple : ι → Int64} {ts : ι → Timespec} {rest : ι → List Char}

theorem loadTSLines_tupleLog (ls : List ι) (d : Dict Int (List TSEntry)) :
    loadTSLines (ls.map fun l => tupleText (tuple l) (ts l) (rest l) ++ ['\n']) d =
      some ((ls.map fun l => ((tuple l).toInt, (ts l).entry)).foldl
        (fun d e => d.append e.1 e.2) d) := by
  induction ls generalizing d with
  | nil => rfl
  | cons l ls ih =>
      have hline : tupleText (tuple l) (ts l) (rest l) ++ ['\n'] =
          tupleText (tuple l) (ts l) (rest l ++ ['\n']) := by
        simp [tupleText]
      rw [List.map_cons, hline, loadTSLines_tupleText, ih, List.map_cons, List.foldl_cons]

/-- **A log of tuples is loaded**, every time-stamp under its tuple. -/
theorem loadTS_tupleLog (ls : List ι) (hrest : ∀ l ∈ ls, '\n' ∉ rest l) :
    loadTS (unlines (ls.map fun l => tupleText (tuple l) (ts l) (rest l))) =
      some (Dict.group (ls.map fun l => ((tuple l).toInt, (ts l).entry))) := by
  rw [loadTS, readLines_unlines, List.map_map]
  · exact loadTSLines_tupleLog ls Dict.empty
  · intro line hline
    obtain ⟨l, hl, rfl⟩ := List.mem_map.mp hline
    exact newline_not_mem_tupleText (hrest l hl)

end Load

end CloudProfiler
