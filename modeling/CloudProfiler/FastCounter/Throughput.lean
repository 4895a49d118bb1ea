import CloudProfiler.Dict
import CloudProfiler.FastCounter.Total
import CloudProfiler.Format

/-!
# CloudProfiler.FastCounter.Throughput

The log of a fast periodic counter as text, and the tools that count the
events in it: the loop of `throughput.py` and `cntTuplesFromFiles`.

A data line has five columns.  `throughput.py` only counts lines of four, so
it finds no event; `loadTS_FPC` takes every line that is no comment.

* `session` — any sequence of what the sampling threads do to a channel;
* `throughputLoop_logFile`, `cntTuples_logFile` — what the tools find in any
  log;
* `tools_agree_iff` — they agree with the total when there is no event at all.
-/

namespace CloudProfiler

/-! ## the log as text -/

/-- A line of the log; the period of a start line is printed with units. -/
def FPCLine.text (cal : Calendar) : FPCLine → List Char
  | .header =>
      lit "# <period_end>, <number_of_events>, " ++ lit "[period_end <s>, <ns>, <tsc>]"
  | .ctr ts n => writeTimeStampedCtr cal ts n
  | .start period =>
      lit "# start, period: " ++
        formatDuration period.tvSec.toUInt64 period.tvNsec.toUInt64 true
  | .truncated => lit "# truncated period"
  | .msg s => lit "# " ++ s.toList
  | .skipped n => lit "# skipped " ++ natText n.toNat ++ lit " intervals"
  | .total n => lit "# total count: " ++ natText n.toNat

/-- The characters of a log file. -/
def logFile (cal : Calendar) (lines : List FPCLine) : List Char :=
  unlines (lines.map (FPCLine.text cal))

/-- What the sampling threads do to a channel. -/
inductive FPCOp
  | insert (now : Timespec) (ev : UInt64)
  | sample (now : Timespec)
  | account
  | move (now : Timespec) (ev period : UInt64)
  | delete (now : Timespec) (ev : UInt64)

/-- The channel after it. -/
def FPCClosure.apply (cl : FPCClosure) : FPCOp → FPCClosure
  | .insert now ev => cl.logHeader.bookInsert now ev
  | .sample now => cl.sample now
  | .account => cl.account
  | .move now ev period => cl.bookMove now ev period
  | .delete now ev => cl.bookDelete now ev

/-- A channel that was opened and went through `ops`. -/
def session (ops : List FPCOp) : FPCClosure :=
  ops.foldl FPCClosure.apply { FPCClosure.init with base := .opened }

/-! ## the tools -/

/-- The loop of `throughput.py` over the lines of a file. -/
def throughputLoop : List (List Char) → Int → Option Int
  | [], numTuples => some numTuples
  | line :: lines, numTuples =>
      match line.splitOn ',' with
      | [_, c, _, _] =>
          if line.head? = some '#' then throughputLoop lines numTuples
          else (parseInt c).bind fun n => throughputLoop lines (numTuples + n)
      | _ => throughputLoop lines numTuples

/-- A time-stamp with its count, `[tv_sec, tv_nsec, cnt]`. -/
abbrev FPCEntry := Int × Int × Int

/-- The loop of `loadTS_FPC`.  At the first data line `ctr` is 0, and
`continue` goes on without reading the next line. -/
def loadFPCLines : List (List Char) → Nat → Dict Nat (List FPCEntry) →
    Option (Dict Nat (List FPCEntry))
  | [], _, d => some d
  | line :: lines, ctr, d =>
      if line.head? = some '#' then loadFPCLines lines ctr d
      else if ctr = 0 then loadFPCLines (line :: lines) 1 d
      else
        match line.splitOn ',' with
        | _ :: c :: sec :: nsec :: _ =>
            (parseInt c).bind fun cnt =>
              (parseInt (stripLeft (· = '[') (strip isBlank sec))).bind fun s =>
                (parseInt nsec).bind fun ns =>
                  loadFPCLines lines (ctr + 1) (d.set ctr [(s, ns, cnt)])
        | _ => none
  termination_by lines ctr => (lines.length, 1 - ctr)

/-- The function `loadTS_FPC` on the characters of a file. -/
def loadTS_FPC (file : List Char) : Option (Dict Nat (List FPCEntry)) :=
  loadFPCLines (readLines file) 0 Dict.empty

/-- The inner loop of `cntTuplesFromFiles`, over `d.values()`. -/
def countEntries : List (List FPCEntry) → Int → Option Int
  | [], count => some count
  | (e :: _) :: xs, count => countEntries xs (count + e.2.2)
  | [] :: _, _ => none

/-- What `cntTuplesFromFiles` adds for a file. -/
def cntTuples (file : List Char) : Option Int :=
  (loadTS_FPC file).bind fun d => countEntries d.values 0

/-! ## lines -/

variable {cal : Calendar} {l : FPCLine} {ls : List FPCLine}

/-- Messages are one line each. -/
def FPCLine.OneLine : FPCLine → Prop
  | .msg s => '\n' ∉ s.toList
  | _ => True

theorem comma_not_mem_intText (z : Int) : ',' ∉ intText z := not_mem_intText (by decide) (by decide)

theorem comma_not_mem_natText (n : Nat) : ',' ∉ natText n := comma_not_mem_intText n

theorem newline_not_mem_intText (z : Int) : '\n' ∉ intText z :=
  not_mem_intText (by decide) (by decide)

theorem newline_not_mem_natText (n : Nat) : '\n' ∉ natText n := newline_not_mem_intText n

theorem newline_not_mem_text (h : l.OneLine) : '\n' ∉ l.text cal := by
  cases l with
  | header =>
      rw [FPCLine.text, List.mem_append, not_or]
      exact ⟨not_mem_lit (by decide), not_mem_lit (by decide)⟩
  | ctr ts n =>
      have hts : '\n' ∉ formatTS cal ts := not_mem_formatTS (by decide) (by decide)
      rw [FPCLine.text, writeTimeStampedCtr_eq]
      simp [List.intercalate_cons_cons, hts, newline_not_mem_intText, newline_not_mem_natText]
  | start period =>
      rw [FPCLine.text, List.mem_append, not_or]
      exact ⟨not_mem_lit (by decide), newline_not_mem_formatDuration _ _ _⟩
  | truncated => exact not_mem_lit (by decide)
  | msg s =>
      rw [FPCLine.text, List.mem_append, not_or]
      exact ⟨not_mem_lit (by decide), h⟩
  | skipped n =>
      rw [FPCLine.text, List.mem_append, List.mem_append, not_or, not_or]
      exact ⟨⟨not_mem_lit (by decide), newline_not_mem_natText _⟩, not_mem_lit (by decide)⟩
  | total n =>
      rw [FPCLine.text, List.mem_append, not_or]
      exact ⟨not_mem_lit (by decide), newline_not_mem_natText _⟩

theorem readLines_logFile (h : ∀ l ∈ ls, l.OneLine) :
    readLines (logFile cal ls) = ls.map (FPCLine.text cal · ++ ['\n']) := by
  rw [logFile, readLines_unlines, List.map_map]
  · rfl
  · intro t ht
    obtain ⟨l, hl, rfl⟩ := List.mem_map.mp ht
    exact newline_not_mem_text (h l hl)

/-- The time-stamp and the count on a data line. -/
def FPCLine.entry : FPCLine → Option FPCEntry
  | .ctr ts n => some (ts.tvSec.toInt, ts.tvNsec.toInt, n.toNat)
  | _ => none

/-- A line is a data line or starts with `#`. -/
theorem comment_or_data (cal : Calendar) (l : FPCLine) :
    (l.count = 0 ∧ l.entry = none ∧ (l.text cal ++ ['\n']).head? = some '#') ∨
      ∃ ts n, l = .ctr ts n := by
  cases l with
  | ctr ts n => exact .inr ⟨ts, n, rfl⟩
  | _ =>
      refine .inl ⟨rfl, rfl, ?_⟩
      simp only [FPCLine.text, List.append_assoc]
      exact head?_lit_append (by decide)

/-- The columns of a data line. -/
theorem splitOn_ctr (ts : Timespec) (n : UInt64) :
    ((FPCLine.ctr ts n).text cal ++ ['\n']).splitOn ',' =
      [formatTS cal ts, ' ' :: natText n.toNat, ' ' :: '[' :: intText ts.tvSec.toInt,
        ' ' :: intText ts.tvNsec.toInt, ' ' :: natText ts.tsc.toNat ++ [']'] ++ ['\n']] := by
  have hts : ',' ∉ formatTS cal ts := not_mem_formatTS (by decide) (by decide)
  rw [FPCLine.text, writeTimeStampedCtr_eq, splitOn_intercalate_cons _ hts,
    splitOn_intercalate_cons _ (by simp [comma_not_mem_natText]),
    splitOn_intercalate_cons _ (by simp [comma_not_mem_intText]),
    splitOn_intercalate_cons _ (by simp [comma_not_mem_intText]), List.intercalate_singleton,
    List.splitOn_eq_singleton (by simp [comma_not_mem_natText])]

theorem head?_ctr (ts : Timespec) (n : UInt64) :
    ((FPCLine.ctr ts n).text cal ++ ['\n']).head? ≠ some '#' := fun h => by
  have hts : '#' ∉ formatTS cal ts := not_mem_formatTS (by decide) (by decide)
  obtain ⟨c, t, ht⟩ : ∃ c t, formatTS cal ts = c :: t := by
    rw [formatTS]
    cases cal.text ts.tvSec with
    | nil => exact ⟨_, _, rfl⟩
    | cons c l => exact ⟨_, _, rfl⟩
  rw [FPCLine.text, writeTimeStampedCtr_eq, List.intercalate_cons_cons, ht] at h
  refine hts ?_
  rw [ht, ← Option.some.inj h]
  exact List.mem_cons_self

/-! ## what the tools find -/

/-- **`throughput.py` finds no event**, whatever the log. -/
theorem throughputLoop_logFile (h : ∀ l ∈ ls, l.OneLine) (numTuples : Int) :
    throughputLoop (readLines (logFile cal ls)) numTuples = some numTuples := by
  rw [readLines_logFile h]
  clear h
  induction ls with
  | nil => rfl
  | cons l ls ih =>
      rw [List.map_cons, throughputLoop]
      obtain ⟨-, -, hhead⟩ | ⟨ts, n, rfl⟩ := comment_or_data cal l
      · split
        · rw [if_pos hhead, ih]
        · exact ih
      · rw [splitOn_ctr]
        exact ih

theorem parseInt_blank_bracket (z : Int) :
    parseInt (stripLeft (· = '[') (strip isBlank (' ' :: '[' :: intText z))) = some z := by
  have hblank : ∀ c ∈ '[' :: intText z, isBlank c = false := fun c hc => by
    obtain rfl | hc := List.mem_cons.mp hc
    · decide
    · exact isBlank_of_mem_intText hc
  have hstrip : strip isBlank (' ' :: '[' :: intText z) = '[' :: intText z :=
    strip_append_left (m := [' ']) (by simp [isBlank]) hblank
  have hopen : stripLeft (· = '[') ('[' :: intText z) = intText z := by
    rw [stripLeft, List.dropWhile_cons_of_pos (by simp)]
    exact dropWhile_eq_self_of_all_false fun c hc => by
      have : '[' ∉ intText z := not_mem_intText (by decide) (by decide)
      have hne : c ≠ '[' := fun h => this (h ▸ hc)
      simpa using hne
  rw [hstrip, hopen, parseInt_intText]

/-- The first data line is looked at twice: `continue` drops nothing. -/
theorem loadFPCLines_zero (lines : List (List Char)) (d : Dict Nat (List FPCEntry)) :
    loadFPCLines lines 0 d = loadFPCLines lines 1 d := by
  induction lines with
  | nil => rw [loadFPCLines, loadFPCLines]
  | cons line lines ih =>
      rw [loadFPCLines]
      split
      · next h => rw [ih, loadFPCLines, if_pos h]
      · rw [if_pos rfl]

theorem loadFPCLines_ctr {ctr : Nat} (hctr : ctr ≠ 0) (ts : Timespec) (n : UInt64)
    (lines : List (List Char)) (d : Dict Nat (List FPCEntry)) :
    loadFPCLines (((FPCLine.ctr ts n).text cal ++ ['\n']) :: lines) ctr d =
      loadFPCLines lines (ctr + 1)
        (d.set ctr [(ts.tvSec.toInt, ts.tvNsec.toInt, (n.toNat : Int))]) := by
  have hcount : parseInt (' ' :: natText n.toNat) = some (n.toNat : Int) :=
    parseInt_blank_intText n.toNat
  rw [loadFPCLines, if_neg (head?_ctr ts n), if_neg hctr, splitOn_ctr]
  simp only [hcount, parseInt_blank_bracket, parseInt_blank_intText, Option.bind_some]

/-- Every data line becomes an entry. -/
theorem loadFPCLines_map (cal : Calendar) {ctr : Nat} (hctr : ctr ≠ 0) (ls : List FPCLine)
    (d : Dict Nat (List FPCEntry)) (hd : ∀ k ∈ d.keys, k < ctr) :
    ∃ d', loadFPCLines (ls.map (FPCLine.text cal · ++ ['\n'])) ctr d = some d' ∧
      d'.values = d.values ++ (ls.filterMap FPCLine.entry).map fun e => [e] := by
  induction ls generalizing ctr d with
  | nil => exact ⟨d, by rw [List.map_nil, loadFPCLines], by simp⟩
  | cons l ls ih =>
      obtain ⟨-, hnone, hhead⟩ | ⟨ts, n, rfl⟩ := comment_or_data cal l
      · obtain ⟨d', hload, hvalues⟩ := ih hctr d hd
        exact ⟨d', by rw [List.map_cons, loadFPCLines, if_pos hhead, hload],
          by rw [hvalues, List.filterMap_cons_none hnone]⟩
      · have hnew : ctr ∉ d.keys := fun h => Nat.lt_irrefl _ (hd ctr h)
        obtain ⟨d', hload, hvalues⟩ := ih (show ctr + 1 ≠ 0 by omega)
          (d.set ctr [(ts.tvSec.toInt, ts.tvNsec.toInt, (n.toNat : Int))]) fun k hk => by
            obtain rfl | hk := Dict.mem_keys_set.mp hk
            · omega
            · have := hd k hk
              omega
        refine ⟨d', by rw [List.map_cons, loadFPCLines_ctr hctr, hload], ?_⟩
        rw [hvalues, Dict.values, Dict.items_set_of_not_mem hnew]
        simp [Dict.values, FPCLine.entry]

theorem countEntries_singletons (es : List FPCEntry) (count : Int) :
    countEntries (es.map fun e => [e]) count = some (count + (es.map (·.2.2)).sum) := by
  induction es generalizing count with
  | nil => simp [countEntries]
  | cons e es ih => rw [List.map_cons, countEntries, ih, List.map_cons, List.sum_cons, Int.add_assoc]

/-- The number of events on the data lines. -/
def events (ls : List FPCLine) : Nat := (ls.map (·.count.toNat)).sum

theorem events_cons (l : FPCLine) (ls : List FPCLine) :
    events (l :: ls) = l.count.toNat + events ls := by simp [events]

theorem events_eq_zero : events ls = 0 ↔ ∀ l ∈ ls, l.count = 0 := by
  induction ls with
  | nil => simp [events]
  | cons l ls ih =>
      have hcount : l.count.toNat = 0 ↔ l.count = 0 := UInt64.toNat_inj (b := 0)
      rw [events_cons, Nat.add_eq_zero_iff, hcount, ih, List.forall_mem_cons]

theorem sum_entries (ls : List FPCLine) :
    ((ls.filterMap FPCLine.entry).map (·.2.2)).sum = (events ls : Int) := by
  induction ls with
  | nil => rfl
  | cons l ls ih =>
      rw [events_cons]
      obtain ⟨hcount, hnone, -⟩ | ⟨ts, n, rfl⟩ := comment_or_data ⟨fun _ => [], by simp⟩ l
      · rw [List.filterMap_cons_none hnone, ih]
        simp [hcount]
      · simp [FPCLine.entry, FPCLine.count, ih]

/-- **`cntTuplesFromFiles` finds every event**, also those of the first data
line. -/
theorem cntTuples_logFile (h : ∀ l ∈ ls, l.OneLine) :
    cntTuples (logFile cal ls) = some (events ls : Int) := by
  obtain ⟨d, hload, hvalues⟩ := loadFPCLines_map cal Nat.one_ne_zero ls Dict.empty
    (by simp [Dict.empty, Dict.keys])
  have hempty : (Dict.empty : Dict Nat (List FPCEntry)).values = [] := rfl
  rw [cntTuples, loadTS_FPC, readLines_logFile h, loadFPCLines_zero, hload, Option.bind_some, hvalues,
    hempty, List.nil_append, countEntries_singletons, sum_entries, Int.zero_add]

/-! ## sessions -/

section Session

variable {cl : FPCClosure}

/-- The messages in the log are one line each. -/
def Clean (cl : FPCClosure) : Prop := ∀ l ∈ cl.base.lines, l.OneLine

theorem Clean.put (h : Clean cl) (hl : l.OneLine) : Clean (cl.put l) := by
  intro l' hl'
  simp only [FPCClosure.put, Base.put] at hl'
  split at hl'
  · obtain hl' | hl' := List.mem_append.mp hl'
    · exact h l' hl'
    · exact List.mem_singleton.mp hl' ▸ hl
  · exact h l' hl'

theorem Clean.flushSkipped (h : Clean cl) : Clean cl.flushSkipped := by
  unfold FPCClosure.flushSkipped
  split
  · exact h.put (l := .skipped cl.skippedIntervals) trivial
  · exact h

theorem Clean.truncated (h : Clean cl) (now : Timespec) (ev : UInt64) {msg : String}
    (hmsg : '\n' ∉ msg.toList) : Clean (cl.printTruncatedPeriod now ev msg) :=
  ((h.put (l := .ctr now ev) trivial).put (l := .truncated) trivial).put (l := .msg msg) hmsg

theorem Clean.total (h : Clean cl) (n : UInt64) : Clean { cl with totalCtr := n } := h

theorem Clean.apply (h : Clean cl) (op : FPCOp) : Clean (cl.apply op) := by
  cases op with
  | insert now ev =>
      have hheader : Clean cl.logHeader := by
        unfold FPCClosure.logHeader
        split
        · exact h
        · have hlogged : Clean { cl with isHeaderLogged := true } := h
          exact hlogged.put (l := .header) trivial
      exact ((hheader.total _).put (l := .ctr now ev) trivial).put (l := .start _) trivial
  | sample now => exact h
  | account =>
      rw [FPCClosure.apply, FPCClosure.account]
      split
      · exact h
      · exact (h.total _).flushSkipped.put (l := .ctr _ _) trivial
  | move now ev period => exact (h.total _).flushSkipped.truncated now ev (by decide)
  | delete now ev =>
      exact ((h.total _).flushSkipped.truncated now ev (by decide)).put (l := .total _) trivial

theorem FPCClosure.Tally.apply (h : cl.Tally) (op : FPCOp) : (cl.apply op).Tally := by
  cases op with
  | insert now ev => exact h.logHeader.bookInsert now ev
  | sample now => exact ⟨h.isOpen, h.counted⟩
  | account => exact h.account
  | move now ev period => exact h.bookMove now ev period
  | delete now ev => exact h.bookDelete now ev

theorem session_spec (ops : List FPCOp) : Clean (session ops) ∧ (session ops).Tally := by
  have h (ops : List FPCOp) (cl : FPCClosure) (hclean : Clean cl) (htally : cl.Tally) :
      Clean (ops.foldl FPCClosure.apply cl) ∧ (ops.foldl FPCClosure.apply cl).Tally := by
    induction ops generalizing cl with
    | nil => exact ⟨hclean, htally⟩
    | cons op ops ih => exact ih _ (hclean.apply op) (htally.apply op)
  exact h ops _ (fun l hl => by cases hl) ⟨rfl, rfl⟩

end Session

/-! ## agreement -/

/-- The loop of `throughput.py` and `cntTuplesFromFiles` find as many events
as the total at the end of the log says. -/
def ToolsAgree (cal : Calendar) (ls : List FPCLine) : Prop :=
  ∃ total : UInt64, ls.getLast? = some (.total total) ∧
    throughputLoop (readLines (logFile cal ls)) 0 = some (total.toNat : Int) ∧
    cntTuples (logFile cal ls) = some (total.toNat : Int)

theorem sum_count_eq_zero (h : ∀ l ∈ ls, l.count = 0) : (ls.map FPCLine.count).sum = 0 := by
  induction ls with
  | nil => rfl
  | cons l ls ih =>
      rw [List.map_cons, List.sum_cons, h l (by simp), ih fun l hl => h l (by simp [hl])]
      rfl

/-- **The tools agree only on logs without events**: `throughput.py` finds
none in any log. -/
theorem tools_agree_iff (cal : Calendar) (ops : List FPCOp) (now : Timespec) (ev : UInt64) :
    ToolsAgree cal ((session ops).bookDelete now ev).base.lines ↔
      ∀ l ∈ ((session ops).bookDelete now ev).base.lines, l.count = 0 := by
  obtain ⟨hclean, htally⟩ := session_spec ops
  have hclean' : Clean ((session ops).bookDelete now ev) := hclean.apply (.delete now ev)
  have htally' := htally.bookDelete now ev
  have hlast := FPCClosure.getLast_bookDelete htally.isOpen now ev
  rw [← FPCClosure.totalCtr_bookDelete now ev, ← htally'.counted, Base.counted] at hlast
  rw [ToolsAgree]
  simp only [throughputLoop_logFile hclean', cntTuples_logFile hclean', hlast]
  generalize ((session ops).bookDelete now ev).base.lines = ls
  constructor
  · rintro ⟨total, -, hloop, hcnt⟩
    have hevents := (Option.some.inj hcnt).trans (Option.some.inj hloop).symm
    exact events_eq_zero.mp (by exact_mod_cast hevents)
  · intro h
    exact ⟨0, by rw [sum_count_eq_zero h], by simp, by simp [events_eq_zero.mpr h]⟩

/-- A channel on which one event was counted before it was closed. -/
def oneEvent : List FPCOp := [.insert .zero 0]

/-- In its log `throughput.py` finds no event, where the total is one. -/
theorem tools_disagree :
    (∀ cal, throughputLoop (readLines
      (logFile cal ((session oneEvent).bookDelete .zero 1).base.lines)) 0 = some 0) ∧
    ∀ cal, ¬ ToolsAgree cal ((session oneEvent).bookDelete .zero 1).base.lines := by
  refine ⟨fun cal => throughputLoop_logFile ((session_spec oneEvent).1.apply (.delete .zero 1)) 0,
    fun cal h => ?_⟩
  have := (tools_agree_iff cal oneEvent .zero 1).mp h
  exact absurd this (by decide)

end CloudProfiler
