import CloudProfiler.Duration
import CloudProfiler.Least

/-!
# CloudProfiler.Tsc.Bulk

The synchronous run of `tsc_slave_1`: `do_bulk_sync_send_and_recv`
(`tsc_slave_1.cpp`), and the summary it prints to the console and to a file.

All texts go through one buffer.  The console is printed first, and the file
then has the reply cycle where it should have the shortest time.

* `SyncRun.step` — one round trip;
* `summary_cout`, `summary_logFile` — what is printed, line by line;
* `console_agrees` — the console is right;
* `summary_disagrees` — the file never is.
-/

namespace CloudProfiler.Tsc

open Least

/-! ## the source -/

/-- The message `TSC_msg`. -/
structure TSC_msg where
  req_cyc_start : Int64
  req_nsec_start : Int64
  reply_cyc : Int64
  reply_nsec_start : Int64
  reply_nsec_end : Int64
deriving DecidableEq

/-- A reply, and the two clocks that are read after it. -/
structure RoundTrip where
  msg : TSC_msg
  req_nsec_end : Int64
  req_cyc_end : Int64
deriving DecidableEq

/-- The cycles `cur_cyc`. -/
def RoundTrip.cur_cyc (r : RoundTrip) : Int64 := r.req_cyc_end - r.msg.req_cyc_start

/-- The nano-seconds `cur_nsec`. -/
def RoundTrip.cur_nsec (r : RoundTrip) : Int64 := r.req_nsec_end - r.msg.req_nsec_start

/-- The variables of the loop, and the lines of its log file. -/
structure SyncRun where
  min_cyc : Int64
  min_nsec : Int64
  accum_nsec : Int64
  reply_cyc : Int64
  logFile : List (List Char)

def SyncRun.init : SyncRun :=
  ⟨Int64.maxValue, Int64.maxValue, 0, 0,
    [lit "req_ns_send, reply_ns_receive, reply_ns_send, req_ns_receive"]⟩

/-- One iteration. -/
def SyncRun.step (s : SyncRun) (r : RoundTrip) : SyncRun where
  min_cyc := if r.cur_cyc < s.min_cyc then r.cur_cyc else s.min_cyc
  min_nsec := if r.cur_nsec < s.min_nsec then r.cur_nsec else s.min_nsec
  reply_cyc := if r.cur_nsec < s.min_nsec then r.msg.reply_cyc else s.reply_cyc
  accum_nsec := s.accum_nsec + r.cur_nsec
  logFile := s.logFile ++ [[','].intercalate
    [intText r.msg.req_nsec_start.toInt, intText r.msg.reply_nsec_start.toInt,
      intText r.msg.reply_nsec_end.toInt, intText r.req_nsec_end.toInt]]

/-- The buffer, and what was printed. -/
structure Printed where
  buf : List Char
  cout : List (List Char)
  logFile : List (List Char)

namespace Printed

/-- `formatDuration` and `l2aCommas` write into the buffer. -/
def write (p : Printed) (text : List Char) : Printed := { p with buf := text }

/-- A line on the console. -/
def toCout (p : Printed) (label : List Char) : Printed :=
  { p with cout := p.cout ++ [label ++ p.buf] }

/-- A line in the file. -/
def toFile (p : Printed) (label : List Char) : Printed :=
  { p with logFile := p.logFile ++ [label ++ p.buf] }

end Printed

/-- The summary at the end. -/
def summary (s : SyncRun) (nr_iter overall_nsec : Int64) : Printed :=
  let avg_nsec := s.accum_nsec / nr_iter
  let p : Printed := ⟨[], [], []⟩
  let p := p.write (formatDurationNs avg_nsec.toUInt64 true)
  let p := p.toCout (lit "Avg RTT/request: ")
  let p := p.toFile (lit "Avg RTT/request: ")
  let p := p.write (formatDurationNs s.min_nsec.toUInt64 true)
  let p := p.toCout (lit "Min RTT/request: ")
  let p := (p.write (l2aCommas s.min_cyc)).toCout (lit "Min cyc/request: ")
  let p := (p.write (l2aCommas s.reply_cyc)).toCout (lit "Min reply cycle: ")
  let p := p.toFile (lit "Min RTT/request: ")
  let p := (p.write (l2aCommas s.min_cyc)).toFile (lit "Min cyc/request: ")
  let p := (p.write (l2aCommas s.reply_cyc)).toFile (lit "Min reply cycle: ")
  let p := p.write (formatDurationNs overall_nsec.toUInt64 true)
  let p := p.toCout (lit "Elapsed Time: ")
  p.toFile (lit "Elapsed Time: ")

/-- `do_bulk_sync_send_and_recv`, from the replies and the clock at its
beginning and its end: the summary. -/
def do_bulk_sync_send_and_recv (rtts : List RoundTrip)
    (overall_start_nsec overall_end_nsec : Int64) : Printed :=
  summary (rtts.foldl SyncRun.step .init) (Int64.ofNat rtts.length)
    (overall_end_nsec - overall_start_nsec)

/-! ## what should be printed -/

/-- The nano-seconds as an integer. -/
def RoundTrip.nsec (r : RoundTrip) : Int := r.cur_nsec.toInt

/-- The average, rounded down. -/
def avgNsec (rtts : List RoundTrip) : Int := (rtts.map RoundTrip.nsec).sum / rtts.length

/-- The four lines, for the fastest round trip and the fewest cycles. -/
def summaryLines (rtts : List RoundTrip) (fastest : RoundTrip) (cycles : Int64) :
    List (List Char) :=
  [lit "Avg RTT/request: " ++ formatDurationNs (Int64.ofInt (avgNsec rtts)).toUInt64 true,
    lit "Min RTT/request: " ++ formatDurationNs fastest.cur_nsec.toUInt64 true,
    lit "Min cyc/request: " ++ l2aCommas cycles,
    lit "Min reply cycle: " ++ l2aCommas fastest.msg.reply_cyc]

/-- The lines are right: the first of the fastest round trips, and the fewest
cycles of all. -/
def LinesRight (rtts : List RoundTrip) (lines : List (List Char)) : Prop :=
  ∃ i fastest cycles, FirstLeast RoundTrip.nsec rtts i fastest ∧
    (∃ r ∈ rtts, r.cur_cyc = cycles) ∧ (∀ r ∈ rtts, cycles ≤ r.cur_cyc) ∧
    lines = summaryLines rtts fastest cycles

/-- **The summary file and the console agree**, and are right. -/
structure SummaryAgrees (rtts : List RoundTrip) (p : Printed) : Prop where
  file : LinesRight rtts (p.logFile.take 4)
  console : p.cout.take 4 = p.logFile.take 4

/-! ## what is printed -/

variable {s : SyncRun} {rtts : List RoundTrip} {nr_iter overall_nsec : Int64}

theorem summary_cout :
    (summary s nr_iter overall_nsec).cout =
      [lit "Avg RTT/request: " ++ formatDurationNs (s.accum_nsec / nr_iter).toUInt64 true,
        lit "Min RTT/request: " ++ formatDurationNs s.min_nsec.toUInt64 true,
        lit "Min cyc/request: " ++ l2aCommas s.min_cyc,
        lit "Min reply cycle: " ++ l2aCommas s.reply_cyc,
        lit "Elapsed Time: " ++ formatDurationNs overall_nsec.toUInt64 true] := by
  rw [summary]
  rfl

/-- **The second line of the file has the reply cycle.** -/
theorem summary_logFile :
    (summary s nr_iter overall_nsec).logFile =
      (summary s nr_iter overall_nsec).cout.set 1
        (lit "Min RTT/request: " ++ l2aCommas s.reply_cyc) := by
  rw [summary_cout, summary]
  rfl

/-- A duration is printed with a unit. -/
theorem mem_formatDuration (t_secs ns : UInt64) : 's' ∈ formatDuration t_secs ns true := by
  have hdays : 's' ∈ lit " days_hh:mm:ss:ns" := by rw [lit]; decide
  have hhours : 's' ∈ lit " hh:mm:ss:ns" := by rw [lit]; decide
  have hminutes : 's' ∈ lit " mm:ss:ns" := by rw [lit]; decide
  have hseconds : 's' ∈ lit " ss:ns" := by rw [lit]; decide
  have hnanos : 's' ∈ lit " ns" := by rw [lit]; decide
  simp only [formatDuration, if_true]
  repeat' split
  all_goals simp [*]

/-- A number is not. -/
theorem formatDurationNs_ne_l2aCommas (ns : UInt64) (num : Int64) :
    formatDurationNs ns true ≠ l2aCommas num := by
  intro h
  have hs : 's' ∈ l2aCommas num := h ▸ mem_formatDuration _ _
  exact absurd (mem_l2aCommas hs).2 (by decide)

/-- The second line is wrong, whatever the round trips are. -/
theorem not_linesRight_logFile :
    ¬ LinesRight rtts ((summary s nr_iter overall_nsec).logFile.take 4) := by
  rintro ⟨i, fastest, cycles, -, -, -, h⟩
  rw [summary_logFile, summary_cout] at h
  have hsecond := congrArg (fun l => l[1]?) h
  have hline : lit "Min RTT/request: " ++ l2aCommas s.reply_cyc =
      lit "Min RTT/request: " ++ formatDurationNs fastest.cur_nsec.toUInt64 true :=
    Option.some.inj hsecond
  exact formatDurationNs_ne_l2aCommas _ _ (List.append_cancel_left hline).symm

/-! ## the console -/

/-- What the loop keeps of the round trip it found. -/
theorem foldl_step_found (rtts : List RoundTrip) :
    let found := rtts.foldl (keep RoundTrip.nsec Int64.maxValue.toInt) none
    (rtts.foldl SyncRun.step .init).min_nsec = found.elim Int64.maxValue RoundTrip.cur_nsec ∧
      (rtts.foldl SyncRun.step .init).reply_cyc = found.elim 0 fun r => r.msg.reply_cyc := by
  induction rtts using List.reverseRecOn with
  | nil => exact ⟨rfl, rfl⟩
  | append_singleton rtts r ih =>
      simp only [List.foldl_append, List.foldl_cons, List.foldl_nil]
      obtain ⟨hmin, hreply⟩ := ih
      generalize rtts.foldl (keep RoundTrip.nsec Int64.maxValue.toInt) none = found at hmin hreply ⊢
      have hbound : (rtts.foldl SyncRun.step .init).min_nsec.toInt =
          (found.map RoundTrip.nsec).getD Int64.maxValue.toInt := by
        rw [hmin]
        cases found <;> rfl
      have hless : r.nsec < (rtts.foldl SyncRun.step .init).min_nsec.toInt ↔
          r.cur_nsec < (rtts.foldl SyncRun.step .init).min_nsec := Int64.lt_iff_toInt_lt.symm
      rw [SyncRun.step, keep, ← hbound]
      simp only [hless]
      split
      · exact ⟨rfl, rfl⟩
      · exact ⟨hmin, hreply⟩

/-- The fewest cycles are those of some round trip. -/
theorem foldl_step_cyc {rtts : List RoundTrip} (hne : rtts ≠ []) :
    (∃ r ∈ rtts, r.cur_cyc = (rtts.foldl SyncRun.step .init).min_cyc) ∧
      ∀ r ∈ rtts, (rtts.foldl SyncRun.step .init).min_cyc ≤ r.cur_cyc := by
  induction rtts using List.reverseRecOn with
  | nil => exact absurd rfl hne
  | append_singleton rtts r ih =>
      rw [List.foldl_append, List.foldl_cons, List.foldl_nil, SyncRun.step]
      by_cases hrtts : rtts = []
      · subst hrtts
        have hle : r.cur_cyc ≤ Int64.maxValue := Int64.le_maxValue r.cur_cyc
        have hmin : (if r.cur_cyc < Int64.maxValue then r.cur_cyc else Int64.maxValue) =
            r.cur_cyc := by
          split
          · rfl
          · next hge => exact Int64.le_antisymm (Int64.not_lt.mp hge) hle
        have hcyc : ([].foldl SyncRun.step SyncRun.init).min_cyc = Int64.maxValue := rfl
        simp only [hcyc, hmin]
        simp
      · obtain ⟨⟨r₀, hr₀, heq⟩, hall⟩ := ih hrtts
        generalize (rtts.foldl SyncRun.step .init).min_cyc = m at heq hall ⊢
        dsimp only
        split
        · next hlt =>
          refine ⟨⟨r, by simp, rfl⟩, fun q hq => ?_⟩
          obtain hq | hq := List.mem_append.mp hq
          · exact Int64.le_trans (Int64.le_of_lt hlt) (hall q hq)
          · rw [List.mem_singleton.mp hq]
            exact Int64.le_refl _
        · next hge =>
          refine ⟨⟨r₀, by simp [hr₀], heq⟩, fun q hq => ?_⟩
          obtain hq | hq := List.mem_append.mp hq
          · exact hall q hq
          · rw [List.mem_singleton.mp hq]
            exact Int64.not_lt.mp hge

/-- The nano-seconds are added up. -/
theorem foldl_step_accum (rtts : List RoundTrip) :
    (rtts.foldl SyncRun.step .init).accum_nsec = Int64.ofInt (rtts.map RoundTrip.nsec).sum := by
  induction rtts using List.reverseRecOn with
  | nil => rfl
  | append_singleton rtts r ih =>
      rw [List.foldl_append, List.foldl_cons, List.foldl_nil, List.map_append, List.sum_append,
        Int64.ofInt_add, ← ih, List.map_singleton, List.sum_singleton, RoundTrip.nsec,
        Int64.ofInt_toInt]
      rfl

/-- **The console is right**, if the nano-seconds add up to an `int64_t`. -/
theorem console_agrees {rtts : List RoundTrip} (hne : rtts ≠ [])
    (hmax : ∀ r ∈ rtts, r.cur_nsec < Int64.maxValue) (hlow : 0 ≤ (rtts.map RoundTrip.nsec).sum)
    (hhigh : (rtts.map RoundTrip.nsec).sum < 2 ^ 63) (hlen : rtts.length < 2 ^ 63)
    (overall_start_nsec overall_end_nsec : Int64) :
    LinesRight rtts
      ((do_bulk_sync_send_and_recv rtts overall_start_nsec overall_end_nsec).cout.take 4) := by
  obtain ⟨i, fastest, hfold, hleast⟩ := foldl_keep RoundTrip.nsec hne
    fun r hr => Int64.lt_iff_toInt_lt.mp (hmax r hr)
  obtain ⟨hmin, hreply⟩ := foldl_step_found rtts
  obtain ⟨hcyc, hcycs⟩ := foldl_step_cyc hne
  rw [hfold, Option.elim_some] at hmin hreply
  have havg : (rtts.foldl SyncRun.step .init).accum_nsec / Int64.ofNat rtts.length =
      Int64.ofInt (avgNsec rtts) := by
    rw [foldl_step_accum, avgNsec, ← Int.tdiv_eq_ediv_of_nonneg hlow, Int64.ofInt_tdiv]
    · rfl
    · exact le_trans (by decide) hlow
    · exact Int.le_of_lt_add_one hhigh
    · exact le_trans (by decide) (Int.natCast_nonneg _)
    · have hmax : Int64.maxValue.toInt = 2 ^ 63 - 1 := by decide
      omega
  refine ⟨i, fastest, _, hleast, hcyc, hcycs, ?_⟩
  rw [do_bulk_sync_send_and_recv, summary_cout, hmin, hreply, havg]
  rfl

/-- **The file never agrees with the console.** -/
theorem summary_disagrees (r : RoundTrip) (rtts : List RoundTrip)
    (overall_start_nsec overall_end_nsec : Int64) :
    ¬ SummaryAgrees (r :: rtts)
      (do_bulk_sync_send_and_recv (r :: rtts) overall_start_nsec overall_end_nsec) :=
  fun h => not_linesRight_logFile h.file

/-- A round trip of 500 nano-seconds, and the reply at cycle 7. -/
def oneTrip : RoundTrip := ⟨⟨0, 0, 7, 0, 0⟩, 500, 1000⟩

/-- The console shows 500 nano-seconds, the file shows 7. -/
theorem summary_disagrees_one :
    (do_bulk_sync_send_and_recv [oneTrip] 0 600).cout[1]? = some (lit "Min RTT/request: 500 ns") ∧
      (do_bulk_sync_send_and_recv [oneTrip] 0 600).logFile[1]? = some (lit "Min RTT/request: 7") ∧
      ¬ SummaryAgrees [oneTrip] (do_bulk_sync_send_and_recv [oneTrip] 0 600) :=
  ⟨by decide +kernel, by decide +kernel, fun h => not_linesRight_logFile h.file⟩

end CloudProfiler.Tsc
