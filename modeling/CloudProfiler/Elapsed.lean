import CloudProfiler.FastCounter.Throughput
import CloudProfiler.Handler.Sampling
import CloudProfiler.Least
import CloudProfiler.Nanos

/-!
# CloudProfiler.Elapsed

The elapsed time of a run, as the Python scripts get it from the logs of
FIRSTLAST channels (`util.py`): the smallest and the largest time-stamp in any
number of files.

A FIRSTLAST log has two tuple lines, or the line `ERROR: no tuple logged!` of
a channel that logged none, which `loadTS` splits like any other line.

* `FirstlastRun.log_of_logs`, `log_of_not_logs` — what a channel leaves;
* `loadTS_logFile`, `loadTS_noTuple` — what `loadTS` makes of it;
* `elapsed_iff` — the time-stamps are extracted exactly when every channel
  logged a tuple.
-/

namespace CloudProfiler

open Least

/-! ## the scripts -/

/-- A time-stamp `[tv_sec, tv_nsec]`. -/
abbrev TSEntry := Int × Int

/-- The loop of `loadTS`; `none` is an exception. -/
def loadTSLines : List (List Char) → Dict Int (List TSEntry) → Option (Dict Int (List TSEntry))
  | [], d => some d
  | line :: lines, d =>
      match line.splitOn ',' with
      | id :: sec :: nsec :: _ =>
          (parseInt sec).bind fun s =>
            (parseInt nsec).bind fun ns =>
              (parseInt id).bind fun tupleId => loadTSLines lines (d.append tupleId (s, ns))
      | _ => none

/-- The function `loadTS` on the characters of a file. -/
def loadTS (file : List Char) : Option (Dict Int (List TSEntry)) :=
  loadTSLines (readLines file) Dict.empty

/-- The order of `sorted` with `key = lambda x: (x[0], x[1])`. -/
def keyLe {ε : Type} (key : ε → TSEntry) (reverse : Bool) (x y : ε) : Bool :=
  let le (a b : TSEntry) : Bool := a.1 < b.1 || (a.1 = b.1 && a.2 ≤ b.2)
  if reverse then le (key y) (key x) else le (key x) (key y)

/-- The loop of `_minMaxTSinFiles` over the files: the first of the sorted
entries of each. -/
def minsInFiles {ε : Type} (load : List Char → Option (List ε)) (le : ε → ε → Bool) :
    List (List Char) → List ε → Option (List ε)
  | [], mins => some mins
  | f :: l, mins =>
      (load f).bind fun es => minsInFiles load le l (mins ++ (leader le es).toList)

/-- The function `_minMaxTSinFiles`.  Without any entry `tv_sec` is not
assigned. -/
def minMaxTSinFiles (l : List (List Char)) (r isFPC : Bool) : Option TSEntry :=
  if isFPC then
    let key (e : FPCEntry) : TSEntry := (e.1, e.2.1)
    (minsInFiles (fun f => (loadTS_FPC f).map fun d => d.values.flatten) (keyLe key r) l []).bind
      fun mins => (leader (keyLe key r) mins).map key
  else
    (minsInFiles (fun f => (loadTS f).map fun d => d.values.flatten) (keyLe id r) l []).bind
      fun mins => leader (keyLe id r) mins

/-- The function `minTSFromFiles`. -/
def minTSFromFiles (l : List (List Char)) (isFPC : Bool) : Option TSEntry :=
  minMaxTSinFiles l false isFPC

/-- The function `maxTSFromFiles`. -/
def maxTSFromFiles (l : List (List Char)) (isFPC : Bool) : Option TSEntry :=
  minMaxTSinFiles l true isFPC

/-! ## the logs -/

/-- A line of a FIRSTLAST log. -/
def FirstlastLine.text : FirstlastLine → List Char
  | .tuple t ts =>
      intText t.toInt ++ ',' :: ' ' :: (intText ts.tvSec.toInt ++
        ',' :: ' ' :: (intText ts.tvNsec.toInt ++ ',' :: ' ' :: natText ts.tsc.toNat))
  | .noTuple => lit "ERROR: no tuple logged!"

/-- The time-stamp of a tuple line. -/
def FirstlastLine.stamp : FirstlastLine → Option Timespec
  | .tuple _ ts => some ts
  | .noTuple => none

/-- A FIRSTLAST channel from its opening to its close: what the fresh closure
holds, the calls of `logTS`, and what the close gets from outside. -/
structure FirstlastRun where
  fresh : Timespec
  calls : List (Env × Int64)
  env : Env

namespace FirstlastRun

/-- The lines of the log. -/
def log (run : FirstlastRun) : List FirstlastLine :=
  (((firstlastType.logAll (initFirstlastHandler run.fresh) run.calls).bind
    (firstlastType.closeChannel run.env)).map fun cl => cl.base.lines).getD []

/-- The file. -/
def file (run : FirstlastRun) : List Char := unlines (run.log.map FirstlastLine.text)

/-- A tuple is logged: the first call is not the poison pill. -/
def Logs (run : FirstlastRun) : Prop := ∃ p ∈ run.calls.head?, p.2 ≠ -1

/-- The clock delivers normal time-stamps. -/
def Clocked (run : FirstlastRun) : Prop := ∀ p ∈ run.calls, p.1.now.Normal

end FirstlastRun

/-! ## what a channel leaves -/

/-- What every call keeps holds after all calls. -/
theorem ChannelType.logAll_invariant {σ ι : Type} {k : ChannelType σ ι} {I : σ → Prop}
    {calls : List (Env × Int64)} {cl : σ}
    (hstep : ∀ cl, ∀ p ∈ calls, I cl → ∃ cl', k.logTS p.1 cl p.2 = some cl' ∧ I cl') (h : I cl) :
    ∃ cl', k.logAll cl calls = some cl' ∧ I cl' := by
  induction calls generalizing cl with
  | nil => exact ⟨cl, rfl, h⟩
  | cons p calls ih =>
      obtain ⟨cl', hlog, h'⟩ := hstep cl p List.mem_cons_self h
      obtain ⟨cl'', hall, h''⟩ := ih (fun cl q hq => hstep cl q (List.mem_cons_of_mem p hq)) h'
      refine ⟨cl'', ?_, h''⟩
      rw [ChannelType.logAll, List.foldlM_cons, hlog]
      exact hall

namespace FirstlastClosure

/-- A tuple line with a normal time-stamp. -/
def IsTuple (l : FirstlastLine) : Prop := ∃ t ts, l = .tuple t ts ∧ ts.Normal

/-- The channel has logged a tuple. -/
structure Logged (cl : FirstlastClosure) : Prop where
  nonempty : cl.base.lines ≠ []
  lines : ∀ l ∈ cl.base.lines, IsTuple l
  hasFirst : cl.base.isOpen = true → cl.hasFirst = true ∧ cl.ts.Normal

/-- The channel was closed without a tuple. -/
structure Failed (cl : FirstlastClosure) : Prop where
  lines : cl.base.lines = [.noTuple]
  closed : cl.base.isOpen = false

variable {cl : FirstlastClosure} {now : Timespec} {t : Int64}

theorem Logged.put (h : cl.Logged) (hnow : now.Normal) :
    (cl.base.put (.tuple t now)).lines ≠ [] ∧
      ∀ l ∈ (cl.base.put (.tuple t now)).lines, IsTuple l := by
  unfold Base.put
  split
  · refine ⟨by simp, fun l hl => ?_⟩
    obtain hl | hl := List.mem_append.mp hl
    · exact h.lines l hl
    · exact ⟨t, now, List.mem_singleton.mp hl, hnow⟩
  · exact ⟨h.nonempty, h.lines⟩

theorem Logged.handler (h : cl.Logged) (hnow : now.Normal) : (cl.handler now t).Logged := by
  obtain ⟨hne, hlines⟩ := h.put (t := t) hnow
  unfold FirstlastClosure.handler
  split
  · exact ⟨h.nonempty, h.lines, fun _ => ⟨rfl, hnow⟩⟩
  · exact ⟨hne, hlines, fun _ => ⟨rfl, hnow⟩⟩

theorem Logged.closeChannel (h : cl.Logged) : cl.closeChannel.Logged := by
  cases hopen : cl.base.isOpen with
  | true =>
      obtain ⟨hfirst, hts⟩ := h.hasFirst hopen
      obtain ⟨hne, hlines⟩ := h.put (t := cl.tuple) hts
      unfold FirstlastClosure.closeChannel
      rw [if_pos hfirst]
      exact ⟨hne, hlines, fun hc => by cases hc⟩
  | false =>
      unfold FirstlastClosure.closeChannel Base.put
      rw [if_neg (by simp [hopen])]
      exact ⟨h.nonempty, h.lines, fun hc => by cases hc⟩

/-- A channel that is not open stays as it is. -/
theorem Failed.closeChannel (h : cl.Failed) : cl.closeChannel.Failed := by
  unfold FirstlastClosure.closeChannel Base.put
  rw [if_neg (by simp [h.closed])]
  exact ⟨h.lines, rfl⟩

theorem Failed.handler (h : cl.Failed) : (cl.handler now t).Failed := by
  unfold FirstlastClosure.handler Base.put
  split
  · exact ⟨h.lines, h.closed⟩
  · rw [if_neg (by simp [h.closed])]
    exact ⟨h.lines, h.closed⟩

/-- What the handler and the close keep is kept by every call of `logTS`. -/
theorem logTS_keeps {I : FirstlastClosure → Prop} {p : Env × Int64}
    (hhandler : ∀ cl, I cl → I (cl.handler p.1.now p.2))
    (hclose : ∀ cl, I cl → I cl.closeChannel) (h : I cl) :
    ∃ cl', firstlastType.logTS p.1 cl p.2 = some cl' ∧ I cl' := by
  unfold ChannelType.logTS
  split
  · exact ⟨_, rfl, hclose cl h⟩
  · split
    · exact ⟨cl, rfl, h⟩
    · exact ⟨_, rfl, hhandler cl h⟩

/-- The first tuple. -/
theorem logged_first (fresh : Timespec) (hnow : now.Normal) :
    ((initFirstlastHandler fresh).handler now t).Logged := by
  refine ⟨by simp [FirstlastClosure.handler, initFirstlastHandler, Base.opened, Base.put],
    fun l hl => ?_, fun _ => ⟨rfl, hnow⟩⟩
  exact ⟨t, now, List.mem_singleton.mp hl, hnow⟩

/-- The close of a fresh channel. -/
theorem failed_init (fresh : Timespec) : (initFirstlastHandler fresh).closeChannel.Failed :=
  ⟨rfl, rfl⟩

end FirstlastClosure

namespace FirstlastRun

open FirstlastClosure

variable {run : FirstlastRun}

/-- A channel that logs a tuple leaves tuple lines only. -/
theorem log_of_logs (h : run.Logs) (hclock : run.Clocked) :
    run.log ≠ [] ∧ ∀ l ∈ run.log, IsTuple l := by
  obtain ⟨fresh, calls, env⟩ := run
  obtain ⟨p, hp, hpill⟩ := h
  cases calls with
  | nil => cases hp
  | cons q calls =>
      obtain rfl := Option.some.inj hp
      have hfirst : firstlastType.logTS q.1 (initFirstlastHandler fresh) q.2 =
          some ((initFirstlastHandler fresh).handler q.1.now q.2) := by
        rw [ChannelType.logTS, if_neg hpill]
        rfl
      obtain ⟨cl, hall, hlogged⟩ := ChannelType.logAll_invariant (k := firstlastType)
        (I := Logged)
        (fun cl r hr => logTS_keeps
          (fun cl h => h.handler (hclock r (List.mem_cons_of_mem q hr))) fun cl h => h.closeChannel)
        (logged_first fresh (hclock q List.mem_cons_self))
      have hlog : log ⟨fresh, q :: calls, env⟩ = cl.closeChannel.base.lines := by
        rw [log, ChannelType.logAll, List.foldlM_cons, hfirst]
        show (((firstlastType.logAll _ calls).bind _).map _).getD [] = _
        rw [hall]
        rfl
      rw [hlog]
      exact ⟨hlogged.closeChannel.nonempty, hlogged.closeChannel.lines⟩

/-- One that logs none leaves the error line. -/
theorem log_of_not_logs (h : ¬ run.Logs) : run.log = [.noTuple] := by
  obtain ⟨fresh, calls, env⟩ := run
  cases calls with
  | nil => exact (failed_init fresh).lines
  | cons q calls =>
      have hpill : q.2 = -1 := by
        by_contra hne
        exact h ⟨q, rfl, hne⟩
      have hfirst : firstlastType.logTS q.1 (initFirstlastHandler fresh) q.2 =
          some (initFirstlastHandler fresh).closeChannel := by
        rw [ChannelType.logTS, if_pos hpill]
        rfl
      obtain ⟨cl, hall, hfailed⟩ := ChannelType.logAll_invariant (k := firstlastType)
        (I := Failed)
        (fun cl r _ => logTS_keeps (fun cl h => h.handler) fun cl h => h.closeChannel)
        (failed_init fresh)
      rw [log, ChannelType.logAll, List.foldlM_cons, hfirst]
      show (((firstlastType.logAll _ calls).bind _).map _).getD [] = _
      rw [hall]
      exact hfailed.closeChannel.lines

end FirstlastRun

/-! ## what `loadTS` makes of it -/

section Load

variable {d : Dict Int (List TSEntry)} {ts : Timespec} {t : Int64}

/-- A time-stamp as `loadTS` stores it. -/
def Timespec.entry (ts : Timespec) : TSEntry := (ts.tvSec.toInt, ts.tvNsec.toInt)

theorem newline_not_mem_firstlastText (l : FirstlastLine) : '\n' ∉ l.text := by
  cases l with
  | tuple t ts =>
      simp [FirstlastLine.text, newline_not_mem_intText, newline_not_mem_natText]
  | noTuple => exact not_mem_lit (by decide)

/-- The columns of a tuple line. -/
theorem splitOn_tuple (t : Int64) (ts : Timespec) :
    ((FirstlastLine.tuple t ts).text ++ ['\n']).splitOn ',' =
      [intText t.toInt, ' ' :: intText ts.tvSec.toInt, ' ' :: intText ts.tvNsec.toInt,
        ' ' :: natText ts.tsc.toNat ++ ['\n']] := by
  simp only [FirstlastLine.text, List.append_assoc, List.cons_append]
  rw [List.splitOn_append_cons_self_of_not_mem (comma_not_mem_intText _), ← List.cons_append,
    List.splitOn_append_cons_self_of_not_mem (by simp [comma_not_mem_intText]),
    ← List.cons_append, List.splitOn_append_cons_self_of_not_mem (by simp [comma_not_mem_intText]),
    List.splitOn_eq_singleton (by simp [comma_not_mem_natText])]

theorem loadTSLines_tuple (t : Int64) (ts : Timespec) (lines : List (List Char))
    (d : Dict Int (List TSEntry)) :
    loadTSLines (((FirstlastLine.tuple t ts).text ++ ['\n']) :: lines) d =
      loadTSLines lines (d.append t.toInt ts.entry) := by
  rw [loadTSLines, splitOn_tuple]
  simp only [parseInt_intText, parseInt_blank_intText, Option.bind_some]
  rfl

/-- A file of tuple lines is loaded: all its time-stamps and no others. -/
theorem loadTSLines_tuples {ls : List FirstlastLine} (h : ∀ l ∈ ls, ∃ t ts, l = .tuple t ts)
    (d : Dict Int (List TSEntry)) :
    ∃ d', loadTSLines (ls.map fun l => l.text ++ ['\n']) d = some d' ∧
      ∀ x, x ∈ d'.values.flatten ↔ x ∈ d.values.flatten ∨
        x ∈ (ls.filterMap FirstlastLine.stamp).map Timespec.entry := by
  induction ls generalizing d with
  | nil => exact ⟨d, rfl, by simp⟩
  | cons l ls ih =>
      obtain ⟨t, ts, rfl⟩ := h l List.mem_cons_self
      obtain ⟨d', hload, hmem⟩ := ih (fun l hl => h l (List.mem_cons_of_mem _ hl))
        (d.append t.toInt ts.entry)
      refine ⟨d', ?_, fun x => ?_⟩
      · rw [List.map_cons, loadTSLines_tuple, hload]
      · have hstamp : (FirstlastLine.tuple t ts).stamp = some ts := rfl
        rw [hmem, Dict.mem_flatten_values_append, List.filterMap_cons_some hstamp, List.map_cons, List.mem_cons,
          or_assoc]

theorem loadTS_logFile {ls : List FirstlastLine} (h : ∀ l ∈ ls, ∃ t ts, l = .tuple t ts) :
    ∃ d, loadTS (unlines (ls.map FirstlastLine.text)) = some d ∧
      ∀ x, x ∈ d.values.flatten ↔ x ∈ (ls.filterMap FirstlastLine.stamp).map Timespec.entry := by
  obtain ⟨d, hload, hmem⟩ := loadTSLines_tuples h Dict.empty
  refine ⟨d, ?_, fun x => ?_⟩
  · rw [loadTS, readLines_unlines, List.map_map]
    · exact hload
    · intro l hl
      obtain ⟨l', -, rfl⟩ := List.mem_map.mp hl
      exact newline_not_mem_firstlastText l'
  · rw [hmem]
    simp [Dict.empty, Dict.values]

/-- **The third kind of line is not split.** -/
theorem loadTS_noTuple : loadTS (unlines [FirstlastLine.noTuple.text]) = none := by
  have hline : '\n' ∉ FirstlastLine.noTuple.text := newline_not_mem_firstlastText _
  have hcomma : ',' ∉ FirstlastLine.noTuple.text ++ ['\n'] := by
    have : ',' ∉ FirstlastLine.noTuple.text := not_mem_lit (by decide)
    simpa using this
  rw [loadTS, readLines_unlines (by simpa using hline), List.map_singleton, loadTSLines,
    List.splitOn_eq_singleton hcomma]

end Load

/-! ## the smallest and the largest -/

section MinMax

variable {ε : Type} {load : List Char → Option (List ε)} {le : ε → ε → Bool}
  {files : List (List Char)}

/-- The first entries of files that can all be loaded. -/
theorem minsInFiles_eq (h : ∀ f ∈ files, (load f).isSome = true) (mins : List ε) :
    minsInFiles load le files mins =
      some (mins ++ (files.filterMap load).filterMap (leader le)) := by
  induction files generalizing mins with
  | nil => simp [minsInFiles]
  | cons f files ih =>
      obtain ⟨es, hes⟩ := Option.isSome_iff_exists.mp (h f List.mem_cons_self)
      rw [minsInFiles, hes, Option.bind_some, ih fun f hf => h f (List.mem_cons_of_mem _ hf),
        List.filterMap_cons_some hes, List.append_assoc]
      cases hm : leader le es with
      | none => rw [List.filterMap_cons_none hm]; rfl
      | some m => rw [List.filterMap_cons_some hm]; rfl

/-- One file that cannot be loaded is too many. -/
theorem minsInFiles_eq_none (h : ∃ f ∈ files, load f = none) (mins : List ε) :
    minsInFiles load le files mins = none := by
  induction files generalizing mins with
  | nil =>
      obtain ⟨f, hf, -⟩ := h
      cases hf
  | cons g files ih =>
      rw [minsInFiles]
      cases hg : load g with
      | none => rfl
      | some es =>
          obtain ⟨f, hf, hnone⟩ := h
          obtain rfl | hf := List.mem_cons.mp hf
          · rw [hg] at hnone
            cases hnone
          · exact ih ⟨f, hf, hnone⟩ _

theorem keyLe_false {key : ε → TSEntry} {x y : ε} :
    keyLe key false x y = true ↔
      (key x).1 < (key y).1 ∨ (key x).1 = (key y).1 ∧ (key x).2 ≤ (key y).2 := by
  simp [keyLe]

theorem keyLe_true {key : ε → TSEntry} {x y : ε} :
    keyLe key true x y = true ↔ keyLe key false y x = true := by
  simp [keyLe]

theorem keyLe_trans {key : ε → TSEntry} {r : Bool} (a b c : ε) (hab : keyLe key r a b = true)
    (hbc : keyLe key r b c = true) : keyLe key r a c = true := by
  cases r <;> simp only [keyLe_true, keyLe_false] at * <;> omega

theorem keyLe_total {key : ε → TSEntry} {r : Bool} (a b : ε) :
    (keyLe key r a b || keyLe key r b a) = true := by
  rw [Bool.or_eq_true]
  cases r <;> simp only [keyLe_true, keyLe_false] <;> omega

/-- On normal time-stamps the order of the entries is that of the
nano-seconds. -/
theorem keyLe_entry {x y : Timespec} (hx : x.Normal) (hy : y.Normal) :
    keyLe id false x.entry y.entry = true ↔ x.ns ≤ y.ns := by
  obtain ⟨hx0, hx1⟩ := hx
  obtain ⟨hy0, hy1⟩ := hy
  rw [keyLe_false]
  simp only [Timespec.entry, Timespec.ns, id]
  omega

end MinMax

/-! ## the elapsed time -/

/-- The time-stamps on the tuple lines of all files. -/
def stampsOf (runs : List FirstlastRun) : List Timespec :=
  runs.flatMap fun run => run.log.filterMap FirstlastLine.stamp

/-- The scripts find the smallest and the largest of the time-stamps. -/
structure Extracts (runs : List FirstlastRun) : Prop where
  minTS : ∃ ts ∈ stampsOf runs,
    minTSFromFiles (runs.map FirstlastRun.file) false = some ts.entry ∧
      ∀ u ∈ stampsOf runs, ts.ns ≤ u.ns
  maxTS : ∃ ts ∈ stampsOf runs,
    maxTSFromFiles (runs.map FirstlastRun.file) false = some ts.entry ∧
      ∀ u ∈ stampsOf runs, u.ns ≤ ts.ns

section Elapsed

variable {run : FirstlastRun} {runs : List FirstlastRun}

/-- What `loadTS` hands on to be sorted. -/
def entriesOf (file : List Char) : Option (List TSEntry) :=
  (loadTS file).map fun d => d.values.flatten

theorem entriesOf_of_logs (h : run.Logs) (hclock : run.Clocked) :
    ∃ es, entriesOf run.file = some es ∧
      ∀ x, x ∈ es ↔ x ∈ (run.log.filterMap FirstlastLine.stamp).map Timespec.entry := by
  obtain ⟨-, hlines⟩ := run.log_of_logs h hclock
  obtain ⟨d, hload, hmem⟩ := loadTS_logFile fun l hl => by
    obtain ⟨t, ts, heq, -⟩ := hlines l hl
    exact ⟨t, ts, heq⟩
  exact ⟨d.values.flatten, by rw [entriesOf, FirstlastRun.file, hload, Option.map_some], hmem⟩

theorem entriesOf_of_not_logs (h : ¬ run.Logs) : entriesOf run.file = none := by
  rw [entriesOf, FirstlastRun.file, run.log_of_not_logs h, List.map_singleton, loadTS_noTuple]
  rfl

/-- The time-stamps are normal, and there are some. -/
theorem stampsOf_normal (hlogs : ∀ run ∈ runs, run.Logs) (hclock : ∀ run ∈ runs, run.Clocked)
    {ts : Timespec} (h : ts ∈ stampsOf runs) : ts.Normal := by
  obtain ⟨run, hrun, hts⟩ := List.mem_flatMap.mp h
  obtain ⟨l, hl, hstamp⟩ := List.mem_filterMap.mp hts
  obtain ⟨t, u, rfl, hu⟩ := (run.log_of_logs (hlogs run hrun) (hclock run hrun)).2 l hl
  obtain rfl := Option.some.inj hstamp
  exact hu

/-- A log of tuple lines has a time-stamp. -/
theorem exists_mem_stampsOf (hlogs : ∀ run ∈ runs, run.Logs)
    (hclock : ∀ run ∈ runs, run.Clocked) (hne : runs ≠ []) : ∃ ts, ts ∈ stampsOf runs := by
  obtain ⟨run, hrun⟩ := List.exists_mem_of_ne_nil runs hne
  obtain ⟨hlog, hlines⟩ := run.log_of_logs (hlogs run hrun) (hclock run hrun)
  obtain ⟨l, hl⟩ := List.exists_mem_of_ne_nil run.log hlog
  obtain ⟨t, ts, rfl, -⟩ := hlines l hl
  exact ⟨ts, List.mem_flatMap.mpr ⟨run, hrun, List.mem_filterMap.mpr ⟨_, hl, rfl⟩⟩⟩

/-- The entries of all files are the time-stamps. -/
theorem mem_entries (hlogs : ∀ run ∈ runs, run.Logs) (hclock : ∀ run ∈ runs, run.Clocked)
    (x : TSEntry) :
    x ∈ ((runs.map FirstlastRun.file).filterMap entriesOf).flatten ↔
      ∃ ts ∈ stampsOf runs, ts.entry = x := by
  have hrun : ∀ run ∈ runs, ∃ es, entriesOf run.file = some es ∧
      ∀ x, x ∈ es ↔ x ∈ (run.log.filterMap FirstlastLine.stamp).map Timespec.entry :=
    fun run h => entriesOf_of_logs (hlogs run h) (hclock run h)
  rw [List.mem_flatten]
  constructor
  · intro ⟨es, hes, hx⟩
    obtain ⟨f, hf, hload⟩ := List.mem_filterMap.mp hes
    obtain ⟨run, hmem, rfl⟩ := List.mem_map.mp hf
    obtain ⟨es', hload', hall⟩ := hrun run hmem
    obtain rfl := Option.some.inj (hload.symm.trans hload')
    obtain ⟨ts, hts, heq⟩ := List.mem_map.mp ((hall x).mp hx)
    exact ⟨ts, List.mem_flatMap.mpr ⟨run, hmem, hts⟩, heq⟩
  · intro ⟨ts, hts, heq⟩
    obtain ⟨run, hmem, hts⟩ := List.mem_flatMap.mp hts
    obtain ⟨es, hload, hall⟩ := hrun run hmem
    exact ⟨es, List.mem_filterMap.mpr ⟨run.file, List.mem_map_of_mem hmem, hload⟩,
      (hall x).mpr (List.mem_map.mpr ⟨ts, hts, heq⟩)⟩

/-- Files of channels that logged a tuple. -/
theorem minMaxTSinFiles_of_logs (hlogs : ∀ run ∈ runs, run.Logs)
    (hclock : ∀ run ∈ runs, run.Clocked) (hne : runs ≠ []) (r : Bool) :
    ∃ ts ∈ stampsOf runs, minMaxTSinFiles (runs.map FirstlastRun.file) r false = some ts.entry ∧
      ∀ u ∈ stampsOf runs, if r then u.ns ≤ ts.ns else ts.ns ≤ u.ns := by
  have hload : ∀ f ∈ runs.map FirstlastRun.file, (entriesOf f).isSome = true := by
    intro f hf
    obtain ⟨run, hrun, rfl⟩ := List.mem_map.mp hf
    obtain ⟨es, hes, -⟩ := entriesOf_of_logs (hlogs run hrun) (hclock run hrun)
    rw [hes]
    rfl
  have hmem := mem_entries hlogs hclock
  -- the first run has a line, so there is an entry
  have hentries : ((runs.map FirstlastRun.file).filterMap entriesOf).flatten ≠ [] := by
    obtain ⟨ts, hts⟩ := exists_mem_stampsOf hlogs hclock hne
    exact List.ne_nil_of_mem ((hmem ts.entry).mpr ⟨ts, hts, rfl⟩)
  obtain ⟨m, hm⟩ := Option.ne_none_iff_exists'.mp
    (leader_leaders_ne_none hentries)
  obtain ⟨hin, hle⟩ := leader_leaders keyLe_trans keyLe_total hm
  obtain ⟨ts, hts, rfl⟩ := (hmem m).mp hin
  refine ⟨ts, hts, ?_, fun u hu => ?_⟩
  · show (minsInFiles entriesOf (keyLe id r) (runs.map FirstlastRun.file) []).bind _ = _
    rw [minsInFiles_eq hload, Option.bind_some, List.nil_append]
    exact hm
  · have hkey := hle u.entry ((hmem u.entry).mpr ⟨u, hu, rfl⟩)
    have hnts := stampsOf_normal hlogs hclock hts
    have hnu := stampsOf_normal hlogs hclock hu
    cases r with
    | false => simpa using (keyLe_entry hnts hnu).mp hkey
    | true => simpa using (keyLe_entry hnu hnts).mp (keyLe_true.mp hkey)

/-- A file that cannot be loaded. -/
theorem minMaxTSinFiles_of_not_logs (h : ∃ run ∈ runs, ¬ run.Logs) (r : Bool) :
    minMaxTSinFiles (runs.map FirstlastRun.file) r false = none := by
  obtain ⟨run, hrun, hlogs⟩ := h
  have hnone : minsInFiles entriesOf (keyLe id r) (runs.map FirstlastRun.file) [] = none :=
    minsInFiles_eq_none ⟨run.file, List.mem_map_of_mem hrun, entriesOf_of_not_logs hlogs⟩ []
  show (minsInFiles entriesOf (keyLe id r) (runs.map FirstlastRun.file) []).bind _ = none
  rw [hnone, Option.bind_none]

/-- **The elapsed time.**  When some channel logged a tuple, the scripts find
the smallest and the largest of the time-stamps exactly when all channels
did. -/
theorem elapsed_iff (runs : List FirstlastRun) (hclock : ∀ run ∈ runs, run.Clocked)
    (hsome : ∃ run ∈ runs, run.Logs) : Extracts runs ↔ ∀ run ∈ runs, run.Logs := by
  constructor
  · intro h run hrun
    by_contra hlogs
    obtain ⟨ts, -, hmin, -⟩ := h.minTS
    rw [minTSFromFiles, minMaxTSinFiles_of_not_logs ⟨run, hrun, hlogs⟩] at hmin
    cases hmin
  · intro hlogs
    obtain ⟨run, hrun, -⟩ := hsome
    have hne := List.ne_nil_of_mem hrun
    exact ⟨minMaxTSinFiles_of_logs hlogs hclock hne false,
      minMaxTSinFiles_of_logs hlogs hclock hne true⟩

/-- A call at the epoch. -/
def Env.zero : Env := ⟨.zero, ⟨0, 0⟩, fun _ => .zero⟩

/-- A channel that logs one tuple. -/
def oneTuple : FirstlastRun := ⟨.zero, [(.zero, 7)], .zero⟩

/-- A channel that is opened and closed. -/
def noTuple : FirstlastRun := ⟨.zero, [], .zero⟩

theorem logs_oneTuple : oneTuple.Logs := ⟨_, rfl, by decide⟩

theorem not_logs_noTuple : ¬ noTuple.Logs := by
  intro ⟨p, hp, _⟩
  cases hp

theorem clocked_oneTuple : oneTuple.Clocked := by
  unfold oneTuple FirstlastRun.Clocked
  decide

theorem elapsed_two_channels : Extracts [oneTuple, oneTuple] :=
  (elapsed_iff _ (by simpa using clocked_oneTuple) (by simpa using logs_oneTuple)).mpr
    (by simpa using logs_oneTuple)

/-- One idle channel beside one that logged. -/
theorem elapsed_fails_idle :
    (∀ run ∈ [oneTuple, noTuple], run.Clocked) ∧ (∃ run ∈ [oneTuple, noTuple], run.Logs) ∧
      minTSFromFiles ([oneTuple, noTuple].map FirstlastRun.file) false = none ∧
      maxTSFromFiles ([oneTuple, noTuple].map FirstlastRun.file) false = none := by
  have hidle : ∃ run ∈ [oneTuple, noTuple], ¬ run.Logs := ⟨noTuple, by simp, not_logs_noTuple⟩
  have hclock : noTuple.Clocked := fun p hp => by cases hp
  exact ⟨by simpa using ⟨clocked_oneTuple, hclock⟩, ⟨oneTuple, by simp, logs_oneTuple⟩,
    minMaxTSinFiles_of_not_logs hidle false, minMaxTSinFiles_of_not_logs hidle true⟩

end Elapsed

end CloudProfiler
