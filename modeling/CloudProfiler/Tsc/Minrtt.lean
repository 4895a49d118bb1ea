import CloudProfiler.Dict
import CloudProfiler.Tsc

/-!
# CloudProfiler.Tsc.Minrtt

The minrtt log and its reader, `loadRTTRecord` of the RTT scheduler.

The reader takes the first three columns of a line to be the two addresses
and the round-trip time, as in the sample logs it comes with.  In the log the
master writes they are the first address and the two values read when the
measurement started.

* `loadRTTRecord_minrttLog` — loading succeeds, and what it yields;
* `loadRTTRecord_faithful_iff` — it is what the master measured for no log
  but the empty one.
-/

namespace CloudProfiler.Tsc

/-- What `loadRTTRecord` returns: for an address, its peers and the times to
them. -/
abbrev RTTRecord := Dict (List Char) (List (List Char × Int))

/-- The peers of a slave; a slave without an entry has none. -/
def RTTRecord.peers (d : RTTRecord) (s : List Char) : List (List Char × Int) :=
  (d.get? s).getD []

/-- The loop of `loadRTTRecord`; `none` is an `IndexError` or a `ValueError`. -/
def loadRTTLines : List (List Char) → RTTRecord → Option RTTRecord
  | [], d => some d
  | line :: lines, d =>
      if line.head? = some '#' then loadRTTLines lines d
      else
        match (line.splitOn ',').map (strip isBlank) with
        | slave_from :: slave_to :: third :: _ =>
            (parseInt third).bind fun rtt =>
              loadRTTLines lines (d.append slave_from (slave_to, rtt))
        | _ => none

/-- The function `loadRTTRecord` on the characters of a file. -/
def loadRTTRecord (file : List Char) : Option RTTRecord := loadRTTLines (readLines file) Dict.empty

/-! ## a line of the log -/

variable {r : MeasureResult} {rs rs' : List MeasureResult}

/-- The entry `loadRTTRecord` makes of a line: the time the measurement
started stands where the peer is looked for, its cycles where the time is. -/
def entry (r : MeasureResult) : List Char × List Char × Int :=
  (r.from_slave.address, intText r.from_ns, r.from_cyc)

theorem strip_address (s : Slave) : strip isBlank s.address = s.address :=
  strip_eq_self fun _ hc => isBlank_of_mem_address hc

theorem strip_intText (z : Int) : strip isBlank (intText z) = intText z :=
  strip_eq_self fun _ hc => isBlank_of_mem_intText hc

theorem head?_logLine (t : List Char) : (logLine r ++ t).head? ≠ some '#' := fun h => by
  obtain ⟨c, l, hcl⟩ : ∃ c l, r.from_slave.address = c :: l := by
    rw [Slave.address]
    cases r.from_slave.ip.chars with
    | nil => exact ⟨_, _, rfl⟩
    | cons c l => exact ⟨_, _, rfl⟩
  have hmem : '#' ∈ r.from_slave.address := by
    rw [logLine, List.intercalate_cons_cons, hcl] at h
    rw [hcl, ← Option.some.inj h]
    exact List.mem_cons_self
  exact not_mem_address (by decide) (by decide) hmem

/-- The columns `loadRTTRecord` looks at. -/
theorem fields_logLine (r : MeasureResult) : ∃ rest,
    ((logLine r ++ ['\n']).splitOn ',').map (strip isBlank) =
      r.from_slave.address :: intText r.from_ns :: intText r.from_cyc :: rest := by
  have haddr (s : Slave) : ',' ∉ s.address := not_mem_address (by decide) (by decide)
  have hint (z : Int) : ',' ∉ intText z := not_mem_intText (by decide) (by decide)
  rw [logLine, splitOn_intercalate_cons _ (haddr _), splitOn_intercalate_cons _ (hint _),
    splitOn_intercalate_cons _ (hint _), List.map_cons, List.map_cons, List.map_cons,
    strip_address, strip_intText, strip_intText]
  exact ⟨_, rfl⟩

theorem loadRTTLines_logLine (lines : List (List Char)) (d : RTTRecord) :
    loadRTTLines ((logLine r ++ ['\n']) :: lines) d =
      loadRTTLines lines (d.append (entry r).1 (entry r).2) := by
  obtain ⟨rest, hrest⟩ := fields_logLine r
  simp only [loadRTTLines, if_neg (head?_logLine _), hrest, parseInt_intText, Option.bind_some,
    entry]

theorem loadRTTLines_map_logLine (rs : List MeasureResult) (d : RTTRecord) :
    loadRTTLines (rs.map (logLine · ++ ['\n'])) d =
      some ((rs.map entry).foldl (fun d e => d.append e.1 e.2) d) := by
  induction rs generalizing d with
  | nil => rfl
  | cons r rs ih => rw [List.map_cons, loadRTTLines_logLine, ih, List.map_cons, List.foldl_cons]

/-! ## the whole log -/

/-- **What the reader makes of the log**: it loads, and each slave has the
entries of its lines, in order. -/
theorem loadRTTRecord_minrttLog (rs : List MeasureResult) :
    ∃ d, loadRTTRecord (minrttLog rs) = some d ∧
      ∀ s, RTTRecord.peers d s = Dict.valuesOf (rs.map entry) s := by
  refine ⟨_, ?_, fun s => Dict.get?_foldl_append (rs.map entry) Dict.empty s⟩
  rw [loadRTTRecord, readLines_minrttLog, List.map_cons, loadRTTLines,
    if_pos head?_minrttHeader, List.map_map]
  exact loadRTTLines_map_logLine rs _

/-- The pairs of peer and round-trip time that the results hold for an
address. -/
def peersOf (rs : List MeasureResult) (s : List Char) : List (List Char × Int) :=
  Dict.valuesOf (rs.map fun r => (r.from_slave.address, r.to_slave.address, r.rtt_ns)) s

/-- `loadRTTRecord` loads the log of these results, and yields for every
address its peers with the times to them, in file order. -/
def LoadsMeasured (rs : List MeasureResult) : Prop :=
  ∃ d, loadRTTRecord (minrttLog rs) = some d ∧ ∀ s, RTTRecord.peers d s = peersOf rs s

/-- A time is no address. -/
theorem intText_ne_address (z : Int) (s : Slave) : intText z ≠ s.address := fun h =>
  not_mem_intText (z := z) (c := ':') (by decide) (by decide)
    (h ▸ List.mem_append_right _ List.mem_cons_self)

/-- **The scheduler never reads what the master measured**, unless there is
nothing to read: whatever was measured, and in whichever order `std::sort`
leaves results of equal time. -/
theorem loadRTTRecord_faithful_iff (h : IsSorted rs rs') : LoadsMeasured rs' ↔ rs = [] := by
  obtain ⟨d, hload, hd⟩ := loadRTTRecord_minrttLog rs'
  constructor
  · rintro ⟨d', hload', hd'⟩
    obtain rfl : d = d' := Option.some.inj (hload.symm.trans hload')
    cases rs' with
    | nil => exact List.perm_nil.mp h.1.symm
    | cons r rest =>
        have hs := (hd r.from_slave.address).symm.trans (hd' _)
        simp only [peersOf, Dict.valuesOf, List.map_cons, entry, decide_true,
          List.filter_cons_of_pos, List.cons.injEq, Prod.mk.injEq] at hs
        exact absurd hs.1.1 (intText_ne_address _ _)
  · rintro rfl
    obtain rfl := List.perm_nil.mp h.1
    exact ⟨d, hload, hd⟩

/-- A log of two slaves and one measurement between them. -/
def twoSlaves : MeasureResult where
  from_slave := ⟨.local, 9103⟩
  to_slave := ⟨⟨"10.0.0.2".toList, by simp, by simp⟩, 9103⟩
  rtt_ns := 500
  from_cyc := 7000
  from_ns := 1000
  to_cyc := 8000
  to_ns := 1200
  end_cyc := 9000
  end_ns := 1500
  from_aux := 0
  to_aux := 0
  end_aux := 0

theorem loadRTTRecord_faithful_iff_twoSlaves :
    IsSorted [twoSlaves] [twoSlaves] ∧ (LoadsMeasured [twoSlaves] ↔ [twoSlaves] = []) :=
  have h : IsSorted [twoSlaves] [twoSlaves] := by decide
  ⟨h, loadRTTRecord_faithful_iff h⟩

/-- The one line of that log is read as a peer named `1000` at a distance of
7000 ns. -/
theorem twoSlaves_misread :
    (∃ d, loadRTTRecord (minrttLog [twoSlaves]) = some d ∧
      RTTRecord.peers d twoSlaves.from_slave.address = [("1000".toList, 7000)]) ∧
    ¬ LoadsMeasured [twoSlaves] := by
  obtain ⟨d, hload, hd⟩ := loadRTTRecord_minrttLog [twoSlaves]
  have hpeers : Dict.valuesOf ([twoSlaves].map entry) twoSlaves.from_slave.address =
      [("1000".toList, 7000)] := by decide
  refine ⟨⟨d, hload, (hd _).trans hpeers⟩, fun ⟨d', hload', hd'⟩ => ?_⟩
  obtain rfl : d = d' := Option.some.inj (hload.symm.trans hload')
  have hwant :
      peersOf [twoSlaves] twoSlaves.from_slave.address = [("10.0.0.2:9103".toList, 500)] := by
    decide
  have := hpeers.symm.trans (((hd _).symm.trans (hd' _)).trans hwant)
  exact absurd this (by decide)

end CloudProfiler.Tsc
