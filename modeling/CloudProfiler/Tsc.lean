import CloudProfiler.Text

/-!
# CloudProfiler.Tsc

What `tsc_master` keeps and writes about round-trip times: the slaves, one
`MeasureResult` per measurement, and the lines of the minrtt log.

* `Slave.address` — the key `ip:port` under which a slave is registered, with
  `address_injective`;
* `logLine`, `minrttLog` — the log `request_measurement` writes.
-/

namespace CloudProfiler.Tsc

/-- A registered slave. -/
structure Slave where
  ip : Ipv4
  port : Int
deriving DecidableEq

/-- `slave_id`, the key of the map of slaves. -/
def Slave.address (s : Slave) : List Char := s.ip.chars ++ ':' :: intText s.port

/-- The class `MeasureResult`. -/
structure MeasureResult where
  from_slave : Slave
  to_slave : Slave
  rtt_ns : Int
  from_cyc : Int
  from_ns : Int
  to_cyc : Int
  to_ns : Int
  end_cyc : Int
  end_ns : Int
  from_aux : Nat
  to_aux : Nat
  end_aux : Nat
deriving DecidableEq

/-- The line written for a result. -/
def logLine (r : MeasureResult) : List Char :=
  [','].intercalate
    [r.from_slave.address, intText r.from_ns, intText r.from_cyc, intText r.end_ns,
      intText r.end_cyc, r.to_slave.address, intText r.to_ns, intText r.to_cyc, intText r.rtt_ns,
      natText r.from_aux, natText r.end_aux, natText r.to_aux]

/-- The first line of the log. -/
def minrttHeader : List Char :=
  lit "# slave_1_address, slave_1_start_ns, slave_1_start_tsc, " ++
    lit "slave_1_end_ns, slave_1_end_tsc, " ++
    lit "slave_2_address, slave_2_ns, slave_2_tsc, min_rtt (ns), " ++
    lit "slave_1_start_aux, slave_1_end_aux, slave_2_aux"

/-- The minrtt log of a sorted list of results. -/
def minrttLog (rs : List MeasureResult) : List Char := unlines (minrttHeader :: rs.map logLine)

/-- What `std::sort` leaves of a list of results: `operator<` compares
`rtt_ns`, and equal ones may come in any order. -/
def IsSorted (rs rs' : List MeasureResult) : Prop :=
  rs'.Perm rs ∧ rs'.Pairwise (·.rtt_ns ≤ ·.rtt_ns)

instance (rs rs' : List MeasureResult) : Decidable (IsSorted rs rs') :=
  inferInstanceAs (Decidable (_ ∧ _))

/-! ## addresses -/

section Address

variable {c : Char} {s : Slave}

theorem mem_address (h : c ∈ s.address) : c = '.' ∨ c.isDigit = true ∨ c = ':' ∨ c = '-' := by
  obtain h | h := List.mem_append.mp h
  · exact (s.ip.dotted c h).imp_right .inl
  · obtain h | h := List.mem_cons.mp h
    · exact .inr (.inr (.inl h))
    · exact .inr ((mem_intText h).elim (fun h => .inr (.inr h)) .inl)

/-- Any other character occurs in no address. -/
theorem not_mem_address (hc : c ∉ ['.', ':', '-']) (hd : c.isDigit = false) : c ∉ s.address :=
  fun h => by
    have := mem_address h
    simp only [hd, Bool.false_eq_true, false_or] at this
    simp only [List.mem_cons, List.not_mem_nil, or_false] at hc
    exact hc this

theorem isBlank_of_mem_address (h : c ∈ s.address) : isBlank c = false := by
  obtain rfl | h | rfl | rfl := mem_address h
  · decide
  · exact isBlank_of_isDigit h
  · decide
  · decide

/-- Slaves of one address are one slave. -/
theorem address_injective {s t : Slave} (h : s.address = t.address) : s = t := by
  have hsplit := congrArg (List.splitOn ':') h
  have hport (s : Slave) : (intText s.port).splitOn ':' = [intText s.port] :=
    List.splitOn_eq_singleton (not_mem_intText (by decide) (by decide))
  simp only [Slave.address, List.splitOn_append_cons_self_of_not_mem (Ipv4.colon_not_mem _),
    hport, List.cons.injEq, and_true] at hsplit
  obtain ⟨sip, sport⟩ := s
  obtain ⟨tip, tport⟩ := t
  obtain ⟨hip, hp⟩ := hsplit
  cases sip
  cases tip
  cases hip
  cases intText_injective hp
  rfl

end Address

/-! ## lines of the log -/

section Lines

variable {r : MeasureResult}

theorem not_mem_logLine {c : Char} (hc : c ∉ ['.', ':', '-', ',']) (hd : c.isDigit = false) :
    c ∉ logLine r := fun h => by
  simp only [List.mem_cons, List.not_mem_nil, or_false, not_or] at hc
  have haddr (s : Slave) : c ∉ s.address := not_mem_address (by simp [hc]) hd
  have hint (z : Int) : c ∉ intText z := not_mem_intText hc.2.2.1 hd
  have hnat (n : Nat) : c ∉ natText n := fun h => by simp [isDigit_of_mem_natText h] at hd
  obtain h | ⟨l, hl, h⟩ := mem_intercalate h
  · exact hc.2.2.2 h
  · simp only [List.mem_cons, List.not_mem_nil, or_false] at hl
    obtain rfl | rfl | rfl | rfl | rfl | rfl | rfl | rfl | rfl | rfl | rfl | rfl := hl
    all_goals simp_all only

theorem newline_not_mem_minrttHeader : '\n' ∉ minrttHeader := by
  simp only [minrttHeader, List.mem_append, not_or]
  exact ⟨⟨⟨not_mem_lit (by decide), not_mem_lit (by decide)⟩, not_mem_lit (by decide)⟩,
    not_mem_lit (by decide)⟩

theorem head?_minrttHeader : (minrttHeader ++ ['\n']).head? = some '#' := by
  simp only [minrttHeader, List.append_assoc]
  exact head?_lit_append (by decide)

/-- The log is read line by line as it was written. -/
theorem readLines_minrttLog (rs : List MeasureResult) :
    readLines (minrttLog rs) = (minrttHeader :: rs.map logLine).map (· ++ ['\n']) := by
  refine readLines_unlines fun l hl => ?_
  obtain hl | hl := List.mem_cons.mp hl
  · exact hl ▸ newline_not_mem_minrttHeader
  · obtain ⟨r, -, rfl⟩ := List.mem_map.mp hl
    exact not_mem_logLine (by decide) (by decide)

end Lines

end CloudProfiler.Tsc
