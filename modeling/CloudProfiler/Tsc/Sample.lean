import CloudProfiler.Least
import CloudProfiler.Tsc.Master

/-!
# CloudProfiler.Tsc.Sample

The round trips of `measure_tsc_rtt` (`tsc_slave.cpp`) on the side of the
sender: the search for the fastest one, its nine values on their way to the
master, and the lines that both write.

* `Search.step` — one iteration of the search;
* `search_eq` — it keeps the values of the sample it found;
* `reported_is_sample` — what is sent, and what is written.
-/

namespace CloudProfiler.Tsc

open Least

/-! ## the source -/

/-- A round trip in the array `RTTs`. -/
structure RTT_data where
  ts_stt : Int64
  ns_stt : Int64
  ts_end : Int64
  ns_end : Int64
  reply_cyc : Int64
  reply_ns : Int64
  aux_stt : UInt32
  aux_end : UInt32
  reply_aux : UInt32
deriving DecidableEq

/-- The member `mm_res`, as far as it is set. -/
def RTT_data.mm_res (r : RTT_data) : MSG_measure_result :=
  { MSG_measure_result.zero with
    rtt_ns := (r.ns_stt - r.ns_end).toInt
    from_cyc := r.ts_stt.toInt, from_ns := r.ns_stt.toInt
    end_cyc := r.ts_end.toInt, end_ns := r.ns_end.toInt
    to_cyc := r.reply_cyc.toInt, to_ns := r.reply_ns.toInt
    from_aux := r.aux_stt.toNat, end_aux := r.aux_end.toNat, to_aux := r.reply_aux.toNat }

/-- The variables of the search. -/
structure Search where
  min_ts : Int64
  from_cyc : Int64
  from_ns : Int64
  end_cyc : Int64
  end_ns : Int64
  to_cyc : Int64
  to_ns : Int64
  from_aux : UInt32
  end_aux : UInt32
  to_aux : UInt32

/-- Their initial values; `min_ts` is `LLONG_MAX`. -/
def Search.init : Search := ⟨Int64.maxValue, 0, 0, 0, 0, 0, 0, 0, 0, 0⟩

/-- One iteration. -/
def Search.step (s : Search) (r : RTT_data) : Search :=
  let cur_ts := r.ts_end - r.ts_stt
  if cur_ts < s.min_ts then
    { min_ts := cur_ts
      from_cyc := r.ts_stt
      from_ns := r.ns_stt
      end_cyc := r.ts_end
      end_ns := r.ns_end
      to_cyc := r.reply_cyc
      to_ns := r.reply_ns
      from_aux := r.aux_stt
      end_aux := r.aux_end
      to_aux := r.reply_aux }
  else s

/-- The whole search. -/
def search (RTTs : List RTT_data) : Search := RTTs.foldl Search.step .init

/-- What `measure_tsc_rtt` and then `get_commands` put into the result. -/
def sentResult (mm_req : MSG_measure_req) (RTTs : List RTT_data) : MSG_measure_result :=
  let s := search RTTs
  { MSG_measure_result.zero with
    from_cyc := s.from_cyc.toInt, from_ns := s.from_ns.toInt
    to_cyc := s.to_cyc.toInt, to_ns := s.to_ns.toInt
    end_cyc := s.end_cyc.toInt, end_ns := s.end_ns.toInt
    from_aux := s.from_aux.toNat, to_aux := s.to_aux.toNat, end_aux := s.end_aux.toNat
    slave_from := mm_req.slave_from, slave_to := mm_req.slave_to, finished := 0 }

/-- The subtraction of two `int64_t`. -/
def sub64 (a b : Int) : Int := (a - b).bmod (2 ^ 64)

/-- A line of the slave's own log. -/
def rttLine (mm_req : MSG_measure_req) (r : RTT_data) : List Char :=
  [','].intercalate
    [mm_req.slave_from.address, intText r.mm_res.from_ns, intText r.mm_res.from_cyc,
      intText r.mm_res.end_ns, intText r.mm_res.end_cyc, mm_req.slave_to.address,
      intText r.mm_res.to_ns, intText r.mm_res.to_cyc,
      intText (sub64 r.mm_res.end_ns r.mm_res.from_ns), intText r.mm_res.from_aux,
      intText r.mm_res.end_aux, intText r.mm_res.to_aux]

/-- The lines of the slave's own log; the first is that of the master's. -/
def rttLog (mm_req : MSG_measure_req) (RTTs : List RTT_data) : List (List Char) :=
  minrttHeader :: RTTs.map (rttLine mm_req)

/-- The copy of a result in `request_measurement`. -/
def copyResult (mma : MSG_measure_result) : MeasureResult :=
  { measureResult mma with rtt_ns := sub64 mma.end_ns mma.from_ns }

/-- The list of results after a reply. -/
def collectCopy (measResultList : List MeasureResult) (mma : MSG_measure_result) :
    List MeasureResult :=
  if mma.from_cyc ≠ -1 then measResultList ++ [copyResult mma] else measResultList

/-! ## the search -/

/-- The cycles of a round trip, by which the fastest is found. -/
def RTT_data.cycles (r : RTT_data) : Int := (r.ts_end - r.ts_stt).toInt

/-- The variables when a sample was found last. -/
def Search.of (r : RTT_data) : Search :=
  ⟨r.ts_end - r.ts_stt, r.ts_stt, r.ns_stt, r.ts_end, r.ns_end, r.reply_cyc, r.reply_ns, r.aux_stt,
    r.aux_end, r.reply_aux⟩

/-- All variables are those of one sample. -/
theorem step_of (found : Option RTT_data) (r : RTT_data) :
    (found.elim Search.init Search.of).step r =
      (keep RTT_data.cycles Int64.maxValue.toInt found r).elim Search.init Search.of := by
  have hmin : (found.elim Search.init Search.of).min_ts.toInt =
      (found.map RTT_data.cycles).getD Int64.maxValue.toInt := by
    cases found <;> rfl
  rw [Search.step, keep]
  by_cases hlt : r.ts_end - r.ts_stt < (found.elim Search.init Search.of).min_ts
  · rw [if_pos hlt, if_pos (hmin ▸ Int64.lt_iff_toInt_lt.mp hlt)]
    rfl
  · rw [if_neg hlt, if_neg (hmin ▸ mt Int64.lt_iff_toInt_lt.mpr hlt)]

/-- **The search ends with the values of the first fastest sample.** -/
theorem search_eq {RTTs : List RTT_data} (hne : RTTs ≠ [])
    (hmax : ∀ r ∈ RTTs, r.ts_end - r.ts_stt < Int64.maxValue) :
    ∃ i r, FirstLeast RTT_data.cycles RTTs i r ∧ search RTTs = .of r := by
  obtain ⟨i, r, hfold, hr⟩ := foldl_keep RTT_data.cycles hne
    fun r hr => Int64.lt_iff_toInt_lt.mp (hmax r hr)
  refine ⟨i, r, hr, ?_⟩
  have hhom : RTTs.foldl Search.step .init =
      (RTTs.foldl (keep RTT_data.cycles Int64.maxValue.toInt) none).elim Search.init Search.of := by
    rw [← List.foldl_hom (fun found : Option RTT_data => found.elim Search.init Search.of) step_of]
    rfl
  rw [search, hhom, hfold, Option.elim_some]

/-! ## what is sent and written -/

/-- The values sent are those of one sample. -/
structure IsSample (res : MSG_measure_result) (r : RTT_data) : Prop where
  from_cyc : res.from_cyc = r.ts_stt.toInt
  from_ns : res.from_ns = r.ns_stt.toInt
  to_cyc : res.to_cyc = r.reply_cyc.toInt
  to_ns : res.to_ns = r.reply_ns.toInt
  end_cyc : res.end_cyc = r.ts_end.toInt
  end_ns : res.end_ns = r.ns_end.toInt
  from_aux : res.from_aux = r.aux_stt.toNat
  to_aux : res.to_aux = r.reply_aux.toNat
  end_aux : res.end_aux = r.aux_end.toNat

variable {mm_req : MSG_measure_req} {RTTs : List RTT_data} {res : MSG_measure_result}
  {r : RTT_data}

/-- An `uint32_t` survives the way through an `int64_t`. -/
theorem toUInt32_toNat (x : UInt32) : toUInt32 (x.toNat : Int) = x.toNat := by
  have hlt := x.toNat_lt
  rw [toUInt32, Int.emod_eq_of_lt (by omega) (by omega), Int.toNat_natCast]

/-- **The line of the master is the line of the sample.** -/
theorem IsSample.logLine_eq (h : IsSample res r) (hfrom : res.slave_from = mm_req.slave_from)
    (hto : res.slave_to = mm_req.slave_to) : logLine (copyResult res) = rttLine mm_req r := by
  rw [logLine, rttLine, copyResult, measureResult]
  simp only [hfrom, hto, h.from_cyc, h.from_ns, h.to_cyc, h.to_ns, h.end_cyc, h.end_ns, h.from_aux,
    h.to_aux, h.end_aux, toUInt32_toNat]
  rfl

/-- **The reported minimum is one of the samples**: the first fastest one.  The
master writes its line, up to the position, unless the cycles of the sample are
`-1`, which is how a receiver's result is told. -/
theorem reported_is_sample (mm_req : MSG_measure_req) (RTTs : List RTT_data) (hne : RTTs ≠ [])
    (hmax : ∀ r ∈ RTTs, r.ts_end - r.ts_stt < Int64.maxValue) :
    ∃ i r, FirstLeast RTT_data.cycles RTTs i r ∧ IsSample (sentResult mm_req RTTs) r ∧
      (rttLog mm_req RTTs)[i + 1]? = some (rttLine mm_req r) ∧
      logLine (copyResult (sentResult mm_req RTTs)) = rttLine mm_req r ∧
      ∀ rs rs', IsSorted (collectCopy rs (sentResult mm_req RTTs)) rs' →
        (rs'.map logLine).Perm
          (rs.map logLine ++ if r.ts_stt = -1 then [] else [rttLine mm_req r]) := by
  obtain ⟨i, r, hr, hsearch⟩ := search_eq hne hmax
  have hsample : IsSample (sentResult mm_req RTTs) r := by
    rw [sentResult, hsearch]
    exact ⟨rfl, rfl, rfl, rfl, rfl, rfl, rfl, rfl, rfl⟩
  have hline : logLine (copyResult (sentResult mm_req RTTs)) = rttLine mm_req r :=
    hsample.logLine_eq rfl rfl
  refine ⟨i, r, hr, hsample, ?_, hline, fun rs rs' hsorted => ?_⟩
  · rw [rttLog, List.getElem?_cons_succ, List.getElem?_map, hr.get, Option.map_some]
  · have hcyc : (sentResult mm_req RTTs).from_cyc = -1 ↔ r.ts_stt = -1 := by
      rw [hsample.from_cyc]
      exact Int64.toInt_inj (y := -1)
    have hperm := hsorted.1.map logLine
    rw [collectCopy] at hperm
    by_cases hstt : r.ts_stt = -1
    · rw [if_neg (not_not.mpr (hcyc.mpr hstt))] at hperm
      rwa [if_pos hstt, List.append_nil]
    · rw [if_pos (mt hcyc.mp hstt), List.map_append, List.map_singleton, hline] at hperm
      rwa [if_neg hstt]

/-! ## the protocol -/

/-- The master's copy is that of the protocol, where nothing overflows. -/
theorem copyResult_eq {mma : MSG_measure_result} (hlow : -2 ^ 63 ≤ mma.end_ns - mma.from_ns)
    (hhigh : mma.end_ns - mma.from_ns < 2 ^ 63) : copyResult mma = measureResult mma := by
  have hsub : sub64 mma.end_ns mma.from_ns = mma.end_ns - mma.from_ns :=
    Int.bmod_eq_of_le hlow hhigh
  rw [copyResult, hsub]
  rfl

/-- What is sent is a reply of the protocol. -/
theorem exists_replyTo (hcyc : (sentResult mm_req RTTs).from_cyc ≠ -1)
    (hreq : mm_req.finished = 0) :
    ∃ m, replyTo mm_req.slave_from mm_req m = sentResult mm_req RTTs := by
  let s := search RTTs
  refine ⟨⟨s.from_cyc.toInt, s.from_ns.toInt, s.to_cyc.toInt, s.to_ns.toInt, s.end_cyc.toInt,
    s.end_ns.toInt, s.from_aux.toNat, s.to_aux.toNat, s.end_aux.toNat, hcyc⟩, ?_⟩
  rw [replyTo, if_pos hreq, measure_tsc_rtt, if_pos (by simp)]
  rfl

/-- Two round trips, the second one faster. -/
def twoTrips : List RTT_data := [⟨10, 0, 30, 9, 15, 4, 1, 1, 2⟩, ⟨40, 12, 50, 17, 44, 14, 1, 1, 2⟩]

/-- The request of a slave to itself. -/
def selfRequest : MSG_measure_req := measureReq (noSlave, noSlave)

theorem reported_is_sample_two :
    ∃ i r, FirstLeast RTT_data.cycles twoTrips i r ∧
      IsSample (sentResult selfRequest twoTrips) r ∧
      (rttLog selfRequest twoTrips)[i + 1]? = some (rttLine selfRequest r) ∧
      logLine (copyResult (sentResult selfRequest twoTrips)) = rttLine selfRequest r ∧
      ∀ rs rs', IsSorted (collectCopy rs (sentResult selfRequest twoTrips)) rs' →
        (rs'.map logLine).Perm
          (rs.map logLine ++ if r.ts_stt = -1 then [] else [rttLine selfRequest r]) :=
  reported_is_sample selfRequest twoTrips (by decide) (by decide)

end CloudProfiler.Tsc
