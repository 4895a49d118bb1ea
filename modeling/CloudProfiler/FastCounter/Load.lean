import CloudProfiler.Elapsed
import CloudProfiler.FastCounter.Throughput

/-!
# CloudProfiler.FastCounter.Load

What `loadTS_FPC` makes of the log of a fast periodic counter, and the smallest
and the largest time-stamp in several of them (`util.py`).

The first time-stamp should not be included.  It is: the `continue` for it goes
on with the same line.

* `loadTS_FPC_sessionLog` — every data line is loaded;
* `minMaxTSinFiles_eq_some_iff` — and every one is compared;
* `fpc_skips_iff` — when this makes no difference.
-/

namespace CloudProfiler

open Least

/-- The log of a session. -/
def sessionLog (cal : Calendar) (ops : List FPCOp) : List Char :=
  logFile cal (session ops).base.lines

/-- The time-stamps and counts on its data lines. -/
def dataEntries (ops : List FPCOp) : List FPCEntry :=
  (session ops).base.lines.filterMap FPCLine.entry

/-- The time-stamp of an entry. -/
def stampOf (e : FPCEntry) : TSEntry := (e.1, e.2.1)

/-- The dictionary `{1: [es[0]], 2: [es[1]], ...}`. -/
def numbered (es : List FPCEntry) (k : Nat) : Option (List FPCEntry) :=
  if k = 0 then none else es[k - 1]?.map fun e => [e]

/-- **The first data line is skipped**, and no other is. -/
def SkipsFirst (cal : Calendar) (ops : List FPCOp) : Prop :=
  ∃ d, loadTS_FPC (sessionLog cal ops) = some d ∧ ∀ k, d.get? k = numbered (dataEntries ops).tail k

/-- The time-stamps of the first data lines. -/
def firstStamps (logs : List (List FPCOp)) : List TSEntry :=
  logs.flatMap fun ops => (dataEntries ops).head?.toList.map stampOf

/-- The time-stamps of the others. -/
def restStamps (logs : List (List FPCOp)) : List TSEntry :=
  logs.flatMap fun ops => (dataEntries ops).tail.map stampOf

/-- **The first time-stamp in the order** is looked for in the others only. -/
def ExtremeOfRest (cal : Calendar) (logs : List (List FPCOp)) (r : Bool) : Prop :=
  ∀ x, minMaxTSinFiles (logs.map (sessionLog cal)) r true = some x ↔
    Leads (keyLe id r) x (restStamps logs)

/-! ## loading -/

variable {cal : Calendar} {ops : List FPCOp} {logs : List (List FPCOp)}

/-- The data lines are numbered from `ctr`. -/
theorem loadFPCLines_get? (cal : Calendar) {ctr : Nat} (hctr : ctr ≠ 0) (ls : List FPCLine)
    (d : Dict Nat (List FPCEntry)) :
    ∃ d', loadFPCLines (ls.map (FPCLine.text cal · ++ ['\n'])) ctr d = some d' ∧
      ∀ k, d'.get? k =
        if k < ctr then d.get? k
        else ((ls.filterMap FPCLine.entry)[k - ctr]?.map fun e => [e]).or (d.get? k) := by
  induction ls generalizing ctr d with
  | nil => exact ⟨d, by rw [List.map_nil, loadFPCLines], fun k => by simp⟩
  | cons l ls ih =>
      obtain ⟨-, hnone, hhead⟩ | ⟨ts, n, rfl⟩ := comment_or_data cal l
      · obtain ⟨d', hload, hget⟩ := ih hctr d
        exact ⟨d', by rw [List.map_cons, loadFPCLines, if_pos hhead, hload],
          by rw [List.filterMap_cons_none hnone]; exact hget⟩
      · obtain ⟨d', hload, hget⟩ := ih (show ctr + 1 ≠ 0 by omega)
          (d.set ctr [(ts.tvSec.toInt, ts.tvNsec.toInt, (n.toNat : Int))])
        have hentry : (FPCLine.ctr ts n).entry =
          some (ts.tvSec.toInt, ts.tvNsec.toInt, (n.toNat : Int)) := rfl
        refine ⟨d', by rw [List.map_cons, loadFPCLines_ctr hctr, hload], fun k => ?_⟩
        rw [hget, List.filterMap_cons_some hentry, Dict.get?_set]
        obtain hlt | rfl | hgt := Nat.lt_trichotomy k ctr
        · rw [if_pos (by omega), if_pos hlt, if_neg (by omega)]
        · simp
        · rw [if_neg (by omega), if_neg (by omega), if_neg (by omega),
            show k - ctr = k - (ctr + 1) + 1 by omega, List.getElem?_cons_succ]

/-- **Every data line is loaded.** -/
theorem loadTS_FPC_sessionLog (cal : Calendar) (ops : List FPCOp) :
    ∃ d, loadTS_FPC (sessionLog cal ops) = some d ∧
      (∀ k, d.get? k = numbered (dataEntries ops) k) ∧
      d.values = (dataEntries ops).map fun e => [e] := by
  obtain ⟨d, hload, hget⟩ := loadFPCLines_get? cal Nat.one_ne_zero (session ops).base.lines
    Dict.empty
  obtain ⟨d', hload', hvalues⟩ := loadFPCLines_map cal Nat.one_ne_zero (session ops).base.lines
    Dict.empty (by simp [Dict.empty, Dict.keys])
  obtain rfl := Option.some.inj (hload.symm.trans hload')
  refine ⟨d, ?_, fun k => ?_, hvalues⟩
  · rw [loadTS_FPC, sessionLog, readLines_logFile (session_spec ops).1, loadFPCLines_zero, hload]
  · rw [hget, numbered, Dict.get?_empty, Option.or_none]
    exact if_congr Nat.lt_one_iff rfl rfl

/-- The first data line is skipped only where there is none. -/
theorem skipsFirst_iff (cal : Calendar) (ops : List FPCOp) :
    SkipsFirst cal ops ↔ dataEntries ops = [] := by
  obtain ⟨d, hload, hget, -⟩ := loadTS_FPC_sessionLog cal ops
  constructor
  · rintro ⟨d', hload', hget'⟩
    obtain rfl := Option.some.inj (hload.symm.trans hload')
    by_contra hne
    -- the last entry has one place more in what is loaded
    obtain ⟨e, es, hes⟩ := List.exists_cons_of_ne_nil hne
    have hlast := (hget (es.length + 1)).symm.trans (hget' (es.length + 1))
    rw [hes, List.tail_cons, numbered, numbered, if_neg (Nat.succ_ne_zero _),
      if_neg (Nat.succ_ne_zero _), Nat.add_sub_cancel, List.getElem?_eq_none (Nat.le_refl _),
      List.getElem?_eq_getElem (Nat.lt_succ_self _)] at hlast
    cases hlast
  · intro h
    exact ⟨d, hload, by rw [h] at hget ⊢; exact hget⟩

/-! ## the smallest and the largest -/

/-- The order of the time-stamps is the one of the pairs. -/
theorem keyLe_antisymm {r : Bool} (x y : TSEntry) (h : keyLe id r x y = true)
    (h' : keyLe id r y x = true) : x = y := by
  have hboth : keyLe id false x y = true ∧ keyLe id false y x = true := by
    cases r with
    | false => exact ⟨h, h'⟩
    | true => exact ⟨keyLe_true.mp h', keyLe_true.mp h⟩
  simp only [keyLe_false, id] at hboth
  exact Prod.ext (by omega) (by omega)

/-- All data lines. -/
def allStamps (logs : List (List FPCOp)) : List TSEntry :=
  logs.flatMap fun ops => (dataEntries ops).map stampOf

theorem mem_allStamps (x : TSEntry) :
    x ∈ allStamps logs ↔ x ∈ firstStamps logs ∨ x ∈ restStamps logs := by
  simp only [allStamps, firstStamps, restStamps, List.mem_flatMap, ← exists_or, ← and_or_left]
  refine exists_congr fun ops => and_congr_right fun _ => ?_
  cases dataEntries ops with
  | nil => simp
  | cons e es => simp

theorem allStamps_eq_nil_iff : allStamps logs = [] ↔ ∀ ops ∈ logs, dataEntries ops = [] := by
  rw [allStamps, List.flatMap_eq_nil_iff]
  simp only [List.map_eq_nil_iff]

/-- What `_minMaxTSinFiles` sorts. -/
theorem minMaxTSinFiles_sessionLog (r : Bool) :
    minMaxTSinFiles (logs.map (sessionLog cal)) r true =
      (leader (keyLe stampOf r) ((logs.map dataEntries).filterMap (leader (keyLe stampOf r)))).map
        stampOf := by
  let load (f : List Char) := (loadTS_FPC f).map fun d => d.values.flatten
  have hload (ops : List FPCOp) : load (sessionLog cal ops) = some (dataEntries ops) := by
    obtain ⟨d, hd, -, hvalues⟩ := loadTS_FPC_sessionLog cal ops
    simp only [load, hd, Option.map_some, hvalues]
    rw [← List.flatMap_def, List.flatMap_singleton']
  have hall : ∀ f ∈ logs.map (sessionLog cal), (load f).isSome = true := by
    intro f hf
    obtain ⟨ops, -, rfl⟩ := List.mem_map.mp hf
    rw [hload]
    rfl
  have hmap : (logs.map (sessionLog cal)).filterMap load = logs.map dataEntries := by
    rw [List.filterMap_map, ← List.filterMap_eq_map]
    exact List.filterMap_congr fun ops _ => hload ops
  show (minsInFiles load (keyLe stampOf r) _ []).bind _ = _
  rw [minsInFiles_eq hall, hmap, Option.bind_some, List.nil_append]
  rfl

/-- **The first of all time-stamps in the order is found**, those of the first
data lines included. -/
theorem minMaxTSinFiles_eq_some_iff (r : Bool) (x : TSEntry) :
    minMaxTSinFiles (logs.map (sessionLog cal)) r true = some x ↔
      Leads (keyLe id r) x (allStamps logs) := by
  have hall : allStamps logs = (logs.map dataEntries).flatten.map stampOf := by
    rw [allStamps, ← List.flatMap_def, List.map_flatMap]
  have hfound {y : TSEntry} (h : minMaxTSinFiles (logs.map (sessionLog cal)) r true = some y) :
      Leads (keyLe id r) y (allStamps logs) := by
    rw [minMaxTSinFiles_sessionLog] at h
    obtain ⟨m, hm, rfl⟩ := Option.map_eq_some_iff.mp h
    obtain ⟨hmem, hle⟩ := leader_leaders keyLe_trans keyLe_total hm
    rw [hall]
    exact ⟨List.mem_map_of_mem hmem, List.forall_mem_map.mpr hle⟩
  refine ⟨hfound, fun h => ?_⟩
  have hne : (logs.map dataEntries).flatten ≠ [] := by
    intro hnil
    have hmem := h.mem
    rw [hall, hnil] at hmem
    cases hmem
  have hsome : leader (keyLe stampOf r)
      ((logs.map dataEntries).filterMap (leader (keyLe stampOf r))) ≠ none :=
    leader_leaders_ne_none hne
  obtain ⟨m, hm⟩ := Option.ne_none_iff_exists'.mp hsome
  have hstamp : minMaxTSinFiles (logs.map (sessionLog cal)) r true = some (stampOf m) := by
    rw [minMaxTSinFiles_sessionLog, hm, Option.map_some]
  rw [hstamp, (hfound hstamp).unique keyLe_antisymm h]

/-- When the first data lines make no difference to the result. -/
theorem extremeOfRest_iff (cal : Calendar) (logs : List (List FPCOp)) (r : Bool) :
    ExtremeOfRest cal logs r ↔
      (∀ ops ∈ logs, dataEntries ops = []) ∨
        ∃ e ∈ restStamps logs, ∀ f ∈ firstStamps logs, keyLe id r e f = true := by
  rw [← allStamps_eq_nil_iff,
    ← leads_rest_iff keyLe_trans keyLe_total keyLe_antisymm mem_allStamps]
  exact forall_congr' fun x => by rw [minMaxTSinFiles_eq_some_iff]

/-- **The first data lines are left out if and only if** there are none; the
smallest and the largest time-stamp are still those of the others if one of the
others is as small, or as large, as the first ones. -/
theorem fpc_skips_iff (cal : Calendar) (logs : List (List FPCOp)) :
    ((∀ ops ∈ logs, SkipsFirst cal ops) ↔ ∀ ops ∈ logs, dataEntries ops = []) ∧
      ((∀ x, minTSFromFiles (logs.map (sessionLog cal)) true = some x ↔
          Leads (keyLe id false) x (restStamps logs)) ↔
        (∀ ops ∈ logs, dataEntries ops = []) ∨
          ∃ e ∈ restStamps logs, ∀ f ∈ firstStamps logs, keyLe id false e f = true) ∧
      ((∀ x, maxTSFromFiles (logs.map (sessionLog cal)) true = some x ↔
          Leads (keyLe id true) x (restStamps logs)) ↔
        (∀ ops ∈ logs, dataEntries ops = []) ∨
          ∃ e ∈ restStamps logs, ∀ f ∈ firstStamps logs, keyLe id true e f = true) := by
  refine ⟨?_, extremeOfRest_iff cal logs false, extremeOfRest_iff cal logs true⟩
  exact forall₂_congr fun ops _ => skipsFirst_iff cal ops

/-- A channel that is opened and sampled at one second and closed at two. -/
def twoSamples : List FPCOp :=
  [.insert { Timespec.zero with tvSec := 1 } 0, .delete { Timespec.zero with tvSec := 2 } 5]

/-- The first data line of its log is loaded, and has the smallest
time-stamp. -/
theorem fpc_first_loaded :
    (∀ cal, ¬ SkipsFirst cal twoSamples) ∧
      ∀ cal, minTSFromFiles [sessionLog cal twoSamples] true = some (1, 0) ∧
        ¬ Leads (keyLe id false) (1, 0) (restStamps [twoSamples]) := by
  have hentries : dataEntries twoSamples = [(1, 0, 0), (2, 0, 5)] := by decide +kernel
  refine ⟨fun cal h => ?_, fun cal => ⟨?_, fun h => ?_⟩⟩
  · rw [skipsFirst_iff, hentries] at h
    cases h
  · have hleads : Leads (keyLe id false) (1, 0) (allStamps [twoSamples]) := by
      rw [allStamps, List.flatMap_singleton, hentries]
      exact ⟨by decide, by decide⟩
    exact (minMaxTSinFiles_eq_some_iff false (1, 0)).mpr hleads
  · have hmem := h.mem
    rw [restStamps, List.flatMap_singleton, hentries] at hmem
    exact absurd hmem (by decide)

end CloudProfiler
