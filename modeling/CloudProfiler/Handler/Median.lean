import CloudProfiler.Handler.Capacity
import CloudProfiler.Insertion

/-!
# CloudProfiler.Handler.Median

What MEDIAN logs (`median_handler.cpp`): the handler counts up before it
stores, so that a batch of `n` calls fills the buffer from index 1 on, and the
last call of a batch computes instead of storing.  The median is over what
`buffer[0]` holds from before and the first `n - 1` readings of the batch.

* `runs` — the calls of the handler, one after the other;
* `runs_eq` — the lines they write;
* `LogsMedians` — the lines are the medians of the batches;
* `MiddleAgrees` — the stale time-stamp can stand for the missing one;
* `median_logged_iff` — the medians are logged if and only if it can.
-/

namespace CloudProfiler

/-! ## the order of `qsort` -/

/-- `void_compareTS` as an order. -/
def tsLe (a b : Timespec) : Bool := compareTS a b ≤ 0

theorem tsLe_iff {a b : Timespec} : tsLe a b = true ↔
    a.tvSec.toInt < b.tvSec.toInt ∨
      a.tvSec.toInt = b.tvSec.toInt ∧ a.tvNsec.toInt ≤ b.tvNsec.toInt := by
  unfold tsLe compareTS
  simp only [← Int64.toInt_inj, Int64.lt_iff_toInt_lt]
  split
  · exact iff_of_true (by decide) (by omega)
  · split
    · exact iff_of_true (by decide) (by omega)
    · exact iff_of_false (by decide) (by omega)

theorem tsLe_trans (a b c : Timespec) (hab : tsLe a b = true) (hbc : tsLe b c = true) :
    tsLe a c = true := by
  rw [tsLe_iff] at *
  omega

theorem tsLe_total (a b : Timespec) : (tsLe a b || tsLe b a) = true := by
  rw [Bool.or_eq_true, tsLe_iff, tsLe_iff]
  omega

/-- `x` goes in front of those it ties with. -/
abbrev Before (x t : Timespec) : Prop := tsLe x t = true

/-- `y` goes behind those it ties with. -/
abbrev Behind (y t : Timespec) : Prop := tsLe t y = false

/-- The earliest of `x` and `ts`, in the order of `qsort`. -/
def earliest (x : Timespec) : List Timespec → Timespec
  | [] => x
  | t :: ts => if Before x (earliest t ts) then x else earliest t ts

theorem getD_zero_mergeSort (x d : Timespec) (ts : List Timespec) :
    ((x :: ts).mergeSort tsLe).getD 0 d = earliest x ts := by
  induction ts generalizing x with
  | nil => simp [earliest]
  | cons t ts ih =>
      have hne : (t :: ts).mergeSort tsLe ≠ [] :=
        List.ne_nil_of_length_pos (by rw [List.length_mergeSort]; exact Nat.succ_pos _)
      rw [Insertion.mergeSort_cons_eq tsLe_trans tsLe_total, Insertion.getD_zero_orderedInsert,
        if_neg hne, ih t]
      rfl

namespace MedianChannel

/-! ## what is logged and what is due -/

/-- What a line of the log shows of a time-stamp. -/
def printed (t : Timespec) : Int64 × Int64 × UInt64 := (t.tvSec, t.tvNsec, t.tsc)

/-- The calls of `MedianHandler`, one after the other. -/
def runs (ch : MedianChannel) (calls : List Env) : Option MedianChannel :=
  calls.foldlM (fun ch env => ch.handler env) ch

/-- Batch `k` of the calls. -/
def batch (n k : Nat) (calls : List Env) : List Env := (calls.drop (k * n)).take n

/-- The readings of a batch. -/
def readings (b : List Env) : List Timespec := b.map (·.now)

/-- The last call of a batch. -/
def lastCall (b : List Env) : Env := b.getLastD (allocated 0)

/-- The median of the entries `e` of a sorted list of `n`. -/
def medianAt (n : Int64) (last : Env) (e : Nat → Timespec) : Timespec :=
  if n % 2 = 0 then
    (divideTS (last.fresh 1)
      (addTS (last.fresh 0) (e ((n - 1) / 2).toNatClampNeg) (e (n / 2).toNatClampNeg)) 2).2
  else e (n / 2).toNatClampNeg

/-- The median of the readings of a batch. -/
def medianOf (n : Int64) (b : List Env) : Timespec :=
  median ((readings b).mergeSort tsLe) n ((lastCall b).fresh 0) ((lastCall b).fresh 1)

/-- **The medians are logged**: the calls return, and one line for each full
batch shows the median of its readings. -/
def LogsMedians (n : Int64) (ch : MedianChannel) (calls : List Env) : Prop :=
  ∃ ch', ch.runs calls = some ch' ∧
    ch'.cl.base.lines.map printed = ch.cl.base.lines.map printed ++
      (List.range (calls.length / n.toNatClampNeg)).map
        fun k => printed (medianOf n (batch n.toNatClampNeg k calls))

/-- What `buffer[0]` holds when batch `k` begins: `x`, or an earlier one of the
readings stored since. -/
def stale (n : Nat) (x : Timespec) (calls : List Env) : Nat → Timespec
  | 0 => x
  | k + 1 => earliest (stale n x calls k) (readings (batch n k calls).dropLast)

/-- **The stale time-stamp `x` can stand for the last reading** of the batch:
in the middle of the other readings it falls between the same two, or at least
the same is printed. -/
def MiddleAgrees (n : Int64) (x : Timespec) (b : List Env) : Prop :=
  let ts := (readings b.dropLast).mergeSort tsLe
  let e (i : Nat) := ts.getD i ((lastCall b).fresh 1)
  printed (medianAt n (lastCall b) fun i => Insertion.between Before (e (i - 1)) (e i) x) =
    printed (medianAt n (lastCall b) fun i =>
      Insertion.between Behind (e (i - 1)) (e i) (lastCall b).now)

/-- The buffer has room for what the calls use of it. -/
def HasRoom (n : Int64) (ch : MedianChannel) (calls : List Env) : Prop :=
  calls = [] ∨ ch.cl.holds (Int64.ofNat (min (calls.length + 1) n.toNatClampNeg)) = true

/-- The channel was opened, or its size accepted, and `MedianHandler` has not
been called since. -/
inductive Accepted : Int64 → MedianChannel → Prop
  | init (env : Env) (h : env.heap.alignedAlloc ≠ 0) : Accepted maxTsDefault (init env)
  | setArg {ch : MedianChannel} (env : Env) (a : Arg) (hopen : ch.cl.base.isOpen = true)
      (h : (ch.setArg env a).1 = 0) : Accepted a.value (ch.setArg env a).2

/-! ## one batch -/

section Batch

variable {n : Int64} {ch : MedianChannel} {calls us b : List Env} {env last : Env}

/-- A channel between two batches. -/
structure Ready (n : Int64) (ch : MedianChannel) : Prop where
  isOpen : ch.cl.base.isOpen = true
  nrTs : ch.cl.nrTs = 0
  maxTs : ch.cl.maxTs = n
  size : sizeofTimespec.toInt64 ≤ n

theorem Accepted.ready (h : Accepted n ch) : Ready n ch := by
  cases h with
  | init env h =>
      have hinit : (MedianChannel.init env).cl = ⟨.opened, true, env.heap.alignedAlloc,
          roundCachlineSize (maxTsDefault.toUInt64 * sizeofTimespec).toInt64, 0, maxTsDefault⟩ := by
        simp [MedianChannel.init, initMedianHandler, h]
      refine ⟨?_, ?_, ?_, by decide⟩ <;> rw [hinit]
      rfl
  | setArg env a hopen h =>
      rename_i ch
      have hcl : (ch.setArg env a).2.cl = (setArgMedianHandler env.heap ch.cl a).2 := rfl
      have hret : (setArgMedianHandler env.heap ch.cl a).1 = 0 := h
      unfold setArgMedianHandler at hret
      split at hret
      · cases hret
      · next hno =>
        rcases setArgMedianHandler_cases env.heap ch.cl a with
          ⟨hbad, -⟩ | ⟨-, ⟨hmoved, hfail⟩, -⟩ | ⟨-, -, buf, -, hset⟩
        · exact absurd hbad hno
        · rw [if_neg hmoved, if_pos hfail] at hret
          cases hret
        · refine ⟨?_, ?_, ?_, Int64.not_lt.mp (not_or.mp hno).2⟩ <;> rw [hcl, hset]
          exact hopen

/-- The size as a natural number. -/
theorem Ready.size_nat (h : Ready n ch) :
    (n.toNatClampNeg : Int) = n.toInt ∧ 32 ≤ n.toNatClampNeg ∧ n.toNatClampNeg < 2 ^ 63 := by
  have hsize := h.size
  rw [Int64.le_iff_toInt_le, show sizeofTimespec.toInt64.toInt = 32 from rfl] at hsize
  have hlt := n.toNatClampNeg_lt
  rw [← Int64.toNat_toInt] at hlt ⊢
  omega

/-- The channel after the calls `us` of a batch, each of which stored its
reading. -/
def stored (ch : MedianChannel) (us : List Env) : MedianChannel where
  cl := { ch.cl with nrTs := Int64.ofNat us.length }
  buffer i := (ch.buffer 0 :: readings us).getD i (ch.buffer i)

theorem stored_nil (h : Ready n ch) : ch.stored [] = ch := by
  have hcl : { ch.cl with nrTs := Int64.ofNat ([] : List Env).length } = ch.cl := by
    rw [show Int64.ofNat ([] : List Env).length = ch.cl.nrTs from h.nrTs.symm]
  have hbuf : (fun i => (ch.buffer 0 :: readings []).getD i (ch.buffer i)) = ch.buffer := by
    funext i
    cases i <;> rfl
  unfold stored
  rw [hcl, hbuf]

/-- The index after the calls of a batch. -/
theorem ofNat_succ_lt_iff (h : Ready n ch) {j : Nat} (hj : j < n.toNatClampNeg) :
    Int64.ofNat j + 1 < n ↔ j + 1 < n.toNatClampNeg := by
  obtain ⟨hn, -, hlt⟩ := h.size_nat
  have hadd : Int64.ofNat j + 1 = Int64.ofNat (j + 1) := (Int64.ofNat_add j 1).symm
  rw [hadd, Int64.lt_iff_toInt_lt, Int64.toInt_ofNat_of_lt (by omega), ← hn]
  omega

/-- **A call that stores its reading.** -/
theorem handler_stored (h : Ready n ch) (hlt : us.length + 1 < n.toNatClampNeg) (env : Env) :
    (ch.stored us).handler env =
      if ch.cl.holds (Int64.ofNat (us.length + 2)) = true then some (ch.stored (us ++ [env]))
      else none := by
  have hmax : (ch.stored us).cl.maxTs = n := h.maxTs
  have hsucc : Int64.ofNat us.length + 1 = Int64.ofNat (us.length + 1) :=
    (Int64.ofNat_add us.length 1).symm
  have hsucc' : Int64.ofNat (us.length + 1) + 1 = Int64.ofNat (us.length + 2) :=
    (Int64.ofNat_add (us.length + 1) 1).symm
  have hstore : (ch.stored us).cl.nrTs + 1 < (ch.stored us).cl.maxTs := by
    rw [hmax]
    exact (ofNat_succ_lt_iff h (by omega)).mpr hlt
  have hlt63 := h.size_nat.2.2
  unfold handler
  dsimp only
  rw [if_pos hstore]
  simp only [stored, hsucc, hsucc', Int64.toNatClampNeg_ofNat_of_lt (show us.length + 1 < 2 ^ 63 by omega)]
  have hholds : MedianClosure.holds { ch.cl with nrTs := Int64.ofNat us.length }
      (Int64.ofNat (us.length + 2)) = ch.cl.holds (Int64.ofNat (us.length + 2)) := rfl
  rw [hholds]
  congr 3
  · simp
  · funext i
    by_cases hi : i = us.length + 1
    · subst hi
      simp [readings, Function.update_self]
    · rw [Function.update_of_ne hi]
      cases i with
      | zero => rfl
      | succ i =>
          simp only [readings, List.getD_cons_succ, List.map_append]
          by_cases hlen : i < us.length
          · simp [List.getD_eq_getElem?_getD, List.getElem?_append_left, hlen]
          · have hnone : (us.map fun x => x.now)[i]? = none := by simpa using hlen
            have hnone' : ((us.map fun x => x.now) ++ [env.now])[i]? = none := by
              rw [List.getElem?_eq_none_iff, List.length_append, List.length_map,
                List.length_singleton]
              omega
            rw [List.getD_eq_getElem?_getD, List.getD_eq_getElem?_getD, hnone, List.map_cons,
              List.map_nil, hnone']

/-- The line a batch writes. -/
def lineOf (n : Int64) (x : Timespec) (b : List Env) : Timespec :=
  median ((x :: readings b.dropLast).mergeSort tsLe) n ((lastCall b).fresh 0)
    ((lastCall b).fresh 1)

/-- The channel after the last call of a batch. -/
def finished (ch : MedianChannel) (us : List Env) (last : Env) : MedianChannel where
  cl := { ch.cl with
    base := ch.cl.base.put (lineOf ch.cl.maxTs (ch.buffer 0) (us ++ [last]))
    nrTs := 0 }
  buffer i := ((ch.buffer 0 :: readings us).mergeSort tsLe).getD i ((ch.stored us).buffer i)

/-- What the buffer holds when a batch is full. -/
theorem sorted_stored (h : Ready n ch) (hlen : us.length + 1 = n.toNatClampNeg) :
    (ch.stored us).sorted = (ch.buffer 0 :: readings us).mergeSort tsLe := by
  have hbuf : (List.range n.toNatClampNeg).map (ch.stored us).buffer =
      ch.buffer 0 :: readings us := by
    rw [← hlen]
    refine List.ext_getElem (by simp [readings]) fun i hi _ => ?_
    have hi' : i < (ch.buffer 0 :: readings us).length := by simpa [readings] using hi
    simp only [List.getElem_map, List.getElem_range, stored, List.getD_eq_getElem?_getD,
      List.getElem?_eq_getElem hi', Option.getD_some]
  have hmax : (ch.stored us).cl.maxTs = n := h.maxTs
  rw [sorted, hmax, hbuf]
  rfl

/-- **The last call of a batch** computes. -/
theorem handler_finished (h : Ready n ch) (hlen : us.length + 1 = n.toNatClampNeg) (last : Env) :
    (ch.stored us).handler last =
      if ch.cl.holds n = true then some (ch.finished us last) else none := by
  obtain rfl := h.maxTs
  have hfull : ¬ (ch.stored us).cl.nrTs + 1 < (ch.stored us).cl.maxTs :=
    fun hlt => absurd ((ofNat_succ_lt_iff h (by omega)).mp hlt) (by omega)
  have hlast : lastCall (us ++ [last]) = last := by simp [lastCall, List.getLastD_eq_getLast?]
  have hline : lineOf ch.cl.maxTs (ch.buffer 0) (us ++ [last]) =
      median (ch.stored us).sorted ch.cl.maxTs (last.fresh 0) (last.fresh 1) := by
    rw [lineOf, List.dropLast_concat, hlast, sorted_stored h hlen]
  unfold handler finished
  dsimp only
  rw [if_neg hfull, hline, ← sorted_stored h hlen]
  rfl

theorem ready_finished (h : Ready n ch) (us : List Env) (last : Env) :
    Ready n (ch.finished us last) where
  isOpen := (Base.written_put _).isOpen.trans h.isOpen
  nrTs := rfl
  maxTs := h.maxTs
  size := h.size

theorem buffer_finished (ch : MedianChannel) (us : List Env) (last : Env) :
    (ch.finished us last).buffer 0 = earliest (ch.buffer 0) (readings us) :=
  getD_zero_mergeSort _ _ _

theorem runs_append (ch : MedianChannel) (us vs : List Env) :
    ch.runs (us ++ vs) = (ch.runs us).bind fun ch' => ch'.runs vs :=
  List.foldlM_append

theorem runs_singleton (ch : MedianChannel) (env : Env) : ch.runs [env] = ch.handler env := by
  simp [runs]

/-- Room for some of the calls. -/
theorem holds_ofNat_mono {i j : Nat} (hij : i ≤ j) (hj : j < 2 ^ 63)
    (h : ch.cl.holds (Int64.ofNat j) = true) : ch.cl.holds (Int64.ofNat i) = true := by
  refine MedianClosure.holds_mono h ?_
  rw [Int64.le_iff_toInt_le, Int64.toInt_ofNat_of_lt (by omega), Int64.toInt_ofNat_of_lt hj]
  omega

/-- **The calls of a batch that store their readings.** -/
theorem runs_stored (h : Ready n ch) (us : List Env) (hlt : us.length < n.toNatClampNeg) :
    ch.runs us =
      if us = [] ∨ ch.cl.holds (Int64.ofNat (us.length + 1)) = true then some (ch.stored us)
      else none := by
  have hlt63 := h.size_nat.2.2
  induction us using List.reverseRecOn with
  | nil => simp [runs, stored_nil h]
  | append_singleton us env ih =>
      have hlength : (us ++ [env]).length + 1 = us.length + 2 := by simp
      have hne : us ++ [env] ≠ [] := by simp
      rw [runs_append, ih (by omega), hlength]
      by_cases hroom : ch.cl.holds (Int64.ofNat (us.length + 2)) = true
      · have hroom' := holds_ofNat_mono (i := us.length + 1) (by omega) (by omega) hroom
        rw [if_pos (.inr hroom'), if_pos (.inr hroom), Option.bind_some, runs_singleton,
          handler_stored h (by omega), if_pos hroom]
      · rw [if_neg (not_or.mpr ⟨hne, hroom⟩)]
        split
        · rw [Option.bind_some, runs_singleton, handler_stored h (by omega), if_neg hroom]
        · rfl

/-- **A whole batch.** -/
theorem runs_batch (h : Ready n ch) (us : List Env) (last : Env)
    (hlen : us.length + 1 = n.toNatClampNeg) :
    ch.runs (us ++ [last]) =
      if ch.cl.holds n = true then some (ch.finished us last) else none := by
  have hlt63 := h.size_nat.2.2
  have hn : Int64.ofNat (us.length + 1) = n := by
    rw [hlen]
    refine Int64.ofNat_toNatClampNeg n ?_
    rw [Int64.le_iff_toInt_le, ← h.size_nat.1]
    exact Int.natCast_nonneg _
  rw [runs_append, runs_stored h us (by omega), hn]
  by_cases hroom : ch.cl.holds n = true
  · rw [if_pos (.inr hroom), Option.bind_some, runs_singleton, handler_finished h hlen]
  · rw [if_neg hroom]
    split
    · rw [Option.bind_some, runs_singleton, handler_finished h hlen, if_neg hroom]
    · rfl

end Batch

/-! ## the middle of a batch -/

section Middle

variable {n : Int64} {ch : MedianChannel} {b calls : List Env}

/-- Half of a size. -/
theorem toNatClampNeg_half {m : Int64} (h : 0 ≤ m.toInt) :
    (m / 2).toNatClampNeg = m.toNatClampNeg / 2 := by
  have hlt := m.toInt_lt
  have hdiv : (m / 2).toInt = m.toInt / 2 := by
    rw [Int64.toInt_div, show (2 : Int64).toInt = 2 from rfl, Int.tdiv_eq_ediv_of_nonneg h]
    exact Int.bmod_eq_of_le (by omega) (by omega)
  rw [← Int64.toNat_toInt, ← Int64.toNat_toInt, hdiv]
  omega

/-- The middle entries have a neighbour on either side. -/
theorem medianAt_congr (hsize : sizeofTimespec.toInt64 ≤ n) {last : Env} {e e' : Nat → Timespec}
    (h : ∀ i, 0 < i → i + 1 < n.toNatClampNeg → e i = e' i) :
    medianAt n last e = medianAt n last e' := by
  rw [Int64.le_iff_toInt_le, show sizeofTimespec.toInt64.toInt = 32 from rfl] at hsize
  have hlt := n.toInt_lt
  have hn : n.toNatClampNeg = n.toInt.toNat := (Int64.toNat_toInt n).symm
  have hpred : (n - 1).toInt = n.toInt - 1 := by
    rw [Int64.toInt_sub, show (1 : Int64).toInt = 1 from rfl]
    exact Int.bmod_eq_of_le (by omega) (by omega)
  have hlow : ((n - 1) / 2).toNatClampNeg = (n.toNatClampNeg - 1) / 2 := by
    rw [toNatClampNeg_half (by omega), ← Int64.toNat_toInt, hpred, hn]
    omega
  have hhigh : (n / 2).toNatClampNeg = n.toNatClampNeg / 2 := toNatClampNeg_half (by omega)
  unfold medianAt
  rw [hlow, hhigh, h _ (by omega) (by omega), h _ (by omega) (by omega)]

theorem readings_eq (hb : b ≠ []) : readings b = readings b.dropLast ++ [(lastCall b).now] := by
  have hlast : lastCall b = b.getLast hb := by
    rw [lastCall, List.getLastD_eq_getLast?, List.getLast?_eq_some_getLast hb, Option.getD_some]
  rw [hlast, readings, readings, ← List.map_singleton (f := Env.now), ← List.map_append,
    List.dropLast_append_getLast hb]

/-- The line a batch writes, from the readings that are stored. -/
theorem lineOf_eq (hsize : sizeofTimespec.toInt64 ≤ n) (hlen : b.length = n.toNatClampNeg)
    (x : Timespec) :
    lineOf n x b = medianAt n (lastCall b) fun i =>
      Insertion.between Before
        (((readings b.dropLast).mergeSort tsLe).getD (i - 1) ((lastCall b).fresh 1))
        (((readings b.dropLast).mergeSort tsLe).getD i ((lastCall b).fresh 1)) x := by
  refine Eq.trans (b := medianAt n (lastCall b) fun i =>
    ((x :: readings b.dropLast).mergeSort tsLe).getD i ((lastCall b).fresh 1)) rfl ?_
  refine medianAt_congr hsize fun i hpos hi => ?_
  obtain ⟨i, rfl⟩ := Nat.exists_eq_succ_of_ne_zero hpos.ne'
  rw [Insertion.mergeSort_cons_eq tsLe_trans tsLe_total]
  refine Insertion.getD_succ_orderedInsert _ ?_ ?_
  · exact (List.pairwise_mergeSort tsLe_trans tsLe_total _).imp
      fun {b c} hbc hxb => tsLe_trans x b c hxb hbc
  · simp only [List.length_mergeSort, readings, List.length_map, List.length_dropLast]
    omega

/-- The median of a batch, from the same readings. -/
theorem medianOf_eq (hsize : sizeofTimespec.toInt64 ≤ n) (hlen : b.length = n.toNatClampNeg)
    (hb : b ≠ []) :
    medianOf n b = medianAt n (lastCall b) fun i =>
      Insertion.between Behind
        (((readings b.dropLast).mergeSort tsLe).getD (i - 1) ((lastCall b).fresh 1))
        (((readings b.dropLast).mergeSort tsLe).getD i ((lastCall b).fresh 1))
        (lastCall b).now := by
  refine Eq.trans (b := medianAt n (lastCall b) fun i =>
    ((readings b).mergeSort tsLe).getD i ((lastCall b).fresh 1)) rfl ?_
  refine medianAt_congr hsize fun i hpos hi => ?_
  obtain ⟨i, rfl⟩ := Nat.exists_eq_succ_of_ne_zero hpos.ne'
  rw [readings_eq hb, Insertion.mergeSort_concat_eq tsLe_trans tsLe_total]
  refine Insertion.getD_succ_orderedInsert _ ?_ ?_
  · refine (List.pairwise_mergeSort tsLe_trans tsLe_total _).imp fun {b c} hbc hb => ?_
    have hb' : ¬ tsLe b (lastCall _).now = true := Bool.not_eq_true _ ▸ hb
    exact Bool.not_eq_true _ ▸ fun hc => hb' (tsLe_trans b c _ hbc hc)
  · simp only [List.length_mergeSort, readings, List.length_map, List.length_dropLast]
    omega

/-- **The line shows the median** if and only if the stale time-stamp can
stand for the last reading. -/
theorem printed_lineOf_iff (hsize : sizeofTimespec.toInt64 ≤ n) (hlen : b.length = n.toNatClampNeg)
    (hb : b ≠ []) (x : Timespec) :
    printed (lineOf n x b) = printed (medianOf n b) ↔ MiddleAgrees n x b := by
  rw [lineOf_eq hsize hlen, medianOf_eq hsize hlen hb]
  rfl

end Middle

/-! ## all batches -/

section Batches

variable {n : Int64} {ch : MedianChannel} {calls : List Env}

theorem batch_succ (m k : Nat) (calls : List Env) :
    batch m (k + 1) calls = batch m k (calls.drop m) := by
  rw [batch, batch, List.drop_drop, Nat.succ_mul, Nat.add_comm]

theorem stale_succ (m : Nat) (x : Timespec) (calls : List Env) (k : Nat) :
    stale m x calls (k + 1) =
      stale m (earliest x (readings (calls.take m).dropLast)) (calls.drop m) k := by
  induction k with
  | zero => simp [stale, batch]
  | succ k ih =>
      rw [stale, ih, batch_succ]
      rfl

theorem length_batch {m k : Nat} (hm : 0 < m) (hk : k < calls.length / m) :
    (batch m k calls).length = m := by
  have hle : (k + 1) * m ≤ calls.length := (Nat.le_div_iff_mul_le hm).mp hk
  rw [Nat.succ_mul] at hle
  rw [batch, List.length_take, List.length_drop]
  omega

/-- The lines that the calls write. -/
def linesOf (n : Int64) (x : Timespec) (calls : List Env) : List Timespec :=
  (List.range (calls.length / n.toNatClampNeg)).map fun k =>
    lineOf n (stale n.toNatClampNeg x calls k) (batch n.toNatClampNeg k calls)

theorem linesOf_of_lt {x : Timespec} (hlt : calls.length < n.toNatClampNeg) :
    linesOf n x calls = [] := by
  rw [linesOf, Nat.div_eq_of_lt hlt]
  rfl

theorem linesOf_of_le {x : Timespec} (hpos : 0 < n.toNatClampNeg)
    (hle : n.toNatClampNeg ≤ calls.length) :
    linesOf n x calls = lineOf n x (calls.take n.toNatClampNeg) ::
      linesOf n (earliest x (readings (calls.take n.toNatClampNeg).dropLast))
        (calls.drop n.toNatClampNeg) := by
  have hdiv : calls.length / n.toNatClampNeg =
      (calls.drop n.toNatClampNeg).length / n.toNatClampNeg + 1 := by
    rw [List.length_drop, Nat.div_eq_sub_div hpos hle]
  rw [linesOf, hdiv, List.range_succ_eq_map, List.map_cons, List.map_map]
  refine congrArg₂ List.cons (by simp [stale, batch]) (List.map_congr_left fun k _ => ?_)
  rw [Function.comp_apply, stale_succ, batch_succ]

/-- The batch that comes first. -/
theorem exists_batch (hpos : 0 < n.toNatClampNeg) (hle : n.toNatClampNeg ≤ calls.length) :
    ∃ us last, calls.take n.toNatClampNeg = us ++ [last] ∧ us.length + 1 = n.toNatClampNeg := by
  have hlen : (calls.take n.toNatClampNeg).length = n.toNatClampNeg := List.length_take_of_le hle
  have hne : calls.take n.toNatClampNeg ≠ [] := List.ne_nil_of_length_pos (by omega)
  refine ⟨_, _, (List.dropLast_append_getLast hne).symm, ?_⟩
  rw [List.length_dropLast]
  omega

/-- **Run lemma**: the calls return if there is room, and write one line for
each full batch. -/
theorem runs_eq (h : Ready n ch) (calls : List Env) :
    (HasRoom n ch calls → ∃ ch', ch.runs calls = some ch' ∧
      ch'.cl.base.lines = ch.cl.base.lines ++ linesOf n (ch.buffer 0) calls) ∧
    (¬ HasRoom n ch calls → ch.runs calls = none) := by
  obtain ⟨hn, hpos, hlt63⟩ := h.size_nat
  induction hc : calls.length using Nat.strong_induction_on generalizing ch calls with
  | _ m ih =>
      subst hc
      by_cases hlt : calls.length < n.toNatClampNeg
      · have hroom : HasRoom n ch calls ↔
            calls = [] ∨ ch.cl.holds (Int64.ofNat (calls.length + 1)) = true := by
          rw [HasRoom, Nat.min_eq_left hlt]
        rw [hroom, runs_stored h calls hlt, linesOf_of_lt hlt]
        refine ⟨fun hr => ⟨_, if_pos hr, ?_⟩, fun hr => if_neg hr⟩
        simp [stored]
      · have hle := Nat.not_lt.mp hlt
        obtain ⟨us, last, htake, hlen⟩ := exists_batch (by omega) hle
        have hcalls : calls = us ++ [last] ++ calls.drop n.toNatClampNeg := by
          rw [← htake, List.take_append_drop]
        have hne : calls ≠ [] := List.ne_nil_of_length_pos (by omega)
        have hofNat : Int64.ofNat n.toNatClampNeg = n := by
          refine Int64.ofNat_toNatClampNeg n ?_
          rw [Int64.le_iff_toInt_le, ← hn]
          exact Int.natCast_nonneg _
        have hroom : HasRoom n ch calls ↔ ch.cl.holds n = true := by
          rw [HasRoom, Nat.min_eq_right (by omega), hofNat]
          exact or_iff_right hne
        have hrun : ch.runs calls = (if ch.cl.holds n = true then some (ch.finished us last)
            else none).bind fun ch' => ch'.runs (calls.drop n.toNatClampNeg) := by
          conv_lhs => rw [hcalls]
          rw [runs_append, runs_batch h us last hlen]
        rw [hroom, hrun, linesOf_of_le (by omega) hle, htake, List.dropLast_concat]
        constructor
        · intro hholds
          have hready := ready_finished h us last
          have hrest : HasRoom n (ch.finished us last) (calls.drop n.toNatClampNeg) := by
            refine .inr ?_
            refine holds_ofNat_mono (j := n.toNatClampNeg) (by omega) hlt63 ?_
            rw [hofNat]
            exact hholds
          obtain ⟨ch', hrun', hlines⟩ := (ih _ (by rw [List.length_drop]; omega) hready _ rfl).1 hrest
          refine ⟨ch', by rw [if_pos hholds, Option.bind_some, hrun'], ?_⟩
          have hput : (ch.finished us last).cl.base.lines =
              ch.cl.base.lines ++ [lineOf n (ch.buffer 0) (us ++ [last])] := by
            simp [finished, Base.put, h.isOpen, h.maxTs]
          rw [hlines, hput, buffer_finished, List.append_assoc, List.singleton_append]
        · intro hno
          rw [if_neg hno, Option.bind_none]

/-- **A line for each full batch, and the median in it** if and only if the
buffer has room and, in each full batch, the time-stamp left in `buffer[0]` can
stand for the reading of the last call. -/
theorem median_logged_iff (h : Accepted n ch) (calls : List Env) :
    (∀ ch', ch.runs calls = some ch' → ch'.cl.base.lines.length =
      ch.cl.base.lines.length + calls.length / n.toNatClampNeg) ∧
    (LogsMedians n ch calls ↔ HasRoom n ch calls ∧ ∀ k < calls.length / n.toNatClampNeg,
      MiddleAgrees n (stale n.toNatClampNeg (ch.buffer 0) calls k)
        (batch n.toNatClampNeg k calls)) := by
  have hready := h.ready
  obtain ⟨-, hpos, -⟩ := hready.size_nat
  obtain ⟨hruns, hnone⟩ := runs_eq hready calls
  by_cases hroom : HasRoom n ch calls
  · obtain ⟨ch', hrun, hlines⟩ := hruns hroom
    have hlogs : LogsMedians n ch calls ↔ (linesOf n (ch.buffer 0) calls).map printed =
        (List.range (calls.length / n.toNatClampNeg)).map
          fun k => printed (medianOf n (batch n.toNatClampNeg k calls)) := by
      constructor
      · rintro ⟨ch'', hrun'', hmap⟩
        cases hrun.symm.trans hrun''
        rw [hlines, List.map_append] at hmap
        exact List.append_cancel_left hmap
      · intro hmap
        exact ⟨ch', hrun, by rw [hlines, List.map_append, hmap]⟩
    refine ⟨fun ch'' hrun'' => ?_, ?_⟩
    · cases hrun.symm.trans hrun''
      rw [hlines, List.length_append, linesOf, List.length_map, List.length_range]
    · rw [hlogs, linesOf, List.map_map, List.map_inj_left, and_iff_right hroom]
      refine forall_congr' fun k => ?_
      rw [List.mem_range]
      refine imp_congr_right fun hk => ?_
      have hlen := length_batch (show 0 < n.toNatClampNeg by omega) hk
      exact printed_lineOf_iff hready.size hlen (List.ne_nil_of_length_pos (by omega)) _
  · rw [hnone hroom]
    refine ⟨nofun, iff_of_false ?_ fun hr => hroom hr.1⟩
    rintro ⟨ch', hrun, -⟩
    rw [hnone hroom] at hrun
    cases hrun

end Batches

/-! ## a buffer of 32 -/

/-- A channel with a buffer for 32 time-stamps, which holds zeros. -/
def of32 : MedianChannel :=
  ((MedianChannel.init (allocated 4096)).setArg (allocated 4096) (.one 0 32)).2

theorem accepted_of32 : Accepted 32 of32 :=
  .setArg (allocated 4096) (.one 0 32) rfl (by decide)

/-- A time-stamp of `i` seconds. -/
def seconds (i : Nat) : Timespec := ⟨Int64.ofNat i, 0, 0, 0, 0⟩

/-- A call at `i` seconds. -/
def callAt (i : Nat) : Env := { allocated 0 with now := seconds i }

/-- The seconds of 32 calls, of which the 15th to the 17th are at one time. -/
def plateau : List Nat := List.range' 1 15 ++ [15, 15] ++ List.range' 18 15

/-- With three equal readings in the middle it makes no difference that a zero
counts for the last one. -/
theorem median_logged_plateau : LogsMedians 32 of32 (plateau.map callAt) := by
  refine (median_logged_iff accepted_of32 _).2.mpr ⟨.inr (by decide), fun k hk => ?_⟩
  have hk0 : k = 0 := by
    have : (plateau.map callAt).length / (32 : Int64).toNatClampNeg = 1 := by decide
    omega
  subst hk0
  have hreadings : readings (batch (32 : Int64).toNatClampNeg 0
      (plateau.map callAt)).dropLast = plateau.dropLast.map seconds := rfl
  have hsort : (plateau.dropLast.map seconds).mergeSort tsLe = plateau.dropLast.map seconds :=
    List.mergeSort_of_pairwise (by decide +kernel)
  unfold MiddleAgrees
  rw [hreadings, hsort]
  decide +kernel

/-- Calls after 1, 2, …, 32 seconds log 15.5 seconds: the zero that was in the
buffer counts, and the last reading does not. -/
theorem median_logged_off : ∃ ch', of32.runs ((List.range' 1 32).map callAt) = some ch' ∧
    ch'.cl.base.lines.map printed = [(15, 500000000, 0)] ∧
    printed (medianOf 32 ((List.range' 1 32).map callAt)) = (16, 500000000, 0) ∧
    ¬ LogsMedians 32 of32 ((List.range' 1 32).map callAt) := by
  obtain ⟨ch', hrun, hlines⟩ := (runs_eq accepted_of32.ready ((List.range' 1 32).map callAt)).1
    (.inr (by decide))
  have hstored : (seconds 0 :: readings ((List.range' 1 32).map callAt).dropLast).mergeSort tsLe =
      (List.range' 0 32).map seconds := List.mergeSort_of_pairwise (by decide +kernel)
  have hdue : (readings ((List.range' 1 32).map callAt)).mergeSort tsLe =
      (List.range' 1 32).map seconds := List.mergeSort_of_pairwise (by decide +kernel)
  have hmedian : printed (medianOf 32 ((List.range' 1 32).map callAt)) = (16, 500000000, 0) := by
    rw [medianOf, hdue]
    decide +kernel
  have hline : printed (lineOf 32 (seconds 0) ((List.range' 1 32).map callAt)) =
      (15, 500000000, 0) := by
    rw [lineOf, hstored]
    decide +kernel
  have hlogged : ch'.cl.base.lines.map printed = [(15, 500000000, 0)] := by
    rw [hlines, ← hline]
    rfl
  refine ⟨ch', hrun, hlogged, hmedian, ?_⟩
  rintro ⟨ch'', hrun'', hmap⟩
  cases hrun.symm.trans hrun''
  rw [hlogged] at hmap
  have hdue' : [((15 : Int64), (500000000 : Int64), (0 : UInt64))] =
      [printed (medianOf 32 ((List.range' 1 32).map callAt))] := hmap
  rw [hmedian] at hdue'
  exact absurd hdue' (by decide)

end MedianChannel

end CloudProfiler
