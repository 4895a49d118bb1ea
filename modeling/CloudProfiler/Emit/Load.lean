import CloudProfiler.Nanos
import CloudProfiler.Pieces
import CloudProfiler.Rotation

/-!
# CloudProfiler.Emit.Load

Loading the tuples before they are emitted (`initDGSender`, `loadOneTuple` and
`loadAllStrTuples` of `cpp_emit/emit.cpp`).  Each thread gets `replay_size`
tuples; one loader is called for every tuple and counts, the other one goes
over threads and tuples.

The number of all tuples is a product of 64-bit integers, and it is returned
as a signed one.

* `LoadInv` — the counters after a number of calls;
* `LoadsAlike` — the two loaders give each thread the same tuples;
* `loads_alike_iff` — they do, unless the number of tuples is too large.
-/

namespace CloudProfiler

open Pieces

/-- The bytes of a tuple. -/
abbrev TupleBytes := List UInt8

/-- The fields of `sv_vars` that the loaders use. -/
structure SvVars where
  tupIdxOffset : Int64
  nrThreads : Int64
  replaySize : UInt64
  remainingReplaySize : UInt64
  /-- For each thread its tuples, as strings and as bytes. -/
  sarrays : List (List TupleBytes)
  barrays : List (List TupleBytes)
  thrId : UInt64
  iter : UInt64

def initDGSender (emitDur tupIdxOffset perSecThroughput nrThreads : Int64) : SvVars :=
  let replaySize := (perSecThroughput * emitDur).toUInt64
  { tupIdxOffset := tupIdxOffset
    nrThreads := nrThreads
    replaySize := replaySize
    remainingReplaySize := replaySize * nrThreads.toUInt64
    sarrays := List.replicate nrThreads.toInt.toNat []
    barrays := List.replicate nrThreads.toInt.toNat []
    thrId := 0
    iter := 0 }

/-- `loadOneTuple`, with its return value; `none` when the assertion fails or
`at` is out of range. -/
def loadOneTuple (v : SvVars) (s : TupleBytes) : Option (SvVars × Int64) :=
  if v.barrays.isEmpty then none
  else if v.remainingReplaySize > 0 then
    v.barrays[v.thrId.toNat]?.map fun arr =>
      let last := v.replaySize - v.iter == 1
      let v' := { v with
        barrays := v.barrays.set v.thrId.toNat (arr ++ [s])
        remainingReplaySize := v.remainingReplaySize - 1
        iter := if last then 0 else v.iter + 1
        thrId := if last then v.thrId + 1 else v.thrId }
      (v', v'.remainingReplaySize.toInt64)
  else some (v, v.remainingReplaySize.toInt64)

/-- Calls of `loadOneTuple`, one for each tuple. -/
def loadTuples (v : SvVars) (xs : List TupleBytes) : Option SvVars :=
  xs.foldlM (fun v s => (loadOneTuple v s).map Prod.fst) v

/-- `prepare_replays`; `getTuple` is the method of the Java class. -/
def prepareReplays (getTuple : Int64 → TupleBytes) (offset size : UInt64) (v : List TupleBytes) :
    List TupleBytes :=
  v ++ (List.range size.toNat).map fun i => getTuple (offset + UInt64.ofNat i).toInt64

/-- `loadAllStrTuples`; `none` when `at` is out of range. -/
def loadAllStrTuples (getTuple : Int64 → TupleBytes) (v : SvVars) : Option SvVars :=
  (List.range v.nrThreads.toInt.toNat).foldlM
    (fun v i =>
      v.sarrays[i]?.map fun arr =>
        { v with
          sarrays := v.sarrays.set i
            (prepareReplays getTuple (UInt64.ofNat i * v.replaySize + v.tupIdxOffset.toUInt64)
              v.replaySize arr) })
    v

/-! ## the calls for single tuples -/

/-- After calls for the tuples `xs`. -/
structure LoadInv (v₀ : SvVars) (R T : Nat) (xs : List TupleBytes) (v : SvVars) : Prop where
  replaySize : v.replaySize = v₀.replaySize
  barrays : v.barrays = pieces R T xs
  remaining : v.remainingReplaySize.toNat = R * T - xs.length
  thread : xs.length ≤ R * T → v.thrId.toNat = xs.length / R
  iter : xs.length ≤ R * T → v.iter.toNat = xs.length % R

/-- Threads and tuples fit. -/
structure LoadFits (v₀ : SvVars) (R T : Nat) : Prop where
  replaySize : v₀.replaySize.toNat = R
  threads : 1 ≤ T
  fits : R * T ≤ 2 ^ 63

section Load

variable {v₀ v v' : SvVars} {R T : Nat} {xs : List TupleBytes} {x : TupleBytes}

/-- The thread after the one that has all of its tuples. -/
theorem next_thread (hR : 0 < R) (k : Nat) :
    (k + 1) / R = if k % R + 1 = R then k / R + 1 else k / R := by
  have hnext := Rotation.next_mod hR k
  unfold Rotation.next at hnext
  rw [Nat.succ_div]
  split
  · next hdvd =>
    rw [Nat.mod_eq_zero_of_dvd hdvd] at hnext
    split at hnext
    · next hlast => rw [if_pos hlast]
    · cases hnext
  · next hdvd =>
    split at hnext
    · exact absurd (Nat.dvd_of_mod_eq_zero hnext.symm) hdvd
    · next hlast => rw [if_neg hlast, Nat.add_zero]

/-- There is an array. -/
theorem LoadInv.isEmpty_barrays (hfits : LoadFits v₀ R T) (hs : LoadInv v₀ R T xs v) :
    v.barrays.isEmpty = false := by
  have hlength : v.barrays.length = T := by rw [hs.barrays, length_pieces]
  have hthreads := hfits.threads
  cases hb : v.barrays with
  | nil =>
      rw [hb] at hlength
      exact absurd hlength (by simp only [List.length_nil]; omega)
  | cons _ _ => rfl

/-- The number that is returned. -/
theorem LoadInv.toNat_remaining (hs : LoadInv v₀ R T xs v) (hlt : xs.length < R * T) :
    (v.remainingReplaySize - 1).toNat = R * T - (xs.length + 1) := by
  have hone : 1 ≤ v.remainingReplaySize := by
    rw [UInt64.le_iff_toNat_le, hs.remaining, UInt64.toNat_one]
    omega
  rw [UInt64.toNat_sub_of_le _ _ hone, hs.remaining]
  rfl

/-- The test for the last tuple of a thread. -/
theorem LoadInv.last (hfits : LoadFits v₀ R T) (hs : LoadInv v₀ R T xs v)
    (hlt : xs.length < R * T) :
    (v.replaySize - v.iter == 1) = decide (xs.length % R + 1 = R) := by
  have hmod := Nat.mod_lt xs.length (Nat.pos_of_mul_pos_right (Nat.zero_lt_of_lt hlt))
  have hsize : v.replaySize.toNat = R := by rw [hs.replaySize, hfits.replaySize]
  have hiter := hs.iter hlt.le
  have hle : v.iter ≤ v.replaySize := UInt64.le_iff_toNat_le.mpr (by omega)
  rw [Bool.eq_iff_iff, beq_iff_eq, decide_eq_true_iff, ← UInt64.toNat_inj,
    UInt64.toNat_sub_of_le _ _ hle, hsize, hiter, UInt64.toNat_one]
  omega

/-- A call while tuples remain. -/
theorem LoadInv.load (hfits : LoadFits v₀ R T) (hs : LoadInv v₀ R T xs v)
    (hlt : xs.length < R * T) :
    ∃ v' ret, loadOneTuple v x = some (v', ret) ∧ LoadInv v₀ R T (xs ++ [x]) v' ∧
      v'.barrays = v.barrays.set (xs.length / R) (piece R xs (xs.length / R) ++ [x]) ∧
      ret.toInt = R * T - xs.length - 1 := by
  have hR : 0 < R := Nat.pos_of_mul_pos_right (Nat.zero_lt_of_lt hlt)
  have hthr : xs.length / R < T := (Nat.div_lt_iff_lt_mul hR).mpr (by rwa [Nat.mul_comm])
  have hmod := Nat.mod_lt xs.length hR
  have hfit := hfits.fits
  have hRle : R ≤ 2 ^ 63 := Nat.le_trans (Nat.le_mul_of_pos_right R hfits.threads) hfit
  have hTle : T ≤ 2 ^ 63 := Nat.le_trans (Nat.le_mul_of_pos_left T hR) hfit
  have hthread := hs.thread hlt.le
  have hiter := hs.iter hlt.le
  have hrest := hs.toNat_remaining hlt
  have hlast := hs.last hfits hlt
  have harr : v.barrays[v.thrId.toNat]? = some (piece R xs (xs.length / R)) := by
    rw [hs.barrays, hthread, getElem?_pieces hthr]
  have hpos : v.remainingReplaySize > 0 := by
    rw [gt_iff_lt, UInt64.lt_iff_toNat_lt, hs.remaining]
    exact Nat.sub_pos_of_lt hlt
  unfold loadOneTuple
  rw [hs.isEmpty_barrays hfits, if_neg Bool.false_ne_true, if_pos hpos, harr, Option.map_some]
  refine ⟨_, _, rfl, ⟨hs.replaySize, ?_, ?_, fun _ => ?_, fun _ => ?_⟩, ?_, ?_⟩
  · rw [pieces_concat hR, ← hs.barrays, hthread]
  · rw [List.length_append, List.length_singleton]
    exact hrest
  · rw [List.length_append, List.length_singleton, next_thread hR]
    simp only [hlast, decide_eq_true_eq]
    split
    · rw [UInt64.toNat_add, hthread]
      exact Nat.mod_eq_of_lt (by simp only [UInt64.toNat_one]; omega)
    · exact hthread
  · rw [List.length_append, List.length_singleton, ← Rotation.next_mod hR, Rotation.next]
    simp only [hlast, decide_eq_true_eq]
    split
    · rfl
    · rw [UInt64.toNat_add, hiter]
      exact Nat.mod_eq_of_lt (by simp only [UInt64.toNat_one]; omega)
  · rw [hthread]
  · dsimp only
    rw [toInt_toInt64 (by rw [hrest]; omega), hrest]
    omega

/-- A call when none remain. -/
theorem LoadInv.later (hfits : LoadFits v₀ R T) (hs : LoadInv v₀ R T xs v)
    (hle : R * T ≤ xs.length) :
    loadOneTuple v x = some (v, 0) ∧ LoadInv v₀ R T (xs ++ [x]) v := by
  have hzero : v.remainingReplaySize = 0 := by
    rw [← UInt64.toNat_inj, hs.remaining, Nat.sub_eq_zero_of_le hle]
    rfl
  constructor
  · simp [loadOneTuple, hs.isEmpty_barrays hfits, hzero]
  · refine ⟨hs.replaySize, ?_, ?_, fun h => ?_, fun h => ?_⟩
    · rw [pieces_concat_of_le hle, hs.barrays]
    · rw [hs.remaining, List.length_append]
      omega
    all_goals
      rw [List.length_append, List.length_singleton] at h
      omega

/-- The calls so far. -/
theorem LoadInv.run (hfits : LoadFits v₀ R T) (h₀ : LoadInv v₀ R T [] v₀)
    (xs : List TupleBytes) : ∃ v, loadTuples v₀ xs = some v ∧ LoadInv v₀ R T xs v := by
  induction xs using List.reverseRecOn with
  | nil => exact ⟨v₀, rfl, h₀⟩
  | append_singleton xs x ih =>
      obtain ⟨v, hv, hs⟩ := ih
      unfold loadTuples at hv ⊢
      rw [List.foldlM_append, hv]
      by_cases hlt : xs.length < R * T
      · obtain ⟨v', ret, hload, hs', -, -⟩ := hs.load (x := x) hfits hlt
        exact ⟨v', by simp [hload], hs'⟩
      · obtain ⟨hload, hs'⟩ := hs.later (x := x) hfits (Nat.not_lt.mp hlt)
        exact ⟨v, by simp [hload], hs'⟩

/-! ## all tuples at once -/

/-- The loop over the threads, whose arrays are empty. -/
theorem foldlM_prepareReplays (f : SvVars → Nat → List TupleBytes → List TupleBytes)
    (hf : ∀ v sarrays i arr, f { v with sarrays := sarrays } i arr = f v i arr)
    (hv : v.sarrays = List.replicate T []) {n : Nat} (hn : n ≤ T) :
    (List.range n).foldlM (fun (v : SvVars) i => v.sarrays[i]?.map fun arr =>
        { v with sarrays := v.sarrays.set i (f v i arr) }) v =
      some { v with
        sarrays := (List.range n).map (f v · []) ++ List.replicate (T - n) [] } := by
  induction n with
  | zero => simp [← hv]
  | succ n ih =>
      have hrest : List.replicate (T - n) ([] : List TupleBytes) =
          [] :: List.replicate (T - (n + 1)) [] := by
        rw [show T - n = T - (n + 1) + 1 by omega, List.replicate_succ]
      rw [List.range_succ, List.foldlM_append, ih (by omega), hrest]
      simp [hf]

end Load

/-- The loaders do the same: calls for single tuples fill the threads one after
the other and return the number of tuples still to come, and leave them as the
other loader does when the tuples have the same numbers. -/
structure LoadsAlike (v₀ : SvVars) (R T : Nat) : Prop where
  loads : ∀ (xs : List TupleBytes) (x : TupleBytes), xs.length < R * T →
    ∃ v v' ret arr, loadTuples v₀ xs = some v ∧ loadOneTuple v x = some (v', ret) ∧
      v.barrays[xs.length / R]? = some arr ∧ arr.length = xs.length % R ∧
      v'.barrays = v.barrays.set (xs.length / R) (arr ++ [x]) ∧
      ret.toInt = R * T - xs.length - 1
  later : ∀ (xs : List TupleBytes) (x : TupleBytes), R * T ≤ xs.length →
    ∃ v, loadTuples v₀ xs = some v ∧ loadOneTuple v x = some (v, 0)
  alike : ∀ (getTuple : Int64 → TupleBytes) (xs : List TupleBytes),
    (∀ k < R * T, xs[k]? = some (getTuple (Int64.ofNat k))) →
      ∃ v v', loadTuples v₀ xs = some v ∧
        loadAllStrTuples getTuple { v₀ with tupIdxOffset := 0 } = some v' ∧
        v.barrays = v'.sarrays

section Init

variable {emitDur tupIdxOffset perSecThroughput nrThreads : Int64} {v₀ : SvVars} {R T : Nat}

theorem loadInv_init (hv : initDGSender emitDur tupIdxOffset perSecThroughput nrThreads = v₀)
    (hT : 1 ≤ nrThreads.toInt) (hR : v₀.replaySize.toNat = R) (hthreads : nrThreads.toInt.toNat = T)
    (hfits : R * T ≤ 2 ^ 63) : LoadFits v₀ R T ∧ LoadInv v₀ R T [] v₀ := by
  have hlt := nrThreads.toInt_lt
  have hnat : nrThreads.toUInt64.toNat = T := by
    have htoNat := toNat_toUInt64 nrThreads
    omega
  subst hv
  refine ⟨⟨hR, by omega, hfits⟩, rfl, ?_, ?_, fun _ => (Nat.zero_div R).symm,
    fun _ => (Nat.zero_mod R).symm⟩
  · rw [pieces_nil, ← hthreads]
    rfl
  · rw [← hR, ← hnat] at hfits ⊢
    refine (UInt64.toNat_mul ..).trans (Nat.mod_eq_of_lt ?_)
    exact Nat.lt_of_le_of_lt hfits (by decide)

/-- The numbers of the tuples of a thread. -/
theorem prepareReplays_eq (getTuple : Int64 → TupleBytes) (i : Nat) (size : UInt64) :
    prepareReplays getTuple (UInt64.ofNat i * size + (0 : Int64).toUInt64) size [] =
      (List.range size.toNat).map fun j => getTuple (Int64.ofNat (i * size.toNat + j)) := by
  have hnumber (j : Nat) : (UInt64.ofNat i * size + (0 : Int64).toUInt64 + UInt64.ofNat j).toInt64 =
      Int64.ofNat (i * size.toNat + j) := by
    have hsum : UInt64.ofNat i * size + (0 : Int64).toUInt64 + UInt64.ofNat j =
        UInt64.ofNat (i * size.toNat + j) := by
      rw [UInt64.ofNat_add, UInt64.ofNat_mul, UInt64.ofNat_toNat,
        show (0 : Int64).toUInt64 = 0 from rfl, UInt64.add_zero]
    rw [hsum]
    rfl
  simp [prepareReplays, hnumber]

theorem loadAllStrTuples_init
    (hv : initDGSender emitDur tupIdxOffset perSecThroughput nrThreads = v₀)
    (hR : v₀.replaySize.toNat = R) (hthreads : nrThreads.toInt.toNat = T)
    (getTuple : Int64 → TupleBytes) :
    ∃ v', loadAllStrTuples getTuple { v₀ with tupIdxOffset := 0 } = some v' ∧
      v'.sarrays = (List.range T).map fun t =>
        (List.range R).map fun j => getTuple (Int64.ofNat (t * R + j)) := by
  subst hv
  have hloop := foldlM_prepareReplays
    (v := { initDGSender emitDur tupIdxOffset perSecThroughput nrThreads with tupIdxOffset := 0 })
    (fun v i arr => prepareReplays getTuple
      (UInt64.ofNat i * v.replaySize + v.tupIdxOffset.toUInt64) v.replaySize arr)
    (fun _ _ _ _ => rfl) rfl (Nat.le_refl nrThreads.toInt.toNat)
  refine ⟨_, hloop, ?_⟩
  simp only [prepareReplays_eq, hR, hthreads, Nat.sub_self, List.replicate_zero, List.append_nil]

end Init

/-- **The two loaders** partition the tuples alike, exactly when their number
is at most `2 ^ 63`. -/
theorem loads_alike_iff (emitDur tupIdxOffset perSecThroughput nrThreads : Int64)
    (hT : 1 ≤ nrThreads.toInt) (v₀ : SvVars)
    (hv : initDGSender emitDur tupIdxOffset perSecThroughput nrThreads = v₀) :
    LoadsAlike v₀ v₀.replaySize.toNat nrThreads.toInt.toNat ↔
      v₀.replaySize.toNat * nrThreads.toInt.toNat ≤ 2 ^ 63 := by
  constructor
  · intro h
    by_contra hlarge
    obtain ⟨v, v', ret, arr, -, -, -, -, -, hret⟩ :=
      h.loads [] [] (by simp only [List.length_nil]; omega)
    have hlt := ret.toInt_lt
    simp only [List.length_nil] at hret
    omega
  · intro hle
    obtain ⟨hfits, h₀⟩ := loadInv_init hv hT rfl rfl hle
    refine ⟨fun xs x hlt => ?_, fun xs x hmany => ?_, fun getTuple xs hxs => ?_⟩
    · obtain ⟨v, hv, hs⟩ := h₀.run hfits xs
      obtain ⟨v', ret, hload, -, hbarrays, hret⟩ := hs.load (x := x) hfits hlt
      have hR := Nat.pos_of_mul_pos_right (Nat.zero_lt_of_lt hlt)
      refine ⟨v, v', ret, _, hv, hload, ?_, length_piece hR, hbarrays, hret⟩
      rw [hs.barrays, getElem?_pieces]
      exact (Nat.div_lt_iff_lt_mul hR).mpr (by rwa [Nat.mul_comm])
    · obtain ⟨v, hv, hs⟩ := h₀.run hfits xs
      exact ⟨v, hv, (hs.later hfits hmany).1⟩
    · obtain ⟨v, hload, hs⟩ := h₀.run hfits xs
      obtain ⟨v', hall, hsarrays⟩ := loadAllStrTuples_init hv rfl rfl getTuple
      exact ⟨v, v', hload, hall, by rw [hs.barrays, hsarrays, pieces_of_getElem? hxs]⟩

theorem loads_alike_three_threads :
    LoadsAlike (initDGSender 1 0 2000 3) 2000 3 :=
  (loads_alike_iff 1 0 2000 3 (by decide) _ rfl).mpr (by decide)

/-- With `2 ^ 64` tuples none is loaded. -/
theorem loadOneTuple_overflows :
    (loadOneTuple (initDGSender 1073741824 0 4294967296 4) [7]).map (fun r => r.1.barrays) =
        some [[], [], [], []] ∧
      ¬ LoadsAlike (initDGSender 1073741824 0 4294967296 4) 4611686018427387904 4 := by
  have hload : loadOneTuple (initDGSender 1073741824 0 4294967296 4) [7] =
      some (initDGSender 1073741824 0 4294967296 4, 0) := rfl
  refine ⟨by rw [hload]; rfl, fun h => ?_⟩
  obtain ⟨v, v', ret, arr, hv, hcall, -, -, -, hret⟩ := h.loads [] [7] (by decide)
  obtain rfl := Option.some.inj hv
  rw [hload] at hcall
  cases hcall
  exact absurd hret (by decide)

end CloudProfiler
