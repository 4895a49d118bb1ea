import CloudProfiler.Handler.XoY
import Mathlib.Data.Nat.Periodic
import Mathlib.Data.Int.DivMod

/-!
# CloudProfiler.Handler.Sampling

Which tuples XOY and DOWNSAMPLE log (`XoY_handler.cpp`,
`downsample_handler.cpp`).

XOY decides by the tuple alone, and masks instead of dividing.  DOWNSAMPLE
counts: its counter starts at 1, is compared before it is incremented, and
keeps its value when the factor changes.

* `ChannelType.logAll` — the calls of `logTS`, one after the other;
* `card_residues` — how many numbers of a window have a small residue;
* `xoy_sampling_law` — XOY;
* `DownsampleClosure.seen`, `factorOf` — what a run leaves behind;
* `downsampling_law` — DOWNSAMPLE.
-/

namespace CloudProfiler

/-- `logTS` for each of the tuples, with what each call gets from outside. -/
def ChannelType.logAll {σ ι : Type} (k : ChannelType σ ι) (cl : σ) (calls : List (Env × Int64)) :
    Option σ :=
  calls.foldlM (fun cl p => k.logTS p.1 cl p.2) cl

/-- The line that shows a tuple. -/
def lineOfCall (p : Env × Int64) : Int64 × Timespec := (p.2, p.1.now)

/-! ## residues -/

/-- Of the numbers below `y`, `x` are below `x`. -/
theorem count_mod_lt {x y : Nat} (hx : x ≤ y) : y.count (fun i => i % y < x) = x := by
  have hcongr : y.count (fun i => i % y < x) = y.count (fun i => i < x) := by
    rw [Nat.count_eq_card_filter_range, Nat.count_eq_card_filter_range]
    congr 1
    refine Finset.filter_congr fun i hi => ?_
    rw [Nat.mod_eq_of_lt (Finset.mem_range.mp hi)]
  rw [hcongr, Nat.count_eq_card_filter_range]
  have : (Finset.range y).filter (fun i => i < x) = Finset.range x := by
    ext i
    simp
    omega
  rw [this, Finset.card_range]

/-- Among `y` consecutive integers, `x` have a residue below `x`. -/
theorem card_residues {x y : Nat} (hx : x ≤ y) (hy : 0 < y) (s : Int) :
    ((List.range y).map fun i : Nat => s + i).countP (fun t : Int => t % y < x) = x := by
  have hper : Function.Periodic (fun i => i % y < x) y := fun i => by
    simp only [Nat.add_mod_right]
  have hwin := Nat.filter_Ico_card_eq_of_periodic (s % y).toNat y _ hper
  rw [count_mod_lt hx] at hwin
  rw [List.countP_map, List.countP_eq_length_filter]
  refine Eq.trans ?_ hwin
  have hs : ((s % y).toNat : Int) = s % y := Int.toNat_of_nonneg (Int.emod_nonneg _ (by omega))
  have hmod : ∀ i : Nat, (s + i) % (y : Int) = (((s % y).toNat + i) % y : Nat) := by
    intro i
    push_cast
    rw [hs, Int.emod_add_emod]
  have hlist : (List.range' (s % y).toNat y).filter (fun i => i % y < x) =
      ((List.range y).filter fun i : Nat => (s + i) % (y : Int) < x).map ((s % y).toNat + ·) := by
    rw [List.range'_eq_map_range, List.filter_map]
    congr 1
    refine List.filter_congr fun i _ => ?_
    simp only [Function.comp, hmod]
    norm_cast
  show ((List.range y).filter _).length = ((List.range' _ _).filter _).length
  rw [Nat.add_sub_cancel_left, hlist, List.length_map]
  rfl

/-- **Masking is taking the remainder**, which is not negative. -/
theorem and_mask {t : Int64} {m : UInt64} {k : Nat} (hk : k ≤ 64) (hm : m.toNat = 2 ^ k - 1) :
    ((t.toUInt64 &&& m).toNat : Int) = t.toInt % 2 ^ k := by
  rw [UInt64.toNat_and, hm, Nat.and_two_pow_sub_one_eq_mod]
  push_cast
  rw [toNat_toUInt64]
  exact Int.emod_emod_of_dvd _ (pow_dvd_pow 2 hk)

/-! ## XOY -/

namespace XoYClosure

/-- The mask belongs to `y_factor`, and an open channel has its handler. -/
structure Masks (cl : XoYClosure) : Prop where
  mask : cl.yMask = cl.yFactor - 1
  live : cl.base.isOpen = true → cl.base.null = false

variable {cl cl' : XoYClosure} {l : Env × Call}

theorem masks_init : initXoYHandler.Masks := ⟨rfl, fun _ => rfl⟩

/-- A single argument keeps the mask. -/
theorem mask_setOne (h : cl.yMask = cl.yFactor - 1) (number : Int32) (v : Int64) :
    (setOneXoY cl number v).2.yMask = (setOneXoY cl number v).2.yFactor - 1 := by
  unfold setOneXoY
  split <;> split
  · exact h
  · exact h
  · rfl
  · exact h

/-- **Step lemma**: every call keeps the mask and the handler. -/
theorem Masks.step (h : cl.Masks) (hs : xoyType.step cl l = some cl') : cl'.Masks := by
  obtain ⟨b, hb, hcl'⟩ := step_cases hs
  have hlive : b.isOpen = true → b.null = false := by
    obtain hw | rfl := hb
    · intro hopen
      rw [hw.null]
      exact h.live (hw.isOpen ▸ hopen)
    · exact fun hopen => nomatch hopen
  obtain rfl | ⟨a, -, rfl⟩ := hcl'
  · exact ⟨h.mask, hlive⟩
  · constructor
    · obtain ⟨r, hr⟩ : ∃ r, setArgXoYHandler { cl with base := b } a = r := ⟨_, rfl⟩
      have hcase := setArg_cases { cl with base := b } a
      rw [hr] at hcase ⊢
      have hmask : XoYClosure.yMask { cl with base := b } =
          XoYClosure.yFactor { cl with base := b } - 1 := h.mask
      cases hcase with
      | refused | ignored => exact hmask
      | one | first => exact mask_setOne hmask _ _
      | both => exact mask_setOne (mask_setOne hmask _ _) _ _
    · rcases closes_setArgXoYHandler { cl with base := b } a with hsame | hclosed
      · rw [hsame]
        exact hlive
      · rw [hclosed]
        exact fun hopen => nomatch hopen

/-- The tuples the law lets through: their remainder is below `x`. -/
def sampled (x y : Nat) (calls : List (Env × Int64)) : List (Env × Int64) :=
  calls.filter fun p => p.2.toInt % y < x

theorem sampled_cons_of_pos {x y : Nat} {p : Env × Int64} (h : p.2.toInt % y < x)
    (calls : List (Env × Int64)) : sampled x y (p :: calls) = p :: sampled x y calls :=
  List.filter_cons_of_pos (decide_eq_true h)

theorem sampled_cons_of_neg {x y : Nat} {p : Env × Int64} (h : ¬ p.2.toInt % y < x)
    (calls : List (Env × Int64)) : sampled x y (p :: calls) = sampled x y calls :=
  List.filter_cons_of_neg (by simpa using h)

/-- **One call**: the tuple is logged if its remainder is below `x_factor`. -/
theorem logTS_eq (h : cl.Masks) (hopen : cl.base.isOpen = true) {k : Nat}
    (hy : cl.yFactor.toNat = 2 ^ k) {p : Env × Int64} (hp : p.2 ≠ -1) :
    xoyType.logTS p.1 cl p.2 = some { cl with base :=
      if p.2.toInt % (2 ^ k : Nat) < cl.xFactor.toNat then cl.base.put (lineOfCall p)
      else cl.base } := by
  have hk : k ≤ 64 := by
    rw [← Nat.pow_le_pow_iff_right (a := 2) (by decide), ← hy]
    exact cl.yFactor.toNat_lt.le
  have hmask : cl.yMask.toNat = 2 ^ k - 1 := by
    rw [h.mask, UInt64.toNat_sub_of_le, hy]
    · rfl
    · rw [UInt64.le_iff_toNat_le, hy]
      exact Nat.one_le_two_pow
  have hiff : (p.2.toUInt64 &&& cl.yMask < cl.xFactor) ↔
      p.2.toInt % (2 ^ k : Nat) < cl.xFactor.toNat := by
    have := and_mask (t := p.2) hk hmask
    rw [UInt64.lt_iff_toNat_lt]
    push_cast
    omega
  rw [ChannelType.logTS, if_neg hp]
  show (if cl.base.null then some cl else some (cl.handler p.1.now p.2)) = _
  rw [if_neg (by simp [h.live hopen]), handler]
  simp only [hiff]
  split <;> rfl

/-- **All calls.** -/
theorem logAll_eq (h : cl.Masks) (hopen : cl.base.isOpen = true) {k : Nat}
    (hy : cl.yFactor.toNat = 2 ^ k) {calls : List (Env × Int64)} (hp : ∀ p ∈ calls, p.2 ≠ -1) :
    xoyType.logAll cl calls = some { cl with base := { cl.base with
      lines := cl.base.lines ++ (sampled cl.xFactor.toNat (2 ^ k) calls).map lineOfCall } } := by
  induction calls generalizing cl with
  | nil => simp [ChannelType.logAll, sampled]
  | cons p calls ih =>
      have hrest : ∀ q ∈ calls, q.2 ≠ -1 := fun q hq => hp q (List.mem_cons_of_mem _ hq)
      rw [ChannelType.logAll, List.foldlM_cons, logTS_eq h hopen hy (hp p List.mem_cons_self)]
      split
      · next hlow =>
        have hput : cl.base.put (lineOfCall p) =
            { cl.base with lines := cl.base.lines ++ [lineOfCall p] } := if_pos hopen
        have h' : Masks { cl with base := cl.base.put (lineOfCall p) } := by
          rw [hput]
          exact ⟨h.mask, h.live⟩
        have hopen' : (cl.base.put (lineOfCall p)).isOpen = true := by
          rw [hput]
          exact hopen
        refine (ih h' hopen' hy hrest).trans ?_
        simp [hput, sampled_cons_of_pos hlow]
      · next hhigh =>
        rw [sampled_cons_of_neg hhigh]
        exact ih h hopen hy hrest

/-- A window of consecutive tuples. -/
theorem length_sampled {x y : Nat} (hx : x ≤ y) (hy : 0 < y) {s : Int} {calls : List (Env × Int64)}
    (hwin : (calls.map fun p => p.2.toInt).Perm ((List.range y).map fun i : Nat => s + i)) :
    (sampled x y calls).length = x := by
  calc (sampled x y calls).length
      = (calls.map fun p => p.2.toInt).countP (fun t : Int => t % y < x) := by
        rw [List.countP_map, List.countP_eq_length_filter]
        rfl
    _ = ((List.range y).map fun i : Nat => s + i).countP (fun t : Int => t % y < x) :=
        hwin.countP_eq _
    _ = x := card_residues hx hy s

/-- The tuples a channel logs in a run of calls. -/
def loggedIds (cl : XoYClosure) (calls : List (Env × Int64)) : List Int64 :=
  (((xoyType.logAll cl calls).map fun cl' => cl'.base.lines).getD []).drop cl.base.lines.length
    |>.map (·.1)

theorem loggedIds_eq (h : cl.Masks) (hopen : cl.base.isOpen = true) {k : Nat}
    (hy : cl.yFactor.toNat = 2 ^ k) {calls : List (Env × Int64)} (hp : ∀ p ∈ calls, p.2 ≠ -1) :
    loggedIds cl calls = (sampled cl.xFactor.toNat (2 ^ k) calls).map (·.2) := by
  rw [loggedIds, logAll_eq h hopen hy hp]
  simp [lineOfCall]

theorem mem_loggedIds (h : cl.Masks) (hopen : cl.base.isOpen = true) {k : Nat}
    (hy : cl.yFactor.toNat = 2 ^ k) {calls : List (Env × Int64)} (hp : ∀ p ∈ calls, p.2 ≠ -1)
    (t : Int64) : t ∈ loggedIds cl calls ↔
      t ∈ calls.map (·.2) ∧ t.toInt % (2 ^ k : Nat) < cl.xFactor.toNat := by
  rw [loggedIds_eq h hopen hy hp]
  simp only [sampled, List.mem_map, List.mem_filter, decide_eq_true_eq]
  constructor
  · rintro ⟨p, ⟨hmem, hlow⟩, rfl⟩
    exact ⟨⟨p, hmem, rfl⟩, hlow⟩
  · rintro ⟨⟨p, hmem, rfl⟩, hlow⟩
    exact ⟨p, ⟨hmem, hlow⟩, rfl⟩

end XoYClosure

open XoYClosure in
/-- **The sampling law of XOY**, for a channel with any `x_factor` up to a
`y_factor` that is a power of two: the calls return; a tuple is logged if and
only if its remainder, which is not negative, is below `x_factor`; of any
`y_factor` consecutive tuples `x_factor` are logged; and a channel with the
same factors logs the same of the same tuples, in any order. -/
theorem xoy_sampling_law {cl : XoYClosure} {k : Nat}
    (hr : Reach xoyType.step initXoYHandler anyStep cl) (hopen : cl.base.isOpen = true)
    (hy : cl.yFactor.toNat = 2 ^ k) (hx : cl.xFactor.toNat ≤ 2 ^ k) :
    (∀ calls : List (Env × Int64), (∀ p ∈ calls, p.2 ≠ -1) →
      ∃ cl', xoyType.logAll cl calls = some cl' ∧ cl'.base.lines = cl.base.lines ++
        (sampled cl.xFactor.toNat (2 ^ k) calls).map lineOfCall) ∧
    (∀ (calls : List (Env × Int64)) (s : Int), (∀ p ∈ calls, p.2 ≠ -1) →
      (calls.map fun p => p.2.toInt).Perm ((List.range (2 ^ k)).map fun i : Nat => s + i) →
      (loggedIds cl calls).length = cl.xFactor.toNat) ∧
    ∀ cl₂, Reach xoyType.step initXoYHandler anyStep cl₂ → cl₂.base.isOpen = true →
      cl₂.xFactor = cl.xFactor → cl₂.yFactor = cl.yFactor →
      ∀ calls calls₂ : List (Env × Int64), (∀ p ∈ calls, p.2 ≠ -1) →
        (∀ t, t ∈ calls.map (·.2) ↔ t ∈ calls₂.map (·.2)) →
        ∀ t, t ∈ loggedIds cl calls ↔ t ∈ loggedIds cl₂ calls₂ := by
  have hm : cl.Masks := hr.invariant masks_init fun _ _ _ h _ hs => h.step hs
  refine ⟨fun calls hp => ⟨_, logAll_eq hm hopen hy hp, rfl⟩, fun calls s hp hwin => ?_, ?_⟩
  · rw [loggedIds_eq hm hopen hy hp, List.length_map,
      length_sampled hx (Nat.two_pow_pos k) hwin]
  · intro cl₂ hr₂ hopen₂ hx₂ hy₂ calls calls₂ hp hsame t
    have hm₂ : cl₂.Masks := hr₂.invariant masks_init fun _ _ _ h _ hs => h.step hs
    have hp₂ : ∀ p ∈ calls₂, p.2 ≠ -1 := by
      intro p hmem hpill
      obtain ⟨q, hq, hqp⟩ := List.mem_map.mp ((hsame p.2).mpr (List.mem_map_of_mem hmem))
      exact hp q hq (hqp.trans hpill)
    rw [mem_loggedIds hm hopen hy hp, mem_loggedIds hm₂ hopen₂ (by rw [hy₂, hy]) hp₂, hsame, hx₂]

/-- The default factors, and the tuples from zero on. -/
theorem xoy_sampling_law_default : initXoYHandler.base.isOpen = true ∧
    (∀ calls : List (Env × Int64), (∀ p ∈ calls, p.2 ≠ -1) →
      (calls.map fun p => p.2.toInt).Perm ((List.range (2 ^ 14)).map fun i : Nat => (0 : Int) + i) →
      (XoYClosure.loggedIds initXoYHandler calls).length = 100) := by
  refine ⟨rfl, fun calls hp hwin => ?_⟩
  exact (xoy_sampling_law (k := 14) .init rfl (by decide) (by decide)).2.1 calls 0 hp hwin

/-! ## DOWNSAMPLE -/

/-- The elements of a list at the positions `d`, `d + n`, `d + 2 * n` and so
on, counted from 1. -/
def everyNth {α : Type} (d n : Nat) (xs : List α) : List α :=
  ((xs.zipIdx 1).filter fun p => d ≤ p.2 ∧ n ∣ p.2 - d).map (·.1)

section EveryNth

variable {α : Type} {d n : Nat}

/-- The positions of the rest are one ahead. -/
theorem everyNth_cons (x : α) (xs : List α) : everyNth d n (x :: xs) =
    (if d ≤ 1 ∧ n ∣ 1 - d then [x] else []) ++
      ((xs.zipIdx 1).filter fun p => d ≤ p.2 + 1 ∧ n ∣ p.2 + 1 - d).map (·.1) := by
  rw [everyNth, List.zipIdx_cons, List.zipIdx_succ, List.filter_cons, List.filter_map]
  by_cases hfirst : d ≤ 1 ∧ n ∣ 1 - d <;> simp [hfirst, Function.comp_def]

/-- The first position is not due. -/
theorem everyNth_cons_of_lt (hd : 1 < d) (x : α) (xs : List α) :
    everyNth d n (x :: xs) = everyNth (d - 1) n xs := by
  rw [everyNth_cons, if_neg (by omega), List.nil_append, everyNth]
  congr 1
  refine List.filter_congr fun p _ => decide_eq_decide.mpr ?_
  rw [show p.2 + 1 - d = p.2 - (d - 1) by omega]
  exact and_congr_left fun _ => by omega

/-- The first position is due. -/
theorem everyNth_cons_of_eq (x : α) (xs : List α) :
    everyNth 1 n (x :: xs) = x :: everyNth n n xs := by
  rw [everyNth_cons, if_pos (by simp), List.singleton_append, everyNth]
  congr 2
  refine List.filter_congr fun p hp => decide_eq_decide.mpr ⟨fun h => ?_, fun h => ⟨by omega, ?_⟩⟩
  · have hpos : 0 < p.2 := List.le_snd_of_mem_zipIdx hp
    exact ⟨Nat.le_of_dvd hpos h.2, Nat.dvd_sub h.2 (Nat.dvd_refl n)⟩
  · have := Nat.dvd_add h.2 (Nat.dvd_refl n)
    rwa [Nat.sub_add_cancel h.1] at this

/-- The number of positions that are due. -/
theorem length_everyNth (hn : 0 < n) (hd : 0 < d) (xs : List α) :
    (everyNth d n xs).length = if xs.length < d then 0 else (xs.length - d) / n + 1 := by
  induction xs generalizing d with
  | nil => simp [everyNth, hd]
  | cons x xs ih =>
      obtain rfl | hlt : d = 1 ∨ 1 < d := by omega
      · rw [everyNth_cons_of_eq, List.length_cons, List.length_cons, ih hn,
          if_neg (show ¬ xs.length + 1 < 1 by omega), Nat.add_sub_cancel]
        split
        · next h => rw [Nat.div_eq_of_lt h]
        · next h => rw [Nat.div_eq_sub_div hn (Nat.not_lt.mp h)]
      · rw [everyNth_cons_of_lt hlt, ih (by omega), List.length_cons,
          show xs.length + 1 - d = xs.length - (d - 1) by omega]
        split <;> split <;> first | rfl | omega

/-- Nothing is due before position `d`. -/
theorem everyNth_of_length_lt (hn : 0 < n) {xs : List α} (h : xs.length < d) :
    everyNth d n xs = [] := by
  have hlen := length_everyNth hn (by omega : 0 < d) xs
  rw [if_pos h] at hlen
  exact List.eq_nil_of_length_eq_zero hlen

/-- Position `d` is due. -/
theorem everyNth_of_length_eq (xs : List α) (x : α) :
    everyNth (xs.length + 1) n (xs ++ [x]) = [x] := by
  induction xs with
  | nil => exact everyNth_cons_of_eq x []
  | cons y xs ih =>
      rw [List.length_cons, List.cons_append, everyNth_cons_of_lt (by omega), Nat.add_sub_cancel, ih]

/-- Starting from the beginning, the multiples of `n` are due. -/
theorem length_everyNth_self (hn : 0 < n) (xs : List α) :
    (everyNth n n xs).length = xs.length / n := by
  rw [length_everyNth hn hn]
  split
  · next h => rw [Nat.div_eq_of_lt h]
  · next h => rw [Nat.div_eq_sub_div hn (Nat.not_lt.mp h)]

end EveryNth

namespace DownsampleClosure

/-- The value an accepted call sets. -/
def newFactor (a : Arg) : Int64 := if a.number = -1 then (a.par 1).toInt64 else a.value

/-- The calls of a run: tuples that are no poison pill, and changes of the
factor to 1 or more. -/
def Downsamples (_ : DownsampleClosure) (l : Env × Call) : Prop :=
  match l.2 with
  | .logTS tuple => tuple ≠ -1
  | .parameterizeChannel a | .parameterizeChannelStr true _ a =>
      (a.number = 0 ∨ a.number = -1 ∧ a.par 0 = 1) ∧ 1 ≤ newFactor a
  | _ => False

instance : DecidableRel Downsamples := fun _ l =>
  match l with
  | (_, .logTS tuple) => inferInstanceAs (Decidable (tuple ≠ -1))
  | (_, .parameterizeChannel a) | (_, .parameterizeChannelStr true _ a) =>
      inferInstanceAs (Decidable ((a.number = 0 ∨ a.number = -1 ∧ a.par 0 = 1) ∧ 1 ≤ newFactor a))
  | (_, .parameterizeChannelStr false _ _) | (_, .closeChannel) | (_, .closeAllChannels) =>
      .isFalse id

/-- The steps of a run. -/
abbrev History := List (DownsampleClosure × (Env × Call))

/-- A step that wrote a line. -/
def wrote (p : DownsampleClosure × (Env × Call)) : Bool :=
  (downsampleType.step p.1 p.2).any fun cl' => p.1.base.lines.length < cl'.base.lines.length

/-- The number of tuples seen since the last one that was logged. -/
def seen (tr : History) : Nat :=
  tr.foldl (fun c p =>
    match p.2.2 with
    | .logTS _ => if wrote p then 0 else c + 1
    | _ => c) 0

/-- The factor in effect. -/
def factorOf (tr : History) : Int64 :=
  tr.foldl (fun n p => (p.2.2.arg.map newFactor).getD n) samplingFactor

variable {cl cl' : DownsampleClosure} {tr : History} {l : Env × Call} {c : Nat}

/-- Between two calls: `c` tuples were seen since the last one logged, and the
counter is one ahead. -/
structure Counts (cl : DownsampleClosure) (c : Nat) : Prop where
  isOpen : cl.base.isOpen = true
  live : cl.base.null = false
  counter : cl.counter.toInt = c + 1
  factor_pos : 1 ≤ cl.factor

/-- The factor as a natural number. -/
theorem Counts.factor_nat (h : cl.Counts c) :
    (cl.factor.toNatClampNeg : Int) = cl.factor.toInt ∧ 1 ≤ cl.factor.toNatClampNeg := by
  have hpos := h.factor_pos
  rw [Int64.le_iff_toInt_le, show (1 : Int64).toInt = 1 from rfl] at hpos
  rw [← Int64.toNat_toInt]
  omega

/-- The counter is below the factor as long as more tuples are due. -/
theorem Counts.lt_iff (h : cl.Counts c) :
    cl.counter < cl.factor ↔ c + 1 < cl.factor.toNatClampNeg := by
  have hn := h.factor_nat.1
  rw [Int64.lt_iff_toInt_lt, h.counter, ← hn]
  omega

/-- **A tuple that is only counted.** -/
theorem logTS_counted (h : cl.Counts c) (hlt : c + 1 < cl.factor.toNatClampNeg) {p : Env × Int64}
    (hp : p.2 ≠ -1) :
    downsampleType.logTS p.1 cl p.2 = some { cl with counter := cl.counter + 1 } ∧
      Counts { cl with counter := cl.counter + 1 } (c + 1) := by
  constructor
  · rw [ChannelType.logTS, if_neg hp]
    show (if cl.base.null then some cl else some (cl.handler p.1.now p.2)) = _
    rw [if_neg (by simp [h.live]), handler, if_pos (h.lt_iff.mpr hlt)]
  · refine ⟨h.isOpen, h.live, ?_, h.factor_pos⟩
    have hbound := cl.factor.toInt_lt
    have hn := h.factor_nat.1
    show (cl.counter + 1).toInt = (c + 1 : Nat) + 1
    rw [Int64.toInt_add, h.counter, show (1 : Int64).toInt = 1 from rfl,
      Int.bmod_eq_of_le (by omega) (by omega)]
    push_cast
    rfl

/-- **A tuple that is logged.** -/
theorem logTS_logged (h : cl.Counts c) (hge : ¬ c + 1 < cl.factor.toNatClampNeg) {p : Env × Int64}
    (hp : p.2 ≠ -1) :
    downsampleType.logTS p.1 cl p.2 = some { cl with
        base := { cl.base with lines := cl.base.lines ++ [lineOfCall p] }, counter := 1 } ∧
      Counts { cl with
        base := { cl.base with lines := cl.base.lines ++ [lineOfCall p] }, counter := 1 } 0 := by
  constructor
  · rw [ChannelType.logTS, if_neg hp]
    show (if cl.base.null then some cl else some (cl.handler p.1.now p.2)) = _
    rw [if_neg (by simp [h.live]), handler, if_neg (fun hlt => hge (h.lt_iff.mp hlt)), Base.put,
      if_pos h.isOpen]
    rfl
  · exact ⟨h.isOpen, h.live, rfl, h.factor_pos⟩

/-- **All calls**: the next tuple is logged when the factor is reached, and at
once if it was reached before it changed. -/
theorem logAll_eq (h : cl.Counts c) {calls : List (Env × Int64)} (hp : ∀ p ∈ calls, p.2 ≠ -1) :
    ∃ cl', downsampleType.logAll cl calls = some cl' ∧
      cl'.base.lines = cl.base.lines ++ (everyNth (max 1 (cl.factor.toNatClampNeg - c))
        cl.factor.toNatClampNeg calls).map lineOfCall := by
  induction calls generalizing cl c with
  | nil => exact ⟨cl, rfl, by simp [everyNth]⟩
  | cons p calls ih =>
      have hrest : ∀ q ∈ calls, q.2 ≠ -1 := fun q hq => hp q (List.mem_cons_of_mem _ hq)
      have hp₁ := hp p List.mem_cons_self
      have hn := h.factor_nat.2
      by_cases hlt : c + 1 < cl.factor.toNatClampNeg
      · obtain ⟨hcall, hcounts⟩ := logTS_counted h hlt hp₁
        obtain ⟨cl', hall, hlines⟩ := ih hcounts hrest
        refine ⟨cl', ?_, ?_⟩
        · rw [ChannelType.logAll, List.foldlM_cons, hcall]
          exact hall
        · rw [hlines, everyNth_cons_of_lt (by omega)]
          congr 3
          simp only
          omega
      · obtain ⟨hcall, hcounts⟩ := logTS_logged h hlt hp₁
        obtain ⟨cl', hall, hlines⟩ := ih hcounts hrest
        refine ⟨cl', ?_, ?_⟩
        · rw [ChannelType.logAll, List.foldlM_cons, hcall]
          exact hall
        · rw [hlines, show max 1 (cl.factor.toNatClampNeg - c) = 1 by omega, everyNth_cons_of_eq]
          simp only [Nat.sub_zero, max_eq_right hn, List.map_cons, List.append_assoc,
            List.singleton_append]

/-! ### runs -/

theorem seen_concat (tr : History) (p : DownsampleClosure × (Env × Call)) :
    seen (tr ++ [p]) = match p.2.2 with
      | .logTS _ => if wrote p then 0 else seen tr + 1
      | _ => seen tr := by
  rw [seen, List.foldl_append]
  rfl

theorem factorOf_concat (tr : History) (p : DownsampleClosure × (Env × Call)) :
    factorOf (tr ++ [p]) = (p.2.2.arg.map newFactor).getD (factorOf tr) := by
  rw [factorOf, List.foldl_append]
  rfl

/-- A change of the factor. -/
theorem setArg_accepted {a : Arg} (ha : a.number = 0 ∨ a.number = -1 ∧ a.par 0 = 1) :
    setArgDownsampleHandler cl a = (0, { cl with factor := newFactor a }) := by
  obtain h | ⟨h, hpar⟩ := ha
  · simp [setArgDownsampleHandler, setOneDownsample, newFactor, h]
  · simp [setArgDownsampleHandler, setOneDownsample, newFactor, h, hpar]

/-- What an accepted change of the factor leaves. -/
theorem Counts.setFactor (h : cl.Counts c) {n : Int64} (hn : 1 ≤ n) :
    Counts { cl with factor := n } c :=
  ⟨h.isOpen, h.live, h.counter, hn⟩

/-- **Step lemma**: the counter stays one ahead of the tuples seen. -/
theorem Counts.step (h : cl.Counts (seen tr)) (hf : cl.factor = factorOf tr)
    (hok : Downsamples cl l) (hs : downsampleType.step cl l = some cl') :
    cl'.Counts (seen (tr ++ [(cl, l)])) ∧ cl'.factor = factorOf (tr ++ [(cl, l)]) := by
  obtain ⟨env, call⟩ := l
  rw [seen_concat, factorOf_concat]
  have hset : ∀ a : Arg, (a.number = 0 ∨ a.number = -1 ∧ a.par 0 = 1) ∧ 1 ≤ newFactor a →
      some (setArgDownsampleHandler cl a).2 = some cl' →
      cl'.Counts (seen tr) ∧ cl'.factor = newFactor a := by
    intro a ha hs
    rw [setArg_accepted ha.1] at hs
    cases hs
    exact ⟨h.setFactor ha.2, rfl⟩
  cases call with
  | logTS tuple =>
      have hstep : downsampleType.step cl (env, .logTS tuple) =
        downsampleType.logTS env cl tuple := rfl
      by_cases hlt : seen tr + 1 < cl.factor.toNatClampNeg
      · obtain ⟨hcall, hcounts⟩ := logTS_counted h hlt (p := (env, tuple)) hok
        have hwrote : wrote (cl, env, .logTS tuple) = false := by
          rw [wrote, hstep, hcall]
          simp
        rw [hstep, hcall] at hs
        cases hs
        simp only [hwrote]
        exact ⟨hcounts, hf⟩
      · obtain ⟨hcall, hcounts⟩ := logTS_logged h hlt (p := (env, tuple)) hok
        have hwrote : wrote (cl, env, .logTS tuple) = true := by
          rw [wrote, hstep, hcall]
          simp
        rw [hstep, hcall] at hs
        cases hs
        simp only [hwrote]
        exact ⟨hcounts, hf⟩
  | closeChannel | closeAllChannels => exact hok.elim
  | parameterizeChannel a => exact hset a hok hs
  | parameterizeChannelStr valid later a =>
      cases valid with
      | true => exact hset a hok hs
      | false => exact hok.elim

/-- **Run lemma.** -/
theorem counts (h : Trace downsampleType.step initDownsampleHandler Downsamples tr cl) :
    cl.Counts (seen tr) ∧ cl.factor = factorOf tr := by
  induction h with
  | init => exact ⟨⟨rfl, rfl, rfl, by decide⟩, rfl⟩
  | step _ hok hs ih => exact ih.1.step ih.2 hok hs

/-- A run that only changes the factor. -/
theorem untouched (h : Trace downsampleType.step initDownsampleHandler Downsamples tr cl)
    (hparm : ∀ p ∈ tr, p.2.2.arg.isSome) : cl.base.lines = [] ∧ seen tr = 0 := by
  induction h with
  | init => exact ⟨rfl, rfl⟩
  | @step tr s s' l ht hok hs ih =>
      obtain ⟨hlines, hseen⟩ := ih fun p hp => hparm p (List.mem_append_left _ hp)
      have harg := hparm (s, l) (List.mem_append_right _ List.mem_cons_self)
      obtain ⟨env, call⟩ := l
      rw [seen_concat]
      have hset : ∀ a : Arg, (a.number = 0 ∨ a.number = -1 ∧ a.par 0 = 1) ∧ 1 ≤ newFactor a →
          some (setArgDownsampleHandler s a).2 = some s' → s'.base.lines = [] := by
        intro a ha hs
        rw [setArg_accepted ha.1] at hs
        cases hs
        exact hlines
      cases call with
      | logTS | closeChannel | closeAllChannels => cases harg
      | parameterizeChannel a => exact ⟨hset a hok hs, hseen⟩
      | parameterizeChannelStr valid later a =>
          cases valid with
          | true => exact ⟨hset a hok hs, hseen⟩
          | false => exact hok.elim

end DownsampleClosure

open DownsampleClosure in
/-- **The downsampling law**, after any run `tr` of tuples and changes of the
factor, for the tuples that follow before the next change.  With factor `n`
and `c` tuples seen since the last one that was logged:

* position `max 1 (n - c)` is logged first, and then each `n`-th one;
* just after a tuple was logged, the multiples of `n` are;
* if there were only changes of the factor before, these are the whole log,
  which has `m / n` lines after `m` tuples. -/
theorem downsampling_law {tr : History} {cl : DownsampleClosure}
    (h : Trace downsampleType.step initDownsampleHandler Downsamples tr cl)
    {calls : List (Env × Int64)} (hp : ∀ p ∈ calls, p.2 ≠ -1) :
    ∃ cl', downsampleType.logAll cl calls = some cl' ∧
      cl'.base.lines = cl.base.lines ++
        (everyNth (max 1 ((factorOf tr).toNatClampNeg - seen tr)) (factorOf tr).toNatClampNeg
          calls).map lineOfCall ∧
      (calls.length < max 1 ((factorOf tr).toNatClampNeg - seen tr) →
        cl'.base.lines = cl.base.lines) ∧
      (∀ us p, calls = us ++ [p] →
        calls.length = max 1 ((factorOf tr).toNatClampNeg - seen tr) →
        cl'.base.lines = cl.base.lines ++ [lineOfCall p]) ∧
      (seen tr = 0 → cl'.base.lines = cl.base.lines ++
        (everyNth (factorOf tr).toNatClampNeg (factorOf tr).toNatClampNeg calls).map lineOfCall) ∧
      ((∀ p ∈ tr, p.2.2.arg.isSome) →
        cl'.base.lines = (everyNth (factorOf tr).toNatClampNeg (factorOf tr).toNatClampNeg
          calls).map lineOfCall ∧
        cl'.base.lines.length = calls.length / (factorOf tr).toNatClampNeg) := by
  obtain ⟨hcounts, hfactor⟩ := counts h
  have hn := hcounts.factor_nat.2
  obtain ⟨cl', hall, hlines⟩ := logAll_eq hcounts hp
  rw [hfactor] at hn hlines
  have hstart : seen tr = 0 → cl'.base.lines = cl.base.lines ++
      (everyNth (factorOf tr).toNatClampNeg (factorOf tr).toNatClampNeg calls).map lineOfCall := by
    intro hseen
    rw [hlines, hseen, Nat.sub_zero, max_eq_right hn]
  refine ⟨cl', hall, hlines, fun hlt => ?_, fun us p hcalls hlen => ?_, hstart, fun hparm => ?_⟩
  · rw [hlines, everyNth_of_length_lt (by omega) hlt, List.map_nil, List.append_nil]
  · subst hcalls
    rw [hlines, ← hlen, List.length_append, List.length_singleton, everyNth_of_length_eq,
      List.map_singleton]
  · obtain ⟨hempty, hseen⟩ := untouched h hparm
    have hlines' := hstart hseen
    rw [hempty, List.nil_append] at hlines'
    exact ⟨hlines', by rw [hlines', List.length_map, length_everyNth_self (by omega)]⟩

/-- A call at time 0, with a heap that has no memory. -/
def stillCall (tuple : Int64) : Env × Int64 :=
  (⟨⟨0, 0, 0, 0, 0⟩, ⟨0, 0⟩, fun _ => ⟨0, 0, 0, 0, 0⟩⟩, tuple)

/-- Three tuples with the default factor, and then the factor is set to 4. -/
def changedHistory : List (Env × Call) :=
  [((stillCall 7).1, .logTS 7), ((stillCall 8).1, .logTS 8), ((stillCall 9).1, .logTS 9),
    ((stillCall 9).1, .parameterizeChannel ⟨0, 4, fun _ => 0⟩)]

open DownsampleClosure in
/-- Of the next 9 tuples the first one is logged, as the fourth since the
beginning, and then each fourth. -/
theorem downsampling_law_four : ∃ tr cl cl',
    Trace downsampleType.step initDownsampleHandler Downsamples tr cl ∧
    factorOf tr = 4 ∧ seen tr = 3 ∧
    downsampleType.logAll cl ([1, 2, 3, 4, 5, 6, 7, 8, 9].map stillCall) = some cl' ∧
    cl'.base.lines = ([1, 5, 9].map stillCall).map lineOfCall := by
  obtain ⟨tr, cl, h, hs⟩ : ∃ tr cl,
      Trace downsampleType.step initDownsampleHandler Downsamples tr cl ∧
      decide (factorOf tr = 4 ∧ seen tr = 3 ∧ cl.base.lines = []) = true :=
    Trace.of_exec_any changedHistory
      (fun tr cl => decide (factorOf tr = 4 ∧ seen tr = 3 ∧ cl.base.lines = []))
      (by decide +kernel)
  obtain ⟨hfactor, hseen, hlines⟩ := of_decide_eq_true hs
  have hp : ∀ p ∈ [1, 2, 3, 4, 5, 6, 7, 8, 9].map stillCall, p.2 ≠ -1 := by decide
  obtain ⟨cl', hall, hlog, -⟩ := downsampling_law h hp
  rw [hfactor, hseen, hlines, List.nil_append] at hlog
  exact ⟨tr, cl, cl', h, hfactor, hseen, hall, hlog⟩

end CloudProfiler
