import Mathlib.Data.List.Basic

/-!
# CloudProfiler.Mirror

Reversing in place (library layer, nothing here mentions the profiler): two
positions go towards each other from the ends and swap what they stand on.

* `mirror` — the loop;
* `mirror_eq_reverse` — it reverses the list.
-/

namespace CloudProfiler

variable {α : Type*} {ptr : List α} {low high k fuel : Nat}

/-- Exchange of the items at `low` and `high`. -/
def swapItems (ptr : List α) (low high : Nat) : List α :=
  match ptr[low]?, ptr[high]? with
  | some temp, some c => (ptr.set low c).set high temp
  | _, _ => ptr

/-- The loop `for (; low < high; low++, high--)` with a swap as its body. -/
def mirror : Nat → List α → Nat → Nat → List α
  | 0, ptr, _, _ => ptr
  | fuel + 1, ptr, low, high =>
      if low < high then mirror fuel (swapItems ptr low high) (low + 1) (high - 1) else ptr

theorem swapItems_eq (hlow : low < ptr.length) (hhigh : high < ptr.length) :
    swapItems ptr low high = (ptr.set low ptr[high]).set high ptr[low] := by
  rw [swapItems, List.getElem?_eq_getElem hlow, List.getElem?_eq_getElem hhigh]

theorem length_swapItems : (swapItems ptr low high).length = ptr.length := by
  unfold swapItems
  split
  · rw [List.length_set, List.length_set]
  · rfl

theorem getElem?_swapItems (hlow : low < high) (hhigh : high < ptr.length) :
    (swapItems ptr low high)[k]? =
      if k = low then ptr[high]? else if k = high then ptr[low]? else ptr[k]? := by
  have hlt := Nat.lt_trans hlow hhigh
  rw [swapItems_eq hlt hhigh, List.getElem?_set, List.getElem?_set, List.length_set,
    List.getElem?_eq_getElem hlt, List.getElem?_eq_getElem hhigh]
  by_cases hkl : k = low
  · subst hkl
    rw [if_neg (by omega), if_pos rfl, if_pos hlt, if_pos rfl]
  · by_cases hkh : k = high
    · subst hkh
      rw [if_pos rfl, if_pos hhigh, if_neg hkl, if_pos rfl]
    · rw [if_neg (by omega), if_neg (by omega), if_neg hkl, if_neg hkh]

/-- What is between the two positions is reversed, the rest is kept. -/
theorem getElem?_mirror (hfuel : high ≤ low + fuel) (hhigh : high < ptr.length) :
    (mirror fuel ptr low high)[k]? =
      if low ≤ k ∧ k ≤ high then ptr[low + high - k]? else ptr[k]? := by
  induction fuel generalizing ptr low high with
  | zero =>
      rw [mirror]
      split
      · next hk => rw [show low + high - k = k by omega]
      · rfl
  | succ fuel ih =>
      rw [mirror]
      by_cases hlt : low < high
      · have hswap : high - 1 < (swapItems ptr low high).length := by
          rw [length_swapItems]
          omega
        rw [if_pos hlt, ih (by omega) hswap]
        have hsum : low + 1 + (high - 1) = low + high := by omega
        rw [hsum, getElem?_swapItems hlt hhigh, getElem?_swapItems hlt hhigh]
        by_cases hin : low + 1 ≤ k ∧ k ≤ high - 1
        · rw [if_pos hin, if_neg (by omega), if_neg (by omega), if_pos (by omega)]
        · rw [if_neg hin]
          by_cases hkl : k = low
          · rw [if_pos hkl, if_pos (by omega), hkl, Nat.add_sub_cancel_left]
          · by_cases hkh : k = high
            · rw [if_neg hkl, if_pos hkh, if_pos (by omega), hkh, Nat.add_sub_cancel]
            · rw [if_neg hkl, if_neg hkh, if_neg (by omega)]
      · rw [if_neg hlt]
        split
        · next hk => rw [show low + high - k = k by omega]
        · rfl

theorem mirror_eq_reverse (ptr : List α) :
    mirror ptr.length ptr 0 (ptr.length - 1) = ptr.reverse := by
  obtain rfl | hne := eq_or_ne ptr []
  · rfl
  · have hpos := List.length_pos_of_ne_nil hne
    refine List.ext_getElem? fun k => ?_
    rw [getElem?_mirror (by omega) (by omega), Nat.zero_add]
    by_cases hk : k ≤ ptr.length - 1
    · rw [if_pos ⟨Nat.zero_le k, hk⟩, List.getElem?_reverse (by omega)]
    · rw [if_neg (by omega), List.getElem?_eq_none (by omega),
        List.getElem?_eq_none (by rw [List.length_reverse]; omega)]

end CloudProfiler
