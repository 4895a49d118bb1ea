import Mathlib.Data.List.Basic

/-!
# CloudProfiler.Grouping

Groups of `n` elements, counted from the end of a list (library layer, nothing
here mentions the profiler).  The list is gone through from its end, and a
separator is put after every `n`-th element but the last.

* `separate` — the pass;
* `separate_reverse` — mirrored, it has joined groups of `n` elements, the
  first of them shorter if need be.
-/

namespace CloudProfiler

namespace Grouping

universe u

variable {α : Type u} {sep a : α} {n k r : Nat} {l : List α}

/-- A separator after every `n`-th element but the last; the first element has
the number `k`. -/
def separate (sep : α) (n : Nat) : Nat → List α → List α
  | _, [] => []
  | _, [a] => [a]
  | k, a :: b :: l =>
      if k % n = 0 then a :: sep :: separate sep n (k + 1) (b :: l)
      else a :: separate sep n (k + 1) (b :: l)

theorem separate_cons (hl : l ≠ []) :
    separate sep n k (a :: l) =
      if k % n = 0 then a :: sep :: separate sep n (k + 1) l
      else a :: separate sep n (k + 1) l := by
  cases l with
  | nil => exact absurd rfl hl
  | cons b l => rw [separate]

/-- Only the place in the group matters. -/
theorem separate_add (l : List α) (k : Nat) : separate sep n (n + k) l = separate sep n k l := by
  induction l generalizing k with
  | nil => rw [separate, separate]
  | cons a l ih =>
      by_cases hl : l = []
      · rw [hl, separate, separate]
      · rw [separate_cons hl, separate_cons hl, Nat.add_mod_left, Nat.add_assoc, ih]

/-- A list that ends within the group has no separator. -/
theorem separate_of_length_le (hr : r < n) (hk : (k + r) % n = 0) (hl : l.length ≤ r + 1) :
    separate sep n k l = l := by
  induction l generalizing k r with
  | nil => rw [separate]
  | cons a l ih =>
      by_cases hnil : l = []
      · rw [hnil, separate]
      · have hpos := List.length_pos_of_ne_nil hnil
        rw [List.length_cons] at hl
        obtain ⟨r, rfl⟩ : ∃ r', r = r' + 1 := ⟨r - 1, by omega⟩
        have hmod : k % n ≠ 0 := fun h0 => by
          rw [Nat.add_mod, h0, Nat.zero_add, Nat.mod_mod, Nat.mod_eq_of_lt hr] at hk
          omega
        rw [separate_cons hnil, if_neg hmod,
          ih (r := r) (by omega) (by rw [Nat.add_assoc, Nat.add_comm 1 r]; exact hk) (by omega)]

/-- The separator behind the group. -/
theorem separate_append {m : List α} (hr : r < n) (hk : (k + r) % n = 0) (hm : m.length = r + 1)
    (hl : l ≠ []) :
    separate sep n k (m ++ l) = m ++ sep :: separate sep n (k + r + 1) l := by
  induction r generalizing k m with
  | zero =>
      obtain ⟨a, rfl⟩ := List.length_eq_one_iff.mp hm
      rw [List.singleton_append, separate_cons hl, if_pos (show k % n = 0 from hk)]
      rfl
  | succ r ih =>
      cases m with
      | nil => cases hm
      | cons a m =>
          have hmod : k % n ≠ 0 := fun h0 => by
            rw [Nat.add_mod, h0, Nat.zero_add, Nat.mod_mod, Nat.mod_eq_of_lt hr] at hk
            omega
          have hne : m ++ l ≠ [] := List.append_ne_nil_of_right_ne_nil m hl
          rw [List.cons_append, separate_cons hne, if_neg hmod,
            ih (by omega) (by rw [Nat.add_assoc, Nat.add_comm 1 r]; exact hk) (by simpa using hm),
            List.cons_append, Nat.add_assoc k 1 r, Nat.add_comm 1 r]

/-- The groups of a list, the first one being the last that was begun. -/
structure Groups (n : Nat) (first : List α) (groups : List (List α)) (l : List α) : Prop where
  nonempty : first ≠ []
  length_le : first.length ≤ n
  length_eq : ∀ g ∈ groups, g.length = n
  flatten : first ++ groups.flatten = l

/-- A last piece joined. -/
theorem intercalate_concat (l g : List α) (ls : List (List α)) :
    [sep].intercalate (l :: (ls ++ [g])) = [sep].intercalate (l :: ls) ++ [sep] ++ g := by
  induction ls generalizing l with
  | nil => simp [List.intercalate_cons_cons]
  | cons l' ls ih =>
      rw [List.cons_append, List.intercalate_cons_cons, ih, List.intercalate_cons_cons]
      simp

/-- **The pass, mirrored.** -/
theorem separate_reverse (sep : α) (hn : 0 < n) (hl : l ≠ []) :
    ∃ first groups, (separate sep n 1 l).reverse = [sep].intercalate (first :: groups) ∧
      Groups n first groups l.reverse := by
  have hgroup : (1 + (n - 1)) % n = 0 := by
    rw [Nat.add_sub_cancel' hn, Nat.mod_self]
  induction hlen : l.length using Nat.strongRecOn generalizing l with
  | _ len ih =>
      by_cases hle : l.length ≤ n
      · refine ⟨l.reverse, [], ?_, by simpa using hl, by simpa using hle, by simp, by simp⟩
        rw [separate_of_length_le (r := n - 1) (by omega) hgroup (by omega),
          List.intercalate_singleton]
      · have hrest : l.drop n ≠ [] := by simpa using hle
        have htake : (l.take n).length = n := by
          rw [List.length_take]
          omega
        obtain ⟨first, groups, heq, hfirst⟩ := ih (l.drop n).length
          (by rw [List.length_drop]; omega) hrest rfl
        refine ⟨first, groups ++ [(l.take n).reverse], ?_, hfirst.nonempty, hfirst.length_le,
          fun g hg => ?_, ?_⟩
        · have hsplit : separate sep n 1 l =
              l.take n ++ sep :: separate sep n (1 + (n - 1) + 1) (l.drop n) := by
            rw [← separate_append (by omega) hgroup (by omega) hrest, List.take_append_drop]
          have hshift : 1 + (n - 1) + 1 = n + 1 := by omega
          rw [hsplit, hshift, separate_add, List.reverse_append, List.reverse_cons, heq,
            intercalate_concat]
        · obtain hg | hg := List.mem_append.mp hg
          · exact hfirst.length_eq g hg
          · rw [List.mem_singleton.mp hg, List.length_reverse, htake]
        · rw [List.flatten_append, List.flatten_singleton, ← List.append_assoc, hfirst.flatten,
            ← List.reverse_append, List.take_append_drop]

end Grouping

end CloudProfiler
