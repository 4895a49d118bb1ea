import Mathlib.Data.List.Sort

/-!
# CloudProfiler.Insertion

One more element in a sorted list (library layer, nothing here mentions the
profiler).  The order is a total preorder `le`, so that elements can be
different and still tie; sorting is stable.

* `mergeSort_cons_eq`, `mergeSort_concat_eq` — sorting with one element more at
  either end is inserting it, before or after the elements it ties with;
* `getD_succ_orderedInsert` — what is then at an index: the element, or one of
  the two neighbours it falls between.
-/

namespace CloudProfiler

namespace Insertion

universe u

variable {α : Type u}

/-! ## inserting into a list -/

section Insert

variable {r : α → α → Prop} [DecidableRel r] {a : α}

/-- An element goes between those it does not come before and one it does. -/
theorem orderedInsert_append {l₁ l₂ : List α} (h₁ : ∀ b ∈ l₁, ¬ r a b)
    (h₂ : ∀ b ∈ l₂.head?, r a b) :
    (l₁ ++ l₂).orderedInsert r a = l₁ ++ a :: l₂ := by
  induction l₁ with
  | nil =>
      cases l₂ with
      | nil => rfl
      | cons b l₂ => exact List.orderedInsert_cons_of_le r l₂ (h₂ b rfl)
  | cons c l₁ ih =>
      rw [List.cons_append, List.orderedInsert_of_not_le r _ (h₁ c List.mem_cons_self),
        ih fun b hb => h₁ b (List.mem_cons_of_mem c hb), List.cons_append]

/-- The first element after the insertion. -/
theorem getD_zero_orderedInsert (l : List α) (d : α) :
    (l.orderedInsert r a).getD 0 d =
      if l = [] then a else if r a (l.getD 0 d) then a else l.getD 0 d := by
  cases l with
  | nil => rfl
  | cons b l =>
      simp only [List.orderedInsert, List.getD_cons_zero, reduceCtorEq, if_false]
      split <;> rfl

theorem getD_mem {l : List α} {i : Nat} (d : α) (hi : i < l.length) : l.getD i d ∈ l := by
  rw [List.getD_eq_getElem?_getD, List.getElem?_eq_getElem hi, Option.getD_some]
  exact List.getElem_mem hi

/-- `a` between its neighbours `lo` and `hi` in the list: itself, or the
neighbour that takes its place. -/
def between (r : α → α → Prop) [DecidableRel r] (lo hi a : α) : α :=
  if r a hi then if r a lo then lo else a else hi

/-- **What is at an index after the insertion** is decided by the elements at
that index and the one before. -/
theorem getD_succ_orderedInsert {l : List α} {i : Nat} (d : α)
    (hl : l.Pairwise fun b c => r a b → r a c) (hi : i + 1 < l.length) :
    (l.orderedInsert r a).getD (i + 1) d = between r (l.getD i d) (l.getD (i + 1) d) a := by
  induction l generalizing i with
  | nil => cases hi
  | cons b l ih =>
      obtain ⟨hb, hl⟩ := List.pairwise_cons.mp hl
      have hlen : i < l.length := Nat.lt_of_succ_lt_succ hi
      have hnext := getD_mem d hlen
      by_cases hab : r a b
      · rw [List.orderedInsert_cons_of_le r l hab]
        simp only [List.getD_cons_succ, between, if_pos (hb _ hnext hab)]
        cases i with
        | zero => simp [hab]
        | succ i =>
            have hprev := getD_mem d (Nat.lt_of_succ_lt hlen)
            rw [List.getD_cons_succ, if_pos (hb _ hprev hab)]
      · rw [List.orderedInsert_of_not_le r l hab, List.getD_cons_succ, List.getD_cons_succ]
        cases i with
        | zero =>
            have hne : l ≠ [] := List.ne_nil_of_length_pos hlen
            rw [getD_zero_orderedInsert, if_neg hne]
            simp [between, hab]
        | succ i => exact ih hl hlen

end Insert

/-! ## sorting with one element more -/

section Sorting

variable {le : α → α → Bool}

/-- The element is sorted in front of those it ties with. -/
theorem mergeSort_cons_eq (htrans : ∀ a b c, le a b = true → le b c = true → le a c = true)
    (htotal : ∀ a b, (le a b || le b a) = true) (a : α) (l : List α) :
    (a :: l).mergeSort le = (l.mergeSort le).orderedInsert (fun b c => le b c = true) a := by
  obtain ⟨l₁, l₂, h, h', hlt⟩ := List.mergeSort_cons htrans htotal a l
  have hsorted := List.pairwise_mergeSort htrans htotal (a :: l)
  rw [h] at hsorted
  have hge := (List.pairwise_cons.mp (List.pairwise_append.mp hsorted).2.1).1
  rw [h, h', orderedInsert_append]
  · intro b hb
    simpa using hlt b hb
  · intro b hb
    exact hge b (List.mem_of_mem_head? hb)

/-- Two insertions can be exchanged if the one is made before and the other
after the elements that tie. -/
theorem orderedInsert_comm (htrans : ∀ a b c, le a b = true → le b c = true → le a c = true)
    (htotal : ∀ a b, (le a b || le b a) = true) (a y : α) (l : List α) :
    (l.orderedInsert (fun b c => le c b = false) y).orderedInsert (fun b c => le b c = true) a =
      (l.orderedInsert (fun b c => le b c = true) a).orderedInsert
        (fun b c => le c b = false) y := by
  induction l with
  | nil =>
      simp only [List.orderedInsert]
      obtain hay | hay := Bool.eq_false_or_eq_true (le a y) <;> simp [hay]
  | cons b l ih =>
      have hby := htotal b y
      simp only [List.orderedInsert]
      obtain hle | hle := Bool.eq_false_or_eq_true (le b y) <;>
        obtain hle' | hle' := Bool.eq_false_or_eq_true (le a b)
      · simp [htrans a b y hle' hle, hle, hle']
      · simp [hle, hle', ih]
      · obtain hay | hay := Bool.eq_false_or_eq_true (le a y) <;> simp [hay, hle, hle']
      · have hay : le a y = false := by
          rw [← Bool.not_eq_true]
          intro h
          rw [hle, Bool.false_or] at hby
          rw [htrans a y b h hby] at hle'
          cases hle'
        simp [hay, hle, hle']

/-- The element is sorted behind those it ties with. -/
theorem mergeSort_concat_eq (htrans : ∀ a b c, le a b = true → le b c = true → le a c = true)
    (htotal : ∀ a b, (le a b || le b a) = true) (l : List α) (y : α) :
    (l ++ [y]).mergeSort le = (l.mergeSort le).orderedInsert (fun b c => le c b = false) y := by
  induction l with
  | nil => simp
  | cons a l ih =>
      rw [List.cons_append, mergeSort_cons_eq htrans htotal, ih, orderedInsert_comm htrans htotal,
        mergeSort_cons_eq htrans htotal a l]

end Sorting

end Insertion

end CloudProfiler
