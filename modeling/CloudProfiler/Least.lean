import Mathlib.Algebra.Order.BigOperators.Group.List
import Mathlib.Data.List.Induction
import Mathlib.Data.List.Sort

/-!
# CloudProfiler.Least

The first element of a sorted list (library layer, nothing here mentions the
profiler).  The order is a total preorder `le`.

* `leader` — sort and take the first;
* `leads_of_leader` — it comes before all others;
* `leader_leaders` — the first of the firsts of several lists is the first of
  them all;
* `leads_rest_iff` — when a list and a part of it have the same first element;
* `foldl_keep` — a search without sorting: the first of the smallest;
* `sum_take_le` — the first few of a sorted list have the least sum;
* `pairwise_insertionSort` — a stable sort breaks ties by the order before it.
-/

namespace CloudProfiler

namespace Least

universe u

variable {α : Type u} {le : α → α → Bool} {l : List α} {ls : List (List α)} {m : α}

/-- The first element in the order, the earliest in the list of those that
tie. -/
def leader (le : α → α → Bool) (l : List α) : Option α := (l.mergeSort le).head?

/-- An element that comes before all others. -/
structure Leads (le : α → α → Bool) (m : α) (l : List α) : Prop where
  mem : m ∈ l
  le : ∀ x ∈ l, le m x = true

theorem leader_eq_none : leader le l = none ↔ l = [] := by
  rw [leader, List.head?_eq_none_iff, ← List.length_eq_zero_iff, List.length_mergeSort,
    List.length_eq_zero_iff]

variable (htrans : ∀ a b c, le a b = true → le b c = true → le a c = true)
  (htotal : ∀ a b, (le a b || le b a) = true)

include htrans htotal

theorem leads_of_leader (h : leader le l = some m) : Leads le m l := by
  have hsorted := List.pairwise_mergeSort htrans htotal l
  obtain ⟨rest, hrest⟩ : ∃ rest, l.mergeSort le = m :: rest := by
    unfold leader at h
    cases hl : l.mergeSort le with
    | nil => simp [hl] at h
    | cons a rest =>
        rw [hl, List.head?_cons, Option.some.injEq] at h
        exact ⟨rest, by rw [h]⟩
  have hmem : ∀ x, x ∈ l ↔ x ∈ m :: rest := fun x => by
    rw [← hrest, List.mem_mergeSort]
  rw [hrest] at hsorted
  refine ⟨(hmem m).mpr List.mem_cons_self, fun x hx => ?_⟩
  obtain rfl | hx := List.mem_cons.mp ((hmem x).mp hx)
  · simpa using htotal x x
  · exact (List.pairwise_cons.mp hsorted).1 x hx

/-- The leader of the leaders leads all lists. -/
theorem leader_leaders (h : leader le (ls.filterMap (leader le)) = some m) :
    Leads le m ls.flatten := by
  obtain ⟨hmem, hle⟩ := leads_of_leader htrans htotal h
  obtain ⟨l, hl, hm⟩ := List.mem_filterMap.mp hmem
  refine ⟨List.mem_flatten.mpr ⟨l, hl, (leads_of_leader htrans htotal hm).mem⟩, fun x hx => ?_⟩
  obtain ⟨l', hl', hx⟩ := List.mem_flatten.mp hx
  -- the list of `x` is not empty, so it has a leader of its own
  obtain ⟨m', hm'⟩ := Option.ne_none_iff_exists'.mp
    (fun hnone => List.ne_nil_of_mem hx (leader_eq_none.mp hnone) : leader le l' ≠ none)
  exact htrans m m' x (hle m' (List.mem_filterMap.mpr ⟨l', hl', hm'⟩))
    ((leads_of_leader htrans htotal hm').le x hx)

omit htrans htotal in
/-- There is one if not all lists are empty. -/
theorem leader_leaders_ne_none (h : ls.flatten ≠ []) :
    leader le (ls.filterMap (leader le)) ≠ none := by
  intro hnone
  refine h (List.flatten_eq_nil_iff.mpr fun l hl => ?_)
  have hempty := List.filterMap_eq_nil_iff.mp (leader_eq_none.mp hnone) l hl
  exact leader_eq_none.mp hempty

/-! ## parts of a list -/

section Parts

variable {firsts rest whole : List α}
  (hanti : ∀ a b, le a b = true → le b a = true → a = b)
  (hmem : ∀ x, x ∈ whole ↔ x ∈ firsts ∨ x ∈ rest)

include hanti in
omit htrans htotal in
theorem Leads.unique {m' : α} (h : Leads le m l) (h' : Leads le m' l) : m = m' :=
  hanti m m' (h.le m' h'.mem) (h'.le m h.mem)

include hanti hmem in
/-- What leads a list is what leads a part of it if and only if some element of
the part comes before all that are left out. -/
theorem leads_rest_iff :
    (∀ m, Leads le m whole ↔ Leads le m rest) ↔
      whole = [] ∨ ∃ e ∈ rest, ∀ f ∈ firsts, le e f = true := by
  constructor
  · intro h
    by_cases hne : whole = []
    · exact .inl hne
    · have hsome : leader le whole ≠ none := mt leader_eq_none.mp hne
      obtain ⟨m, hm⟩ := Option.ne_none_iff_exists'.mp hsome
      have hwhole := leads_of_leader htrans htotal hm
      exact .inr ⟨m, ((h m).mp hwhole).mem, fun f hf => hwhole.le f ((hmem f).mpr (.inl hf))⟩
  · rintro (rfl | ⟨e, he, hfirst⟩) m
    · have hrest : rest = [] := List.eq_nil_iff_forall_not_mem.mpr fun x hx => by
        have := (hmem x).mpr (.inr hx)
        cases this
      rw [hrest]
    · constructor
      · intro h
        have hin : m ∈ rest := by
          obtain hm | hm := (hmem m).mp h.mem
          · rw [hanti m e (h.le e ((hmem e).mpr (.inr he))) (hfirst m hm)]
            exact he
          · exact hm
        exact ⟨hin, fun x hx => h.le x ((hmem x).mpr (.inr hx))⟩
      · intro h
        refine ⟨(hmem m).mpr (.inr h.mem), fun x hx => ?_⟩
        obtain hx | hx := (hmem x).mp hx
        · exact htrans m e x (h.le e he) (hfirst x hx)
        · exact h.le x hx

end Parts

/-! ## searching for the smallest -/

section Search

universe v

variable {β : Type v} [LinearOrder β] {key : α → β} {bound : β}

/-- What a search keeps: an element whose key is smaller than that of the one
found before, or than `bound` if none was found. -/
def keep (key : α → β) (bound : β) (found : Option α) (x : α) : Option α :=
  if key x < (found.map key).getD bound then some x else found

/-- The element at `i` is the first one with the smallest key. -/
structure FirstLeast (key : α → β) (l : List α) (i : Nat) (m : α) : Prop where
  get : l[i]? = some m
  least : ∀ x ∈ l, key m ≤ key x
  before : ∀ j < i, ∀ x, l[j]? = some x → key m < key x

omit htrans htotal in
/-- **A search finds the first smallest**, if some key is below the bound. -/
theorem foldl_keep (key : α → β) (hne : l ≠ []) (hbound : ∀ x ∈ l, key x < bound) :
    ∃ i m, l.foldl (keep key bound) none = some m ∧ FirstLeast key l i m := by
  induction l using List.reverseRecOn with
  | nil => exact absurd rfl hne
  | append_singleton l x ih =>
      have hx : key x < bound := hbound x (by simp)
      rw [List.foldl_append, List.foldl_cons, List.foldl_nil]
      by_cases hl : l = []
      · subst hl
        exact ⟨0, x, if_pos hx, rfl, by simp, by simp⟩
      · obtain ⟨i, m, hfold, hm⟩ := ih hl fun y hy => hbound y (by simp [hy])
        have hi : i < l.length := (List.getElem?_eq_some_iff.mp hm.get).1
        rw [hfold]
        by_cases hlt : key x < key m
        · refine ⟨l.length, x, if_pos hlt, by simp, fun y hy => ?_, fun j hj y hy => ?_⟩
          · obtain hy | hy := List.mem_append.mp hy
            · exact (hlt.le).trans (hm.least y hy)
            · rw [List.mem_singleton.mp hy]
          · rw [List.getElem?_append_left hj] at hy
            exact hlt.trans_le (hm.least y (List.mem_of_getElem? hy))
        · refine ⟨i, m, if_neg hlt, by rw [List.getElem?_append_left hi, hm.get], fun y hy => ?_,
            fun j hj y hy => ?_⟩
          · obtain hy | hy := List.mem_append.mp hy
            · exact hm.least y hy
            · rw [List.mem_singleton.mp hy]
              exact not_lt.mp hlt
          · rw [List.getElem?_append_left (hj.trans hi)] at hy
            exact hm.before j hj y hy

end Search

/-! ## the first few -/

section Few

universe w

variable {β : Type w} {key : α → β} {few : List α}

omit htrans htotal in
/-- The first elements of a sorted list come before those of any other choice,
one by one. -/
theorem take_le_of_sublist [Preorder β] (hl : l.Pairwise (key · ≤ key ·)) (h : few.Sublist l) :
    List.Forall₂ (key · ≤ key ·) (l.take few.length) few := by
  induction l generalizing few with
  | nil =>
      obtain rfl := List.sublist_nil.mp h
      exact .nil
  | cons a l ih =>
      obtain ⟨ha, hl⟩ := List.pairwise_cons.mp hl
      cases few with
      | nil => exact .nil
      | cons b few =>
          have hle : key a ≤ key b := by
            obtain rfl | hb := List.mem_cons.mp (h.subset List.mem_cons_self)
            · exact le_rfl
            · exact ha b hb
          exact .cons hle (ih hl h.tail)

omit htrans htotal in
/-- **The first few of a sorted list have the least sum** among as many of its
elements. -/
theorem sum_take_le [AddCommMonoid β] [Preorder β] [AddLeftMono β]
    (hl : l.Pairwise (key · ≤ key ·)) (h : few.Subperm l) :
    ((l.take few.length).map key).sum ≤ (few.map key).sum := by
  obtain ⟨few', hperm, hsub⟩ := h
  have hle := take_le_of_sublist hl hsub
  rw [← hperm.length_eq, ← (hperm.map key).sum_eq]
  exact List.Forall₂.sum_le_sum
    (List.forall₂_map_left_iff.mpr (List.forall₂_map_right_iff.mpr hle))

end Few

/-! ## sorting what was sorted -/

section Stable

universe x

variable {β : Type x} [LinearOrder β] {key : α → β} {earlier : α → α → Prop} {a : α}

/-- By the key, and with equal keys as before. -/
def ThenBy (key : α → β) (earlier : α → α → Prop) (a b : α) : Prop :=
  key a < key b ∨ key a = key b ∧ earlier a b

omit htrans htotal in
theorem ThenBy.key_le {b : α} (h : ThenBy key earlier a b) : key a ≤ key b := by
  obtain h | ⟨h, -⟩ := h
  · exact h.le
  · exact h.le

omit htrans htotal in
theorem pairwise_orderedInsert (hl : l.Pairwise (ThenBy key earlier))
    (ha : ∀ b ∈ l, earlier a b) :
    (l.orderedInsert (key · ≤ key ·) a).Pairwise (ThenBy key earlier) := by
  induction l with
  | nil => simp
  | cons b l ih =>
      obtain ⟨hb, hl'⟩ := List.pairwise_cons.mp hl
      by_cases hab : key a ≤ key b
      · rw [List.orderedInsert_cons, if_pos hab, List.pairwise_cons]
        refine ⟨fun c hc => ?_, hl⟩
        -- `b` has the least key of the list, so `a` is before all of it
        have hbc : key b ≤ key c := by
          obtain rfl | hc := List.mem_cons.mp hc
          · exact le_rfl
          · exact (hb c hc).key_le
        obtain hlt | heq := (hab.trans hbc).lt_or_eq
        · exact .inl hlt
        · exact .inr ⟨heq, ha c hc⟩
      · rw [List.orderedInsert_cons, if_neg hab, List.pairwise_cons]
        refine ⟨fun c hc => ?_, ih hl' fun c hc => ha c (List.mem_cons_of_mem _ hc)⟩
        obtain rfl | hc := (List.mem_orderedInsert _).mp hc
        · exact .inl (not_le.mp hab)
        · exact hb c hc

omit htrans htotal in
/-- **A stable sort breaks ties by the order before it.** -/
theorem pairwise_insertionSort (hl : l.Pairwise earlier) :
    (l.insertionSort (key · ≤ key ·)).Pairwise (ThenBy key earlier) := by
  induction l with
  | nil => exact .nil
  | cons a l ih =>
      obtain ⟨ha, hl⟩ := List.pairwise_cons.mp hl
      rw [List.insertionSort_cons]
      exact pairwise_orderedInsert (ih hl) fun b hb => ha b ((List.mem_insertionSort _).mp hb)

end Stable

end Least

end CloudProfiler
