import Mathlib.Data.List.Sort
import Mathlib.Data.List.Perm.Subperm
import Mathlib.Data.List.Range

/-!
# CloudProfiler.Resequence

Putting numbered items back into order (library layer, nothing here mentions
the profiler).

Items carry a key; every key of an initial segment of the naturals arrives
once, in any order.  A resequencer emits an item when its key is the number
of items emitted so far, and parks it in a priority queue otherwise; emitting
an item may release parked ones.

* `takeRun` / `dropRun` — the parked items a release emits, and the rest;
* `Reseq.arrive` — one arrival;
* `Reseq.Ok` — the emitted keys are `0, 1, 2, …`, the parked ones are
  strictly increasing and beyond the next key;
* `Reseq.arrive_ok`, `Reseq.arrive_perm` — one arrival keeps `Ok` and
  neither loses nor duplicates an item;
* `Reseq.Ok.complete` — when exactly the keys below `n` have arrived,
  everything is emitted.
-/

namespace CloudProfiler

universe u

variable {β : Type u} (key : β → Nat)

/-- Push into a priority queue kept as a list with the smallest key first. -/
def pqPush (b : β) (q : List β) : List β := q.orderedInsert (fun x y => key x ≤ key y) b

/-- The items at the front of the queue that continue the sequence at `n`. -/
def takeRun : Nat → List β → List β
  | _, [] => []
  | n, b :: q => if key b = n then b :: takeRun (n + 1) q else []

/-- What is left of the queue behind `takeRun`. -/
def dropRun : Nat → List β → List β
  | _, [] => []
  | n, b :: q => if key b = n then dropRun (n + 1) q else b :: q

/-- Keys strictly increasing, all of them at least `n`. -/
def Parked (n : Nat) (q : List β) : Prop :=
  q.Pairwise (fun x y => key x < key y) ∧ ∀ b ∈ q, n ≤ key b

variable {key}

theorem perm_pqPush (b : β) (q : List β) : (pqPush key b q).Perm (b :: q) :=
  List.perm_orderedInsert _ b q

/-- Pushing a new key keeps the queue strictly sorted. -/
theorem Parked.push {n : Nat} {b : β} {q : List β} (h : Parked key n q) (hn : n ≤ key b)
    (hb : ∀ x ∈ q, key x ≠ key b) : Parked key n (pqPush key b q) := by
  refine ⟨?_, fun x hx => ?_⟩
  · induction q with
    | nil => simp [pqPush]
    | cons c q ih =>
        obtain ⟨hlt, hge⟩ := h
        rw [List.pairwise_cons] at hlt
        unfold pqPush at ih ⊢
        rw [List.orderedInsert_cons]
        split
        · next hle =>
          have hbc : key b < key c := lt_of_le_of_ne hle (hb c (by simp)).symm
          refine List.pairwise_cons.mpr ⟨fun x hx => ?_, List.pairwise_cons.mpr hlt⟩
          obtain rfl | hx := List.mem_cons.mp hx
          · exact hbc
          · exact hbc.trans (hlt.1 x hx)
        · next hle =>
          refine List.pairwise_cons.mpr ⟨fun x hx => ?_, ?_⟩
          · obtain rfl | hx := List.mem_orderedInsert _ |>.mp hx
            · omega
            · exact hlt.1 x hx
          · exact ih ⟨hlt.2, fun x hx => hge x (by simp [hx])⟩ fun x hx => hb x (by simp [hx])
  · obtain rfl | hx := List.mem_cons.mp ((perm_pqPush b q).mem_iff.mp hx)
    · exact hn
    · exact h.2 x hx

theorem takeRun_append_dropRun (key : β → Nat) (n : Nat) (q : List β) :
    takeRun key n q ++ dropRun key n q = q := by
  induction q generalizing n with
  | nil => rfl
  | cons b q ih =>
      simp only [takeRun, dropRun]
      split
      · rw [List.cons_append, ih]
      · rfl

/-- The released items carry consecutive keys. -/
theorem map_key_takeRun (n : Nat) (q : List β) :
    (takeRun key n q).map key = List.range' n (takeRun key n q).length := by
  induction q generalizing n with
  | nil => rfl
  | cons b q ih =>
      simp only [takeRun]
      split
      · next hb => rw [List.map_cons, List.length_cons, List.range'_succ, ih, hb]
      · rfl

/-- What stays parked lies strictly beyond the key after the released ones. -/
theorem Parked.dropRun {n : Nat} {q : List β} (h : Parked key n q) :
    Parked key (n + (takeRun key n q).length + 1) (dropRun key n q) := by
  induction q generalizing n with
  | nil => exact ⟨List.Pairwise.nil, by simp [CloudProfiler.dropRun]⟩
  | cons b q ih =>
      obtain ⟨hlt, hge⟩ := h
      rw [List.pairwise_cons] at hlt
      simp only [takeRun, CloudProfiler.dropRun]
      split
      · next hb =>
        have hq : Parked key (n + 1) q := ⟨hlt.2, fun x hx => hb ▸ hlt.1 x hx⟩
        have := ih hq
        rwa [List.length_cons, show n + ((takeRun key (n + 1) q).length + 1) + 1 =
          n + 1 + (takeRun key (n + 1) q).length + 1 by omega]
      · next hb =>
        have hn : n < key b := lt_of_le_of_ne (hge b (by simp)) (Ne.symm hb)
        refine ⟨List.pairwise_cons.mpr hlt, fun x hx => ?_⟩
        obtain rfl | hx := List.mem_cons.mp hx
        · exact hn
        · have := hlt.1 x hx
          simp only [List.length_nil, Nat.add_zero]
          omega

/-! ## the resequencer -/

/-- Items emitted so far and items parked. -/
structure Reseq (β : Type u) where
  out : List β
  parked : List β

namespace Reseq

/-- One arrival. -/
def arrive (key : β → Nat) (r : Reseq β) (b : β) : Reseq β :=
  if key b = r.out.length then
    ⟨r.out ++ b :: takeRun key (r.out.length + 1) r.parked, dropRun key (r.out.length + 1) r.parked⟩
  else
    ⟨r.out, pqPush key b r.parked⟩

/-- The emitted keys are `0, 1, …`; the parked ones are beyond the next key. -/
structure Ok (key : β → Nat) (r : Reseq β) : Prop where
  out : r.out.map key = List.range r.out.length
  parked : Parked key (r.out.length + 1) r.parked

/-- An arrival moves the item to the output or the queue and loses nothing. -/
theorem arrive_perm (r : Reseq β) (b : β) :
    ((arrive key r b).out ++ (arrive key r b).parked).Perm (b :: (r.out ++ r.parked)) := by
  unfold arrive
  split
  · have h := takeRun_append_dropRun key (r.out.length + 1) r.parked
    simp only [List.append_assoc, List.cons_append, h]
    exact List.perm_middle
  · exact ((perm_pqPush b r.parked).append_left r.out).trans List.perm_middle

/-- The arrival of a key not seen before keeps the resequencer in order. -/
theorem arrive_ok {r : Reseq β} (h : Ok key r) {b : β}
    (hnew : ∀ x ∈ r.out ++ r.parked, key x ≠ key b) : Ok key (arrive key r b) := by
  unfold arrive
  split
  · next hb =>
    refine ⟨?_, ?_⟩
    · simp only [List.map_append, List.map_cons, h.out, map_key_takeRun, hb, List.length_append,
        List.length_cons]
      have happ := List.range'_append_1 (s := 0) (m := r.out.length)
        (n := (takeRun key (r.out.length + 1) r.parked).length + 1)
      rw [Nat.zero_add] at happ
      rw [List.range_eq_range', List.range_eq_range', ← List.range'_succ, happ]
    · have := Parked.dropRun h.parked
      simp only [List.length_append, List.length_cons]
      rwa [show r.out.length + ((takeRun key (r.out.length + 1) r.parked).length + 1) + 1 =
        r.out.length + 1 + (takeRun key (r.out.length + 1) r.parked).length + 1 by omega]
  · next hb =>
    -- a key below the next one has been emitted already
    have hle : r.out.length + 1 ≤ key b := by
      by_contra hlt
      have hmem : key b ∈ r.out.map key := by
        rw [h.out, List.mem_range]
        omega
      obtain ⟨x, hx, hxb⟩ := List.mem_map.mp hmem
      exact hnew x (List.mem_append_left _ hx) hxb
    exact ⟨h.out, h.parked.push hle fun x hx => hnew x (List.mem_append_right _ hx)⟩

/-- The keys of an initial segment have arrived: everything is emitted. -/
theorem Ok.complete {r : Reseq β} (h : Ok key r) {n : Nat}
    (hall : ((r.out ++ r.parked).map key).Perm (List.range n)) :
    r.parked = [] ∧ r.out.length = n := by
  have hlen : r.out.length + r.parked.length = n := by
    simpa using hall.length_eq
  cases hq : r.parked with
  | nil => exact ⟨rfl, by simpa [hq] using hlen⟩
  | cons b q =>
      -- the next key is below `n`, so it arrived, yet it is neither emitted nor parked
      have hlt : r.out.length < n := by
        rw [hq, List.length_cons] at hlen
        omega
      have hmem : r.out.length ∈ (r.out ++ r.parked).map key :=
        hall.mem_iff.mpr (List.mem_range.mpr hlt)
      rw [List.map_append, List.mem_append, h.out, List.mem_range] at hmem
      obtain hmem | hmem := hmem
      · omega
      · obtain ⟨x, hx, hxk⟩ := List.mem_map.mp hmem
        have := h.parked.2 x hx
        omega

end Reseq

end CloudProfiler
