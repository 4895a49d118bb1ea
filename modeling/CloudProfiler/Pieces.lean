import Mathlib.Data.List.Basic

/-!
# CloudProfiler.Pieces

A list cut into pieces of one length (library layer, nothing here mentions the
profiler).

* `pieces_concat` — an element behind the others goes to the piece that its
  number gives;
* `length_piece` — and to the end of it;
* `pieces_of_getElem?` — the pieces of a list that is given by a function.
-/

namespace CloudProfiler

namespace Pieces

variable {α : Type} {n m t : Nat} {xs : List α} {x : α}

/-- Piece `t`, of length `n`. -/
def piece (n : Nat) (xs : List α) (t : Nat) : List α := (xs.drop (t * n)).take n

/-- The first `m` pieces. -/
def pieces (n m : Nat) (xs : List α) : List (List α) := (List.range m).map (piece n xs)

@[simp] theorem length_pieces : (pieces n m xs).length = m := by simp [pieces]

theorem getElem?_pieces (h : t < m) : (pieces n m xs)[t]? = some (piece n xs t) := by
  simp [pieces, h]

theorem pieces_nil : pieces n m ([] : List α) = List.replicate m [] := by
  refine List.eq_replicate_iff.mpr ⟨length_pieces, fun l hl => ?_⟩
  obtain ⟨t, -, rfl⟩ := List.mem_map.mp hl
  simp [piece]

/-- A piece in front of the last one is full. -/
theorem piece_concat_of_lt (h : t < xs.length / n) : piece n (xs ++ [x]) t = piece n xs t := by
  have hle : (t + 1) * n ≤ xs.length := Nat.mul_le_of_le_div _ _ _ h
  rw [Nat.add_one_mul] at hle
  rw [piece, List.drop_append_of_le_length (by omega),
    List.take_append_of_le_length (by rw [List.length_drop]; omega), piece]

/-- The last piece is not. -/
theorem piece_concat (hn : 0 < n) :
    piece n (xs ++ [x]) (xs.length / n) = piece n xs (xs.length / n) ++ [x] := by
  have hdiv := Nat.div_add_mod' xs.length n
  have hmod := Nat.mod_lt xs.length hn
  rw [piece, List.drop_append_of_le_length (by omega), List.take_of_length_le, piece,
    List.take_of_length_le]
  · rw [List.length_drop]
    omega
  · rw [List.length_append, List.length_drop, List.length_singleton]
    omega

theorem piece_concat_of_gt (hn : 0 < n) (h : xs.length / n < t) :
    piece n (xs ++ [x]) t = piece n xs t := by
  have hlt : xs.length < t * n := (Nat.div_lt_iff_lt_mul hn).mp h
  rw [piece, piece, List.drop_of_length_le, List.drop_of_length_le (by omega)]
  rw [List.length_append, List.length_singleton]
  omega

theorem length_piece (hn : 0 < n) : (piece n xs (xs.length / n)).length = xs.length % n := by
  have hdiv := Nat.div_add_mod' xs.length n
  have hmod := Nat.mod_lt xs.length hn
  rw [piece, List.length_take, List.length_drop]
  omega

theorem pieces_concat (hn : 0 < n) :
    pieces n m (xs ++ [x]) =
      (pieces n m xs).set (xs.length / n) (piece n xs (xs.length / n) ++ [x]) := by
  refine List.ext_getElem (by simp) fun t ht ht' => ?_
  simp only [pieces, List.getElem_set, List.getElem_map, List.getElem_range]
  split
  · next heq => rw [← heq, piece_concat hn]
  · next hne =>
    obtain hlt | hgt := Nat.lt_or_gt_of_ne hne
    · exact piece_concat_of_gt hn hlt
    · exact piece_concat_of_lt hgt

/-- An element behind all pieces. -/
theorem pieces_concat_of_le (h : n * m ≤ xs.length) :
    pieces n m (xs ++ [x]) = pieces n m xs := by
  obtain rfl | hn := Nat.eq_zero_or_pos n
  · simp [pieces, piece]
  · rw [pieces_concat hn, List.set_eq_of_length_le]
    rw [length_pieces, Nat.le_div_iff_mul_le hn, Nat.mul_comm]
    exact h

/-- The pieces, element by element. -/
theorem pieces_of_getElem? {f : Nat → α} (h : ∀ k < n * m, xs[k]? = some (f k)) :
    pieces n m xs = (List.range m).map fun t => (List.range n).map fun j => f (t * n + j) := by
  refine List.map_congr_left fun t ht => List.ext_getElem? fun j => ?_
  have hle : (t + 1) * n ≤ m * n := Nat.mul_le_mul_right n (List.mem_range.mp ht)
  rw [Nat.add_one_mul, Nat.mul_comm m n] at hle
  by_cases hj : j < n
  · rw [piece, List.getElem?_take_of_lt hj, List.getElem?_drop, h _ (by omega)]
    simp [hj]
  · rw [piece, List.getElem?_take_eq_none (by omega)]
    simp [hj]

end Pieces

end CloudProfiler
