import Mathlib.Data.List.Basic
import Mathlib.Algebra.BigOperators.Group.List.Basic
import Mathlib.Algebra.GroupWithZero.Nat

/-!
# CloudProfiler.RunLength

Run-length encoding of the zeros of a series of samples (library layer,
nothing here mentions the profiler).  A sample has a time and a value; samples
of value zero are not recorded but counted, and the count is written before
the next value that is recorded, or when the series ends.

* `encode k xs` — what is written for the samples `xs` after `k` zeros, without
  the zeros at the end, which are `pending k xs`;
* `encode_concat`, `pending_concat` — one more sample;
* `decode_encode` — what is written determines the value of every sample.
-/

namespace CloudProfiler

namespace RunLength

universe u v

variable {τ : Type u} {ν : Type v}

/-- What is written. -/
inductive Entry (τ : Type u) (ν : Type v)
  | zeros (n : Nat)
  | value (t : τ) (x : ν)
  deriving DecidableEq, Repr

/-- A run of zeros, unless it is empty. -/
def run (k : Nat) : List (Entry τ ν) := if k = 0 then [] else [.zeros k]

variable [Zero ν]

/-- The values of the samples an entry stands for. -/
def Entry.values : Entry τ ν → List ν
  | .zeros n => List.replicate n 0
  | .value _ x => [x]

/-- The number of samples an entry stands for. -/
def Entry.weight : Entry τ ν → Nat
  | .zeros n => n
  | .value _ _ => 1

def decode (es : List (Entry τ ν)) : List ν := es.flatMap Entry.values

@[simp] theorem decode_append (es fs : List (Entry τ ν)) :
    decode (es ++ fs) = decode es ++ decode fs :=
  List.flatMap_append

@[simp] theorem decode_cons (e : Entry τ ν) (es : List (Entry τ ν)) :
    decode (e :: es) = e.values ++ decode es :=
  List.flatMap_cons

@[simp] theorem decode_run (k : Nat) : decode (run k : List (Entry τ ν)) = List.replicate k 0 := by
  unfold run
  split
  · next h => simp [h, decode]
  · simp [decode, Entry.values]

/-- The entries stand for as many samples as they have values. -/
theorem length_decode (es : List (Entry τ ν)) :
    (decode es).length = (es.map Entry.weight).sum := by
  induction es with
  | nil => rfl
  | cons e es ih =>
      rw [decode_cons, List.length_append, ih, List.map_cons, List.sum_cons]
      cases e <;> simp [Entry.values, Entry.weight]

variable [DecidableEq ν]

/-- What is written for the samples, after `k` zeros. -/
def encode : Nat → List (τ × ν) → List (Entry τ ν)
  | _, [] => []
  | k, x :: xs => if x.2 = 0 then encode (k + 1) xs else run k ++ .value x.1 x.2 :: encode 0 xs

/-- The zeros that are not written yet. -/
def pending : Nat → List (τ × ν) → Nat
  | k, [] => k
  | k, x :: xs => if x.2 = 0 then pending (k + 1) xs else pending 0 xs

/-- One more sample is written unless it is zero. -/
theorem encode_concat (k : Nat) (xs : List (τ × ν)) (x : τ × ν) :
    encode k (xs ++ [x]) =
      encode k xs ++ if x.2 = 0 then [] else run (pending k xs) ++ [.value x.1 x.2] := by
  induction xs generalizing k with
  | nil => simp [encode, pending]
  | cons y xs ih =>
      simp only [List.cons_append, encode, pending]
      split
      · exact ih (k + 1)
      · rw [ih 0, List.append_assoc, List.cons_append]

theorem pending_concat (k : Nat) (xs : List (τ × ν)) (x : τ × ν) :
    pending k (xs ++ [x]) = if x.2 = 0 then pending k xs + 1 else 0 := by
  induction xs generalizing k with
  | nil => simp [pending]
  | cons y xs ih =>
      simp only [List.cons_append, pending]
      split
      · exact ih (k + 1)
      · exact ih 0

/-- **What is written determines the value of every sample**, once the last
zeros are written. -/
theorem decode_encode (k : Nat) (xs : List (τ × ν)) :
    decode (encode k xs ++ run (pending k xs)) = List.replicate k 0 ++ xs.map Prod.snd := by
  induction xs generalizing k with
  | nil => simp [encode, pending]
  | cons x xs ih =>
      simp only [encode, pending, List.map_cons]
      split
      · next hx =>
        rw [ih (k + 1), hx, List.replicate_succ', List.append_assoc, List.singleton_append]
      · rw [List.append_assoc, List.cons_append, decode_append, decode_run, decode_cons, ih 0]
        simp [Entry.values]

end RunLength

end CloudProfiler
