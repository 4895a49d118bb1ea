import Mathlib.Data.List.Basic

/-!
# CloudProfiler.Objects

Objects that are made with `new`, used through pointers, and deleted (library
layer, nothing here mentions the profiler).  Addresses are handed out in order
and never reused, so an object that was deleted can be told from a later one.
Every use of an object goes through `Objects.cell`, which fails on a pointer
that is null or points to an object that was deleted.

* `Objects.read`, `Objects.modify`, `Objects.delete` — the uses of an object;
* `Objects.modify_ok`, `Objects.delete_ok` — what they do to an object in use;
* `Objects.forall_set` — what holds of every object after one of them.
-/

namespace CloudProfiler

/-- Why the use of a pointer goes wrong. -/
inductive Fault
  | nullPointer
  | wildPointer
  | deleted
  deriving DecidableEq, Repr

/-- An object, and how often it was deleted. -/
structure Cell (α : Type) where
  val : α
  deletes : Nat
  deriving DecidableEq, Repr

/-- All objects, by address. -/
abbrev Objects (α : Type) := List (Cell α)

namespace Objects

variable {α : Type} {h : Objects α} {a : Nat} {c : Cell α} {P : Cell α → Prop}

/-- A new object, at the address `h.length`. -/
def new (h : Objects α) (v : α) : Objects α := h ++ [⟨v, 0⟩]

/-- The object that a pointer points to. -/
def cell (h : Objects α) : Option Nat → Except Fault (Nat × Cell α)
  | none => .error .nullPointer
  | some a =>
      match h[a]? with
      | none => .error .wildPointer
      | some c => if c.deletes = 0 then .ok (a, c) else .error .deleted

/-- `*p`. -/
def read (h : Objects α) (p : Option Nat) : Except Fault α := (h.cell p).map fun ac => ac.2.val

/-- An assignment to a field of `*p`. -/
def modify (h : Objects α) (p : Option Nat) (f : α → α) : Except Fault (Objects α) :=
  (h.cell p).map fun ac => h.set ac.1 ⟨f ac.2.val, ac.2.deletes⟩

/-- `delete p`; on a null pointer it does nothing. -/
def delete (h : Objects α) : Option Nat → Except Fault (Objects α)
  | none => .ok h
  | some a => (h.cell (some a)).map fun ac => h.set ac.1 ⟨ac.2.val, ac.2.deletes + 1⟩

theorem cell_ok (hc : h[a]? = some c) (hd : c.deletes = 0) : h.cell (some a) = .ok (a, c) := by
  simp [cell, hc, hd]

theorem read_ok (hc : h[a]? = some c) (hd : c.deletes = 0) : h.read (some a) = .ok c.val := by
  rw [read, cell_ok hc hd]
  rfl

@[simp]
theorem read_null : h.read none = .error .nullPointer := rfl

theorem modify_ok (hc : h[a]? = some c) (hd : c.deletes = 0) (f : α → α) :
    h.modify (some a) f = .ok (h.set a ⟨f c.val, 0⟩) := by
  rw [modify, cell_ok hc hd, ← hd]
  rfl

theorem delete_ok (hc : h[a]? = some c) (hd : c.deletes = 0) :
    h.delete (some a) = .ok (h.set a ⟨c.val, 1⟩) := by
  rw [delete, cell_ok hc hd]
  simp [Except.map, hd]

/-- What holds of the object put at an address and of all others holds of all
objects. -/
theorem forall_set (hh : ∀ c ∈ h, P c) (hc : P c) : ∀ c' ∈ h.set a c, P c' := by
  intro c' hmem
  obtain hmem | heq := List.mem_or_eq_of_mem_set hmem
  · exact hh c' hmem
  · rw [heq]
    exact hc

theorem forall_new {v : α} (hh : ∀ c ∈ h, P c) (hv : P ⟨v, 0⟩) : ∀ c ∈ h.new v, P c := by
  intro c hmem
  obtain hmem | hmem := List.mem_append.mp hmem
  · exact hh c hmem
  · rw [List.mem_singleton.mp hmem]
    exact hv

/-- An object put in the place of one that looks the same. -/
theorem any_set {p : Cell α → Bool} {c' : Cell α} (hc : h[a]? = some c) (hp : p c' = p c) :
    (h.set a c').any p = h.any p := by
  induction h generalizing a with
  | nil => cases hc
  | cons d h ih =>
      cases a with
      | zero =>
          cases hc
          simp [hp]
      | succ a =>
          simp only [List.getElem?_cons_succ] at hc
          simp [ih hc]

@[simp]
theorem any_new (v : α) : (h.new v).any (·.deletes ≠ 0) = h.any (·.deletes ≠ 0) := by simp [new]

@[simp]
theorem length_new (v : α) : (h.new v).length = h.length + 1 := by simp [new]

end Objects

end CloudProfiler
