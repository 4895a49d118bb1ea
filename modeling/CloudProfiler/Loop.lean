/-!
# CloudProfiler.Loop

`while (true)` loops that end with a `break`.  The body takes the state of
the loop to the next one and says whether it broke; `loop body n` runs at
most `n` iterations and is `none` when the loop is still going by then.

A loop need not end.  `Ends` says that it does and in which state, and is
proved along the iterations: `Ends.break` for the last one, `Ends.next` for
the others.  What a loop computes then does not depend on the bound
(`Ends.loop`).

`Visits` are the states an iteration begins in.
-/

namespace CloudProfiler

section Loop

variable {σ : Type} {body : σ → σ × Bool} {s s' t : σ}

/-- At most `n` iterations of a loop. -/
def loop (body : σ → σ × Bool) : Nat → σ → Option σ
  | 0, _ => none
  | n + 1, s => if (body s).2 then some (body s).1 else loop body n (body s).1

/-- The loop entered in state `s` ends, in state `t`. -/
def Ends (body : σ → σ × Bool) (s t : σ) : Prop := ∃ n, loop body n s = some t

theorem Ends.break (h : body s = (t, true)) : Ends body s t :=
  ⟨1, by simp [loop, h]⟩

theorem Ends.next (h : body s = (s', false)) (ht : Ends body s' t) : Ends body s t := by
  obtain ⟨n, hn⟩ := ht
  exact ⟨n + 1, by simp [loop, h, hn]⟩

/-- More iterations than needed change nothing. -/
theorem loop_mono {n m : Nat} (h : loop body n s = some t) (hnm : n ≤ m) :
    loop body m s = some t := by
  induction n generalizing m s with
  | zero => exact absurd h (by simp [loop])
  | succ n ih =>
      obtain ⟨m, rfl⟩ : ∃ k, m = k + 1 := ⟨m - 1, by omega⟩
      simp only [loop] at h ⊢
      split at h
      · next hb => rw [if_pos hb, h]
      · next hb => rw [if_neg hb, ih h (by omega)]

/-- A loop that ends is run to its end by all large enough numbers of
iterations. -/
theorem Ends.loop (h : Ends body s t) : ∃ n, ∀ m ≥ n, loop body m s = some t := by
  obtain ⟨n, hn⟩ := h
  exact ⟨n, fun m hm => loop_mono hn hm⟩

/-- It ends in one state. -/
theorem Ends.unique {t' : σ} (h : Ends body s t) (h' : Ends body s t') : t = t' := by
  obtain ⟨n, hn⟩ := h.loop
  obtain ⟨m, hm⟩ := h'.loop
  exact Option.some.inj ((hn _ (Nat.le_max_left n m)).symm.trans (hm _ (Nat.le_max_right n m)))

theorem ends_break (h : body s = (s', true)) : Ends body s t ↔ t = s' :=
  ⟨fun ht => ht.unique (.break h), fun heq => heq ▸ .break h⟩

/-- A loop whose iterations use up at least `k` of a measure ends, within as
many iterations as fit in it and a last one. -/
theorem loop_isSome_of_measure {I : σ → Prop} {m : σ → Nat} {k : Nat} (hk : 0 < k)
    (hstep : ∀ s, I s → (body s).2 = false → I (body s).1 ∧ m (body s).1 + k ≤ m s) (hs : I s) :
    (loop body (m s / k + 1) s).isSome = true := by
  have hwithin : ∀ n s, I s → m s < (n + 1) * k → (loop body (n + 1) s).isSome = true := by
    intro n
    induction n with
    | zero =>
        intro s hs hm
        cases hb : (body s).2 with
        | true => simp [loop, hb]
        | false =>
            have := (hstep s hs hb).2
            omega
    | succ n ih =>
        intro s hs hm
        rw [loop]
        split
        · rfl
        · next hb =>
          obtain ⟨hI, hle⟩ := hstep s hs (Bool.eq_false_iff.mpr hb)
          rw [Nat.succ_mul] at hm
          exact ih _ hI (by omega)
  refine hwithin _ s hs ?_
  rw [Nat.mul_comm]
  exact Nat.lt_mul_div_succ (m s) hk

/-- A loop that does not break and stays where it does not break never
ends. -/
theorem loop_eq_none {I : σ → Prop} (hstep : ∀ s, I s → (body s).2 = false ∧ I (body s).1)
    (hs : I s) (n : Nat) : loop body n s = none := by
  induction n generalizing s with
  | zero => rfl
  | succ n ih =>
      obtain ⟨hb, hI⟩ := hstep s hs
      rw [loop, if_neg (by simp [hb]), ih hI]

/-- State `t` begins an iteration of the loop entered in state `s`. -/
inductive Visits (body : σ → σ × Bool) : σ → σ → Prop
  | here (s : σ) : Visits body s s
  | next {s s' t : σ} (h : body s = (s', false)) (ht : Visits body s' t) : Visits body s t

theorem visits_break (h : body s = (s', true)) : Visits body s t ↔ t = s := by
  constructor
  · intro hv
    cases hv with
    | here => rfl
    | next h' _ =>
        rw [h] at h'
        cases h'
  · rintro rfl
    exact .here t

theorem visits_next (h : body s = (s', false)) : Visits body s t ↔ t = s ∨ Visits body s' t := by
  constructor
  · intro hv
    cases hv with
    | here => exact .inl rfl
    | next h' ht =>
        rw [h] at h'
        cases h'
        exact .inr ht
  · rintro (rfl | ht)
    · exact .here t
    · exact .next h ht

end Loop

end CloudProfiler
