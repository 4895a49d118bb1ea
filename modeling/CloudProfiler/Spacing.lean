import CloudProfiler.Run
import Mathlib.Algebra.Order.Ring.Int
import Mathlib.Data.List.Chain

/-!
# CloudProfiler.Spacing

The times of what a run emits (library layer, nothing here mentions the
profiler).  Every step is taken at a time, and may emit; the last time alone
says how long the run took, not that nothing was emitted in a burst.

* `emittedAt` — one time for each item emitted;
* `Emits` — a step that emits one item at most, and then waits;
* `Trace.stamped` — so any two in a row are apart by the wait.
-/

namespace CloudProfiler

section Times

variable {σ ℓ τ : Type} (step : σ → ℓ → Option σ) (time : ℓ → Int) (emitted : σ → List τ)

/-- The times of the steps that emitted, one for each item: those of the
beginning at `start`, and then those each step has added. -/
def emittedAt (start : Int) (init : σ) (tr : List (σ × ℓ)) : List Int :=
  (emitted init).map (fun _ => start) ++
    tr.flatMap fun p => (step p.1 p.2).elim [] fun s =>
      ((emitted s).drop (emitted p.1).length).map fun _ => time p.2

theorem emittedAt_concat {start : Int} {init s s' : σ} {tr : List (σ × ℓ)} {l : ℓ}
    (h : step s l = some s') :
    emittedAt step time emitted start init (tr ++ [(s, l)]) =
      emittedAt step time emitted start init tr ++
        ((emitted s').drop (emitted s).length).map fun _ => time l := by
  simp [emittedAt, h]

end Times

/-- At `now` nothing is emitted, or one item, which was due at `next`; another
one is then due `gap` later. -/
def Emits {τ : Type} (gap : Int) (out out' : List τ) (now next next' : Int) : Prop :=
  (out' = out ∧ next ≤ next') ∨ ∃ x, out' = out ++ [x] ∧ next ≤ now ∧ next' = now + gap

/-- The times of the items, in the time from `start` to `now`: two in a row are
apart by `gap`, and so is the next one, which is due at `next`. -/
structure Stamped {τ : Type} (gap start : Int) (out : List τ) (now next : Int)
    (times : List Int) : Prop where
  length : times.length = out.length
  chain : times.IsChain fun t t' => t + gap ≤ t'
  within : ∀ t ∈ times, start ≤ t ∧ t ≤ now
  last : ∀ t ∈ times.getLast?, t + gap ≤ next
  le : start ≤ now

section Runs

variable {σ ℓ τ : Type} {gap start now now' next next' : Int} {out out' : List τ}
  {times : List Int}

theorem Emits.append_left (l : List τ) (h : Emits gap out out' now next next') :
    Emits gap (l ++ out) (l ++ out') now next next' := by
  obtain ⟨rfl, hle⟩ | ⟨x, rfl, hdue, rfl⟩ := h
  · exact .inl ⟨rfl, hle⟩
  · exact .inr ⟨x, (List.append_assoc ..).symm, hdue, rfl⟩

theorem stamped_nil (h : start ≤ now) : Stamped gap start ([] : List τ) now next [] where
  length := rfl
  chain := List.isChain_nil
  within := nofun
  last := nofun
  le := h

theorem Stamped.emits (h : Stamped gap start out now next times) (hle : now ≤ now')
    (he : Emits gap out out' now' next next') :
    Stamped gap start out' now' next' (times ++ (out'.drop out.length).map fun _ => now') := by
  have hstart := h.le.trans hle
  have hwithin : ∀ t ∈ times, start ≤ t ∧ t ≤ now' := fun t ht =>
    ⟨(h.within t ht).1, (h.within t ht).2.trans hle⟩
  obtain ⟨rfl, hnext⟩ | ⟨x, rfl, hdue, rfl⟩ := he
  · simp only [List.drop_length, List.map_nil, List.append_nil]
    exact ⟨h.length, h.chain, hwithin, fun t ht => (h.last t ht).trans hnext, hstart⟩
  · simp only [List.drop_left, List.map_cons, List.map_nil]
    refine ⟨by simp [h.length], ?_, ?_, ?_, hstart⟩
    · refine h.chain.append (List.isChain_singleton now') fun t ht t' ht' => ?_
      obtain rfl : now' = t' := by simpa using ht'
      exact (h.last t ht).trans hdue
    · simpa [or_imp, forall_and, hstart] using hwithin
    · simp

/-- **No bursts**: where every step emits one item at most and waits after it,
any two items of a run that follow each other are apart by the wait. -/
theorem Trace.stamped {step : σ → ℓ → Option σ} {init s : σ} {ok : σ → ℓ → Prop} {time : ℓ → Int}
    {emitted : σ → List τ} (clock : σ → Int) {next : σ → Int} {tr : List (σ × ℓ)}
    (hinit : Stamped gap start (emitted init) (clock init) (next init)
      ((emitted init).map fun _ => start))
    (hstep : ∀ s l s', Reach step init ok s → ok s l → step s l = some s' →
      clock s ≤ time l ∧ clock s' = time l ∧
        Emits gap (emitted s) (emitted s') (time l) (next s) (next s'))
    (hr : Trace step init ok tr s) :
    Stamped gap start (emitted s) (clock s) (next s)
      (emittedAt step time emitted start init tr) := by
  induction hr with
  | init => simpa [emittedAt] using hinit
  | step ht hok hs ih =>
      obtain ⟨hle, hclock, hemits⟩ := hstep _ _ _ ht.reach hok hs
      rw [emittedAt_concat step time emitted hs, hclock]
      exact ih.emits hle hemits

end Runs

end CloudProfiler
