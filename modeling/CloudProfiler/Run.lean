/-!
# CloudProfiler.Run

Guarded runs of a labelled transition function (library layer, nothing here
mentions the profiler).

A system is a partial step function `step : σ → ℓ → Option σ` and an initial
state.  `Reach step init ok` is the set of states reached by runs all of
whose steps satisfy the guard `ok`, a relation between the state *before* the
step and its label.  The guard is how a discipline of the callers, or a
condition under which a schedule is harmless, enters a statement; the system
itself is never restricted.

* `Reach.invariant` — the induction rule: holds initially, kept by every
  guarded step, hence holds in every reached state;
* `Reach.mono`, `Reach.mono_of` — a stronger guard reaches fewer states;
* `Trace` — the same runs with the steps they took;
* `exec` / `Reach.exec` — run a concrete list of labels, checking the guard
  on the way, and read the result as a reached state.
-/

namespace CloudProfiler

universe u v

variable {σ : Type u} {ℓ : Type v} {step : σ → ℓ → Option σ} {init s s' : σ}
  {ok ok' : σ → ℓ → Prop}

/-- States reached from `init` by steps whose source state and label satisfy
`ok`. -/
inductive Reach (step : σ → ℓ → Option σ) (init : σ) (ok : σ → ℓ → Prop) : σ → Prop
  | init : Reach step init ok init
  | step {s s' : σ} {l : ℓ} :
      Reach step init ok s → ok s l → step s l = some s' → Reach step init ok s'

/-- The guard that restricts nothing. -/
def anyStep (_ : σ) (_ : ℓ) : Prop := True

instance : DecidableRel (anyStep : σ → ℓ → Prop) := fun _ _ => .isTrue trivial

/-- **Invariant rule**, relative to a fact `J` already known of every reached
state: what holds initially and is kept by every guarded step holds in every
reached state. -/
theorem Reach.invariant_of {I J : σ → Prop} (hJ : ∀ s, Reach step init ok s → J s)
    (hinit : I init)
    (hstep : ∀ s l s', J s → I s → ok s l → step s l = some s' → I s')
    (hr : Reach step init ok s) : I s := by
  induction hr with
  | init => exact hinit
  | step hr hok hs ih => exact hstep _ _ _ (hJ _ hr) ih hok hs

/-- **Invariant rule**: what holds initially and is kept by every guarded
step holds in every reached state. -/
theorem Reach.invariant {I : σ → Prop} (hinit : I init)
    (hstep : ∀ s l s', I s → ok s l → step s l = some s' → I s')
    (hr : Reach step init ok s) : I s :=
  Reach.invariant_of (J := fun _ => True) (fun _ _ => trivial) hinit
    (fun s l s' _ => hstep s l s') hr

/-- A stronger guard reaches fewer states; it need only be stronger where it
can be met. -/
theorem Reach.mono_of (h : ∀ s l, Reach step init ok s → ok s l → ok' s l)
    (hr : Reach step init ok s) : Reach step init ok' s := by
  induction hr with
  | init => exact .init
  | step hr hok hs ih => exact .step ih (h _ _ hr hok) hs

/-- A stronger guard reaches fewer states. -/
theorem Reach.mono (h : ∀ s l, ok s l → ok' s l) (hr : Reach step init ok s) :
    Reach step init ok' s :=
  hr.mono_of fun s l _ => h s l

/-- A run from a state that a run has reached. -/
theorem Reach.trans (hr : Reach step init ok s) (h : Reach step s ok s') :
    Reach step init ok s' := by
  induction h with
  | init => exact hr
  | step _ hok hs ih => exact .step ih hok hs

/-! ## runs with their history -/

/-- Guarded runs that remember the steps taken, in order: the state before
each step and its label. -/
inductive Trace (step : σ → ℓ → Option σ) (init : σ) (ok : σ → ℓ → Prop) : List (σ × ℓ) → σ → Prop
  | init : Trace step init ok [] init
  | step {tr : List (σ × ℓ)} {s s' : σ} {l : ℓ} : Trace step init ok tr s → ok s l →
      step s l = some s' → Trace step init ok (tr ++ [(s, l)]) s'

/-- A run with its history ends in a reached state. -/
theorem Trace.reach {tr : List (σ × ℓ)} (h : Trace step init ok tr s) : Reach step init ok s := by
  induction h with
  | init => exact .init
  | step _ hok hs ih => exact .step ih hok hs

/-- Every step of a run was taken in a reached state. -/
theorem Trace.reach_of_mem {tr : List (σ × ℓ)} (h : Trace step init ok tr s) {p : σ × ℓ}
    (hp : p ∈ tr) : Reach step init ok p.1 := by
  induction h with
  | init => cases hp
  | step ht _ _ ih =>
      obtain hp | hp := List.mem_append.mp hp
      · exact ih hp
      · rw [List.mem_singleton.mp hp]
        exact ht.reach

/-- A stronger guard allows fewer runs. -/
theorem Trace.mono_of {tr : List (σ × ℓ)} (h : ∀ s l, Reach step init ok s → ok s l → ok' s l)
    (ht : Trace step init ok tr s) : Trace step init ok' tr s := by
  induction ht with
  | init => exact .init
  | step ht hok hs ih => exact .step ih (h _ _ ht.reach hok) hs

/-- The beginning of a run is a run. -/
theorem Trace.of_prefix {tr tr' : List (σ × ℓ)} (h : Trace step init ok tr s) (hp : tr' <+: tr) :
    ∃ s', Trace step init ok tr' s' := by
  induction h with
  | init =>
      rw [List.prefix_nil.mp hp]
      exact ⟨_, .init⟩
  | step ht hok hs ih =>
      obtain rfl | hp := List.prefix_concat_iff.mp hp
      · exact ⟨_, .step ht hok hs⟩
      · exact ih hp

/-! ## running a list of labels -/

/-- Run the labels in order, checking the guard before each step. -/
def exec (step : σ → ℓ → Option σ) (ok : σ → ℓ → Prop) [DecidableRel ok] :
    σ → List ℓ → Option σ
  | s, [] => some s
  | s, l :: ls => if ok s l then (step s l).bind (exec step ok · ls) else none

/-- A guarded run from a reached state ends in a reached state. -/
theorem Reach.exec [DecidableRel ok] {ls : List ℓ} (hr : Reach step init ok s)
    (h : exec step ok s ls = some s') : Reach step init ok s' := by
  induction ls generalizing s with
  | nil =>
      simp only [CloudProfiler.exec, Option.some.injEq] at h
      subst h
      exact hr
  | cons l ls ih =>
      simp only [CloudProfiler.exec] at h
      split at h
      · next hok =>
        cases hs : step s l with
        | none => simp [hs] at h
        | some s₁ =>
            rw [hs, Option.bind_some] at h
            exact ih (.step hr hok hs) h
      · contradiction

/-- A run whose labels the guard lets pass in any state. -/
theorem Reach.exec_of (hr : Reach step init ok s) (ls : List ℓ) (hok : ∀ l ∈ ls, ∀ s, ok s l)
    (h : CloudProfiler.exec step anyStep s ls = some s') : Reach step init ok s' := by
  induction ls generalizing s with
  | nil =>
      simp only [CloudProfiler.exec, Option.some.injEq] at h
      subst h
      exact hr
  | cons l ls ih =>
      simp only [CloudProfiler.exec, anyStep] at h
      obtain ⟨s₁, hs, h⟩ := Option.bind_eq_some_iff.mp h
      exact ih (.step hr (hok l List.mem_cons_self s) hs)
        (fun l hl => hok l (List.mem_cons_of_mem _ hl)) h

/-- A decidable fact about the end of a guarded run, as a reached state. -/
theorem Reach.of_exec_any [DecidableRel ok] (ls : List ℓ) (p : σ → Bool)
    (h : (CloudProfiler.exec step ok init ls).any p = true) :
    ∃ s, Reach step init ok s ∧ p s = true := by
  cases he : CloudProfiler.exec step ok init ls with
  | none => simp [he] at h
  | some s => exact ⟨s, Reach.init.exec he, by simpa [he] using h⟩

/-- The steps of a run on fixed labels. -/
def history (step : σ → ℓ → Option σ) : σ → List ℓ → List (σ × ℓ)
  | _, [] => []
  | s, l :: ls => (s, l) :: ((step s l).map fun s' => history step s' ls).getD []

/-- A guarded run on fixed labels, with its history. -/
theorem Trace.exec [DecidableRel ok] {tr : List (σ × ℓ)} {ls : List ℓ}
    (hr : Trace step init ok tr s) (h : CloudProfiler.exec step ok s ls = some s') :
    Trace step init ok (tr ++ history step s ls) s' := by
  induction ls generalizing s tr with
  | nil =>
      simp only [CloudProfiler.exec, Option.some.injEq] at h
      subst h
      simpa [history] using hr
  | cons l ls ih =>
      simp only [CloudProfiler.exec] at h
      split at h
      · next hok =>
        cases hs : step s l with
        | none => simp [hs] at h
        | some s₁ =>
            rw [hs, Option.bind_some] at h
            have := ih (.step hr hok hs) h
            simpa [history, hs] using this
      · contradiction

/-- A decidable fact about a guarded run, as a run with its history. -/
theorem Trace.of_exec_any [DecidableRel ok] (ls : List ℓ) (p : List (σ × ℓ) → σ → Bool)
    (h : (CloudProfiler.exec step ok init ls).any (p (history step init ls)) = true) :
    ∃ tr s, Trace step init ok tr s ∧ p tr s = true := by
  cases he : CloudProfiler.exec step ok init ls with
  | none => simp [he] at h
  | some s => exact ⟨_, s, by simpa using Trace.init.exec he, by simpa [he] using h⟩

end CloudProfiler
