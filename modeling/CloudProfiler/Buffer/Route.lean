import CloudProfiler.Buffer.Channel

/-!
# CloudProfiler.Buffer.Route

Which way a block takes: blocks of compressed channels go through
`compression_queue` and the compression threads and arrive in `io_queue` as
compressed copies, blocks of the other channels go to `io_queue` directly.
This holds in every run.
-/

namespace CloudProfiler

/-- The channel has been given out with `compress = z`. -/
def Closure.opensAs (z : Bool) (ch : Closure) : Prop := ch.opn ≠ .fresh ∧ ch.compress = z

/-- A compression thread works for compressed channels only. -/
def CompPc.routed (kind : Nat → Bool → Prop) : CompPc → Prop
  | .work _ p => kind p.ch true
  | .send _ p b => b.ch = p.ch ∧ kind p.ch true
  | .push _ b => kind b.ch true
  | _ => True

/-- An I/O thread has blocks of uncompressed channels in its hands. -/
def IoPc.routed (kind : Nat → Bool → Prop) : IoPc → Prop
  | .write _ p | .send _ p => kind p.ch false
  | _ => True

/-- An entry of `io_queue` is a block of an uncompressed channel or the copy
of a block of a compressed one. -/
def IoBlock.routed (kind : Nat → Bool → Prop) : IoBlock → Prop
  | .raw p => kind p.ch false
  | .packed b => kind b.ch true

/-- Blocks are where the kind of their channel sends them; `kind c z` is
"channel `c` was given out with `compress = z`". -/
structure Routes (kind : Nat → Bool → Prop) (s : State) : Prop where
  compressionQueue : ∀ p ∈ s.compressionQueue, kind p.ch true
  comp : ∀ t, (s.comp t).routed kind
  ioQueue : ∀ b ∈ s.ioQueue, b.routed kind
  io : ∀ t, (s.io t).routed kind

/-- Blocks are where their channel's `compress` flag sends them. -/
def Routed (s : State) : Prop := Routes (fun c z => (s.chan c).opensAs z) s

theorem Routes.mono {K K' : Nat → Bool → Prop} {s : State} (h : Routes K s)
    (hK : ∀ c z, K c z → K' c z) : Routes K' s where
  compressionQueue p hp := hK _ _ (h.compressionQueue p hp)
  comp t := by
    have ht := h.comp t
    cases hpc : s.comp t <;> simp only [hpc, CompPc.routed] at ht ⊢ <;> grind
  ioQueue b hb := by
    have ht := h.ioQueue b hb
    cases b <;> exact hK _ _ ht
  io t := by
    have ht := h.io t
    cases hpc : s.io t <;> simp only [hpc, IoPc.routed] at ht ⊢ <;> grind

section

variable {sq : Squash} {s s' : State} {l : Label}

/-- A channel that was given out keeps its kind. -/
theorem ChanStep.opensAs {P : Prop} {ch ch' : Closure} {z : Bool} (h : ChanStep P ch ch')
    (hz : ch.opensAs z) : ch'.opensAs z := by
  cases h <;> simp_all [Closure.opensAs, OpenPc.opening]
  all_goals grind

/-- A producer that enqueues a block has been given its channel. -/
theorem Closure.Ok.opensAs {ch : Closure} (h : ch.Ok)
    (hb : ch.log ≠ .idle ∨ ch.close ≠ .none) : ch.opensAs ch.compress := by
  refine ⟨fun hf => ?_, rfl⟩
  have := h.unbuilt (by simp [Closure.built, hf])
  simp_all

/-- What holds of all threads and of the new program counter of one. -/
theorem forall_update {α : Type} {R : α → Prop} {f : Nat → α} {a : α} (h : ∀ i, R (f i)) (ha : R a)
    (t i : Nat) : R (Function.update f t a i) := by
  by_cases hi : i = t
  · rw [hi, Function.update_self]
    exact ha
  · rw [Function.update_of_ne hi]
    exact h i

theorem IoMove.routes {K : Nat → Bool → Prop} {t : Nat} (h : Routes K s) (hm : IoMove s t s') :
    Routes K s' := by
  obtain ⟨hcq, hcomp, hioq, hio⟩ := h
  have ht := hio t
  cases hm with
  | goto hpc h => exact ⟨hcq, hcomp, hioq, forall_update hio (by cases h <;> trivial) t⟩
  | quickExit | writeFault => exact ⟨hcq, hcomp, hioq, hio⟩
  | popRaw m p q h hq =>
      rw [hq] at hioq
      exact ⟨hcq, hcomp, fun b hb => hioq b (List.mem_cons_of_mem _ hb),
        forall_update hio (by exact hioq (.raw p) List.mem_cons_self) t⟩
  | popPacked m b q k h hq hk =>
      rw [hq] at hioq
      exact ⟨hcq, hcomp, fun b hb => hioq b (List.mem_cons_of_mem _ hb),
        forall_update hio (by cases m <;> trivial) t⟩
  | popFault m b q h hq hk =>
      rw [hq] at hioq
      exact ⟨hcq, hcomp, fun b hb => hioq b (List.mem_cons_of_mem _ hb), hio⟩
  | write m p h hw =>
      rw [h] at ht
      exact ⟨hcq, hcomp, hioq, forall_update hio (by exact ht) t⟩
  | send m p h hlen => exact ⟨hcq, hcomp, hioq, forall_update hio (by cases m <;> trivial) t⟩
  | _ => exact ⟨hcq, hcomp, hioq, forall_update hio (by trivial) t⟩

theorem CompMove.routes {K : Nat → Bool → Prop} {t : Nat} (h : Routes K s)
    (hm : CompMove sq s t s') : Routes K s' := by
  obtain ⟨hcq, hcomp, hioq, hio⟩ := h
  have ht := hcomp t
  cases hm with
  | goto hpc h => exact ⟨hcq, forall_update hcomp (by cases h <;> trivial) t, hioq, hio⟩
  | pop d p q h hq =>
      rw [hq] at hcq
      exact ⟨fun p hp => hcq p (List.mem_cons_of_mem _ hp),
        forall_update hcomp (by exact hcq p List.mem_cons_self) t, hioq, hio⟩
  | work d p h =>
      rw [h] at ht
      exact ⟨hcq, forall_update hcomp (by exact ⟨rfl, ht⟩) t, hioq, hio⟩
  | send d p b h hlen =>
      rw [h] at ht
      exact ⟨hcq, forall_update hcomp (by simpa [CompPc.routed, ht.1] using ht.2) t, hioq, hio⟩
  | push d b h hlen =>
      rw [h] at ht
      refine ⟨hcq, forall_update hcomp (by cases d <;> trivial) t, fun x hx => ?_, hio⟩
      obtain hx | hx := List.mem_append.mp hx
      · exact hioq x hx
      · rw [List.mem_singleton.mp hx]
        exact ht
  | drop d b h hlen => exact ⟨hcq, forall_update hcomp (by cases d <;> trivial) t, hioq, hio⟩
  | stop h => exact ⟨hcq, forall_update hcomp (by trivial) t, hioq, hio⟩

/-- What a step does to the queues and the workers, seen with the kinds the
channels had before it. -/
theorem Move.routes (h : Routed s) (hok : ∀ c, (s.chan c).Ok) (hm : Move sq s l s') :
    Routes (fun c z => (s.chan c).opensAs z) s' := by
  have hraw : ∀ c, (s.chan c).compress = false → (s.chan c).log ≠ .idle ∨ (s.chan c).close ≠ .none →
      ∀ b ∈ s.ioQueue ++ [.raw ⟨c, (s.chan c).block⟩],
        b.routed fun c z => (s.chan c).opensAs z := by
    intro c hz hb x hx
    obtain hx | hx := List.mem_append.mp hx
    · exact h.ioQueue x hx
    · rw [List.mem_singleton.mp hx]
      simpa [IoBlock.routed, hz] using (hok c).opensAs hb
  have hcomp : ∀ c, (s.chan c).compress = true → (s.chan c).log ≠ .idle ∨ (s.chan c).close ≠ .none →
      ∀ p ∈ s.compressionQueue ++ [⟨c, (s.chan c).block⟩], (s.chan p.ch).opensAs true := by
    intro c hz hb x hx
    obtain hx | hx := List.mem_append.mp hx
    · exact h.compressionQueue x hx
    · rw [List.mem_singleton.mp hx]
      exact hz ▸ (hok c).opensAs hb
  cases hm with
  | openStep c' h' =>
      obtain ⟨hcq, hco, hioq, hio⟩ := h
      cases h' with
      | ioNew => exact ⟨hcq, hco, hioq, forall_update hio (by trivial) _⟩
      | compNew => exact ⟨hcq, forall_update hco (by trivial) _, hioq, hio⟩
      | _ => exact ⟨hcq, hco, hioq, hio⟩
  | logStep c' h' =>
      obtain ⟨hcq, hco, hioq, hio⟩ := h
      cases h' with
      | enqueueComp hl hz hlen => exact ⟨hcomp c' hz (.inl (by simp [hl])), hco, hioq, hio⟩
      | enqueueRaw hl hz hlen => exact ⟨hcq, hco, hraw c' hz (.inl (by simp [hl])), hio⟩
      | _ => exact ⟨hcq, hco, hioq, hio⟩
  | closeStep c' h' =>
      obtain ⟨hcq, hco, hioq, hio⟩ := h
      cases h' with
      | enqueueComp hl hz hlen => exact ⟨hcomp c' hz (.inr (by simp [hl])), hco, hioq, hio⟩
      | enqueueRaw hl hz hlen => exact ⟨hcq, hco, hraw c' hz (.inr (by simp [hl])), hio⟩
      | _ => exact ⟨hcq, hco, hioq, hio⟩
  | io t h' => exact h'.routes h
  | comp t h' => exact h'.routes h
  | logTS c' d hopn hlog h' => cases h' <;> exact ⟨h.compressionQueue, h.comp, h.ioQueue, h.io⟩
  | exitStep h' => cases h' <;> exact ⟨h.compressionQueue, h.comp, h.ioQueue, h.io⟩
  | _ => exact ⟨h.compressionQueue, h.comp, h.ioQueue, h.io⟩

/-- **Step lemma**: every step keeps the routes. -/
theorem Routed.step (h : Routed s) (hwf : Wf s) (hok : ∀ c, (s.chan c).Ok) (hm : Move sq s l s') :
    Routed s' :=
  (hm.routes h hok).mono fun c _ => (hm.chan hwf c).opensAs

/-- **Run lemma**: blocks are where their channel's `compress` flag sends
them. -/
theorem Reached.routed {ok : State → Label → Prop} (hr : Reached sq ok s) : Routed s := by
  refine hr.invariant_of (I := Routed) (J := fun s => Wf s ∧ ∀ c, (s.chan c).Ok)
    (fun s hs => ⟨Reached.wf hs, Reached.chanOk hs⟩) ?_ ?_
  · constructor <;> simp [State.init, CompPc.routed, IoPc.routed]
  · rintro s l s' ⟨hwf, hok⟩ h _ hs
    exact h.step hwf hok (step_move hs).2

end

end CloudProfiler
