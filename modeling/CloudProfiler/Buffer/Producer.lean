import CloudProfiler.Buffer.Ownership
import CloudProfiler.Buffer.Count
import CloudProfiler.Buffer.Route
import CloudProfiler.Buffer.Schedule

/-!
# CloudProfiler.Buffer.Producer

Who pushes on the return queues.

A return queue is a single-producer queue: at most one thread at a time may
be inside `sendBackBlockUntilSuccess` for it.  For uncompressed channels the
producer is the I/O thread on duty, and there is one.  For compressed
channels the producers are the four compression threads, and nothing keeps
two of them from holding blocks of one channel: `two_threads_return_at_once`
is a run in which they do.  `one_thread_returns` says that this is the only
way: as long as a compression thread takes a block only while no other one
holds a block of the same channel, the discipline is kept.
-/

namespace CloudProfiler

/-- The threads that send blocks back. -/
inductive Worker
  | io (t : Nat)
  | comp (t : Nat)
  deriving DecidableEq, Repr

/-- The channel for whose return queue the thread is inside
`sendBackBlockUntilSuccess`. -/
def State.sendingFor (s : State) : Worker → Option Nat
  | .io t =>
      match s.io t with
      | .send _ p => some p.ch
      | _ => none
  | .comp t =>
      match s.comp t with
      | .send _ p _ => some p.ch
      | _ => none

/-- The single-producer discipline. -/
def SingleProducer (s : State) : Prop :=
  ∀ w w' c, s.sendingFor w = some c → s.sendingFor w' = some c → w = w'

/-- The compression thread is about to pop. -/
def CompPc.popping : CompPc → Bool
  | .pop _ => true
  | _ => false

/-- A compression thread takes a block only while no compression thread
holds a block of the same channel. -/
def OneHolder (s : State) : Label → Prop
  | .comp t => (s.comp t).popping = true → ∀ p ∈ s.compressionQueue.head?,
      ∀ t' < s.compCnt, (s.comp t').hand.map Ptr.ch ≠ some p.ch
  | _ => True

/-- No two compression threads hold blocks of one channel. -/
def HoldersDiffer (s : State) : Prop :=
  ∀ t t' p p', (s.comp t).hand = some p → (s.comp t').hand = some p' → p.ch = p'.ch → t = t'

section

variable {sq : Squash} {s s' : State} {l : Label} {t : Nat}

/-- Threads that get no new block. -/
theorem HoldersDiffer.update {pc : CompPc} (h : HoldersDiffer s)
    (hpc : ∀ p, pc.hand = some p → (s.comp t).hand = some p) {f : Nat → CompPc}
    (hf : f = Function.update s.comp t pc) {t₁ t₂ : Nat} {p₁ p₂ : Ptr}
    (h₁ : (f t₁).hand = some p₁) (h₂ : (f t₂).hand = some p₂) (hch : p₁.ch = p₂.ch) : t₁ = t₂ := by
  have hback : ∀ t' p, (f t').hand = some p → (s.comp t').hand = some p := by
    intro t' p hp
    rw [hf] at hp
    by_cases ht : t' = t
    · rw [ht, Function.update_self] at hp
      exact ht ▸ hpc p hp
    · rwa [Function.update_of_ne ht] at hp
  exact h t₁ t₂ p₁ p₂ (hback t₁ p₁ h₁) (hback t₂ p₂ h₂) hch

theorem CompGoto.hand_none {pc pc' : CompPc} (h : CompGoto s pc pc') : pc'.hand = none := by
  cases h <;> rfl

theorem hand_compNext (d : Bool) : (compNext d).hand = none := by
  cases d <;> rfl

/-- **Step lemma**: under the guard the holders stay different. -/
theorem HoldersDiffer.step (h : HoldersDiffer s) (hwf : Wf s) (hg : OneHolder s l)
    (hm : Move sq s l s') : HoldersDiffer s' := by
  cases hm with
  | openStep c h' =>
      cases h' with
      | compNew i hi =>
          intro t₁ t₂ p₁ p₂
          exact h.update (by simp [CompPc.hand]) rfl
      | _ => exact h
  | comp t h' =>
      cases h' with
      | goto hpc hgo =>
          intro t₁ t₂ p₁ p₂
          exact h.update (by simp [hgo.hand_none]) rfl
      | pop d p q hpc hq =>
          -- the guard: nobody else holds a block of the channel of `p`
          have hfree : ∀ t' p', (s.comp t').hand = some p' → p'.ch ≠ p.ch := by
            intro t' p' hp' hch
            have hlt : t' < s.compCnt := hwf.comp_lt fun hu => by simp [hu, CompPc.hand] at hp'
            exact hg (by simp [hpc, CompPc.popping]) p (by simp [hq]) t' hlt (by simp [hp', hch])
          intro t₁ t₂ p₁ p₂ h₁ h₂ hch
          simp only [State.setComp] at h₁ h₂
          by_cases e₁ : t₁ = t <;> by_cases e₂ : t₂ = t
          · rw [e₁, e₂]
          · rw [e₁, Function.update_self] at h₁
            rw [Function.update_of_ne e₂] at h₂
            simp only [CompPc.hand, Option.some.injEq] at h₁
            exact absurd (h₁ ▸ hch.symm) (hfree t₂ p₂ h₂)
          · rw [e₂, Function.update_self] at h₂
            rw [Function.update_of_ne e₁] at h₁
            simp only [CompPc.hand, Option.some.injEq] at h₂
            exact absurd (h₂ ▸ hch) (hfree t₁ p₁ h₁)
          · rw [Function.update_of_ne e₁] at h₁
            rw [Function.update_of_ne e₂] at h₂
            exact h t₁ t₂ p₁ p₂ h₁ h₂ hch
      | work d p hpc =>
          intro t₁ t₂ p₁ p₂
          exact h.update (by simp [CompPc.hand, hpc]) rfl
      | send d p b hpc hlen =>
          intro t₁ t₂ p₁ p₂
          exact h.update (by simp [CompPc.hand]) rfl
      | push d b hpc hlen | drop d b hpc hlen =>
          intro t₁ t₂ p₁ p₂
          exact h.update (by simp [hand_compNext]) rfl
      | stop hpc =>
          intro t₁ t₂ p₁ p₂
          exact h.update (by simp [CompPc.hand]) rfl
  | logStep c h' | closeStep c h' => cases h' <;> exact h
  | logTS c d hopn hlog h' => cases h' <;> exact h
  | io t h' => cases h' <;> exact h
  | exitStep h' => cases h' <;> exact h
  | _ => exact h

theorem Reached.holdersDiffer (hr : Reached sq OneHolder s) : HoldersDiffer s := by
  refine hr.invariant_of (I := HoldersDiffer) (J := Wf) (fun _ => Reached.wf) ?_ ?_
  · intro t t' p p' h
    simp [State.init, CompPc.hand] at h
  · exact fun s l s' hwf h hg hs => h.step hwf hg (step_move hs).2

/-- **One thread at a time sends blocks back.**  In every run in which a
compression thread takes a block only while no compression thread holds a
block of the same channel, no two threads are ever inside
`sendBackBlockUntilSuccess` for the same return queue. -/
theorem one_thread_returns (hr : Reached sq OneHolder s) : SingleProducer s := by
  have hio : ∀ t c, s.sendingFor (.io t) = some c →
      (s.io t).onDuty = true ∧ (s.chan c).opensAs false := by
    intro t c ht
    have hrt := hr.routed.io t
    simp only [State.sendingFor] at ht
    split at ht
    case h_1 m p hpc =>
      rw [hpc] at hrt ⊢
      simp only [Option.some.injEq] at ht
      exact ⟨rfl, ht ▸ hrt⟩
    case h_2 => cases ht
  have hcomp : ∀ t c, s.sendingFor (.comp t) = some c →
      (∃ p, (s.comp t).hand = some p ∧ p.ch = c) ∧ (s.chan c).opensAs true := by
    intro t c ht
    have hrt := hr.routed.comp t
    simp only [State.sendingFor] at ht
    split at ht
    case h_1 d p b hpc =>
      rw [hpc] at hrt ⊢
      simp only [Option.some.injEq] at ht
      exact ⟨⟨p, rfl, ht⟩, ht ▸ hrt.2⟩
    case h_2 => cases ht
  have hkind : ∀ c, (s.chan c).opensAs false → (s.chan c).opensAs true → False := by
    rintro c ⟨-, h⟩ ⟨-, h'⟩
    rw [h] at h'
    cases h'
  intro w w' c hw hw'
  cases w with
  | io t =>
      cases w' with
      | io t' => rw [hr.counted.onDuty_unique hr.wf (hio t c hw).1 (hio t' c hw').1]
      | comp t' => exact (hkind c (hio t c hw).2 (hcomp t' c hw').2).elim
  | comp t =>
      cases w' with
      | io t' => exact (hkind c (hio t' c hw').2 (hcomp t c hw).2).elim
      | comp t' =>
          obtain ⟨p, hp, hpc⟩ := (hcomp t c hw).1
          obtain ⟨p', hp', hpc'⟩ := (hcomp t' c hw').1
          rw [hr.holdersDiffer t t' p p' hp hp' (hpc.trans hpc'.symm)]

instance : DecidableRel OneHolder := fun s l =>
  match l with
  | .comp t => inferInstanceAs (Decidable ((s.comp t).popping = true →
      ∀ p ∈ s.compressionQueue.head?, ∀ t' < s.compCnt, (s.comp t').hand.map Ptr.ch ≠ some p.ch))
  | .openChannel _ _ | .openOther | .openStep _ | .finishOpen _ _ _ | .logTS _ _ | .logStep _
  | .closeChannel _ | .closeStep _ | .io _ | .atExit | .signal | .exitStep => .isTrue trivial

/-- Channel 0 is opened compressed, starting the I/O thread and the
compression threads. -/
def compOpenRun : List Label :=
  .openChannel .zstd true :: List.replicate 11 (.openStep 0) ++
    [.finishOpen 0 true fun _ _ => ⟨0, 0, 0, 0, 0, 0⟩]

/-- Channel 0 is opened uncompressed and channel 1 compressed, and three
records are logged on each. -/
def mixedRun : List Label :=
  openRun ++ .openChannel .zstd true :: List.replicate 9 (.openStep 1) ++
    [.finishOpen 1 true fun _ _ => someRecord] ++ logRun 0 someRecords ++ logRun 1 someRecords

/-- The closing block of a channel is the only one: compression thread 0
sends it back, and no other thread sends one. -/
theorem one_thread_returns_closing :
    ∃ s, Reached copySquash OneHolder s ∧ s.sendingFor (.comp 0) = some 0 ∧
      ∀ w, s.sendingFor w = some 0 → w = .comp 0 := by
  obtain ⟨s, hr, hs⟩ := Reached.of_run copySquash OneHolder
    (compOpenRun ++ [.closeChannel 0, .closeStep 0, .closeStep 0, .comp 0, .comp 0, .comp 0,
      .comp 0]) (fun s => decide (s.sendingFor (.comp 0) = some 0)) (by decide +kernel)
  have hs := of_decide_eq_true hs
  exact ⟨s, hr, hs, fun w hw => one_thread_returns hr w (.comp 0) 0 hw hs⟩

/-- **Two threads return blocks at once.**  The producer of channel 0 fills
two blocks, compression threads 0 and 1 take one each, and both are inside
`sendBackBlockUntilSuccess` for the return queue of channel 0; then both
push. -/
theorem two_threads_return_at_once :
    ∃ s, Reached copySquash anyStep s ∧ ¬ SingleProducer s ∧
      s.sendingFor (.comp 0) = some 0 ∧ s.sendingFor (.comp 1) = some 0 ∧
      (exec (step copySquash) anyStep s [.comp 0, .comp 1]).isSome := by
  have hall : ∀ c, LetsLog anyStep c := fun c => ⟨fun _ _ _ => trivial, fun _ => trivial⟩
  obtain ⟨s, hr, hs⟩ := Reached.of_run copySquash anyStep compOpenRun
    (fun s => decide (s.fault = false ∧ s.exited = false ∧ (s.chan 0).opn = .ready ∧
      (s.chan 0).log = .idle ∧ (s.chan 0).handlerF = .bufferIdentityHandler ∧
      (s.chan 0).compress = true ∧ (s.chan 0).block = 0 ∧ (s.chan 0).blockCnt = 1 ∧
      (s.chan 0).queue = 1 :: 2 :: (List.range 32).drop 3 ∧ ((s.chan 0).blocks 0).blockIdx = 0 ∧
      ((s.chan 0).blocks 1).blockIdx = 0 ∧ s.compressionQueue = [] ∧ s.comp 0 = .readStop ∧
      s.comp 1 = .readStop ∧ s.stopCompThread = false ∧ s.numBufCompCh = 1)) (by decide +kernel)
  obtain ⟨hf, he, hready, hlog, hh, hcomp, hblock, hcnt, hq, h0, h1, hcq, hc0, hc1, hst,
    hnum⟩ := of_decide_eq_true hs
  obtain ⟨s₁, hr₁, h₁⟩ := Reached.rotate (hall 0) hr ⟨⟨hf, he⟩, hready, hlog, hh⟩
    (by simp [Closure.cur, hblock, h0, bufferBlockSize]) hcomp (by simp [hcq, compressQueueSize]) hq
    (by rw [hcnt]; decide)
  obtain ⟨s₂, hr₂, h₂⟩ := Reached.rotate (hall 0) hr₁ h₁.loggable
    (by simp [h₁.blockIdx, hblock, h1, bufferBlockSize]) h₁.compress
    (by simp [h₁.compressionQueue, hcq, compressQueueSize]) h₁.queue
    (by rw [h₁.blockCnt, hcnt]; decide)
  have hcq₂ : s₂.compressionQueue = [⟨0, 0⟩, ⟨0, 1⟩] := by
    rw [h₂.compressionQueue, h₁.compressionQueue, hcq, hblock, h₁.block]
    rfl
  have hp₂ : ∀ t, s.comp t = .readStop → Polling s₂ t := fun t ht =>
    ⟨h₂.loggable.live, by rw [h₂.comp, h₁.comp, ht],
      by rw [h₂.stopCompThread, h₁.stopCompThread, hst],
      by rw [h₂.numBufCompCh, h₁.numBufCompCh, hnum]; decide⟩
  have hr₃ := Reached.compress (t := 0) (fun _ => trivial) hr₂ (hp₂ 0 hc0) hcq₂
  have hr₄ := Reached.compress (t := 1) (q := []) (fun _ => trivial) hr₃
    (by
      obtain ⟨hlive, hpc, hstop, hnum⟩ := hp₂ 1 hc1
      exact ⟨hlive, by simpa using hpc, hstop, hnum⟩) rfl
  have hroom : (s₂.chan 0).queue.length + 1 < returnQueueSize := by
    rw [h₂.queue]
    decide
  have hlive := h₂.loggable.live
  refine ⟨_, hr₄, fun h => ?_, ?_, ?_, ?_⟩
  · have := h (.comp 0) (.comp 1) 0 (by simp [State.sendingFor]) (by simp [State.sendingFor])
    simp at this
  · simp [State.sendingFor]
  · simp [State.sendingFor]
  · simp [exec, anyStep, step, compStep, sendBackBlock, hlive, hroom, Nat.lt_of_succ_lt hroom]

end

end CloudProfiler
