import CloudProfiler.Buffer.Pipeline

/-!
# CloudProfiler.Buffer.Defined

Runs without undefined behaviour.  Three things lead to it: a channel opened
with a format or a number that its path cannot serve (`Opens`), a producer
that runs out of block ids (`IdsLeft`), and a channel closed while its file
is being opened.  Without them, and with a codec that does not fail, the I/O
thread never comes upon a block that it cannot write.

* `writeCompressedBlock_isSome`, `writeCompressedBlock_pending` — what the
  I/O thread needs of a block, and of the blocks pending;
* `Defined.step` — the step lemma;
* `Reached.defined` — no run reaches a fault.
-/

namespace CloudProfiler

/-! ## the I/O thread's tables -/

/-- The loop leaves pending what it does not write. -/
theorem writePending_sub {n n' : Nat} {f f' : Ofstream} {q q' : List Packed}
    (h : writePending n f q = some (n', f', q')) : q' ⊆ q := by
  induction q generalizing n f with
  | nil => cases h; exact List.Subset.refl _
  | cons t q ih =>
      simp only [writePending] at h
      split at h
      · simp only [Option.bind_eq_some_iff] at h
        obtain ⟨f₁, -, n₁, -, h⟩ := h
        exact List.subset_cons_of_subset t (ih h)
      · cases h
        exact List.Subset.refl _

/-- What is pending was pending, or is the block that has arrived. -/
theorem writeCompressedBlock_pending {k k' : Sink} {b : Packed}
    (h : writeCompressedBlock k b = some k') (c : Nat) : k'.pending c ⊆ b :: k.pending c := by
  by_cases hc : c = b.ch
  · subst hc
    unfold writeCompressedBlock at h
    split at h
    · split at h
      · simp only [Option.bind_eq_some_iff, Option.map_eq_some_iff, Prod.exists] at h
        obtain ⟨f, -, n, -, n', f', q, hq, rfl⟩ := h
        simpa using List.subset_cons_of_subset b (writePending_sub hq)
      · cases h
        simpa using (perm_pqPush b (k.pending b.ch)).subset
    · contradiction
  · rw [(writeCompressedBlock_frame h hc).pending]
    exact List.subset_cons_self _ _

/-- A block that can be written is written, if those pending can be. -/
theorem writeCompressedBlock_isSome {k : Sink} {b : Packed}
    (hidx : b.ch < nextBlockSize ∧ b.ch < k.pendingSize) (hb : b.Writable)
    (hp : ∀ x ∈ k.pending b.ch, x.Writable) : (writeCompressedBlock k b).isSome := by
  unfold writeCompressedBlock
  rw [if_pos hidx]
  split
  · next hid =>
    rw [writeCompressed_eq _ hb.1, Option.bind_some, nextId_eq (hid ▸ hb.2), Option.bind_some,
      writePending_eq _ _ _ hp]
    rfl
  · rfl

/-! ## the condition -/

/-- The format has no TSC, an uncompressed channel gets a `write_handler_f`,
and the number of a compressed one is an index of the reorder tables. -/
def Opens (f : LogFormat) (compress : Bool) (c : Nat) : Prop :=
  f.isTsc = false ∧ (compress = false → writeHandlerOf f ≠ none) ∧
    (compress = true → c < nextBlockSize)

instance (f : LogFormat) (compress : Bool) (c : Nat) : Decidable (Opens f compress c) :=
  inferInstanceAs (Decidable (_ ∧ _))

/-- The channels opened can be served. -/
def Supported (s : State) : Label → Prop
  | .openChannel f z => Opens f z s.nextChannel
  | _ => True

instance : DecidableRel Supported := fun s l =>
  match l with
  | .openChannel f z => inferInstanceAs (Decidable (Opens f z s.nextChannel))
  | .openOther | .openStep _ | .finishOpen _ _ _ | .logTS _ _ | .logStep _ | .closeChannel _
  | .closeStep _ | .io _ | .comp _ | .atExit | .signal | .exitStep => .isTrue trivial

/-- `block_cnt` is not incremented beyond `INT_MAX`. -/
def IdsLeft (s : State) : Label → Prop
  | .logStep c => (s.chan c).log = .setId → (s.chan c).blockCnt < intMax
  | _ => True

instance : DecidableRel IdsLeft := fun s l =>
  match l with
  | .logStep c => inferInstanceAs
      (Decidable ((s.chan c).log = .setId → (s.chan c).blockCnt < intMax))
  | .openChannel _ _ | .openOther | .openStep _ | .finishOpen _ _ _ | .logTS _ _
  | .closeChannel _ | .closeStep _ | .io _ | .comp _ | .atExit | .signal | .exitStep =>
      .isTrue trivial

/-- `closeAllChannels` does not come to a channel whose file is being opened. -/
def ClosesOpened (s : State) : Prop :=
  match s.exit with
  | .closeAll _ i false => ∀ c ∈ s.chInfo[i]?, (s.chan c).opn ≠ .openFile
  | _ => True

instance : DecidablePred ClosesOpened := fun s => by
  unfold ClosesOpened
  split <;> infer_instance

/-! ## the invariant -/

/-- The ids of the blocks of a closure have a successor. -/
def Closure.IdsFit (ch : Closure) : Prop := ∀ k, (ch.blocks k).blockId < intMax

theorem Closure.IdsFit.step {P : Prop} {ch ch' : Closure} (h : ch.IdsFit) (hs : ChanStep P ch ch') :
    ch'.IdsFit := by
  have h0 : 0 < intMax := by decide
  intro k
  have hk := h k
  cases hs with
  | setId | setCloseFile | reset | write =>
      simp only [Closure.setBlock, Closure.cur, Function.update_apply]
      grind [BlockData.writeOnBlock, BlockData.writeOnBlockTsc, Closure.IdsFit]
  | finish | opened => exact h0
  | _ => exact hk

/-- What is known of every state. -/
structure Known (s : State) : Prop where
  wf : Wf s
  ok : ∀ c, (s.chan c).Ok
  routed : Routed s
  tables : HasTables s
  ids : ∀ c, (s.chan c).IdsFit
  kind : ∀ c, (s.chan c).opn ≠ .fresh → Opens (s.chan c).format (s.chan c).compress c

/-- Every block on its way can be written by the I/O thread. -/
structure Defined (s : State) : Prop where
  packed : ∀ b, PackedAt s b → b.Writable
  pending : ∀ c, ∀ b ∈ s.sink.pending c, b.Writable
  fault : s.fault = false

section Step

variable {sq : Squash} {s s' : State} {l : Label} {c : Nat} {ok : State → Label → Prop}

/-- A number is given out by `openChannel`. -/
theorem Move.opened (hm : Move sq s l s') (hf : (s.chan c).opn = .fresh)
    (hf' : (s'.chan c).opn ≠ .fresh) :
    ∃ f z, l = .openChannel f z ∧ c = s.nextChannel ∧ s'.chan c = .new f z .numBufCh := by
  have hupd : ∀ (c' : Nat) (ch : Closure), s'.chan = Function.update s.chan c' ch →
      (ch.opn = (s.chan c').opn ∨ (s.chan c').opn ≠ .fresh) → False := fun c' ch he ho => by
    rw [he] at hf'
    by_cases hc : c = c'
    · subst hc
      rw [Function.update_self] at hf'
      obtain ho | ho := ho
      · exact hf' (ho.trans hf)
      · exact ho hf
    · rw [Function.update_of_ne hc] at hf'
      exact hf' hf
  cases hm with
  | openChannel f z =>
      by_cases hc : c = s.nextChannel
      · exact ⟨f, z, rfl, hc, by simp [hc]⟩
      · simp [Function.update_of_ne hc, hf] at hf'
  | openStep c' h' => cases h' <;> exact (hupd _ _ rfl (.inr (by simp [*]))).elim
  | finishOpen c' ok mem hopn => exact (hupd _ _ rfl (.inr (by simp [hopn]))).elim
  | logTS c' d hopn hlog h' =>
      cases h' with
      | null => exact absurd hf hf'
      | _ => exact (hupd _ _ rfl (.inl rfl)).elim
  | logStep c' h' =>
      cases h' with
      | setIdFault => exact absurd hf hf'
      | _ => exact (hupd _ _ rfl (.inl rfl)).elim
  | closeStep c' h' => cases h' <;> exact (hupd _ _ rfl (.inl rfl)).elim
  | closeChannel => exact (hupd _ _ rfl (.inl rfl)).elim
  | io t h' =>
      cases h' with
      | write | send => exact (hupd _ _ rfl (.inl rfl)).elim
      | _ => exact absurd hf hf'
  | comp t h' =>
      cases h' with
      | work | send => exact (hupd _ _ rfl (.inl rfl)).elim
      | _ => exact absurd hf hf'
  | exitStep h' =>
      cases h' with
      | close => exact (hupd _ _ rfl (.inl rfl)).elim
      | _ => exact absurd hf hf'
  | _ => exact absurd hf hf'

/-- A channel is of the kind it was opened as. -/
theorem Reached.opened_as {P : LogFormat → Bool → Nat → Prop}
    (hopen : ∀ s f z, ok s (.openChannel f z) → P f z s.nextChannel)
    (hr : Reached sq ok s) (hc : (s.chan c).opn ≠ .fresh) :
    P (s.chan c).format (s.chan c).compress c := by
  revert hc
  refine hr.invariant_of (J := Wf)
    (I := fun s => (s.chan c).opn ≠ .fresh → P (s.chan c).format (s.chan c).compress c)
    (fun _ => Reached.wf) (fun hc => absurd rfl hc) ?_
  intro s l s' hwf ih hg hs hc
  have hm := (step_move hs).2
  by_cases hf : (s.chan c).opn = .fresh
  · obtain ⟨f, z, rfl, rfl, he⟩ := hm.opened hf hc
    rw [he]
    exact hopen s f z hg
  · obtain ⟨h1, h2, -⟩ := (hm.chan hwf c).same_kind hf
    rw [h1, h2]
    exact ih hf

/-- Every reached state is known, if the channels opened can be served. -/
theorem Reached.known (hopen : ∀ s f z, ok s (.openChannel f z) → Opens f z s.nextChannel)
    (hr : Reached sq ok s) : Known s where
  wf := Reached.wf hr
  ok := Reached.chanOk hr
  routed := Reached.routed hr
  tables := Reached.hasTables hr
  ids _ := hr.chan_invariant (P := fun _ => True)
    (by intro k; simp [Closure.new, BlockData.new, intMax]) (fun _ _ _ _ => trivial)
    fun _ _ h => h.step
  kind _ := Reached.opened_as hopen hr

/-- The copy a compression thread makes can be written. -/
theorem Known.writable (hk : Known s) (hsq : sq.Total) (p : Ptr) (cf : Bool) :
    Packed.Writable ⟨p.ch, ((s.chan p.ch).blocks p.k).blockId, cf,
      compressBlock sq (s.chan p.ch).format ((s.chan p.ch).blocks p.k).records⟩ :=
  ⟨hsq _ _, hk.ids p.ch p.k⟩

/-- A copy is made by a compression thread, and then handed on. -/
theorem CompMove.packed {t : Nat} {b : Packed} (hm : CompMove sq s t s') (hb : PackedAt s' b) :
    PackedAt s b ∨ ∃ p : Ptr, b = ⟨p.ch, ((s.chan p.ch).blocks p.k).blockId,
      ((s.chan p.ch).blocks p.k).closeFile,
      compressBlock sq (s.chan p.ch).format ((s.chan p.ch).blocks p.k).records⟩ := by
  have hpc : ∀ {t' : Nat} {pc pc' : CompPc}, Function.update s.comp t pc t' = pc' →
      t' = t ∧ pc' = pc ∨ s.comp t' = pc' := by
    intro t' pc pc' he
    by_cases ht : t' = t
    · subst ht
      exact .inl ⟨rfl, by simpa using he.symm⟩
    · exact .inr (by rwa [Function.update_of_ne ht] at he)
  have hold : ∀ {pc : CompPc}, (∀ d p b, pc ≠ .send d p b) → (∀ d b, pc ≠ .push d b) →
      s'.comp = Function.update s.comp t pc → s'.ioQueue = s.ioQueue → PackedAt s b := by
    intro pc h1 h2 hcomp hq
    obtain ⟨t', d, p, ht⟩ | ⟨t', d, ht⟩ | hq' := hb
    · rw [hcomp] at ht
      exact .inl ⟨t', d, p, (hpc ht).resolve_left fun he => h1 d p b he.2.symm⟩
    · rw [hcomp] at ht
      exact .inr (.inl ⟨t', d, (hpc ht).resolve_left fun he => h2 d b he.2.symm⟩)
    · exact .inr (.inr (hq ▸ hq'))
  cases hm with
  | goto _ h => cases h <;> exact .inl (hold (by simp) (by simp) rfl rfl)
  | pop d p q h hq => exact .inl (hold (by simp) (by simp) rfl rfl)
  | stop h => exact .inl (hold (by simp) (by simp) rfl rfl)
  | drop d b' h => exact .inl (hold (by cases d <;> simp [compNext])
      (by cases d <;> simp [compNext]) rfl rfl)
  | work d p h =>
      obtain ⟨t', d', p', ht⟩ | ⟨t', d', ht⟩ | hq := hb
      · obtain ⟨-, he⟩ | he := hpc ht
        · obtain ⟨-, -, rfl⟩ := CompPc.send.inj he
          exact .inr ⟨p, rfl⟩
        · exact .inl (.inl ⟨t', d', p', he⟩)
      · exact .inl (.inr (.inl ⟨t', d', (hpc ht).resolve_left fun he => by simp at he⟩))
      · exact .inl (.inr (.inr hq))
  | send d p b' h hlen =>
      obtain ⟨t', d', p', ht⟩ | ⟨t', d', ht⟩ | hq := hb
      · exact .inl (.inl ⟨t', d', p', (hpc ht).resolve_left fun he => by simp at he⟩)
      · obtain ⟨-, he⟩ | he := hpc ht
        · obtain ⟨-, rfl⟩ := CompPc.push.inj he
          exact .inl (.inl ⟨t, d, p, h⟩)
        · exact .inl (.inr (.inl ⟨t', d', he⟩))
      · exact .inl (.inr (.inr hq))
  | push d b' h hlen =>
      have hne : ∀ {pc'}, compNext d = pc' →
          (∀ d p b, pc' ≠ .send d p b) ∧ ∀ d b, pc' ≠ .push d b := by
        rintro _ rfl
        cases d <;> simp [compNext]
      obtain ⟨t', d', p', ht⟩ | ⟨t', d', ht⟩ | hq := hb
      · exact .inl (.inl ⟨t', d', p',
          (hpc ht).resolve_left fun he => (hne he.2.symm).1 d' p' b rfl⟩)
      · exact .inl (.inr (.inl ⟨t', d',
          (hpc ht).resolve_left fun he => (hne he.2.symm).2 d' b rfl⟩))
      · obtain hq | hq := List.mem_append.mp hq
        · exact .inl (.inr (.inr hq))
        · cases List.mem_singleton.mp hq
          exact .inl (.inr (.inl ⟨t, d, h⟩))

/-- A step that makes no copy and leaves the tables alone. -/
theorem Defined.frame (h : Defined s) (hcomp : s'.comp = s.comp)
    (hq : ∀ b, .packed b ∈ s'.ioQueue → .packed b ∈ s.ioQueue)
    (hpend : s'.sink.pending = s.sink.pending) (hf : s'.fault = s.fault) : Defined s' where
  packed b hb := h.packed b (by
    obtain ⟨t, d, p, ht⟩ | ⟨t, d, ht⟩ | hb := hb
    · exact .inl ⟨t, d, p, hcomp ▸ ht⟩
    · exact .inr (.inl ⟨t, d, hcomp ▸ ht⟩)
    · exact .inr (.inr (hq b hb)))
  pending := by rw [hpend]; exact h.pending
  fault := hf.trans h.fault

/-- The steps of an `openChannel` call. -/
theorem OpenMove.defined (h : Defined s) (hm : OpenMove s c s') : Defined s' := by
  cases hm with
  | compNew i ho =>
      refine ⟨fun b hb => h.packed b ?_, h.pending, h.fault⟩
      have hnew : ∀ {t : Nat} {pc : CompPc}, Function.update s.comp s.compCnt .readStop t = pc →
          pc ≠ .readStop → s.comp t = pc := by
        intro t pc he hne
        by_cases ht : t = s.compCnt
        · exact absurd (by simpa [ht] using he.symm) hne
        · rwa [Function.update_of_ne ht] at he
      obtain ⟨t, d, p, ht⟩ | ⟨t, d, ht⟩ | hb := hb
      · exact .inl ⟨t, d, p, hnew ht (by simp)⟩
      · exact .inr (.inl ⟨t, d, hnew ht (by simp)⟩)
      · exact .inr (.inr hb)
  | _ => exact h.frame rfl (fun _ hb => hb) rfl rfl

/-- What a producer enqueues on `io_queue` is no compressed copy. -/
theorem packed_mem_concat_raw {q : List IoBlock} {p : Ptr} {b : Packed}
    (h : .packed b ∈ q ++ [.raw p]) : .packed b ∈ q := by
  simpa using h

/-- The steps of a logging thread. -/
theorem LogMove.defined (h : Defined s) (hids : IdsLeft s (.logStep c)) (hm : LogMove s c s') :
    Defined s' := by
  cases hm with
  | setIdFault hl hcnt => exact absurd (hids hl) hcnt
  | enqueueRaw => exact h.frame rfl (fun _ => packed_mem_concat_raw) rfl rfl
  | _ => exact h.frame rfl (fun _ hb => hb) rfl rfl

/-- The steps of an I/O thread: it can write what it pops. -/
theorem IoMove.defined {t : Nat} (h : Defined s) (hk : Known s) (hm : IoMove s t s') :
    Defined s' := by
  have hpop : ∀ {x q}, s.ioQueue = x :: q → ∀ b, .packed b ∈ q → .packed b ∈ s.ioQueue :=
    fun hq b hb => hq ▸ List.mem_cons_of_mem _ hb
  cases hm with
  | popRaw m p q ht hq => exact h.frame rfl (hpop hq) rfl rfl
  | popPacked m b q k ht hq hw =>
      have hb : b.Writable := h.packed b (.inr (.inr (by simp [hq])))
      refine ⟨fun x hx => h.packed x ?_, fun c x hx => ?_, h.fault⟩
      · exact hx.imp_right fun hx => hx.imp_right (hpop hq x)
      · obtain rfl | hx := List.mem_cons.mp (writeCompressedBlock_pending hw c hx)
        · exact hb
        · exact h.pending c x hx
  | popFault m b q ht hq hw =>
      have hb : b.Writable := h.packed b (.inr (.inr (by simp [hq])))
      have hroute : (s.chan b.ch).opensAs true := hk.routed.ioQueue (.packed b) (by simp [hq])
      have hch := (hk.kind b.ch hroute.1).2.2 hroute.2
      have hsize := hk.tables t (by simp [ht]) (by simp [ht])
      have := writeCompressedBlock_isSome ⟨hch, Nat.lt_of_lt_of_le hch hsize⟩ hb (h.pending b.ch)
      simp [hw] at this
  | writeFault m p ht hw =>
      have hroute : (s.chan p.ch).opensAs false := by simpa [ht, IoPc.routed] using hk.routed.io t
      have hset := (hk.kind p.ch hroute.1).2.1 hroute.2
      rw [← (hk.ok p.ch).writer] at hset
      exact absurd hw.2 hset
  | _ => exact h.frame rfl (fun _ hb => hb) rfl rfl

/-- **Step lemma**: no step leads to undefined behaviour, and what is on its
way stays fit to be written. -/
theorem Defined.step (h : Defined s) (hk : Known s) (hsq : sq.Total) (hids : IdsLeft s l)
    (hopened : l = .exitStep → ClosesOpened s) (hm : Move sq s l s') : Defined s' := by
  cases hm with
  | openStep c h' => exact h'.defined h
  | logStep c h' => exact h'.defined h hids
  | closeStep c h' =>
      cases h' with
      | enqueueRaw => exact h.frame rfl (fun _ => packed_mem_concat_raw) rfl rfl
      | _ => exact h.frame rfl (fun _ hb => hb) rfl rfl
  | logTS c d hopn hlog h' => cases h' <;> exact h.frame rfl (fun _ hb => hb) rfl rfl
  | io t h' => exact h'.defined h hk
  | comp t h' =>
      refine ⟨fun b hb => ?_, ?_, ?_⟩
      · obtain hb | ⟨p, rfl⟩ := h'.packed hb
        · exact h.packed b hb
        · exact hk.writable hsq p _
      · cases h' <;> exact h.pending
      · cases h' <;> exact h.fault
  | exitStep h' =>
      cases h' with
      | closeFault m i c hpc hi hopn =>
          have hne := hopened rfl
          rw [ClosesOpened, hpc] at hne
          exact absurd hopn (hne c hi)
      | _ => exact h.frame rfl (fun _ hb => hb) rfl rfl
  | _ => exact h.frame rfl (fun _ hb => hb) rfl rfl

/-- **Run lemma**: a run whose channels can be served, whose producers do not
run out of ids and whose exit handlers find no channel half opened, reaches
no undefined behaviour. -/
theorem Reached.defined (hsq : sq.Total)
    (hopen : ∀ s f z, ok s (.openChannel f z) → Opens f z s.nextChannel)
    (hids : ∀ s l, ok s l → IdsLeft s l)
    (hopened : ∀ s, Reached sq ok s → ok s .exitStep → ClosesOpened s)
    (hr : Reached sq ok s) : s.fault = false := by
  have h : Defined s := by
    refine hr.invariant_of (I := Defined)
      (J := fun s => Known s ∧ (ok s .exitStep → ClosesOpened s)) (fun s hs => ⟨Reached.known hopen hs, hopened s hs⟩) ?_ ?_
    · exact ⟨by simp [PackedAt, State.init], by simp [State.init, Sink.init], rfl⟩
    · rintro s l s' ⟨hk, hopened⟩ h hg hs
      exact h.step hk hsq (hids s l hg) (fun hl => hopened (hl ▸ hg)) (step_move hs).2
  exact h.fault

end Step

end CloudProfiler
