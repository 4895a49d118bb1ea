import CloudProfiler.Buffer.Refine

/-!
# CloudProfiler.Buffer.Pipeline

A compressed channel as a pipeline: the blocks its producer enqueues go
through `compression_queue`, the hands of the compression threads and
`io_queue` to the resequencer of the I/O thread.

`underway` counts how often a block id occurs between the producer and the
I/O thread, and `Pipeline` says that every id given to an enqueued block
occurs exactly once, underway or at the resequencer, and that what travels
under an id is the block enqueued with it.

* `Closure.Sends.step` — what the producer enqueued stays what it is;
* `Pipeline.step` — every step of every party keeps the pipeline, as long as
  a compressed copy finds a free node in `io_queue`;
* `Reached.pipeline` — the invariant along runs.
-/

namespace CloudProfiler

/-! ## what the producer enqueued -/

/-- The `i`-th block the producer enqueued holds the records `ds` and carries
`close_file` exactly if it is the closing block. -/
def Closure.Sends (ch : Closure) (i : Nat) (ds : List LogData) (cf : Bool) : Prop :=
  ch.sent[i]? = some ds ∧ (cf = true ↔ ch.closeSent ∧ i + 1 = ch.sent.length)

/-- `b` is the compressed copy of the block the producer enqueued under the
id of `b`. -/
def Closure.Copied (sq : Squash) (ch : Closure) (b : Packed) : Prop :=
  ∃ ds, ch.Sends b.blockId ds b.closeFile ∧ b.image = compressBlock sq ch.format ds

section Sends

variable {sq : Squash} {ch ch' : Closure} {i : Nat} {ds : List LogData} {cf : Bool} {b : Packed}

theorem Closure.Sends.lt (h : ch.Sends i ds cf) : i < ch.sent.length :=
  (List.getElem?_eq_some_iff.mp h.1).1

/-- What was enqueued stays what it is. -/
theorem Closure.Sends.step (h : ch.Sends i ds cf) (hok : ch.Ok) (halone : ch.Alone)
    (hs : ChanStep (ch.log = .idle) ch ch') : ch'.Sends i ds cf := by
  obtain ⟨hget, hcf⟩ := h
  have hlt := (List.getElem?_eq_some_iff.mp hget).1
  have hunb := hok.unbuilt
  have hcl := hok.closing
  cases hs <;> simp only [Closure.Sends, Closure.closeSent, Closure.setBlock, Closure.new,
    Closure.built, Closure.Alone] at * <;> grind [OpenPc.opening]

theorem Closure.Copied.step (h : ch.Copied sq b) (hok : ch.Ok) (halone : ch.Alone)
    (hs : ChanStep (ch.log = .idle) ch ch') : ch'.Copied sq b := by
  obtain ⟨ds, hsends, himg⟩ := h
  have hne : ch.opn ≠ .fresh := by
    intro hf
    have hnil := (hok.unbuilt (by simp [Closure.built, hf])).2.2.1
    have := hsends.lt
    simp [hnil] at this
  exact ⟨ds, hsends.step hok halone hs, by rw [(hs.same_kind hne).1, himg]⟩

end Sends

/-- A TSC channel that has not logged yet has enqueued nothing. -/
def Closure.FirstIdle (ch : Closure) : Prop :=
  ch.format.isTsc = true → ch.firstLogging = true → ch.log = .idle ∧ ch.sent = []

theorem Closure.FirstIdle.step {P : Prop} {ch ch' : Closure} (hok : ch.Ok) (h : ch.FirstIdle)
    (hs : ChanStep P ch ch') : ch'.FirstIdle := by
  have hcl := hok.closing
  have hw := hok.writing
  have hunb := hok.unbuilt
  have hh := hok.handler
  cases hs <;> simp only [Closure.FirstIdle, Closure.setBlock, Closure.new, Closure.built] at * <;>
    grind [OpenPc.opening, handlerOf_eq_buffer, handlerOf_eq_tsc]

/-! ## places -/

/-- The id of the `k`-th block. -/
def Closure.idAt (ch : Closure) (k : Nat) : Nat := (ch.blocks k).blockId

/-- The block is one of channel `c` and has id `i`. -/
def Ptr.carries (ids : Nat → Nat) (c i : Nat) (p : Ptr) : Bool := decide (p.ch = c ∧ ids p.k = i)

/-- The copy is one of a block of channel `c` with id `i`. -/
def Packed.carries (c i : Nat) (b : Packed) : Bool := decide (b.ch = c ∧ b.blockId = i)

/-- The entry of `io_queue` is such a copy. -/
def IoBlock.carries (c i : Nat) : IoBlock → Bool
  | .raw _ => false
  | .packed b => b.carries c i

/-- How often a compression thread has id `i` of channel `c` in its hands. -/
def CompPc.carries (ids : Nat → Nat) (c i : Nat) : CompPc → Nat
  | .work _ p => (p.carries ids c i).toNat
  | .send _ _ b | .push _ b => (b.carries c i).toNat
  | _ => 0

/-- How often id `i` of channel `c` is on its way from the producer to the
I/O thread. -/
def underway (s : State) (c i : Nat) : Nat :=
  s.compressionQueue.countP (Ptr.carries (s.chan c).idAt c i) +
    tally (CompPc.carries (s.chan c).idAt c i) s.compCnt s.comp +
    s.ioQueue.countP (IoBlock.carries c i)

/-- Block `k` of channel `c` waits for its compression. -/
def RawAt (s : State) (c k : Nat) : Prop :=
  ⟨c, k⟩ ∈ s.compressionQueue ∨ ∃ t d, s.comp t = .work d ⟨c, k⟩

/-- The compressed copy `b` is on its way to the I/O thread. -/
def PackedAt (s : State) (b : Packed) : Prop :=
  (∃ t d p, s.comp t = .send d p b) ∨ (∃ t d, s.comp t = .push d b) ∨ .packed b ∈ s.ioQueue

/-! ## the invariant -/

/-- The blocks of the compressed channel `c` between the producer and the
file: the I/O thread's tables are those of the resequencer `r`, whose output
went into the file `f₀`. -/
structure Pipeline (sq : Squash) (s : State) (c : Nat) (f₀ : Ofstream) (r : Reseq Packed) :
    Prop where
  tracks : Tracks f₀ s.sink c r
  inOrder : r.Ok Packed.blockId
  once : ∀ i, underway s c i + ((r.out ++ r.parked).map Packed.blockId).count i =
    if i < (s.chan c).sent.length then 1 else 0
  raw : ∀ k, RawAt s c k → (s.chan c).Sends ((s.chan c).blocks k).blockId
    ((s.chan c).blocks k).records ((s.chan c).blocks k).closeFile
  packed : ∀ b, b.ch = c → PackedAt s b → (s.chan c).Copied sq b
  arrived : ∀ b ∈ r.out ++ r.parked, b.ch = c ∧ (s.chan c).Copied sq b
  file : (s.chan c).opn = .ready →
    ∃ pre, f₀ = ⟨pre, true, 0⟩ ∧ ((s.chan c).format.isTsc = false → pre = [])

/-- What is known of a channel that is compressed or not given out yet. -/
structure Zipped (s : State) (c : Nat) : Prop where
  wf : Wf s
  routed : Routed s
  ok : (s.chan c).Ok
  alone : (s.chan c).Alone
  tidy : (s.chan c).Tidy
  first : (s.chan c).FirstIdle
  part : Partitioned s c
  kind : (s.chan c).opn = .fresh ∨ (s.chan c).compress = true

section Places

variable {sq : Squash} {s s' : State} {c i k t : Nat} {f₀ : Ofstream} {r : Reseq Packed}

theorem RawAt.inFlight_pos (h : RawAt s c k) (hwf : Wf s) : 0 < inFlight s ⟨c, k⟩ := by
  obtain h | ⟨t, d, h⟩ := h
  · have := List.count_pos_iff.mpr h
    simp only [inFlight]
    omega
  · exact CloudProfiler.inFlight_pos (t := t) hwf (.inr (by simp [h, CompPc.hand]))

/-- The current block does not wait for its compression. -/
theorem RawAt.ne_block (h : RawAt s c k) (hz : Zipped s c) (hown : (s.chan c).owns) :
    k ≠ (s.chan c).block := by
  rintro rfl
  have hpos := h.inFlight_pos hz.wf
  rw [(hz.part.current hown).2] at hpos
  exact Nat.lt_irrefl 0 hpos

/-- Without its blocks, a channel has none on their way. -/
theorem Zipped.not_rawAt (hz : Zipped s c) (hb : ¬ (s.chan c).built) : ¬ RawAt s c k := by
  intro h
  have hpos := h.inFlight_pos hz.wf
  have hocc := hz.part k
  simp only [occurrences, hb, false_and, if_false] at hocc
  omega

/-- Only the ids of the blocks waiting for compression matter. -/
theorem underway_congr (hcq : s'.compressionQueue = s.compressionQueue) (hcomp : s'.comp = s.comp)
    (hcnt : s'.compCnt = s.compCnt) (hioq : s'.ioQueue = s.ioQueue)
    (hids : ∀ k, RawAt s c k → (s'.chan c).idAt k = (s.chan c).idAt k) :
    underway s' c i = underway s c i := by
  have hptr : ∀ p : Ptr, (p.ch = c → RawAt s c p.k) →
      p.carries (s'.chan c).idAt c i = p.carries (s.chan c).idAt c i := by
    intro p hp
    by_cases hc : p.ch = c
    · simp only [Ptr.carries, hids p.k (hp hc)]
    · simp only [Ptr.carries, hc, false_and]
  simp only [underway, hcq, hcnt, hioq, hcomp]
  congr 2
  · refine List.countP_congr fun p hp => ?_
    rw [hptr p fun hc => .inl (by rw [← hc]; exact hp)]
  · refine tally_congr fun t _ => ?_
    cases hpc : s.comp t with
    | work d p =>
        simp only [CompPc.carries]
        rw [hptr p fun hc => .inr ⟨t, d, by rw [hpc, ← hc]⟩]
    | _ => rfl

/-- A step that leaves the closure's ids alone. -/
theorem idAt_reset (f : Nat → Closure) (p : Ptr) :
    (Function.update f p.ch ((f p.ch).setBlock p.k { (f p.ch).blocks p.k with blockIdx := 0 })
      c).idAt = (f c).idAt := by
  funext k
  by_cases hc : c = p.ch
  · subst hc
    by_cases hk : k = p.k
    · subst hk
      simp [Closure.idAt]
    · simp [Closure.idAt, Function.update_of_ne hk]
  · rw [Function.update_of_ne hc]

theorem idAt_sendBack (f : Nat → Closure) (p : Ptr) :
    (Function.update f p.ch { f p.ch with queue := (f p.ch).queue ++ [p.k] } c).idAt =
      (f c).idAt := by
  by_cases hc : c = p.ch
  · rw [hc, Function.update_self]
    rfl
  · rw [Function.update_of_ne hc]

end Places

/-! ## steps that keep the pipeline -/

section Carry

variable {sq : Squash} {s s' : State} {c k t : Nat} {f₀ : Ofstream} {r : Reseq Packed}

/-- Nothing was enqueued, nothing is on its way. -/
theorem Pipeline.empty (h : Pipeline sq s c f₀ r) (hnil : (s.chan c).sent = []) :
    r = ⟨[], []⟩ ∧ ∀ i, underway s c i = 0 := by
  have hr : r.out ++ r.parked = [] := List.eq_nil_iff_forall_not_mem.mpr fun b hb => by
    obtain ⟨-, ds, hsends, -⟩ := h.arrived b hb
    have := hsends.lt
    simp [hnil] at this
  refine ⟨?_, fun i => ?_⟩
  · obtain ⟨out, parked⟩ := r
    simpa using hr
  · have := h.once i
    simp only [hr, hnil, List.map_nil, List.count_nil, List.length_nil, Nat.not_lt_zero,
      if_false] at this
    omega

/-- What the producer enqueued stays underway, or where it is, when a step
enqueues nothing and brings nothing to the I/O thread. -/
theorem Pipeline.carryTo {f₁ : Ofstream} (h : Pipeline sq s c f₀ r) (hz : Zipped s c)
    (hs : ChanStep ((s.chan c).log = .idle) (s.chan c) (s'.chan c))
    (hsent : (s'.chan c).sent = (s.chan c).sent) (hunder : ∀ i, underway s' c i = underway s c i)
    (hraw : ∀ k, RawAt s' c k → RawAt s c k ∧ (s'.chan c).blocks k = (s.chan c).blocks k)
    (hpacked : ∀ b, b.ch = c → PackedAt s' b → PackedAt s b ∨ (s.chan c).Copied sq b)
    (htracks : Tracks f₁ s'.sink c r) (hfile : (s'.chan c).opn = .ready →
      ∃ pre, f₁ = ⟨pre, true, 0⟩ ∧ ((s'.chan c).format.isTsc = false → pre = [])) :
    Pipeline sq s' c f₁ r := by
  refine ⟨htracks, h.inOrder, fun i => ?_, fun k hk => ?_, fun b hb hk => ?_,
    fun b hb => ⟨(h.arrived b hb).1, (h.arrived b hb).2.step hz.ok hz.alone hs⟩, hfile⟩
  · rw [hunder, hsent]
    exact h.once i
  · obtain ⟨hk, hblk⟩ := hraw k hk
    rw [hblk]
    exact (h.raw k hk).step hz.ok hz.alone hs
  · obtain hk | hk := hpacked b hb hk
    · exact (h.packed b hb hk).step hz.ok hz.alone hs
    · exact hk.step hz.ok hz.alone hs

/-- The file is that of the pipeline before a step that does not touch it. -/
theorem Pipeline.sameFile (h : Pipeline sq s c f₀ r)
    (hs : ChanStep ((s.chan c).log = .idle) (s.chan c) (s'.chan c))
    (hready : (s'.chan c).opn = .ready → (s.chan c).opn = .ready)
    (hr : (s'.chan c).opn = .ready) :
    ∃ pre, f₀ = ⟨pre, true, 0⟩ ∧ ((s'.chan c).format.isTsc = false → pre = []) := by
  have hr := hready hr
  rw [(hs.same_kind (by simp [hr])).1]
  exact h.file hr

/-- Steps that enqueue nothing and bring nothing to the I/O thread. -/
theorem Pipeline.carry (h : Pipeline sq s c f₀ r) (hz : Zipped s c)
    (hs : ChanStep ((s.chan c).log = .idle) (s.chan c) (s'.chan c))
    (hsent : (s'.chan c).sent = (s.chan c).sent) (hunder : ∀ i, underway s' c i = underway s c i)
    (hraw : ∀ k, RawAt s' c k → RawAt s c k ∧ (s'.chan c).blocks k = (s.chan c).blocks k)
    (hpacked : ∀ b, b.ch = c → PackedAt s' b → PackedAt s b ∨ (s.chan c).Copied sq b)
    (hsink : SameAt s.sink s'.sink c)
    (hready : (s'.chan c).opn = .ready → (s.chan c).opn = .ready) : Pipeline sq s' c f₀ r :=
  h.carryTo hz hs hsent hunder hraw hpacked (h.tracks.congr hsink) (h.sameFile hs hready)

/-- Steps that move nothing: only the closure and the file change, and no
block waiting for its compression with them. -/
theorem Pipeline.keepTo {f₁ : Ofstream} (h : Pipeline sq s c f₀ r) (hz : Zipped s c)
    (hs : ChanStep ((s.chan c).log = .idle) (s.chan c) (s'.chan c))
    (hsent : (s'.chan c).sent = (s.chan c).sent)
    (hblk : ∀ k, RawAt s c k → (s'.chan c).blocks k = (s.chan c).blocks k)
    (hq : s'.compressionQueue = s.compressionQueue ∧ s'.comp = s.comp ∧ s'.compCnt = s.compCnt ∧
      s'.ioQueue = s.ioQueue) (htracks : Tracks f₁ s'.sink c r)
    (hfile : (s'.chan c).opn = .ready →
      ∃ pre, f₁ = ⟨pre, true, 0⟩ ∧ ((s'.chan c).format.isTsc = false → pre = [])) :
    Pipeline sq s' c f₁ r := by
  obtain ⟨hcq, hcomp, hcnt, hioq⟩ := hq
  have hraw : ∀ k, RawAt s' c k → RawAt s c k := fun k hk => by
    simpa only [RawAt, hcq, hcomp] using hk
  refine h.carryTo hz hs hsent (fun i => underway_congr hcq hcomp hcnt hioq fun k hk => ?_)
    (fun k hk => ⟨hraw k hk, hblk k (hraw k hk)⟩) (fun b hb hk => .inl ?_) htracks hfile
  · rw [Closure.idAt, hblk k hk, Closure.idAt]
  · simpa only [PackedAt, hcomp, hioq] using hk

/-- Steps that move nothing and leave the file alone. -/
theorem Pipeline.keep (h : Pipeline sq s c f₀ r) (hz : Zipped s c)
    (hs : ChanStep ((s.chan c).log = .idle) (s.chan c) (s'.chan c))
    (hsent : (s'.chan c).sent = (s.chan c).sent)
    (hblk : ∀ k, RawAt s c k → (s'.chan c).blocks k = (s.chan c).blocks k)
    (hq : s'.compressionQueue = s.compressionQueue ∧ s'.comp = s.comp ∧ s'.compCnt = s.compCnt ∧
      s'.ioQueue = s.ioQueue) (hsink : SameAt s.sink s'.sink c)
    (hready : (s'.chan c).opn = .ready → (s.chan c).opn = .ready) : Pipeline sq s' c f₀ r :=
  h.keepTo hz hs hsent hblk hq (h.tracks.congr hsink) (h.sameFile hs hready)

/-- A block in the hands of a compression thread is nowhere else. -/
theorem Zipped.work_unique (hz : Zipped s c) {d : Bool} (ht : s.comp t = .work d ⟨c, k⟩) :
    ⟨c, k⟩ ∉ s.compressionQueue ∧ ∀ t' d', s.comp t' = .work d' ⟨c, k⟩ → t' = t := by
  have hocc := hz.part k
  have hone : (if (s.chan c).built ∧ k < numBufferBlock then 1 else 0) ≤ 1 := by split <;> omega
  have hlt := hz.wf.comp_lt (t := t) (by simp [ht])
  simp only [occurrences, inFlight] at hocc
  constructor
  · intro hmem
    have hpos := List.count_pos_iff.mpr hmem
    have hle := le_tally (w := CompPc.holds ⟨c, k⟩) (f := s.comp) hlt
    simp only [ht, CompPc.holds_work, if_true] at hle
    omega
  · intro t' d' ht'
    by_contra hne
    have hlt' := hz.wf.comp_lt (t := t') (by simp [ht'])
    have hle := add_le_tally (w := CompPc.holds ⟨c, k⟩) (f := s.comp) hne hlt' hlt
    simp only [ht, ht', CompPc.holds_work, if_true] at hle
    omega

theorem CompGoto.carries {pc pc' : CompPc} (h : CompGoto s pc pc') (ids : Nat → Nat) (c i : Nat) :
    pc.carries ids c i = 0 ∧ pc'.carries ids c i = 0 := by
  cases h <;> exact ⟨rfl, rfl⟩

theorem carries_compNext (d : Bool) (ids : Nat → Nat) (c i : Nat) :
    (compNext d).carries ids c i = 0 := by
  cases d <;> rfl

/-- How the occurrences change when a compression thread moves. -/
theorem underway_setComp {pc : CompPc} {q : List Ptr} {q' : List IoBlock} {f : Nat → Closure}
    (hwf : Wf s) (ht : s.comp t ≠ .unborn) (hids : (f c).idAt = (s.chan c).idAt) {i : Nat}
    (hsum : q.countP (Ptr.carries (s.chan c).idAt c i) + pc.carries (s.chan c).idAt c i +
        q'.countP (IoBlock.carries c i) =
      s.compressionQueue.countP (Ptr.carries (s.chan c).idAt c i) +
        (s.comp t).carries (s.chan c).idAt c i + s.ioQueue.countP (IoBlock.carries c i))
    (hs' : s'.chan = f ∧ s'.compressionQueue = q ∧ s'.ioQueue = q' ∧
      s'.comp = Function.update s.comp t pc ∧ s'.compCnt = s.compCnt) :
    underway s' c i = underway s c i := by
  obtain ⟨hf, hq, hq', hc, hcnt⟩ := hs'
  have htal := tally_update (w := CompPc.carries (s.chan c).idAt c i) (f := s.comp)
    (hwf.comp_lt ht) pc
  simp only [underway, hf, hq, hq', hc, hcnt, hids]
  omega

/-- The steps of a compression thread; a copy of a block of the channel finds
a free node. -/
theorem CompMove.pipeline (h : Pipeline sq s c f₀ r) (hz : Zipped s c)
    (hs : ChanStep ((s.chan c).log = .idle) (s.chan c) (s'.chan c))
    (hroom : ∀ d b, s.comp t = .push d b → b.ch = c → s.ioQueue.length < ioQueueSize)
    (hm : CompMove sq s t s') : Pipeline sq s' c f₀ r := by
  cases hm with
  | @goto pc pc' hpc hg =>
      have hne : s.comp t ≠ .unborn := by rw [hpc]; cases hg <;> simp
      refine h.carry hz hs rfl (fun i => underway_setComp hz.wf hne rfl ?_ ⟨rfl, rfl, rfl, rfl, rfl⟩)
        (fun k hk => ⟨?_, rfl⟩) (fun b hb hk => .inl ?_) ⟨rfl, rfl, rfl⟩ fun hr => hr
      · rw [hpc, (hg.carries _ c i).1, (hg.carries _ c i).2]
        rfl
      · simp only [RawAt, State.setComp] at hk ⊢
        have : ∀ d, pc' ≠ .work d ⟨c, k⟩ := by cases hg <;> simp
        grind [Function.update_apply]
      · simp only [PackedAt, State.setComp] at hk ⊢
        have : ∀ d p, pc' ≠ .send d p b := by cases hg <;> simp
        have : ∀ d, pc' ≠ .push d b := by cases hg <;> simp
        grind [Function.update_apply]
  | pop d p q hpc hq =>
      refine h.carry hz hs rfl (fun i => underway_setComp hz.wf (by simp [hpc]) rfl ?_
        ⟨rfl, rfl, rfl, rfl, rfl⟩) (fun k hk => ⟨?_, rfl⟩) (fun b hb hk => .inl ?_) ⟨rfl, rfl, rfl⟩
        fun hr => hr
      · rw [hq, hpc, List.countP_cons]
        cases hcar : Ptr.carries (s.chan c).idAt c i p <;> simp [CompPc.carries, hcar]
      · simp only [RawAt, State.setComp, hq] at hk ⊢
        grind [Function.update_apply]
      · simp only [PackedAt, State.setComp] at hk ⊢
        grind [Function.update_apply]
  | work d p hpc =>
      obtain ⟨c', k'⟩ := p
      refine h.carry hz hs ?_ (fun i => underway_setComp hz.wf (by simp [hpc])
        (idAt_reset _ ⟨c', k'⟩) ?_ ⟨rfl, rfl, rfl, rfl, rfl⟩) (fun k hk => ?_) (fun b hb hk => ?_)
        ⟨rfl, rfl, rfl⟩ fun hr => ?_
      · by_cases hc : c = c' <;> simp [hc]
      · rw [hpc]
        by_cases hc : c = c'
        · subst hc
          simp [CompPc.carries, Ptr.carries, Packed.carries, Closure.idAt]
        · simp [CompPc.carries, Ptr.carries, Packed.carries, Ne.symm hc]
      · by_cases hc : c = c'
        · subst hc
          have huni := hz.work_unique hpc
          simp only [RawAt, State.setComp, State.setChan, Function.update_self,
            Closure.setBlock] at hk ⊢
          grind [Function.update_apply]
        · simp only [RawAt, State.setComp, State.setChan, Function.update_of_ne hc] at hk ⊢
          grind [Function.update_apply]
      · by_cases hnew : PackedAt s b
        · exact .inl hnew
        · -- the copy just made, of a block the producer enqueued
          have hcopy : b = ⟨c', ((s.chan c').blocks k').blockId,
              ((s.chan c').blocks k').closeFile,
              compressBlock sq (s.chan c').format ((s.chan c').blocks k').records⟩ := by
            simp only [PackedAt, State.setComp, State.setChan] at hk hnew
            grind [Function.update_apply]
          subst hcopy
          obtain rfl : c' = c := hb
          exact .inr ⟨_, h.raw k' (.inr ⟨t, d, hpc⟩), rfl⟩
      · by_cases hc : c = c'
        · subst hc
          simpa using hr
        · simpa [Function.update_of_ne hc] using hr
  | send d p b hpc hlen =>
      obtain ⟨c', k'⟩ := p
      refine h.carry hz hs ?_ (fun i => underway_setComp hz.wf (by simp [hpc])
        (idAt_sendBack _ ⟨c', k'⟩) ?_ ⟨rfl, rfl, rfl, rfl, rfl⟩) (fun k hk => ?_) (fun b' hb hk => ?_)
        ⟨rfl, rfl, rfl⟩ fun hr => ?_
      · by_cases hc : c = c' <;> simp [hc]
      · rw [hpc]
        rfl
      · refine ⟨?_, by by_cases hc : c = c' <;> simp [hc]⟩
        simp only [RawAt, State.setComp, State.setChan] at hk ⊢
        grind [Function.update_apply]
      · simp only [PackedAt, State.setComp, State.setChan] at hk ⊢
        grind [Function.update_apply]
      · by_cases hc : c = c'
        · subst hc
          simpa using hr
        · simpa [Function.update_of_ne hc] using hr
  | push d b hpc hlen =>
      refine h.carry hz hs rfl (fun i => underway_setComp hz.wf (by simp [hpc]) rfl ?_
        ⟨rfl, rfl, rfl, rfl, rfl⟩) (fun k hk => ⟨?_, rfl⟩) (fun b' hb hk => .inl ?_)
        ⟨rfl, rfl, rfl⟩ fun hr => hr
      · rw [hpc, carries_compNext, List.countP_append, List.countP_singleton]
        cases hcar : b.carries c i <;> simp [CompPc.carries, IoBlock.carries, hcar]
        omega
      · simp only [RawAt, State.setComp] at hk ⊢
        grind [Function.update_apply]
      · simp only [PackedAt, State.setComp, List.mem_append, List.mem_singleton] at hk ⊢
        grind [Function.update_apply]
  | drop d b hpc hlen =>
      have hb : b.ch ≠ c := fun hb => hlen (hroom d b hpc hb)
      refine h.carry hz hs rfl (fun i => underway_setComp hz.wf (by simp [hpc]) rfl ?_
        ⟨rfl, rfl, rfl, rfl, rfl⟩) (fun k hk => ⟨?_, rfl⟩) (fun b' hb hk => .inl ?_)
        ⟨rfl, rfl, rfl⟩ fun hr => hr
      · rw [hpc, carries_compNext]
        simp [CompPc.carries, Packed.carries, hb]
      · simp only [RawAt, State.setComp] at hk ⊢
        grind [Function.update_apply]
      · simp only [PackedAt, State.setComp] at hk ⊢
        grind [Function.update_apply]
  | stop hpc =>
      refine h.carry hz hs rfl (fun i => underway_setComp hz.wf (by simp [hpc]) rfl ?_
        ⟨rfl, rfl, rfl, rfl, rfl⟩) (fun k hk => ⟨?_, rfl⟩) (fun b' hb hk => .inl ?_)
        ⟨rfl, rfl, rfl⟩ fun hr => hr
      · simp [hpc, CompPc.carries]
      · simp only [RawAt, State.setComp] at hk ⊢
        grind [Function.update_apply]
      · simp only [PackedAt, State.setComp] at hk ⊢
        grind [Function.update_apply]

/-- An entry leaves `io_queue`. -/
theorem underway_pop {b : IoBlock} {q : List IoBlock} (hq : s.ioQueue = b :: q)
    (hids : (s'.chan c).idAt = (s.chan c).idAt) (hs' : s'.compressionQueue = s.compressionQueue ∧
      s'.ioQueue = q ∧ s'.comp = s.comp ∧ s'.compCnt = s.compCnt) (i : Nat) :
    underway s' c i + (b.carries c i).toNat = underway s c i := by
  obtain ⟨hcq, hioq, hcomp, hcnt⟩ := hs'
  simp only [underway, hcq, hioq, hcomp, hcnt, hids, hq, List.countP_cons]
  cases IoBlock.carries c i b <;> simp
  omega

/-- The codec does not fail. -/
def Squash.Total (sq : Squash) : Prop := ∀ codec bs, (sq codec bs).isSome

theorem Closure.Copied.writable {ch : Closure} {b : Packed} (h : ch.Copied sq b) (hsq : sq.Total)
    (hok : ch.Ok) (htidy : ch.Tidy) : b.Writable := by
  obtain ⟨ds, hsends, himg⟩ := h
  have hlt := hsends.lt
  have hle := htidy.sentLe
  have hcnt := hok.count
  exact ⟨by rw [himg]; exact hsq _ _, by omega⟩

/-- A copy on its way to the I/O thread has not arrived there. -/
theorem Pipeline.not_arrived (h : Pipeline sq s c f₀ r) {b : Packed} (hc : b.ch = c)
    (hb : .packed b ∈ s.ioQueue) : ∀ x ∈ r.out ++ r.parked, x.blockId ≠ b.blockId := by
  intro x hx he
  have hone := h.once b.blockId
  have hpos : 0 < s.ioQueue.countP (IoBlock.carries c b.blockId) :=
    List.countP_pos_iff.mpr ⟨_, hb, by simp [IoBlock.carries, Packed.carries, hc]⟩
  have hcount : 0 < ((r.out ++ r.parked).map Packed.blockId).count b.blockId :=
    List.count_pos_iff.mpr (he ▸ List.mem_map_of_mem hx)
  have hle : (if b.blockId < (s.chan c).sent.length then 1 else 0) ≤ 1 := by split <;> omega
  simp only [underway] at hone
  omega

/-- The closing block has nothing parked behind it. -/
theorem Pipeline.nothing_behind (h : Pipeline sq s c f₀ r) {b : Packed}
    (hb : (s.chan c).Copied sq b) (hclose : b.closeFile = true) (hid : b.blockId = r.out.length) :
    r.parked = [] := by
  obtain ⟨ds, hsends, -⟩ := hb
  have hlast := (hsends.2.mp hclose).2
  refine List.eq_nil_iff_forall_not_mem.mpr fun x hx => ?_
  obtain ⟨-, ds', hsends', -⟩ := h.arrived x (List.mem_append_right _ hx)
  have hlt := hsends'.lt
  have hge := h.inOrder.parked.2 x hx
  omega

/-- A copy arrives at the I/O thread. -/
theorem Pipeline.arrive {b : Packed} {q : List IoBlock} {m : IoMode} (h : Pipeline sq s c f₀ r)
    (hsq : sq.Total) (hok : (s.chan c).Ok) (htidy : (s.chan c).Tidy) (hc : c < nextBlockSize) (hsize : nextBlockSize ≤ s.sink.pendingSize)
    (hq : s.ioQueue = .packed b :: q) (hb : b.ch = c) :
    ∃ k, writeCompressedBlock s.sink b = some k ∧
      Pipeline sq { s.setIo t m.next with ioQueue := q, sink := k } c f₀
        (r.arrive Packed.blockId b) := by
  have hmem : .packed b ∈ s.ioQueue := by simp [hq]
  have hcopied := h.packed b hb (.inr (.inr hmem))
  have hnew := h.not_arrived hb hmem
  subst hb
  obtain ⟨k, hk, ht, -, -⟩ := writeCompressedBlock_arrive ⟨hc, Nat.lt_of_lt_of_le hc hsize⟩ h.tracks
    (fun x hx => by
      obtain rfl | hx := List.mem_cons.mp hx
      · exact hcopied.writable hsq hok htidy
      · exact (h.arrived x (List.mem_append_right _ hx)).2.writable hsq hok htidy)
    (h.nothing_behind hcopied)
  have hperm :
      ((Reseq.arrive Packed.blockId r b).out ++ (Reseq.arrive Packed.blockId r b).parked).Perm
      (b :: (r.out ++ r.parked)) := Reseq.arrive_perm r b
  refine ⟨k, hk, ht, Reseq.arrive_ok h.inOrder hnew, fun i => ?_, h.raw, fun x hx hat => ?_,
    fun x hx => ?_, h.file⟩
  · have hpop : underway { s.setIo t m.next with ioQueue := q, sink := k } b.ch i +
        ((IoBlock.packed b).carries b.ch i).toNat = underway s b.ch i := by
      refine underway_pop hq ?_ ⟨?_, ?_, ?_, ?_⟩ i <;> rfl
    refine Eq.trans ?_ (h.once i)
    rw [(hperm.map Packed.blockId).count_eq, List.map_cons, List.count_cons, ← hpop]
    by_cases hi : b.blockId = i <;> simp [IoBlock.carries, Packed.carries, hi]
    omega
  · refine h.packed x hx ?_
    obtain hat | hat | hat := hat
    · exact .inl hat
    · exact .inr (.inl hat)
    · exact .inr (.inr (by rw [hq]; exact List.mem_cons_of_mem _ hat))
  · obtain rfl | hx := List.mem_cons.mp (hperm.mem_iff.mp hx)
    · exact ⟨rfl, hcopied⟩
    · exact h.arrived x hx

/-- Blocks of the channel do not go uncompressed to the I/O thread. -/
theorem Zipped.ne_of_kind (hz : Zipped s c) {c' : Nat} (h : (s.chan c').opensAs false) :
    c ≠ c' := by
  rintro rfl
  obtain hk | hk := hz.kind
  · exact h.1 hk
  · have := h.2
    rw [hk] at this
    cases this

/-- The steps of an I/O thread. -/
theorem IoMove.pipeline (h : Pipeline sq s c f₀ r) (hz : Zipped s c) (hsq : sq.Total)
    (hc : c < nextBlockSize) (hsize : ∀ m, s.io t = .pop m → nextBlockSize ≤ s.sink.pendingSize)
    (hs : ChanStep ((s.chan c).log = .idle) (s.chan c) (s'.chan c)) (hm : IoMove s t s') :
    ∃ r, Pipeline sq s' c f₀ r := by
  have hkeep : s'.chan c = s.chan c → s'.compressionQueue = s.compressionQueue →
      s'.comp = s.comp → s'.compCnt = s.compCnt → s'.ioQueue = s.ioQueue →
      SameAt s.sink s'.sink c → ∃ r, Pipeline sq s' c f₀ r := fun hch hcq hcomp hcnt hioq hsink =>
    ⟨r, h.keep hz hs (by rw [hch]) (fun k _ => by rw [hch]) ⟨hcq, hcomp, hcnt, hioq⟩ hsink
      (by rw [hch]; exact fun h => h)⟩
  have hpop : ∀ b q, s.ioQueue = b :: q → (∀ i, b.carries c i = false) →
      s'.chan c = s.chan c → s'.compressionQueue = s.compressionQueue → s'.comp = s.comp →
      s'.compCnt = s.compCnt → s'.ioQueue = q → SameAt s.sink s'.sink c →
      ∃ r, Pipeline sq s' c f₀ r := by
    intro b q hq hb hch hcq hcomp hcnt hioq hsink
    refine ⟨r, h.carry hz hs (by rw [hch]) (fun i => ?_) (fun k hk => ⟨?_, by rw [hch]⟩)
      (fun b' hb' hk => .inl ?_) hsink (by rw [hch]; exact fun h => h)⟩
    · have := underway_pop (c := c) hq (by rw [hch]) ⟨hcq, hioq, hcomp, hcnt⟩ i
      simpa [hb] using this
    · simpa only [RawAt, hcq, hcomp] using hk
    · simp only [PackedAt, hcomp, hioq, hq] at hk ⊢
      exact hk.imp_right fun hk => hk.imp_right fun hk => List.mem_cons_of_mem _ hk
  have hr := hz.routed.io t
  cases hm with
  | goto hpc hg => exact hkeep rfl rfl rfl rfl rfl ⟨rfl, rfl, rfl⟩
  | start hpc => exact hkeep rfl rfl rfl rfl rfl ⟨rfl, rfl, rfl⟩
  | quickExit | writeFault => exact hkeep rfl rfl rfl rfl rfl ⟨rfl, rfl, rfl⟩
  | clearPtr | clearIo | clearComp | clearVec => exact hkeep rfl rfl rfl rfl rfl ⟨rfl, rfl, rfl⟩
  | popRaw m p q hpc hq => exact hpop _ q hq (fun _ => rfl) rfl rfl rfl rfl rfl ⟨rfl, rfl, rfl⟩
  | popPacked m b q k hpc hq hk =>
      by_cases hb : b.ch = c
      · obtain ⟨k', hk', hpipe⟩ := h.arrive (t := t) (m := m) hsq hz.ok hz.tidy hc (hsize m hpc)
          hq hb
        rw [hk] at hk'
        cases hk'
        exact ⟨_, hpipe⟩
      · exact hpop _ q hq (by simp [IoBlock.carries, Packed.carries, hb]) rfl rfl rfl rfl
          rfl (writeCompressedBlock_frame hk (Ne.symm hb))
  | popFault m b q hpc hq hk =>
      by_cases hb : b.ch = c
      · obtain ⟨k', hk', -⟩ := h.arrive (t := t) (m := m) hsq hz.ok hz.tidy hc (hsize m hpc)
          hq hb
        rw [hk] at hk'
        cases hk'
      · exact hpop _ q hq (by simp [IoBlock.carries, Packed.carries, hb]) rfl rfl rfl rfl
          rfl ⟨rfl, rfl, rfl⟩
  | write m p hpc hw =>
      rw [hpc] at hr
      have hne := hz.ne_of_kind hr
      exact hkeep (Function.update_of_ne hne ..) rfl rfl rfl rfl
        ⟨rfl, rfl, Function.update_of_ne hne ..⟩
  | send m p hpc hlen =>
      rw [hpc] at hr
      have hne := hz.ne_of_kind hr
      exact hkeep (Function.update_of_ne hne ..) rfl rfl rfl rfl ⟨rfl, rfl, rfl⟩

/-- The producer enqueues its current block. -/
theorem Pipeline.enqueue (h : Pipeline sq s c f₀ r) (hz : Zipped s c)
    (hs : ChanStep ((s.chan c).log = .idle) (s.chan c) (s'.chan c))
    (hid : (s.chan c).cur.blockId = (s.chan c).sent.length)
    (hsent : (s'.chan c).sent = (s.chan c).sent ++ [(s.chan c).cur.records])
    (hblocks : (s'.chan c).blocks = (s.chan c).blocks)
    (hnew : (s.chan c).cur.closeFile = true ↔ (s'.chan c).closeSent)
    (hq : s'.compressionQueue = s.compressionQueue ++ [⟨c, (s.chan c).block⟩] ∧
      s'.comp = s.comp ∧ s'.compCnt = s.compCnt ∧ s'.ioQueue = s.ioQueue)
    (hsink : s'.sink = s.sink) (hopn : (s'.chan c).opn = (s.chan c).opn) :
    Pipeline sq s' c f₀ r := by
  obtain ⟨hcq, hcomp, hcnt, hioq⟩ := hq
  have hids : (s'.chan c).idAt = (s.chan c).idAt := by
    funext k
    rw [Closure.idAt, hblocks, Closure.idAt]
  refine ⟨hsink ▸ h.tracks, h.inOrder, fun i => ?_, fun k hk => ?_, fun b hb hk => ?_,
    fun b hb => ⟨(h.arrived b hb).1, (h.arrived b hb).2.step hz.ok hz.alone hs⟩, fun hr => ?_⟩
  · have hone := h.once i
    have hcur : (s.chan c).idAt (s.chan c).block = (s.chan c).sent.length := hid
    simp only [underway, hcq, hcomp, hcnt, hioq, hids, List.countP_append, List.countP_singleton,
      Ptr.carries, hcur, true_and, decide_eq_true_eq, hsent, List.length_append,
      List.length_singleton] at hone ⊢
    split at hone <;> grind
  · rw [hblocks]
    by_cases hk' : RawAt s c k
    · exact (h.raw k hk').step hz.ok hz.alone hs
    · obtain rfl : k = (s.chan c).block := by
        simp only [RawAt, hcq, hcomp, List.mem_append, List.mem_singleton] at hk hk'
        grind
      have hid' : ((s.chan c).blocks (s.chan c).block).blockId = (s.chan c).sent.length := hid
      refine ⟨?_, ?_⟩
      · simp [hsent, hid', Closure.cur]
      · have hnew' : ((s.chan c).blocks (s.chan c).block).closeFile = true ↔
            (s'.chan c).closeSent := hnew
        simp [hnew', hsent, hid']
  · refine (h.packed b hb ?_).step hz.ok hz.alone hs
    simpa only [PackedAt, hcomp, hioq] using hk
  · rw [hopn] at hr
    rw [(hs.same_kind (by simp [hr])).1]
    exact h.file hr

/-- The steps of the logging thread. -/
theorem LogMove.pipeline (h : Pipeline sq s c f₀ r) (hz : Zipped s c)
    (hs : ChanStep ((s.chan c).log = .idle) (s.chan c) (s'.chan c)) (hm : LogMove s c s') :
    Pipeline sq s' c f₀ r := by
  have hclose : (s.chan c).log ≠ .idle → (s.chan c).close = .none := fun hl =>
    Classical.not_not.mp fun hc => hl (hz.alone hc)
  have hown : (s.chan c).log ≠ .idle → (s.chan c).log ≠ .dequeue → (s.chan c).owns :=
    fun hl hd => ⟨.inl (hz.ok.logging hl), hd, .inl (hclose hl)⟩
  cases hm with
  | setIdFault => exact h.keep hz hs rfl (fun _ _ => rfl) ⟨rfl, rfl, rfl, rfl⟩ ⟨rfl, rfl, rfl⟩ id
  | write tsc d hl | setId hl =>
      refine h.keep hz hs (by simp) (fun k hk => ?_) ⟨rfl, rfl, rfl, rfl⟩ ⟨rfl, rfl, rfl⟩ (by simp)
      have := hk.ne_block hz (hown (by simp [hl]) (by simp [hl]))
      simp [Function.update_of_ne this]
  | full hl | dequeue k q hl hq =>
      exact h.keep hz hs (by simp) (by simp) ⟨rfl, rfl, rfl, rfl⟩ ⟨rfl, rfl, rfl⟩ (by simp)
  | enqueueRaw hl hcomp hlen =>
      obtain hk | hk := hz.kind
      · simp [hz.ok.logging (by simp [hl])] at hk
      · simp [hk] at hcomp
  | enqueueComp hl hcomp hlen =>
      have hnone := hclose (by simp [hl])
      have hid := (hz.tidy.curId (.inl (hz.ok.logging (by simp [hl]))) (by simp [hl]) (by simp [hl])
        (.inl hnone)).1
      refine h.enqueue hz hs hid (by simp) (by simp) ⟨fun hf => ?_, ?_⟩ ⟨rfl, rfl, rfl, rfl⟩ rfl
        (by simp)
      · exact absurd hnone (hz.tidy.flag _ hf).2.1
      · simp [Closure.closeSent, hnone]

/-- The steps of the closing thread. -/
theorem CloseMove.pipeline (h : Pipeline sq s c f₀ r) (hz : Zipped s c)
    (hs : ChanStep ((s.chan c).log = .idle) (s.chan c) (s'.chan c)) (hm : CloseMove s c s') :
    Pipeline sq s' c f₀ r := by
  have hlog : (s.chan c).close ≠ .none → (s.chan c).log = .idle := hz.alone
  have hbuilt : (s.chan c).close ≠ .none → (s.chan c).built := fun hc => by
    by_contra hb
    exact hc (hz.ok.unbuilt hb).2.1
  cases hm with
  | setCloseFile hc =>
      refine h.keep hz hs (by simp) (fun k hk => ?_) ⟨rfl, rfl, rfl, rfl⟩ ⟨rfl, rfl, rfl⟩ (by simp)
      have hown : (s.chan c).owns :=
        ⟨hbuilt (by simp [hc]), by simp [hlog (by simp [hc])], .inr (.inl hc)⟩
      simp [Function.update_of_ne (hk.ne_block hz hown)]
  | decComp hc | dec hc =>
      exact h.keep hz hs (by simp) (by simp) ⟨rfl, rfl, rfl, rfl⟩ ⟨rfl, rfl, rfl⟩ (by simp)
  | enqueueRaw hc hcomp hlen =>
      obtain hk | hk := hz.kind
      · obtain hb | hb := hbuilt (by simp [hc]) <;> simp [hb] at hk
      · simp [hk] at hcomp
  | enqueueComp hc hcomp hlen =>
      have hidle := hlog (by simp [hc])
      have hid := (hz.tidy.curId (hbuilt (by simp [hc])) (by simp [hidle]) (by simp [hidle])
        (.inr (.inr hc))).1
      refine h.enqueue hz hs hid (by simp) (by simp) ?_ ⟨rfl, rfl, rfl, rfl⟩ rfl (by simp)
      simp [Closure.closeSent, hz.tidy.flagSet hc]

/-- The producer of another channel enqueues a block. -/
theorem Pipeline.foreign {c' : Nat} (h : Pipeline sq s c f₀ r) (hz : Zipped s c)
    (hs : ChanStep ((s.chan c).log = .idle) (s.chan c) (s'.chan c)) (hc : c ≠ c')
    (hch : s'.chan c = s.chan c)
    (hq : (s'.compressionQueue = s.compressionQueue ++ [⟨c', k⟩] ∧ s'.ioQueue = s.ioQueue) ∨
      (s'.compressionQueue = s.compressionQueue ∧ s'.ioQueue = s.ioQueue ++ [.raw ⟨c', k⟩]))
    (hcomp : s'.comp = s.comp ∧ s'.compCnt = s.compCnt) (hsink : s'.sink = s.sink) :
    Pipeline sq s' c f₀ r := by
  obtain ⟨hcomp, hcnt⟩ := hcomp
  refine h.carry hz hs (by rw [hch]) (fun i => ?_) (fun k hk => ⟨?_, by rw [hch]⟩)
    (fun b hb hk => .inl ?_) (by rw [hsink]; exact ⟨rfl, rfl, rfl⟩) (by rw [hch]; exact fun h => h)
  · obtain ⟨hcq, hioq⟩ | ⟨hcq, hioq⟩ := hq <;>
      simp [underway, hch, hcq, hioq, hcomp, hcnt, List.countP_append, Ptr.carries, Ne.symm hc,
        IoBlock.carries]
  · obtain ⟨hcq, -⟩ | ⟨hcq, -⟩ := hq <;> simpa [RawAt, hcq, hcomp, hc] using hk
  · obtain ⟨-, hioq⟩ | ⟨-, hioq⟩ := hq <;> simpa [PackedAt, hioq, hcomp] using hk

/-- A compression thread is created. -/
theorem Pipeline.compNew (h : Pipeline sq s c f₀ r) (hz : Zipped s c)
    (hs : ChanStep ((s.chan c).log = .idle) (s.chan c) (s'.chan c))
    (hsent : (s'.chan c).sent = (s.chan c).sent)
    (hblk : (s'.chan c).blocks = (s.chan c).blocks)
    (hq : s'.compressionQueue = s.compressionQueue ∧ s'.ioQueue = s.ioQueue)
    (hcomp : s'.comp = Function.update s.comp s.compCnt .readStop ∧ s'.compCnt = s.compCnt + 1)
    (hsink : s'.sink = s.sink)
    (hready : (s'.chan c).opn = .ready → (s.chan c).opn = .ready) : Pipeline sq s' c f₀ r := by
  obtain ⟨hcq, hioq⟩ := hq
  obtain ⟨hcomp, hcnt⟩ := hcomp
  have hids : (s'.chan c).idAt = (s.chan c).idAt := by
    funext k
    rw [Closure.idAt, hblk, Closure.idAt]
  refine h.carry hz hs hsent (fun i => ?_) (fun k hk => ⟨?_, by rw [hblk]⟩)
    (fun b hb hk => .inl ?_) (by rw [hsink]; exact ⟨rfl, rfl, rfl⟩) hready
  · simp only [underway, hcq, hioq, hcomp, hcnt, hids, tally_grow]
    rfl
  · simp only [RawAt, hcq, hcomp] at hk ⊢
    grind [Function.update_apply]
  · simp only [PackedAt, hioq, hcomp] at hk ⊢
    grind [Function.update_apply]

end Carry

/-! ## every step -/

/-- The compressed copy a compression thread is about to push. -/
def CompPc.pushes : CompPc → Option Packed
  | .push _ b => some b
  | _ => none

/-- A compression thread pushes a copy of a block of channel `c` only while
`io_queue` has a free node. -/
def FindsRoom (c : Nat) (s : State) : Label → Prop
  | .comp t => ∀ b ∈ (s.comp t).pushes, b.ch = c → s.ioQueue.length < ioQueueSize
  | _ => True

/-- An I/O thread has its reorder tables when it pops. -/
def HasTables (s : State) : Prop :=
  ∀ t, s.io t ≠ .unborn → s.io t ≠ .start → nextBlockSize ≤ s.sink.pendingSize

section Step

variable {sq : Squash} {s s' : State} {l : Label} {c : Nat} {f₀ : Ofstream} {r : Reseq Packed}

/-- The file is opened: nothing has been enqueued before. -/
theorem Pipeline.finishOpen {b : Bool} {mem : Nat → Nat → LogData} (h : Pipeline sq s c f₀ r)
    (hz : Zipped s c) (hs : ChanStep ((s.chan c).log = .idle) (s.chan c) (s'.chan c))
    (hm : Move sq s (.finishOpen c b mem) s') : ∃ f₀ r, Pipeline sq s' c f₀ r := by
  cases hm with
  | finishOpen _ _ _ hopn =>
    have hb : ¬ (s.chan c).built := by simp [Closure.built, hopn]
    obtain ⟨rfl, -⟩ := h.empty (hz.ok.unbuilt hb).2.2.1
    refine ⟨_, _, h.keepTo hz hs (by simp) (fun k hk => absurd hk (hz.not_rawAt hb))
      ⟨rfl, rfl, rfl, rfl⟩ ⟨h.tracks.nextBlock, h.tracks.pending, rfl⟩ fun hr => ⟨[], ?_⟩⟩
    simp only [State.setChan, Function.update_self, ite_eq_left_iff, reduceCtorEq, imp_false,
      Bool.not_eq_true, Bool.not_eq_false] at hr
    simp [hr, Ofstream.opened]

/-- The first record of a TSC channel goes straight to the file. -/
theorem Pipeline.first {d : LogData} (h : Pipeline sq s c f₀ r) (hz : Zipped s c)
    (hs : ChanStep ((s.chan c).log = .idle) (s.chan c) (s'.chan c))
    (hopn : (s.chan c).opn = .ready) (hh : (s.chan c).handlerF = .bufferIdentityHandlerTsc)
    (hf : (s.chan c).firstLogging = true)
    (he : s' = { s.setChan c { s.chan c with
            firstLogging := false
            logged := (s.chan c).logged ++ [d] } with
        sink := s.sink.setLogf c
          ((s.sink.chLogf c).write ((firstWriterOf (s.chan c).format).bytes d)) }) :
    ∃ f₀ r, Pipeline sq s' c f₀ r := by
  have htsc : (s.chan c).format.isTsc = true := by
    obtain hh' | hh' := hz.ok.handler <;> rw [hh] at hh'
    · exact handlerOf_eq_tsc.mp hh'.symm
    · cases hh'
  obtain ⟨rfl, -⟩ := h.empty (hz.first htsc hf).2
  obtain ⟨pre, hpre, -⟩ := h.file hopn
  have hfile : s.sink.chLogf c = f₀ := h.tracks.chLogf
  subst he
  refine ⟨_, _, h.keepTo hz hs (by simp) (by simp) ⟨rfl, rfl, rfl, rfl⟩
    ⟨h.tracks.nextBlock, h.tracks.pending, rfl⟩
    fun _ => ⟨pre ++ (firstWriterOf (s.chan c).format).bytes d, ?_, ?_⟩⟩
  · simp [hfile, hpre, Ofstream.write]
  · simp [htsc]

/-- **Step lemma**: every step of every party keeps the pipeline of a
compressed channel. -/
theorem Pipeline.step (h : Pipeline sq s c f₀ r) (hz : Zipped s c) (hsq : sq.Total)
    (hc : c < nextBlockSize) (htab : HasTables s) (hone : OneThread c s l)
    (hroom : FindsRoom c s l) (hm : Move sq s l s') : ∃ f₀ r, Pipeline sq s' c f₀ r := by
  have hs : ChanStep ((s.chan c).log = .idle) (s.chan c) (s'.chan c) := (hm.chan hz.wf c).mono hone
  -- steps of a call of the channel, and of another channel, that move no block
  have hkeep : ∀ c' ch, s'.chan = Function.update s.chan c' ch →
      (c = c' → ch.sent = (s.chan c).sent ∧ (∀ k, RawAt s c k → ch.blocks k = (s.chan c).blocks k) ∧
        (ch.opn = .ready → (s.chan c).opn = .ready)) →
      s'.compressionQueue = s.compressionQueue ∧ s'.comp = s.comp ∧ s'.compCnt = s.compCnt ∧
        s'.ioQueue = s.ioQueue → SameAt s.sink s'.sink c → ∃ f₀ r, Pipeline sq s' c f₀ r := by
    intro c' ch he hch hq hsink
    by_cases hcc : c = c'
    · have hself : s'.chan c = ch := by rw [he, hcc, Function.update_self]
      obtain ⟨h1, h2, h3⟩ := hch hcc
      exact ⟨f₀, r, h.keep hz hs (by rw [hself, h1]) (by rw [hself]; exact h2) hq hsink
        (by rw [hself]; exact h3)⟩
    · have hother : s'.chan c = s.chan c := by rw [he, Function.update_of_ne hcc]
      exact ⟨f₀, r, h.keep hz hs (by rw [hother]) (fun k _ => by rw [hother]) hq hsink
        (by rw [hother]; exact fun h => h)⟩
  have hidle : s'.chan = s.chan → s'.compressionQueue = s.compressionQueue → s'.comp = s.comp →
      s'.compCnt = s.compCnt → s'.ioQueue = s.ioQueue → SameAt s.sink s'.sink c →
      ∃ f₀ r, Pipeline sq s' c f₀ r := fun hch h1 h2 h3 h4 hsink =>
    ⟨f₀, r, h.keep hz hs (by rw [hch]) (fun k _ => by rw [hch]) ⟨h1, h2, h3, h4⟩ hsink
      (by rw [hch]; exact fun h => h)⟩
  have hraw : ∀ k, (s.chan c).opn.opening = true ∨ (s.chan c).opn = .fresh → ¬ RawAt s c k := by
    intro k ho
    refine hz.not_rawAt fun hb => ?_
    obtain hb | hb := hb <;> simp [hb, OpenPc.opening] at ho
  cases hm with
  | openChannel f compress =>
      refine hkeep _ _ rfl (fun hcc => ⟨?_, fun k hk => ?_, by simp [Closure.new]⟩)
        ⟨rfl, rfl, rfl, rfl⟩ ⟨rfl, rfl, rfl⟩
      · have hf := hz.wf.fresh c (Nat.le_of_eq hcc.symm)
        simp [Closure.new, (hz.ok.unbuilt (by simp [Closure.built, hf])).2.2.1]
      · exact absurd hk (hraw k (.inr (hz.wf.fresh c (Nat.le_of_eq hcc.symm))))
  | openStep c' h' =>
      cases h' with
      | compNew i hi =>
          refine ⟨f₀, r, h.compNew hz hs ?_ ?_ ⟨rfl, rfl⟩ ⟨rfl, rfl⟩ rfl ?_⟩ <;>
            by_cases hcc : c = c' <;> simp [hcc]
          split <;> simp
      | _ =>
          exact hkeep _ _ rfl (fun hcc => ⟨by rw [hcc], fun k _ => by rw [hcc], by simp⟩)
            ⟨rfl, rfl, rfl, rfl⟩ ⟨rfl, rfl, rfl⟩
  | finishOpen c' ok mem hopn =>
      by_cases hcc : c = c'
      · subst hcc
        exact h.finishOpen hz hs (.finishOpen c ok mem hopn)
      · exact hkeep c' _ rfl (fun he => absurd he hcc) ⟨rfl, rfl, rfl, rfl⟩
          ⟨rfl, rfl, Function.update_of_ne hcc ..⟩
  | logTS c' d hopn hlog h' =>
      cases h' with
      | null => exact hidle rfl rfl rfl rfl rfl ⟨rfl, rfl, rfl⟩
      | first hd hh hf =>
          by_cases hcc : c = c'
          · subst hcc
            exact h.first hz hs hopn hh hf rfl
          · exact hkeep c' _ rfl (fun he => absurd he hcc) ⟨rfl, rfl, rfl, rfl⟩
              ⟨rfl, rfl, Function.update_of_ne hcc ..⟩
      | _ =>
          exact hkeep _ _ rfl (fun hcc => ⟨by rw [hcc], fun k _ => by rw [hcc], fun h => hcc ▸ h⟩)
            ⟨rfl, rfl, rfl, rfl⟩ ⟨rfl, rfl, rfl⟩
  | logStep c' h' =>
      by_cases hcc : c = c'
      · subst hcc
        exact ⟨f₀, r, h'.pipeline h hz hs⟩
      · have hother : ∀ ch, Function.update s.chan c' ch c = s.chan c := fun ch =>
          Function.update_of_ne hcc ..
        cases h' with
        | enqueueComp =>
            exact ⟨f₀, r, h.foreign hz hs hcc (hother _) (.inl ⟨rfl, rfl⟩) ⟨rfl, rfl⟩ rfl⟩
        | enqueueRaw =>
            exact ⟨f₀, r, h.foreign hz hs hcc (hother _) (.inr ⟨rfl, rfl⟩) ⟨rfl, rfl⟩ rfl⟩
        | setIdFault => exact hidle rfl rfl rfl rfl rfl ⟨rfl, rfl, rfl⟩
        | _ => exact hkeep c' _ rfl (fun he => absurd he hcc) ⟨rfl, rfl, rfl, rfl⟩ ⟨rfl, rfl, rfl⟩
  | closeStep c' h' =>
      by_cases hcc : c = c'
      · subst hcc
        exact ⟨f₀, r, h'.pipeline h hz hs⟩
      · have hother : ∀ ch, Function.update s.chan c' ch c = s.chan c := fun ch =>
          Function.update_of_ne hcc ..
        cases h' with
        | enqueueComp =>
            exact ⟨f₀, r, h.foreign hz hs hcc (hother _) (.inl ⟨rfl, rfl⟩) ⟨rfl, rfl⟩ rfl⟩
        | enqueueRaw =>
            exact ⟨f₀, r, h.foreign hz hs hcc (hother _) (.inr ⟨rfl, rfl⟩) ⟨rfl, rfl⟩ rfl⟩
        | _ => exact hkeep c' _ rfl (fun he => absurd he hcc) ⟨rfl, rfl, rfl, rfl⟩ ⟨rfl, rfl, rfl⟩
  | closeChannel c' hopn =>
      exact hkeep _ _ rfl (fun hcc => ⟨by rw [hcc], fun k _ => by rw [hcc], fun h => hcc ▸ h⟩)
        ⟨rfl, rfl, rfl, rfl⟩ ⟨rfl, rfl, rfl⟩
  | io t h' =>
      obtain ⟨r, h⟩ := h'.pipeline h hz hsq hc
        (fun m hm => htab t (by simp [hm]) (by simp [hm])) hs
      exact ⟨f₀, r, h⟩
  | comp t h' =>
      refine ⟨f₀, r, h'.pipeline h hz hs fun d b hb hbc => ?_⟩
      exact hroom b (by simp [hb, CompPc.pushes]) hbc
  | exitStep h' =>
      cases h' with
      | close m i c' hpc hi =>
          exact hkeep _ _ rfl (fun hcc => ⟨by rw [hcc], fun k _ => by rw [hcc], fun h => hcc ▸ h⟩)
            ⟨rfl, rfl, rfl, rfl⟩ ⟨rfl, rfl, rfl⟩
      | _ => exact hidle rfl rfl rfl rfl rfl ⟨rfl, rfl, rfl⟩
  | _ => exact hidle rfl rfl rfl rfl rfl ⟨rfl, rfl, rfl⟩

theorem HasTables.step (h : HasTables s) (hm : Move sq s l s') : HasTables s' := by
  cases hm with
  | openStep c h' =>
      cases h' <;> simp only [HasTables, State.setChan, State.setIo, State.setComp] at * <;>
        grind [Function.update_apply]
  | io t h' =>
      cases h' with
      | goto hpc hg =>
          have : s.io t ≠ .unborn ∧ s.io t ≠ .start := by rw [hpc]; cases hg <;> simp
          simp only [HasTables, State.setIo] at *
          grind [Function.update_apply]
      | start hpc =>
          simp only [HasTables, State.setIo, createPriorityQueue] at *
          grind
      | popPacked m b q k hpc hq hk =>
          have := writeCompressedBlock_pendingSize hk
          simp only [HasTables, State.setIo] at *
          grind [Function.update_apply]
      | _ =>
          simp only [HasTables, State.setIo, State.setChan, Sink.setLogf] at *
          grind [Function.update_apply]
  | logStep c h' | closeStep c h' => cases h' <;> exact h
  | logTS c d hopn hlog h' => cases h' <;> exact h
  | comp t h' => cases h' <;> exact h
  | exitStep h' => cases h' <;> exact h
  | _ => exact h

end Step

/-! ## every run -/

section Runs

variable {sq : Squash} {s : State} {ok : State → Label → Prop} {c : Nat}

theorem Reached.hasTables (hr : Reached sq ok s) : HasTables s :=
  hr.invariant (fun _ h => absurd rfl h) fun _ _ _ h _ hs => h.step (step_move hs).2

theorem Reached.firstIdle (hr : Reached sq ok s) : (s.chan c).FirstIdle := by
  have h := hr.chan_invariant (I := fun ch => ch.Ok ∧ ch.FirstIdle) (c := c) (P := fun _ => True)
    ⟨Closure.ok_new, by simp [Closure.FirstIdle, Closure.new]⟩ (fun _ _ _ _ => trivial)
    fun _ _ h hs => ⟨h.1.step hs, h.2.step h.1 hs⟩
  exact h.2

/-- **Run lemma**: in every run in which the copies of the channel's blocks
find a free node in `io_queue`, the pipeline is intact. -/
theorem Reached.pipeline (hsq : sq.Total) (hc : c < nextBlockSize)
    (hone : ∀ s l, ok s l → OneThread c s l) (hroom : ∀ s l, ok s l → FindsRoom c s l)
    (hr : Reached sq ok s) (hkind : (s.chan c).opn = .fresh ∨ (s.chan c).compress = true) :
    ∃ f₀ r, Pipeline sq s c f₀ r := by
  revert hkind
  refine hr.invariant_of (J := Reached sq ok) (I := fun s =>
    (s.chan c).opn = .fresh ∨ (s.chan c).compress = true → ∃ f₀ r, Pipeline sq s c f₀ r)
    (fun _ h => h) ?_ ?_
  · refine fun _ => ⟨_, ⟨[], []⟩, ⟨rfl, rfl, rfl⟩, ⟨rfl, List.Pairwise.nil, by simp⟩, fun i => ?_,
      ?_, ?_, by simp, by simp [State.init, Closure.new]⟩
    · simp [underway, State.init, Closure.new]
    · simp [RawAt, State.init]
    · simp [PackedAt, State.init]
  · intro s l s' hr ih hg hs hkind
    have hm := (step_move hs).2
    have hkind : (s.chan c).opn = .fresh ∨ (s.chan c).compress = true := by
      by_cases hf : (s.chan c).opn = .fresh
      · exact .inl hf
      · have hstep := hm.chan hr.wf c
        refine .inr ?_
        rw [← (hstep.same_kind hf).2.1]
        exact hkind.resolve_left fun hf' => hf (hstep.fresh_of_fresh hf')
    obtain ⟨f₀, r, h⟩ := ih hkind
    obtain ⟨halone, htidy⟩ := hr.alone_tidy hone
    exact h.step ⟨hr.wf, hr.routed, hr.chanOk c, halone, htidy, hr.firstIdle,
      (hr.partitioned hone).1, hkind⟩ hsq hc hr.hasTables (hone s l hg) (hroom s l hg) hm

end Runs

end CloudProfiler
