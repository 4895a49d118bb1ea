import CloudProfiler.Buffer.Ownership
import CloudProfiler.Buffer.Count
import CloudProfiler.Buffer.Route

/-!
# CloudProfiler.Buffer.Refine

Buffered logging refines direct logging.

The records of an uncompressed channel form one stream, from the calls of
`logTS` over the current block, `io_queue` and the block in the hands of the
I/O thread to the file.  `Stream` says where the stream stands: the records
logged are those enqueued and those of the current block, and the blocks
enqueued are those written to the file and those in flight, in order.

* `Stream.step` — every step of every party keeps the stream;
* `taken_eq_calls` — the records that entered it are those of the calls;
* `buffered_refines_identity` — when the closing block has been written, the
  file is what `IdentityHandler` writes for the same calls.
-/

namespace CloudProfiler

/-! ## the stream of a channel -/

/-- The closing block has been enqueued. -/
def Closure.closeSent (ch : Closure) : Prop :=
  ch.close = .decComp ∨ ch.close = .dec ∨ ch.close = .done

instance (ch : Closure) : Decidable ch.closeSent := inferInstanceAs (Decidable (_ ∨ _))

/-- The records that have not been enqueued yet. -/
def Closure.openRecords (ch : Closure) : List LogData := if ch.owns then ch.cur.records else []

/-- The block index of an entry of `io_queue` that is a block of channel `c`. -/
def IoBlock.rawOf (c : Nat) : IoBlock → Option Nat
  | .raw p => if p.ch = c then some p.k else none
  | .packed _ => none

/-- The blocks of channel `c` in `io_queue`, in order. -/
def rawQueue (c : Nat) (q : List IoBlock) : List Nat := q.filterMap (IoBlock.rawOf c)

/-- The records of channel `c` on their way from `logTS` to the file: `out`
are the contents of the blocks written to the file, `wr` is the block the
I/O thread is about to write, if any. -/
structure Stream (w : WriteHandler) (s : State) (c : Nat) (out : List (List LogData))
    (wr : List Nat) : Prop where
  logged : (s.chan c).logged = (s.chan c).sent.flatten ++ (s.chan c).openRecords
  writing : ∀ k, k ∈ wr ↔ ∃ t m, s.io t = .write m ⟨c, k⟩
  one : wr.length ≤ 1
  sent : (s.chan c).sent =
    out ++ (wr ++ rawQueue c s.ioQueue).map fun k => ((s.chan c).blocks k).records
  last : (s.chan c).closeSent →
    ∀ k, (wr ++ rawQueue c s.ioQueue).getLast? = some k → k = (s.chan c).block
  file : s.sink.chLogf c = ⟨out.flatten.flatMap w.bytes,
    !decide ((s.chan c).closeSent ∧ wr ++ rawQueue c s.ioQueue = []),
    if (s.chan c).closeSent ∧ wr ++ rawQueue c s.ioQueue = [] then 1 else 0⟩

section Stream

variable {sq : Squash} {s s' : State} {l : Label} {c k t : Nat} {w : WriteHandler}
  {out : List (List LogData)} {wr : List Nat}

theorem count_rawQueue (q : List IoBlock) : (rawQueue c q).count k = q.count (.raw ⟨c, k⟩) := by
  induction q with
  | nil => rfl
  | cons b q ih =>
      rw [rawQueue, List.filterMap_cons, List.count_cons, ← ih]
      cases b with
      | packed b => simp [IoBlock.rawOf, rawQueue]
      | raw p =>
          obtain ⟨c', k'⟩ := p
          by_cases hc : c' = c
          · simp [IoBlock.rawOf, hc, rawQueue, List.count_cons]
          · simp [IoBlock.rawOf, hc, rawQueue]

theorem openRecords_of_owns {ch : Closure} (h : ch.owns) : ch.openRecords = ch.cur.records :=
  if_pos h

theorem openRecords_of_not_owns {ch : Closure} (h : ¬ ch.owns) : ch.openRecords = [] :=
  if_neg h

theorem openRecords_setBlock {ch : Closure} (h : ch.owns → k ≠ ch.block) (b : BlockData) :
    (ch.setBlock k b).openRecords = ch.openRecords := by
  by_cases hown : ch.owns
  · have hown' : (ch.setBlock k b).owns := hown
    rw [openRecords_of_owns hown, openRecords_of_owns hown', Closure.cur, Closure.cur]
    simp only [Closure.setBlock, Function.update_of_ne (Ne.symm (h hown))]
  · have hown' : ¬ (ch.setBlock k b).owns := hown
    rw [openRecords_of_not_owns hown, openRecords_of_not_owns hown']

/-- The parts of a closure the stream depends on are the same. -/
structure SameStream (ch ch' : Closure) : Prop where
  logged : ch'.logged = ch.logged
  sent : ch'.sent = ch.sent
  owns : ch'.owns ↔ ch.owns
  block : ch'.block = ch.block
  records : ∀ k, (ch'.blocks k).records = (ch.blocks k).records
  closeSent : ch'.closeSent ↔ ch.closeSent

theorem SameStream.refl (ch : Closure) : SameStream ch ch := by
  constructor <;> simp

theorem SameStream.openRecords {ch ch' : Closure} (h : SameStream ch ch') :
    ch'.openRecords = ch.openRecords := by
  simp only [Closure.openRecords, Closure.cur, h.owns, h.block, h.records]

/-- Steps that do not touch the stream. -/
theorem Stream.congr {ch : Closure} (h : Stream w s c out wr) (he : s'.chan c = ch)
    (hch : SameStream (s.chan c) ch)
    (hwr : ∀ k, (∃ t m, s'.io t = .write m ⟨c, k⟩) ↔ ∃ t m, s.io t = .write m ⟨c, k⟩)
    (hq : rawQueue c s'.ioQueue = rawQueue c s.ioQueue)
    (hf : s'.sink.chLogf c = s.sink.chLogf c) : Stream w s' c out wr := by
  subst he
  constructor
  case logged => rw [hch.logged, hch.sent, hch.openRecords, h.logged]
  case writing => exact fun k => by rw [h.writing, hwr]
  case one => exact h.one
  case sent => simp only [hch.sent, hch.records, hq, h.sent]
  case last =>
    intro hc
    rw [hq, hch.block]
    exact h.last (hch.closeSent.mp hc)
  case file => simp only [hf, hq, hch.closeSent, h.file]

/-- Blocks of the stream are in flight. -/
theorem Stream.mem_inFlight (h : Stream w s c out wr) (hwf : Wf s)
    (hk : k ∈ wr ++ rawQueue c s.ioQueue) : 0 < inFlight s ⟨c, k⟩ := by
  obtain hk | hk := List.mem_append.mp hk
  · obtain ⟨t, m, ht⟩ := (h.writing k).mp hk
    exact inFlight_pos hwf (t := t) (.inl (by simp [ht, IoPc.hand]))
  · have := List.count_pos_iff.mpr hk
    rw [count_rawQueue] at this
    simp only [inFlight]
    omega

/-- What a channel used by one thread provides to its stream. -/
structure Premises (w : WriteHandler) (s : State) (c : Nat) : Prop where
  wf : Wf s
  counted : Counted s
  routed : Routed s
  ok : (s.chan c).Ok
  alone : (s.chan c).Alone
  tidy : (s.chan c).Tidy
  part : Partitioned s c
  returns : ReturnsEmpty s c
  ready : (s.chan c).opn = .ready
  raw : (s.chan c).compress = false
  notTsc : (s.chan c).format.isTsc = false
  writer : (s.chan c).writeHandlerF = some w

/-- The current block is not in the stream. -/
theorem Stream.ne_block (h : Stream w s c out wr) (hp : Premises w s c) (hown : (s.chan c).owns)
    (hk : k ∈ wr ++ rawQueue c s.ioQueue) : k ≠ (s.chan c).block := by
  intro he
  have hpos := h.mem_inFlight hp.wf hk
  have hzero := (hp.part.current hown).2
  rw [he, hzero] at hpos
  exact Nat.lt_irrefl 0 hpos

theorem rawQueue_concat_self (q : List IoBlock) :
    rawQueue c (q ++ [.raw ⟨c, k⟩]) = rawQueue c q ++ [k] := by
  simp [rawQueue, IoBlock.rawOf]

theorem rawQueue_concat_of_ne {c' : Nat} (hc : c ≠ c') (q : List IoBlock) :
    rawQueue c (q ++ [.raw ⟨c', k⟩]) = rawQueue c q := by
  simp [rawQueue, IoBlock.rawOf, Ne.symm hc]

/-- Records are logged only before the closing block. -/
theorem Premises.close_of_log (hp : Premises w s c) (hl : (s.chan c).log ≠ .idle) :
    (s.chan c).close = .none := by
  by_contra hc
  exact hl (hp.alone hc)

theorem Premises.owns_of_log (hp : Premises w s c) (hl : (s.chan c).log ≠ .idle)
    (hd : (s.chan c).log ≠ .dequeue) : (s.chan c).owns :=
  ⟨.inl hp.ready, hd, .inl (hp.close_of_log hl)⟩

/-- The file of a channel whose closing block has not been enqueued. -/
theorem Stream.file_open (h : Stream w s c out wr) (hns : ¬ (s.chan c).closeSent) :
    s.sink.chLogf c = ⟨out.flatten.flatMap w.bytes, true, 0⟩ := by
  simpa [hns] using h.file

/-- The steps of the logging thread. -/
theorem LogMove.stream (h : Stream w s c out wr) (hp : Premises w s c) (hm : LogMove s c s') :
    Stream w s' c out wr := by
  cases hm with
  | write tsc d hl =>
      have htsc : tsc = false := (hp.ok.writing tsc d hl).trans hp.notTsc
      have hclose := hp.close_of_log (by simp [hl])
      have hown := hp.owns_of_log (by simp [hl]) (by simp [hl])
      have hne := fun k => h.ne_block hp hown (k := k)
      subst htsc
      refine ⟨?logged, h.writing, h.one, ?sent, ?last, ?file⟩ <;>
        simp only [State.setChan, Function.update_self, Closure.setBlock]
      case logged =>
        rw [openRecords_of_owns, h.logged, openRecords_of_owns hown, List.append_assoc]
        · simp [Closure.cur, BlockData.records_writeOnBlock]
        · exact ⟨.inl hp.ready, by simp, .inl hclose⟩
      case sent =>
        rw [h.sent]
        congr 1
        refine List.map_congr_left fun k hk => ?_
        rw [Function.update_of_ne (hne k hk)]
      case last => exact h.last
      case file => exact h.file
  | full hl =>
      refine h.congr (Function.update_self ..) ⟨rfl, rfl, ?_, rfl, fun _ => rfl, Iff.rfl⟩
        (fun _ => Iff.rfl) rfl rfl
      simp only [Closure.owns, Closure.built, hl]
      grind
  | enqueueComp hl hcomp => simp [hp.raw] at hcomp
  | enqueueRaw hl hcomp hlen =>
      have hclose := hp.close_of_log (by simp [hl])
      have hown := hp.owns_of_log (by simp [hl]) (by simp [hl])
      have hns : ¬ (s.chan c).closeSent := by simp [Closure.closeSent, hclose]
      refine ⟨?logged, h.writing, h.one, ?sent, ?last, ?file⟩ <;>
        simp only [State.setChan, Function.update_self, rawQueue_concat_self]
      case logged =>
        rw [openRecords_of_not_owns, h.logged, openRecords_of_owns hown]
        · simp
        · simp [Closure.owns]
      case sent => simp [h.sent, Closure.cur]
      case last => simp [Closure.closeSent, hclose]
      case file => simpa [Closure.closeSent, hclose] using h.file_open hns
  | dequeue k q hl hq =>
      have hclose := hp.close_of_log (by simp [hl])
      have hns : ¬ (s.chan c).closeSent := by simp [Closure.closeSent, hclose]
      have hempty := hp.returns k (.inl (by simp [hq]))
      refine ⟨?logged, h.writing, h.one, ?sent, ?last, ?file⟩ <;>
        simp only [State.setChan, Function.update_self]
      case logged =>
        rw [openRecords_of_owns, h.logged, openRecords_of_not_owns, Closure.cur,
          BlockData.records_eq_nil hempty]
        · simp [Closure.owns, hl]
        · exact ⟨.inl hp.ready, by simp, .inl hclose⟩
      case sent => exact h.sent
      case last => simp [Closure.closeSent, hclose]
      case file => simpa [Closure.closeSent, hclose] using h.file_open hns
  | setIdFault => exact h.congr rfl (.refl _) (fun _ => Iff.rfl) rfl rfl
  | setId hl =>
      refine h.congr (Function.update_self ..) ⟨rfl, rfl, ?_, rfl, fun k => ?_, Iff.rfl⟩
        (fun _ => Iff.rfl) rfl rfl
      · simp [Closure.owns, Closure.built, hl]
      · by_cases hk : k = (s.chan c).block
        · subst hk
          simp [BlockData.records, Closure.cur]
        · simp [Function.update_of_ne hk]

/-- The steps of the closing thread. -/
theorem CloseMove.stream (h : Stream w s c out wr) (hp : Premises w s c) (hm : CloseMove s c s') :
    Stream w s' c out wr := by
  cases hm with
  | setCloseFile hc =>
      refine h.congr (Function.update_self ..) ⟨rfl, rfl, ?_, rfl, fun k => ?_, ?_⟩
        (fun _ => Iff.rfl) rfl rfl
      · simp [Closure.owns, Closure.built, hc]
      · by_cases hk : k = (s.chan c).block
        · subst hk
          simp [BlockData.records, Closure.cur]
        · simp [Function.update_of_ne hk]
      · simp [Closure.closeSent, hc]
  | enqueueComp hc hcomp => simp [hp.raw] at hcomp
  | enqueueRaw hc hcomp hlen =>
      have hlog : (s.chan c).log = .idle := hp.alone (by simp [hc])
      have hown : (s.chan c).owns := ⟨.inl hp.ready, by simp [hlog], .inr (.inr hc)⟩
      have hns : ¬ (s.chan c).closeSent := by simp [Closure.closeSent, hc]
      refine ⟨?logged, h.writing, h.one, ?sent, ?last, ?file⟩ <;>
        simp only [State.setChan, Function.update_self, rawQueue_concat_self]
      case logged =>
        rw [openRecords_of_not_owns, h.logged, openRecords_of_owns hown]
        · simp
        · simp [Closure.owns]
      case sent => simp [h.sent, Closure.cur]
      case last =>
        intro _ k hk
        simpa [← List.append_assoc] using hk.symm
      case file => simpa using h.file_open hns
  | decComp hc | dec hc =>
      refine h.congr (Function.update_self ..) ⟨rfl, rfl, ?_, rfl, fun _ => rfl, ?_⟩
        (fun _ => Iff.rfl) rfl rfl
      · simp [Closure.owns, Closure.built, hc]
      · simp [Closure.closeSent, hc]

/-- A thread that neither was nor is about to write a block of the channel. -/
theorem writing_update {pc : IoPc} (hold : ∀ m k, s.io t ≠ .write m ⟨c, k⟩)
    (hnew : ∀ m k, pc ≠ .write m ⟨c, k⟩) (k : Nat) :
    (∃ t' m, Function.update s.io t pc t' = .write m ⟨c, k⟩) ↔
      ∃ t' m, s.io t' = .write m ⟨c, k⟩ := by
  constructor
  · rintro ⟨t', m, ht⟩
    by_cases he : t' = t
    · rw [he, Function.update_self] at ht
      exact absurd ht (hnew m k)
    · rw [Function.update_of_ne he] at ht
      exact ⟨t', m, ht⟩
  · rintro ⟨t', m, ht⟩
    have he : t' ≠ t := fun he => hold m k (he ▸ ht)
    exact ⟨t', m, by rw [Function.update_of_ne he, ht]⟩

theorem IoGoto.ne_write {pc pc' : IoPc} (h : IoGoto s pc pc') (m : IoMode) (p : Ptr) :
    pc ≠ .write m p ∧ pc' ≠ .write m p := by
  cases h <;> simp

theorem IoMode.next_ne_write (m m' : IoMode) (p : Ptr) : m.next ≠ .write m' p := by
  cases m <;> simp [IoMode.next]

/-- Two I/O threads at work are one. -/
theorem Premises.unique (hp : Premises w s c) {t' : Nat} {m : IoMode} {p : Ptr}
    (ht : (s.io t).onDuty = true) (ht' : s.io t' = .write m p) : t' = t :=
  hp.counted.onDuty_unique hp.wf (by simp [ht', IoPc.onDuty]) ht

theorem rawQueue_cons_self (q : List IoBlock) :
    rawQueue c (.raw ⟨c, k⟩ :: q) = k :: rawQueue c q := by
  simp [rawQueue, IoBlock.rawOf]

theorem rawQueue_cons_of_ne {c' : Nat} (hc : c ≠ c') (q : List IoBlock) :
    rawQueue c (.raw ⟨c', k⟩ :: q) = rawQueue c q := by
  simp [rawQueue, IoBlock.rawOf, Ne.symm hc]

theorem rawQueue_cons_packed (b : Packed) (q : List IoBlock) :
    rawQueue c (.packed b :: q) = rawQueue c q := rfl

/-- The block the I/O thread takes next goes to its hands. -/
theorem Stream.popRaw {m : IoMode} {q : List IoBlock} (h : Stream w s c out wr)
    (hp : Premises w s c) (ht : s.io t = .pop m) (hq : s.ioQueue = .raw ⟨c, k⟩ :: q) :
    Stream w { s.setIo t (.write m ⟨c, k⟩) with ioQueue := q } c out [k] := by
  have hduty : (s.io t).onDuty = true := by simp [ht, IoPc.onDuty]
  have hno : ∀ t' m' k', s.io t' ≠ .write m' ⟨c, k'⟩ := by
    intro t' m' k' ht'
    rw [hp.unique hduty ht', ht] at ht'
    cases ht'
  have hwr : wr = [] := List.eq_nil_iff_forall_not_mem.mpr fun k' hk' => by
    obtain ⟨t', m', ht'⟩ := (h.writing k').mp hk'
    exact hno t' m' k' ht'
  subst hwr
  have hraw : rawQueue c s.ioQueue = k :: rawQueue c q := by rw [hq, rawQueue_cons_self]
  refine ⟨h.logged, fun k' => ?_, by simp, ?_, ?_, ?_⟩
  · constructor
    · rintro hk'
      rw [List.mem_singleton.mp hk']
      exact ⟨t, m, by simp⟩
    · rintro ⟨t', m', ht'⟩
      by_cases he : t' = t
      · subst he
        simp at ht'
        simp [ht'.2]
      · simp only [State.setIo, Function.update_of_ne he] at ht'
        exact absurd ht' (hno t' m' k')
  · simpa [hraw] using h.sent
  · simpa [hraw] using h.last
  · simpa [hraw] using h.file

/-- A block is in the stream once. -/
theorem Stream.not_mem_rawQueue {m : IoMode} (hp : Premises w s c)
    (ht : s.io t = .write m ⟨c, k⟩) : k ∉ rawQueue c s.ioQueue := by
  intro hk
  have hcount := List.count_pos_iff.mpr hk
  rw [count_rawQueue] at hcount
  have hlt : t < s.ioCnt := hp.wf.io_lt (by simp [ht])
  have hle := le_tally (w := IoPc.holds ⟨c, k⟩) (f := s.io) hlt
  have hocc := hp.part k
  simp only [ht, IoPc.holds_write, if_true] at hle
  simp only [occurrences, inFlight] at hocc
  have : (if (s.chan c).built ∧ k < numBufferBlock then 1 else 0) ≤ 1 := by split <;> omega
  omega

/-- The block that carries `close_file` is the last of the stream, and the
last one, once enqueued, carries it. -/
theorem Stream.closeFile_iff (h : Stream w s c out [k]) (hp : Premises w s c)
    (hraw : k ∉ rawQueue c s.ioQueue) (hne : (s.chan c).owns → k ≠ (s.chan c).block) :
    ((s.chan c).blocks k).closeFile = true ↔
      (s.chan c).closeSent ∧ rawQueue c s.ioQueue = [] := by
  constructor
  · intro hf
    obtain ⟨hk, hc1, hc2⟩ := hp.tidy.flag k hf
    have hlog := hp.alone hc1
    have hsent : (s.chan c).closeSent := by
      by_contra hns
      refine hne ⟨.inl hp.ready, by simp [hlog], ?_⟩ hk
      simp only [Closure.closeSent] at hns
      cases hc : (s.chan c).close <;> simp_all
    refine ⟨hsent, ?_⟩
    by_contra hq
    obtain ⟨k', hk'⟩ := Option.isSome_iff_exists.mp (List.getLast?_isSome.mpr hq)
    have hlast := h.last hsent k' (by rw [List.getLast?_append, hk']; rfl)
    exact hraw (hk ▸ hlast ▸ List.mem_of_getLast? hk')
  · rintro ⟨hsent, hq⟩
    have hk := h.last hsent k (by simp [hq])
    rw [hk]
    exact (hp.tidy.lastId hsent).2

/-- The I/O thread writes the records of a block. -/
theorem Stream.write {m : IoMode} (h : Stream w s c out wr) (hp : Premises w s c)
    (ht : s.io t = .write m ⟨c, k⟩) (hm : s' =
      { (s.setChan c ((s.chan c).setBlock k
          { (s.chan c).blocks k with blockIdx := 0 })).setIo t (.send m ⟨c, k⟩) with
        sink := s.sink.setLogf c
          (writeRecords ((s.chan c).writeHandlerF.getD .writeInAscii) (s.sink.chLogf c)
            ((s.chan c).blocks k).records ((s.chan c).blocks k).closeFile) }) :
    Stream w s' c (out ++ [((s.chan c).blocks k).records]) [] := by
  have hduty : (s.io t).onDuty = true := by simp [ht, IoPc.onDuty]
  have hk : k ∈ wr := (h.writing k).mpr ⟨t, m, ht⟩
  have hwr : wr = [k] := by
    cases wr with
    | nil => simp at hk
    | cons k' wr =>
        have hone := h.one
        simp only [List.length_cons] at hone
        have hnil : wr = [] := List.length_eq_zero_iff.mp (by omega)
        subst hnil
        rw [List.mem_singleton.mp hk]
  subst hwr
  have hraw := Stream.not_mem_rawQueue hp ht
  have hne : (s.chan c).owns → k ≠ (s.chan c).block := fun hown =>
    h.ne_block hp hown (by simp)
  have hclose := h.closeFile_iff hp hraw hne
  subst hm
  refine ⟨?logged, fun k' => ?writing, by simp, ?sent, ?last, ?file⟩ <;>
    simp only [State.setChan, State.setIo, Function.update_self]
  case logged =>
    rw [openRecords_setBlock hne]
    exact h.logged
  case writing =>
    constructor
    · simp
    · rintro ⟨t', m', ht'⟩
      by_cases he : t' = t
      · simp [he] at ht'
      · rw [Function.update_of_ne he] at ht'
        exact absurd (hp.unique hduty ht') he
  case sent =>
    simp only [Closure.setBlock, h.sent, List.singleton_append, List.nil_append, List.map_cons,
      List.append_assoc, List.append_cancel_left_eq, List.cons.injEq, true_and]
    refine List.map_congr_left fun k' hk' => ?_
    have hk'' : k' ≠ k := by
      rintro rfl
      exact hraw hk'
    rw [Function.update_of_ne hk'']
  case last =>
    intro hc k' hk'
    refine h.last hc k' ?_
    rw [List.nil_append] at hk'
    rw [List.getLast?_append, hk']
    rfl
  case file =>
    have hfile : s.sink.chLogf c = ⟨out.flatten.flatMap w.bytes, true, 0⟩ := by
      simpa using h.file
    have hsent : ((s.chan c).setBlock k { (s.chan c).blocks k with blockIdx := 0 }).closeSent ↔
        (s.chan c).closeSent := Iff.rfl
    rw [Sink.setLogf]
    simp only [Function.update_self, writeRecords_eq, hfile, hp.writer, Option.getD_some, hsent,
      List.nil_append, ← hclose]
    cases hcf : ((s.chan c).blocks k).closeFile <;> simp [Ofstream.write, Ofstream.close]

theorem SameStream.update {f : Nat → Closure} {c' : Nat} {ch : Closure}
    (h : c = c' → SameStream (f c') ch) : SameStream (f c) (Function.update f c' ch c) := by
  by_cases hc : c = c'
  · rw [hc, Function.update_self]
    exact h hc
  · rw [Function.update_of_ne hc]
    exact .refl _

/-- Channel `c` is in the stream, so it is not compressed. -/
theorem Premises.ne_of_kind (hp : Premises w s c) {c' : Nat} (h : (s.chan c').opensAs true) :
    c ≠ c' := by
  rintro rfl
  have := h.2
  rw [hp.raw] at this
  cases this

/-- The steps of an I/O thread. -/
theorem IoMove.stream (h : Stream w s c out wr) (hp : Premises w s c) (hm : IoMove s t s') :
    ∃ out wr, Stream w s' c out wr := by
  cases hm with
  | @goto pc pc' hpc hg =>
      refine ⟨out, wr, h.congr rfl (.refl _) (writing_update ?_ ?_) rfl rfl⟩
      · exact fun m k => hpc ▸ (hg.ne_write m ⟨c, k⟩).1
      · exact fun m k => (hg.ne_write m ⟨c, k⟩).2
  | popRaw m p q ht hq =>
      obtain ⟨c', k⟩ := p
      by_cases hc : c = c'
      · subst hc
        exact ⟨out, [k], h.popRaw hp ht hq⟩
      · refine ⟨out, wr, h.congr rfl (.refl _) (writing_update (by simp [ht]) ?_) ?_ rfl⟩
        · simp [Ne.symm hc]
        · rw [hq, rawQueue_cons_of_ne hc]
  | popPacked m b q k ht hq hk =>
      have hb : c ≠ b.ch := hp.ne_of_kind (hp.routed.ioQueue (.packed b) (by simp [hq]))
      refine ⟨out, wr, h.congr rfl (.refl _) (writing_update (by simp [ht]) ?_) ?_ ?_⟩
      · exact fun m' k' => m.next_ne_write m' _
      · rw [hq, rawQueue_cons_packed]
      · exact (writeCompressedBlock_frame hk hb).chLogf
  | popFault m b q ht hq hk =>
      refine ⟨out, wr, h.congr rfl (.refl _) (fun _ => Iff.rfl) ?_ rfl⟩
      rw [hq, rawQueue_cons_packed]
  | write m p ht hw =>
      obtain ⟨c', k⟩ := p
      by_cases hc : c = c'
      · subst hc
        exact ⟨_, [], h.write hp ht rfl⟩
      · refine ⟨out, wr, h.congr rfl (.update fun he => absurd he hc)
          (writing_update (by simp [ht, Ne.symm hc]) (by simp)) rfl ?_⟩
        simp [Function.update_of_ne hc]
  | send m p ht hlen =>
      refine ⟨out, wr, h.congr rfl (.update fun _ => ?_) (writing_update (by simp [ht]) ?_) rfl rfl⟩
      · exact ⟨rfl, rfl, Iff.rfl, rfl, fun _ => rfl, Iff.rfl⟩
      · exact fun m' k' => m.next_ne_write m' _
  | quickExit | writeFault =>
      exact ⟨out, wr, h.congr rfl (.refl _) (fun _ => Iff.rfl) rfl rfl⟩
  | start ht | clearPtr ht | clearIo ht | clearComp ht | clearVec ht =>
      exact ⟨out, wr, h.congr rfl (.refl _) (writing_update (by simp [ht]) (by simp)) rfl rfl⟩

/-- The steps of a compression thread. -/
theorem CompMove.stream (h : Stream w s c out wr) (hp : Premises w s c) (hm : CompMove sq s t s') :
    Stream w s' c out wr := by
  have hr := hp.routed.comp t
  cases hm with
  | work d p ht =>
      rw [ht] at hr
      refine h.congr rfl (.update fun he => absurd he (hp.ne_of_kind hr)) (fun _ => Iff.rfl) rfl rfl
  | send d p b ht hlen =>
      refine h.congr rfl (.update fun _ => ?_) (fun _ => Iff.rfl) rfl rfl
      exact ⟨rfl, rfl, Iff.rfl, rfl, fun _ => rfl, Iff.rfl⟩
  | push d b ht hlen =>
      refine h.congr rfl (.refl _) (fun _ => Iff.rfl) ?_ rfl
      simp [rawQueue, IoBlock.rawOf]
  | _ => exact h.congr rfl (.refl _) (fun _ => Iff.rfl) rfl rfl

/-- Exchanging `handler_f` does not touch the stream. -/
theorem callClose_sameStream (ch : Closure) (hok : ch.Ok) :
    SameStream ch { ch with
      handlerF := .nullHandler
      close := if ch.handlerF = .bufferIdentityHandler then .setCloseFile else ch.close } := by
  have hc := hok.closing
  refine ⟨rfl, rfl, ?_, rfl, fun _ => rfl, ?_⟩
  · simp only [Closure.owns, Closure.built]
    grind
  · simp only [Closure.closeSent]
    grind

/-- **Step lemma**: the stream of an open channel goes on. -/
theorem Stream.step (h : Stream w s c out wr) (hp : Premises w s c) (hm : Move sq s l s') :
    ∃ out wr, Stream w s' c out wr := by
  cases hm with
  | openChannel f compress =>
      refine ⟨out, wr, h.congr rfl (.update fun hc => ?_) (fun _ => Iff.rfl) rfl rfl⟩
      have := hp.wf.fresh c (Nat.le_of_eq hc.symm)
      simp [hp.ready] at this
  | openStep c' h' =>
      have hio : ∀ k, (∃ t m, Function.update s.io s.ioCnt .start t = .write m ⟨c, k⟩) ↔
          ∃ t m, s.io t = .write m ⟨c, k⟩ :=
        writing_update (by simp [(hp.wf.io s.ioCnt).mpr (Nat.le_refl _)]) (by simp)
      have hc : c ≠ c' := by
        rintro rfl
        have := hp.ready
        cases h' <;> simp_all
      cases h' <;>
        refine ⟨out, wr, h.congr rfl (.update fun he => absurd he hc) ?_ rfl rfl⟩ <;>
        first | exact fun _ => Iff.rfl | exact hio
  | finishOpen c' ok mem hopn =>
      have hc : c ≠ c' := by
        rintro rfl
        simp [hp.ready] at hopn
      refine ⟨out, wr, h.congr rfl (.update fun he => absurd he hc) (fun _ => Iff.rfl) rfl ?_⟩
      simp [Function.update_of_ne hc]
  | logTS c' d hopn hlog h' =>
      have hlogging : ∀ pc : LogPc, pc ≠ .dequeue →
          SameStream (s.chan c') { s.chan c' with log := pc } := by
        intro pc hpc
        refine ⟨rfl, rfl, ?_, rfl, fun _ => rfl, Iff.rfl⟩
        simp [Closure.owns, Closure.built, hlog, hpc]
      refine ⟨out, wr, ?_⟩
      cases h' with
      | poison =>
          refine h.congr rfl (.update fun hc => ?_) (fun _ => Iff.rfl) rfl rfl
          exact callClose_sameStream _ (hc ▸ hp.ok)
      | null => exact h
      | buffer | tsc =>
          exact h.congr rfl (.update fun _ => hlogging _ (by simp)) (fun _ => Iff.rfl) rfl rfl
      | first hd hf =>
          have hc : c ≠ c' := by
            rintro rfl
            obtain hh | hh := hp.ok.handler <;> rw [hf] at hh
            · have := handlerOf_eq_tsc.mp hh.symm
              simp [hp.notTsc] at this
            · cases hh
          refine h.congr rfl (.update fun he => absurd he hc) (fun _ => Iff.rfl) rfl ?_
          simp [Function.update_of_ne hc]
  | logStep c' h' =>
      by_cases hc : c = c'
      · subst hc
        exact ⟨out, wr, h'.stream h hp⟩
      · refine ⟨out, wr, ?_⟩
        cases h' with
        | setIdFault => exact h.congr rfl (.refl _) (fun _ => Iff.rfl) rfl rfl
        | _ =>
            refine h.congr rfl (.update fun he => absurd he hc) (fun _ => Iff.rfl) ?_ rfl
            first | rfl | exact rawQueue_concat_of_ne hc _
  | closeChannel c' hopn =>
      refine ⟨out, wr, h.congr rfl (.update fun hc => ?_) (fun _ => Iff.rfl) rfl rfl⟩
      exact callClose_sameStream _ (hc ▸ hp.ok)
  | closeStep c' h' =>
      by_cases hc : c = c'
      · subst hc
        exact ⟨out, wr, h'.stream h hp⟩
      · refine ⟨out, wr, ?_⟩
        cases h' <;> refine h.congr rfl (.update fun he => absurd he hc) (fun _ => Iff.rfl) ?_ rfl <;>
          first | rfl | exact rawQueue_concat_of_ne hc _
  | io t h' => exact h'.stream h hp
  | comp t h' => exact ⟨out, wr, h'.stream h hp⟩
  | exitStep h' =>
      cases h' with
      | close m i c' hpc hi =>
          refine ⟨out, wr, h.congr rfl (.update fun hc => ?_) (fun _ => Iff.rfl) rfl rfl⟩
          exact callClose_sameStream _ (hc ▸ hp.ok)
      | _ => exact ⟨out, wr, h.congr rfl (.refl _) (fun _ => Iff.rfl) rfl rfl⟩
  | _ => exact ⟨out, wr, h.congr rfl (.refl _) (fun _ => Iff.rfl) rfl rfl⟩

end Stream

/-! ## every run -/

section Runs

variable {sq : Squash} {s s' : State} {l : Label} {ok : State → Label → Prop} {c : Nat}
  {w : WriteHandler}

/-- A channel that was given out keeps its format and its functions. -/
theorem ChanStep.same_kind {P : Prop} {ch ch' : Closure} (h : ChanStep P ch ch')
    (hne : ch.opn ≠ .fresh) : ch'.format = ch.format ∧ ch'.compress = ch.compress ∧
      ch'.writeHandlerF = ch.writeHandlerF := by
  cases h with
  | opened f compress h => exact absurd h hne
  | _ => exact ⟨rfl, rfl, rfl⟩

/-- A channel becomes ready by `finishOpen` only. -/
theorem Move.finish_of_ready (hwf : Wf s) (hm : Move sq s l s') (h : (s.chan c).opn ≠ .ready)
    (h' : (s'.chan c).opn = .ready) : ∃ ok mem, l = .finishOpen c ok mem := by
  by_contra hl
  have hb : (s.chan c).built :=
    (hm.built_iff hwf fun ok mem he => hl ⟨ok, mem, he⟩).mp (.inl h')
  have hd : (s.chan c).opn = .defect := hb.resolve_left h
  have hs := hm.chan hwf c
  generalize s'.chan c = ch' at hs h'
  cases hs <;> simp_all [OpenPc.opening, Closure.setBlock]

/-- Before a channel has its blocks, none is on its way. -/
theorem Partitioned.no_flight (h : Partitioned s c) (hwf : Wf s) (hb : ¬ (s.chan c).built) :
    rawQueue c s.ioQueue = [] ∧ ∀ t m k, s.io t ≠ .write m ⟨c, k⟩ := by
  have hzero : ∀ k, inFlight s ⟨c, k⟩ = 0 := by
    intro k
    have := h k
    simp only [occurrences, hb, false_and, if_false] at this
    omega
  constructor
  · refine List.eq_nil_iff_forall_not_mem.mpr fun k hk => ?_
    have hpos := List.count_pos_iff.mpr hk
    have hz := hzero k
    rw [count_rawQueue] at hpos
    simp only [inFlight] at hz
    omega
  · intro t m k ht
    have := inFlight_pos (t := t) (p := ⟨c, k⟩) hwf (.inl (by simp [ht, IoPc.hand]))
    have := hzero k
    omega

/-- The stream of a new channel is empty. -/
theorem Stream.finishOpen {b : Bool} {mem : Nat → Nat → LogData} (hwf : Wf s)
    (hpart : Partitioned s c) (hok : (s.chan c).Ok) (hm : Move sq s (.finishOpen c b mem) s')
    (hready : (s'.chan c).opn = .ready) : Stream w s' c [] [] := by
  cases hm with
  | finishOpen _ _ _ hopn =>
    have hb : ¬ (s.chan c).built := by simp [Closure.built, hopn]
    have hunb := hok.unbuilt hb
    obtain ⟨hraw, hno⟩ := hpart.no_flight hwf hb
    simp only [State.setChan, Function.update_self] at hready
    split at hready
    case isFalse => cases hready
    case isTrue hopened =>
      have hns : ¬ (s.chan c).closeSent := by simp [Closure.closeSent, hunb.2.1]
      refine ⟨?logged, fun k => ?writing, by simp, ?sent, ?last, ?file⟩ <;>
        simp only [State.setChan, Function.update_self, hraw, List.append_nil]
      case logged =>
        rw [openRecords_of_owns]
        · simp [hunb, Closure.cur, BlockData.new, BlockData.records]
        · simp [Closure.owns, Closure.built, hopened, hunb]
      case writing => simp [hno]
      case sent => simp [hunb]
      case last => simp
      case file => simp [Closure.closeSent, hunb, hopened, Ofstream.opened]

/-- **Run lemma**: the stream of an uncompressed channel without TSC format
is intact in every state. -/
theorem Reached.stream (hone : ∀ s l, ok s l → OneThread c s l) (hr : Reached sq ok s)
    (hready : (s.chan c).opn = .ready) (hraw : (s.chan c).compress = false)
    (htsc : (s.chan c).format.isTsc = false) (hw : (s.chan c).writeHandlerF = some w) :
    ∃ out wr, Stream w s c out wr := by
  revert hready hraw htsc hw
  refine hr.invariant_of (J := Reached sq ok) (I := fun s => (s.chan c).opn = .ready →
    (s.chan c).compress = false → (s.chan c).format.isTsc = false →
    (s.chan c).writeHandlerF = some w → ∃ out wr, Stream w s c out wr) (fun _ h => h) ?_ ?_
  · intro hready
    simp [State.init, Closure.new] at hready
  · intro s l s' hr ih _ hs hready hraw htsc hw
    have hm := (step_move hs).2
    have hwf := hr.wf
    have hpart := (hr.partitioned hone).1
    by_cases hr0 : (s.chan c).opn = .ready
    · have hkind := (hm.chan hwf c).same_kind (by simp [hr0])
      rw [hkind.2.1] at hraw
      rw [hkind.1] at htsc
      rw [hkind.2.2] at hw
      obtain ⟨out, wr, h⟩ := ih hr0 hraw htsc hw
      obtain ⟨halone, htidy⟩ := hr.alone_tidy hone
      exact h.step ⟨hwf, hr.counted, hr.routed, hr.chanOk c, halone, htidy, hpart,
        (hr.partitioned hone).2, hr0, hraw, htsc, hw⟩ hm
    · obtain ⟨b, mem, rfl⟩ := hm.finish_of_ready hwf hr0 hready
      exact ⟨[], [], Stream.finishOpen hwf hpart (hr.chanOk c) hm hready⟩

end Runs

/-! ## the calls of a run -/

/-- The record a step hands to `logTS` of channel `c`, if it does. -/
def callOf (c : Nat) : Label → Option LogData
  | .logTS c' d => if c' = c then some d else none
  | _ => none

/-- The records handed to `logTS` of channel `c` before the channel was
closed, in order. -/
def calls (c : Nat) : List (State × Label) → List LogData
  | [] => []
  | (s, l) :: tr =>
      if closesNow s l = some c then [] else (callOf c l).toList ++ calls c tr

/-- The record the logging thread is about to write on its block. -/
def LogPc.pending : LogPc → List LogData
  | .write _ d => [d]
  | _ => []

section Calls

variable {sq : Squash} {s s' : State} {l : Label} {ok : State → Label → Prop} {c : Nat}
  {tr : List (State × Label)}

theorem calls_concat_of_closed (h : ∃ x ∈ tr, closesNow x.1 x.2 = some c) (x : State × Label) :
    calls c (tr ++ [x]) = calls c tr := by
  induction tr with
  | nil => simp at h
  | cons y tr ih =>
      obtain ⟨s, l⟩ := y
      by_cases hc : closesNow s l = some c
      · simp [calls, hc]
      · have htr : ∃ x ∈ tr, closesNow x.1 x.2 = some c := by simpa [hc] using h
        simp [calls, hc, ih htr]

theorem calls_concat_of_open (h : ∀ x ∈ tr, closesNow x.1 x.2 ≠ some c) (s : State) (l : Label) :
    calls c (tr ++ [(s, l)]) = calls c tr ++
      if closesNow s l = some c then [] else (callOf c l).toList := by
  induction tr with
  | nil => simp [calls]
  | cons y tr ih =>
      obtain ⟨s', l'⟩ := y
      have hc : closesNow s' l' ≠ some c := h (s', l') List.mem_cons_self
      simp [calls, hc, ih fun x hx => h x (List.mem_cons_of_mem _ hx)]

/-- The records logged and about to be logged. -/
def Closure.taken (ch : Closure) : List LogData := ch.logged ++ ch.log.pending

theorem taken_update {f : Nat → Closure} {c' : Nat} {ch : Closure}
    (h : c = c' → ch.taken = (f c').taken) : (Function.update f c' ch c).taken = (f c).taken := by
  by_cases hc : c = c'
  · rw [hc, Function.update_self]
    exact h hc
  · rw [Function.update_of_ne hc]

/-- A step that is no call of `logTS` takes no record. -/
theorem Move.taken_of_not_call (hwf : Wf s) (hok : (s.chan c).Ok) (hm : Move sq s l s')
    (hl : ∀ c' d, l ≠ .logTS c' d) : (s'.chan c).taken = (s.chan c).taken := by
  cases hm with
  | logTS c' d => exact absurd rfl (hl c' d)
  | openChannel f compress =>
      refine taken_update fun hc => ?_
      have hunb := hok.unbuilt (by simp [Closure.built, hwf.fresh c (Nat.le_of_eq hc.symm)])
      rw [← hc]
      simp [Closure.taken, hunb, Closure.new]
  | openStep c' h => cases h <;> exact taken_update fun _ => rfl
  | finishOpen => exact taken_update fun _ => rfl
  | logStep c' h =>
      cases h with
      | full h =>
          refine taken_update fun _ => ?_
          simp only [Closure.taken, h]
          split <;> rfl
      | write tsc d h => exact taken_update fun _ => by simp [Closure.taken, LogPc.pending, h]
      | dequeue k q h => exact taken_update fun _ => by simp [Closure.taken, LogPc.pending, h]
      | enqueueComp h | enqueueRaw h | setId h =>
          exact taken_update fun _ => by simp [Closure.taken, LogPc.pending, h]
      | setIdFault => rfl
  | closeChannel => exact taken_update fun _ => rfl
  | closeStep c' h => cases h <;> exact taken_update fun _ => rfl
  | io t h =>
      cases h with
      | write | send => exact taken_update fun _ => rfl
      | _ => rfl
  | comp t h =>
      cases h with
      | work | send => exact taken_update fun _ => rfl
      | _ => rfl
  | exitStep h =>
      cases h with
      | close => exact taken_update fun _ => rfl
      | _ => rfl
  | _ => rfl

/-- A call of `logTS` takes the record, unless the handler is `NullHandler` or
the record is the poison pill. -/
theorem CallMove.taken {d : LogData} {c' : Nat} (hlog : (s.chan c').log = .idle)
    (hm : CallMove s c' d s') : (s'.chan c).taken = (s.chan c).taken ++
      if (s.chan c).handlerF = .nullHandler ∨ closesNow s (.logTS c' d) = some c then []
      else (callOf c (.logTS c' d)).toList := by
  by_cases hc : c = c'
  · subst hc
    cases hm <;> simp_all [Closure.taken, LogPc.pending, callOf, closesNow, callClose]
  · cases hm <;> simp_all [callOf, closesNow, callClose, Ne.symm hc]

/-- `handler_f` becomes `NullHandler` by a closing step and by no other. -/
theorem Move.null_iff (hwf : Wf s) (hok : (s.chan c).Ok) (hm : Move sq s l s') :
    (s'.chan c).handlerF = .nullHandler ↔
      (s.chan c).handlerF = .nullHandler ∨ closesNow s l = some c := by
  have hsame : ∀ {c' : Nat} {ch : Closure}, (c = c' → ch.handlerF = (s.chan c').handlerF) →
      (Function.update s.chan c' ch c).handlerF = (s.chan c).handlerF := by
    intro c' ch h
    by_cases hc : c = c'
    · rw [hc, Function.update_self, h hc]
    · rw [Function.update_of_ne hc]
  have hkeep : (s'.chan c).handlerF = (s.chan c).handlerF → closesNow s l ≠ some c →
      ((s'.chan c).handlerF = .nullHandler ↔
        (s.chan c).handlerF = .nullHandler ∨ closesNow s l = some c) := by
    intro h hl
    simp [h, hl]
  have hclose : ∀ c', ((callClose s c').chan c).handlerF = .nullHandler ↔
      (s.chan c).handlerF = .nullHandler ∨ c' = c := by
    intro c'
    by_cases hc : c = c'
    · subst hc
      simp [callClose]
    · simp [callClose, Function.update_of_ne hc, Ne.symm hc]
  cases hm with
  | openChannel f compress =>
      simp only [State.setChan, closesNow, reduceCtorEq, or_false]
      by_cases hc : c = s.nextChannel
      · have hunb := hok.unbuilt (by simp [Closure.built, hwf.fresh c (Nat.le_of_eq hc.symm)])
        have hnull : ∀ f, handlerOf f ≠ .nullHandler := by intro f; cases f <;> simp [handlerOf]
        rw [hc, Function.update_self, ← hc, hunb.2.2.2.2.1]
        simp [Closure.new, hnull]
      · rw [Function.update_of_ne hc]
  | openStep c' h => cases h <;> exact hkeep (hsame fun _ => rfl) (by simp [closesNow])
  | finishOpen => exact hkeep (hsame fun _ => rfl) (by simp [closesNow])
  | logTS c' d hopn hlog h =>
      cases h with
      | poison hd => simpa [closesNow, hd] using hclose c'
      | null hd hn => exact hkeep rfl (by simp [closesNow, hd])
      | buffer hd | first hd | tsc hd =>
          exact hkeep (hsame fun _ => rfl) (by simp [closesNow, hd])
  | logStep c' h =>
      cases h with
      | setIdFault => exact hkeep rfl (by simp [closesNow])
      | _ => exact hkeep (hsame fun _ => rfl) (by simp [closesNow])
  | closeStep c' h => cases h <;> exact hkeep (hsame fun _ => rfl) (by simp [closesNow])
  | closeChannel c' hopn => simpa [closesNow] using hclose c'
  | io t h =>
      cases h with
      | write | send => exact hkeep (hsame fun _ => rfl) (by simp [closesNow])
      | _ => exact hkeep rfl (by simp [closesNow])
  | comp t h =>
      cases h with
      | work | send => exact hkeep (hsame fun _ => rfl) (by simp [closesNow])
      | _ => exact hkeep rfl (by simp [closesNow])
  | exitStep h =>
      cases h with
      | close m i c' hpc hi hopn => simpa [closesNow, hpc, hi, hopn] using hclose c'
      | closeFault m i c' hpc hi hopn => exact hkeep rfl (by simp [closesNow, hpc, hi, hopn])
      | goto hpc hg =>
          refine hkeep rfl ?_
          cases hg with
          | allClosed m i hi => simp [closesNow, hpc, hi]
          | _ => simp [closesNow, hpc]
      | quickTerm hpc | quickExit hpc => exact hkeep rfl (by simp [closesNow, hpc])
  | _ => exact hkeep rfl (by simp [closesNow])

/-- **Run lemma**: the records taken are those of the calls made before the
channel was closed. -/
theorem taken_eq_calls (h : Trace (step sq) State.init ok tr s) (c : Nat) :
    (s.chan c).taken = calls c tr ∧
      ((s.chan c).handlerF = .nullHandler ↔ ∃ x ∈ tr, closesNow x.1 x.2 = some c) := by
  induction h with
  | init => simp [State.init, Closure.new, Closure.taken, LogPc.pending, calls, handlerOf]
  | @step tr s s' l htr hg hs ih =>
      obtain ⟨htaken, hnull⟩ := ih
      have hr : Reached sq ok s := htr.reach
      have hm := (step_move hs).2
      have hstep : (s'.chan c).taken = (s.chan c).taken ++
          if (s.chan c).handlerF = .nullHandler ∨ closesNow s l = some c then []
          else (callOf c l).toList := by
        cases hl : l with
        | logTS c' d =>
            subst hl
            cases hm with
            | logTS _ _ hopn hlog h => exact h.taken hlog
        | _ => rw [hm.taken_of_not_call hr.wf (hr.chanOk c) (by simp [hl])]; simp [callOf]
      refine ⟨?_, ?_⟩
      · rw [hstep, htaken]
        by_cases hn : (s.chan c).handlerF = .nullHandler
        · rw [calls_concat_of_closed (hnull.mp hn)]
          simp [hn]
        · rw [calls_concat_of_open]
          · simp [hn]
          · exact fun x hx hc => hn (hnull.mpr ⟨x, hx, hc⟩)
      · rw [hm.null_iff hr.wf (hr.chanOk c), hnull]
        simp [or_and_right, exists_or]

end Calls

/-! ## refinement -/

/-- The I/O thread has written the closing block of channel `c`: it has been
enqueued, and is neither in `io_queue` nor about to be written. -/
def ClosingWritten (s : State) (c : Nat) : Prop :=
  (s.chan c).closeSent ∧ .raw ⟨c, (s.chan c).block⟩ ∉ s.ioQueue ∧
    ∀ t m, s.io t ≠ .write m ⟨c, (s.chan c).block⟩

section Refinement

variable {sq : Squash} {s : State} {c : Nat} {tr : List (State × Label)} {w : WriteHandler}

/-- Once the closing block is written, nothing is left in the stream. -/
theorem Stream.drained {out : List (List LogData)} {wr : List Nat} (h : Stream w s c out wr)
    (hd : ClosingWritten s c) : wr ++ rawQueue c s.ioQueue = [] := by
  obtain ⟨hsent, hq, hio⟩ := hd
  by_contra hne
  obtain ⟨k, hk⟩ := Option.isSome_iff_exists.mp (List.getLast?_isSome.mpr hne)
  have hblock := h.last hsent k hk
  subst hblock
  obtain hmem | hmem := List.mem_append.mp (List.mem_of_getLast? hk)
  · obtain ⟨t, m, ht⟩ := (h.writing _).mp hmem
    exact hio t m ht
  · have hpos := List.count_pos_iff.mpr hmem
    rw [count_rawQueue] at hpos
    exact hq (List.count_pos_iff.mp hpos)

/-- **Buffered logging refines direct logging.**  Let an uncompressed
channel of format ASCII or BINARY be used by one thread, in any run of the
system.  Once the I/O thread has written the closing block, the channel's
file is what `IdentityHandler` of the same format writes for the same calls
of `logTS`, closed after the last record. -/
theorem buffered_refines_identity (hr : Trace (step sq) State.init (OneThread c) tr s)
    (hready : (s.chan c).opn = .ready) (hraw : (s.chan c).compress = false)
    (hfmt : (s.chan c).format = .ascii ∨ (s.chan c).format = .binary)
    (hdone : ClosingWritten s c) :
    ∃ cl, (initIdentityHandler (s.chan c).format).logAll (calls c tr) = some cl ∧
      s.sink.chLogf c = cl.chLogf.close := by
  have hreach : Reached sq (OneThread c) s := hr.reach
  have htsc : (s.chan c).format.isTsc = false := by
    obtain h | h := hfmt <;> simp [h, LogFormat.isTsc]
  obtain ⟨w, hw, hid⟩ : ∃ w, writeHandlerOf (s.chan c).format = some w ∧
      initIdentityHandler (s.chan c).format =
        ⟨some .identityHandler, some w, true, .opened⟩ := by
    obtain h | h := hfmt <;> simp [h, writeHandlerOf, initIdentityHandler]
  obtain ⟨out, wr, hst⟩ := hreach.stream (fun _ _ h => h) hready hraw htsc
    ((hreach.chanOk c).writer.trans hw)
  have hdrained := hst.drained hdone
  -- nothing is pending: the channel is closed, and all blocks sent are written
  have hcalls : calls c tr = out.flatten := by
    have hclose : (s.chan c).close ≠ .none := by
      obtain h | h | h := hdone.1 <;> simp [h]
    have hlog := (hreach.alone_tidy fun _ _ h => h).1 hclose
    have hown : ¬ (s.chan c).owns := by
      rintro ⟨-, -, h⟩
      obtain h' | h' | h' := hdone.1 <;> simp [h'] at h
    rw [← (taken_eq_calls hr c).1, Closure.taken, hlog, hst.logged, openRecords_of_not_owns hown,
      hst.sent, hdrained]
    simp [LogPc.pending]
  refine ⟨_, by rw [hid]; exact logAll_identityHandler _ _ rfl rfl, ?_⟩
  rw [hst.file, hdrained, hcalls]
  simp [hdone.1, Ofstream.write, Ofstream.opened, Ofstream.close]

/-- Three records are logged, the channel closed and the closing block
written. -/
theorem buffered_refines_identity_three_records :
    ∃ tr s cl, Trace (step copySquash) State.init (OneThread 0) tr s ∧
      calls 0 tr = someRecords ∧
      (initIdentityHandler .ascii).logAll (calls 0 tr) = some cl ∧
      s.sink.chLogf 0 = cl.chLogf.close := by
  have hrun : ∃ tr s, Trace (step copySquash) State.init (OneThread 0) tr s ∧
      (calls 0 tr == someRecords && s.ioQueue.isEmpty && decide (s.ioCnt = 1 ∧
        s.io 0 = .send .main ⟨0, 0⟩ ∧ (s.chan 0).opn = .ready ∧ (s.chan 0).compress = false ∧
        (s.chan 0).format = .ascii ∧ (s.chan 0).closeSent)) = true :=
    Trace.of_exec_any (closingRun ++ [.io 0]) _ (by decide +kernel)
  obtain ⟨tr, s, hr, hs⟩ := hrun
  simp only [Bool.and_eq_true, beq_iff_eq, List.isEmpty_iff, decide_eq_true_eq] at hs
  obtain ⟨⟨hcalls, hq⟩, hcnt, hio, hready, hraw, hfmt, hsent⟩ := hs
  have hdone : ClosingWritten s 0 := by
    refine ⟨hsent, by simp [hq], fun t m ht => ?_⟩
    have hlt := (Reached.wf hr.reach).io_lt (t := t) (by simp [ht])
    rw [hcnt] at hlt
    obtain rfl : t = 0 := by omega
    simp [hio] at ht
  obtain ⟨cl, hcl, hfile⟩ := buffered_refines_identity hr hready hraw (.inl hfmt) hdone
  exact ⟨tr, s, cl, hr, hcalls, hfmt ▸ hcl, hfile⟩

end Refinement

end CloudProfiler
