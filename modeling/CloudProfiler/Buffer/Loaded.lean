import CloudProfiler.Buffer.Defined
import CloudProfiler.Buffer.Deliver
import CloudProfiler.Buffer.Formats
import CloudProfiler.Convert.Files
import CloudProfiler.LogText

/-!
# CloudProfiler.Buffer.Loaded

From the calls of `logTS` to the dictionary of the scripts: the queues and
threads of the profiler, the file, the converter, `loadTS`.

* `Closure.Within` — no block holds more records than it has room for, which
  is what the buffers of the converter are made for;
* `log_loaded` — the scripts see every call, under its tuple and in order.
-/

namespace CloudProfiler

/-! ## the sizes of blocks -/

/-- The blocks enqueued are no longer than a block, and the open one has room
for a record whenever one is written. -/
structure Closure.Within (ch : Closure) : Prop where
  sent : ∀ ds ∈ ch.sent, ds.length ≤ bufferBlockSize
  cur : ch.owns → ch.cur.blockIdx ≤ bufferBlockSize
  room : ch.owns → ch.log ≠ .full → ch.log ≠ .enqueue → ch.cur.blockIdx < bufferBlockSize

section Within

variable {sq : Squash} {s s' : State} {l : Label} {ok : State → Label → Prop} {c : Nat}

theorem length_records (b : BlockData) : b.records.length = b.blockIdx := by
  simp [BlockData.records]

/-- Without its blocks, a channel has none too long. -/
theorem Closure.within_of_unbuilt {ch : Closure} (hsent : ch.sent = []) (hb : ¬ ch.built) :
    ch.Within :=
  ⟨by simp [hsent], fun hown => absurd hown.1 hb, fun hown => absurd hown.1 hb⟩

/-- A step that leaves the blocks of the channel, and where its thread
stands. -/
theorem Closure.Within.congr {ch ch' : Closure} (h : ch.Within) (hsent : ch'.sent = ch.sent)
    (hlog : ch'.log = ch.log) (hown : ch'.owns → ch.owns)
    (hcur : ch'.cur.blockIdx ≤ ch.cur.blockIdx) : ch'.Within := by
  refine ⟨by rw [hsent]; exact h.sent, fun h' => hcur.trans (h.cur (hown h')), fun h' hf he => ?_⟩
  rw [hlog] at hf he
  exact Nat.lt_of_le_of_lt hcur (h.room (hown h') hf he)

theorem within_update {f : Nat → Closure} {c' : Nat} {ch : Closure} (h : (f c).Within)
    (hch : c = c' → ch.Within) : (Function.update f c' ch c).Within := by
  by_cases hc : c = c'
  · rw [hc, Function.update_self]
    exact hch hc
  · rw [Function.update_of_ne hc]
    exact h

/-- The open block is enqueued. -/
theorem Closure.Within.enqueue {ch ch' : Closure} (h : ch.Within) (hown : ch.owns)
    (hsent : ch'.sent = ch.sent ++ [ch.cur.records]) (hown' : ¬ ch'.owns) : ch'.Within := by
  refine ⟨fun ds hds => ?_, fun h' => absurd h' hown', fun h' => absurd h' hown'⟩
  rw [hsent] at hds
  obtain hds | hds := List.mem_append.mp hds
  · exact h.sent ds hds
  · rw [List.mem_singleton.mp hds, length_records]
    exact h.cur hown

theorem LogMove.within (h : (s.chan c).Within) (hf : Filed s c) (hm : LogMove s c s') :
    (s'.chan c).Within := by
  cases hm <;> simp only [State.setChan, Function.update_self]
  case write tsc d hl =>
    have hown := hf.owns (by simp [hl]) (by simp [hl])
    have hroom := h.room hown (by simp [hl]) (by simp [hl])
    obtain rfl : tsc = false := (hf.ok.writing tsc d hl).trans hf.notTsc
    exact ⟨h.sent, fun _ => by simpa [Closure.cur] using hroom, fun _ hfull => absurd rfl hfull⟩
  case full hl =>
    have hown := hf.owns (by simp [hl]) (by simp [hl])
    refine ⟨h.sent, fun _ => h.cur hown, fun _ _ henq => ?_⟩
    refine Nat.lt_of_le_of_ne (h.cur hown) fun heq => henq ?_
    have hidx : (s.chan c).cur.blockIdx = bufferBlockSize := heq
    exact if_pos (by simp [BlockData.checkBlockIsFull, hidx])
  case enqueueComp hl _ _ | enqueueRaw hl _ _ =>
    exact h.enqueue (hf.owns (by simp [hl]) (by simp [hl])) rfl (by simp [Closure.owns])
  case dequeue k q hl hq =>
    have hempty := hf.returns k (.inl (by simp [hq]))
    refine ⟨h.sent, fun _ => ?_, fun _ _ _ => ?_⟩
    · simp only [Closure.cur, hempty, Nat.zero_le]
    · simp only [Closure.cur, hempty]
      decide
  case setIdFault => exact h
  case setId hl _ =>
    have hown := hf.owns (by simp [hl]) (by simp [hl])
    refine ⟨h.sent, fun _ => ?_, fun _ _ _ => ?_⟩
    · simpa [Closure.cur] using h.cur hown
    · simpa [Closure.cur] using h.room hown (by simp [hl]) (by simp [hl])

theorem CloseMove.within (h : (s.chan c).Within) (hf : Filed s c) (hm : CloseMove s c s') :
    (s'.chan c).Within := by
  cases hm <;> simp only [State.setChan, Function.update_self]
  case setCloseFile hc =>
    refine h.congr rfl rfl (fun hown => ⟨hown.1, hown.2.1, .inr (.inl hc)⟩) ?_
    simp [Closure.cur]
  case enqueueComp hc _ _ | enqueueRaw hc _ _ =>
    have hb : (s.chan c).built := Classical.not_not.mp fun hb => by
      simpa [hc] using (hf.ok.unbuilt hb).2.1
    have hlog : (s.chan c).log = .idle := hf.alone (by simp [hc])
    exact h.enqueue ⟨hb, by simp [hlog], .inr (.inr hc)⟩ rfl (by simp [Closure.owns])
  case decComp hc | dec hc =>
    exact h.congr rfl rfl (fun hown => by simp [Closure.owns] at hown) (Nat.le_refl _)

/-- A worker thread empties a block. -/
theorem Closure.Within.reset {ch : Closure} (h : ch.Within) (k : Nat) :
    (ch.setBlock k { ch.blocks k with blockIdx := 0 }).Within := by
  refine h.congr rfl rfl (fun hown => hown) ?_
  simp only [Closure.cur, Closure.setBlock, Function.update_apply]
  split
  · exact Nat.zero_le _
  · exact Nat.le_refl _

/-- **Step lemma**: no step makes a block too long. -/
theorem Closure.Within.step (h : (s.chan c).Within) (hf : Filed s c) (hm : Move sq s l s') :
    (s'.chan c).Within := by
  have hclose : ∀ c', c = c' → ({ s.chan c' with
      handlerF := .nullHandler
      close := if (s.chan c').handlerF = .bufferIdentityHandler then .setCloseFile
        else (s.chan c').close } : Closure).Within := fun c' hc => by
    have hsame := callClose_sameStream (s.chan c) hf.ok
    exact hc ▸ h.congr rfl rfl hsame.owns.mp (Nat.le_refl _)
  cases hm with
  | openChannel f compress =>
      refine within_update h fun _ => Closure.within_of_unbuilt rfl ?_
      simp [Closure.built, Closure.new]
  | openStep c' h' =>
      have hunb : c = c' → (s.chan c').sent = [] := fun hc => by
        subst hc
        exact (hf.ok.unbuilt (by cases h' <;> simp [Closure.built, *])).2.2.1
      cases h' <;> refine within_update h fun hc =>
        Closure.within_of_unbuilt (hunb hc) ?_ <;>
        simp only [Closure.built] <;> grind
  | finishOpen c' ok mem hopn =>
      refine within_update h fun hc => ?_
      subst hc
      have hu := hf.ok.unbuilt (by simp [Closure.built, hopn])
      refine ⟨by simp [hu.2.2.1], fun _ => ?_, fun _ _ _ => ?_⟩
      · simp [Closure.cur, BlockData.new]
      · simp [Closure.cur, BlockData.new, bufferBlockSize]
  | logTS c' d hopn hlog h' =>
      cases h' with
      | poison => exact within_update h (hclose c')
      | null => exact h
      | buffer | first | tsc =>
          refine within_update h fun hc => ?_
          subst hc
          refine ⟨h.sent, fun hown => h.cur ?_, fun hown _ _ => h.room ?_ (by simp [hlog])
            (by simp [hlog])⟩
          · simpa [Closure.owns, Closure.built, hlog] using hown
          · simpa [Closure.owns, Closure.built, hlog] using hown
  | logStep c' h' =>
      by_cases hc : c = c'
      · subst hc
        exact h'.within h hf
      · cases h' with
        | setIdFault => exact h
        | _ => exact within_update h fun he => absurd he hc
  | closeChannel c' hopn => exact within_update h (hclose c')
  | closeStep c' h' =>
      by_cases hc : c = c'
      · subst hc
        exact h'.within h hf
      · cases h' <;> exact within_update h fun he => absurd he hc
  | io t h' =>
      cases h' with
      | write m p ht hw => exact within_update h fun hc => hc ▸ h.reset p.k
      | send m p ht hlen =>
          exact within_update h fun hc => hc ▸ h.congr rfl rfl (fun hown => hown) (Nat.le_refl _)
      | _ => exact h
  | comp t h' =>
      cases h' with
      | work d p ht => exact within_update h fun hc => hc ▸ h.reset p.k
      | send d p b ht hlen =>
          exact within_update h fun hc => hc ▸ h.congr rfl rfl (fun hown => hown) (Nat.le_refl _)
      | _ => exact h
  | exitStep h' =>
      cases h' with
      | close m i c' hpc hi => exact within_update h (hclose c')
      | _ => exact h
  | _ => exact h

/-- **Run lemma**: the blocks of a channel used by one thread are within
their size. -/
theorem Reached.within (hone : ∀ s l, ok s l → OneThread c s l) (hr : Reached sq ok s)
    (htsc : (s.chan c).format.isTsc = false) : (s.chan c).Within := by
  revert htsc
  refine hr.invariant_of (J := Reached sq ok)
    (I := fun s => (s.chan c).format.isTsc = false → (s.chan c).Within) (fun _ h => h) ?_ ?_
  · exact fun _ => Closure.within_of_unbuilt rfl (by simp [State.init, Closure.built, Closure.new])
  · intro s l s' hr ih hg hs htsc
    have hm := (step_move hs).2
    by_cases hfresh : (s.chan c).opn = .fresh
    · have hb := (hm.chan hr.wf c).unbuilt_of_fresh hfresh
      have hok := Reached.chanOk (hr.step hg hs) c
      exact Closure.within_of_unbuilt (hok.unbuilt hb).2.2.1 hb
    · have htsc' : (s.chan c).format.isTsc = false := by
        rw [← ((hm.chan hr.wf c).same_kind hfresh).1]
        exact htsc
      obtain ⟨hpart, hret⟩ := hr.partitioned hone
      exact (ih htsc').step ⟨hr.wf, hr.chanOk c, (hr.alone_tidy hone).1, hpart, hret, htsc'⟩ hm

end Within

/-! ## the file of a closed channel -/

/-- Channel `c` is used by one thread, the copies of its blocks find a free
node in `io_queue`, the handlers of the channels fit their formats, and no
producer runs out of block ids. -/
def WellUsed (c : Nat) (s : State) (l : Label) : Prop :=
  OneThread c s l ∧ FindsRoom c s l ∧ FittingBuffered s l ∧ IdsLeft s l

instance (c : Nat) : DecidableRel (WellUsed c) := fun s l =>
  inferInstanceAs (Decidable
    (OneThread c s l ∧ FindsRoom c s l ∧ FittingBuffered s l ∧ IdsLeft s l))

/-- The channel was opened and closed, its closing block was enqueued, and
nothing of it is on its way any more. -/
structure FiledAway (s : State) (c : Nat) : Prop where
  ready : (s.chan c).opn = .ready
  notTsc : (s.chan c).format.isTsc = false
  number : (s.chan c).compress = true → c < nextBlockSize
  closed : (s.chan c).closeSent
  quiet : Quiet s c

section Loaded

variable {sq : Squash} {un : Unsquash} {s : State} {c : Nat} {tr : List (State × Label)}

/-- The blocks hold the records of the calls. -/
theorem FiledAway.sent_flatten (h : FiledAway s c)
    (hr : Trace (step sq) State.init (WellUsed c) tr s) :
    (s.chan c).sent.flatten = calls c tr := by
  have hone : ∀ s l, WellUsed c s l → OneThread c s l := fun _ _ h => h.1
  have hreach : Reached sq (WellUsed c) s := hr.reach
  have hclose : (s.chan c).close ≠ .none := by
    obtain h | h | h := h.closed <;> simp [h]
  have hlog := (hreach.alone_tidy hone).1 hclose
  have hown : ¬ (s.chan c).owns := by
    rintro ⟨-, -, h'⟩
    obtain h | h | h := h.closed <;> simp [h] at h'
  rw [← (taken_eq_calls hr c).1, Closure.taken, hlog, hreach.accounted hone h.notTsc,
    openRecords_of_not_owns hown]
  simp [LogPc.pending]

/-- The file holds the blocks, in the format of the channel. -/
theorem FiledAway.logBytes (h : FiledAway s c) (hsq : sq.Total) (hr : Reached sq (WellUsed c) s)
    (himage : ∀ ds ∈ (s.chan c).sent,
      (packedImage sq (s.chan c).format ds).length ≤ convBufferSize) :
    LogBytes sq (s.chan c).sent (s.chan c).format (s.sink.chLogf c).content := by
  have hone : ∀ s l, WellUsed c s l → OneThread c s l := fun _ _ h => h.1
  have hfitting : Reached sq FittingBuffered s :=
    Reach.mono (fun s l (h : WellUsed c s l) => h.2.2.1) hr
  have hfit := (hfitting.fitsAt c).fits h.ready
  have hwriter := (hr.chanOk c).writer
  obtain ⟨n, harr⟩ := hr.arrives hsq hone (fun _ _ h => h.2.1) h.ready h.notTsc h.number
    fun hraw => by
      rw [hwriter]
      exact writeHandlerOf_ne_none (hfit.symm.trans hraw)
  rw [harr.all h.quiet]
  have hraw {w : WriteHandler} (hcomp : (s.chan c).compress = false)
      (hw : (s.chan c).writeHandlerF = some w) :
      (s.chan c).sent.flatMap ((s.chan c).blockBytes sq) =
        (s.chan c).sent.flatten.flatMap w.bytes := by
    have hbytes : (s.chan c).blockBytes sq = fun ds => ds.flatMap w.bytes := by
      funext ds
      simp [Closure.blockBytes, hcomp, hw]
    simp only [hbytes, List.flatMap_def, List.map_flatten, List.flatten_flatten, List.map_map]
    rfl
  have hpacked (hcomp : (s.chan c).compress = true)
      (hf : (s.chan c).format = .zstd ∨ (s.chan c).format = .lzo1x) :
      LogBytes sq (s.chan c).sent (s.chan c).format
        ((s.chan c).sent.flatMap ((s.chan c).blockBytes sq)) := by
    rw [Closure.blockBytes_comp hcomp]
    refine .compressed hf fun ds hds => ⟨(hr.within hone h.notTsc).sent ds hds, ?_⟩
    obtain ⟨img, himg⟩ := Option.isSome_iff_exists.mp
      (hsq (codecOf (s.chan c).format) (ds.flatMap LogData.image))
    refine ⟨img, himg, ?_⟩
    have hlen := himage ds hds
    rwa [packedImage, compressBlock, himg] at hlen
  cases hf : (s.chan c).format with
  | ascii =>
      rw [hraw (by rw [hfit, hf]; rfl) (by rw [hwriter, hf]; rfl)]
      exact .ascii
  | binary =>
      rw [hraw (by rw [hfit, hf]; rfl) (by rw [hwriter, hf]; rfl)]
      exact .binary
  | zstd | lzo1x =>
      rw [hf] at hpacked hfit
      exact hpacked hfit (by simp)
  | asciiTsc | binaryTsc | zstdTsc | lzo1xTsc =>
      have := h.notTsc
      simp [hf, LogFormat.isTsc] at this

/-- **The calls of `logTS` reach the scripts.**  In every interleaving of the
threads: once nothing of a closed channel is on its way any more, the converter
makes of its file an ASCII log in which `loadTS` finds the time-stamps of all
calls before the close, under their tuples and in order.  The converter has
room for the blocks, and the message of the channel does not mislead it. -/
theorem log_loaded (mem : Conversion → Nat → UInt8) (fs : FileSystem) (ip : Ipv4) (pid tid : Int)
    (ch_msg : List Char) (hsq : sq.Total) (hun : un.Inverts sq)
    (hr : Trace (step sq) State.init (WellUsed c) tr s) (h : FiledAway s c)
    (himage : ∀ ds ∈ (s.chan c).sent,
      (packedImage sq (s.chan c).format ds).length ≤ convBufferSize)
    (hmsg : ∀ g ∈ misleading (s.chan c).format, ¬ Tagged g ch_msg)
    (husable : Usable fs fun f => logFileName ip pid tid c f ch_msg)
    (hfile : fs.openIn (logFileName ip pid tid c (s.chan c).format ch_msg) =
      some ⟨(s.sink.chLogf c).content, true⟩) :
    ∃ fs', runConversions (fun _ => un) mem (max 1)
        (logFileName ip pid tid c (s.chan c).format ch_msg) fs
        (convertLogFileToAscii (logFileName ip pid tid c (s.chan c).format ch_msg)) = some fs' ∧
      ((fs'.openIn (logFileName ip pid tid c .ascii ch_msg)).bind fun src =>
        loadTS (textOf src.bytes)) = some (Dict.group ((calls c tr).map LogData.entry)) := by
  obtain ⟨fs', hrun, hascii⟩ :=
    run_convertLogFileToAscii hun (h.logBytes hsq hr.reach himage) hmsg husable hfile
  refine ⟨fs', hrun, ?_⟩
  rw [hascii, Option.bind_some, loadTS_writeInAscii, h.sent_flatten hr]

/-- A record is logged to a channel of format LZO1X, the channel closed, and
its block compressed and written. -/
def lzoRun : List Label :=
  [.openChannel .lzo1x true] ++ List.replicate 10 (.openStep 0) ++
    [.openStep 0, .finishOpen 0 true fun _ _ => ⟨0, 0, 0, 0, 0, 0⟩, .logTS 0 sampleRecord,
      .logStep 0, .logStep 0, .closeChannel 0, .closeStep 0, .closeStep 0] ++
    List.replicate 6 (.comp 0) ++ List.replicate 5 (.io 0)

/-- A state in which no thread has a block in its hands. -/
theorem quiet_of_threads (hwf : Wf s) (hcq : s.compressionQueue = []) (hioq : s.ioQueue = [])
    (hcomp : ∀ t < s.compCnt, (s.comp t).worksFor = none)
    (hio : ∀ t < s.ioCnt, (s.io t).writesFor = none) : Quiet s c where
  compressionQueue := by simp [hcq]
  comp t := by
    by_cases ht : t < s.compCnt
    · simp [hcomp t ht]
    · simp [(hwf.comp t).mpr (Nat.le_of_not_lt ht), CompPc.worksFor]
  ioQueue := by simp [hioq]
  io t := by
    by_cases ht : t < s.ioCnt
    · simp [hio t ht]
    · simp [(hwf.io t).mpr (Nat.le_of_not_lt ht), IoPc.writesFor]

theorem log_loaded_lzo : ∃ tr s fs fs',
    Trace (step literalRun) State.init (WellUsed 0) tr s ∧ calls 0 tr = [sampleRecord] ∧
      runConversions (fun _ => ofLiteralRun) (fun _ _ => 0) (max 1)
        (logFileName .local 4711 4712 (0 : Nat) (s.chan 0).format ['l', 'o', 'g']) fs
        (convertLogFileToAscii
          (logFileName .local 4711 4712 (0 : Nat) (s.chan 0).format ['l', 'o', 'g'])) = some fs' ∧
      ((fs'.openIn (logFileName .local 4711 4712 (0 : Nat) .ascii ['l', 'o', 'g'])).bind
        fun src => loadTS (textOf src.bytes)) = some (Dict.group [sampleRecord.entry]) := by
  have hrun : ∃ tr s, Trace (step literalRun) State.init (WellUsed 0) tr s ∧
      (calls 0 tr == [sampleRecord] && s.compressionQueue.isEmpty && s.ioQueue.isEmpty &&
        decide ((s.chan 0).opn = .ready ∧ (s.chan 0).format = .lzo1x ∧ (s.chan 0).closeSent ∧
          (s.chan 0).sent = [[sampleRecord]] ∧
          (∀ t < s.compCnt, (s.comp t).worksFor = none) ∧
          ∀ t < s.ioCnt, (s.io t).writesFor = none)) = true :=
    Trace.of_exec_any lzoRun _ (by decide +kernel)
  obtain ⟨tr, s, hr, hs⟩ := hrun
  simp only [Bool.and_eq_true, beq_iff_eq, List.isEmpty_iff, decide_eq_true_eq] at hs
  obtain ⟨⟨⟨hcalls, hcq⟩, hioq⟩, hready, hfmt, hclosed, hsent, hcomp, hio⟩ := hs
  have hfiled : FiledAway s 0 :=
    ⟨hready, by rw [hfmt]; rfl, fun _ => by decide, hclosed,
      quiet_of_threads (Reached.wf hr.reach) hcq hioq hcomp hio⟩
  have himage : ∀ ds ∈ (s.chan 0).sent,
      (packedImage literalRun (s.chan 0).format ds).length ≤ convBufferSize := by
    rw [hsent, hfmt]
    decide +kernel
  obtain ⟨fs', hconv, hload⟩ := log_loaded (fun _ _ => 0)
    ⟨fun _ => some (s.sink.chLogf 0).content, fun _ => true, fun _ => true, fun _ => none⟩ .local
    4711 4712 ['l', 'o', 'g'] (fun _ _ => rfl) ofLiteralRun_inverts hr hfiled himage
    (by rw [hfmt]; decide) (fun _ => ⟨rfl, rfl, rfl⟩) rfl
  rw [hcalls] at hload
  exact ⟨tr, s, _, fs', hr, hcalls, hconv, hload⟩

end Loaded

end CloudProfiler
