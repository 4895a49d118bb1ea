import CloudProfiler.Buffer.Exit

/-!
# CloudProfiler.Buffer.Tables

The bounds of the reorder tables.  `writeCompressedBlock` indexes
`next_block` and `pending` with the channel number, which `openChannel` takes
from a counter of all channels of the process; `next_block` has 200 entries
for good, `pending` gets 200 more with every I/O thread.

* A popped block is inside the tables exactly when its channel number is
  below 200 (`Reached.inside_iff`).
* That is so in every run that opens its compressed channels while the
  counter is below 200 (`OpensEarly`, `tables_hold_every_block`).
-/

namespace CloudProfiler

/-- Channel number `c` is an index into both reorder tables. -/
def Inside (s : State) (c : Nat) : Prop := c < nextBlockSize ∧ c < s.sink.pendingSize

/-- A compressed channel is opened only while `next_channel` is below the
size of `next_block`. -/
def OpensEarly (s : State) : Label → Prop
  | .openChannel _ true => s.nextChannel < nextBlockSize
  | _ => True

instance : DecidableRel OpensEarly := fun s l =>
  match l with
  | .openChannel _ true => inferInstanceAs (Decidable (s.nextChannel < nextBlockSize))
  | .openChannel _ false | .openOther | .openStep _ | .finishOpen _ _ _ | .logTS _ _ | .logStep _
  | .closeChannel _ | .closeStep _ | .io _ | .comp _ | .atExit | .signal | .exitStep =>
    .isTrue trivial

section

variable {sq : Squash} {s : State} {ok : State → Label → Prop}

/-- An I/O thread that pops has created its queues, so `pending` is never the
smaller table. -/
theorem Reached.inside_iff (hr : Reached sq ok s) {t : Nat} {m : IoMode} (ht : s.io t = .pop m)
    (c : Nat) : Inside s c ↔ c < nextBlockSize := by
  have htab : nextBlockSize ≤ s.sink.pendingSize := hr.hasTables t (by simp [ht]) (by simp [ht])
  exact ⟨And.left, fun hc => ⟨hc, Nat.lt_of_lt_of_le hc htab⟩⟩

/-- What arrives as a compressed copy comes from a channel that was opened
compressed. -/
theorem Reached.packed_compress (hr : Reached sq ok s) {b : Packed} {q : List IoBlock}
    (hq : s.ioQueue = .packed b :: q) : (s.chan b.ch).opensAs true := by
  have h := hr.routed.ioQueue
  rw [hq] at h
  exact h (.packed b) List.mem_cons_self

/-- **Channel numbers and the reorder tables.**  A popped block of a
compressed channel is inside the tables exactly when its channel number is
below 200.  In every run that opens its compressed channels while the counter
of all channels is below 200, every popped block is inside. -/
theorem tables_hold_every_block :
    (∀ s, Reached sq anyStep s → ∀ t m b q, s.io t = .pop m → s.ioQueue = .packed b :: q →
      (Inside s b.ch ↔ b.ch < nextBlockSize)) ∧
    (∀ s, Reached sq OpensEarly s → ∀ t m b q, s.io t = .pop m → s.ioQueue = .packed b :: q →
      Inside s b.ch) := by
  refine ⟨fun s hr t m b q ht _ => hr.inside_iff ht b.ch, fun s hr t m b q ht hq => ?_⟩
  have hkind := hr.packed_compress hq
  have hnum := hr.opened_as (P := fun _ z c => z = true → c < nextBlockSize)
    (fun s f z hg hz => by rw [hz] at hg; exact hg) hkind.1
  exact (hr.inside_iff ht b.ch).mpr (hnum hkind.2)

end

/-- A channel is opened compressed, after another one, and closed: its block
is inside the tables when it is popped. -/
theorem tables_hold_block_one :
    ∃ s, Reached copySquash OpensEarly s ∧ s.io 0 = .pop .main ∧
      s.ioQueue = [.packed ⟨1, 0, true, some []⟩] ∧ Inside s 1 := by
  obtain ⟨s, hr, hs⟩ := Reached.of_run copySquash OpensEarly
    (.openOther :: .openChannel .zstd true :: List.replicate 10 (.openStep 1) ++
      [.openStep 1, .finishOpen 1 true fun _ _ => ⟨0, 0, 0, 0, 0, 0⟩, .closeChannel 1, .closeStep 1,
        .closeStep 1] ++ List.replicate 6 (.comp 0) ++ List.replicate 3 (.io 0))
    (fun s => decide (s.io 0 = .pop .main ∧ s.ioQueue = [.packed ⟨1, 0, true, some []⟩]))
    (by decide +kernel)
  obtain ⟨ht, hq⟩ := of_decide_eq_true hs
  exact ⟨s, hr, ht, hq, tables_hold_every_block.2 s hr 0 .main ⟨1, 0, true, some []⟩ [] ht hq⟩

/-- **The 201st channel is outside.**  After 200 channels of other kinds a
compressed channel is opened and closed; its block reaches the I/O thread,
which uses 200 as an index. -/
theorem block_outside_tables :
    ∃ s, Reached copySquash anyStep s ∧ ∃ m b q, s.io 0 = .pop m ∧
      s.ioQueue = .packed b :: q ∧ ¬ Inside s b.ch ∧
      (step copySquash s (.io 0)).any State.fault = true := by
  obtain ⟨s, hr, hs⟩ := Reached.of_run copySquash anyStep
    (List.replicate 200 .openOther ++ .openChannel .zstd true :: List.replicate 10 (.openStep 200) ++
      [.openStep 200, .finishOpen 200 true fun _ _ => ⟨0, 0, 0, 0, 0, 0⟩, .closeChannel 200, .closeStep 200,
        .closeStep 200] ++ List.replicate 6 (.comp 0) ++ List.replicate 3 (.io 0))
    (fun s => decide (s.io 0 = .pop .main ∧ s.ioQueue = [.packed ⟨200, 0, true, some []⟩] ∧
      (step copySquash s (.io 0)).any State.fault = true)) (by decide +kernel)
  obtain ⟨ht, hq, hfault⟩ := of_decide_eq_true hs
  refine ⟨s, hr, .main, ⟨200, 0, true, some []⟩, [], ht, hq, fun h => ?_, hfault⟩
  exact absurd h.1 (Nat.lt_irrefl 200)

end CloudProfiler
