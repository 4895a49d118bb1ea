import CloudProfiler.Fox.Agree
import Mathlib.Algebra.BigOperators.Group.Finset.Basic
import Mathlib.Algebra.Order.BigOperators.Group.Finset

/-!
# CloudProfiler.Fox.Settle

The calls under way on the FOX channels come to an end: no channel waits for
an echo forever, whatever the order in which the threads go on.

* `work` — the steps that are left, at most;
* `step_work` — every step of a call and of the receiver is one of them;
* `rest_of_stuck` — when there is none, every call is over;
* `calls_settle` — then the logs are complete.
-/

namespace CloudProfiler

namespace Fox

/-- The steps of a call under way and of the receiver. -/
def Label.Serves {ι : Type} : Label ι → Prop
  | .ofEnd _ (.logTS ..) | .ofEnd _ .closeChannel | .ofStart (.openChannel _)
  | .ofStart .closeChannel => False
  | _ => True

/-! ## the steps that are left -/

/-- The steps of a channel that are left, before and after the wire. -/
def EndPc.work : EndPc → Nat
  | .ready | .waiting .. => 0
  | .stamped .. => 7
  | .received .. => 1

/-- And those of the messages on the wire. -/
def Wire.work (w : Wire) : Nat := 6 * w.requests.length + 2 * w.echoes.length

def ReceiverPc.work : ReceiverPc → Nat
  | .polling => 0
  | .holding .. => 5
  | .stamped .. => 4
  | .echoed .. => 1

section Work

variable {ι : Type} {identity : ι → Identity} {sentData : Int64 → Int64} {s s' : Session ι}

theorem endStep_work {fe fe' : FoxEnd} {w w' : Wire} {e : ι} {l : EndLabel}
    (hl : (Label.ofEnd e l).Serves) (h : endStep fe w l = some (fe', w')) :
    fe'.calls = fe.calls ∧ fe'.pc.work + w'.work + 1 ≤ fe.pc.work + w.work := by
  cases l with
  | logTS tuple now => exact hl.elim
  | send =>
      simp only [endStep] at h
      split at h
      · next hpc =>
        obtain ⟨rfl, rfl⟩ := Prod.mk.inj (Option.some.inj h)
        refine ⟨rfl, ?_⟩
        rw [hpc]
        simp only [EndPc.work, Wire.work, List.length_append, List.length_singleton]
        omega
      · cases h
  | recv =>
      simp only [endStep] at h
      split at h
      · next hpc hechoes =>
        obtain ⟨rfl, rfl⟩ := Prod.mk.inj (Option.some.inj h)
        refine ⟨rfl, ?_⟩
        rw [hpc]
        simp only [EndPc.work, Wire.work, hechoes, List.length_cons]
        omega
      · cases h
  | log now =>
      simp only [endStep] at h
      split at h
      · next hpc =>
        obtain ⟨rfl, rfl⟩ := Prod.mk.inj (Option.some.inj h)
        refine ⟨rfl, ?_⟩
        rw [hpc]
        simp only [EndPc.work]
        omega
      · cases h
  | closeChannel => exact hl.elim

variable [Fintype ι]

/-- The steps of the channels that are left. -/
def endsWork (identity : ι → Identity) (ends : ι → FoxEnd) (wires : Identity → Wire) : Nat :=
  ∑ e, ((ends e).pc.work + (wires (identity e)).work)

/-- The steps that are left. -/
def work (identity : ι → Identity) (s : Session ι) : Nat :=
  s.receiver.work + endsWork identity s.ends s.wires

variable [DecidableEq ι]

/-- One channel changes. -/
theorem endsWork_update_le (hid : Function.Injective identity) {ends : ι → FoxEnd}
    {wires : Identity → Wire} {e : ι} {fe : FoxEnd} {w : Wire} {a b : Nat}
    (h : fe.pc.work + w.work + a ≤ (ends e).pc.work + (wires (identity e)).work + b) :
    endsWork identity (Function.update ends e fe) (Function.update wires (identity e) w) + a ≤
      endsWork identity ends wires + b := by
  have hle : ∑ e' ∈ Finset.univ.erase e, ((Function.update ends e fe e').pc.work +
      (Function.update wires (identity e) w (identity e')).work) =
      ∑ e' ∈ Finset.univ.erase e, ((ends e').pc.work + (wires (identity e')).work) :=
    Finset.sum_congr rfl fun e' he' => by
      have hne := Finset.ne_of_mem_erase he'
      rw [Function.update_of_ne hne, Function.update_of_ne (hid.ne hne)]
  unfold endsWork
  rw [← Finset.add_sum_erase _ _ (Finset.mem_univ e),
    ← Finset.add_sum_erase _ _ (Finset.mem_univ e), hle, Function.update_self, Function.update_self]
  omega

/-- The wire of a channel changes. -/
theorem endsWork_update_wires_le (hid : Function.Injective identity) {ends : ι → FoxEnd}
    {wires : Identity → Wire} {e : ι} {w : Wire} {a b : Nat}
    (h : w.work + a ≤ (wires (identity e)).work + b) :
    endsWork identity ends (Function.update wires (identity e) w) + a ≤
      endsWork identity ends wires + b := by
  have hle : endsWork identity (Function.update ends e (ends e))
      (Function.update wires (identity e) w) + a ≤ endsWork identity ends wires + b :=
    endsWork_update_le hid (by omega)
  rwa [Function.update_eq_self] at hle

theorem startStep_work (hid : Function.Injective identity) (hinv : s.StartInv identity sentData)
    {l : StartLabel} (hl : (Label.ofStart l : Label ι).Serves)
    (h : startStep sentData s l = some s') :
    s'.ends = s.ends ∧ work identity s' + 1 ≤ work identity s := by
  cases l with
  | openChannel ok => exact hl.elim
  | receive p =>
      simp only [startStep] at h
      split at h
      · next tuple rest hpc hrequests =>
        obtain rfl := Option.some.inj h
        obtain ⟨e, rfl⟩ := hinv.requests p (by simp [hrequests])
        refine ⟨rfl, ?_⟩
        have hle : endsWork identity s.ends (Function.update s.wires (identity e)
            ⟨rest, (s.wires (identity e)).echoes⟩) + 6 ≤
            endsWork identity s.ends s.wires + 0 :=
          endsWork_update_wires_le hid (by
            simp only [Wire.work, hrequests, List.length_cons]
            omega)
        simp only [work, hpc, ReceiverPc.work]
        omega
      · cases h
  | stamp now =>
      simp only [startStep] at h
      split at h
      · next p tuple hpc =>
        obtain rfl := Option.some.inj h
        refine ⟨rfl, ?_⟩
        simp only [work, hpc, ReceiverPc.work]
        omega
      · cases h
  | echo =>
      simp only [startStep] at h
      split at h
      · next p tuple ts hpc =>
        obtain rfl := Option.some.inj h
        obtain ⟨e, rfl⟩ := hinv.peer p (by simp [hpc, ReceiverPc.peer])
        refine ⟨rfl, ?_⟩
        have hle : endsWork identity s.ends (Function.update s.wires (identity e)
            ⟨(s.wires (identity e)).requests, (s.wires (identity e)).echoes ++ [tuple]⟩) + 0 ≤
            endsWork identity s.ends s.wires + 2 :=
          endsWork_update_wires_le hid (by
            simp only [Wire.work, List.length_append, List.length_singleton]
            omega)
        simp only [work, hpc, ReceiverPc.work]
        omega
      · cases h
  | write =>
      simp only [startStep] at h
      split at h
      · next p tuple ts hpc =>
        obtain rfl := Option.some.inj h
        refine ⟨rfl, ?_⟩
        simp only [work, hpc, ReceiverPc.work]
        omega
      · cases h
  | closeChannel => exact hl.elim

/-- **A step** of a call or of the receiver is one of those that were left. -/
theorem step_work (hid : Function.Injective identity) (hinv : s.StartInv identity sentData)
    {l : Label ι} (hl : l.Serves) (h : step identity sentData s l = some s') :
    (∀ e, (s'.ends e).calls = (s.ends e).calls) ∧ work identity s' + 1 ≤ work identity s := by
  cases l with
  | ofEnd e l =>
      obtain ⟨⟨fe, w⟩, hend, rfl⟩ := Option.map_eq_some_iff.mp h
      obtain ⟨hcalls, hwork⟩ := endStep_work hl hend
      constructor
      · intro e'
        by_cases he : e' = e
        · subst he
          simpa using hcalls
        · simp [Function.update_of_ne he]
      · have hle : endsWork identity (Function.update s.ends e fe)
            (Function.update s.wires (identity e) w) + 1 ≤ endsWork identity s.ends s.wires + 0 :=
          endsWork_update_le hid hwork
        simp only [work]
        omega
  | ofStart l =>
      obtain ⟨s₁, hstart, rfl⟩ := Option.map_eq_some_iff.mp h
      obtain ⟨hends, hwork⟩ := startStep_work hid hinv hl hstart
      exact ⟨fun e => by rw [show s₁.ends = s.ends from hends], hwork⟩

/-- The steps of a run. -/
theorem length_add_work_le (hid : Function.Injective identity) {ls : List (Label ι)}
    (hls : ∀ l ∈ ls, l.Serves) (hr : Reach (step identity sentData) .init anyStep s)
    (h : exec (step identity sentData) anyStep s ls = some s') :
    (∀ e, (s'.ends e).calls = (s.ends e).calls) ∧
      ls.length + work identity s' ≤ work identity s := by
  induction ls generalizing s with
  | nil =>
      obtain rfl := Option.some.inj h
      simp
  | cons l ls ih =>
      simp only [exec, anyStep] at h
      obtain ⟨s₁, hstep, h⟩ := Option.bind_eq_some_iff.mp h
      obtain ⟨hcalls₁, hwork₁⟩ := step_work hid (startInv hr) (hls l List.mem_cons_self) hstep
      obtain ⟨hcalls, hwork⟩ := ih (fun l hl => hls l (List.mem_cons_of_mem _ hl))
        (.step hr trivial hstep) h
      refine ⟨fun e => (hcalls e).trans (hcalls₁ e), ?_⟩
      rw [List.length_cons]
      omega

theorem Traffic.Quiet.work {v : Traffic} (h : v.Quiet) : v.toWire.work = 0 := by
  simp [Wire.work, h.requests, h.echoes]

theorem Traffic.Flight.work_le {timed : Prop} {c : Int} {xs : List Exchange} {tuple : Int64}
    {ts : Timespec} {v : Traffic} (h : v.Flight timed c xs tuple ts) : v.toWire.work ≤ 6 := by
  cases h with
  | requested hrequests hechoes _ _ => simp [Wire.work, hrequests, hechoes]
  | held hrequests hechoes _ _ => simp [Wire.work, hrequests, hechoes]
  | stamped _ hrequests hechoes _ _ _ => simp [Wire.work, hrequests, hechoes]
  | echoed _ hrequests hechoes _ _ _ => simp [Wire.work, hrequests, hechoes]

theorem View.Stage.work_le {timed : Prop} {c : Int} {xs : List Exchange} {v : View}
    (h : v.Stage timed c xs) : v.fe.pc.work + v.toWire.work ≤ 7 := by
  unfold View.Stage at h
  split at h
  · next hpc => simp [hpc, EndPc.work, h.1.work]
  · next hpc => simp [hpc, EndPc.work, h.1.work]
  · next hpc =>
    have hle := h.1.work_le
    simp only [hpc, EndPc.work]
    omega
  · next hpc => simp [hpc, EndPc.work, h.1.work]

/-- A channel has seven steps to go at most, the receiver five. -/
theorem work_le (hid : Function.Injective identity)
    (hr : Reach (step identity sentData) .init anyStep s) :
    work identity s ≤ 7 * Fintype.card ι + 5 := by
  have hends : endsWork identity s.ends s.wires ≤ ∑ _e : ι, 7 := by
    refine Finset.sum_le_sum fun e _ => ?_
    obtain ⟨xs, h⟩ := explained False hid (fun _ _ _ ht => ht.elim) hr e
    exact h.stage.work_le
  have hreceiver : s.receiver.work ≤ 5 := by
    cases s.receiver <;> simp [ReceiverPc.work]
  rw [Finset.sum_const, Finset.card_univ, Nat.nsmul_eq_mul] at hends
  unfold work
  omega

end Work

/-! ## the end -/

section Stuck

variable {ι : Type} [DecidableEq ι] {identity : ι → Identity} {sentData : Int64 → Int64}
  {s s' : Session ι}

/-- No thread can go on. -/
def Stuck (identity : ι → Identity) (sentData : Int64 → Int64) (s : Session ι) : Prop :=
  ∀ l : Label ι, l.Serves → step identity sentData s l = none

theorem receiver_of_stuck (h : Stuck identity sentData s) : s.receiver = .polling := by
  cases hpc : s.receiver with
  | polling => rfl
  | holding p tuple =>
      simpa [step, startStep, hpc] using h (.ofStart (.stamp ⟨0, 0, 0, 0, 0⟩)) trivial
  | stamped p tuple ts => simpa [step, startStep, hpc] using h (.ofStart .echo) trivial
  | echoed p tuple ts => simpa [step, startStep, hpc] using h (.ofStart .write) trivial

theorem requests_of_stuck (h : Stuck identity sentData s) (p : Identity) :
    (s.wires p).requests = [] := by
  have hpc := receiver_of_stuck h
  cases hrequests : (s.wires p).requests with
  | nil => rfl
  | cons tuple rest =>
      simpa [step, startStep, hpc, hrequests] using h (.ofStart (.receive p)) trivial

/-- **No deadlock**: when no thread can go on, no call is under way. -/
theorem rest_of_stuck {c : Int} {e : ι} {xs : List Exchange}
    (hexplained : (s.view identity e).Explained False c xs) (h : Stuck identity sentData s) :
    (s.ends e).pc = .ready := by
  have hstage := hexplained.stage
  have hend (l : EndLabel) (hl : (Label.ofEnd e l).Serves) :
      endStep (s.ends e) (s.wires (identity e)) l = none := by
    simpa [step] using h (.ofEnd e l) hl
  have hheld : (s.view identity e).held = none := by
    show s.receiver.held _ = none
    rw [receiver_of_stuck h]
    rfl
  unfold View.Stage at hstage
  split at hstage
  · next hpc => exact hpc
  · next tuple ts hpc =>
    have hpc' : (s.ends e).pc = .stamped tuple ts := hpc
    simpa [endStep, hpc'] using hend .send trivial
  · next tuple ts hpc =>
    have hpc' : (s.ends e).pc = .waiting tuple ts := hpc
    cases hstage.1 with
    | requested hrequests _ _ _ =>
        cases (requests_of_stuck h (identity e)).symm.trans hrequests
    | held _ _ hheld' _ => cases hheld.symm.trans hheld'
    | stamped _ _ _ hheld' _ _ => cases hheld.symm.trans hheld'
    | echoed ts' _ hechoes _ _ _ =>
        have hechoes' : (s.wires (identity e)).echoes = [tuple] := hechoes
        simpa [endStep, hpc', hechoes'] using hend .recv trivial
  · next tuple ts hpc =>
    have hpc' : (s.ends e).pc = .received tuple ts := hpc
    simpa [endStep, hpc'] using hend (.log ⟨0, 0, 0, 0, 0⟩) trivial

/-- What the logs hold when every call is over. -/
structure LogsComplete (identity : ι → Identity) (sentData : Int64 → Int64) (s : Session ι)
    (e : ι) : Prop where
  ready : (s.ends e).pc = .ready
  endLog : (s.ends e).base.isOpen = true →
    (s.endLines e).map EndLine.tuple = (s.ends e).calls
  startLog : s.start.isOpen = true →
    (s.missedLines identity e ++ s.startLines identity e).map StartLine.tuple =
      (s.ends e).calls.map sentData

theorem LogsComplete.of_stuck (hid : Function.Injective identity)
    (hr : Reach (step identity sentData) .init anyStep s) (h : Stuck identity sentData s) (e : ι) :
    LogsComplete identity sentData s e := by
  obtain ⟨xs, hexplained⟩ := explained False hid (fun _ _ _ ht => ht.elim) hr e
  have hready := rest_of_stuck hexplained h
  have hcalls : (s.ends e).calls = xs.map Exchange.tuple ++ (s.ends e).pc.tuples :=
    hexplained.calls
  rw [hready] at hcalls
  simp only [EndPc.tuples, List.append_nil] at hcalls
  refine ⟨hready, fun hopen => ?_, fun hopen => ?_⟩
  · have hlines : s.endLines e = xs.map Exchange.endLine := hexplained.isOpen hopen
    rw [hlines, hcalls, List.map_map]
    rfl
  · obtain ⟨rest, hserved, hrest⟩ := hexplained.exists_served
    have hpc : (s.view identity e).fe.pc = .ready := hready
    rw [hpc] at hrest
    have hnil : rest = [] := List.map_eq_nil_iff.mp (List.prefix_nil.mp hrest)
    have hlines := served_eq_startLines (startInv hr) hopen e
    have hunwritten : ofPeer (identity e) s.receiver.unwritten = [] := by
      rw [receiver_of_stuck h]
      rfl
    rw [hunwritten, hserved, hnil, List.append_nil, List.map_nil, List.append_nil] at hlines
    rw [← hlines, map_tuple_written, hcalls]
    exact congrArg (List.map sentData) List.map_map

/-- **The calls settle**: from any state, in any order, the threads take a
bounded number of steps until they can go on no more; then every call is
over, and each open log holds a line for each of them, but for those the
start node has lost. -/
theorem calls_settle [Fintype ι] {draws : ι → Fin 65536 × Fin 65536}
    (hdraws : Function.Injective draws)
    (hr : Reach (step (identityOf ∘ draws) sentData) .init anyStep s) {ls : List (Label ι)}
    (hls : ∀ l ∈ ls, l.Serves)
    (h : exec (step (identityOf ∘ draws) sentData) anyStep s ls = some s') :
    ls.length ≤ 7 * Fintype.card ι + 5 ∧ (∀ e, (s'.ends e).calls = (s.ends e).calls) ∧
      (Stuck (identityOf ∘ draws) sentData s' →
        ∀ e, LogsComplete (identityOf ∘ draws) sentData s' e) := by
  have hid := identityOf_injective.comp hdraws
  obtain ⟨hcalls, hlength⟩ := length_add_work_le hid hls hr h
  have hwork := work_le hid hr
  exact ⟨by omega, hcalls, fun hstuck => .of_stuck hid (hr.exec h) hstuck⟩

/-- Two calls that are over, one of them made before the log of the start node
was open. -/
theorem calls_settle_two : ∃ s s' : Session Bool,
    s.receiver ≠ .polling ∧ (s.endLines true).length = 0 ∧ (s'.endLines true).length = 1 ∧
      (s'.endLines false).length = 1 ∧ s'.missed.length = 1 ∧ s'.start.lines.length = 1 ∧
      (∀ e, (s'.ends e).calls = (s.ends e).calls) ∧
      (Stuck (identityOf ∘ fun e => (if e then 1 else 0, 0)) id s' →
        ∀ e, LogsComplete (identityOf ∘ fun e => (if e then 1 else 0, 0)) id s' e) := by
  have hdraws : Function.Injective
      fun e : Bool => ((if e then 1 else 0, 0) : Fin 65536 × Fin 65536) := by
    intro e e' h
    revert h
    revert e e'
    decide
  let ls : List (Label Bool) := [.ofStart .echo, .ofEnd true .recv, .ofStart .write,
    .ofEnd true (.log ⟨1, 9, 0, 0, 0⟩)]
  obtain ⟨s, hr, hs⟩ : ∃ s : Session Bool,
      Reach (step (identityOf ∘ fun e => (if e then 1 else 0, 0)) id) .init anyStep s ∧
      (s.receiver ≠ .polling && (s.endLines true).length = 0 &&
        (exec (step (identityOf ∘ fun e => (if e then 1 else 0, 0)) id) anyStep s ls).any
          fun s' => (s'.endLines true).length = 1 && (s'.endLines false).length = 1 &&
            s'.missed.length = 1 && s'.start.lines.length = 1) = true := Reach.of_exec_any
    ([.ofEnd false (.logTS 7 ⟨1, 0, 0, 0, 0⟩), .ofEnd false .send,
        .ofStart (.receive (identityOf (0, 0)))] ++ serveRun ⟨1, 2, 0, 0, 0⟩ ++
      [.ofStart (.openChannel true), .ofEnd true (.logTS 8 ⟨1, 3, 0, 0, 0⟩), .ofEnd true .send,
        .ofStart (.receive (identityOf (1, 0))), .ofEnd false .recv,
        .ofEnd false (.log ⟨1, 4, 0, 0, 0⟩), .ofStart (.stamp ⟨1, 5, 0, 0, 0⟩)]) _ (by decide)
  obtain ⟨⟨hreceiver, hlines⟩, hexec⟩ : (s.receiver ≠ .polling ∧ (s.endLines true).length = 0) ∧
      (exec (step (identityOf ∘ fun e => (if e then 1 else 0, 0)) id) anyStep s ls).any
        (fun s' => (s'.endLines true).length = 1 && (s'.endLines false).length = 1 &&
          s'.missed.length = 1 && s'.start.lines.length = 1) = true := by
    simpa using hs
  obtain ⟨s', h, hlines'⟩ := (Option.any_eq_true ..).mp hexec
  obtain ⟨-, hcalls, hcomplete⟩ := calls_settle hdraws hr
    (fun l hl => by
      simp only [ls, List.mem_cons, List.not_mem_nil, or_false] at hl
      obtain rfl | rfl | rfl | rfl := hl <;> trivial) h
  obtain ⟨⟨⟨htrue, hfalse⟩, hmissed⟩, hstart⟩ : (((s'.endLines true).length = 1 ∧
      (s'.endLines false).length = 1) ∧ s'.missed.length = 1) ∧ s'.start.lines.length = 1 := by
    simpa using hlines'
  exact ⟨s, s', hreceiver, hlines, htrue, hfalse, hmissed, hstart, hcalls, hcomplete⟩

end Stuck

end Fox

end CloudProfiler
