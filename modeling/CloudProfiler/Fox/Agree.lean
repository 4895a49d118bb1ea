import CloudProfiler.Fox.Exchange
import CloudProfiler.Run

/-!
# CloudProfiler.Fox.Agree

The logs of the FOX channels after any run: the threads take their steps in
any order, and the channels are closed at any time.

* `step_view` — a step of any thread is a move of a channel, or nothing to it;
* `explained`, `startInv` — the invariants of a run;
* `logs_agree` — what the logs have in common with the calls;
* `stamp_within_rtt` — what the time-stamps of a tuple have in common.
-/

namespace CloudProfiler

namespace Fox

/-! ## the session as the channels see it -/

theorem ofPeer_concat (peer p : Identity) (log : List (Identity × StartLine)) (l : StartLine) :
    ofPeer peer (log ++ [(p, l)]) = ofPeer peer log ++ if p = peer then [l] else [] := by
  unfold ofPeer
  rw [List.filterMap_append]
  by_cases h : p = peer
  · simp [h]
  · simp [h]

section Steps

variable {ι : Type} {identity : ι → Identity} {sentData : Int64 → Int64} {timed : Prop}
  {s s' : Session ι} {e : ι}

def Session.traffic (s : Session ι) (peer : Identity) : Traffic where
  toWire := s.wires peer
  held := s.receiver.held peer
  served := ofPeer peer s.served

def Session.view (identity : ι → Identity) (s : Session ι) (e : ι) : View where
  toTraffic := s.traffic (identity e)
  fe := s.ends e

/-- A step of the thread is a move, unless the channel is closed. -/
theorem endStep_move {t : Traffic} {fe fe' : FoxEnd} {w' : Wire} {l : EndLabel} {c : Int}
    (hread : ∀ tuple now, l = .logTS tuple now ∨ l = .log now → Read timed c now.ns now)
    (h : endStep fe t.toWire l = some (fe', w')) :
    (w' = t.toWire ∧ fe' = fe) ∨
      View.Move timed c (l.clock c) ⟨t, fe⟩ ⟨⟨w', t.held, t.served⟩, fe'⟩ := by
  cases l with
  | logTS tuple now =>
      have hnow := hread tuple now (.inl rfl)
      simp only [endStep] at h
      split at h
      · next hpc =>
        split at h
        · obtain ⟨rfl, rfl⟩ := Prod.mk.inj (Option.some.inj h)
          exact .inr (.close fun ht => (hnow.reads ht).2.1)
        · split at h
          · obtain ⟨rfl, rfl⟩ := Prod.mk.inj (Option.some.inj h)
            exact .inl ⟨rfl, rfl⟩
          · obtain ⟨rfl, rfl⟩ := Prod.mk.inj (Option.some.inj h)
            exact .inr (.call tuple now hpc hnow)
      · cases h
  | send =>
      simp only [endStep] at h
      split at h
      · next tuple ts hpc =>
        obtain ⟨rfl, rfl⟩ := Prod.mk.inj (Option.some.inj h)
        exact .inr (.send tuple ts hpc rfl)
      · cases h
  | recv =>
      simp only [endStep] at h
      split at h
      · next tuple ts echo rest hpc hechoes =>
        obtain ⟨rfl, rfl⟩ := Prod.mk.inj (Option.some.inj h)
        exact .inr (.recv tuple ts echo rest hpc hechoes rfl)
      · cases h
  | log now =>
      simp only [endStep] at h
      split at h
      · next tuple ts hpc =>
        obtain ⟨rfl, rfl⟩ := Prod.mk.inj (Option.some.inj h)
        exact .inr (.log tuple ts now hpc (hread 0 now (.inr rfl)))
      · cases h
  | closeChannel =>
      obtain ⟨rfl, rfl⟩ := Prod.mk.inj (Option.some.inj h)
      exact .inr (.close fun _ => le_rfl)

/-- A step of the receiver thread is a move of the channel whose message it is
about. -/
theorem startStep_move {l : StartLabel} {c : Int} (peer : Identity) (fe : FoxEnd)
    (hread : ∀ now, l = .stamp now → Read timed c now.ns now)
    (h : startStep sentData s l = some s') :
    s'.ends = s.ends ∧ (s'.traffic peer = s.traffic peer ∨
      View.Move timed c (l.clock c) ⟨s.traffic peer, fe⟩ ⟨s'.traffic peer, fe⟩) := by
  cases l with
  | openChannel ok =>
      simp only [startStep] at h
      split at h
      · cases h
      · obtain rfl := Option.some.inj h
        exact ⟨rfl, .inl rfl⟩
  | receive p =>
      simp only [startStep] at h
      split at h
      · next tuple rest hpc hrequests =>
        obtain rfl := Option.some.inj h
        refine ⟨rfl, ?_⟩
        by_cases hp : p = peer
        · subst hp
          refine .inr ?_
          have hmove : View.Move timed c c ⟨s.traffic p, fe⟩ _ := .receive tuple rest
            (by simp [Session.traffic, hpc, ReceiverPc.held]) hrequests rfl
          show View.Move timed c c _ _
          simpa [Session.traffic, ReceiverPc.held] using hmove
        · refine .inl ?_
          simp [Session.traffic, hpc, ReceiverPc.held, hp, Ne.symm hp]
      · cases h
  | stamp now =>
      simp only [startStep] at h
      split at h
      · next p tuple hpc =>
        obtain rfl := Option.some.inj h
        refine ⟨rfl, ?_⟩
        by_cases hp : p = peer
        · subst hp
          refine .inr ?_
          have hmove := View.Move.stamp (v := ⟨s.traffic p, fe⟩) tuple now
            (by simp [Session.traffic, hpc, ReceiverPc.held]) (hread now rfl)
          show View.Move timed c now.ns _ _
          simpa [Session.traffic, ReceiverPc.held, ofPeer_concat] using hmove
        · refine .inl ?_
          simp [Session.traffic, hpc, ReceiverPc.held, hp, ofPeer_concat]
      · cases h
  | echo =>
      simp only [startStep] at h
      split at h
      · next p tuple ts hpc =>
        obtain rfl := Option.some.inj h
        refine ⟨rfl, ?_⟩
        by_cases hp : p = peer
        · subst hp
          refine .inr ?_
          have hmove : View.Move timed c c ⟨s.traffic p, fe⟩ _ := .echo tuple ts
            (by simp [Session.traffic, hpc, ReceiverPc.held]) rfl
          show View.Move timed c c _ _
          simpa [Session.traffic, ReceiverPc.held] using hmove
        · refine .inl ?_
          simp [Session.traffic, hpc, ReceiverPc.held, hp, Ne.symm hp]
      · cases h
  | write =>
      simp only [startStep] at h
      split at h
      · next p tuple ts hpc =>
        obtain rfl := Option.some.inj h
        refine ⟨rfl, .inl ?_⟩
        simp [Session.traffic, hpc, ReceiverPc.held]
      · cases h
  | closeChannel =>
      simp only [startStep] at h
      split at h
      · obtain rfl := Option.some.inj h
        exact ⟨rfl, .inl rfl⟩
      · cases h

theorem Reads.read {now : Timespec} (h : timed → Reads s now) : Read timed s.clock now.ns now :=
  ⟨rfl, h⟩

variable [DecidableEq ι]

/-- **A step** of any thread moves a channel, or does not change what it sees. -/
theorem step_view {l : Label ι} (hid : Function.Injective identity)
    (hread : timed → Synchronized s l) (h : step identity sentData s l = some s') (e : ι) :
    (timed → s.clock ≤ s'.clock) ∧ (s'.view identity e = s.view identity e ∨
      View.Move timed s.clock s'.clock (s.view identity e) (s'.view identity e)) := by
  cases l with
  | ofEnd e' l =>
      obtain ⟨⟨fe, w⟩, hstep, rfl⟩ := Option.map_eq_some_iff.mp h
      have hclock : timed → s.clock ≤ l.clock s.clock := fun ht => by
        cases l with
        | logTS tuple now => exact (hread ht).2.1
        | log now => exact (hread ht).2.1
        | send | recv | closeChannel => exact le_rfl
      refine ⟨hclock, ?_⟩
      by_cases he : e' = e
      · subst he
        have hmove := endStep_move (t := s.traffic (identity e')) (c := s.clock)
          (fun tuple now hl => Reads.read fun ht : timed => by
            obtain rfl | rfl := hl
            · exact hread ht
            · exact hread ht) hstep
        simpa [Session.view, Session.traffic] using hmove
      · refine .inl ?_
        have hne : identity e ≠ identity e' := fun heq => he (hid heq).symm
        simp [Session.view, Session.traffic, Function.update_of_ne hne,
          Function.update_of_ne (Ne.symm he)]
  | ofStart l =>
      obtain ⟨s₁, hstep, rfl⟩ := Option.map_eq_some_iff.mp h
      have hclock : timed → s.clock ≤ l.clock s.clock := fun ht => by
        cases l with
        | stamp now => exact (hread ht).2.1
        | openChannel | receive | echo | write | closeChannel => exact le_rfl
      refine ⟨hclock, ?_⟩
      obtain ⟨hends, hmove⟩ := startStep_move (c := s.clock) (identity e) (s.ends e)
        (fun now hl => Reads.read fun ht : timed => by
          subst hl
          exact hread ht) hstep
      simpa [Session.view, hends, Session.traffic] using hmove

end Steps

/-! ## every run -/

/-- What the receiver has not logged yet. -/
def ReceiverPc.unwritten : ReceiverPc → List (Identity × StartLine)
  | .stamped p tuple ts | .echoed p tuple ts => [(p, ⟨tuple, ts⟩)]
  | _ => []

/-- The peer the receiver is busy with. -/
def ReceiverPc.peer : ReceiverPc → Option Identity
  | .polling => none
  | .holding p _ | .stamped p _ _ | .echoed p _ _ => some p

section Runs

variable {ι : Type} {identity : ι → Identity} {sentData : Int64 → Int64} {timed : Prop}
  {s s' : Session ι} {ok : Session ι → Label ι → Prop}

theorem explained_init (e : ι) :
    ((Session.init : Session ι).view identity e).Explained timed 0 [] where
  nonneg _ := le_rfl
  stage := ⟨⟨rfl, rfl, rfl⟩, rfl⟩
  lines := List.prefix_refl _
  isOpen _ := rfl
  calls := rfl
  ordered _ _ hx := nomatch hx

/-- **Every run** of the calls on a channel and of the receiver is a sequence
of exchanges. -/
theorem explained (timed : Prop) [DecidableEq ι] (hid : Function.Injective identity)
    (hok : ∀ (s : Session ι) l, ok s l → timed → Synchronized s l)
    (hr : Reach (step identity sentData) .init ok s) (e : ι) :
    ∃ xs, (s.view identity e).Explained timed s.clock xs := by
  induction hr with
  | init => exact ⟨[], explained_init e⟩
  | step _ hl hstep ih =>
      obtain ⟨xs, h⟩ := ih
      obtain ⟨hle, heq | hmove⟩ := step_view hid (hok _ _ hl) hstep e
      · rw [heq]
        exact ⟨xs, h.mono hle⟩
      · exact h.move hmove

/-- The line for a time-stamp the receiver has taken. -/
def StartLine.written (sentData : Int64 → Int64) (l : StartLine) : StartLine :=
  { l with tuple := sentData l.tuple }

/-- What the receiver writes of the time-stamps it has taken. -/
def writtenOf (sentData : Int64 → Int64) (log : List (Identity × StartLine)) :
    List (Identity × StartLine) :=
  log.map fun l => (l.1, l.2.written sentData)

@[simp] theorem writtenOf_append (log log' : List (Identity × StartLine)) :
    writtenOf sentData (log ++ log') = writtenOf sentData log ++ writtenOf sentData log' :=
  List.map_append

@[simp] theorem ofPeer_writtenOf (peer : Identity) (log : List (Identity × StartLine)) :
    ofPeer peer (writtenOf sentData log) = (ofPeer peer log).map (StartLine.written sentData) := by
  simp only [ofPeer, writtenOf, List.filterMap_map, List.map_filterMap]
  congr 1
  funext l
  by_cases h : l.1 = peer <;> simp [h]

/-- The log of the start node, and whom its lines come from. -/
structure Session.StartInv (identity : ι → Identity) (sentData : Int64 → Int64)
    (s : Session ι) : Prop where
  unstarted : s.started = false → s.start.isOpen = false ∧ s.start.lines = [] ∧
    writtenOf sentData s.served = s.missed ++ writtenOf sentData s.receiver.unwritten
  lines : s.missed ++ s.start.lines <+: writtenOf sentData s.served
  isOpen : s.start.isOpen = true → writtenOf sentData s.served =
    s.missed ++ s.start.lines ++ writtenOf sentData s.receiver.unwritten
  requests : ∀ p, (s.wires p).requests ≠ [] → p ∈ Set.range identity
  peer : ∀ p ∈ s.receiver.peer, p ∈ Set.range identity
  served : ∀ l ∈ s.served, l.1 ∈ Set.range identity

/-- The receiver goes on, and has written no more and no less. -/
theorem Session.StartInv.congr (h : s.StartInv identity sentData) {r : ReceiverPc}
    {wires : Identity → Wire} (hr : r.unwritten = s.receiver.unwritten)
    (hrequests : ∀ p, (wires p).requests ≠ [] → p ∈ Set.range identity)
    (hpeer : ∀ p ∈ r.peer, p ∈ Set.range identity) :
    Session.StartInv identity sentData { s with receiver := r, wires := wires } where
  unstarted := by
    simp only [hr]
    exact h.unstarted
  lines := h.lines
  isOpen := by
    simp only [hr]
    exact h.isOpen
  requests := hrequests
  peer := hpeer
  served := h.served

theorem Session.StartInv.stamp {p : Identity} {tuple : Int64} (h : s.StartInv identity sentData)
    (hpc : s.receiver = .holding p tuple) (now : Timespec) :
    Session.StartInv identity sentData { s with
      receiver := .stamped p tuple now
      served := s.served ++ [(p, ⟨tuple, now⟩)] } := by
  have hp : p ∈ Set.range identity := h.peer p (by simp [hpc, ReceiverPc.peer])
  have hnil : s.receiver.unwritten = [] := by rw [hpc]; rfl
  refine ⟨fun hs => ?_, ?_, fun hopen => ?_, h.requests, fun q hq => ?_, fun q hq => ?_⟩
  · obtain ⟨hopen, hlines, hserved⟩ := h.unstarted hs
    refine ⟨hopen, hlines, ?_⟩
    rw [writtenOf_append, hserved, hnil]
    simp [ReceiverPc.unwritten, writtenOf]
  · rw [writtenOf_append]
    exact h.lines.trans (List.prefix_append ..)
  · have hserved := h.isOpen hopen
    rw [writtenOf_append, hserved, hnil]
    simp [ReceiverPc.unwritten, writtenOf]
  · exact Option.some.inj hq ▸ hp
  · obtain hq | hq := List.mem_append.mp hq
    · exact h.served q hq
    · exact List.mem_singleton.mp hq ▸ hp

/-- The line goes to the log, or is lost. -/
theorem Session.StartInv.write {p : Identity} {tuple : Int64} {ts : Timespec}
    (h : s.StartInv identity sentData) (hpc : s.receiver = .echoed p tuple ts) :
    Session.StartInv identity sentData { s with
      receiver := .polling
      start := s.start.put (p, ⟨sentData tuple, ts⟩)
      missed := if s.started then s.missed
        else s.missed ++ [(p, ⟨sentData tuple, ts⟩)] } := by
  have hline : writtenOf sentData s.receiver.unwritten = [(p, ⟨sentData tuple, ts⟩)] := by
    rw [hpc]
    rfl
  cases hs : s.started with
  | false =>
      obtain ⟨hopen, hlines, hserved⟩ := h.unstarted hs
      rw [hline] at hserved
      have hput : s.start.put (p, ⟨sentData tuple, ts⟩) = s.start := by simp [Base.put, hopen]
      simp only [hput, Bool.false_eq_true, if_false]
      refine ⟨fun _ => ⟨hopen, hlines, ?_⟩, ?_, fun hopen' => ?_, h.requests, nofun, h.served⟩
      · rw [hserved]
        simp [ReceiverPc.unwritten, writtenOf]
      · rw [hserved, hlines, List.append_nil]
      · rw [hopen] at hopen'
        cases hopen'
  | true =>
      simp only [if_true]
      refine ⟨nofun, ?_, fun hopen => ?_, h.requests, nofun, h.served⟩
      · unfold Base.put
        split
        · next hopen =>
          rw [h.isOpen hopen, hline, List.append_assoc]
        · exact h.lines
      · have hopen' : s.start.isOpen = true := (Base.isOpen_put ..).symm.trans hopen
        rw [h.isOpen hopen', hline, Base.put, if_pos hopen']
        simp [ReceiverPc.unwritten, writtenOf]

theorem Session.StartInv.startStep {l : StartLabel} (h : s.StartInv identity sentData)
    (hstep : startStep sentData s l = some s') : s'.StartInv identity sentData := by
  cases l with
  | openChannel ok =>
      simp only [Fox.startStep] at hstep
      split at hstep
      · cases hstep
      · next hs =>
        obtain rfl := Option.some.inj hstep
        obtain ⟨-, hlines, hserved⟩ := h.unstarted (by simpa using hs)
        refine ⟨fun h => (by cases h), h.lines, fun _ => ?_, h.requests, h.peer, h.served⟩
        rw [hserved, hlines, List.append_nil]
  | receive p =>
      simp only [Fox.startStep] at hstep
      split at hstep
      · next tuple rest hpc hrequests =>
        obtain rfl := Option.some.inj hstep
        have hp : p ∈ Set.range identity := h.requests p (by simp [hrequests])
        refine h.congr (by rw [hpc]; rfl) (fun q hq => ?_) fun q hq => Option.some.inj hq ▸ hp
        by_cases hqp : q = p
        · exact hqp ▸ hp
        · exact h.requests q (by simpa [Function.update_of_ne hqp] using hq)
      · cases hstep
  | stamp now =>
      simp only [Fox.startStep] at hstep
      split at hstep
      · next p tuple hpc =>
        obtain rfl := Option.some.inj hstep
        exact h.stamp hpc now
      · cases hstep
  | echo =>
      simp only [Fox.startStep] at hstep
      split at hstep
      · next p tuple ts hpc =>
        obtain rfl := Option.some.inj hstep
        refine h.congr (by rw [hpc]; rfl) (fun q hq => ?_)
          fun q hq => h.peer q (by simpa [hpc, ReceiverPc.peer] using hq)
        by_cases hqp : q = p
        · exact hqp ▸ h.peer p (by simp [hpc, ReceiverPc.peer])
        · exact h.requests q (by simpa [Function.update_of_ne hqp] using hq)
      · cases hstep
  | write =>
      simp only [Fox.startStep] at hstep
      split at hstep
      · next p tuple ts hpc =>
        obtain rfl := Option.some.inj hstep
        exact h.write hpc
      · cases hstep
  | closeChannel =>
      simp only [Fox.startStep] at hstep
      split at hstep
      · next hs =>
        obtain rfl := Option.some.inj hstep
        exact ⟨fun hs' => absurd (hs.symm.trans hs') (by decide), h.lines, nofun, h.requests, h.peer,
          h.served⟩
      · cases hstep

theorem startInv [DecidableEq ι] (hr : Reach (step identity sentData) .init ok s) :
    s.StartInv identity sentData := by
  refine hr.invariant (I := Session.StartInv identity sentData)
    ⟨fun _ => ⟨rfl, rfl, rfl⟩, List.prefix_refl _, fun h => (by cases h), fun p hp => absurd rfl hp,
      fun p hp => (by cases hp), fun l hl => (by cases hl)⟩ ?_
  intro s l s' h _ hstep
  cases l with
  | ofEnd e l =>
      obtain ⟨⟨fe, w⟩, hend, rfl⟩ := Option.map_eq_some_iff.mp hstep
      refine ⟨h.unstarted, h.lines, h.isOpen, fun p hp => ?_, h.peer, h.served⟩
      by_cases hpe : p = identity e
      · exact ⟨e, hpe.symm⟩
      · exact h.requests p (by simpa [Function.update_of_ne hpe] using hp)
  | ofStart l =>
      obtain ⟨s₁, hstart, rfl⟩ := Option.map_eq_some_iff.mp hstep
      obtain ⟨hunstarted, hlines, hisOpen, hrequests, hpeer, hserved⟩ := h.startStep hstart
      exact ⟨hunstarted, hlines, hisOpen, hrequests, hpeer, hserved⟩

/-- What the receiver has served is what the exchanges say, and at most the
tuple of the call besides. -/
theorem View.Explained.exists_served {c : Int} {v : View} {xs : List Exchange}
    (h : v.Explained timed c xs) :
    ∃ rest, v.served = xs.map Exchange.startLine ++ rest ∧
      rest.map StartLine.tuple <+: v.fe.pc.tuples := by
  have hstage := h.stage
  unfold View.Stage at hstage
  split at hstage
  · exact ⟨[], by rw [hstage.2, List.append_nil], List.nil_prefix⟩
  · exact ⟨[], by rw [hstage.2.1, List.append_nil], List.nil_prefix⟩
  · next tuple ts hpc =>
    rw [hpc]
    cases hstage.1 with
    | requested _ _ _ hserved => exact ⟨[], by rw [hserved, List.append_nil], List.nil_prefix⟩
    | held _ _ _ hserved => exact ⟨[], by rw [hserved, List.append_nil], List.nil_prefix⟩
    | stamped ts' _ _ _ hserved _ => exact ⟨_, hserved, List.prefix_refl _⟩
    | echoed ts' _ _ _ hserved _ => exact ⟨_, hserved, List.prefix_refl _⟩
  · next tuple ts hpc =>
    rw [hpc]
    obtain ⟨-, -, ts', hserved, -⟩ := hstage
    exact ⟨_, hserved, List.prefix_refl _⟩

/-- The lines for a channel, lost and written, are first ones of those the
receiver has taken a time-stamp for. -/
theorem startLines_prefixed (h : s.StartInv identity sentData) (e : ι) :
    s.missedLines identity e ++ s.startLines identity e <+:
      (s.view identity e).served.map (StartLine.written sentData) := by
  have hprefix : ofPeer (identity e) (s.missed ++ s.start.lines) <+:
      ofPeer (identity e) (writtenOf sentData s.served) := h.lines.filterMap _
  rw [ofPeer_writtenOf, ofPeer, List.filterMap_append] at hprefix
  exact hprefix

/-- The start node is at most the line behind that the receiver is about to
write. -/
theorem served_eq_startLines (h : s.StartInv identity sentData) (hopen : s.start.isOpen = true)
    (e : ι) : (s.view identity e).served.map (StartLine.written sentData) =
      s.missedLines identity e ++ s.startLines identity e ++
        (ofPeer (identity e) s.receiver.unwritten).map (StartLine.written sentData) := by
  show (ofPeer (identity e) s.served).map _ = _
  rw [← ofPeer_writtenOf, h.isOpen hopen, ← ofPeer_writtenOf, ofPeer, List.filterMap_append,
    List.filterMap_append]
  rfl

theorem EndPc.length_tuples_le (pc : EndPc) : pc.tuples.length ≤ 1 := by
  cases pc <;> simp [EndPc.tuples]

theorem length_ofPeer_unwritten_le (pc : ReceiverPc) (peer : Identity) :
    (ofPeer peer pc.unwritten).length ≤ 1 := by
  refine (List.length_filterMap_le _ _).trans ?_
  cases pc <;> simp [ReceiverPc.unwritten]

/-- What the two logs of a channel have in common with the calls. -/
structure LogsAgree (identity : ι → Identity) (sentData : Int64 → Int64) (s : Session ι) (e : ι) :
    Prop where
  endLog : (s.endLines e).map EndLine.tuple <+: (s.ends e).calls
  startLog : (s.missedLines identity e ++ s.startLines identity e).map StartLine.tuple <+:
    (s.ends e).calls.map sentData
  endBehind : (s.ends e).base.isOpen = true → (s.ends e).calls.length ≤ (s.endLines e).length + 1
  startBehind : (s.ends e).base.isOpen = true → s.start.isOpen = true →
    (s.endLines e).length ≤ (s.missedLines identity e ++ s.startLines identity e).length + 1 ∧
      (s.missedLines identity e ++ s.startLines identity e).length ≤ (s.endLines e).length + 1

theorem map_tuple_written (ls : List StartLine) :
    (ls.map (StartLine.written sentData)).map StartLine.tuple =
      (ls.map StartLine.tuple).map sentData := by
  rw [List.map_map, List.map_map]
  rfl

theorem LogsAgree.of_explained {c : Int} {e : ι} {xs : List Exchange}
    (h : (s.view identity e).Explained timed c xs) (hstart : s.StartInv identity sentData) :
    LogsAgree identity sentData s e := by
  obtain ⟨rest, hserved, hrest⟩ := h.exists_served
  have hcalls : (s.ends e).calls = xs.map Exchange.tuple ++ (s.ends e).pc.tuples := h.calls
  have hlines : s.endLines e <+: xs.map Exchange.endLine := h.lines
  have htuples := (s.ends e).pc.length_tuples_le
  have hlength : rest.length ≤ 1 := by
    have hle := hrest.length_le
    rw [List.length_map] at hle
    exact hle.trans htuples
  have hendTuple : (xs.map Exchange.endLine).map EndLine.tuple = xs.map Exchange.tuple := by
    rw [List.map_map]
    rfl
  have hstartTuple : (xs.map Exchange.startLine).map StartLine.tuple = xs.map Exchange.tuple := by
    rw [List.map_map]
    rfl
  refine ⟨?_, ?_, fun hopen => ?_, fun hopen hopen' => ?_⟩
  · rw [hcalls, ← hendTuple]
    exact (hlines.map _).trans (List.prefix_append ..)
  · refine ((startLines_prefixed hstart e).map _).trans ?_
    rw [map_tuple_written, hserved, List.map_append, hstartTuple, hcalls]
    exact ((List.prefix_append_right_inj _).mpr hrest).map _
  · have heq : s.endLines e = xs.map Exchange.endLine := h.isOpen hopen
    rw [hcalls, heq, List.length_append, List.length_map, List.length_map]
    omega
  · have heq : s.endLines e = xs.map Exchange.endLine := h.isOpen hopen
    have hunwritten := length_ofPeer_unwritten_le s.receiver (identity e)
    have hstartLength := congrArg List.length (served_eq_startLines hstart hopen' e)
    rw [List.length_append, List.length_map, List.length_map, hserved, List.length_append,
      List.length_map] at hstartLength
    rw [heq, List.length_map]
    omega

/-! ## results -/

section Results

variable [DecidableEq ι] {draws : ι → Fin 65536 × Fin 65536}

/-- **The logs agree**: whatever the order of the steps, the log of a FOX_END
channel holds the first tuples of its calls, in their order and each of them
once; so do the lines the start node has of it, with the tuples as they are
read from the messages sent and behind the lines lost before its log was
open; and neither is more than a line behind. -/
theorem logs_agree (hdraws : Function.Injective draws)
    (hr : Reach (step (identityOf ∘ draws) sentData) .init anyStep s) (e : ι) :
    LogsAgree (identityOf ∘ draws) sentData s e := by
  obtain ⟨xs, h⟩ := explained False (identityOf_injective.comp hdraws)
    (fun _ _ _ ht => ht.elim) hr e
  exact .of_explained h (startInv hr)

theorem Exchange.Ordered.toInt_rttNs {x : Exchange} (h : x.Ordered) :
    (rttNs x.sent x.received).toInt = x.received.ns - x.sent.ns := by
  have hsent := toNat_elapsedNs x.sent
  have hreceived := toNat_elapsedNs x.received
  have h0 := h.nonneg
  have hlt := h.lt
  have hle := h.before.trans h.after
  have hsub := UInt64.toNat_sub x.received.elapsedNs x.sent.elapsedNs
  rw [rttNs, toInt_toInt64] <;> omega

/-- The three steps of the receiver thread after it has received a message. -/
def serveRun (now : Timespec) : List (Label ι) :=
  [.ofStart (.stamp now), .ofStart .echo, .ofStart .write]

/-- Two channels, and two lines of one of them: the start node has lost the
first, since its log was not open yet. -/
theorem logs_agree_two : ∃ s : Session Bool,
    LogsAgree (identityOf ∘ fun e => (if e then 1 else 0, 0)) id s true ∧
      (s.endLines true).map EndLine.tuple = [8, 9] ∧
      (s.missedLines (identityOf ∘ fun e => (if e then 1 else 0, 0)) true).map
        StartLine.tuple = [8] ∧
      (s.startLines (identityOf ∘ fun e => (if e then 1 else 0, 0)) true).map
        StartLine.tuple = [9] := by
  have hdraws : Function.Injective
      fun e : Bool => ((if e then 1 else 0, 0) : Fin 65536 × Fin 65536) := by
    intro e e' h
    revert h
    revert e e'
    decide
  obtain ⟨s, hr, hs⟩ : ∃ s : Session Bool,
      Reach (step (identityOf ∘ fun e => (if e then 1 else 0, 0)) id) .init anyStep s ∧
      ((s.endLines true).map EndLine.tuple = [8, 9] &&
        (s.missedLines (identityOf ∘ fun e => (if e then 1 else 0, 0)) true).map
          StartLine.tuple = [8] &&
        (s.startLines (identityOf ∘ fun e => (if e then 1 else 0, 0)) true).map
          StartLine.tuple = [9]) = true := Reach.of_exec_any
    ([.ofEnd true (.logTS 8 ⟨1, 0, 0, 0, 0⟩), .ofEnd true .send,
        .ofStart (.receive (identityOf (1, 0)))] ++ serveRun ⟨1, 2, 0, 0, 0⟩ ++
      [.ofEnd true .recv, .ofStart (.openChannel true), .ofEnd false (.logTS 7 ⟨1, 3, 0, 0, 0⟩),
        .ofEnd true (.log ⟨1, 5, 0, 0, 0⟩), .ofEnd true (.logTS 9 ⟨1, 6, 0, 0, 0⟩),
        .ofEnd true .send, .ofEnd false .send, .ofStart (.receive (identityOf (1, 0)))] ++
      serveRun ⟨1, 8, 0, 0, 0⟩ ++ [.ofEnd true .recv, .ofEnd true (.log ⟨1, 9, 0, 0, 0⟩)])
    _ (by decide)
  exact ⟨s, logs_agree hdraws hr true, by simpa [and_assoc] using hs⟩

theorem getElem?_of_prefixed {α : Type} {l l' : List α} {k : Nat} {a : α} (h : l <+: l')
    (ha : l[k]? = some a) : l'[k]? = some a := by
  obtain ⟨hk, rfl⟩ := List.getElem?_eq_some_iff.mp ha
  exact List.prefix_iff_getElem?.mp h k hk

theorem exists_of_getElem?_map {α β : Type} {f : α → β} {l : List α} {k : Nat} {b : β}
    (h : (l.map f)[k]? = some b) : ∃ a, l[k]? = some a ∧ f a = b := by
  rw [List.getElem?_map] at h
  exact Option.map_eq_some_iff.mp h

omit [DecidableEq ι] in
/-- A line of the start node is behind those it has lost. -/
theorem getElem?_missed_startLines {identity : ι → Identity} {e : ι} {k : Nat} {l' : StartLine}
    (hl' : (s.startLines identity e)[k]? = some l') :
    (s.missedLines identity e ++ s.startLines identity e)[
      (s.missedLines identity e).length + k]? = some l' := by
  rw [List.getElem?_append_right (Nat.le_add_right ..), Nat.add_sub_cancel_left, hl']

/-- The lines of a tuple are those of one exchange. -/
theorem exists_exchange {identity : ι → Identity} (hid : Function.Injective identity)
    (hr : Reach (step identity sentData) .init Synchronized s) {e : ι} {k : Nat} {l : EndLine}
    {l' : StartLine} (hl : (s.endLines e)[(s.missedLines identity e).length + k]? = some l)
    (hl' : (s.startLines identity e)[k]? = some l') :
    ∃ x : Exchange, x.Ordered ∧ x.endLine = l ∧ x.startLine.written sentData = l' := by
  obtain ⟨xs, h⟩ := explained True hid (fun _ _ hl _ => hl) hr e
  obtain ⟨rest, hserved, -⟩ := h.exists_served
  have hstart := startLines_prefixed (startInv hr) e
  rw [hserved, List.map_append, List.map_map] at hstart
  obtain ⟨x, hx, rfl⟩ := exists_of_getElem?_map (getElem?_of_prefixed h.lines hl)
  have hk := (List.getElem?_eq_some_iff.mp hx).1
  have hx' : (xs.map (StartLine.written sentData ∘ Exchange.startLine))[
      (s.missedLines identity e).length + k]? = some l' := by
    rw [← List.getElem?_append_left (by rwa [List.length_map])]
    exact getElem?_of_prefixed hstart (getElem?_missed_startLines hl')
  obtain ⟨y, hy, rfl⟩ := exists_of_getElem?_map hx'
  obtain rfl : x = y := Option.some.inj (hx.symm.trans hy)
  exact ⟨x, h.ordered trivial x (List.mem_of_getElem? hx), rfl, rfl⟩

/-- **The start node's time-stamp** of a tuple is between the one of the
FOX_END channel and the end of the round trip, if the clocks are
synchronized. -/
theorem stamp_within_rtt (hdraws : Function.Injective draws)
    (hr : Reach (step (identityOf ∘ draws) sentData) .init Synchronized s) (e : ι) {k : Nat}
    {l : EndLine} {l' : StartLine}
    (hl : (s.endLines e)[(s.missedLines (identityOf ∘ draws) e).length + k]? = some l)
    (hl' : (s.startLines (identityOf ∘ draws) e)[k]? = some l') :
    l'.tuple = sentData l.tuple ∧ l.ts.ns ≤ l'.ts.ns ∧ l'.ts.ns ≤ l.ts.ns + l.rttNs.toInt := by
  obtain ⟨x, hordered, rfl, rfl⟩ := exists_exchange (identityOf_injective.comp hdraws) hr hl hl'
  have hrtt := hordered.toInt_rttNs
  have hafter := hordered.after
  refine ⟨rfl, hordered.before, ?_⟩
  show x.stamped.ns ≤ x.sent.ns + (rttNs x.sent x.received).toInt
  omega

/-- The second line of a channel, which is the first one of the start node. -/
theorem stamp_within_rtt_second : ∃ s : Session Unit, ∃ l l',
    (s.endLines ())[1]? = some l ∧ (s.startLines (identityOf ∘ fun _ => (0, 0)) ())[0]? = some l' ∧
      l'.tuple = l.tuple ∧ l.ts.ns ≤ l'.ts.ns ∧ l'.ts.ns ≤ l.ts.ns + l.rttNs.toInt := by
  obtain ⟨s, hr, hs⟩ : ∃ s : Session Unit,
      Reach (step (identityOf ∘ fun _ => (0, 0)) id) .init Synchronized s ∧
      ((s.missedLines (identityOf ∘ fun _ => (0, 0)) ()).length = 1 &&
        (s.endLines ())[1]? = some ⟨8, ⟨1, 6, 0, 0, 0⟩, 3⟩ &&
        (s.startLines (identityOf ∘ fun _ => (0, 0)) ())[0]? =
          some ⟨8, ⟨1, 8, 0, 0, 0⟩⟩) = true := Reach.of_exec_any
    ([.ofEnd () (.logTS 7 ⟨1, 0, 0, 0, 0⟩), .ofEnd () .send,
        .ofStart (.receive (identityOf (0, 0)))] ++ serveRun ⟨1, 2, 0, 0, 0⟩ ++
      [.ofEnd () .recv, .ofStart (.openChannel true), .ofEnd () (.log ⟨1, 5, 0, 0, 0⟩),
        .ofEnd () (.logTS 8 ⟨1, 6, 0, 0, 0⟩), .ofEnd () .send,
        .ofStart (.receive (identityOf (0, 0)))] ++ serveRun ⟨1, 8, 0, 0, 0⟩ ++
      [.ofEnd () .recv, .ofEnd () (.log ⟨1, 9, 0, 0, 0⟩)]) _ (by decide)
  obtain ⟨⟨hmissed, hl⟩, hl'⟩ : ((s.missedLines (identityOf ∘ fun _ => (0, 0)) ()).length = 1 ∧
      (s.endLines ())[1]? = some ⟨8, ⟨1, 6, 0, 0, 0⟩, 3⟩) ∧
      (s.startLines (identityOf ∘ fun _ => (0, 0)) ())[0]? = some ⟨8, ⟨1, 8, 0, 0, 0⟩⟩ := by
    simpa using hs
  exact ⟨s, _, _, hl, hl', stamp_within_rtt
    (Function.injective_of_subsingleton _) hr () (by rwa [hmissed]) hl'⟩

end Results

end Runs

end Fox

end CloudProfiler
