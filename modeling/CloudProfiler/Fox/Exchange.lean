import CloudProfiler.Fox

/-!
# CloudProfiler.Fox.Exchange

What a FOX_END channel sees of a session, and what it looks like there: a
list of exchanges, each of which is a line in both logs, and a call that has
got so far.

* `View.Move` — what the threads can do to a channel;
* `View.Explained` — the exchanges explain the channel;
* `View.Explained.move` — they do after every move.
-/

namespace CloudProfiler

namespace Fox

/-! ## one channel -/

/-- What the receiver holds of a peer, and whether it has taken a time-stamp
for it. -/
def ReceiverPc.held (peer : Identity) : ReceiverPc → Option (Int64 × Option Timespec)
  | .holding p tuple => if p = peer then some (tuple, none) else none
  | .stamped p tuple ts => if p = peer then some (tuple, some ts) else none
  | _ => none

/-- The tuple of the call. -/
def EndPc.tuples : EndPc → List Int64
  | .ready => []
  | .stamped tuple _ | .waiting tuple _ | .received tuple _ => [tuple]

/-- The messages of a FOX_END channel, and the lines for them. -/
structure Traffic extends Wire where
  held : Option (Int64 × Option Timespec)
  served : List StartLine

/-- The session as a FOX_END channel sees it. -/
structure View extends Traffic where
  fe : FoxEnd

/-- A reading of the clock that takes it from `c` to `c'`; on synchronized
clocks (`timed`) no earlier than `c`. -/
structure Read (timed : Prop) (c c' : Int) (now : Timespec) : Prop where
  ns : now.ns = c'
  reads : timed → now.Normal ∧ c ≤ c' ∧ c' < 2 ^ 63

/-- The moves of a call, during which the clock goes from `c` to `c'`. -/
inductive View.Move (timed : Prop) (c c' : Int) (v : View) : View → Prop
  | call (tuple : Int64) (now : Timespec) (hpc : v.fe.pc = .ready) (hread : Read timed c c' now) :
      Move timed c c' v { v with
        fe := { v.fe with pc := .stamped tuple now, calls := v.fe.calls ++ [tuple] } }
  | send (tuple : Int64) (ts : Timespec) (hpc : v.fe.pc = .stamped tuple ts) (hc : c' = c) :
      Move timed c c' v { v with
        fe := { v.fe with pc := .waiting tuple ts }
        requests := v.requests ++ [tuple] }
  | receive (tuple : Int64) (rest : List Int64) (hheld : v.held = none)
      (hrequests : v.requests = tuple :: rest) (hc : c' = c) :
      Move timed c c' v { v with requests := rest, held := some (tuple, none) }
  | stamp (tuple : Int64) (now : Timespec) (hheld : v.held = some (tuple, none))
      (hread : Read timed c c' now) :
      Move timed c c' v { v with
        held := some (tuple, some now)
        served := v.served ++ [⟨tuple, now⟩] }
  | echo (tuple : Int64) (ts : Timespec) (hheld : v.held = some (tuple, some ts)) (hc : c' = c) :
      Move timed c c' v { v with held := none, echoes := v.echoes ++ [tuple] }
  | recv (tuple : Int64) (ts : Timespec) (echo : Int64) (rest : List Int64)
      (hpc : v.fe.pc = .waiting tuple ts) (hechoes : v.echoes = echo :: rest) (hc : c' = c) :
      Move timed c c' v { v with fe := { v.fe with pc := .received tuple ts }, echoes := rest }
  | log (tuple : Int64) (ts now : Timespec) (hpc : v.fe.pc = .received tuple ts)
      (hread : Read timed c c' now) :
      Move timed c c' v { v with
        fe := { v.fe with pc := .ready, base := v.fe.base.put ⟨tuple, ts, rttNs ts now⟩ } }
  | close (hc : timed → c ≤ c') :
      Move timed c c' v { v with fe := { v.fe with base := v.fe.base.closeChannel } }

/-! ## exchanges -/

/-- A tuple that was sent, received and echoed: the three readings of the
clock. -/
structure Exchange where
  tuple : Int64
  sent : Timespec
  stamped : Timespec
  received : Timespec

namespace Exchange

def endLine (x : Exchange) : EndLine := ⟨x.tuple, x.sent, rttNs x.sent x.received⟩

def startLine (x : Exchange) : StartLine := ⟨x.tuple, x.stamped⟩

/-- The readings are in order. -/
structure Ordered (x : Exchange) : Prop where
  sent : x.sent.Normal
  stamped : x.stamped.Normal
  nonneg : 0 ≤ x.sent.ns
  before : x.sent.ns ≤ x.stamped.ns
  after : x.stamped.ns ≤ x.received.ns
  lt : x.received.ns < 2 ^ 63

end Exchange

/-- The first reading of a call. -/
structure Sent (c : Int) (ts : Timespec) : Prop where
  normal : ts.Normal
  nonneg : 0 ≤ ts.ns
  le : ts.ns ≤ c

/-- The second one. -/
structure Stamped (c : Int) (ts ts' : Timespec) : Prop where
  normal : ts'.Normal
  before : ts.ns ≤ ts'.ns
  le : ts'.ns ≤ c

/-- Nothing of the channel is on its way. -/
structure Traffic.Quiet (v : Traffic) : Prop where
  requests : v.requests = []
  echoes : v.echoes = []
  held : v.held = none

/-- Where the message is of a call that waits for its echo, after the
exchanges `xs`. -/
inductive Traffic.Flight (timed : Prop) (c : Int) (xs : List Exchange) (tuple : Int64)
    (ts : Timespec) (v : Traffic) : Prop
  | requested (hrequests : v.requests = [tuple]) (hechoes : v.echoes = []) (hheld : v.held = none)
      (hserved : v.served = xs.map Exchange.startLine)
  | held (hrequests : v.requests = []) (hechoes : v.echoes = [])
      (hheld : v.held = some (tuple, none)) (hserved : v.served = xs.map Exchange.startLine)
  | stamped (ts' : Timespec) (hrequests : v.requests = []) (hechoes : v.echoes = [])
      (hheld : v.held = some (tuple, some ts'))
      (hserved : v.served = xs.map Exchange.startLine ++ [⟨tuple, ts'⟩])
      (htimed : timed → Stamped c ts ts')
  | echoed (ts' : Timespec) (hrequests : v.requests = []) (hechoes : v.echoes = [tuple])
      (hheld : v.held = none) (hserved : v.served = xs.map Exchange.startLine ++ [⟨tuple, ts'⟩])
      (htimed : timed → Stamped c ts ts')

/-- Where a call is, after the exchanges `xs`. -/
def View.Stage (timed : Prop) (c : Int) (xs : List Exchange) (v : View) : Prop :=
  match v.fe.pc with
  | .ready => v.Quiet ∧ v.served = xs.map Exchange.startLine
  | .stamped _ ts => v.Quiet ∧ v.served = xs.map Exchange.startLine ∧ (timed → Sent c ts)
  | .waiting tuple ts => v.Flight timed c xs tuple ts ∧ (timed → Sent c ts)
  | .received tuple ts => v.Quiet ∧ (timed → Sent c ts) ∧
      ∃ ts', v.served = xs.map Exchange.startLine ++ [⟨tuple, ts'⟩] ∧ (timed → Stamped c ts ts')

/-- The exchanges `xs` explain what the channel has done. -/
structure View.Explained (timed : Prop) (c : Int) (v : View) (xs : List Exchange) : Prop where
  nonneg : timed → 0 ≤ c
  stage : v.Stage timed c xs
  lines : v.fe.base.lines <+: xs.map Exchange.endLine
  isOpen : v.fe.base.isOpen = true → v.fe.base.lines = xs.map Exchange.endLine
  calls : v.fe.calls = xs.map Exchange.tuple ++ v.fe.pc.tuples
  ordered : timed → ∀ x ∈ xs, x.Ordered

section View

variable {timed : Prop} {c c' : Int} {v v' : View} {xs : List Exchange} {tuple : Int64}
  {ts ts' now : Timespec}

theorem Sent.mono (h : Sent c ts) (hle : c ≤ c') : Sent c' ts :=
  ⟨h.normal, h.nonneg, h.le.trans hle⟩

theorem Stamped.mono (h : Stamped c ts ts') (hle : c ≤ c') : Stamped c' ts ts' :=
  ⟨h.normal, h.before, h.le.trans hle⟩

theorem Traffic.Flight.mono {v : Traffic} (h : v.Flight timed c xs tuple ts)
    (hle : timed → c ≤ c') : v.Flight timed c' xs tuple ts := by
  cases h with
  | requested hrequests hechoes hheld hserved => exact .requested hrequests hechoes hheld hserved
  | held hrequests hechoes hheld hserved => exact .held hrequests hechoes hheld hserved
  | stamped ts' hrequests hechoes hheld hserved htimed =>
      exact .stamped ts' hrequests hechoes hheld hserved fun ht => (htimed ht).mono (hle ht)
  | echoed ts' hrequests hechoes hheld hserved htimed =>
      exact .echoed ts' hrequests hechoes hheld hserved fun ht => (htimed ht).mono (hle ht)

theorem View.Stage.mono (h : v.Stage timed c xs) (hle : timed → c ≤ c') : v.Stage timed c' xs := by
  unfold View.Stage at h ⊢
  split
  · next hpc =>
    rw [hpc] at h
    exact h
  · next hpc =>
    rw [hpc] at h
    exact ⟨h.1, h.2.1, fun ht => (h.2.2 ht).mono (hle ht)⟩
  · next hpc =>
    rw [hpc] at h
    exact ⟨h.1.mono hle, fun ht => (h.2 ht).mono (hle ht)⟩
  · next hpc =>
    rw [hpc] at h
    obtain ⟨hquiet, hsent, ts', hserved, hstamped⟩ := h
    exact ⟨hquiet, fun ht => (hsent ht).mono (hle ht), ts', hserved,
      fun ht => (hstamped ht).mono (hle ht)⟩

/-- The clock goes on, the channel does not. -/
theorem View.Explained.mono (h : v.Explained timed c xs) (hle : timed → c ≤ c') :
    v.Explained timed c' xs :=
  { h with nonneg := fun ht => (h.nonneg ht).trans (hle ht), stage := h.stage.mono hle }

/-- A message is on its way only in a call that waits. -/
theorem View.Stage.flight (h : v.Stage timed c xs) (hquiet : ¬ v.Quiet) :
    ∃ tuple ts, v.fe.pc = .waiting tuple ts ∧ v.Flight timed c xs tuple ts ∧
      (timed → Sent c ts) := by
  unfold View.Stage at h
  split at h
  · exact absurd h.1 hquiet
  · exact absurd h.1 hquiet
  · next hpc => exact ⟨_, _, hpc, h⟩
  · exact absurd h.1 hquiet

theorem put_lines_prefix {ι : Type} {b : Base ι} {ls : List ι} {l : ι} (h : b.lines <+: ls)
    (hopen : b.isOpen = true → b.lines = ls) : (b.put l).lines <+: ls ++ [l] ∧
      ((b.put l).isOpen = true → (b.put l).lines = ls ++ [l]) := by
  unfold Base.put
  split
  · next hb =>
    rw [hopen hb]
    exact ⟨List.prefix_refl _, fun _ => rfl⟩
  · next hb => exact ⟨h.trans (List.prefix_append ..), fun hb' => absurd hb' hb⟩

theorem View.Explained.call (h : v.Explained timed c xs) (hpc : v.fe.pc = .ready)
    (hread : Read timed c c' now) :
    View.Explained timed c'
      { v with fe := { v.fe with pc := .stamped tuple now, calls := v.fe.calls ++ [tuple] } }
      xs := by
  have hstage := h.stage
  unfold View.Stage at hstage
  rw [hpc] at hstage
  refine ⟨fun ht => (h.nonneg ht).trans (hread.reads ht).2.1, ⟨hstage.1, hstage.2, fun ht => ?_⟩,
    h.lines, h.isOpen, ?_, h.ordered⟩
  · obtain ⟨hnormal, hle, -⟩ := hread.reads ht
    exact ⟨hnormal, hread.ns ▸ (h.nonneg ht).trans hle, hread.ns.le⟩
  · rw [h.calls, hpc]
    simp [EndPc.tuples]

theorem View.Explained.send (h : v.Explained timed c xs) (hpc : v.fe.pc = .stamped tuple ts) :
    View.Explained timed c
      { v with fe := { v.fe with pc := .waiting tuple ts }, requests := v.requests ++ [tuple] }
      xs := by
  have hstage := h.stage
  unfold View.Stage at hstage
  rw [hpc] at hstage
  obtain ⟨hquiet, hserved, hsent⟩ := hstage
  refine ⟨h.nonneg, ⟨.requested ?_ hquiet.echoes hquiet.held hserved, hsent⟩, h.lines, h.isOpen,
    ?_, h.ordered⟩
  · rw [hquiet.requests, List.nil_append]
  · rw [h.calls, hpc]
    rfl

theorem View.Explained.receive {rest : List Int64} (h : v.Explained timed c xs)
    (hrequests : v.requests = tuple :: rest) :
    View.Explained timed c { v with requests := rest, held := some (tuple, none) } xs := by
  obtain ⟨tuple', ts, hpc, hflight, hsent⟩ :=
    h.stage.flight fun hquiet => by cases hrequests.symm.trans hquiet.requests
  refine { h with stage := ?_ }
  unfold View.Stage
  dsimp only
  rw [hpc]
  cases hflight with
  | requested hrequests' hechoes _ hserved =>
      obtain ⟨rfl, rfl⟩ := List.cons.inj (hrequests.symm.trans hrequests')
      exact ⟨.held rfl hechoes rfl hserved, hsent⟩
  | held hrequests' _ _ _ => cases hrequests.symm.trans hrequests'
  | stamped _ hrequests' _ _ _ _ => cases hrequests.symm.trans hrequests'
  | echoed _ hrequests' _ _ _ _ => cases hrequests.symm.trans hrequests'

theorem View.Explained.stamp (h : v.Explained timed c xs) (hheld : v.held = some (tuple, none))
    (hread : Read timed c c' now) :
    View.Explained timed c'
      { v with held := some (tuple, some now), served := v.served ++ [⟨tuple, now⟩] } xs := by
  obtain ⟨tuple', ts, hpc, hflight, hsent⟩ :=
    h.stage.flight fun hquiet => by cases hheld.symm.trans hquiet.held
  have hle : timed → c ≤ c' := fun ht => (hread.reads ht).2.1
  refine { h.mono hle with stage := ?_ }
  unfold View.Stage
  dsimp only
  rw [hpc]
  cases hflight with
  | requested _ _ hheld' _ => cases hheld.symm.trans hheld'
  | held hrequests hechoes hheld' hserved =>
      obtain ⟨rfl, -⟩ := Prod.mk.inj (Option.some.inj (hheld.symm.trans hheld'))
      refine ⟨.stamped now hrequests hechoes rfl (by rw [hserved]) fun ht => ?_,
        fun ht => (hsent ht).mono (hle ht)⟩
      exact ⟨(hread.reads ht).1, hread.ns ▸ ((hsent ht).mono (hle ht)).le, hread.ns.le⟩
  | stamped _ _ _ hheld' _ _ => cases hheld.symm.trans hheld'
  | echoed _ _ _ hheld' _ _ => cases hheld.symm.trans hheld'

theorem View.Explained.echo (h : v.Explained timed c xs)
    (hheld : v.held = some (tuple, some now)) :
    View.Explained timed c { v with held := none, echoes := v.echoes ++ [tuple] } xs := by
  obtain ⟨tuple', ts, hpc, hflight, hsent⟩ :=
    h.stage.flight fun hquiet => by cases hheld.symm.trans hquiet.held
  refine { h with stage := ?_ }
  unfold View.Stage
  dsimp only
  rw [hpc]
  cases hflight with
  | requested _ _ hheld' _ => cases hheld.symm.trans hheld'
  | held _ _ hheld' _ => cases hheld.symm.trans hheld'
  | stamped ts' hrequests hechoes hheld' hserved htimed =>
      obtain ⟨rfl, -⟩ := Prod.mk.inj (Option.some.inj (hheld.symm.trans hheld'))
      exact ⟨.echoed ts' hrequests (by rw [hechoes, List.nil_append]) rfl hserved htimed, hsent⟩
  | echoed _ _ _ hheld' _ _ => cases hheld.symm.trans hheld'

theorem View.Explained.recv {echo : Int64} {rest : List Int64} (h : v.Explained timed c xs)
    (hpc : v.fe.pc = .waiting tuple ts) (hechoes : v.echoes = echo :: rest) :
    View.Explained timed c
      { v with fe := { v.fe with pc := .received tuple ts }, echoes := rest } xs := by
  have hstage := h.stage
  unfold View.Stage at hstage
  rw [hpc] at hstage
  obtain ⟨hflight, hsent⟩ := hstage
  refine ⟨h.nonneg, ?_, h.lines, h.isOpen, ?_, h.ordered⟩
  · cases hflight with
    | requested _ hechoes' _ _ => cases hechoes.symm.trans hechoes'
    | held _ hechoes' _ _ => cases hechoes.symm.trans hechoes'
    | stamped _ _ hechoes' _ _ _ => cases hechoes.symm.trans hechoes'
    | echoed ts' hrequests hechoes' hheld hserved htimed =>
        obtain ⟨-, rfl⟩ := List.cons.inj (hechoes.symm.trans hechoes')
        exact ⟨⟨hrequests, rfl, hheld⟩, hsent, ts', hserved, htimed⟩
  · rw [h.calls, hpc]
    rfl

/-- The exchange is complete. -/
theorem View.Explained.log (h : v.Explained timed c xs) (hpc : v.fe.pc = .received tuple ts)
    (hread : Read timed c c' now) :
    ∃ ts', View.Explained timed c' { v with
        fe := { v.fe with pc := .ready, base := v.fe.base.put ⟨tuple, ts, rttNs ts now⟩ } }
      (xs ++ [⟨tuple, ts, ts', now⟩]) := by
  have hstage := h.stage
  unfold View.Stage at hstage
  rw [hpc] at hstage
  obtain ⟨hquiet, hsent, ts', hserved, hstamped⟩ := hstage
  obtain ⟨hlines, hisOpen⟩ := put_lines_prefix (l := ⟨tuple, ts, rttNs ts now⟩) h.lines h.isOpen
  refine ⟨ts', fun ht => (h.nonneg ht).trans (hread.reads ht).2.1, ⟨hquiet, ?_⟩, ?_, ?_, ?_,
    fun ht x hx => ?_⟩
  · rw [hserved, List.map_append]
    rfl
  · rw [List.map_append]
    exact hlines
  · rw [List.map_append]
    exact hisOpen
  · rw [h.calls, hpc]
    simp [EndPc.tuples]
  · obtain hx | hx := List.mem_append.mp hx
    · exact h.ordered ht x hx
    · obtain rfl := List.mem_singleton.mp hx
      obtain ⟨-, hle, hlt⟩ := hread.reads ht
      have hafter := (hstamped ht).le.trans hle
      exact ⟨(hsent ht).normal, (hstamped ht).normal, (hsent ht).nonneg, (hstamped ht).before,
        hread.ns ▸ hafter, hread.ns ▸ hlt⟩

theorem View.Explained.close (h : v.Explained timed c xs) :
    View.Explained timed c { v with fe := { v.fe with base := v.fe.base.closeChannel } } xs :=
  { h with isOpen := nofun }

theorem View.Explained.move (h : v.Explained timed c xs) (hmove : v.Move timed c c' v') :
    ∃ xs', v'.Explained timed c' xs' := by
  cases hmove with
  | call tuple now hpc hread => exact ⟨xs, h.call hpc hread⟩
  | send tuple ts hpc hc => exact ⟨xs, hc ▸ h.send hpc⟩
  | receive tuple rest _ hrequests hc => exact ⟨xs, hc ▸ h.receive hrequests⟩
  | stamp tuple now hheld hread => exact ⟨xs, h.stamp hheld hread⟩
  | echo tuple ts hheld hc => exact ⟨xs, hc ▸ h.echo hheld⟩
  | recv tuple ts echo rest hpc hechoes hc => exact ⟨xs, hc ▸ h.recv hpc hechoes⟩
  | log tuple ts now hpc hread =>
      obtain ⟨ts', h'⟩ := h.log hpc hread
      exact ⟨_, h'⟩
  | close hc => exact ⟨xs, h.close.mono hc⟩

end View

end Fox

end CloudProfiler
