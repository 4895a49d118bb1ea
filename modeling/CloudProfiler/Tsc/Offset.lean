import CloudProfiler.Tsc.Session

/-!
# CloudProfiler.Tsc.Offset

What a session measures: how far the clocks of two slaves are apart.

One message at most is in transit (`Transit`), between the two slaves of the
pair that is measured.  The receiver reads its clock after the sender has read
its own and before the sender does so again; that holds of every round trip
(`Bracketed`), and so of the fastest one, which is the one that is reported.

* `Sound` — the invariant, `sound_step` — every step keeps it;
* `offsets_bracketed` — the lines of the log, once the session is over.
-/

namespace CloudProfiler.Tsc

/-! ## round trips -/

/-- The clock was read at time `t`. -/
structure ReadAt (clock : Slave → Nat → Int) (a : Slave) (t : Nat) (ts : Timespec) : Prop where
  ns : (nanos ts).toInt = clock a t
  nonneg : 0 ≤ ts.tsc.toInt64.toInt
  lt : ts.tsc.toInt64.toInt < 2 ^ 63 - 1

/-- The round trip of a message from `a` to `b`: `b` has read its clock between
the two times `a` has. -/
structure Bracketed (clock : Slave → Nat → Int) (a b : Slave) (x : RTT_data) : Prop where
  times : ∃ t₁ t₂ t₃, t₁ ≤ t₂ ∧ t₂ ≤ t₃ ∧ x.ns_stt.toInt = clock a t₁ ∧
    x.reply_ns.toInt = clock b t₂ ∧ x.ns_end.toInt = clock a t₃
  cyc : 0 ≤ x.ts_stt.toInt ∧ 0 ≤ x.ts_end.toInt ∧ x.ts_end.toInt < 2 ^ 63 - 1

/-- A result of the fastest of `nr_iter` such round trips. -/
def MeasuredBy (clock : Slave → Nat → Int) (nr_iter : Nat) (r : MeasureResult) : Prop :=
  ∃ RTTs : List RTT_data, RTTs.length = nr_iter ∧
    (∀ x ∈ RTTs, Bracketed clock r.from_slave r.to_slave x) ∧
    r = measureResult (sentResult (measureReq (pairOf r)) RTTs)

section RoundTrips

variable {clock : Slave → Nat → Int} {a b : Slave} {t : Nat} {now : Timespec}
  {RTTs : List RTT_data}

theorem Reads.readAt (h : Reads clock a t now) : ReadAt clock a t now := by
  have hcycles := h.cycles
  refine ⟨h.toInt_nanos, ?_, ?_⟩
  · rw [h.toInt_cycles]
    omega
  · rw [h.toInt_cycles]
    omega

/-- The sender reads its clock for the second time. -/
theorem bracketed_sampleOf {ts_stt : Timespec} {m : TSC_req_cyc} {t₁ t₂ : Nat}
    (h₁ : ReadAt clock a t₁ ts_stt) (h₂ : m.reply_ns.toInt = clock b t₂) (h : t₁ ≤ t₂)
    (ht : t₂ ≤ t) (hnow : Reads clock a t now) : Bracketed clock a b (sampleOf ts_stt now m) where
  times := ⟨t₁, t₂, t, h, ht, h₁.ns, h₂, hnow.readAt.ns⟩
  cyc := ⟨h₁.nonneg, hnow.readAt.nonneg, hnow.readAt.lt⟩

/-- A sender's result is told from a receiver's. -/
theorem from_cyc_sentResult {mm_req : MSG_measure_req}
    (h : ∀ x ∈ RTTs, Bracketed clock a b x) : (sentResult mm_req RTTs).from_cyc ≠ -1 := by
  have hsearch : ∀ s : Search, 0 ≤ s.from_cyc.toInt →
      0 ≤ (RTTs.foldl Search.step s).from_cyc.toInt := by
    induction RTTs with
    | nil => exact fun s hs => hs
    | cons x RTTs ih =>
        intro s hs
        refine ih (fun y hy => h y (List.mem_cons_of_mem x hy)) _ ?_
        unfold Search.step
        dsimp only
        split
        · exact (h x List.mem_cons_self).cyc.1
        · exact hs
  have hnonneg : 0 ≤ (search RTTs).from_cyc.toInt := hsearch _ (by decide)
  show (search RTTs).from_cyc.toInt ≠ -1
  omega

end RoundTrips

/-! ## slaves -/

/-- The command a slave works on. -/
def SlavePc.mm_req : SlavePc → Option MSG_measure_req
  | .command | .register | .registering => none
  | .start r _ | .send r _ _ | .recv r _ _ | .stop r _ _ _ | .listen r _ | .stamp r _ _
  | .answer r _ _ _ | .result r _ => some r

/-- The slave is the sender of the pair; so far it has made these round
trips. -/
structure Sends (clock : Slave → Nat → Int) (nr_iter : Nat) (a : Slave) (mm_req : MSG_measure_req)
    (RTTs : List RTT_data) : Prop where
  finished : mm_req.finished = 0
  role : a = mm_req.slave_from
  samples : ∀ x ∈ RTTs, Bracketed clock a mm_req.slave_to x
  le : RTTs.length ≤ nr_iter

/-- It is the receiver. -/
structure Receives (a : Slave) (mm_req : MSG_measure_req) : Prop where
  finished : mm_req.finished = 0
  role : a ≠ mm_req.slave_from

/-- What a slave reports. -/
def Reported (clock : Slave → Nat → Int) (nr_iter : Nat) (a : Slave) (mm_req : MSG_measure_req)
    (mm_res : MSG_measure_result) : Prop :=
  if mm_req.finished = 0 then
    if a = mm_req.slave_from then
      ∃ RTTs, Sends clock nr_iter a mm_req RTTs ∧ RTTs.length = nr_iter ∧
        mm_res = sentResult mm_req RTTs
    else mm_res = receiverResult mm_req
  else mm_res = { MSG_measure_result.zero with finished := 1 }

/-- What holds of a slave at each place. -/
def SlaveOk (clock : Slave → Nat → Int) (nr_iter t : Nat) (a : Slave) : SlavePc → Prop
  | .command | .register | .registering => True
  | .start mm_req RTTs => Sends clock nr_iter a mm_req RTTs
  | .send mm_req RTTs ts_stt => Sends clock nr_iter a mm_req RTTs ∧ RTTs.length < nr_iter ∧
      ∃ t₁ ≤ t, ReadAt clock a t₁ ts_stt
  | .recv mm_req RTTs _ => Sends clock nr_iter a mm_req RTTs ∧ RTTs.length < nr_iter
  | .stop mm_req RTTs ts_stt m => Sends clock nr_iter a mm_req RTTs ∧ RTTs.length < nr_iter ∧
      ∃ t₁ t₂, t₁ ≤ t₂ ∧ t₂ ≤ t ∧ ReadAt clock a t₁ ts_stt ∧
        m.reply_ns.toInt = clock mm_req.slave_to t₂
  | .listen mm_req _ | .stamp mm_req _ _ | .answer mm_req _ _ _ => Receives a mm_req
  | .result mm_req mm_res => Reported clock nr_iter a mm_req mm_res

section Slaves

variable {clock : Slave → Nat → Int} {nr_iter t t' : Nat} {a : Slave}

/-- Time passes. -/
theorem SlaveOk.mono {pc : SlavePc} (h : SlaveOk clock nr_iter t a pc) (ht : t ≤ t') :
    SlaveOk clock nr_iter t' a pc := by
  cases pc with
  | send mm_req RTTs ts_stt =>
      obtain ⟨hsends, hlt, t₁, hle, hread⟩ := h
      exact ⟨hsends, hlt, t₁, hle.trans ht, hread⟩
  | stop mm_req RTTs ts_stt m =>
      obtain ⟨hsends, hlt, t₁, t₂, h₁, h₂, h⟩ := h
      exact ⟨hsends, hlt, t₁, t₂, h₁, h₂.trans ht, h⟩
  | _ => exact h

/-- What a slave reports is a reply of the protocol. -/
theorem Reported.exists_replyTo {mm_req : MSG_measure_req} {mm_res : MSG_measure_result}
    (h : Reported clock nr_iter a mm_req mm_res) : ∃ m, replyTo a mm_req m = mm_res := by
  let m₀ : Measurement := ⟨0, 0, 0, 0, 0, 0, 0, 0, 0, by decide⟩
  unfold Reported at h
  split at h
  · next hfin =>
    split at h
    · next hfrom =>
      obtain ⟨RTTs, hsends, -, rfl⟩ := h
      have hcyc : (sentResult mm_req RTTs).from_cyc ≠ -1 := from_cyc_sentResult hsends.samples
      obtain ⟨m, hm⟩ := Tsc.exists_replyTo hcyc hfin
      exact ⟨m, by rw [hfrom, hm]⟩
    · next hfrom =>
      refine ⟨m₀, ?_⟩
      rw [h, replyTo, if_pos hfin, measure_tsc_rtt, if_neg (by simpa using hfrom)]
      rfl
  · next hfin => exact ⟨m₀, by rw [h, replyTo, if_neg hfin]⟩

end Slaves

/-! ## the message in transit -/

/-- Where the message of a sender is: on its way, with the receiver before and
after the reading of its clock, and on its way back. -/
inductive Stage
  | wire
  | stamp
  | answer (m : TSC_req_cyc)
  | back (m : TSC_req_cyc)

/-- The reading in the message. -/
def Stage.reading : Stage → Option TSC_req_cyc
  | .wire | .stamp => none
  | .answer m | .back m => some m

structure Transit where
  from_slave : Slave
  to_slave : Slave
  stage : Stage

def messagesOf : Option Transit → Ipv4 → List Slave
  | some ⟨a, b, .wire⟩, ip => if ip = b.ip then [a] else []
  | _, _ => []

def answersOf : Option Transit → Slave → List TSC_req_cyc
  | some ⟨a, _, .back m⟩, c => if c = a then [m] else []
  | _, _ => []

def servesOf : Option Transit → Slave → Option (Slave × Option TSC_req_cyc)
  | some ⟨a, b, .stamp⟩, c => if c = b then some (a, none) else none
  | some ⟨a, b, .answer m⟩, c => if c = b then some (a, some m) else none
  | _, _ => none

/-- The message a receiver has, with its answer once that is made. -/
def SlavePc.serves : SlavePc → Option (Slave × Option TSC_req_cyc)
  | .stamp _ _ identity => some (identity, none)
  | .answer _ _ identity m => some (identity, some m)
  | _ => none

/-- The sender waits for an answer. -/
def SlavePc.waits : SlavePc → Bool
  | .recv .. => true
  | _ => false

/-- The sender has read its clock before the message left it, and the receiver
after that. -/
def Timely (clock : Slave → Nat → Int) (s : Session) (x : Transit) : Prop :=
  ∃ mm_req RTTs ts_stt t₁, s.slaves x.from_slave = .recv mm_req RTTs ts_stt ∧
    x.to_slave = mm_req.slave_to ∧ t₁ ≤ s.time ∧ ReadAt clock x.from_slave t₁ ts_stt ∧
    ∀ m ∈ x.stage.reading, ∃ t₂, t₁ ≤ t₂ ∧ t₂ ≤ s.time ∧ m.reply_ns.toInt = clock x.to_slave t₂

/-- At most one message is in transit, and it is `v`. -/
structure Carries (clock : Slave → Nat → Int) (s : Session) (v : Option Transit) : Prop where
  messages : s.messages = messagesOf v
  answers : s.answers = answersOf v
  serves : ∀ c, (s.slaves c).serves = servesOf v c
  waits : ∀ c, (s.slaves c).waits = true ↔ ∃ x ∈ v, x.from_slave = c
  timely : ∀ x ∈ v, Timely clock s x

section Transits

variable {clock : Slave → Nat → Int} {s : Session} {v : Option Transit} {a b c : Slave}

theorem Timely.goto {x : Transit} {pc : SlavePc} (h : Timely clock s x) (hne : x.from_slave ≠ a) :
    Timely clock (s.goto a pc) x := by
  obtain ⟨mm_req, RTTs, ts_stt, t₁, hpc, h⟩ := h
  exact ⟨mm_req, RTTs, ts_stt, t₁, by simpa [Session.goto, hne] using hpc, h⟩

/-- A slave that has no message in transit goes on without one. -/
theorem Carries.goto {pc : SlavePc} (h : Carries clock s v) (hs : (s.slaves a).serves = none)
    (hw : (s.slaves a).waits = false) (hs' : pc.serves = none) (hw' : pc.waits = false) :
    Carries clock (s.goto a pc) v where
  messages := h.messages
  answers := h.answers
  serves c := by
    by_cases hc : c = a
    · subst hc
      rw [← h.serves c, hs]
      simp [Session.goto, hs']
    · simpa [Session.goto, hc] using h.serves c
  waits c := by
    by_cases hc : c = a
    · subst hc
      rw [← h.waits c, hw]
      simp [Session.goto, hw']
    · simpa [Session.goto, hc] using h.waits c
  timely x hx := by
    refine (h.timely x hx).goto fun hxa => ?_
    rw [(h.waits a).mpr ⟨x, hx, hxa⟩] at hw
    cases hw

/-- Neither the master nor the time moves a message. -/
theorem Carries.congr {s' : Session} (h : Carries clock s v) (hslaves : s'.slaves = s.slaves)
    (hmsg : s'.messages = s.messages) (hans : s'.answers = s.answers) (ht : s.time ≤ s'.time) :
    Carries clock s' v where
  messages := hmsg.trans h.messages
  answers := hans.trans h.answers
  serves c := by rw [hslaves, h.serves]
  waits c := by rw [hslaves, h.waits]
  timely x hx := by
    obtain ⟨mm_req, RTTs, ts_stt, t₁, hpc, hto, hle, hread, hm⟩ := h.timely x hx
    refine ⟨mm_req, RTTs, ts_stt, t₁, by rw [hslaves, hpc], hto, hle.trans ht, hread,
      fun m hmem => ?_⟩
    obtain ⟨t₂, h₁, h₂, hclock⟩ := hm m hmem
    exact ⟨t₂, h₁, h₂.trans ht, hclock⟩

/-- The message of a sender leaves it. -/
theorem Carries.send {mm_req : MSG_measure_req} {RTTs : List RTT_data} {ts_stt : Timespec}
    {t₁ : Nat} (h : Carries clock s none) (hpc : s.slaves a = .send mm_req RTTs ts_stt)
    (hle : t₁ ≤ s.time) (hread : ReadAt clock a t₁ ts_stt) :
    Carries clock { s.goto a (.recv mm_req RTTs ts_stt) with
      messages := Function.update s.messages mm_req.slave_to.ip
        (s.messages mm_req.slave_to.ip ++ [a]) } (some ⟨a, mm_req.slave_to, .wire⟩) where
  messages := by
    funext ip
    simp [h.messages, messagesOf, Function.update_apply]
  answers := h.answers
  serves c := by
    by_cases hc : c = a
    · subst hc
      simp [Session.goto, SlavePc.serves, servesOf]
    · simpa [Session.goto, hc, servesOf] using h.serves c
  waits c := by
    by_cases hc : c = a
    · subst hc
      simp [Session.goto, SlavePc.waits]
    · simpa [Session.goto, hc, Ne.symm hc] using h.waits c
  timely x hx := by
    obtain rfl := Option.some.inj hx
    exact ⟨mm_req, RTTs, ts_stt, t₁, by simp [Session.goto], rfl, hle, hread, nofun⟩

/-- The receiver goes on with the message. -/
theorem Carries.stage {pc : SlavePc} {st st' : Stage} {messages : Ipv4 → List Slave}
    {answers : Slave → List TSC_req_cyc} (h : Carries clock s (some ⟨a, b, st⟩))
    (hw : (s.slaves b).waits = false) (hw' : pc.waits = false)
    (hs' : pc.serves = servesOf (some ⟨a, b, st'⟩) b)
    (hmsg : messages = messagesOf (some ⟨a, b, st'⟩))
    (hans : answers = answersOf (some ⟨a, b, st'⟩))
    (hm : ∀ m ∈ st'.reading, m ∈ st.reading ∨ m.reply_ns.toInt = clock b s.time) :
    Carries clock { s.goto b pc with messages := messages, answers := answers }
      (some ⟨a, b, st'⟩) where
  messages := hmsg
  answers := hans
  serves c := by
    by_cases hc : c = b
    · subst hc
      simpa [Session.goto] using hs'
    · have hserves := h.serves c
      cases st <;> cases st' <;> simpa [Session.goto, hc, servesOf] using hserves
  waits c := by
    by_cases hc : c = b
    · subst hc
      have hwaits := h.waits c
      rw [hw] at hwaits
      simpa [Session.goto, hw'] using hwaits
    · simpa [Session.goto, hc] using h.waits c
  timely x hx := by
    obtain rfl := Option.some.inj hx
    obtain ⟨mm_req, RTTs, ts_stt, t₁, hpc, hto, hle, hread, hreading⟩ := h.timely _ rfl
    dsimp only at hpc hto hread
    have hne : a ≠ b := fun hab => by
      rw [← hab, hpc] at hw
      cases hw
    refine ⟨mm_req, RTTs, ts_stt, t₁, by simpa [Session.goto, hne] using hpc, hto, hle, hread,
      fun m hmem => ?_⟩
    obtain hold | hnow := hm m hmem
    · exact hreading m hold
    · exact ⟨s.time, hle, Nat.le_refl _, hnow⟩

/-- It takes the message. -/
theorem Carries.listen {mm_req : MSG_measure_req} {i : Nat}
    (h : Carries clock s (some ⟨a, b, .wire⟩)) (hpc : s.slaves b = .listen mm_req i) :
    Carries clock { s.goto b (.stamp mm_req i a) with
      messages := Function.update s.messages b.ip [] } (some ⟨a, b, .stamp⟩) := by
  refine h.stage (by rw [hpc]; rfl) rfl (by simp [SlavePc.serves, servesOf]) ?_ h.answers nofun
  funext ip
  by_cases hip : ip = b.ip <;> simp [h.messages, messagesOf, hip]

/-- It reads its clock. -/
theorem Carries.stamp {mm_req : MSG_measure_req} {i : Nat} {now : Timespec}
    (h : Carries clock s (some ⟨a, b, .stamp⟩)) (hpc : s.slaves b = .stamp mm_req i a)
    (hnow : Reads clock b s.time now) :
    Carries clock (s.goto b (.answer mm_req i a (answerOf now)))
      (some ⟨a, b, .answer (answerOf now)⟩) := by
  refine h.stage (by rw [hpc]; rfl) rfl (by simp [SlavePc.serves, servesOf]) h.messages h.answers
    fun m hm => ?_
  obtain rfl := Option.some.inj hm
  exact .inr hnow.toInt_nanos

/-- It answers. -/
theorem Carries.answer {mm_req : MSG_measure_req} {i : Nat} {m : TSC_req_cyc}
    (h : Carries clock s (some ⟨a, b, .answer m⟩)) (hpc : s.slaves b = .answer mm_req i a m) :
    Carries clock { s.goto b (.listen mm_req (i + 1)) with
      answers := Function.update s.answers a (s.answers a ++ [m]) } (some ⟨a, b, .back m⟩) := by
  refine h.stage (by rw [hpc]; rfl) rfl rfl h.messages ?_ fun m hm => .inl hm
  funext c
  simp [h.answers, answersOf, Function.update_apply]

/-- The answer is received. -/
theorem Carries.recv {mm_req : MSG_measure_req} {RTTs : List RTT_data} {ts_stt : Timespec}
    {m : TSC_req_cyc} (h : Carries clock s (some ⟨a, b, .back m⟩)) :
    Carries clock { s.goto a (.stop mm_req RTTs ts_stt m) with
      answers := Function.update s.answers a [] } none where
  messages := h.messages
  answers := by
    funext c
    by_cases hc : c = a <;> simp [h.answers, answersOf, hc]
  serves c := by
    by_cases hc : c = a
    · subst hc
      simp [Session.goto, SlavePc.serves, servesOf]
    · simpa [Session.goto, hc, servesOf] using h.serves c
  waits c := by
    by_cases hc : c = a
    · subst hc
      simp [Session.goto, SlavePc.waits]
    · simpa [Session.goto, hc, Ne.symm hc] using h.waits c
  timely := nofun

/-- A message at a host is the one in transit. -/
theorem Carries.of_messages {ip : Ipv4} {rest : List Slave} (h : Carries clock s v)
    (hmsg : s.messages ip = a :: rest) : ∃ b, v = some ⟨a, b, .wire⟩ ∧ rest = [] := by
  rw [h.messages] at hmsg
  match v with
  | some ⟨a', b, .wire⟩ =>
      simp only [messagesOf] at hmsg
      split at hmsg
      · obtain ⟨rfl, rfl⟩ := List.cons.inj hmsg
        exact ⟨b, rfl, rfl⟩
      · cases hmsg
  | none | some ⟨_, _, .stamp⟩ | some ⟨_, _, .answer _⟩ | some ⟨_, _, .back _⟩ => cases hmsg

/-- So is an answer. -/
theorem Carries.of_answers {m : TSC_req_cyc} {rest : List TSC_req_cyc} (h : Carries clock s v)
    (hans : s.answers a = m :: rest) : ∃ b, v = some ⟨a, b, .back m⟩ ∧ rest = [] := by
  rw [h.answers] at hans
  match v with
  | some ⟨a', b, .back m'⟩ =>
      simp only [answersOf] at hans
      split at hans
      · next ha =>
        obtain ⟨rfl, rfl⟩ := List.cons.inj hans
        exact ⟨b, by rw [ha], rfl⟩
      · cases hans
  | none | some ⟨_, _, .stamp⟩ | some ⟨_, _, .answer _⟩ | some ⟨_, _, .wire⟩ => cases hans

/-- So is the message a receiver has. -/
theorem Carries.of_serves {m : Option TSC_req_cyc} (h : Carries clock s v)
    (hserves : (s.slaves b).serves = some (a, m)) :
    v = some ⟨a, b, m.elim .stamp .answer⟩ := by
  rw [h.serves] at hserves
  match v with
  | some ⟨a', b', .stamp⟩ | some ⟨a', b', .answer m'⟩ =>
      simp only [servesOf] at hserves
      split at hserves
      · next hb =>
        cases hserves
        rw [hb]
        rfl
      · cases hserves
  | none | some ⟨_, _, .wire⟩ | some ⟨_, _, .back _⟩ => cases hserves

end Transits

/-! ## the invariant -/

/-- The pair that is measured. -/
def Pc.current : Pc → Option (Slave × Slave)
  | .send p _ _ | .poll p _ _ | .recv p _ _ _ _ => some p
  | _ => none

/-- The slaves of the pair that were not asked yet. -/
def Pc.targets : Pc → List Slave
  | .send _ targets _ => targets
  | _ => []

section Requests

variable {slaves : Slaves} {m : State} {a b : Slave} {req req' : MSG_measure_req}
  {res : MSG_measure_result} {p : Slave × Slave}

theorem Waiting.asked_eq {req₀ : MSG_measure_req} {out : List Slave} (h : Waiting req₀ out m.sock)
    (ha : m.sock a = .asked req) : req = req₀ := by
  obtain h | ⟨_, h⟩ := h.busy (h.mem_of_ne_idle (a := a) (by simp [ha]))
  · exact Sock.asked.inj (ha.symm.trans h)
  · cases ha.symm.trans h

/-- The requests that are out are one and the same. -/
theorem Inv.asked_eq (h : Inv slaves m) (ha : m.sock a = .asked req) (hb : m.sock b = .asked req') :
    req = req' := by
  obtain ⟨req₀, out, hw, -⟩ := h
  rw [hw.asked_eq ha, hw.asked_eq hb]

/-- While a pair is measured, they are for it. -/
theorem Inv.of_current (h : Inv slaves m) (hp : m.pc.current = some p)
    (ha : m.sock a = .asked req) : req = measureReq p ∧ (a = p.1 ∨ a = p.2) ∧ a ∉ m.pc.targets := by
  obtain ⟨req₀, out, hw, -, hphase⟩ := h
  have hmem : a ∈ out := hw.mem_of_ne_idle (by simp [ha])
  obtain rfl := hw.asked_eq ha
  cases hpc : m.pc with
  | send q targets left =>
      simp only [hpc, Phase] at hphase
      obtain rfl : q = p := by simpa [hpc, Pc.current] using hp
      obtain ⟨hreq, hout, ps, hps, -⟩ := hphase
      obtain ⟨-, -, hne⟩ := ne_of_mem_allPairs hps
      have hpair : a ∈ [q.1, q.2] := hout ▸ List.mem_append_left targets hmem
      have hnodup : (out ++ targets).Nodup := by simpa [hout] using hne
      exact ⟨hreq, by simpa using hpair,
        fun ht => (List.nodup_append.mp hnodup).2.2 a hmem a ht rfl⟩
  | poll q k left =>
      simp only [hpc, Phase] at hphase
      obtain rfl : q = p := by simpa [hpc, Pc.current] using hp
      obtain ⟨hreq, -, hout, -⟩ := hphase
      exact ⟨hreq, by simpa using hout.subset hmem, by simp [Pc.targets]⟩
  | recv q todo n k left =>
      simp only [hpc, Phase] at hphase
      obtain rfl : q = p := by simpa [hpc, Pc.current] using hp
      obtain ⟨hreq, -, -, hout, -⟩ := hphase
      exact ⟨hreq, by simpa using hout.subset hmem, by simp [Pc.targets]⟩
  | pair left | finish left | finishRecv c left | sort | done | exit =>
      simp [hpc, Pc.current] at hp

theorem Inv.current_ne (h : Inv slaves m) (hp : m.pc.current = some p) : p.1 ≠ p.2 := by
  obtain ⟨req₀, out, -, -, hphase⟩ := h
  cases hpc : m.pc with
  | send q targets left =>
      simp only [hpc, Phase] at hphase
      obtain rfl : q = p := by simpa [hpc, Pc.current] using hp
      obtain ⟨-, -, ps, hps, -⟩ := hphase
      exact (ne_of_mem_allPairs hps).2.2
  | poll q k left =>
      simp only [hpc, Phase] at hphase
      obtain rfl : q = p := by simpa [hpc, Pc.current] using hp
      obtain ⟨-, -, -, -, ps, hps, -⟩ := hphase
      exact (ne_of_mem_allPairs hps).2.2
  | recv q todo n k left =>
      simp only [hpc, Phase] at hphase
      obtain rfl : q = p := by simpa [hpc, Pc.current] using hp
      obtain ⟨-, -, -, -, -, ps, hps, -⟩ := hphase
      exact (ne_of_mem_allPairs hps).2.2
  | pair left | finish left | finishRecv c left | sort | done | exit =>
      simp [hpc, Pc.current] at hp

/-- A request that does not end the session is for a pair. -/
theorem Inv.exists_current (h : Inv slaves m) (ha : m.sock a = .asked req)
    (hfin : req.finished = 0) : ∃ p, m.pc.current = some p := by
  obtain ⟨req₀, out, hw, -, hphase⟩ := h
  have hmem : a ∈ out := hw.mem_of_ne_idle (by simp [ha])
  obtain rfl := hw.asked_eq ha
  cases hpc : m.pc with
  | send p | poll p | recv p => exact ⟨p, rfl⟩
  | finishRecv c left =>
      simp only [hpc, Phase] at hphase
      obtain ⟨rfl, -⟩ := hphase
      cases hfin
  | pair left | finish left | sort | done =>
      simp only [hpc, Phase] at hphase
      rw [hphase.1] at hmem
      cases hmem
  | exit => simp only [hpc, Phase] at hphase

/-- What is received for a pair does not end the session. -/
theorem Inv.recv_finished {todo : List Slave} {n : Nat} {k : Int}
    {left : List (Slave × Slave)} (h : Inv slaves m) (hpc : m.pc = .recv p (b :: todo) n k left)
    (hread : m.sock b = .readable res) : res.finished = 0 := by
  obtain ⟨req₀, out, hw, -, hphase⟩ := h
  obtain ⟨r, rfl⟩ := hw.res_eq hread
  simp only [hpc, Phase] at hphase
  obtain ⟨rfl, -⟩ := hphase
  rfl

end Requests

/-- The invariant of a session. -/
structure Sound (clock : Slave → Nat → Int) (nr_iter : Nat) (slaves : Slaves) (s : Session) :
    Prop where
  /-- The master is in a state of the protocol. -/
  master : Reach (Tsc.step slaves) (Tsc.init slaves) anyStep s.master
  /-- A slave works on the request that is out. -/
  asked : ∀ a req, (s.slaves a).mm_req = some req → s.master.sock a = .asked req
  slaves : ∀ a, SlaveOk clock nr_iter s.time a (s.slaves a)
  transit : ∃ v, Carries clock s v
  readable : ∀ a res, s.master.sock a = .readable res → res.finished = 0 → res.from_cyc ≠ -1 →
    MeasuredBy clock nr_iter (measureResult res)
  results : ∀ r ∈ s.master.measResultList, MeasuredBy clock nr_iter r

section Invariant

variable {clock : Slave → Nat → Int} {nr_iter : Nat} {slaves : Slaves} {s s' : Session}
  {a b c : Slave} {now : Timespec} {e : Event}

theorem sound_init : Sound clock nr_iter slaves (Session.init slaves) where
  master := .init
  asked _ _ h := by cases h
  slaves _ := trivial
  transit := ⟨none, ⟨rfl, rfl, fun _ => rfl, fun _ => by simp [Session.init, SlavePc.waits],
    nofun⟩⟩
  readable _ _ h := by cases h
  results _ h := by cases h

/-- A slave goes on with its request. -/
theorem Sound.goto {pc : SlavePc} {messages : Ipv4 → List Slave}
    {answers : Slave → List TSC_req_cyc} (h : Sound clock nr_iter slaves s)
    (hreq : ∀ req, pc.mm_req = some req → s.master.sock a = .asked req)
    (hok : SlaveOk clock nr_iter s.time a pc)
    (hv : ∃ v, Carries clock { s.goto a pc with messages := messages, answers := answers } v) :
    Sound clock nr_iter slaves { s.goto a pc with messages := messages, answers := answers } where
  master := h.master
  asked c req hc := by
    by_cases hca : c = a
    · subst hca
      exact hreq req (by simpa [Session.goto] using hc)
    · exact h.asked c req (by simpa [Session.goto, hca] using hc)
  slaves c := by
    by_cases hca : c = a
    · subst hca
      simpa [Session.goto] using hok
    · simpa [Session.goto, hca] using h.slaves c
  transit := hv
  readable := h.readable
  results := h.results

/-- Two senders would be one. -/
theorem Sound.sender_unique {mm_req mm_req' : MSG_measure_req} (h : Sound clock nr_iter slaves s)
    (ha : (s.slaves a).mm_req = some mm_req) (hb : (s.slaves b).mm_req = some mm_req') :
    mm_req = mm_req' :=
  (reach_inv h.master).asked_eq (h.asked a mm_req ha) (h.asked b mm_req' hb)

/-- While a message is in transit, its sender waits. -/
theorem Sound.transit_none {mm_req : MSG_measure_req} {RTTs : List RTT_data} {ts_stt : Timespec}
    {v : Option Transit} (h : Sound clock nr_iter slaves s) (hv : Carries clock s v)
    (hpc : s.slaves a = .send mm_req RTTs ts_stt) : v = none := by
  cases v with
  | none => rfl
  | some x =>
      obtain ⟨mm_req', RTTs', ts_stt', t₁, hpc', -⟩ := hv.timely x rfl
      have hreq : mm_req = mm_req' :=
        h.sender_unique (by rw [hpc]; rfl) (by rw [hpc']; rfl)
      have ha : a = mm_req.slave_from := by
        have := h.slaves a
        rw [hpc] at this
        exact this.1.role
      have hx : x.from_slave = mm_req'.slave_from := by
        have := h.slaves x.from_slave
        rw [hpc'] at this
        exact this.1.role
      rw [ha, hreq, ← hx, hpc'] at hpc
      cases hpc

/-- The message at the host of a receiver is for the receiver. -/
theorem Sound.to_slave_eq {mm_req : MSG_measure_req} {i : Nat} {x : Transit}
    (h : Sound clock nr_iter slaves s) (hv : Carries clock s (some x))
    (hpc : s.slaves c = .listen mm_req i) : x.to_slave = c := by
  obtain ⟨mm_req', RTTs', ts_stt', t₁, hpc', hto, -⟩ := hv.timely x rfl
  have hreq : mm_req = mm_req' := h.sender_unique (by rw [hpc]; rfl) (by rw [hpc']; rfl)
  have hc := h.slaves c
  rw [hpc] at hc
  have hask := h.asked c mm_req (by rw [hpc]; rfl)
  obtain ⟨p, hp⟩ := (reach_inv h.master).exists_current hask hc.finished
  obtain ⟨rfl, rfl | rfl, -⟩ := (reach_inv h.master).of_current hp hask
  · exact absurd rfl hc.role
  · rw [hto, ← hreq]
    rfl

/-- What a sender reports was measured. -/
theorem Sound.measuredBy {mm_req : MSG_measure_req} {mm_res : MSG_measure_result}
    (h : Sound clock nr_iter slaves s) (hpc : s.slaves a = .result mm_req mm_res)
    (hfin : mm_res.finished = 0) (hcyc : mm_res.from_cyc ≠ -1) :
    MeasuredBy clock nr_iter (measureResult mm_res) := by
  have hrep := h.slaves a
  rw [hpc] at hrep
  have hrep : Reported clock nr_iter a mm_req mm_res := hrep
  unfold Reported at hrep
  split at hrep
  · next hreq =>
    have hask := h.asked a mm_req (by rw [hpc]; rfl)
    obtain ⟨p, hp⟩ := (reach_inv h.master).exists_current hask hreq
    obtain ⟨rfl, -⟩ := (reach_inv h.master).of_current hp hask
    split at hrep
    · obtain ⟨RTTs, hsends, hlen, rfl⟩ := hrep
      refine ⟨RTTs, hlen, fun x hx => ?_, rfl⟩
      have hx := hsends.samples x hx
      rwa [hsends.role] at hx
    · rw [hrep] at hcyc
      exact absurd rfl hcyc
  · rw [hrep] at hfin
    cases hfin

/-- To the master a report is a reply. -/
theorem Sound.exists_reply {mm_req : MSG_measure_req} {mm_res : MSG_measure_result}
    (h : Sound clock nr_iter slaves s) (hpc : s.slaves a = .result mm_req mm_res) :
    ∃ m, Tsc.step slaves s.master (.reply a m) = some { s.master with
      sock := Function.update s.master.sock a (.readable mm_res) } := by
  have hsock := h.asked a mm_req (by rw [hpc]; rfl)
  have hrep := h.slaves a
  rw [hpc] at hrep
  obtain ⟨m, rfl⟩ := Reported.exists_replyTo hrep
  exact ⟨m, by simp only [Tsc.step, hsock]⟩

/-- A slave reports, and has no request to work on. -/
theorem Sound.result {mm_req : MSG_measure_req} {mm_res : MSG_measure_result} {pc : SlavePc}
    (h : Sound clock nr_iter slaves s) (hpc : s.slaves a = .result mm_req mm_res)
    (hnext : pc = .command ∨ pc = .register) :
    Sound clock nr_iter slaves { s.goto a pc with
      master := { s.master with
        sock := Function.update s.master.sock a (.readable mm_res) } } where
  master := by
    obtain ⟨m, hm⟩ := h.exists_reply hpc
    exact .step h.master trivial hm
  asked c req hc := by
    by_cases hca : c = a
    · subst hca
      obtain rfl | rfl := hnext <;> simp [Session.goto, SlavePc.mm_req] at hc
    · simpa [hca] using h.asked c req (by simpa [Session.goto, hca] using hc)
  slaves c := by
    by_cases hca : c = a
    · subst hca
      obtain rfl | rfl := hnext <;> simp [Session.goto, SlaveOk]
    · simpa [Session.goto, hca] using h.slaves c
  transit := by
    obtain ⟨v, hv⟩ := h.transit
    have hgoto : Carries clock (s.goto a pc) v := by
      obtain rfl | rfl := hnext <;> exact hv.goto (by rw [hpc]; rfl) (by rw [hpc]; rfl) rfl rfl
    exact ⟨v, hgoto.congr rfl rfl rfl (Nat.le_refl _)⟩
  readable c res hc hfin hcyc := by
    by_cases hca : c = a
    · subst hca
      obtain rfl : mm_res = res := by simpa using hc
      exact h.measuredBy hpc hfin hcyc
    · exact h.readable c res (by simpa [hca] using hc) hfin hcyc
  results := h.results

/-- A step of the master keeps the invariant. -/
theorem sound_masterMove {l : Label} {m : State} (h : Sound clock nr_iter slaves s)
    (hm : Tsc.step slaves s.master l = some m) (hmove : MasterMove s.master m) :
    Sound clock nr_iter slaves { s with master := m } where
  master := .step h.master trivial hm
  asked c req hc := hmove.asked (h.asked c req hc)
  slaves := h.slaves
  transit := by
    obtain ⟨v, hv⟩ := h.transit
    exact ⟨v, hv.congr rfl rfl rfl (Nat.le_refl _)⟩
  readable c res hc := by
    have hold : s.master.sock c = .readable res := by
      cases hmove with
      | quiet hs _ => rwa [hs] at hc
      | ask b req _ hs _ | collect b _ _ _ hs _ | take b _ _ hs _ =>
          rw [hs, Function.update_apply] at hc
          split at hc
          · cases hc
          · exact hc
    exact h.readable c res hold
  results r hr := by
    cases hmove with
    | quiet _ hres | ask _ _ _ _ hres | take _ _ _ _ hres =>
        rw [hres] at hr
        exact h.results r hr
    | collect b res hpc hread _ hres =>
        have hfin := (reach_inv h.master).recv_finished hpc hread
        rw [hres, Tsc.collect] at hr
        split at hr
        · next hcyc =>
          obtain hr | hr := List.mem_append.mp hr
          · exact h.results r hr
          · rw [List.mem_singleton.mp hr]
            exact h.readable b res hread hfin hcyc
        · exact h.results r hr

/-- So does a step of a slave. -/
theorem sound_slaveStep (h : Sound clock nr_iter slaves s) (hmove : SlaveMove nr_iter s a now s')
    (hnow : Reads clock a s.time now) : Sound clock nr_iter slaves s' := by
  obtain ⟨v, hv⟩ := h.transit
  have hask := h.asked a
  have hok := h.slaves a
  cases hmove with
  | finish hpc hsock hfin =>
      refine h.goto (by rintro _ ⟨⟩; exact hsock) ?_ ⟨v, hv.goto ?_ ?_ rfl rfl⟩
      · simp [SlaveOk, Reported, hfin]
      · rw [hpc]; rfl
      · rw [hpc]; rfl
  | begin hpc hsock hfin hfrom =>
      refine h.goto (by rintro _ ⟨⟩; exact hsock) ⟨hfin, hfrom, nofun, Nat.zero_le _⟩
        ⟨v, hv.goto ?_ ?_ rfl rfl⟩
      · rw [hpc]; rfl
      · rw [hpc]; rfl
  | serve hpc hsock hfin hfrom =>
      refine h.goto (by rintro _ ⟨⟩; exact hsock) ⟨hfin, hfrom⟩ ⟨v, hv.goto ?_ ?_ rfl rfl⟩
      · rw [hpc]; rfl
      · rw [hpc]; rfl
  | start hpc hlt =>
      rw [hpc] at hask hok
      refine h.goto hask ⟨hok, hlt, s.time, Nat.le_refl _, hnow.readAt⟩ ⟨v, hv.goto ?_ ?_ rfl rfl⟩
      · rw [hpc]; rfl
      · rw [hpc]; rfl
  | sent hpc hlt =>
      rw [hpc] at hask hok
      refine h.goto hask ?_ ⟨v, hv.goto ?_ ?_ rfl rfl⟩
      · have hlen := hok.le
        simp only [SlaveOk, Reported, if_pos hok.finished, if_pos hok.role]
        exact ⟨_, hok, by omega, rfl⟩
      · rw [hpc]; rfl
      · rw [hpc]; rfl
  | send hpc =>
      obtain rfl := h.transit_none hv hpc
      rw [hpc] at hask hok
      obtain ⟨hsends, hlt, t₁, hle, hread⟩ := hok
      exact h.goto hask ⟨hsends, hlt⟩ ⟨_, hv.send hpc hle hread⟩
  | recv hpc hans =>
      obtain ⟨b, rfl, rfl⟩ := hv.of_answers hans
      rw [hpc] at hask hok
      obtain ⟨hsends, hlt⟩ := hok
      obtain ⟨_, _, _, t₁, hpc', hto, -, hread, hm⟩ := hv.timely _ rfl
      rw [hpc] at hpc'
      cases hpc'
      obtain ⟨t₂, h₁, h₂, hclock⟩ := hm _ rfl
      exact h.goto hask ⟨hsends, hlt, t₁, t₂, h₁, h₂, hread, hto ▸ hclock⟩ ⟨_, hv.recv⟩
  | stop hpc =>
      rw [hpc] at hask hok
      obtain ⟨hsends, hlt, t₁, t₂, h₁, h₂, hread, hclock⟩ := hok
      refine h.goto hask ⟨hsends.finished, hsends.role, fun x hx => ?_, ?_⟩
        ⟨v, hv.goto ?_ ?_ rfl rfl⟩
      · obtain hx | hx := List.mem_append.mp hx
        · exact hsends.samples x hx
        · rw [List.mem_singleton.mp hx]
          exact bracketed_sampleOf hread hclock h₁ h₂ hnow
      · rw [List.length_append, List.length_singleton]
        exact hlt
      · rw [hpc]; rfl
      · rw [hpc]; rfl
  | listen hpc hlt hmsg =>
      obtain ⟨b, rfl, rfl⟩ := hv.of_messages hmsg
      obtain rfl := h.to_slave_eq hv hpc
      rw [hpc] at hask hok
      exact h.goto hask hok ⟨_, hv.listen hpc⟩
  | served hpc hlt =>
      rw [hpc] at hask hok
      refine h.goto hask ?_ ⟨v, hv.goto ?_ ?_ rfl rfl⟩
      · simp [SlaveOk, Reported, hok.finished, hok.role]
      · rw [hpc]; rfl
      · rw [hpc]; rfl
  | stamp hpc =>
      obtain rfl := hv.of_serves (b := a) (by rw [hpc]; rfl)
      rw [hpc] at hask hok
      exact h.goto hask hok ⟨_, hv.stamp hpc hnow⟩
  | answer hpc =>
      obtain rfl := hv.of_serves (b := a) (by rw [hpc]; rfl)
      rw [hpc] at hask hok
      exact h.goto hask hok ⟨_, hv.answer hpc⟩
  | result hpc =>
      refine h.result hpc ?_
      split
      · exact .inl rfl
      · exact .inr rfl
  | register hpc =>
      have hgoto : Carries clock (s.goto a .registering) v :=
        hv.goto (by rw [hpc]; rfl) (by rw [hpc]; rfl) rfl rfl
      have hsound : Sound clock nr_iter slaves (s.goto a .registering) :=
        h.goto nofun trivial ⟨v, hgoto⟩
      exact { hsound with transit := ⟨v, hgoto.congr rfl rfl rfl (Nat.le_refl _)⟩ }

/-- Every step of a session does. -/
theorem sound_step (h : Sound clock nr_iter slaves s) (hclocked : Clocked clock s e)
    (hs : s.step slaves nr_iter e = some s') : Sound clock nr_iter slaves s' := by
  cases step_move hs with
  | tick =>
      obtain ⟨v, hv⟩ := h.transit
      exact { h with
        slaves := fun a => (h.slaves a).mono (Nat.le_succ _)
        transit := ⟨v, hv.congr rfl rfl rfl (Nat.le_succ _)⟩ }
  | slave hmove => exact sound_slaveStep h hmove hclocked
  | master _ hm hmove => exact sound_masterMove h hm hmove

theorem reach_sound
    (hr : Reach (Session.step slaves nr_iter) (Session.init slaves) (Clocked clock) s) :
    Sound clock nr_iter slaves s :=
  hr.invariant sound_init fun _ _ _ h hok hs => sound_step h hok hs

end Invariant

/-! ## the lines of the log -/

/-- What a result says. -/
structure Measures (clock : Slave → Nat → Int) (nr_iter : Nat) (r : MeasureResult) : Prop where
  /-- It is of the first round trip with the fewest cycles. -/
  fastest : ∃ RTTs i x res, RTTs.length = nr_iter ∧
    (∀ y ∈ RTTs, Bracketed clock r.from_slave r.to_slave y) ∧
    Least.FirstLeast RTT_data.cycles RTTs i x ∧ IsSample res x ∧ r = measureResult res
  /-- The receiver's reading was taken between the sender's. -/
  between : ∃ t₁ t₂ t₃, t₁ ≤ t₂ ∧ t₂ ≤ t₃ ∧ r.from_ns = clock r.from_slave t₁ ∧
    r.to_ns = clock r.to_slave t₂ ∧ r.end_ns = clock r.from_slave t₃
  rtt_ns : r.rtt_ns = r.end_ns - r.from_ns

section Lines

variable {clock : Slave → Nat → Int} {nr_iter : Nat} {slaves : Slaves} {s : Session}
  {r : MeasureResult}

/-- No round trip takes as long as the search starts with. -/
theorem Bracketed.lt_maxValue {a b : Slave} {x : RTT_data} (h : Bracketed clock a b x) :
    x.ts_end - x.ts_stt < Int64.maxValue := by
  obtain ⟨hstt, hend, hlt⟩ := h.cyc
  have hstt_lt := x.ts_stt.toInt_lt
  have hsub : (x.ts_end - x.ts_stt).toInt = x.ts_end.toInt - x.ts_stt.toInt := by
    rw [Int64.toInt_sub]
    exact Int.bmod_eq_of_le (by omega) (by omega)
  have hmax : Int64.maxValue.toInt = 2 ^ 63 - 1 := by decide
  rw [Int64.lt_iff_toInt_lt, hsub, hmax]
  omega

theorem MeasuredBy.measures (hn : 1 ≤ nr_iter) (h : MeasuredBy clock nr_iter r) :
    Measures clock nr_iter r := by
  obtain ⟨RTTs, hlen, hall, hr⟩ := h
  have hne : RTTs ≠ [] := List.ne_nil_of_length_pos (by omega)
  obtain ⟨i, x, hx, hsearch⟩ := search_eq hne fun y hy => (hall y hy).lt_maxValue
  have hsample : IsSample (sentResult (measureReq (pairOf r)) RTTs) x := by
    rw [sentResult, hsearch]
    exact ⟨rfl, rfl, rfl, rfl, rfl, rfl, rfl, rfl, rfl⟩
  refine ⟨⟨RTTs, i, x, _, hlen, hall, hx, hsample, hr⟩, ?_, ?_⟩
  · obtain ⟨t₁, t₂, t₃, h₁₂, h₂₃, hstt, hreply, hend⟩ :=
      (hall x (List.mem_of_getElem? hx.get)).times
    refine ⟨t₁, t₂, t₃, h₁₂, h₂₃, ?_, ?_, ?_⟩
    · rw [← hstt, ← hsample.from_ns]
      exact congrArg MeasureResult.from_ns hr
    · rw [← hreply, ← hsample.to_ns]
      exact congrArg MeasureResult.to_ns hr
    · rw [← hend, ← hsample.end_ns]
      exact congrArg MeasureResult.end_ns hr
  · rw [hr]
    rfl

/-- Clocks that run at the same rate `T` are apart by what lies between two
differences of readings. -/
theorem Measures.offset {T : Nat → Int} {θ : Slave → Int} (h : Measures clock nr_iter r)
    (hT : ∀ t t', t ≤ t' → T t ≤ T t') (hclock : ∀ a t, clock a t = T t + θ a) :
    r.to_ns - r.end_ns ≤ θ r.to_slave - θ r.from_slave ∧
      θ r.to_slave - θ r.from_slave ≤ r.to_ns - r.from_ns := by
  obtain ⟨t₁, t₂, t₃, h₁₂, h₂₃, hfrom, hto, hend⟩ := h.between
  have hle₁ := hT t₁ t₂ h₁₂
  have hle₂ := hT t₂ t₃ h₂₃
  rw [hfrom, hto, hend, hclock, hclock, hclock]
  omega

/-- **What a session logs.**  Whatever the order of the steps, once
`request_measurement` returns there is one line for each ordered pair of
slaves, of the round trip with the fewest cycles; the receiver's reading in it
was taken between the sender's two.  So it tells how far the two clocks are
apart, up to the time of the round trip. -/
theorem offsets_bracketed (hn : 1 ≤ nr_iter)
    (hr : Reach (Session.step slaves nr_iter) (Session.init slaves) (Clocked clock) s)
    (hdone : s.master.pc = .done) :
    ∃ rs : List MeasureResult, s.master.log = rs.map logLine ∧
      rs.Pairwise (·.rtt_ns ≤ ·.rtt_ns) ∧ (rs.map pairOf).Perm slaves.allPairs ∧
      ∀ r ∈ rs, Measures clock nr_iter r ∧
        ∀ (T : Nat → Int) (θ : Slave → Int), (∀ t t', t ≤ t' → T t ≤ T t') →
          (∀ a t, clock a t = T t + θ a) →
          r.to_ns - r.end_ns ≤ θ r.to_slave - θ r.from_slave ∧
          θ r.to_slave - θ r.from_slave ≤ r.to_ns - r.from_ns := by
  have hsound := reach_sound hr
  obtain ⟨rs, ⟨hperm, hsorted⟩, hlog⟩ := reach_logSorted hsound.master hdone
  obtain ⟨req, out, -, -, hphase⟩ := reach_inv hsound.master
  rw [hdone] at hphase
  obtain ⟨-, -, hpairs, -⟩ := hphase
  refine ⟨rs, hlog, hsorted, hpairs ▸ hperm.map pairOf, fun r hmem => ?_⟩
  have hmeasures := (hsound.results r (hperm.mem_iff.mp hmem)).measures hn
  exact ⟨hmeasures, fun T θ => hmeasures.offset⟩

end Lines

/-! ## a session of two slaves -/

def hostA : Slave := ⟨.local, tsc_command_default_port⟩

theorem dotted_of_all {cs : List Char} (h : (cs.all fun c => c == '.' || c.isDigit) = true) :
    ∀ c ∈ cs, c = '.' ∨ c.isDigit = true := by
  simpa using h

def hostB : Slave :=
  ⟨⟨"10.0.0.2".toList, dotted_of_all rfl, Nat.le_of_ble_eq_true rfl⟩, tsc_command_default_port⟩

/-- The clock of the second one is 500 ns ahead. -/
def ahead (a : Slave) (t : Nat) : Int := 10 * t + if a = hostB then 500 else 0

/-- A step of a slave at time `t`. -/
def slaveAt (a : Slave) (t : Nat) : Event :=
  .slave a ⟨0, .ofInt (ahead a t), .ofNat (3 * t), 1, 0⟩

/-- The pair is measured, from `t` to `t + 2`. -/
def pairRun (a b : Slave) (t : Nat) : List Event :=
  [.master, .master, .master, .master] ++
    [slaveAt a t, slaveAt b t, slaveAt a t, slaveAt a t, .tick] ++
    [slaveAt b (t + 1), slaveAt b (t + 1), slaveAt b (t + 1), .tick] ++
    [slaveAt a (t + 2), slaveAt a (t + 2), slaveAt a (t + 2), slaveAt a (t + 2)] ++
    [slaveAt b (t + 2), slaveAt b (t + 2), .poll [a, b], .master, .master, .master]

/-- What is measured. -/
def measuredAt (a b : Slave) (t : Nat) : MeasureResult where
  from_slave := a
  to_slave := b
  rtt_ns := 20
  from_cyc := 3 * t
  from_ns := ahead a t
  to_cyc := 3 * (t + 1)
  to_ns := ahead b (t + 1)
  end_cyc := 3 * (t + 2)
  end_ns := ahead a (t + 2)
  from_aux := 1
  to_aux := 1
  end_aux := 1

def sessionRun : List Event :=
  pairRun hostA hostB 0 ++ pairRun hostB hostA 2 ++ [.master] ++
    [.master, slaveAt hostA 4, slaveAt hostA 4, .master] ++
    [.master, slaveAt hostB 4, slaveAt hostB 4, .master] ++
    [.master, .sort [measuredAt hostA hostB 0, measuredAt hostB hostA 2]]

theorem offsets_bracketed_two : ∃ s : Session, s.master.pc = .done ∧
    ∃ rs : List MeasureResult, s.master.log = rs.map logLine ∧
      rs.Pairwise (·.rtt_ns ≤ ·.rtt_ns) ∧
      (rs.map pairOf).Perm (Slaves.registered [hostA.ip, hostB.ip]).allPairs ∧
      ∀ r ∈ rs, Measures ahead 1 r ∧
        ∀ (T : Nat → Int) (θ : Slave → Int), (∀ t t', t ≤ t' → T t ≤ T t') →
          (∀ a t, ahead a t = T t + θ a) →
          r.to_ns - r.end_ns ≤ θ r.to_slave - θ r.from_slave ∧
          θ r.to_slave - θ r.from_slave ≤ r.to_ns - r.from_ns := by
  obtain ⟨s, hr, hdone⟩ : ∃ s, Reach (Session.step (.registered [hostA.ip, hostB.ip]) 1)
      (Session.init (.registered [hostA.ip, hostB.ip])) (Clocked ahead) s ∧
      decide (s.master.pc = .done) = true :=
    Reach.of_exec_any sessionRun _ (by decide +kernel)
  have hdone : s.master.pc = .done := of_decide_eq_true hdone
  exact ⟨s, hdone, offsets_bracketed (by decide) hr hdone⟩

end CloudProfiler.Tsc
