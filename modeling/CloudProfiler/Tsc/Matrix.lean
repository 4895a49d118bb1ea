import CloudProfiler.Tsc.Master

/-!
# CloudProfiler.Tsc.Matrix

The matrix of round-trip times that `request_measurement` collects.

While a pair is measured, the sockets with a request out are among those of
its two slaves (`Waiting`); `Phase` says for every place of the master which
they are, what was asked so far and which pairs have their result.  A pair has
its result as soon as its first slave was received from.

* `Phase`, `reach_inv` — the invariant;
* `request_measurement_matrix` — every run asks for every pair once, never
  asks a slave twice before its reply, comes to its end and then has written
  one line per ordered pair, sorted by time.
-/

namespace CloudProfiler.Tsc

variable {slaves : Slaves} {s s' : State} {l : Label} {a : Slave} {p : Slave × Slave}

/-! ## the pairs -/

namespace Slaves

theorem mem_allPairs : p ∈ slaves.allPairs ↔ p.1 ∈ slaves.list ∧ p.2 ∈ slaves.list ∧ p.1 ≠ p.2 := by
  obtain ⟨a, b⟩ := p
  have haddr : a.address ≠ b.address ↔ a ≠ b :=
    not_congr ⟨address_injective, congrArg Slave.address⟩
  simp only [allPairs, List.mem_flatMap, List.mem_map, List.mem_filter, decide_eq_true_eq,
    Prod.mk.injEq]
  constructor
  · rintro ⟨_, ha, _, ⟨hb, hne⟩, rfl, rfl⟩
    exact ⟨ha, hb, haddr.mp hne⟩
  · rintro ⟨ha, hb, hne⟩
    exact ⟨a, ha, b, ⟨hb, haddr.mpr hne⟩, rfl, rfl⟩

theorem nodup_allPairs : slaves.allPairs.Nodup := by
  refine List.nodup_flatMap.mpr ⟨fun a _ => ?_, slaves.nodup_list.imp fun hab p hp hp' => ?_⟩
  · exact (slaves.nodup_list.filter _).map fun b c h => by simpa using h
  · obtain ⟨_, -, rfl⟩ := List.mem_map.mp hp
    obtain ⟨_, -, h⟩ := List.mem_map.mp hp'
    exact hab (Prod.mk.inj h).1.symm

/-- There are `n (n - 1)` ordered pairs. -/
theorem length_allPairs :
    slaves.allPairs.length = slaves.list.length * (slaves.list.length - 1) := by
  have hrow (a : Slave) (ha : a ∈ slaves.list) :
      ((slaves.list.filter (a.address ≠ ·.address)).map fun b => (a, b)).length =
        slaves.list.length - 1 := by
    have hfilter : slaves.list.filter (a.address ≠ ·.address) = slaves.list.erase a := by
      rw [slaves.nodup_list.erase_eq_filter]
      refine List.filter_congr fun b _ => ?_
      have : a.address = b.address ↔ b = a :=
        ⟨fun h => (address_injective h).symm, fun h => h ▸ rfl⟩
      by_cases h : b = a <;> simp [this, h]
    rw [List.length_map, hfilter, List.length_erase_of_mem ha]
  rw [allPairs, List.length_flatMap, List.map_congr_left hrow, List.map_const',
    List.sum_replicate_nat]

end Slaves

/-! ## the invariant -/

/-- The pair a result is about. -/
def pairOf (r : MeasureResult) : Slave × Slave := (r.from_slave, r.to_slave)

/-- The requests sent for some pairs: one to each slave of a pair. -/
def asks (ps : List (Slave × Slave)) : List (Slave × MSG_measure_req) :=
  ps.flatMap fun p => [(p.1, measureReq p), (p.2, measureReq p)]

/-- The sockets of `out` have sent `req` and not received its reply; the
others have nothing to receive. -/
def Waiting (req : MSG_measure_req) (out : List Slave) (sock : Slave → Sock) : Prop :=
  ∀ a, if a ∈ out then sock a = .asked req ∨ ∃ m, sock a = .readable (replyTo a req m)
    else sock a = .idle

/-- The results are those of `ps`, one for each pair, in order. -/
def Measured (ps : List (Slave × Slave)) (rs : List MeasureResult) : Prop :=
  rs.map pairOf = ps ∧ ∀ r ∈ rs, r.rtt_ns = r.end_ns - r.from_ns

/-- The pair has its result once its first slave was received from. -/
def collected (p : Slave × Slave) (out : List Slave) : List (Slave × Slave) :=
  if p.1 ∈ out then [] else [p]

/-- What holds where the master is, when the sockets of `out` wait for replies
to `req`. -/
def Phase (slaves : Slaves) (pc : Pc) (requests : List (Slave × MSG_measure_req))
    (rs : List MeasureResult) (req : MSG_measure_req) (out : List Slave) : Prop :=
  match pc with
  | .pair left => out = [] ∧
      ∃ ps, ps ++ left = slaves.allPairs ∧ requests = asks ps ∧ Measured ps rs
  | .send p targets left => req = measureReq p ∧ out ++ targets = [p.1, p.2] ∧
      ∃ ps, ps ++ p :: left = slaves.allPairs ∧ requests = asks ps ++ out.map (·, measureReq p) ∧
        Measured ps rs
  | .poll p k left => req = measureReq p ∧ out ≠ [] ∧ out.Sublist [p.1, p.2] ∧ k = out.length ∧
      ∃ ps, ps ++ p :: left = slaves.allPairs ∧ requests = asks (ps ++ [p]) ∧
        Measured (ps ++ collected p out) rs
  | .recv p todo n k left => req = measureReq p ∧ todo.Nodup ∧ todo ⊆ out ∧
      out.Sublist [p.1, p.2] ∧ k + todo.length = out.length + n ∧
      ∃ ps, ps ++ p :: left = slaves.allPairs ∧ requests = asks (ps ++ [p]) ∧
        Measured (ps ++ collected p out) rs
  | .finish left => out = [] ∧
      ∃ ended, ended ++ left = slaves.list ∧
        requests = asks slaves.allPairs ++ ended.map (·, finishReq) ∧ Measured slaves.allPairs rs
  | .finishRecv a left => req = finishReq ∧ out = [a] ∧
      ∃ ended, ended ++ a :: left = slaves.list ∧
        requests = asks slaves.allPairs ++ (ended ++ [a]).map (·, finishReq) ∧
        Measured slaves.allPairs rs
  | .sort | .done => out = [] ∧
      requests = asks slaves.allPairs ++ slaves.list.map (·, finishReq) ∧
        Measured slaves.allPairs rs
  | .exit => False

/-- The sockets still to be received from after a poll. -/
def Pc.todo : Pc → List Slave
  | .recv _ todo _ _ _ => todo
  | _ => []

/-- The invariant of the protocol. -/
def Inv (slaves : Slaves) (s : State) : Prop :=
  ∃ req out, Waiting req out s.sock ∧ (∀ a ∈ s.pc.todo, s.canRead a) ∧
    Phase slaves s.pc s.requests s.measResultList req out

section Sockets

variable {req req' : MSG_measure_req} {out : List Slave} {sock : Slave → Sock}
  {res : MSG_measure_result} {m : Measurement}

theorem Waiting.idle (h : Waiting req out sock) (ha : a ∉ out) : sock a = .idle := by
  simpa [ha] using h a

theorem Waiting.busy (h : Waiting req out sock) (ha : a ∈ out) :
    sock a = .asked req ∨ ∃ m, sock a = .readable (replyTo a req m) := by simpa [ha] using h a

theorem waiting_nil (h : Waiting req [] sock) : Waiting req' [] sock := fun a => by
  simpa using h a

theorem Waiting.mem_of_ne_idle (h : Waiting req out sock) (ha : sock a ≠ .idle) : a ∈ out := by
  by_contra hn
  exact ha (h.idle hn)

/-- A request is sent. -/
theorem Waiting.ask (h : Waiting req out sock) :
    Waiting req (out ++ [a]) (Function.update sock a (.asked req)) := fun b => by
  by_cases hb : b = a
  · subst hb
    simp
  · simpa [hb] using h b

/-- A reply is received. -/
theorem Waiting.take (h : Waiting req out sock) (hout : out.Nodup) :
    Waiting req (out.erase a) (Function.update sock a .idle) := fun b => by
  by_cases hb : b = a
  · subst hb
    simp [hout.not_mem_erase]
  · simpa [hb, List.mem_erase_of_ne hb] using h b

/-- A slave replies. -/
theorem Waiting.reply (h : Waiting req out sock) (ha : sock a = .asked req') :
    Waiting req out (Function.update sock a (.readable (replyTo a req' m))) := fun b => by
  have hmem : a ∈ out := h.mem_of_ne_idle (by simp [ha])
  have hreq : req' = req := by
    obtain h | ⟨m, h⟩ := h.busy hmem
    · exact Sock.asked.inj (ha.symm.trans h)
    · cases ha.symm.trans h
  by_cases hb : b = a
  · subst hb
    simp [hmem, hreq]
  · simpa [hb] using h b

theorem Waiting.res_eq (h : Waiting req out sock) (ha : sock a = .readable res) :
    ∃ m, res = replyTo a req m := by
  obtain h | ⟨m, h⟩ := h.busy (h.mem_of_ne_idle (a := a) (by simp [ha]))
  · cases ha.symm.trans h
  · exact ⟨m, Sock.readable.inj (ha.symm.trans h)⟩

end Sockets

/-! ## what a reply adds -/

section Results

variable {ps : List (Slave × Slave)} {rs : List MeasureResult} {m : Measurement}

/-- The sender's reply is the result of the pair. -/
theorem measured_collect_sender (h : Measured ps rs) :
    Measured (ps ++ [p]) (collect rs (replyTo p.1 (measureReq p) m)) := by
  have hcollect : collect rs (replyTo p.1 (measureReq p) m) =
      rs ++ [measureResult (replyTo p.1 (measureReq p) m)] := by
    simp [collect, replyTo, measureReq, measure_tsc_rtt, m.counted]
  rw [hcollect]
  refine ⟨by simp [h.1, pairOf, measureResult, replyTo, measureReq], fun r hr => ?_⟩
  obtain hr | hr := List.mem_append.mp hr
  · exact h.2 r hr
  · rw [List.mem_singleton.mp hr]
    rfl

/-- The receiver's reply adds nothing. -/
theorem collect_receiver (h : p.1 ≠ p.2) : collect rs (replyTo p.2 (measureReq p) m) = rs := by
  simp [collect, replyTo, measureReq, measure_tsc_rtt, Ne.symm h]

theorem measureReq_ne_finishReq : measureReq p ≠ finishReq := fun h => by
  have hfin : (measureReq p).finished = finishReq.finished := by rw [h]
  cases hfin

/-- No pair is told that the session ends. -/
theorem not_mem_asks (ps : List (Slave × Slave)) (a : Slave) : (a, finishReq) ∉ asks ps := by
  simp [asks, Ne.symm measureReq_ne_finishReq]

theorem asks_append (ps : List (Slave × Slave)) (p : Slave × Slave) :
    asks (ps ++ [p]) = asks ps ++ [p.1, p.2].map (·, measureReq p) := by simp [asks]

theorem ne_of_mem_allPairs {left : List (Slave × Slave)} (h : ps ++ p :: left = slaves.allPairs) :
    p.1 ∈ slaves.list ∧ p.2 ∈ slaves.list ∧ p.1 ≠ p.2 :=
  Slaves.mem_allPairs.mp (h ▸ by simp)

/-- The slave asked next is registered and not among those asked already. -/
theorem next_target {left : List (Slave × Slave)} {out targets : List Slave}
    (hps : ps ++ p :: left = slaves.allPairs) (h : out ++ a :: targets = [p.1, p.2]) :
    a ∈ slaves.list ∧ a ∉ out := by
  obtain ⟨h1, h2, hne⟩ := ne_of_mem_allPairs hps
  have hmem : a ∈ [p.1, p.2] := h ▸ by simp
  have hnodup : (out ++ a :: targets).Nodup := by simpa [h] using hne
  refine ⟨?_, fun ha => (List.nodup_append.mp hnodup).2.2 a ha a (by simp) rfl⟩
  obtain rfl | rfl := List.mem_pair.mp hmem <;> assumption

/-- Receiving from one of the slaves that were waited for. -/
theorem measured_collect {out : List Slave} (hne : p.1 ≠ p.2) (hout : out.Sublist [p.1, p.2])
    (ha : a ∈ out) (h : Measured (ps ++ collected p out) rs) :
    Measured (ps ++ collected p (out.erase a)) (collect rs (replyTo a (measureReq p) m)) := by
  have hnodup : out.Nodup := hout.nodup (by simpa using hne)
  have hcases : a = p.1 ∨ a = p.2 := by simpa using hout.subset ha
  obtain rfl | rfl := hcases
  · simp only [collected, ha, if_true, List.append_nil] at h
    simpa [collected, hnodup.not_mem_erase] using measured_collect_sender h
  · rw [collect_receiver hne]
    simpa [collected, List.mem_erase_of_ne hne] using h

end Results

/-! ## one step -/

section Step

variable {req : MSG_measure_req} {out : List Slave} {next : Pc}

theorem ask_of_idle (h : s.sock a = .idle) : s.ask a req next =
    { s with
      pc := next, sock := Function.update s.sock a (.asked req)
      requests := s.requests ++ [(a, req)] } := by
  rw [State.ask, h]

theorem canRead_eq_true : s.canRead a = true ↔ ∃ res, s.sock a = .readable res := by
  rw [State.canRead]
  cases s.sock a <;> simp

/-- What `poll` reports was waited for. -/
theorem Waiting.ready {ready : List Slave} (h : Waiting req out s.sock) (hp : p.1 ≠ p.2)
    (hsub : ready.Sublist [p.1, p.2]) (hcan : ∀ a ∈ ready, s.canRead a) :
    ready.Nodup ∧ ready ⊆ out := by
  refine ⟨hsub.nodup (by simpa using hp), fun a ha => ?_⟩
  obtain ⟨res, hres⟩ := canRead_eq_true.mp (hcan a ha)
  exact h.mem_of_ne_idle (by simp [hres])

/-- A step of the master keeps the invariant. -/
theorem inv_masterStep (h : Inv slaves s) (hs : masterStep slaves s = some s') :
    Inv slaves s' := by
  obtain ⟨req, out, hw, hread, hphase⟩ := h
  rw [masterStep] at hs
  cases hpc : s.pc with
  | pair left =>
      simp only [hpc, Phase] at hs hphase
      obtain ⟨rfl, ps, hps, hreq, hmeas⟩ := hphase
      cases left with
      | nil =>
          cases hs
          rw [List.append_nil] at hps
          subst hps
          exact ⟨req, [], hw, by simp [Pc.todo], rfl, [], rfl, by simpa using hreq, hmeas⟩
      | cons p left =>
          cases hs
          exact ⟨measureReq p, [], waiting_nil hw, by simp [Pc.todo], rfl, rfl, ps, hps,
            by simpa using hreq, hmeas⟩
  | send p targets left =>
      simp only [hpc, Phase] at hs hphase
      obtain ⟨rfl, hout, ps, hps, hreq, hmeas⟩ := hphase
      cases targets with
      | nil =>
          cases hs
          rw [List.append_nil] at hout
          subst hout
          exact ⟨_, _, hw, by simp [Pc.todo], rfl, by simp, .refl _, rfl, ps, hps,
            by rw [asks_append, hreq], by simpa [collected] using hmeas⟩
      | cons a targets =>
          obtain ⟨hmem, hnot⟩ := next_target hps hout
          have hidle : s.sock a = .idle := hw.idle hnot
          simp only [Slaves.find_address hmem, ask_of_idle hidle] at hs
          cases hs
          exact ⟨_, _, hw.ask, by simp [Pc.todo], rfl, by simpa using hout, ps, hps,
            by simp [hreq], hmeas⟩
  | poll p k left => simp [hpc] at hs
  | recv p todo n k left =>
      simp only [hpc, Phase] at hs hphase
      obtain ⟨rfl, htodo, hsub, hout, hk, ps, hps, hreq, hmeas⟩ := hphase
      obtain ⟨-, -, hne⟩ := ne_of_mem_allPairs hps
      cases todo with
      | nil =>
          have hk : k - n = out.length := by simp at hk; omega
          cases hs
          by_cases hnil : out = []
          · subst hnil
            rw [hk, if_neg (by simp)]
            exact ⟨measureReq p, [], hw, by simp [Pc.todo], rfl, ps ++ [p], by simpa using hps, hreq,
              by simpa [collected] using hmeas⟩
          · rw [hk, if_pos (by simpa [List.length_pos_iff] using hnil)]
            exact ⟨_, _, hw, by simp [Pc.todo], rfl, hnil, hout, rfl, ps, hps, hreq, hmeas⟩
      | cons a todo =>
          obtain ⟨mma, ha⟩ := canRead_eq_true.mp (hread a (by simp [hpc, Pc.todo]))
          obtain ⟨m, rfl⟩ := hw.res_eq ha
          have hmem : a ∈ out := hsub (by simp)
          have hnodup : out.Nodup := hout.nodup (by simpa using hne)
          obtain ⟨hnot, htodo⟩ := List.nodup_cons.mp htodo
          have hneq (b : Slave) (hb : b ∈ todo) : b ≠ a := fun h => hnot (h ▸ hb)
          have hlen : out.length = (out.erase a).length + 1 := by
            rw [List.length_erase_of_mem hmem]
            have := List.length_pos_of_mem hmem
            omega
          simp only [ha] at hs
          cases hs
          refine ⟨_, _, hw.take hnodup, fun b hb => ?_, rfl, htodo, fun b hb => ?_,
            (List.erase_sublist).trans hout, ?_, ps, hps, hreq, measured_collect hne hout hmem hmeas⟩
          · have := hread b (by simpa [hpc, Pc.todo] using .inr hb)
            simpa [State.canRead, State.take, hneq b hb] using this
          · exact (List.mem_erase_of_ne (hneq b hb)).mpr (hsub (by simp [hb]))
          · simp at hk
            omega
  | finish left =>
      simp only [hpc, Phase] at hs hphase
      obtain ⟨rfl, ended, hended, hreq, hmeas⟩ := hphase
      cases left with
      | nil =>
          cases hs
          rw [List.append_nil] at hended
          subst hended
          exact ⟨req, [], hw, by simp [Pc.todo], rfl, hreq, hmeas⟩
      | cons a left =>
          simp only [ask_of_idle (hw.idle (a := a) (by simp))] at hs
          cases hs
          exact ⟨finishReq, [] ++ [a], (waiting_nil hw).ask, by simp [Pc.todo], rfl, rfl,
            ended, hended, by simp [hreq], hmeas⟩
  | finishRecv a left =>
      simp only [hpc, Phase] at hs hphase
      obtain ⟨rfl, rfl, ended, hended, hreq, hmeas⟩ := hphase
      obtain ha | ⟨m, ha⟩ := hw.busy (a := a) (by simp)
      · simp [ha] at hs
      · simp only [ha] at hs
        cases hs
        refine ⟨finishReq, [], ?_, by simp [State.take, Pc.todo], rfl, ended ++ [a],
          by simpa using hended, hreq, hmeas⟩
        simpa [State.take] using hw.take (a := a) (List.nodup_singleton a)
  | sort => simp [hpc] at hs
  | done => simp [hpc] at hs
  | exit => simp [hpc] at hs

/-- Every step keeps the invariant. -/
theorem inv_step (h : Inv slaves s) (hs : step slaves s l = some s') : Inv slaves s' := by
  cases l with
  | master => exact inv_masterStep h hs
  | poll ready =>
      obtain ⟨req, out, hw, hread, hphase⟩ := h
      cases hpc : s.pc with
      | poll p k left =>
          simp only [hpc, Phase] at hphase
          obtain ⟨rfl, -, hout, rfl, ps, hps, hreq, hmeas⟩ := hphase
          obtain ⟨-, -, hne⟩ := ne_of_mem_allPairs hps
          simp only [step, hpc] at hs
          split at hs
          · next hready =>
            obtain ⟨-, hsub, hcan⟩ := hready
            cases hs
            obtain ⟨hnodup, hwaited⟩ := hw.ready hne hsub hcan
            exact ⟨_, out, hw, hcan, rfl, hnodup, hwaited, hout, rfl, ps, hps, hreq, hmeas⟩
          · cases hs
      | _ => simp [step, hpc] at hs
  | sort rs =>
      obtain ⟨req, out, hw, hread, hphase⟩ := h
      cases hpc : s.pc with
      | sort =>
          simp only [step, hpc] at hs
          split at hs
          · cases hs
            exact ⟨req, out, hw, by simp [Pc.todo], by simpa only [hpc, Phase] using hphase⟩
          · cases hs
      | _ => simp [step, hpc] at hs
  | reply a m =>
      obtain ⟨req, out, hw, hread, hphase⟩ := h
      simp only [step] at hs
      split at hs
      · next req' ha =>
        cases hs
        refine ⟨req, out, hw.reply ha, fun b hb => ?_, hphase⟩
        have hcan := hread b hb
        by_cases hba : b = a
        · subst hba
          simp [State.canRead, ha] at hcan
        · simpa [State.canRead, hba] using hcan
      · cases hs

theorem inv_init (slaves : Slaves) : Inv slaves (init slaves) :=
  ⟨finishReq, [], fun a => by simp [init], by simp [init, Pc.todo], rfl, [], rfl, rfl, rfl,
    by simp [init]⟩

theorem reach_inv (hr : Reach (step slaves) (init slaves) anyStep s) : Inv slaves s :=
  hr.invariant (inv_init slaves) fun _ _ _ h _ hs => inv_step h hs

end Step

/-! ## what a step does to the sockets -/

/-- Steps the master has left, besides those that answer to a request. -/
def pcRank (slaves : Slaves) : Pc → Nat
  | .pair left => 20 * left.length + (5 * slaves.list.length + 3)
  | .send _ targets left =>
      20 * left.length + (5 * slaves.list.length + 3) + 10 + 4 * targets.length
  | .poll _ k left => 20 * left.length + (5 * slaves.list.length + 3) + 3 * k.toNat + 3
  | .recv _ todo n k left =>
      20 * left.length + (5 * slaves.list.length + 3) + 3 * (k - n).toNat + todo.length + 4
  | .finish left => 5 * left.length + 2
  | .finishRecv _ left => 5 * left.length + 4
  | .sort => 1
  | .done | .exit => 0

/-- The four kinds of step: a request is sent, a reply received, a slave
replies, or no socket is touched.  No slave is sent a request after it was told
that the session ends. -/
inductive Effect (slaves : Slaves) (s s' : State) : Prop
  | ask (a : Slave) (req : MSG_measure_req) (hsock : s.sock a = .idle) (hmem : a ∈ slaves.list)
      (hsock' : s'.sock = Function.update s.sock a (.asked req))
      (hreq : s'.requests = s.requests ++ [(a, req)]) (hrep : s'.replies = s.replies)
      (hnew : (a, finishReq) ∉ s.requests) (hpc : pcRank slaves s'.pc + 2 < pcRank slaves s.pc)
  | take (a : Slave) (res : MSG_measure_result) (hsock : s.sock a = .readable res)
      (hmem : a ∈ slaves.list) (hsock' : s'.sock = Function.update s.sock a .idle)
      (hreq : s'.requests = s.requests) (hrep : s'.replies = s.replies ++ [(a, res)])
      (hpc : pcRank slaves s'.pc ≤ pcRank slaves s.pc)
  | reply (a : Slave) (req : MSG_measure_req) (m : Measurement) (hsock : s.sock a = .asked req)
      (hmem : a ∈ slaves.list)
      (hsock' : s'.sock = Function.update s.sock a (.readable (replyTo a req m)))
      (hreq : s'.requests = s.requests) (hrep : s'.replies = s.replies) (hpc : s'.pc = s.pc)
  | quiet (hsock' : s'.sock = s.sock) (hreq : s'.requests = s.requests)
      (hrep : s'.replies = s.replies) (hpc : pcRank slaves s'.pc < pcRank slaves s.pc)

section Effects

/-- Only registered slaves are waited for. -/
theorem out_subset {pc : Pc} {requests : List (Slave × MSG_measure_req)} {rs : List MeasureResult}
    {req : MSG_measure_req} {out : List Slave} (h : Phase slaves pc requests rs req out) :
    out ⊆ slaves.list := fun a ha => by
  have hpair {p : Slave × Slave} {ps left : List (Slave × Slave)}
      (hps : ps ++ p :: left = slaves.allPairs) (hsub : out ⊆ [p.1, p.2]) : a ∈ slaves.list := by
    obtain ⟨h1, h2, -⟩ := ne_of_mem_allPairs hps
    obtain rfl | rfl := List.mem_pair.mp (hsub ha) <;> assumption
  cases pc with
  | pair left => simp [h.1] at ha
  | send p targets left =>
      obtain ⟨-, hout, ps, hps, -⟩ := h
      exact hpair hps (hout ▸ List.subset_append_left _ _)
  | poll p k left =>
      obtain ⟨-, -, hout, -, ps, hps, -⟩ := h
      exact hpair hps hout.subset
  | recv p todo n k left =>
      obtain ⟨-, -, -, hout, -, ps, hps, -⟩ := h
      exact hpair hps hout.subset
  | finish left => simp [h.1] at ha
  | finishRecv b left =>
      obtain ⟨-, rfl, ended, hended, -⟩ := h
      rw [List.mem_singleton.mp ha, ← hended]
      simp
  | sort => simp [h.1] at ha
  | done => simp [h.1] at ha
  | exit => exact h.elim

/-- Only registered slaves have a socket in use. -/
theorem Inv.mem_list (h : Inv slaves s) (ha : s.sock a ≠ .idle) : a ∈ slaves.list := by
  obtain ⟨req, out, hw, -, hphase⟩ := h
  exact out_subset hphase (hw.mem_of_ne_idle ha)

theorem effect_masterStep (h : Inv slaves s) (hs : masterStep slaves s = some s') :
    Effect slaves s s' := by
  have hinv := h
  obtain ⟨req, out, hw, hread, hphase⟩ := h
  rw [masterStep] at hs
  cases hpc : s.pc with
  | pair left =>
      cases left <;> (simp only [hpc] at hs; cases hs)
      · exact .quiet rfl rfl rfl (by simp [hpc, pcRank])
      · exact .quiet rfl rfl rfl (by simp [hpc, pcRank]; omega)
  | send p targets left =>
      simp only [hpc, Phase] at hs hphase
      obtain ⟨rfl, hout, ps, hps, hreq, -⟩ := hphase
      cases targets with
      | nil =>
          cases hs
          exact .quiet rfl rfl rfl (by simp [hpc, pcRank])
      | cons a targets =>
          obtain ⟨hmem, hnot⟩ := next_target hps hout
          have hidle : s.sock a = .idle := hw.idle hnot
          have hnew : (a, finishReq) ∉ s.requests := by
            simp [hreq, not_mem_asks, measureReq_ne_finishReq]
          simp only [Slaves.find_address hmem, ask_of_idle hidle] at hs
          cases hs
          exact .ask a _ hidle hmem rfl rfl rfl hnew (by simp [hpc, pcRank]; omega)
  | poll p k left => simp [hpc] at hs
  | recv p todo n k left =>
      simp only [hpc, Phase] at hs hphase
      cases todo with
      | nil =>
          cases hs
          refine .quiet rfl rfl rfl ?_
          rw [hpc]
          dsimp only
          split <;> simp only [pcRank, List.length_nil] <;> omega
      | cons a todo =>
          obtain ⟨mma, ha⟩ := canRead_eq_true.mp (hread a (by simp [hpc, Pc.todo]))
          simp only [ha] at hs
          cases hs
          exact .take a mma ha (hinv.mem_list (by simp [ha])) rfl rfl rfl
            (by simp [hpc, pcRank, State.take])
  | finish left =>
      simp only [hpc, Phase] at hs hphase
      obtain ⟨rfl, ended, hended, hreq, -⟩ := hphase
      cases left with
      | nil =>
          cases hs
          exact .quiet rfl rfl rfl (by simp [hpc, pcRank])
      | cons a left =>
          have hidle : s.sock a = .idle := hw.idle (by simp)
          have hnodup : (ended ++ a :: left).Nodup := hended ▸ slaves.nodup_list
          have hnot : a ∉ ended := fun ha =>
            (List.nodup_append.mp hnodup).2.2 a ha a List.mem_cons_self rfl
          have hnew : (a, finishReq) ∉ s.requests := by simpa [hreq, not_mem_asks] using hnot
          simp only [ask_of_idle hidle] at hs
          cases hs
          exact .ask a _ hidle (hended ▸ by simp) rfl rfl rfl hnew (by simp [hpc, pcRank]; omega)
  | finishRecv a left =>
      simp only [hpc, Phase] at hs hphase
      obtain ⟨rfl, rfl, -⟩ := hphase
      obtain ha | ⟨m, ha⟩ := hw.busy (a := a) (by simp)
      · simp [ha] at hs
      · simp only [ha] at hs
        cases hs
        exact .take a _ ha (hinv.mem_list (by simp [ha])) rfl rfl rfl
          (by simp [hpc, pcRank, State.take])
  | sort => simp [hpc] at hs
  | done => simp [hpc] at hs
  | exit => simp [hpc] at hs

theorem effect_step (h : Inv slaves s) (hs : step slaves s l = some s') : Effect slaves s s' := by
  cases l with
  | master => exact effect_masterStep h hs
  | poll ready =>
      obtain ⟨req, out, hw, -, hphase⟩ := h
      cases hpc : s.pc with
      | poll p k left =>
          simp only [step, hpc] at hs
          split at hs
          · next hready =>
            cases hs
            simp only [hpc, Phase] at hphase
            obtain ⟨-, -, -, rfl, ps, hps, -⟩ := hphase
            obtain ⟨hnil, hsub, hcan⟩ := hready
            obtain ⟨-, -, hne⟩ := ne_of_mem_allPairs hps
            obtain ⟨hnodup, hwaited⟩ := hw.ready hne hsub hcan
            have hlen := (List.subperm_of_subset hnodup hwaited).length_le
            have hpos := List.length_pos_iff.mpr hnil
            refine .quiet rfl rfl rfl ?_
            simp only [hpc, pcRank]
            omega
          · cases hs
      | _ => simp [step, hpc] at hs
  | sort rs =>
      cases hpc : s.pc with
      | sort =>
          simp only [step, hpc] at hs
          split at hs
          · cases hs
            exact .quiet rfl rfl rfl (by simp [hpc, pcRank])
          · cases hs
      | _ => simp [step, hpc] at hs
  | reply a m =>
      simp only [step] at hs
      split at hs
      · next req ha =>
        cases hs
        exact .reply a req m ha (h.mem_list (by simp [ha])) rfl rfl rfl rfl
      · cases hs

end Effects

/-! ## one request at a time -/

/-- The requests sent to a slave. -/
def State.sentTo (s : State) (a : Slave) : Nat := s.requests.countP (·.1 = a)

/-- The replies received from a slave. -/
def State.receivedFrom (s : State) (a : Slave) : Nat := s.replies.countP (·.1 = a)

/-- Every request but the one that is out was answered. -/
def Answered (s : State) : Prop :=
  ∀ a, s.sentTo a = s.receivedFrom a + if s.sock a = .idle then 0 else 1

theorem Answered.step (h : Answered s) (he : Effect slaves s s') : Answered s' := fun b => by
  have hb := h b
  simp only [State.sentTo, State.receivedFrom] at hb ⊢
  cases he with
  | ask a req hsock _ hsock' hreq hrep =>
      rw [hsock', hreq, hrep, List.countP_append, hb]
      by_cases hab : a = b
      · subst hab
        simp [hsock]
      · simp [hab, Ne.symm hab]
  | take a res hsock _ hsock' hreq hrep =>
      rw [hsock', hreq, hrep, List.countP_append, hb]
      by_cases hab : a = b
      · subst hab
        simp [hsock]
      · simp [hab, Ne.symm hab]
  | reply a req m hsock _ hsock' hreq hrep =>
      rw [hsock', hreq, hrep, hb]
      by_cases hab : b = a
      · subst hab
        simp [hsock]
      · simp [hab]
  | quiet hsock' hreq hrep => rw [hsock', hreq, hrep, hb]

theorem reach_answered (hr : Reach (step slaves) (init slaves) anyStep s) : Answered s :=
  hr.invariant_of (fun _ => reach_inv) (fun a => by simp [init, State.sentTo, State.receivedFrom])
    fun _ _ _ hinv h _ hs => h.step (effect_step hinv hs)

/-! ## every run ends -/

/-- Steps a socket is still good for. -/
def sockRank : Sock → Nat
  | .idle => 0
  | .readable _ => 1
  | .asked _ => 2

@[simp] theorem sockRank_idle : sockRank .idle = 0 := rfl

@[simp] theorem sockRank_readable (res : MSG_measure_result) : sockRank (.readable res) = 1 := rfl

@[simp] theorem sockRank_asked (req : MSG_measure_req) : sockRank (.asked req) = 2 := rfl

/-- Every step lowers this rank. -/
def rank (slaves : Slaves) (s : State) : Nat :=
  pcRank slaves s.pc + (slaves.list.map fun a => sockRank (s.sock a)).sum

theorem sum_map_update {α : Type} [DecidableEq α] {as : List α} (hnodup : as.Nodup) (f : α → Nat)
    {a : α} (ha : a ∈ as) (v : Nat) :
    (as.map (Function.update f a v)).sum + f a = (as.map f).sum + v := by
  induction as with
  | nil => cases ha
  | cons b as ih =>
      obtain ⟨hb, hnodup⟩ := List.nodup_cons.mp hnodup
      rw [List.map_cons, List.sum_cons, List.map_cons, List.sum_cons]
      obtain rfl | ha := List.mem_cons.mp ha
      · have hmap : as.map (Function.update f a v) = as.map f :=
          List.map_congr_left fun c hc => Function.update_of_ne (ne_of_mem_of_not_mem hc hb) v f
        rw [hmap, Function.update_self]
        omega
      · have hne : b ≠ a := fun h => hb (h ▸ ha)
        have := ih hnodup ha
        rw [Function.update_of_ne hne]
        omega

/-- The rank of the sockets when one of them changes. -/
theorem sockRanks_update (s : State) (ha : a ∈ slaves.list) (x : Sock) :
    (slaves.list.map fun b => sockRank (Function.update s.sock a x b)).sum + sockRank (s.sock a) =
      (slaves.list.map fun b => sockRank (s.sock b)).sum + sockRank x := by
  have := sum_map_update slaves.nodup_list (fun b => sockRank (s.sock b)) ha (sockRank x)
  have hfun : (fun b => sockRank (Function.update s.sock a x b)) =
      Function.update (fun b => sockRank (s.sock b)) a (sockRank x) := by
    funext b
    by_cases hb : b = a
    · subst hb
      simp
    · simp [hb]
  rw [hfun]
  exact this

theorem rank_step (h : Inv slaves s) (hs : step slaves s l = some s') :
    rank slaves s' < rank slaves s := by
  rw [rank, rank]
  cases effect_step h hs with
  | ask a req hsock hmem hsock' _ _ hpc =>
      have := sockRanks_update s hmem (.asked req)
      rw [hsock, sockRank_idle, sockRank_asked] at this
      rw [hsock']
      omega
  | take a res hsock hmem hsock' _ _ hpc =>
      have := sockRanks_update s hmem .idle
      rw [hsock, sockRank_idle, sockRank_readable] at this
      rw [hsock']
      omega
  | reply a req m hsock hmem hsock' _ _ hpc =>
      have := sockRanks_update s hmem (.readable (replyTo a req m))
      rw [hsock, sockRank_asked, sockRank_readable] at this
      rw [hsock']
      rw [hpc]
      omega
  | quiet hsock' _ _ hpc =>
      rw [hsock']
      omega

theorem insertionSort_isSorted (rs : List MeasureResult) :
    IsSorted rs (rs.insertionSort (·.rtt_ns ≤ ·.rtt_ns)) :=
  ⟨List.perm_insertionSort _ rs, List.pairwise_insertionSort _ rs⟩

/-- Before its end, a run can go on. -/
theorem exists_step (h : Inv slaves s) (hdone : s.pc ≠ .done) :
    ∃ l s', step slaves s l = some s' := by
  obtain ⟨req, out, hw, hread, hphase⟩ := h
  let m : Measurement := ⟨0, 0, 0, 0, 0, 0, 0, 0, 0, by decide⟩
  cases hpc : s.pc with
  | pair left => cases left <;> exact ⟨.master, _, by simp only [step, masterStep, hpc]; rfl⟩
  | send p targets left =>
      simp only [hpc, Phase] at hphase
      obtain ⟨-, hout, ps, hps, -⟩ := hphase
      cases targets with
      | nil => exact ⟨.master, _, by simp only [step, masterStep, hpc]; rfl⟩
      | cons a targets =>
          exact ⟨.master, _, by
            simp only [step, masterStep, hpc, Slaves.find_address (next_target hps hout).1]; rfl⟩
  | poll p k left =>
      simp only [hpc, Phase] at hphase
      obtain ⟨-, hne, hout, -⟩ := hphase
      obtain ⟨a, ha⟩ := List.exists_mem_of_ne_nil out hne
      obtain h | ⟨m', h⟩ := hw.busy ha
      · exact ⟨.reply a m, _, by simp only [step, h]; rfl⟩
      · have hready : [a] ≠ [] ∧ [a].Sublist [p.1, p.2] ∧ ∀ b ∈ [a], s.canRead b := by
          simp only [List.mem_singleton, forall_eq, canRead_eq_true]
          exact ⟨by simp, List.singleton_sublist.mpr (hout.subset ha), _, h⟩
        exact ⟨.poll [a], _, by simp only [step, hpc, if_pos hready]; rfl⟩
  | recv p todo n k left =>
      cases todo with
      | nil => exact ⟨.master, _, by simp only [step, masterStep, hpc]; rfl⟩
      | cons a todo =>
          obtain ⟨mma, ha⟩ := canRead_eq_true.mp (hread a (by simp [hpc, Pc.todo]))
          exact ⟨.master, _, by simp only [step, masterStep, hpc, ha]; rfl⟩
  | finish left => cases left <;> exact ⟨.master, _, by simp only [step, masterStep, hpc]; rfl⟩
  | finishRecv a left =>
      simp only [hpc, Phase] at hphase
      obtain ⟨-, rfl, -⟩ := hphase
      obtain h | ⟨m', h⟩ := hw.busy (a := a) (by simp)
      · exact ⟨.reply a m, _, by simp only [step, h]; rfl⟩
      · exact ⟨.master, _, by simp only [step, masterStep, hpc, h]; rfl⟩
  | sort =>
      have hsorted := insertionSort_isSorted s.measResultList
      exact ⟨.sort (s.measResultList.insertionSort (·.rtt_ns ≤ ·.rtt_ns)), _, by
        simp only [step, hpc, if_pos hsorted]; rfl⟩
  | done => exact absurd hpc hdone
  | exit =>
      simp only [hpc, Phase] at hphase

/-! ## the matrix -/

/-- What `request_measurement` has done when it returns. -/
structure Complete (slaves : Slaves) (s : State) : Prop where
  /-- Both slaves of every pair were asked, once, pair after pair. -/
  asked : s.requests.filter (·.2.finished = 0) = asks slaves.allPairs
  /-- The log has the results of the pairs, sorted by time. -/
  lines : ∃ rs : List MeasureResult, s.log = rs.map logLine ∧ rs.Pairwise (·.rtt_ns ≤ ·.rtt_ns) ∧
    (∀ r ∈ rs, r.rtt_ns = r.end_ns - r.from_ns) ∧ (rs.map pairOf).Perm slaves.allPairs
  length : s.log.length = slaves.list.length * (slaves.list.length - 1)

/-- The log holds the sorted results. -/
def LogSorted (s : State) : Prop :=
  s.pc = .done → ∃ rs, IsSorted s.measResultList rs ∧ s.log = rs.map logLine

theorem ask_pc_ne_done {req : MSG_measure_req} {next : Pc} (h : next ≠ .done) :
    (s.ask a req next).pc ≠ .done := by
  rw [State.ask]
  split
  · exact h
  · simp

/-- Only `sort` returns from the call. -/
theorem masterStep_pc_ne_done (hs : masterStep slaves s = some s') : s'.pc ≠ .done := by
  rw [masterStep] at hs
  split at hs
  · cases hs
    simp
  · cases hs
    simp
  · cases hs
    simp
  · split at hs
    · cases hs
      simp
    · cases hs
      exact ask_pc_ne_done (by simp)
  · cases hs
    dsimp only
    split <;> simp
  · split at hs
    · cases hs
      simp [State.take]
    · cases hs
    · cases hs
      simp
  · cases hs
    simp
  · cases hs
    exact ask_pc_ne_done (by simp)
  · split at hs
    · cases hs
      simp [State.take]
    · cases hs
    · cases hs
      simp
  · cases hs

theorem logSorted_step (h : LogSorted s) (hs : step slaves s l = some s') : LogSorted s' := by
  cases l with
  | master => exact fun hdone => absurd hdone (masterStep_pc_ne_done hs)
  | poll ready =>
      simp only [step] at hs
      split at hs
      · split at hs
        · cases hs
          exact fun hdone => by cases hdone
        · cases hs
      · cases hs
  | sort rs =>
      simp only [step] at hs
      split at hs
      · split at hs
        · next hsorted =>
          cases hs
          exact fun _ => ⟨rs, hsorted, rfl⟩
        · cases hs
      · cases hs
  | reply a m =>
      simp only [step] at hs
      split at hs
      · cases hs
        exact h
      · cases hs

theorem reach_logSorted (hr : Reach (step slaves) (init slaves) anyStep s) : LogSorted s :=
  hr.invariant (fun hdone => by cases hdone) fun _ _ _ h _ hs => logSorted_step h hs

/-- The requests of the pairs are those that do not end a session. -/
theorem filter_asks (ps : List (Slave × Slave)) (ended : List Slave) :
    (asks ps ++ ended.map (·, finishReq)).filter (·.2.finished = 0) = asks ps := by
  have h1 : (asks ps).filter (·.2.finished = 0) = asks ps :=
    List.filter_eq_self.mpr fun e he => by
      obtain ⟨p, -, he⟩ := List.mem_flatMap.mp he
      obtain rfl | rfl := List.mem_pair.mp he <;> rfl
  have h2 : (ended.map (·, finishReq)).filter (·.2.finished = 0) = [] :=
    List.filter_eq_nil_iff.mpr fun e he => by
      obtain ⟨a, -, rfl⟩ := List.mem_map.mp he
      simp [finishReq]
  rw [List.filter_append, h1, h2, List.append_nil]

theorem reach_complete (hr : Reach (step slaves) (init slaves) anyStep s) (hdone : s.pc = .done) :
    Complete slaves s := by
  obtain ⟨req, out, -, -, hphase⟩ := reach_inv hr
  obtain ⟨rs, ⟨hperm, hsorted⟩, hlog⟩ := reach_logSorted hr hdone
  rw [hdone] at hphase
  obtain ⟨-, hreq, hpairs, hrtt⟩ := hphase
  have hpairs' : (rs.map pairOf).Perm slaves.allPairs := hpairs ▸ hperm.map pairOf
  have hlength : s.log.length = slaves.allPairs.length := by
    rw [hlog, List.length_map, ← hpairs'.length_eq, List.length_map]
  exact {
    asked := by rw [hreq, filter_asks]
    lines := ⟨rs, hlog, hsorted, fun r hr => hrtt r (hperm.mem_iff.mp hr), hpairs'⟩
    length := hlength.trans Slaves.length_allPairs }

/-- **The matrix is complete and ordered.**  The pairs gone through are all
ordered pairs of distinct slaves, each once.  Whatever order the replies come
in, no slave is sent a request while one is out, every run comes to its end,
and there `Complete` holds. -/
theorem request_measurement_matrix (slaves : Slaves) :
    (slaves.allPairs.Nodup ∧ ∀ p, p ∈ slaves.allPairs ↔
      p.1 ∈ slaves.list ∧ p.2 ∈ slaves.list ∧ p.1 ≠ p.2) ∧
    (∀ s, Reach (step slaves) (init slaves) anyStep s →
      (∀ a, s.sentTo a ≤ s.receivedFrom a + 1) ∧ (s.pc = .done → Complete slaves s)) ∧
    (∀ s, Reach (step slaves) (init slaves) anyStep s →
      (s.pc ≠ .done → ∃ l s', step slaves s l = some s') ∧
      ∀ l s', step slaves s l = some s' → rank slaves s' < rank slaves s) := by
  refine ⟨⟨Slaves.nodup_allPairs, fun _ => Slaves.mem_allPairs⟩, fun s hr => ⟨fun a => ?_, ?_⟩,
    fun s hr => ⟨exists_step (reach_inv hr), fun _ _ => rank_step (reach_inv hr)⟩⟩
  · have := reach_answered hr a
    split at this <;> omega
  · exact reach_complete hr

end CloudProfiler.Tsc
