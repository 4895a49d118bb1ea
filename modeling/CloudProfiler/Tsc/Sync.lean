import CloudProfiler.Run
import CloudProfiler.Tsc.Bulk

/-!
# CloudProfiler.Tsc.Sync

The synchronous run of `tsc_slave_1` with its peer `tsc_slave_2`:
`do_bulk_sync_send_and_recv` on a REQ socket and `do_bulk_receive` on a REP
socket, every statement a step of its own.

A message whose `req_nsec_start` is zero ends the peer.

* `InOrder` — readings of clocks, in the order of time;
* `step` — one statement of one of the two, or time passing;
* `At` — where the two are, and how many statements are left;
* `sync_session` — what the data log holds, and that both programs end.
-/

namespace CloudProfiler.Tsc.Sync

/-! ## readings in order -/

section Readings

variable {H : Type}

/-- The clocks of some hosts were read one after the other, up to time `t`. -/
inductive InOrder (clock : H → Nat → Int) : Nat → List (H × Int) → Prop
  | nil (t : Nat) : InOrder clock t []
  | read {t t₁ t' : Nat} {l : List (H × Int)} {host : H} {x : Int} (hl : InOrder clock t l)
      (ht : t ≤ t₁) (ht' : t₁ ≤ t') (hx : x = clock host t₁) : InOrder clock t' (l ++ [(host, x)])

variable {clock : H → Nat → Int} {t t' : Nat} {l l' : List (H × Int)} {a b : H} {x y : Int}

/-- Time passes. -/
theorem InOrder.mono (h : InOrder clock t l) (ht : t ≤ t') : InOrder clock t' l := by
  cases h with
  | nil => exact .nil t'
  | read hl h₁ h₂ hx => exact .read hl h₁ (h₂.trans ht) hx

/-- Some of the readings. -/
theorem InOrder.sublist (h : InOrder clock t l) (hl : l'.Sublist l) : InOrder clock t l' := by
  induction h generalizing l' with
  | nil t =>
      rw [List.sublist_nil.mp hl]
      exact .nil t
  | read h h₁ h₂ hx ih =>
      obtain ⟨l₁, l₂, rfl, hl₁, hl₂⟩ := List.sublist_append_iff.mp hl
      obtain rfl | rfl := List.sublist_singleton.mp hl₂
      · rw [List.append_nil]
        exact (ih hl₁).mono (h₁.trans h₂)
      · exact .read (ih hl₁) h₁ h₂ hx

/-- Two readings. -/
theorem InOrder.pair (h : InOrder clock t [(a, x), (b, y)]) :
    ∃ t₁ t₂, t₁ ≤ t₂ ∧ x = clock a t₁ ∧ y = clock b t₂ := by
  generalize hl : [(a, x), (b, y)] = l at h
  cases h with
  | nil => cases hl
  | @read t₁ t₂ _ l' _ _ h' h₁ h₂ hy =>
      obtain ⟨rfl, hby⟩ := List.append_inj' (show [(a, x)] ++ [(b, y)] = _ from hl) rfl
      obtain ⟨rfl, rfl⟩ := Prod.mk.inj (List.singleton_inj.mp hby)
      generalize hl' : [(a, x)] = l' at h'
      cases h' with
      | nil => cases hl'
      | @read t₀ t₃ _ l'' _ _ _ h₃ h₄ hx =>
          obtain ⟨-, hax⟩ := List.append_inj' (show [] ++ [(a, x)] = _ from hl') rfl
          obtain ⟨rfl, rfl⟩ := Prod.mk.inj (List.singleton_inj.mp hax)
          exact ⟨t₃, t₂, h₄.trans h₁, hx, hy⟩

end Readings

/-! ## the source -/

inductive Host
  | slave_1
  | slave_2
deriving DecidableEq

/-- Where `tsc_slave_1` is: at the head of its loop and then in the reading of
the cycles, in that of the nano-seconds, in `send` and `recv`, in the two
readings behind them, and in the `send` behind the loop. -/
inductive Slave1
  | head
  | stamp
  | send
  | recv
  | stop (msg : TSC_msg)
  | log (msg : TSC_msg) (req_nsec_end : Int64)
  | shutdown
  | done
deriving DecidableEq

/-- Where `tsc_slave_2` is: in `recv`, in the reading of the nano-seconds, in
that of the cycles and then at the test, in the last reading, and in `send`. -/
inductive Slave2
  | recv
  | stamp (m : TSC_msg)
  | test (m : TSC_msg) (received_ns : Int64)
  | stop (m : TSC_msg)
  | send (m : TSC_msg)
  | done
deriving DecidableEq

/-- The two programs, the variables `m` and what the lines of the log are made
of, the messages on their way, and the time. -/
structure State where
  one : Slave1
  two : Slave2
  m : TSC_msg
  rtts : List RoundTrip
  requests : List TSC_msg
  replies : List TSC_msg
  time : Nat
deriving DecidableEq

/-- `m` is not initialised. -/
def init (m : TSC_msg) : State := ⟨.head, .recv, m, [], [], [], 0⟩

/-- A statement of a host, with what it reads if it reads a clock. -/
inductive Label
  | run (host : Host) (now : Int64)
  | tick

/-- A statement, unlike time passing. -/
def Label.isStatement : Label → Bool
  | .run _ _ => true
  | .tick => false

section Step

variable (nr_iter : Int)

/-- `do_bulk_sync_send_and_recv`. -/
def State.next1 (s : State) (now : Int64) : Option State :=
  match s.one with
  | .head =>
      if s.rtts.length < nr_iter then
        some { s with one := .stamp, m := { s.m with req_cyc_start := now } }
      else some { s with one := .shutdown }
  | .stamp => some { s with one := .send, m := { s.m with req_nsec_start := now } }
  | .send => some { s with one := .recv, requests := s.requests ++ [s.m] }
  | .recv =>
      match s.replies with
      | [] => none
      | msg :: replies => some { s with one := .stop msg, replies := replies }
  | .stop msg => some { s with one := .log msg now }
  | .log msg req_nsec_end =>
      some { s with one := .head, rtts := s.rtts ++ [⟨msg, req_nsec_end, now⟩] }
  | .shutdown =>
      let m := { s.m with req_nsec_start := 0 }
      some { s with one := .done, m := m, requests := s.requests ++ [m] }
  | .done => none

/-- `do_bulk_receive`. -/
def State.next2 (s : State) (now : Int64) : Option State :=
  match s.two with
  | .recv =>
      match s.requests with
      | [] => none
      | m :: requests => some { s with two := .stamp m, requests := requests }
  | .stamp m => some { s with two := .test m now }
  | .test m received_ns =>
      some { s with
        two := if m.req_nsec_start = 0 then .done
          else .stop { m with reply_cyc := now, reply_nsec_start := received_ns } }
  | .stop m => some { s with two := .send { m with reply_nsec_end := now } }
  | .send m => some { s with two := .recv, replies := s.replies ++ [m] }
  | .done => none

def step (s : State) : Label → Option State
  | .run .slave_1 now => s.next1 nr_iter now
  | .run .slave_2 now => s.next2 now
  | .tick => some { s with time := s.time + 1 }

end Step

/-- The statement reads the nano-seconds. -/
def State.readsNsec (s : State) : Host → Bool
  | .slave_1 =>
      match s.one with
      | .stamp | .stop _ => true
      | _ => false
  | .slave_2 =>
      match s.two with
      | .stamp _ | .stop _ => true
      | _ => false

/-- The hosts read their clocks, which never show zero. -/
def Clocked (clock : Host → Nat → Int) (s : State) : Label → Prop
  | .run host now => s.readsNsec host = true → now.toInt = clock host s.time ∧ now ≠ 0
  | .tick => True

instance (clock : Host → Nat → Int) : DecidableRel (Clocked clock) := fun _ l =>
  match l with
  | .run _ _ => inferInstanceAs (Decidable (_ = true → _ ∧ _))
  | .tick => .isTrue trivial

/-! ## the invariant -/

/-- The readings of a line of the data log. -/
def readings (r : RoundTrip) : List (Host × Int) :=
  [(.slave_1, r.msg.req_nsec_start.toInt), (.slave_2, r.msg.reply_nsec_start.toInt),
    (.slave_2, r.msg.reply_nsec_end.toInt), (.slave_1, r.req_nsec_end.toInt)]

/-- A line of the data log. -/
def logLine (r : RoundTrip) : List Char := [','].intercalate ((readings r).map fun p => intText p.2)

/-- The clock of the peer is ahead by `θ`, and neither goes back. -/
structure Ahead (clock : Host → Nat → Int) (θ : Int) : Prop where
  eq : ∀ t, clock .slave_2 t = clock .slave_1 t + θ
  mono : ∀ {t t'}, t ≤ t' → clock .slave_1 t ≤ clock .slave_1 t'

/-- What the data log holds. -/
structure Logged (clock : Host → Nat → Int) (s : State) : Prop where
  inOrder : InOrder clock s.time (s.rtts.flatMap readings)
  offset : ∀ θ, Ahead clock θ → ∀ r ∈ s.rtts,
    r.msg.reply_nsec_end.toInt - r.req_nsec_end.toInt ≤ θ ∧
      θ ≤ r.msg.reply_nsec_start.toInt - r.msg.req_nsec_start.toInt
  lines : (s.rtts.foldl SyncRun.step .init).logFile = SyncRun.init.logFile ++ s.rtts.map logLine

/-- Where the two are, and what is on its way. -/
structure Stands (s : State) (one : Slave1) (two : Slave2) (requests replies : List TSC_msg) :
    Prop where
  one : s.one = one
  two : s.two = two
  requests : s.requests = requests
  replies : s.replies = replies

/-- `k` of `n` round trips are left; the clocks have also been read for the
present one. -/
structure Left (clock : Host → Nat → Int) (n : Nat) (s : State) (k : Nat)
    (present : List (Host × Int)) : Prop where
  length : s.rtts.length + k = n
  inOrder : InOrder clock s.time (s.rtts.flatMap readings ++ present)

/-- The phases of the session, and how many statements are left in each. -/
inductive At (clock : Host → Nat → Int) (n : Nat) (s : State) : Nat → Prop
  | head {k : Nat} (h : Stands s .head .recv [] []) (hk : Left clock n s k []) :
      At clock n s (11 * k + 5)
  | stamp {k : Nat} (h : Stands s .stamp .recv [] []) (hk : Left clock n s (k + 1) []) :
      At clock n s (11 * k + 15)
  | send {k : Nat} (h : Stands s .send .recv [] [])
      (hk : Left clock n s (k + 1) [(.slave_1, s.m.req_nsec_start.toInt)])
      (hm : s.m.req_nsec_start ≠ 0) : At clock n s (11 * k + 14)
  | request {k : Nat} {m : TSC_msg} (h : Stands s .recv .recv [m] [])
      (hk : Left clock n s (k + 1) [(.slave_1, m.req_nsec_start.toInt)])
      (hm : m.req_nsec_start ≠ 0) : At clock n s (11 * k + 13)
  | received {k : Nat} {m : TSC_msg} (h : Stands s .recv (.stamp m) [] [])
      (hk : Left clock n s (k + 1) [(.slave_1, m.req_nsec_start.toInt)])
      (hm : m.req_nsec_start ≠ 0) : At clock n s (11 * k + 12)
  | test {k : Nat} {m : TSC_msg} {ns : Int64} (h : Stands s .recv (.test m ns) [] [])
      (hk : Left clock n s (k + 1) [(.slave_1, m.req_nsec_start.toInt), (.slave_2, ns.toInt)])
      (hm : m.req_nsec_start ≠ 0) : At clock n s (11 * k + 11)
  | answer {k : Nat} {m : TSC_msg} (h : Stands s .recv (.stop m) [] [])
      (hk : Left clock n s (k + 1)
        [(.slave_1, m.req_nsec_start.toInt), (.slave_2, m.reply_nsec_start.toInt)]) :
      At clock n s (11 * k + 10)
  | reply {k : Nat} {m : TSC_msg} (h : Stands s .recv (.send m) [] [])
      (hk : Left clock n s (k + 1) (readings ⟨m, 0, 0⟩).dropLast) : At clock n s (11 * k + 9)
  | back {k : Nat} {m : TSC_msg} (h : Stands s .recv .recv [] [m])
      (hk : Left clock n s (k + 1) (readings ⟨m, 0, 0⟩).dropLast) : At clock n s (11 * k + 8)
  | stop {k : Nat} {m : TSC_msg} (h : Stands s (.stop m) .recv [] [])
      (hk : Left clock n s (k + 1) (readings ⟨m, 0, 0⟩).dropLast) : At clock n s (11 * k + 7)
  | log {k : Nat} {m : TSC_msg} {ns : Int64} (h : Stands s (.log m ns) .recv [] [])
      (hk : Left clock n s (k + 1) (readings ⟨m, ns, 0⟩)) : At clock n s (11 * k + 6)
  | shutdown (h : Stands s .shutdown .recv [] []) (hk : Left clock n s 0 []) : At clock n s 4
  | goodbye {m : TSC_msg} (h : Stands s .done .recv [m] []) (hk : Left clock n s 0 [])
      (hm : m.req_nsec_start = 0) : At clock n s 3
  | told {m : TSC_msg} (h : Stands s .done (.stamp m) [] []) (hk : Left clock n s 0 [])
      (hm : m.req_nsec_start = 0) : At clock n s 2
  | ends {m : TSC_msg} {ns : Int64} (h : Stands s .done (.test m ns) [] [])
      (hk : Left clock n s 0 []) (hm : m.req_nsec_start = 0) : At clock n s 1
  | finished (h : Stands s .done .done [] []) (hk : Left clock n s 0 []) : At clock n s 0

section Invariant

variable {clock : Host → Nat → Int} {n k left : Nat} {nr_iter : Int} {s s' : State} {l : Label}
  {one : Slave1} {two : Slave2} {requests replies : List TSC_msg} {present : List (Host × Int)}
  {host : Host} {now : Int64} {m : TSC_msg}

theorem at_init (m : TSC_msg) : At clock n (init m) (11 * n + 5) :=
  .head ⟨rfl, rfl, rfl, rfl⟩ ⟨Nat.zero_add n, .nil 0⟩

/-- A clock is read. -/
theorem Left.read {present' : List (Host × Int)} {x : Int} (h : Left clock n s k present)
    (hrtts : s'.rtts = s.rtts) (htime : s'.time = s.time) (hx : x = clock host s.time)
    (hpresent : present' = present ++ [(host, x)]) : Left clock n s' k present' where
  length := hrtts ▸ h.length
  inOrder := by
    rw [hrtts, htime, hpresent, ← List.append_assoc]
    exact .read h.inOrder le_rfl le_rfl hx

theorem Left.congr (h : Left clock n s k present) (hrtts : s'.rtts = s.rtts)
    (htime : s.time ≤ s'.time) : Left clock n s' k present where
  length := hrtts ▸ h.length
  inOrder := hrtts ▸ h.inOrder.mono htime

theorem At.tick (h : At clock n s left) : At clock n { s with time := s.time + 1 } left := by
  have hstands {one : Slave1} {two : Slave2} {requests replies : List TSC_msg}
      (h : Stands s one two requests replies) :
      Stands { s with time := s.time + 1 } one two requests replies :=
    ⟨h.one, h.two, h.requests, h.replies⟩
  have hleft {k : Nat} {present : List (Host × Int)} (h : Left clock n s k present) :
      Left clock n { s with time := s.time + 1 } k present := h.congr rfl (Nat.le_succ _)
  cases h with
  | head h hk => exact .head (hstands h) (hleft hk)
  | stamp h hk => exact .stamp (hstands h) (hleft hk)
  | send h hk hm => exact .send (hstands h) (hleft hk) hm
  | request h hk hm => exact .request (hstands h) (hleft hk) hm
  | received h hk hm => exact .received (hstands h) (hleft hk) hm
  | test h hk hm => exact .test (hstands h) (hleft hk) hm
  | answer h hk => exact .answer (hstands h) (hleft hk)
  | reply h hk => exact .reply (hstands h) (hleft hk)
  | back h hk => exact .back (hstands h) (hleft hk)
  | stop h hk => exact .stop (hstands h) (hleft hk)
  | log h hk => exact .log (hstands h) (hleft hk)
  | shutdown h hk => exact .shutdown (hstands h) (hleft hk)
  | goodbye h hk hm => exact .goodbye (hstands h) (hleft hk) hm
  | told h hk hm => exact .told (hstands h) (hleft hk) hm
  | ends h hk hm => exact .ends (hstands h) (hleft hk) hm
  | finished h hk => exact .finished (hstands h) (hleft hk)

/-- A statement of `tsc_slave_1`. -/
theorem At.next1 (h : At clock nr_iter.toNat s left) (hok : Clocked clock s (.run .slave_1 now))
    (hs : s.next1 nr_iter now = some s') :
    ∃ left', At clock nr_iter.toNat s' left' ∧ left' + 1 = left := by
  unfold State.next1 at hs
  simp only [Clocked, State.readsNsec] at hok
  cases h with
  | @head k h hk =>
      simp only [h.one] at hs
      have hlen := hk.length
      split at hs
      · next hlt =>
        cases hs
        obtain ⟨k, rfl⟩ : ∃ k', k = k' + 1 := ⟨k - 1, by omega⟩
        exact ⟨_, .stamp ⟨rfl, h.two, h.requests, h.replies⟩ (hk.congr rfl le_rfl), by omega⟩
      · next hge =>
        cases hs
        obtain rfl : k = 0 := by omega
        exact ⟨_, .shutdown ⟨rfl, h.two, h.requests, h.replies⟩ (hk.congr rfl le_rfl), rfl⟩
  | stamp h hk =>
      simp only [h.one] at hs hok
      cases hs
      obtain ⟨hnow, hne⟩ := hok trivial
      exact ⟨_, .send ⟨rfl, h.two, h.requests, h.replies⟩ (hk.read rfl rfl hnow rfl) hne, rfl⟩
  | send h hk hm =>
      simp only [h.one] at hs
      cases hs
      exact ⟨_, .request ⟨rfl, h.two, by rw [h.requests]; rfl, h.replies⟩ (hk.congr rfl le_rfl) hm,
        rfl⟩
  | back h hk =>
      simp only [h.one, h.replies] at hs
      cases hs
      exact ⟨_, .stop ⟨rfl, h.two, h.requests, rfl⟩ (hk.congr rfl le_rfl), rfl⟩
  | stop h hk =>
      simp only [h.one] at hs hok
      cases hs
      obtain ⟨hnow, -⟩ := hok trivial
      exact ⟨_, .log ⟨rfl, h.two, h.requests, h.replies⟩ (hk.read rfl rfl hnow rfl), rfl⟩
  | log h hk =>
      simp only [h.one] at hs
      cases hs
      refine ⟨_, .head ⟨rfl, h.two, h.requests, h.replies⟩ ⟨?_, ?_⟩, rfl⟩
      · have hlen := hk.length
        rw [List.length_append, List.length_singleton]
        omega
      · rw [List.flatMap_append, List.flatMap_singleton, List.append_nil]
        exact hk.inOrder
  | shutdown h hk =>
      simp only [h.one] at hs
      cases hs
      exact ⟨_, .goodbye ⟨rfl, h.two, by rw [h.requests]; rfl, h.replies⟩ (hk.congr rfl le_rfl) rfl,
        rfl⟩
  | request h | received h | test h | answer h | reply h =>
      simp [h.one, h.replies] at hs
  | goodbye h | told h | ends h | finished h => simp [h.one] at hs

/-- A statement of `tsc_slave_2`. -/
theorem At.next2 (h : At clock n s left) (hok : Clocked clock s (.run .slave_2 now))
    (hs : s.next2 now = some s') : ∃ left', At clock n s' left' ∧ left' + 1 = left := by
  unfold State.next2 at hs
  simp only [Clocked, State.readsNsec] at hok
  cases h with
  | request h hk hm =>
      simp only [h.two, h.requests] at hs
      cases hs
      exact ⟨_, .received ⟨h.one, rfl, rfl, h.replies⟩ (hk.congr rfl le_rfl) hm, rfl⟩
  | received h hk hm =>
      simp only [h.two] at hs hok
      cases hs
      obtain ⟨hnow, -⟩ := hok trivial
      exact ⟨_, .test ⟨h.one, rfl, h.requests, h.replies⟩ (hk.read rfl rfl hnow rfl) hm, rfl⟩
  | test h hk hm =>
      simp only [h.two, if_neg hm] at hs
      cases hs
      exact ⟨_, .answer ⟨h.one, rfl, h.requests, h.replies⟩ (hk.congr rfl le_rfl), rfl⟩
  | answer h hk =>
      simp only [h.two] at hs hok
      cases hs
      obtain ⟨hnow, -⟩ := hok trivial
      exact ⟨_, .reply ⟨h.one, rfl, h.requests, h.replies⟩ (hk.read rfl rfl hnow rfl), rfl⟩
  | reply h hk =>
      simp only [h.two] at hs
      cases hs
      exact ⟨_, .back ⟨h.one, rfl, h.requests, by rw [h.replies]; rfl⟩ (hk.congr rfl le_rfl), rfl⟩
  | goodbye h hk hm =>
      simp only [h.two, h.requests] at hs
      cases hs
      exact ⟨_, .told ⟨h.one, rfl, rfl, h.replies⟩ (hk.congr rfl le_rfl) hm, rfl⟩
  | told h hk hm =>
      simp only [h.two] at hs
      cases hs
      exact ⟨_, .ends ⟨h.one, rfl, h.requests, h.replies⟩ (hk.congr rfl le_rfl) hm, rfl⟩
  | ends h hk hm =>
      simp only [h.two, if_pos hm] at hs
      cases hs
      exact ⟨_, .finished ⟨h.one, rfl, h.requests, h.replies⟩ (hk.congr rfl le_rfl), rfl⟩
  | head h | stamp h | send h | back h | stop h | log h | shutdown h =>
      simp [h.two, h.requests] at hs
  | finished h => simp [h.two] at hs

theorem At.step (h : At clock nr_iter.toNat s left) (hok : Clocked clock s l)
    (hs : step nr_iter s l = some s') :
    ∃ left', At clock nr_iter.toNat s' left' ∧ left' + (if l.isStatement then 1 else 0) = left := by
  cases l with
  | run host now =>
      cases host with
      | slave_1 => exact h.next1 hok hs
      | slave_2 => exact h.next2 hok hs
  | tick =>
      obtain rfl := Option.some.inj hs
      exact ⟨left, h.tick, rfl⟩

/-- Every statement is accounted for. -/
theorem at_trace {tr : List (State × Label)}
    (h : Trace (step nr_iter) (init m) (Clocked clock) tr s) :
    ∃ left, At clock nr_iter.toNat s left ∧
      tr.countP (·.2.isStatement) + left = 11 * nr_iter.toNat + 5 := by
  induction h with
  | init => exact ⟨_, at_init m, Nat.zero_add _⟩
  | @step tr s s' l _ hok hs ih =>
      obtain ⟨left, hat, hcount⟩ := ih
      obtain ⟨left', hat', hleft⟩ := hat.step hok hs
      refine ⟨left', hat', ?_⟩
      rw [List.countP_append, List.countP_singleton]
      dsimp only
      omega

theorem At.inOrder (h : At clock n s left) :
    InOrder clock s.time (s.rtts.flatMap readings) := by
  have hleft {k : Nat} {present : List (Host × Int)} (hk : Left clock n s k present) :
      InOrder clock s.time (s.rtts.flatMap readings) :=
    hk.inOrder.sublist (List.sublist_append_left ..)
  cases h <;> exact hleft ‹_›

/-- The peer ends last. -/
theorem At.done_iff (h : At clock n s left) : s.two = .done ↔ left = 0 := by
  cases h with
  | finished h => simp [h.two]
  | head h | stamp h | send h | request h | received h | test h | answer h | reply h | back h
  | stop h | log h | shutdown h | goodbye h | told h | ends h => simp [h.two]

theorem At.ended (h : At clock n s 0) : s.one = .done ∧ s.rtts.length = n := by
  generalize hleft : 0 = left at h
  cases h with
  | finished h hk => exact ⟨h.one, hk.length⟩
  | head | stamp | send | request | received | test | answer | reply | back | stop | log
  | shutdown | goodbye | told | ends => omega

/-- Until then one of the two can go on. -/
theorem At.goes_on (h : At clock n s left) (hleft : left ≠ 0) :
    ∃ host, ∀ now, (Sync.step nr_iter s (.run host now)).isSome := by
  cases h with
  | head h =>
      refine ⟨.slave_1, fun now => ?_⟩
      simp only [Sync.step, State.next1, h.one]
      split <;> rfl
  | stamp h | send h | stop h | log h | shutdown h =>
      exact ⟨.slave_1, fun now => by simp [Sync.step, State.next1, h.one]⟩
  | back h => exact ⟨.slave_1, fun now => by simp [Sync.step, State.next1, h.one, h.replies]⟩
  | request h | goodbye h =>
      exact ⟨.slave_2, fun now => by simp [Sync.step, State.next2, h.two, h.requests]⟩
  | received h | test h | answer h | reply h | told h | ends h =>
      exact ⟨.slave_2, fun now => by simp [Sync.step, State.next2, h.two]⟩
  | finished h => exact absurd rfl hleft

/-- A round trip brackets how far the clock of the peer is ahead. -/
theorem offset_of_inOrder {r : RoundTrip} {t : Nat} {θ : Int} (hahead : Ahead clock θ)
    (h : InOrder clock t (readings r)) :
    r.msg.reply_nsec_end.toInt - r.req_nsec_end.toInt ≤ θ ∧
      θ ≤ r.msg.reply_nsec_start.toInt - r.msg.req_nsec_start.toInt := by
  obtain ⟨t₁, t₂, h₁₂, hx, hy⟩ := (h.sublist (List.take_sublist 2 (readings r))).pair
  obtain ⟨t₃, t₄, h₃₄, hz, hw⟩ := (h.sublist (List.drop_sublist 2 (readings r))).pair
  have hreq := hahead.mono h₁₂
  have hreply := hahead.mono h₃₄
  rw [hx, hy, hz, hw, hahead.eq, hahead.eq]
  omega

/-- The lines of the data log behind its first one. -/
theorem logFile_eq (rtts : List RoundTrip) :
    (rtts.foldl SyncRun.step .init).logFile = SyncRun.init.logFile ++ rtts.map logLine := by
  induction rtts using List.reverseRecOn with
  | nil => rfl
  | append_singleton rtts r ih =>
      rw [List.foldl_append, List.map_append, ← List.append_assoc, ← ih]
      rfl

end Invariant

/-- **A synchronous run**, however the two programs are interleaved: every line
of the data log has four readings of the two clocks, made in the order of its
columns and after those of the lines above, and so brackets how far the clock
of the peer is ahead; the peer ends with the last round trip and not before;
and the run goes on until it has taken `11 * nr_iter + 5` statements, when both
have ended. -/
theorem sync_session {clock : Host → Nat → Int} {nr_iter : Int} {m : TSC_msg} {s : State}
    {tr : List (State × Label)} (h : Trace (step nr_iter) (init m) (Clocked clock) tr s) :
    Logged clock s ∧
      (s.two = .done → s.one = .done ∧ s.rtts.length = nr_iter.toNat) ∧
      (s.two = .done ↔ tr.countP (·.2.isStatement) = 11 * nr_iter.toNat + 5) ∧
      (s.two = .done ∨ ∃ host, ∀ now, (step nr_iter s (.run host now)).isSome) := by
  obtain ⟨left, hat, hcount⟩ := at_trace h
  have hdone := hat.done_iff
  refine ⟨⟨hat.inOrder, fun θ hahead r hr => ?_, logFile_eq s.rtts⟩, fun h => ?_, ?_, ?_⟩
  · refine offset_of_inOrder hahead (hat.inOrder.sublist ?_)
    exact List.sublist_flatten_of_mem (List.mem_map_of_mem hr)
  · obtain rfl := hdone.mp h
    exact hat.ended
  · rw [hdone]
    omega
  · by_cases hleft : left = 0
    · exact .inl (hdone.mpr hleft)
    · exact .inr (hat.goes_on hleft)

/-- A reading of the clock. -/
def nsecAt : Host → Nat → Int
  | .slave_1, t => t + 1
  | .slave_2, t => t + 501

/-- One round trip, on a peer whose clock is 500 ns ahead. -/
theorem sync_session_one : ∃ tr, ∃ s : State,
    Trace (step 1) (init ⟨0, 0, 0, 0, 0⟩) (Clocked nsecAt) tr s ∧ s.one = .done ∧
      s.rtts.length = 1 ∧ tr.countP (·.2.isStatement) = 16 ∧ Logged nsecAt s := by
  obtain ⟨tr, s, ht, hs⟩ : ∃ tr, ∃ s : State,
      Trace (step 1) (init ⟨0, 0, 0, 0, 0⟩) (Clocked nsecAt) tr s ∧ decide (s.two = .done) = true :=
    Trace.of_exec_any
      [.run .slave_1 7, .run .slave_1 1, .run .slave_1 0, .tick, .run .slave_2 0,
        .run .slave_2 502, .run .slave_2 8, .tick, .run .slave_2 503, .run .slave_2 0,
        .run .slave_1 0, .tick, .run .slave_1 4, .run .slave_1 9, .run .slave_1 0,
        .run .slave_1 0, .run .slave_2 0, .run .slave_2 504, .run .slave_2 0]
      (fun _ (s : State) => decide (s.two = .done)) (by decide +kernel)
  obtain ⟨hlog, hends, hcount, -⟩ := sync_session ht
  have hdone := of_decide_eq_true hs
  obtain ⟨hone, hlen⟩ := hends hdone
  exact ⟨tr, s, ht, hone, hlen, hcount.mp hdone, hlog⟩

end CloudProfiler.Tsc.Sync
