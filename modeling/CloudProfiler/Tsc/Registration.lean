import CloudProfiler.Dict
import CloudProfiler.Loop
import CloudProfiler.Tsc.Master

/-!
# CloudProfiler.Tsc.Registration

`slave_registration` (`tsc_master.cpp`): every slave gets a port, the first one
that is free for its IP.

Whether a port is free is looked up under the text `ip:port`.  The IP is what
the slave sent, so it may be any text; the port is what follows the last colon.

* `slave_registration` — the loop over the requests;
* `Seated` — the map after some requests, kept by every one of them;
* `slave_registration_spec` — what the slaves are answered.
-/

namespace CloudProfiler.Tsc

/-! ## the source -/

/-- The message `MSG_register_request`, after the identity of its sender;
`from_ip` is what comes before the terminating zero. -/
structure MSG_register_request where
  identity : List UInt8
  from_ip : List Char
  tsc_freq : Int64
deriving DecidableEq

/-- The tuple kept for a slave.  Its socket is `NULL`. -/
structure SlaveTuple where
  ip : List Char
  port : Int32
  tsc_freq : Int64
deriving DecidableEq

/-- The text `slave_id`. -/
def slaveId (cur_ip : List Char) (cur_port : Int32) : List Char :=
  cur_ip ++ ':' :: intText cur_port.toInt

/-- The body of the search, on `availablePortFrom` and `cur_port`. -/
def probePort (slaves : Dict (List Char) SlaveTuple) (cur_ip : List Char) (s : Int32 × Int32) :
    (Int32 × Int32) × Bool :=
  ((s.1 + 1, s.1), (slaves.get? (slaveId cur_ip s.1)).isNone)

/-- The map, the ports sent to the slaves, and the lines of the log. -/
structure Registry where
  msg_ctr : Int32
  slaves : Dict (List Char) SlaveTuple
  replies : List (List UInt8 × Int32)
  ofs_reg : List (List Char)

/-- `slaves` and the log are empty. -/
def Registry.init : Registry := ⟨0, Dict.empty, [], []⟩

/-- One iteration of the loop: the search may take `fuel` steps.  `insert`
does not replace an entry. -/
def Registry.handle (fuel : Nat) (st : Registry) (mrr : MSG_register_request) : Option Registry :=
  (loop (probePort st.slaves mrr.from_ip) fuel (Int32.ofInt tsc_command_default_port, 0)).map
    fun ports =>
      let slave_id := slaveId mrr.from_ip ports.2
      { msg_ctr := st.msg_ctr + 1
        slaves :=
          if (st.slaves.get? slave_id).isSome then st.slaves
          else st.slaves.set slave_id ⟨mrr.from_ip, ports.2, mrr.tsc_freq⟩
        replies := st.replies ++ [(mrr.identity, ports.2)]
        ofs_reg := st.ofs_reg ++ [slave_id ++ ',' :: intText mrr.tsc_freq.toInt] }

/-- The loop of `slave_registration` over the requests that arrive.  There is
no result if there are too few of them, or if a search does not end. -/
def slave_registration (fuel : Nat) (nr_slaves : Int32) :
    List MSG_register_request → Registry → Option Registry
  | [], st => if st.msg_ctr < nr_slaves then none else some st
  | mrr :: reqs, st =>
      if st.msg_ctr < nr_slaves then
        (st.handle fuel mrr).bind (slave_registration fuel nr_slaves reqs)
      else some st

/-! ## the answers -/

/-- The number of requests that carry an IP. -/
def countIp (reqs : List MSG_register_request) (ip : List Char) : Nat :=
  reqs.countP (·.from_ip = ip)

/-- Every port that is tried is an `int`. -/
def PortsInRange (reqs : List MSG_register_request) : Prop :=
  ∀ r ∈ reqs, tsc_command_default_port + countIp reqs r.from_ip < 2 ^ 31

instance (reqs : List MSG_register_request) : Decidable (PortsInRange reqs) :=
  inferInstanceAs (Decidable (∀ r ∈ reqs, _))

/-- **The slaves are registered.**  The ports of an IP are given out in order,
no two slaves have the same identifier, and the map has one entry for each
request. -/
structure Registered (reqs : List MSG_register_request) (st : Registry) : Prop where
  answer : ∀ before r after, reqs = before ++ r :: after → ∃ port : Int32,
    port.toInt = tsc_command_default_port + countIp before r.from_ip ∧
      st.replies[before.length]? = some (r.identity, port) ∧
      st.slaves.get? (slaveId r.from_ip port) = some ⟨r.from_ip, port, r.tsc_freq⟩ ∧
      st.ofs_reg[before.length]? = some (slaveId r.from_ip port ++ ',' :: intText r.tsc_freq.toInt)
  length : st.replies.length = reqs.length
  unique : ((reqs.zip st.replies).map fun p => slaveId p.1.from_ip p.2.2).Nodup
  size : st.slaves.items.length = reqs.length

/-! ## identifiers -/

/-- What follows the last colon is the port. -/
theorem slaveId_injective {ip ip' : List Char} {port port' : Int32}
    (h : slaveId ip port = slaveId ip' port') : ip = ip' ∧ port = port' := by
  have hcolon (z : Int) : ':' ∉ (intText z).reverse := fun h =>
    not_mem_intText (by decide) (by decide) (List.mem_reverse.mp h)
  have hsplit := congrArg (fun l : List Char => l.reverse.splitOn ':') h
  simp only [slaveId, List.reverse_append, List.reverse_cons, List.append_assoc,
    List.singleton_append, List.splitOn_append_cons_self_of_not_mem (hcolon _),
    List.cons.injEq] at hsplit
  have hport := intText_injective (List.reverse_injective hsplit.1)
  have hboth : port = port' := Int32.toInt_inj.mp hport
  refine ⟨?_, hboth⟩
  rw [hboth] at h
  exact List.append_cancel_right h

/-- The port after `n` slaves of an IP. -/
def nextPort (n : Nat) : Int32 := Int32.ofInt (tsc_command_default_port + n)

theorem toInt_nextPort {n : Nat} (h : tsc_command_default_port + n < 2 ^ 31) :
    (nextPort n).toInt = tsc_command_default_port + n :=
  Int32.toInt_ofInt_of_le (by simp only [tsc_command_default_port]; omega) h

theorem nextPort_succ (n : Nat) : nextPort n + 1 = nextPort (n + 1) := by
  rw [nextPort, nextPort, Int.natCast_succ, ← Int.add_assoc, Int32.ofInt_add _ 1]
  rfl

/-- Different numbers of slaves have different ports. -/
theorem nextPort_ne {k n : Nat} (hk : k < n) (hn : tsc_command_default_port + n < 2 ^ 31) :
    nextPort k ≠ nextPort n := by
  intro h
  have hint := congrArg Int32.toInt h
  rw [toInt_nextPort (by omega), toInt_nextPort hn] at hint
  omega

/-! ## the map -/

/-- The tuple of the next slave. -/
def nextTuple (before : List MSG_register_request) (r : MSG_register_request) : SlaveTuple :=
  ⟨r.from_ip, nextPort (countIp before r.from_ip), r.tsc_freq⟩

/-- The tuples of some requests, after earlier ones. -/
def tuples (before : List MSG_register_request) : List MSG_register_request → List SlaveTuple
  | [] => []
  | r :: reqs => nextTuple before r :: tuples (before ++ [r]) reqs

theorem tuples_append (before reqs reqs' : List MSG_register_request) :
    tuples before (reqs ++ reqs') = tuples before reqs ++ tuples (before ++ reqs) reqs' := by
  induction reqs generalizing before with
  | nil => rw [List.nil_append, tuples, List.nil_append, List.append_nil]
  | cons r reqs ih =>
      rw [List.cons_append, tuples, tuples, ih, List.append_assoc, List.singleton_append,
        List.cons_append]

theorem length_tuples (before reqs : List MSG_register_request) :
    (tuples before reqs).length = reqs.length := by
  induction reqs generalizing before with
  | nil => rfl
  | cons r reqs ih => rw [tuples, List.length_cons, List.length_cons, ih]

/-- **The ports of an IP are contiguous.** -/
theorem exists_tuple_iff (before reqs : List MSG_register_request) (ip : List Char)
    (port : Int32) :
    (∃ t ∈ tuples before reqs, t.ip = ip ∧ t.port = port) ↔
      ∃ k, countIp before ip ≤ k ∧ k < countIp (before ++ reqs) ip ∧ port = nextPort k := by
  induction reqs generalizing before with
  | nil =>
      rw [List.append_nil]
      constructor
      · rintro ⟨t, ht, -⟩
        cases ht
      · rintro ⟨k, hle, hlt, -⟩
        omega
  | cons r reqs ih =>
      have hcount : countIp (before ++ [r]) ip =
          countIp before ip + if r.from_ip = ip then 1 else 0 := by
        simp [countIp, List.countP_append, List.countP_singleton]
      have hmono : countIp (before ++ [r]) ip ≤ countIp (before ++ r :: reqs) ip := by
        rw [show before ++ r :: reqs = before ++ [r] ++ reqs by simp]
        exact (List.sublist_append_left _ _).countP_le
      have hrest := ih (before ++ [r])
      rw [List.append_assoc, List.singleton_append] at hrest
      rw [tuples]
      simp only [List.mem_cons, exists_eq_or_imp, hrest]
      by_cases hip : r.from_ip = ip
      · rw [if_pos hip] at hcount
        subst hip
        constructor
        · rintro (⟨-, hport⟩ | ⟨k, hle, hlt, hport⟩)
          · exact ⟨countIp before r.from_ip, le_rfl, by omega, hport.symm⟩
          · exact ⟨k, by omega, hlt, hport⟩
        · rintro ⟨k, hle, hlt, hport⟩
          obtain heq | hgt := Nat.eq_or_lt_of_le hle
          · exact .inl ⟨rfl, by rw [hport, ← heq]; rfl⟩
          · exact .inr ⟨k, by omega, hlt, hport⟩
      · rw [if_neg hip, Nat.add_zero] at hcount
        rw [hcount]
        exact or_iff_right fun h => hip h.1

/-- What the loop has made of the requests so far. -/
structure Seated (done : List MSG_register_request) (st : Registry) : Prop where
  msg_ctr : st.msg_ctr.toInt = done.length
  items : st.slaves.items = (tuples [] done).map fun t => (slaveId t.ip t.port, t)
  replies : st.replies = (done.zip (tuples [] done)).map fun p => (p.1.identity, p.2.port)
  ofs_reg : st.ofs_reg =
    (tuples [] done).map fun t => slaveId t.ip t.port ++ ',' :: intText t.tsc_freq.toInt

theorem seated_init : Seated [] .init := ⟨rfl, rfl, rfl, rfl⟩

variable {done reqs : List MSG_register_request} {st : Registry} {r : MSG_register_request}
  {fuel : Nat}

/-- A port is taken if and only if it is one of the first ones. -/
theorem Seated.mem_keys_iff (h : Seated done st) (ip : List Char) (port : Int32) :
    slaveId ip port ∈ st.slaves.keys ↔ ∃ k < countIp done ip, port = nextPort k := by
  have hports := exists_tuple_iff [] done ip port
  simp only [countIp, List.countP_nil, Nat.zero_le, true_and, List.nil_append] at hports
  rw [countIp, ← hports, Dict.keys, h.items, List.map_map, List.mem_map]
  refine exists_congr fun t => and_congr_right fun _ => ⟨fun hid => slaveId_injective hid, ?_⟩
  rintro ⟨rfl, rfl⟩
  rfl

/-- **The search ends** at the first free port. -/
theorem loop_probePort {slaves : Dict (List Char) SlaveTuple} {ip : List Char} {n : Nat}
    (htaken : ∀ k < n, slaveId ip (nextPort k) ∈ slaves.keys)
    (hfree : slaveId ip (nextPort n) ∉ slaves.keys) {k : Nat} (hk : k ≤ n) (hfuel : n - k < fuel)
    (port : Int32) :
    loop (probePort slaves ip) fuel (nextPort k, port) = some (nextPort (n + 1), nextPort n) := by
  induction fuel generalizing k port with
  | zero => omega
  | succ fuel ih =>
      rw [loop, probePort]
      dsimp only
      rw [nextPort_succ]
      obtain rfl | hlt := Nat.eq_or_lt_of_le hk
      · rw [Dict.get?_eq_none.mpr hfree, if_pos Option.isNone_none]
      · have hsome : (slaves.get? (slaveId ip (nextPort k))).isNone = false := by
          rw [Option.isNone_eq_false_iff, Option.isSome_iff_ne_none]
          exact fun hnone => Dict.get?_eq_none.mp hnone (htaken k hlt)
        rw [hsome, if_neg Bool.false_ne_true]
        exact ih (by omega) (by omega) (nextPort k)

/-- One request is answered with the next port of its IP. -/
theorem Seated.handle (h : Seated done st) (hfuel : done.length < fuel)
    (hctr : (done.length : Int) + 1 < 2 ^ 31)
    (hport : tsc_command_default_port + (countIp done r.from_ip + 1) < 2 ^ 31) :
    ∃ st', st.handle fuel r = some st' ∧ Seated (done ++ [r]) st' := by
  have hn : tsc_command_default_port + (countIp done r.from_ip : Int) < 2 ^ 31 := by omega
  have hfree : slaveId r.from_ip (nextPort (countIp done r.from_ip)) ∉ st.slaves.keys := by
    rw [h.mem_keys_iff]
    rintro ⟨k, hk, heq⟩
    exact nextPort_ne hk hn heq.symm
  have hshort : countIp done r.from_ip < fuel := lt_of_le_of_lt List.countP_le_length hfuel
  have hloop := loop_probePort
    (fun k hk => (h.mem_keys_iff r.from_ip (nextPort k)).mpr ⟨k, hk, rfl⟩) hfree (Nat.zero_le _)
    hshort 0
  have htuples : tuples [] (done ++ [r]) = tuples [] done ++ [nextTuple done r] :=
    tuples_append [] done [r]
  have hstart : Int32.ofInt tsc_command_default_port = nextPort 0 := rfl
  refine ⟨_, by rw [Registry.handle, hstart, hloop, Option.map_some], ?_, ?_, ?_, ?_⟩
  · have hone : (1 : Int32).toInt = 1 := rfl
    show (st.msg_ctr + 1).toInt = _
    rw [Int32.toInt_add, h.msg_ctr, hone, Int.bmod_eq_of_le (by omega) (by omega),
      List.length_append, List.length_singleton, Int.natCast_succ]
  · show (if _ then _ else _ : Dict _ _).items = _
    rw [Dict.get?_eq_none.mpr hfree, Option.isSome_none, if_neg Bool.false_ne_true,
      Dict.items_set_of_not_mem hfree, h.items, htuples, List.map_append]
    rfl
  · show st.replies ++ _ = _
    rw [h.replies, htuples, List.zip_append (length_tuples [] done).symm, List.map_append]
    rfl
  · show st.ofs_reg ++ _ = _
    rw [h.ofs_reg, htuples, List.map_append]
    rfl

/-- All requests are answered; what arrives later is not received. -/
theorem slave_registration_seated {nr_slaves : Int32} {done : List MSG_register_request}
    {st : Registry} (h : Seated done st) (later : List MSG_register_request)
    (hnr : nr_slaves.toInt.toNat = (done ++ reqs).length) (hfuel : (done ++ reqs).length ≤ fuel)
    (hports : PortsInRange (done ++ reqs)) :
    ∃ st', slave_registration fuel nr_slaves (reqs ++ later) st = some st' ∧
      Seated (done ++ reqs) st' := by
  induction reqs generalizing done st with
  | nil =>
      rw [List.append_nil] at hnr ⊢
      have hstop : ¬ st.msg_ctr < nr_slaves := by
        rw [Int32.lt_iff_toInt_lt, h.msg_ctr]
        omega
      refine ⟨st, ?_, h⟩
      rw [List.nil_append]
      cases later with
      | nil => rw [slave_registration, if_neg hstop]
      | cons r later => rw [slave_registration, if_neg hstop]
  | cons r reqs ih =>
      have hsplit : done ++ r :: reqs = done ++ [r] ++ reqs := by simp
      rw [List.length_append, List.length_cons] at hnr hfuel
      have hbound : nr_slaves.toInt < 2 ^ 31 := Int32.toInt_lt nr_slaves
      have hgo : st.msg_ctr < nr_slaves := by
        rw [Int32.lt_iff_toInt_lt, h.msg_ctr]
        omega
      have hcount : countIp done r.from_ip + 1 ≤ countIp (done ++ r :: reqs) r.from_ip := by
        simp [countIp, List.countP_append]
      have hport : tsc_command_default_port + (countIp done r.from_ip + 1) < 2 ^ 31 := by
        have := hports r (by simp)
        omega
      have hshort : done.length < fuel := by omega
      obtain ⟨st₁, hhandle, hst₁⟩ := h.handle hshort (by omega) hport
      rw [hsplit] at hports ⊢
      have hlen : (done ++ [r] ++ reqs).length = done.length + (reqs.length + 1) := by
        rw [← hsplit, List.length_append, List.length_cons]
      obtain ⟨st₂, hrun, hst₂⟩ := ih hst₁ (by rw [hlen, hnr]) (by rw [hlen]; exact hfuel) hports
      refine ⟨st₂, ?_, hst₂⟩
      rw [List.cons_append, slave_registration, if_pos hgo, hhandle, Option.bind_some, hrun]

/-- The identifiers are the keys of the map. -/
theorem map_slaveId_zip (before reqs : List MSG_register_request) :
    (reqs.zip ((reqs.zip (tuples before reqs)).map fun p => (p.1.identity, p.2.port))).map
        (fun p => slaveId p.1.from_ip p.2.2) =
      (tuples before reqs).map fun t => slaveId t.ip t.port := by
  induction reqs generalizing before with
  | nil => rfl
  | cons r reqs ih =>
      rw [tuples, List.zip_cons_cons, List.map_cons, List.zip_cons_cons, List.map_cons, ih,
        List.map_cons]
      rfl

/-- What the state after all requests says of each of them. -/
theorem Seated.registered (h : Seated reqs st) (hports : PortsInRange reqs) :
    Registered reqs st := by
  have hlen := length_tuples [] reqs
  refine ⟨?_, ?_, ?_, ?_⟩
  · rintro before r after rfl
    have hcount : countIp before r.from_ip < countIp (before ++ r :: after) r.from_ip := by
      simp [countIp, List.countP_append]
    have hport := hports r (by simp)
    have htuples : tuples [] (before ++ r :: after) =
        tuples [] before ++ nextTuple before r :: tuples (before ++ [r]) after :=
      tuples_append [] _ _
    have hbefore := length_tuples [] before
    refine ⟨nextPort (countIp before r.from_ip), toInt_nextPort (by omega), ?_, ?_, ?_⟩
    · rw [h.replies, htuples, List.zip_append hbefore.symm, List.map_append,
        List.getElem?_append_right (by simp [hbefore])]
      simp [hbefore, nextTuple]
    · have hentry : (slaveId r.from_ip (nextPort (countIp before r.from_ip)), nextTuple before r) ∈
          st.slaves.items := by
        rw [h.items, htuples]
        exact List.mem_map.mpr ⟨nextTuple before r, by simp, rfl⟩
      exact Dict.get?_of_mem hentry
    · rw [h.ofs_reg, htuples, List.map_append, List.getElem?_append_right (by simp [hbefore])]
      simp [hbefore, nextTuple]
  · rw [h.replies, List.length_map, List.length_zip, hlen, Nat.min_self]
  · have hkeys := st.slaves.nodup
    rw [h.items, List.map_map] at hkeys
    rw [h.replies, map_slaveId_zip]
    exact hkeys
  · rw [h.items, List.length_map, hlen]

/-- **Registration**: after `nr_slaves` requests every slave has a port of its
own, the ports of an IP without a gap.  No search takes more steps than there
are slaves. -/
theorem slave_registration_spec (nr_slaves : Int32) (reqs later : List MSG_register_request)
    (hnr : nr_slaves.toInt.toNat = reqs.length) (hports : PortsInRange reqs) (fuel : Nat)
    (hfuel : reqs.length ≤ fuel) :
    ∃ st, slave_registration fuel nr_slaves (reqs ++ later) .init = some st ∧
      Registered reqs st := by
  obtain ⟨st, hrun, hst⟩ := slave_registration_seated seated_init later hnr hfuel hports
  exact ⟨st, hrun, hst.registered hports⟩

/-- Two slaves of one IP, and one whose IP contains a colon. -/
def threeSlaves : List MSG_register_request :=
  [⟨[0], ['a'], 1000⟩, ⟨[1], ['a', ':', '9'], 2000⟩, ⟨[2], ['a'], 3000⟩]

theorem slave_registration_three :
    ∃ st, slave_registration 3 3 (threeSlaves ++ []) .init = some st ∧ Registered threeSlaves st :=
  slave_registration_spec 3 threeSlaves [] (by decide) (by decide) 3 (by decide)

/-! ## the slaves of the protocol -/

section Protocol

variable {slaves : Slaves} {ip : Ipv4}

/-- The search of the protocol ends at the first free port, too. -/
theorem curPort_eq {n : Nat}
    (htaken : ∀ k < n, Slave.address ⟨ip, tsc_command_default_port + (k : Nat)⟩ ∈
      slaves.list.map Slave.address)
    (hfree : Slave.address ⟨ip, tsc_command_default_port + n⟩ ∉ slaves.list.map Slave.address)
    {fuel k : Nat} (hk : k ≤ n) (hfuel : n - k ≤ fuel) :
    slaves.curPort ip fuel (tsc_command_default_port + k) = tsc_command_default_port + n := by
  induction fuel generalizing k with
  | zero =>
      obtain rfl : k = n := by omega
      rfl
  | succ fuel ih =>
      rw [Slaves.curPort]
      obtain rfl | hlt := Nat.eq_or_lt_of_le hk
      · rw [Slaves.find_eq_none.mpr hfree, if_neg (by simp)]
      · have hsome :
            (slaves.find (Slave.address ⟨ip, tsc_command_default_port + k⟩)).isSome = true := by
          rw [Option.isSome_iff_ne_none]
          exact fun hnone => Slaves.find_eq_none.mp hnone (htaken k hlt)
        rw [if_pos hsome, Int.add_assoc]
        exact ih (k := k + 1) (by omega) (by omega)

theorem PortsInRange.of_append {reqs reqs' : List MSG_register_request}
    (h : PortsInRange (reqs ++ reqs')) : PortsInRange reqs := by
  intro r hr
  have hle : countIp reqs r.from_ip ≤ countIp (reqs ++ reqs') r.from_ip :=
    (List.sublist_append_left _ _).countP_le
  have hlt := h r (List.mem_append_left _ hr)
  omega

/-- The slaves of the protocol and the tuples are compared by IP and port. -/
theorem address_mem_iff {ts : List SlaveTuple}
    (h : slaves.list.map (fun s => (s.ip.chars, s.port)) = ts.map fun t => (t.ip, t.port.toInt))
    (ip : Ipv4) (q : Int) :
    Slave.address ⟨ip, q⟩ ∈ slaves.list.map Slave.address ↔
      ∃ t ∈ ts, t.ip = ip.chars ∧ t.port.toInt = q := by
  have hpair : Function.Injective fun s : Slave => (s.ip.chars, s.port) := by
    rintro ⟨⟨ip, _, _⟩, port⟩ ⟨⟨ip', _, _⟩, port'⟩ heq
    cases heq
    rfl
  rw [List.mem_map_of_injective fun _ _ => address_injective, ← List.mem_map_of_injective hpair, h,
    List.mem_map]
  simp only [Prod.mk.injEq]

/-- The port it ends at is the one that is given out here. -/
theorem curPort_eq_nextPort {reqs : List MSG_register_request}
    (h : slaves.list.map (fun s => (s.ip.chars, s.port)) =
      (tuples [] reqs).map fun t => (t.ip, t.port.toInt))
    (hrange : tsc_command_default_port + (countIp reqs ip.chars : Int) < 2 ^ 31) :
    slaves.curPort ip slaves.list.length tsc_command_default_port =
      tsc_command_default_port + countIp reqs ip.chars := by
  have hnone : countIp [] ip.chars = 0 := rfl
  have hexists := exists_tuple_iff [] reqs ip.chars
  simp only [List.nil_append, hnone, Nat.zero_le, true_and] at hexists
  refine curPort_eq (k := 0) (fun k hk => ?_) ?_ (Nat.zero_le _) ?_
  · obtain ⟨t, ht, htip, htport⟩ := (hexists (nextPort k)).mpr ⟨k, hk, rfl⟩
    refine (address_mem_iff h ip _).mpr ⟨t, ht, htip, ?_⟩
    rw [htport, toInt_nextPort (by omega)]
  · rw [address_mem_iff h ip]
    rintro ⟨t, ht, htip, htport⟩
    obtain ⟨k, hk, heq⟩ := (hexists t.port).mp ⟨t, ht, htip, rfl⟩
    rw [heq, toInt_nextPort (by omega)] at htport
    omega
  · have hlen := congrArg List.length h
    rw [List.length_map, List.length_map, length_tuples] at hlen
    rw [hlen]
    exact List.countP_le_length

/-- **The map of the protocol is the one that is filled here**, when the IPs
are addresses. -/
theorem registered_eq_tuples (sent : List (Ipv4 × MSG_register_request))
    (hsent : ∀ p ∈ sent, p.2.from_ip = p.1.chars) (hports : PortsInRange (sent.map Prod.snd)) :
    (Slaves.registered (sent.map Prod.fst)).list.map (fun s => (s.ip.chars, s.port)) =
      (tuples [] (sent.map Prod.snd)).map fun t => (t.ip, t.port.toInt) := by
  induction sent using List.reverseRecOn with
  | nil => rfl
  | append_singleton sent p ih =>
      obtain ⟨ip, r⟩ := p
      have hip : r.from_ip = ip.chars := hsent (ip, r) (by simp)
      rw [List.map_append] at hports
      have hrange :
          tsc_command_default_port + (countIp (sent.map Prod.snd) ip.chars : Int) < 2 ^ 31 := by
        have hcount : countIp (sent.map Prod.snd ++ [r]) r.from_ip =
            countIp (sent.map Prod.snd) r.from_ip + 1 := by simp [countIp]
        have hlast := hports r (by simp)
        simp only [List.map_cons, List.map_nil, hcount] at hlast
        rw [← hip]
        omega
      replace ih := ih (fun p hp => hsent p (by simp [hp])) hports.of_append
      obtain ⟨slaves, hslaves⟩ : ∃ slaves, Slaves.registered (sent.map Prod.fst) = slaves :=
        ⟨_, rfl⟩
      have hreg : Slaves.registered (sent.map Prod.fst ++ [ip]) = slaves.register ip := by
        rw [← hslaves, Slaves.registered, List.foldl_append]
        rfl
      rw [hslaves] at ih
      have htuples : tuples [] (sent.map Prod.snd ++ [r]) =
          tuples [] (sent.map Prod.snd) ++ [nextTuple (sent.map Prod.snd) r] := tuples_append [] _ _
      rw [List.map_append, List.map_append, List.map_singleton, List.map_singleton, hreg, htuples,
        List.map_append, ← ih, Slaves.register, List.map_append, List.map_singleton,
        List.map_singleton]
      simp only [curPort_eq_nextPort ih hrange, nextTuple, hip, toInt_nextPort hrange]

end Protocol

end CloudProfiler.Tsc
