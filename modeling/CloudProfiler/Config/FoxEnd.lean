import CloudProfiler.Config

/-!
# CloudProfiler.Config.FoxEnd

The client side of the configuration of a FOX_END channel:
`getConfigFromServer` (`net_conf.cpp`), the NET_CONF part of `openChannel`
(`channels.cpp`) and `initFoxEndHandler` (`fox_end_handler.cpp`).

The replies of the server are a parameter: `replies k` answers the `k`-th
request of the channel.  `mem` is what the array `par` of `openChannel`
holds before anything is stored in it.

* `poll_cases` — how the retry loop ends;
* `fox_end_connects_registered_iff` — when the endpoint a fox-end closure is
  connected to is the one of a reply.
-/

namespace CloudProfiler

/-- `FOX_END_RETRY`. -/
def foxEndRetry : Nat := 10

/-! ## one request -/

/-- `getConfigFromServer` reports that no configuration was obtained. -/
def ConfReplyMsg.fails (msg : ConfReplyMsg) : Bool :=
  (msg.hType == none || msg.err != 0) && msg.err != errFoxStartNotSet

/-- The reply holds a configuration. -/
def ConfReplyMsg.succeeds (msg : ConfReplyMsg) : Bool :=
  msg.hType != none && msg.err == 0

/-- What `openChannel` and `initFoxEndHandler` keep between two requests:
`ch_h`, `par` and the log format. -/
structure Client where
  chH : Option HandlerType
  par : Nat → Int64
  format : Option LogFormat

/-- `getConfigFromServer`, from the reply on. -/
def getConfigFromServer (msg : ConfReplyMsg) (cl : Client) : Bool × Client :=
  if msg.hType = none ∨ msg.err ≠ 0 then
    if msg.err = errFoxStartNotSet then (true, { cl with chH := msg.hType })
    else (false, cl)
  else
    (true, {
      chH := msg.hType
      format := msg.logF
      par := fun i =>
        if i = 0 then Int64.ofNat msg.nrParameters.toNat
        else if i - 1 < msg.nrParameters.toNat then msg.parValue (i - 1)
        else cl.par i })

/-! ## the retry loop -/

/-- The loop of `initFoxEndHandler` with `left` retries left; `k` is the
number of requests the channel has made.  Returns `ret`, the client's data
and the number of requests made at the end. -/
def poll (replies : Nat → ConfReplyMsg) : Nat → Nat → Bool → Client → Bool × Client × Nat
  | 0, k, ret, cl => (ret, cl, k)
  | left + 1, k, ret, cl =>
      if cl.par 0 = 0 then
        let r := getConfigFromServer (replies k) cl
        poll replies left (k + 1) (r.1 && r.2.par 0 != -1) r.2
      else
        (ret, cl, k)

/-- What `openChannel` returns. -/
inductive Opened
  /-- a defect channel -/
  | defect
  /-- a fox-end closure connected to the endpoint -/
  | foxEnd (addr : String)
  /-- the server configured another handler -/
  | other (h : Option HandlerType)
  deriving DecidableEq, Repr

/-- The endpoint of `par[1] … par[5]`. -/
def foxAddr (par : Nat → Int64) : String :=
  s!"tcp://{par 1}.{par 2}.{par 3}.{par 4}:{par 5}"

theorem foxAddr_congr {par par' : Nat → Int64} (h : ∀ i < 5, par (i + 1) = par' (i + 1)) :
    foxAddr par = foxAddr par' := by
  delta foxAddr
  rw [h 0 (by decide), h 1 (by decide), h 2 (by decide), h 3 (by decide), h 4 (by decide)]

/-- `initFoxEndHandler`, with the number of requests made. -/
def initFoxEndHandler (replies : Nat → ConfReplyMsg) (k : Nat) (cl : Client) : Opened × Nat :=
  let r := poll replies foxEndRetry k true cl
  if !r.1 then (.defect, r.2.2) else (.foxEnd (foxAddr r.2.1.par), r.2.2)

/-- `openChannel` for a channel of type FOX_END, or (`netConf`) for one the
server is asked about. -/
def openFoxEnd (netConf : Bool) (mem : Nat → Int64) (replies : Nat → ConfReplyMsg) :
    Opened × Nat :=
  let cl : Client := ⟨some .foxEnd, fun i => if i = 0 then 0 else mem i, none⟩
  if netConf then
    let r := getConfigFromServer (replies 0) cl
    if !r.1 then (.defect, 1)
    else if r.2.chH = some .foxEnd then initFoxEndHandler replies 1 r.2
    else (.other r.2.chH, 1)
  else
    initFoxEndHandler replies 0 cl

/-! ## what is promised -/

/-- The endpoint a reply with five parameters names. -/
def ConfReplyMsg.endpoint (msg : ConfReplyMsg) : String :=
  foxAddr fun i => msg.parValue (i - 1)

/-- A closure is connected only to an endpoint that one of the replies seen
carried, and if none of them carried a configuration the channel is defect. -/
def TalksToStartNode (netConf : Bool) (mem : Nat → Int64) (replies : Nat → ConfReplyMsg) : Prop :=
  let r := openFoxEnd netConf mem replies
  (∀ addr, r.1 = .foxEnd addr → ∃ k < r.2, (replies k).succeeds = true ∧
    (replies k).nrParameters = 5 ∧ addr = (replies k).endpoint) ∧
  ((∀ k < r.2, (replies k).succeeds = false) → r.1 = .defect ∨ ∃ h, r.1 = .other h)

/-- The reply brings parameters, which ends the retry loop. -/
def ConfReplyMsg.brings (msg : ConfReplyMsg) : Bool :=
  msg.succeeds && msg.nrParameters != 0

section Poll

variable {replies : Nat → ConfReplyMsg} {msg : ConfReplyMsg} {cl : Client}

theorem ofNat_nrParameters (n : UInt8) :
    (Int64.ofNat n.toNat = 0 ↔ n = 0) ∧ Int64.ofNat n.toNat ≠ -1 := by
  have hlt : n.toNat < 256 := n.toNat_lt
  have hval : (Int64.ofNat n.toNat).toInt = n.toNat :=
    Int64.toInt_ofNat_of_lt (by omega)
  refine ⟨⟨fun h => ?_, fun h => by simp [h]⟩, fun h => ?_⟩
  · rw [h] at hval
    have : n.toNat = 0 := by simpa using hval.symm
    exact UInt8.toNat_inj.mp (by simpa using this)
  · rw [h] at hval
    have : (-1 : Int) = n.toNat := hval
    omega

/-- The result of a request, and the handler type it leaves in `ch_h`. -/
theorem getConfigFromServer_fst (msg : ConfReplyMsg) (cl : Client) :
    (getConfigFromServer msg cl).1 = !msg.fails ∧
      (msg.fails = false → (getConfigFromServer msg cl).2.chH = msg.hType) := by
  unfold getConfigFromServer ConfReplyMsg.fails
  split
  · next hbad =>
    split
    · next hset => simp [hset]
    · next hset => obtain hbad | hbad := hbad <;> simp [hbad, hset]
  · next hgood =>
    simp only [not_or, not_not] at hgood
    have hsome : msg.hType.isSome = true := Option.isSome_iff_ne_none.mpr hgood.1
    simp [hgood, hsome]

/-- A reply that brings no parameters leaves `par` without a number of
parameters. -/
theorem getConfigFromServer_idle (h : msg.brings = false) (h0 : cl.par 0 = 0) :
    (getConfigFromServer msg cl).2.par 0 = 0 := by
  unfold getConfigFromServer
  split
  · split <;> exact h0
  · next hgood =>
    simp only [not_or, not_not] at hgood
    have hnr : msg.nrParameters = 0 := by
      simpa [ConfReplyMsg.brings, ConfReplyMsg.succeeds, hgood] using h
    simp [hnr]

/-- A reply that brings parameters puts them in `par`. -/
theorem getConfigFromServer_brings (cl : Client) (h : msg.brings = true) :
    (getConfigFromServer msg cl).1 = true ∧
      (getConfigFromServer msg cl).2.par 0 = Int64.ofNat msg.nrParameters.toNat ∧
      (getConfigFromServer msg cl).2.chH = msg.hType ∧
      ∀ i < msg.nrParameters.toNat, (getConfigFromServer msg cl).2.par (i + 1) = msg.parValue i := by
  simp only [ConfReplyMsg.brings, ConfReplyMsg.succeeds, Bool.and_eq_true, bne_iff_ne,
    beq_iff_eq] at h
  have hgood : ¬ (msg.hType = none ∨ msg.err ≠ 0) := by simp [h.1.1, h.1.2]
  rw [getConfigFromServer, if_neg hgood]
  exact ⟨rfl, rfl, rfl, fun i hi => by simp [hi]⟩

/-- Once parameters are there, no request is made. -/
theorem poll_stops (left k : Nat) (ret : Bool) (h0 : cl.par 0 ≠ 0) :
    poll replies left k ret cl = (ret, cl, k) := by
  cases left <;> simp [poll, h0]

/-- **How the retry loop ends**: with the first reply that brings parameters,
or after the last retry with the result of the last reply. -/
theorem poll_cases (replies : Nat → ConfReplyMsg) (left k : Nat) (ret : Bool) (h0 : cl.par 0 = 0) :
    (∃ n < left, (∀ j < n, (replies (k + j)).brings = false) ∧
      (replies (k + n)).brings = true ∧ ∃ cl', poll replies left k ret cl = (true, cl', k + n + 1) ∧
      ∀ i < (replies (k + n)).nrParameters.toNat, cl'.par (i + 1) = (replies (k + n)).parValue i) ∨
    ((∀ j < left, (replies (k + j)).brings = false) ∧ ∃ cl', poll replies left k ret cl =
      (if left = 0 then ret else !(replies (k + left - 1)).fails, cl', k + left)) := by
  induction left generalizing k ret cl with
  | zero => exact .inr ⟨by simp, cl, rfl⟩
  | succ left ih =>
      have hpoll : poll replies (left + 1) k ret cl =
          poll replies left (k + 1) ((getConfigFromServer (replies k) cl).1 &&
            (getConfigFromServer (replies k) cl).2.par 0 != -1)
            (getConfigFromServer (replies k) cl).2 := by
        rw [poll, if_pos h0]
      cases hb : (replies k).brings with
      | true =>
          obtain ⟨h1, h2, -, h3⟩ := getConfigFromServer_brings cl hb
          have hnr : (replies k).nrParameters ≠ 0 := by
            simp only [ConfReplyMsg.brings, Bool.and_eq_true, bne_iff_ne] at hb
            exact hb.2
          have hne := ofNat_nrParameters (replies k).nrParameters
          refine .inl ⟨0, by omega, by simp, hb, _, ?_, h3⟩
          rw [hpoll, poll_stops _ _ _ (by rw [h2]; exact fun h => hnr (hne.1.mp h)), h1, h2]
          simp [hne.2]
      | false =>
          have h1 := (getConfigFromServer_fst (replies k) cl).1
          have h2 := getConfigFromServer_idle hb h0
          have hret : ((getConfigFromServer (replies k) cl).1 &&
              (getConfigFromServer (replies k) cl).2.par 0 != -1) = !(replies k).fails := by
            rw [h1, h2]
            simp
          rw [hpoll, hret]
          rcases ih (k + 1) (!(replies k).fails) h2 with ⟨n, hn, hidle, hbr, cl', hp, hpar⟩ |
            ⟨hidle, cl', hp⟩
          · refine .inl ⟨n + 1, by omega, fun j hj => ?_, ?_, cl', ?_, ?_⟩
            · cases j with
              | zero => exact hb
              | succ j => simpa [Nat.add_assoc, Nat.add_comm 1] using hidle j (by omega)
            · simpa [Nat.add_assoc, Nat.add_comm 1] using hbr
            · simpa [Nat.add_assoc, Nat.add_comm 1] using hp
            · simpa [Nat.add_assoc, Nat.add_comm 1] using hpar
          · refine .inr ⟨fun j hj => ?_, cl', ?_⟩
            · cases j with
              | zero => exact hb
              | succ j => simpa [Nat.add_assoc, Nat.add_comm 1] using hidle j (by omega)
            · rw [hp]
              cases left with
              | zero => simp
              | succ left => simp [Nat.add_assoc, Nat.add_comm 1]

end Poll

/-! ## the result -/

/-- The number of requests the channel makes if none brings parameters. -/
def requests (netConf : Bool) : Nat := if netConf then foxEndRetry + 1 else foxEndRetry

/-- The condition on the replies: either the server does not make the channel
a fox-end channel, or the first reply that brings parameters brings five, or
none does and the last reply is an error other than
`ERR_FOX_START_NOT_SET`. -/
def StartNodeAnswers (netConf : Bool) (replies : Nat → ConfReplyMsg) : Prop :=
  (netConf = true ∧ ((replies 0).fails = true ∨ (replies 0).hType ≠ some .foxEnd)) ∨
  (∃ n < requests netConf, (∀ j < n, (replies j).brings = false) ∧ (replies n).brings = true ∧
    (replies n).nrParameters = 5) ∨
  ((∀ j < requests netConf, (replies j).brings = false) ∧
    (replies (requests netConf - 1)).fails = true)

section Result

variable {netConf : Bool} {mem : Nat → Int64} {replies : Nat → ConfReplyMsg}

/-- The two outcomes of `initFoxEndHandler`, called without parameters after
`k` requests. -/
theorem initFoxEndHandler_cases (replies : Nat → ConfReplyMsg) {cl : Client} (k : Nat)
    (h0 : cl.par 0 = 0) :
    (∃ n < k + foxEndRetry, k ≤ n ∧ (∀ j < n, k ≤ j → (replies j).brings = false) ∧
      (replies n).brings = true ∧
      ∃ par, initFoxEndHandler replies k cl = (.foxEnd (foxAddr par), n + 1) ∧
        ∀ i < (replies n).nrParameters.toNat, par (i + 1) = (replies n).parValue i) ∨
    ((∀ j < k + foxEndRetry, k ≤ j → (replies j).brings = false) ∧
      ∃ par, initFoxEndHandler replies k cl =
        (if (replies (k + foxEndRetry - 1)).fails then .defect else .foxEnd (foxAddr par),
          k + foxEndRetry)) := by
  have hidx : ∀ {m : Nat}, (∀ j < m, (replies (k + j)).brings = false) →
      ∀ j < k + m, k ≤ j → (replies j).brings = false := fun hidle j hj hk => by
    have := hidle (j - k) (by omega)
    rwa [Nat.add_sub_cancel' hk] at this
  unfold initFoxEndHandler
  rcases poll_cases replies foxEndRetry k true h0 with
    ⟨n, hn, hidle, hb, cl', hp, hpar⟩ | ⟨hidle, cl', hp⟩
  · exact .inl ⟨k + n, by omega, by omega, hidx hidle, hb, cl'.par, by simp [hp], hpar⟩
  · refine .inr ⟨hidx hidle, cl'.par, ?_⟩
    rw [hp]
    cases (replies (k + foxEndRetry - 1)).fails <;> rfl

/-- The two outcomes for a fox-end channel. -/
theorem openFoxEnd_cases (mem : Nat → Int64)
    (h : netConf = true → (replies 0).fails = false ∧ (replies 0).hType = some .foxEnd) :
    (∃ n < requests netConf, (∀ j < n, (replies j).brings = false) ∧ (replies n).brings = true ∧
      ∃ par, openFoxEnd netConf mem replies = (.foxEnd (foxAddr par), n + 1) ∧
        ∀ i < (replies n).nrParameters.toNat, par (i + 1) = (replies n).parValue i) ∨
    ((∀ j < requests netConf, (replies j).brings = false) ∧
      ∃ par, openFoxEnd netConf mem replies =
        (if (replies (requests netConf - 1)).fails then .defect else .foxEnd (foxAddr par),
          requests netConf)) := by
  cases netConf with
  | false =>
      set cl : Client := ⟨some .foxEnd, fun i => if i = 0 then 0 else mem i, none⟩ with hcl
      have h0 : cl.par 0 = 0 := rfl
      have hcases := initFoxEndHandler_cases replies 0 h0
      simpa [requests, openFoxEnd] using hcases
  | true =>
      obtain ⟨hf, hk⟩ := h rfl
      set cl : Client := ⟨some .foxEnd, fun i => if i = 0 then 0 else mem i, none⟩ with hcl
      obtain ⟨hret, hch⟩ := getConfigFromServer_fst (replies 0) cl
      have hopen : openFoxEnd true mem replies =
          initFoxEndHandler replies 1 (getConfigFromServer (replies 0) cl).2 := by
        simp only [openFoxEnd, if_true, ← hcl, hret, hf, hch hf, hk, Bool.not_false, Bool.not_true,
          Bool.false_eq_true, if_false]
      rw [hopen]
      cases hb : (replies 0).brings with
      | true =>
          obtain ⟨-, h2, -, h3⟩ := getConfigFromServer_brings cl hb
          have hnr : (replies 0).nrParameters ≠ 0 := by
            simp only [ConfReplyMsg.brings, Bool.and_eq_true, bne_iff_ne] at hb
            exact hb.2
          have hne : (getConfigFromServer (replies 0) cl).2.par 0 ≠ 0 := by
            rw [h2]
            exact fun h => hnr ((ofNat_nrParameters _).1.mp h)
          refine .inl ⟨0, by decide, by simp, hb, _, ?_, h3⟩
          simp [initFoxEndHandler, poll_stops _ _ _ hne]
      | false =>
          have hidx : ∀ {m : Nat}, (∀ j < m, 1 ≤ j → (replies j).brings = false) →
              ∀ j < m, (replies j).brings = false := fun hidle j hj => by
            cases j with
            | zero => exact hb
            | succ j => exact hidle (j + 1) hj (by omega)
          have hreq : requests true = 1 + foxEndRetry := by decide
          rw [hreq]
          have h0 : cl.par 0 = 0 := rfl
          rcases initFoxEndHandler_cases replies 1 (getConfigFromServer_idle hb h0) with
            ⟨n, hn, -, hidle, hbr, hrest⟩ | ⟨hidle, hrest⟩
          · exact .inl ⟨n, hn, hidx hidle, hbr, hrest⟩
          · exact .inr ⟨hidx hidle, hrest⟩

theorem ConfReplyMsg.brings_of {msg : ConfReplyMsg} (hs : msg.succeeds = true)
    (hn : msg.nrParameters = 5) : msg.brings = true := by
  simp [ConfReplyMsg.brings, hs, hn]

/-- **A fox-end channel talks to the registered start node exactly when the
server's replies end well.** -/
theorem fox_end_connects_registered_iff (netConf : Bool) (mem : Nat → Int64)
    (replies : Nat → ConfReplyMsg) :
    TalksToStartNode netConf mem replies ↔ StartNodeAnswers netConf replies := by
  by_cases hfox : netConf = true ∧ ((replies 0).fails = true ∨ (replies 0).hType ≠ some .foxEnd)
  · -- `initFoxEndHandler` is not called
    refine iff_of_true ?_ (.inl hfox)
    obtain ⟨rfl, hfox⟩ := hfox
    have hopen : (openFoxEnd true mem replies).1 = .defect ∨
        ∃ h, (openFoxEnd true mem replies).1 = .other h := by
      obtain ⟨hret, hch⟩ := getConfigFromServer_fst (replies 0)
        ⟨some .foxEnd, fun i => if i = 0 then 0 else mem i, none⟩
      cases hf : (replies 0).fails with
      | true => exact .inl (by simp [openFoxEnd, hret, hf])
      | false =>
          have hk := hfox.resolve_left (by simp [hf])
          exact .inr ⟨(replies 0).hType, by simp [openFoxEnd, hret, hf, hch hf, hk]⟩
    refine ⟨fun addr ha => ?_, fun _ => hopen⟩
    obtain ho | ⟨h, ho⟩ := hopen <;> simp [ho] at ha
  · have hreach : netConf = true → (replies 0).fails = false ∧ (replies 0).hType = some .foxEnd := by
      intro hn
      simpa [hn] using hfox
    rcases openFoxEnd_cases mem hreach with ⟨n, hn, hidle, hb, par, ho, hpar⟩ |
      ⟨hidle, par, ho⟩
    · have hsucc : (replies n).succeeds = true := by
        simp only [ConfReplyMsg.brings, Bool.and_eq_true] at hb
        exact hb.1
      unfold TalksToStartNode
      rw [ho]
      constructor
      · rintro ⟨htalk, -⟩
        obtain ⟨k, hk, hs, h5, -⟩ := htalk _ rfl
        have hkn : k = n := by
          by_contra hne
          have := hidle k (by omega)
          rw [ConfReplyMsg.brings_of hs h5] at this
          contradiction
        exact .inr (.inl ⟨n, hn, hidle, hb, hkn ▸ h5⟩)
      · intro hans
        have h5 : (replies n).nrParameters = 5 := by
          obtain hbad | ⟨k, -, hidle', hbk, h5⟩ | ⟨hnone, -⟩ := hans
          · exact absurd hbad hfox
          · obtain hlt | rfl | hgt := Nat.lt_trichotomy k n
            · simp [hidle k hlt] at hbk
            · exact h5
            · simp [hidle' n hgt] at hb
          · simp [hnone n hn] at hb
        refine ⟨fun addr ha => ⟨n, by omega, hsucc, h5, ?_⟩, fun hall => ?_⟩
        · rw [h5] at hpar
          have hp : ∀ i < 5, par (i + 1) = (replies n).parValue i := hpar
          simp only [Opened.foxEnd.injEq] at ha
          rw [← ha]
          exact foxAddr_congr hp
        · simp [hall n (by omega)] at hsucc
    · unfold TalksToStartNode
      rw [ho]
      constructor
      · rintro ⟨htalk, -⟩
        refine .inr (.inr ⟨hidle, ?_⟩)
        by_contra hf
        obtain ⟨k, hk, hs, h5, -⟩ := htalk (foxAddr par) (by simp [hf])
        have := hidle k hk
        rw [ConfReplyMsg.brings_of hs h5] at this
        contradiction
      · intro hans
        have hf : (replies (requests netConf - 1)).fails = true := by
          obtain hbad | ⟨n, hn, -, hb, -⟩ | ⟨-, hf⟩ := hans
          · exact absurd hbad hfox
          · simp [hidle n hn] at hb
          · exact hf
        rw [hf]
        exact ⟨fun addr ha => by simp at ha, fun _ => .inl rfl⟩

/-- The reply of a server that waits for the start node. -/
def notSetReply : ConfReplyMsg := ⟨errFoxStartNotSet, some .foxEnd, none, 0, fun _ => 0⟩

/-- **The start node never registers, and a fox-end closure is connected all
the same**: the endpoint is what the array `par` held before. -/
theorem fox_end_connects_unregistered :
    openFoxEnd true (fun _ => 7) (fun _ => notSetReply) = (.foxEnd "tcp://7.7.7.7:7", 11) ∧
      ¬ TalksToStartNode true (fun _ => 7) fun _ => notSetReply := by
  have hopen : openFoxEnd true (fun _ => 7) (fun _ => notSetReply) =
      (.foxEnd "tcp://7.7.7.7:7", 11) := by decide +kernel
  refine ⟨hopen, fun h => ?_⟩
  obtain ⟨k, -, hs, -⟩ := h.1 "tcp://7.7.7.7:7" (by rw [hopen])
  simp [notSetReply, ConfReplyMsg.succeeds, errFoxStartNotSet] at hs

end Result

end CloudProfiler
