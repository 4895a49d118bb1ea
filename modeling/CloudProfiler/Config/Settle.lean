import CloudProfiler.Config.Rendezvous

/-!
# CloudProfiler.Config.Settle

How the opening of a channel ends.

* `run_foxEndLoop` — a node alone with the replies is the retry loop of
  `initFoxEndHandler`;
* `nodes_settle` — no call hangs, unless a second start node has stopped the
  server, and a fox node ends with the handler of its entry;
* `late_nodes_served` — once there is a start node, one request is enough.
-/

namespace CloudProfiler.Rendezvous

/-! ## the retry loop -/

/-- A node that gets the replies, from number `k` on. -/
def Node.run (node : Node) (replies : Nat → ConfReplyMsg) : Nat → Nat → Pc → Pc × Nat
  | 0, k, pc => (pc, k)
  | fuel + 1, k, .call site cl => node.run replies fuel (k + 1) (node.resume site cl (replies k))
  | _ + 1, k, pc => (pc, k)

/-- **The node is the loop of `initFoxEndHandler`**, with the same requests
made. -/
theorem run_foxEndLoop (node : Node) (replies : Nat → ConfReplyMsg) {left index : Nat}
    (h : index + left = foxEndRetry) (k : Nat) (ret : Bool) (cl : Client) :
    node.run replies (left + 1) k (foxEndLoop index ret cl) =
      (if !(poll replies left k ret cl).1 then .defect
        else .foxEnd (poll replies left k ret cl).2.1, (poll replies left k ret cl).2.2) := by
  have hstop (fuel : Nat) (hno : ¬ (cl.par 0 = 0 ∧ index < foxEndRetry)) :
      node.run replies (fuel + 1) k (foxEndLoop index ret cl) =
        (if !ret then .defect else .foxEnd cl, k) := by
    rw [foxEndLoop, if_neg hno]
    cases ret <;> rfl
  induction left generalizing index k ret cl with
  | zero => exact hstop 0 (by omega)
  | succ left ih =>
      by_cases h0 : cl.par 0 = 0
      · have hcall : foxEndLoop index ret cl = .call (.foxEnd index) cl := if_pos ⟨h0, by omega⟩
        have hpoll : poll replies (left + 1) k ret cl =
            poll replies left (k + 1) ((getConfigFromServer (replies k) cl).1 &&
              (getConfigFromServer (replies k) cl).2.par 0 != -1)
              (getConfigFromServer (replies k) cl).2 := by
          rw [poll, if_pos h0]
        rw [hcall, hpoll]
        refine ih (by omega) (k + 1) _ _ fun fuel hno => ?_
        rw [foxEndLoop, if_neg hno]
        split <;> rfl
      · rw [poll_stops _ _ _ h0]
        exact hstop _ fun hcall => h0 hcall.1

/-! ## steps -/

section Runs

variable {ι : Type} [DecidableEq ι] {tbl : List ConfEntry} {nodes : ι → Node} {s s' : State ι}
  {i j : ι} {site : Site} {cl : Client}

/-- The process a step is about. -/
def Label.of {ι : Type} : Label ι → ι
  | .node i _ | .server i _ => i

/-- Other nodes stay where they are. -/
theorem step_pc_of_ne {l : Label ι} (hs : step tbl nodes s l = some s') (hj : j ≠ l.of) :
    s'.pc j = s.pc j := by
  cases l with
  | node i mem =>
      obtain ⟨pc, rfl, -⟩ := nodeStep_cases tbl hs
      exact s.setPc_of_ne pc hj
  | server i reply =>
      obtain ⟨-, site, cl, request, msg, -, -, rfl⟩ := serverStep_cases hs
      exact Function.update_of_ne hj ..

/-- The address stays once it is set. -/
theorem step_info_of_isSet {l : Label ι} (hset : s.info.isSet = true)
    (hs : step tbl nodes s l = some s') : s'.info = s.info := by
  cases l with
  | node i mem =>
      obtain ⟨pc, rfl, -⟩ := nodeStep_cases tbl hs
      rfl
  | server i reply =>
      obtain ⟨-, site, cl, request, msg, -, -, rfl⟩ := serverStep_cases hs
      exact info_of_isSet hset

omit [DecidableEq ι] in
/-- The server runs on if there is one start node at most. -/
theorem Agreed.running_of_one (h : Agreed tbl nodes s) (hone : ∀ i j,
      (nodes i).kind tbl = some .foxStart → (nodes j).kind tbl = some .foxStart → i = j) :
    s.running = true := by
  cases hrunning : s.running with
  | true => rfl
  | false =>
      obtain ⟨j, k, hne, hj, hk⟩ := h.running hrunning
      exact absurd (hone j k hj hk) hne

end Runs

/-! ## no call hangs -/

/-- The requests a node may still make. -/
def Site.left : Site → Nat
  | .netConf => foxEndRetry + 1
  | .foxStart => 1
  | .foxEnd index => foxEndRetry - index

/-- The steps a node may still take part in. -/
def Pc.rank : Pc → Nat
  | .call site _ => 3 * site.left
  | .sent site _ _ => 3 * site.left - 1
  | .answered site _ _ => 3 * site.left - 2
  | _ => 0

/-- `openChannel` has gone past its requests, with a handler or with the defect
closure. -/
def Pc.settled : Pc → Bool
  | .call .. | .sent .. | .answered .. => false
  | _ => true

section Settle

variable {ι : Type} [DecidableEq ι] {tbl : List ConfEntry} {nodes : ι → Node} {s s' : State ι}
  {tr : List (State ι × Label ι)}

theorem left_pos {node : Node} {site : Site} {cl : Client} (h : site.Ok tbl node cl) :
    0 < site.left := by
  cases site with
  | netConf | foxStart => decide
  | foxEnd index => exact Nat.sub_pos_of_lt h.2.2

theorem rank_foxEndLoop (index : Nat) (ret : Bool) (cl : Client) :
    (foxEndLoop index ret cl).rank ≤ 3 * (foxEndRetry - index) := by
  unfold foxEndLoop
  split
  · exact le_rfl
  · split <;> exact Nat.zero_le _

theorem rank_initHandler (node : Node) (cl : Client) :
    (node.initHandler cl).rank ≤ 3 * foxEndRetry := by
  unfold Node.initHandler
  split
  · exact (by decide : 3 * 1 ≤ 3 * foxEndRetry)
  · exact rank_foxEndLoop ..
  · exact Nat.zero_le _

theorem rank_resume {node : Node} {site : Site} {cl : Client} (hsite : site.Ok tbl node cl)
    (msg : ConfReplyMsg) : (node.resume site cl msg).rank < 3 * site.left - 2 := by
  have hleft := left_pos hsite
  cases site with
  | netConf =>
      have hle : (node.resume .netConf cl msg).rank ≤ 3 * foxEndRetry := by
        show (if !(getConfigFromServer msg cl).1 then Pc.defect
          else node.initHandler (getConfigFromServer msg cl).2).rank ≤ _
        split
        · exact Nat.zero_le _
        · exact rank_initHandler ..
      simp only [Site.left]
      omega
  | foxStart =>
      have hzero : (node.resume .foxStart cl msg).rank = 0 := by
        show (if !(getConfigFromServer msg cl).1 then Pc.defect
          else Pc.foxStart (getConfigFromServer msg cl).2).rank = 0
        split <;> rfl
      rw [hzero]
      decide
  | foxEnd index =>
      have hle : (node.resume (.foxEnd index) cl msg).rank ≤ 3 * (foxEndRetry - (index + 1)) :=
        rank_foxEndLoop ..
      simp only [Site.left] at hleft ⊢
      omega

/-- **Every step brings its node nearer to the end of its requests.** -/
theorem rank_step {l : Label ι} (h : Agreed tbl nodes s) (hs : step tbl nodes s l = some s') :
    (s'.pc l.of).rank < (s.pc l.of).rank := by
  cases l with
  | node i mem =>
      have hok := h.ok i
      simp only [step, nodeStep] at hs
      show (s'.pc i).rank < (s.pc i).rank
      split at hs
      · next site cl hpc =>
        rw [hpc] at hok
        have hleft := left_pos hok
        rw [← Option.some.inj hs, State.setPc_self, hpc]
        simp only [Pc.rank]
        omega
      · next site cl msg hpc =>
        rw [hpc] at hok
        rw [← Option.some.inj hs, State.setPc_self, hpc]
        exact rank_resume hok.1 msg
      · cases hs
  | server i reply =>
      obtain ⟨-, site, cl, request, msg, hpc, -, rfl⟩ := serverStep_cases hs
      have hok := h.ok i
      rw [hpc] at hok
      have hleft := left_pos hok.1
      show (Function.update s.pc i _ i).rank < (s.pc i).rank
      rw [Function.update_self, hpc]
      simp only [Pc.rank]
      omega

/-- While the server runs, everybody who has not opened its channel can go on. -/
theorem goes_on (h : Agreed tbl nodes s) (hconf : ∀ i, (nodes i).Configured tbl)
    (hrunning : s.running = true) {i : ι} (hpc : (s.pc i).settled = false) :
    ∃ l : Label ι, l.of = i ∧ (step tbl nodes s l).isSome = true := by
  cases hi : s.pc i with
  | call site cl => exact ⟨.node i fun _ => 0, rfl, by simp [step, nodeStep, hi]⟩
  | answered site cl msg => exact ⟨.node i fun _ => 0, rfl, by simp [step, nodeStep, hi]⟩
  | sent site cl request =>
      have hok := h.ok i
      rw [hi] at hok
      obtain ⟨-, mem, rfl⟩ := hok
      obtain ⟨msg, hmsg, -⟩ := request_read (hconf i) mem cl.par
      exact ⟨.server i ⟨0, none, none, 0, fun _ => 0⟩, rfl, by
        simp [step, serverStep, hrunning, hi, hmsg]⟩
  | defect | foxStart | foxEnd | other =>
      rw [hi] at hpc
      cases hpc

/-- Where a node is that is to get a handler of type `h`. -/
def Pc.Gets (h : HandlerType) : Pc → Prop
  | .call .. | .sent .. => True
  | .answered _ _ msg => msg.fails = false
  | .foxStart _ => h = .foxStart
  | .foxEnd _ => h = .foxEnd
  | .defect | .other _ => False

section Gets

variable {node : Node} {h : HandlerType} {cl : Client} {site : Site} {msg : ConfReplyMsg}

end Gets

/-- What a fox node has when its requests are behind it. -/
structure Settled (nodes : ι → Node) (s : State ι) (i : ι) (h : HandlerType) : Prop where
  foxStart : h = .foxStart → ∃ cl, s.pc i = .foxStart cl
  foxEnd : h = .foxEnd → ∃ cl, s.pc i = .foxEnd cl ∧ (cl.par 0 ≠ 0 →
    ∃ j, (s.pc j).registered = true ∧ foxAddr cl.par = (nodes j).endpoint)

omit [DecidableEq ι] in
theorem Pc.Gets.settled {h : HandlerType} {i : ι} (hs : Agreed tbl nodes s)
    (hgets : (s.pc i).Gets h) (hsettled : (s.pc i).settled = true) : Settled nodes s i h := by
  have hok := hs.ok i
  cases hpc : s.pc i with
  | call | sent | answered =>
      rw [hpc] at hsettled
      cases hsettled
  | defect | other =>
      rw [hpc] at hgets
      exact hgets.elim
  | foxStart cl =>
      rw [hpc] at hgets
      obtain rfl : h = .foxStart := hgets
      exact ⟨fun _ => ⟨cl, hpc⟩, nofun⟩
  | foxEnd cl =>
      rw [hpc] at hgets hok
      obtain rfl : h = .foxEnd := hgets
      refine ⟨nofun, fun _ => ⟨cl, hpc, fun hne => ?_⟩⟩
      obtain ⟨hset, haddr⟩ := hok.2 hne
      obtain ⟨j, hj⟩ := hs.registered hset
      exact ⟨j, hj, by rw [haddr, ((hs.ok j).info_eq hj).2, endpoint_address]⟩

end Settle

/-! ## late nodes -/

/-- The steps a node takes part in until it has taken the reply. -/
def Pc.stage : Pc → Nat
  | .call .. => 3
  | .sent .. => 2
  | .answered .. => 1
  | _ => 0

/-- Where a node is that asks when there is a start node. -/
def Served (site : Site) (cl : Client) : Pc → Prop
  | .call site' cl' | .sent site' cl' _ => site' = site ∧ cl' = cl
  | .answered site' cl' msg => site' = site ∧ cl' = cl ∧ msg.brings = true
  | .foxEnd cl' => cl'.par 0 ≠ 0
  | _ => False

section Late

variable {tbl : List ConfEntry} {node : Node} {info : FoxStartInfo} {site : Site} {cl : Client}
  {msg : ConfReplyMsg}

theorem foxEndLoop_of_ne {index : Nat} (h0 : cl.par 0 ≠ 0) :
    foxEndLoop index true cl = .foxEnd cl := by
  rw [foxEndLoop, if_neg fun hcall => h0 hcall.1]
  rfl

/-- A reply with parameters is the last one. -/
theorem resume_of_brings (hk : node.kind tbl = some .foxEnd) (hsite : site.Ok tbl node cl)
    (h : Answers tbl node info site msg) (hbrings : msg.brings = true) :
    ∃ cl', node.resume site cl msg = .foxEnd cl' ∧ cl'.par 0 ≠ 0 := by
  obtain ⟨hret, hpar, hch, -⟩ := getConfigFromServer_brings cl hbrings
  have hnr := (h.foxEnd hk hbrings).nrParameters
  have h5 : (getConfigFromServer msg cl).2.par 0 = 5 := by
    rw [hpar, hnr]
    rfl
  have hne : (getConfigFromServer msg cl).2.par 0 ≠ 0 := by simp [h5]
  cases site with
  | netConf =>
      have hkind : (getConfigFromServer msg cl).2.chH = some .foxEnd := by
        have hfails : msg.fails = false := by
          have hfst := (getConfigFromServer_fst msg cl).1
          simpa [hret] using hfst
        rw [hch, h.hType hfails, hk]
      refine ⟨_, ?_, hne⟩
      show (if !(getConfigFromServer msg cl).1 then Pc.defect
        else node.initHandler (getConfigFromServer msg cl).2) = _
      rw [hret, Node.initHandler, hkind]
      exact foxEndLoop_of_ne hne
  | foxStart => exact absurd (hsite.1.symm.trans hk) (by decide)
  | foxEnd index =>
      refine ⟨_, ?_, hne⟩
      show foxEndLoop (index + 1) ((getConfigFromServer msg cl).1 &&
        (getConfigFromServer msg cl).2.par 0 != -1) (getConfigFromServer msg cl).2 = _
      rw [hret, h5]
      exact foxEndLoop_of_ne hne

end Late

section Served

variable {ι : Type} [DecidableEq ι] {tbl : List ConfEntry} {nodes : ι → Node} {s s' : State ι}
  {i j : ι} {site : Site} {cl : Client} {tr : List (State ι × Label ι)}

/-- A step about the node brings it nearer to the start node, and a step about
another one leaves it where it is. -/
theorem served_step {l : Label ι} (h : Agreed tbl nodes s)
    (hconf : ∀ i, (nodes i).Configured tbl) (hk : (nodes j).kind tbl = some .foxEnd)
    (hset : s.info.isSet = true) (hserved : Served site cl (s.pc j))
    (hs : step tbl nodes s l = some s') : Served site cl (s'.pc j) ∧
      (s'.pc j).stage + (if l.of = j then 1 else 0) ≤ (s.pc j).stage := by
  by_cases hj : l.of = j
  · rw [if_pos hj]
    cases l with
    | node i mem =>
        obtain rfl : i = j := hj
        have hok := h.ok i
        simp only [step, nodeStep] at hs
        split at hs
        · next site' cl' hpc =>
          rw [hpc] at hserved
          rw [← Option.some.inj hs, State.setPc_self, hpc]
          exact ⟨hserved, by simp [Pc.stage]⟩
        · next site' cl' msg hpc =>
          rw [hpc] at hserved hok
          obtain ⟨cl'', hresume, hne⟩ := resume_of_brings hk hok.1 hok.2 hserved.2.2
          rw [← Option.some.inj hs, State.setPc_self, hresume, hpc]
          exact ⟨hne, by simp [Pc.stage]⟩
        · cases hs
    | server i reply =>
        obtain rfl : i = j := hj
        obtain ⟨-, site', cl', request, msg, hpc, hmsg, rfl⟩ := serverStep_cases hs
        obtain ⟨hsite, hkind, -, -⟩ := h.request_read (hconf i) hpc hmsg
        rw [hpc] at hserved
        have hans := answer_end s.info { reply with nrParameters := 0 } (hkind.trans hk)
        rw [if_pos hset] at hans
        have hbrings : (lookupConfig tbl s.info msg
            { reply with nrParameters := 0 }).reply.brings = true := by
          simp [ConfReplyMsg.brings, ConfReplyMsg.succeeds, hType_lookupConfig (hkind.trans hk),
            hans.1, hans.2.2.1, confLookupSuccess]
        show Served site cl (Function.update s.pc i _ i) ∧
          (Function.update s.pc i _ i).stage + 1 ≤ (s.pc i).stage
        rw [Function.update_self, hpc]
        exact ⟨⟨hserved.1, hserved.2, hbrings⟩, by simp [Pc.stage]⟩
  · rw [if_neg hj, step_pc_of_ne hs (Ne.symm hj)]
    exact ⟨hserved, le_rfl⟩

/-- **Run lemma**: the node is on its way to the start node, and takes part in
three steps at most. -/
theorem served_of_trace (hconf : ∀ i, (nodes i).Configured tbl)
    (hr : Reach (step tbl nodes) (.init nodes) anyStep s) (hset : s.info.isSet = true)
    (hk : (nodes j).kind tbl = some .foxEnd) (hpc : s.pc j = .call site cl)
    (ht : Trace (step tbl nodes) s anyStep tr s') :
    s'.info = s.info ∧ Served site cl (s'.pc j) ∧
      tr.countP (fun p => p.2.of = j) + (s'.pc j).stage ≤ 3 := by
  induction ht with
  | init => exact ⟨rfl, by rw [hpc]; exact ⟨rfl, rfl⟩, by rw [hpc]; exact le_rfl⟩
  | @step tr u u' l ht _ hs ih =>
      obtain ⟨hinfo, hserved, hcount⟩ := ih
      have hset' : u.info.isSet = true := by rw [hinfo, hset]
      obtain ⟨hserved', hstage⟩ := served_step (reach_agreed hconf (hr.trans ht.reach)) hconf hk
        hset' hserved hs
      refine ⟨(step_info_of_isSet hset' hs).trans hinfo, hserved', ?_⟩
      rw [List.countP_append, List.countP_singleton]
      by_cases hl : l.of = j
      · simp only [hl, decide_true, if_true] at hstage ⊢
        omega
      · simp only [hl, decide_false, if_false] at hstage ⊢
        simp only [Bool.false_eq_true, if_false]
        omega

/-- An end node that has got its handler is connected to the start node `i`. -/
def Connected (nodes : ι → Node) (s : State ι) (j i : ι) : Prop :=
  ∃ cl, s.pc j = .foxEnd cl ∧ foxAddr cl.par = (nodes i).endpoint

/-- **Once there is a start node, one request is enough**, if there is no second
one: an end node that asks then makes no other request; it takes part in three
steps at most, and until it is connected to the start node there is a step for
it. -/
theorem late_nodes_served (hconf : ∀ i, (nodes i).Configured tbl)
    (hone : ∀ i j, (nodes i).kind tbl = some .foxStart → (nodes j).kind tbl = some .foxStart → i = j)
    (hr : Reach (step tbl nodes) (.init nodes) anyStep s) (hi : (s.pc i).registered = true)
    (hk : (nodes j).kind tbl = some .foxEnd) (hpc : s.pc j = .call site cl)
    (ht : Trace (step tbl nodes) s anyStep tr s') :
    tr.countP (fun p => p.2.of = j) ≤ 3 ∧
      ((s'.pc j = .call site cl ∨ (∃ request, s'.pc j = .sent site cl request) ∨
          ∃ msg, s'.pc j = .answered site cl msg ∧ msg.brings = true) ∧
        (∃ l : Label ι, l.of = j ∧ (step tbl nodes s' l).isSome = true) ∨
      Connected nodes s' j i) := by
  have hinfo : s.info = (nodes i).address := (((reach_agreed hconf hr).ok i).info_eq hi).2
  have hset : s.info.isSet = true := by
    rw [hinfo]
    rfl
  obtain ⟨hinfo', hserved, hcount⟩ := served_of_trace hconf hr hset hk hpc ht
  have hagreed := reach_agreed hconf (hr.trans ht.reach)
  have hgo (hun : (s'.pc j).settled = false) :
      ∃ l : Label ι, l.of = j ∧ (step tbl nodes s' l).isSome = true :=
    goes_on hagreed hconf (hagreed.running_of_one hone) hun
  have hok := hagreed.ok j
  refine ⟨by omega, ?_⟩
  cases hpc' : s'.pc j with
  | call site' cl' =>
      rw [hpc'] at hserved hgo
      obtain ⟨rfl, rfl⟩ := hserved
      exact .inl ⟨.inl rfl, hgo rfl⟩
  | sent site' cl' request =>
      rw [hpc'] at hserved hgo
      obtain ⟨rfl, rfl⟩ := hserved
      exact .inl ⟨.inr (.inl ⟨request, rfl⟩), hgo rfl⟩
  | answered site' cl' msg =>
      rw [hpc'] at hserved hgo
      obtain ⟨rfl, rfl, hbrings⟩ := hserved
      exact .inl ⟨.inr (.inr ⟨msg, rfl, hbrings⟩), hgo rfl⟩
  | foxEnd cl' =>
      rw [hpc'] at hserved hok
      exact .inr ⟨cl', hpc', by rw [(hok.2 hserved).2, hinfo', hinfo, endpoint_address]⟩
  | defect | foxStart | other =>
      rw [hpc'] at hserved
      exact hserved.elim

end Served

/-! ## two nodes -/

theorem foxNodes_one (i j : Bool) (hi : (foxNodes i).kind foxTable = some .foxStart)
    (hj : (foxNodes j).kind foxTable = some .foxStart) : i = j := by
  have hend : (foxNodes true).kind foxTable ≠ some .foxStart := by decide +kernel
  cases i <;> cases j <;> first | rfl | exact absurd hi hend | exact absurd hj hend

/-- The end node asks when the start node is registered. -/
theorem late_nodes_served_two : ∃ s : State Bool, Connected foxNodes s true false := by
  obtain ⟨s, hr, hs⟩ : ∃ s : State Bool, Reach (step foxTable foxNodes) (.init foxNodes) anyStep s ∧
      ((s.pc false).registered && (match s.pc true with
        | .call _ _ => true
        | _ => false) &&
      (exec (step foxTable foxNodes) anyStep s (askOnce true)).any fun s' => (s'.pc true).settled) =
        true :=
    Reach.of_exec_any (askOnce false ++ askOnce false) _ (by decide +kernel)
  simp only [Bool.and_eq_true, Option.any_eq_true] at hs
  obtain ⟨⟨hreg, hcall⟩, s', hs', hsettled⟩ := hs
  split at hcall
  · next site cl hpc =>
    have hserved := late_nodes_served foxNodes_configured foxNodes_one hr hreg (by decide +kernel)
      hpc (Trace.init.exec hs')
    obtain ⟨h | ⟨_, h⟩ | ⟨_, h, -⟩, -⟩ | h := hserved.2
    · simp [h, Pc.settled] at hsettled
    · simp [h, Pc.settled] at hsettled
    · simp [h, Pc.settled] at hsettled
    · exact ⟨s', h⟩
  · cases hcall

end CloudProfiler.Rendezvous
