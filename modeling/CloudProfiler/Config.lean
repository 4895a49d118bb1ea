import Mathlib.Data.List.Induction
import CloudProfiler.Log

/-!
# CloudProfiler.Config

The configuration server: requests, replies and table entries
(`net_conf.h`), the lookup (`parser.cpp`), the rendezvous of FOX_START and
FOX_END nodes (`fox_config_server.cpp`) and the request loop
(`config_server.cpp`).

An array of parameters is what lies in memory from its address on
(`Nat → Int64`); a field the code leaves unset keeps what was there before,
so `lookupConfig` takes the reply message it fills in.

* `lookupConfig_eq` — the entry that is served is the first that matches;
* `fox_rendezvous` — once a start node is registered, its address is the one
  every end node gets.
-/

namespace CloudProfiler

/-- `enum handler_type` of `cloud_profiler.h`. -/
inductive HandlerType
  | identity | bufferIdentity | bufferIdentityComp | median | downsample | xoy | firstlast
  | periodicCounter | fastPeriodicCounter | nullh | netConf | foxStart | foxEnd | gpiortt
  deriving DecidableEq, Repr

/-! ## messages -/

/-- `CONF_LOOKUP_SUCCESS`. -/
def confLookupSuccess : Int8 := 0

/-- `ERR_CONF_NOT_FOUND`. -/
def errConfNotFound : Int8 := -1

/-- `ERR_FOX_MULTIPE_START_NODE`. -/
def errFoxMultipeStartNode : Int8 := -2

/-- `ERR_FOX_START_NOT_SET`. -/
def errFoxStartNotSet : Int8 := -4

/-- `struct conf_req_msg`. -/
structure ConfReqMsg where
  chName : String
  chDottedQuad : String
  chPid : UInt32
  chTid : UInt32
  chNr : Int32
  nrParameters : Int32
  parValue : Nat → Int64

/-- `struct conf_reply_msg`; `none` stands for a value outside the
enumeration, such as what an unset field holds. -/
structure ConfReplyMsg where
  err : Int8
  hType : Option HandlerType
  logF : Option LogFormat
  nrParameters : UInt8
  parValue : Nat → Int64

/-- `struct conf_entry`. -/
structure ConfEntry where
  chName : String
  chDottedQuad : String
  chPid : String
  chTid : String
  chNr : String
  hType : HandlerType
  logF : LogFormat
  nrParameters : UInt8
  parValue : Nat → Int64

/-! ## the lookup -/

/-- `match` of `parser.cpp`. -/
def matchExpr (str expr : String) : Bool := expr == ".*" || str == expr

/-- All five patterns of the entry match. -/
def ConfEntry.matches (it : ConfEntry) (request : ConfReqMsg) : Bool :=
  matchExpr request.chName it.chName &&
  matchExpr request.chDottedQuad it.chDottedQuad &&
  matchExpr (toString request.chPid) it.chPid &&
  matchExpr (toString request.chTid) it.chTid &&
  matchExpr (toString request.chNr) it.chNr

/-- `struct FoxStartInfo`: the only thing the server remembers. -/
structure FoxStartInfo where
  ip : Fin 4 → Int64
  port : Int64
  isSet : Bool

/-- `foxStartInfo` at program start. -/
def FoxStartInfo.init : FoxStartInfo := ⟨fun _ => -1, -1, false⟩

/-- What a lookup leaves behind: the server's memory, the reply, `*line_nr`
if it was set, and the return value. -/
structure Answer where
  info : FoxStartInfo
  reply : ConfReplyMsg
  lineNr : Option Nat
  ret : Bool

/-- Copy `n` parameters. -/
def copyParams (n : Nat) (src dst : Nat → Int64) : Nat → Int64 :=
  fun i => if i < n then src i else dst i

/-- `makeFoxStartReply`.  The address is stored with every request that
comes before the registration, complete or not. -/
def makeFoxStartReply (info : FoxStartInfo) (request : ConfReqMsg) (reply : ConfReplyMsg)
    (it : ConfEntry) (line : Nat) : Answer :=
  let reply := { reply with hType := some it.hType }
  if info.isSet then
    ⟨info, { reply with err := errFoxMultipeStartNode }, none, false⟩
  else
    ⟨{ ip := fun i => request.parValue (i.val + 1)
       port := request.parValue 5
       isSet := info.isSet || request.nrParameters == 5 },
      { reply with
        err := confLookupSuccess
        nrParameters := it.nrParameters
        parValue := copyParams it.nrParameters.toNat it.parValue reply.parValue },
      some line, true⟩

/-- `makeFoxEndReply`. -/
def makeFoxEndReply (info : FoxStartInfo) (reply : ConfReplyMsg) (it : ConfEntry) (line : Nat) :
    Answer :=
  let reply := { reply with hType := some it.hType }
  if !info.isSet then
    ⟨info, { reply with nrParameters := 0, err := errFoxStartNotSet }, none, false⟩
  else
    ⟨info, { reply with
      err := confLookupSuccess
      nrParameters := 5
      parValue := fun i =>
        if h : i < 4 then info.ip ⟨i, h⟩ else if i = 4 then info.port else reply.parValue i },
      some line, true⟩

/-- The body of the loop of `lookupConfig` for an entry that matches. -/
def serveEntry (info : FoxStartInfo) (request : ConfReqMsg) (reply : ConfReplyMsg)
    (it : ConfEntry) (line : Nat) : Answer :=
  match it.hType with
  | .foxStart =>
      makeFoxStartReply info request { reply with logF := some it.logF } it line
  | .foxEnd => makeFoxEndReply info { reply with logF := some it.logF } it line
  | _ =>
      ⟨info, { reply with
        err := confLookupSuccess
        hType := some it.hType
        logF := some it.logF
        nrParameters := it.nrParameters
        parValue := copyParams it.nrParameters.toNat it.parValue reply.parValue },
        some line, true⟩

/-- The loop of `lookupConfig` from entry number `line` on. -/
def lookupFrom (info : FoxStartInfo) (request : ConfReqMsg) (reply : ConfReplyMsg) :
    List ConfEntry → Nat → Answer
  | [], _ => ⟨info, { reply with err := errConfNotFound }, none, false⟩
  | it :: rest, line =>
      if it.matches request then serveEntry info request reply it line
      else lookupFrom info request reply rest (line + 1)

/-- `lookupConfig` on the selected table. -/
def lookupConfig (tbl : List ConfEntry) (info : FoxStartInfo) (request : ConfReqMsg)
    (reply : ConfReplyMsg) : Answer :=
  lookupFrom info request reply tbl 0

/-! ## the request loop -/

/-- `main`: handle the requests in the order they arrive, each with a reply
message of its own, and stop after a second start node. -/
def serve (tbl : List ConfEntry) : FoxStartInfo → List (ConfReqMsg × ConfReplyMsg) →
    FoxStartInfo × List ConfReplyMsg
  | info, [] => (info, [])
  | info, (request, reply) :: rest =>
      let a := lookupConfig tbl info request reply
      if a.reply.err = errFoxMultipeStartNode then (a.info, [a.reply])
      else
        let r := serve tbl a.info rest
        (r.1, a.reply :: r.2)

/-- The server's memory after it has handled the requests with
`lookupConfig`. -/
def infoAfter (tbl : List ConfEntry) (reqs : List (ConfReqMsg × ConfReplyMsg)) : FoxStartInfo :=
  reqs.foldl (fun info r => (lookupConfig tbl info r.1 r.2).info) .init

/-- How `lookupConfig` answers a request after the requests `reqs`. -/
def answerAfter (tbl : List ConfEntry) (reqs : List (ConfReqMsg × ConfReplyMsg))
    (r : ConfReqMsg × ConfReplyMsg) : Answer :=
  lookupConfig tbl (infoAfter tbl reqs) r.1 r.2

/-! ## the entry that is served -/

/-- The handler type of the first entry that matches the request. -/
def kindOf (tbl : List ConfEntry) (request : ConfReqMsg) : Option HandlerType :=
  (tbl.find? (·.matches request)).map (·.hType)

section Lookup

variable {tbl : List ConfEntry} {info : FoxStartInfo} {request : ConfReqMsg}
  {reply : ConfReplyMsg} {line : Nat}

theorem lookupFrom_eq : lookupFrom info request reply tbl line =
    match tbl.find? (·.matches request) with
    | none => ⟨info, { reply with err := errConfNotFound }, none, false⟩
    | some it =>
        serveEntry info request reply it (line + tbl.findIdx (·.matches request)) := by
  induction tbl generalizing line with
  | nil => rfl
  | cons it rest ih =>
      cases hm : it.matches request with
      | true => simp [lookupFrom, hm, List.findIdx_cons]
      | false =>
          simp only [lookupFrom, hm, Bool.false_eq_true, if_false, ih, List.find?_cons,
            List.findIdx_cons, cond_false, Nat.add_assoc, Nat.add_comm 1]

/-- **The lookup serves the first entry that matches**, and says which one
it was. -/
theorem lookupConfig_eq : lookupConfig tbl info request reply =
    match tbl.find? (·.matches request) with
    | none => ⟨info, { reply with err := errConfNotFound }, none, false⟩
    | some it => serveEntry info request reply it (tbl.findIdx (·.matches request)) := by
  rw [lookupConfig, lookupFrom_eq]
  simp only [Nat.zero_add]

/-- The entry behind a kind of request. -/
theorem lookupConfig_of_kind {h : HandlerType} (info : FoxStartInfo) (reply : ConfReplyMsg)
    (hk : kindOf tbl request = some h) :
    ∃ it line, it.hType = h ∧
      lookupConfig tbl info request reply = serveEntry info request reply it line := by
  obtain ⟨it, hfind, hit⟩ := Option.map_eq_some_iff.mp hk
  exact ⟨it, _, hit, by rw [lookupConfig_eq, hfind]⟩

/-- A request that is not for a start node leaves the server's memory as it
is. -/
theorem info_of_ne_start (hk : kindOf tbl request ≠ some .foxStart) :
    (lookupConfig tbl info request reply).info = info := by
  rw [lookupConfig_eq]
  cases hfind : tbl.find? (·.matches request) with
  | none => rfl
  | some it =>
      have hit : it.hType ≠ .foxStart := fun h => hk (by simp [kindOf, hfind, h])
      show (serveEntry info request reply it _).info = info
      unfold serveEntry
      split
      · contradiction
      · cases hset : info.isSet <;> simp [makeFoxEndReply, hset]
      · rfl

/-- So does every request once a start node is registered. -/
theorem info_of_isSet (hset : info.isSet = true) :
    (lookupConfig tbl info request reply).info = info := by
  by_cases hk : kindOf tbl request = some .foxStart
  · obtain ⟨it, line, hit, he⟩ := lookupConfig_of_kind info reply hk
    simp [he, serveEntry, hit, makeFoxStartReply, hset]
  · exact info_of_ne_start hk

/-- The answer to a start node. -/
theorem answer_start (info : FoxStartInfo) (reply : ConfReplyMsg)
    (hk : kindOf tbl request = some .foxStart) :
    if info.isSet then
      (lookupConfig tbl info request reply).reply.err = errFoxMultipeStartNode ∧
        (lookupConfig tbl info request reply).ret = false
    else
      (lookupConfig tbl info request reply).reply.err = confLookupSuccess ∧
        (lookupConfig tbl info request reply).ret = true ∧
        (lookupConfig tbl info request reply).info =
          ⟨fun i => request.parValue (i.val + 1), request.parValue 5,
            request.nrParameters == 5⟩ := by
  obtain ⟨it, line, hit, he⟩ := lookupConfig_of_kind info reply hk
  rw [he]
  cases hset : info.isSet <;> simp [serveEntry, hit, makeFoxStartReply, hset]

/-- The answer to an end node. -/
theorem answer_end (info : FoxStartInfo) (reply : ConfReplyMsg)
    (hk : kindOf tbl request = some .foxEnd) :
    if info.isSet then
      (lookupConfig tbl info request reply).reply.err = confLookupSuccess ∧
        (lookupConfig tbl info request reply).ret = true ∧
        (lookupConfig tbl info request reply).reply.nrParameters = 5 ∧
        (∀ i : Fin 4, (lookupConfig tbl info request reply).reply.parValue i = info.ip i) ∧
        (lookupConfig tbl info request reply).reply.parValue 4 = info.port
    else
      (lookupConfig tbl info request reply).reply.err = errFoxStartNotSet ∧
        (lookupConfig tbl info request reply).ret = false ∧
        (lookupConfig tbl info request reply).reply.nrParameters = 0 := by
  obtain ⟨it, line, hit, he⟩ := lookupConfig_of_kind info reply hk
  rw [he]
  cases hset : info.isSet <;> simp [serveEntry, hit, makeFoxEndReply, hset]

end Lookup

/-! ## the rendezvous -/

section Rendezvous

variable {tbl : List ConfEntry} {reqs pre post : List (ConfReqMsg × ConfReplyMsg)}
  {r : ConfReqMsg × ConfReplyMsg}

/-- The request registers the start node: it comes with an address and is
answered with success. -/
def Registers (tbl : List ConfEntry) (reqs : List (ConfReqMsg × ConfReplyMsg))
    (r : ConfReqMsg × ConfReplyMsg) : Prop :=
  kindOf tbl r.1 = some .foxStart ∧ r.1.nrParameters = 5 ∧
    (answerAfter tbl reqs r).reply.err = confLookupSuccess

/-- The address a start node sends. -/
def ConfReqMsg.address (request : ConfReqMsg) : FoxStartInfo :=
  ⟨fun i => request.parValue (i.val + 1), request.parValue 5, true⟩

theorem infoAfter_append : infoAfter tbl (pre ++ post) =
    post.foldl (fun info r => (lookupConfig tbl info r.1 r.2).info) (infoAfter tbl pre) :=
  List.foldl_append

theorem infoAfter_snoc :
    infoAfter tbl (reqs ++ [r]) = (answerAfter tbl reqs r).info := by
  rw [infoAfter_append]
  rfl

/-- Once set, the address stays. -/
theorem foldl_info_of_isSet {info : FoxStartInfo} (hset : info.isSet = true)
    (post : List (ConfReqMsg × ConfReplyMsg)) :
    post.foldl (fun info r => (lookupConfig tbl info r.1 r.2).info) info = info := by
  induction post with
  | nil => rfl
  | cons r post ih => rw [List.foldl_cons, info_of_isSet hset, ih]

/-- A request that registers the start node finds none registered, and
leaves its own address. -/
theorem Registers.info (h : Registers tbl pre r) :
    (infoAfter tbl pre).isSet = false ∧ (answerAfter tbl pre r).info = r.1.address := by
  obtain ⟨hk, hn, herr⟩ := h
  have hans := answer_start (infoAfter tbl pre) r.2 hk
  cases hset : (infoAfter tbl pre).isSet with
  | true =>
      rw [if_pos hset] at hans
      rw [answerAfter, hans.1] at herr
      exact absurd herr (by decide)
  | false =>
      rw [hset] at hans
      refine ⟨rfl, ?_⟩
      rw [answerAfter, hans.2.2, ConfReqMsg.address, hn]
      rfl

theorem Registers.infoAfter (h : Registers tbl pre r) (post : List (ConfReqMsg × ConfReplyMsg)) :
    infoAfter tbl (pre ++ r :: post) = r.1.address := by
  have hsplit : pre ++ r :: post = (pre ++ [r]) ++ post := by simp
  rw [hsplit, infoAfter_append, infoAfter_snoc, h.info.2]
  exact foldl_info_of_isSet rfl post

/-- Before a request registers the start node, none is registered. -/
theorem isSet_of_unregistered
    (h : ∀ pre r post, reqs = pre ++ r :: post → ¬ Registers tbl pre r) :
    (infoAfter tbl reqs).isSet = false := by
  induction reqs using List.reverseRecOn with
  | nil => rfl
  | append_singleton reqs r ih =>
      have hset := ih fun pre r' post he => h pre r' (post ++ [r]) (by simp [he])
      rw [infoAfter_snoc]
      by_cases hk : kindOf tbl r.1 = some .foxStart
      · have hans := answer_start (CloudProfiler.infoAfter tbl reqs) r.2 hk
        rw [hset] at hans
        have hnot := h reqs r [] (by simp)
        rw [answerAfter, hans.2.2]
        exact Bool.eq_false_iff.mpr fun hn => hnot ⟨hk, by simpa using hn, hans.1⟩
      · rw [answerAfter, info_of_ne_start hk, hset]

/-- **The rendezvous of the fox nodes**, for every table and every sequence
of requests.  Before a start node with its five parameters is answered with
success, end nodes are refused with `ERR_FOX_START_NOT_SET` and no
parameters.  From then on the stored address is the one of that request,
whatever is requested; end nodes that are answered with success get exactly
this address, and start nodes are refused with
`ERR_FOX_MULTIPE_START_NODE`. -/
theorem fox_rendezvous (tbl : List ConfEntry) :
    (∀ reqs, (∀ pre r post, reqs = pre ++ r :: post → ¬ Registers tbl pre r) →
      ∀ q, kindOf tbl q.1 = some .foxEnd →
        (answerAfter tbl reqs q).reply.err = errFoxStartNotSet ∧
          (answerAfter tbl reqs q).ret = false ∧
          (answerAfter tbl reqs q).reply.nrParameters = 0) ∧
    (∀ pre r, Registers tbl pre r → ∀ post,
      infoAfter tbl (pre ++ r :: post) = r.1.address ∧
      (∀ q, kindOf tbl q.1 = some .foxEnd →
        (answerAfter tbl (pre ++ r :: post) q).reply.err = confLookupSuccess ∧
          (answerAfter tbl (pre ++ r :: post) q).reply.nrParameters = 5 ∧
          (∀ i < 5, (answerAfter tbl (pre ++ r :: post) q).reply.parValue i =
            r.1.parValue (i + 1))) ∧
      (∀ q, kindOf tbl q.1 = some .foxStart →
        (answerAfter tbl (pre ++ r :: post) q).reply.err = errFoxMultipeStartNode ∧
          (answerAfter tbl (pre ++ r :: post) q).ret = false)) := by
  refine ⟨fun reqs hun q hq => ?_, fun pre r hreg post => ⟨hreg.infoAfter post, ?_, ?_⟩⟩
  · have hans := answer_end (infoAfter tbl reqs) q.2 hq
    rw [isSet_of_unregistered hun] at hans
    exact hans
  · intro q hq
    have hans := answer_end (infoAfter tbl (pre ++ r :: post)) q.2 hq
    rw [hreg.infoAfter post] at hans
    rw [answerAfter, hreg.infoAfter post]
    obtain ⟨herr, -, hnr, hip, hport⟩ := hans
    refine ⟨herr, hnr, fun i hi => ?_⟩
    obtain h4 | h4 := Nat.lt_or_ge i 4
    · exact hip ⟨i, h4⟩
    · obtain rfl : i = 4 := by omega
      exact hport
  · intro q hq
    have hans := answer_start (infoAfter tbl (pre ++ r :: post)) q.2 hq
    rw [hreg.infoAfter post] at hans
    rw [answerAfter, hreg.infoAfter post]
    exact hans

/-- The request loop answers as `lookupConfig` does, up to the first refused
start node. -/
theorem serve_answers {info : FoxStartInfo} (hinfo : info = infoAfter tbl pre)
    (reqs : List (ConfReqMsg × ConfReplyMsg)) (i : Nat) (a : ConfReplyMsg)
    (ha : (serve tbl info reqs).2[i]? = some a) :
    ∃ r, reqs[i]? = some r ∧ a = (answerAfter tbl (pre ++ reqs.take i) r).reply := by
  subst hinfo
  induction reqs generalizing pre i with
  | nil => simp [serve] at ha
  | cons r reqs ih =>
      simp only [serve] at ha
      cases i with
      | zero =>
          refine ⟨r, rfl, ?_⟩
          split at ha <;> simpa [answerAfter] using ha.symm
      | succ i =>
          split at ha
          · simp at ha
          · have hnext : (lookupConfig tbl (infoAfter tbl pre) r.1 r.2).info =
                infoAfter tbl (pre ++ [r]) := by
              rw [infoAfter_snoc]
              rfl
            rw [hnext, List.getElem?_cons_succ] at ha
            obtain ⟨q, hq, he⟩ := ih i ha
            exact ⟨q, hq, by simpa using he⟩

/-- A table with one start and one end node. -/
def foxTable : List ConfEntry :=
  [⟨"fox_start", ".*", ".*", ".*", ".*", .foxStart, .ascii, 0, fun _ => 0⟩,
    ⟨"fox_end", ".*", ".*", ".*", ".*", .foxEnd, .ascii, 0, fun _ => 0⟩]

/-- A request by one of the two nodes of `foxTable`. -/
def foxRequest (name : String) (n : Int32) (par : Nat → Int64) : ConfReqMsg × ConfReplyMsg :=
  (⟨name, "10.0.0.1", 1, 1, 0, n, par⟩, ⟨0, none, none, 0, fun _ => 0⟩)

/-- The start node asks once without its address, then with it; the end node
gets 10.0.0.1:9104. -/
theorem fox_rendezvous_two_nodes :
    let start := foxRequest "fox_start" 5 fun i => [5, 10, 0, 0, 1, 9104].getD i 0
    let reqs := [foxRequest "fox_start" 0 fun _ => 77, start]
    let q := foxRequest "fox_end" 0 fun _ => 0
    (answerAfter foxTable reqs q).reply.err = confLookupSuccess ∧
      ∀ i < 5, (answerAfter foxTable reqs q).reply.parValue i = start.1.parValue (i + 1) := by
  have hreg : Registers foxTable [foxRequest "fox_start" 0 fun _ => 77]
      (foxRequest "fox_start" 5 fun i => [5, 10, 0, 0, 1, 9104].getD i 0) :=
    ⟨by decide +kernel, by decide, by decide +kernel⟩
  obtain ⟨-, hq, -⟩ := (fox_rendezvous foxTable).2 _ _ hreg []
  have h := hq (foxRequest "fox_end" 0 fun _ => 0) (by decide +kernel)
  exact ⟨h.1, h.2.2⟩

end Rendezvous

end CloudProfiler
