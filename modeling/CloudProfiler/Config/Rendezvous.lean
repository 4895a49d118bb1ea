import CloudProfiler.Config.FoxEnd
import CloudProfiler.Config.Message
import CloudProfiler.LogText
import CloudProfiler.Numeral
import CloudProfiler.Run

/-!
# CloudProfiler.Config.Rendezvous

The nodes of a fox session and the configuration server: `openChannel` up to
the point where a handler is set up, with `getConfigFromServer`,
`initFoxStartHandler` and `initFoxEndHandler` (`channels.cpp`,
`net_conf.cpp`, `fox_start_handler.cpp`, `fox_end_handler.cpp`), and the
request loop of `config_server.cpp`.

A node sends its request, the server answers one request at a time, and the
node goes on with the reply; these steps are interleaved in any order.

* `Agreed` — the invariant, `Agreed.step` — every step keeps it;
* `nodes_agree` — there is one start node, and end nodes are connected to it.
-/

namespace CloudProfiler.Rendezvous

/-! ## addresses -/

/-- `fox_start_default_port`. -/
def foxStartDefaultPort : Int64 := 9104

/-- An IPv4 address as `inet_ntop` prints it. -/
def dottedQuad (ip : Fin 4 → UInt8) : String := s!"{ip 0}.{ip 1}.{ip 2}.{ip 3}"

/-- `atoi`, for values of type `int`. -/
def atoi (str : List Char) : Int :=
  signed (literalParts str).1 (Nat.ofDigitChars 10 (literalParts str).2.1 0)

/-- The words `getline` reads: there is none behind a delimiter at the end. -/
def getlines (str : List Char) (delim : Char) : List (List Char) :=
  let words := str.splitOn delim
  if words.getLast? = some [] then words.dropLast else words

/-- `split_ip`. -/
def split_ip (str : List Char) (delim : Char) : List Int := (getlines str delim).map atoi

section Addresses

variable {ip : Fin 4 → UInt8}

theorem atoi_natText (n : Nat) : atoi (natText n) = n := by
  have hparts : literalParts ([] ++ ([] ++ (natText n ++ []))) =
      (decide ([] = ['-']), natText n, []) :=
    literalParts_append (by simp) (by simp) (fun c => isDigit_of_mem_natText) natText_ne_nil rfl
  rw [List.nil_append, List.nil_append, List.append_nil] at hparts
  rw [atoi, hparts]
  simp [signed, natText, Nat.ofDigitChars_ten_toDigits]

theorem toList_dottedQuad : (dottedQuad ip).toList =
    ['.'].intercalate ((List.ofFn ip).map fun b => natText b.toNat) := by
  have happend : (dottedQuad ip).toList =
      (toString (ip 0).toNat).toList ++ ".".toList ++ (toString (ip 1).toNat).toList ++
        ".".toList ++ (toString (ip 2).toNat).toList ++ ".".toList ++
          (toString (ip 3).toNat).toList := by
    simp only [← String.toList_append]
    rfl
  rw [happend]
  simp [natText, List.ofFn_succ, List.intercalate_cons_cons]

/-- An address is split into its bytes. -/
theorem split_ip_dottedQuad :
    split_ip (dottedQuad ip).toList '.' = (List.ofFn ip).map fun b => (b.toNat : Int) := by
  have hdot (n : Nat) : '.' ∉ natText n := fun h => by
    have := isDigit_of_mem_natText h
    simp at this
  have hwords :
      (dottedQuad ip).toList.splitOn '.' = (List.ofFn ip).map fun b => natText b.toNat := by
    rw [toList_dottedQuad]
    refine List.splitOn_intercalate '.' (fun l hl => ?_) (by simp [List.ofFn_succ])
    obtain ⟨b, -, rfl⟩ := List.mem_map.mp hl
    exact hdot _
  have hlast : ((List.ofFn ip).map fun b => natText b.toNat).getLast? ≠ some [] := fun h => by
    obtain ⟨b, -, hb⟩ := List.mem_map.mp (List.mem_of_getLast? h)
    exact natText_ne_nil hb
  rw [split_ip, getlines, hwords, if_neg hlast, List.map_map]
  exact List.map_congr_left fun b _ => atoi_natText b.toNat

/-- A byte has three digits at most. -/
theorem length_natText_le (b : UInt8) : (natText b.toNat).length ≤ 3 :=
  (Nat.length_toDigits_le_iff (by decide) (by decide)).mpr (by have := b.toNat_lt; omega)

theorem length_dottedQuad_le : (dottedQuad ip).toList.length ≤ 15 := by
  have h0 := length_natText_le (ip 0)
  have h1 := length_natText_le (ip 1)
  have h2 := length_natText_le (ip 2)
  have h3 := length_natText_le (ip 3)
  rw [toList_dottedQuad]
  simp [List.ofFn_succ, List.intercalate_cons_cons]
  omega

end Addresses

/-! ## a node -/

/-- A process that opens a channel: the arguments of `openChannel`, what the
system calls return, and what the array `par` holds at first.  `ip` is `none`
where `getIPDottedQuad` finds no address. -/
structure Node where
  h : HandlerType
  f : LogFormat
  ch_msg : List UInt8
  mychannel : Int32
  ip : Option (Fin 4 → UInt8)
  ch_pid : UInt32
  ch_tid : UInt32
  mem : Nat → Int64

/-- The address that is sent with a request. -/
def Node.ch_dotted_quad (node : Node) : List UInt8 :=
  asciiBytes (match node.ip with
    | some ip => dottedQuad ip
    | none => "NO.IP.ADDR")

/-- The address `initFoxStartHandler` takes; `getIPDottedQuad` writes the
default before it looks for one. -/
def Node.tmpAddr (node : Node) : Fin 4 → UInt8 := node.ip.getD fun _ => 0

/-- The parameters `initFoxStartHandler` sends. -/
def Node.startPar (node : Node) (par : Nat → Int64) : Nat → Int64 :=
  let addr_vector := split_ip (dottedQuad node.tmpAddr).toList '.'
  fun i =>
    if i = 0 then 5
    else if i < 5 then Int64.ofInt (addr_vector.getD (i - 1) 0)
    else if i = 5 then foxStartDefaultPort
    else par i

/-- The call sites of `getConfigFromServer`. -/
inductive Site
  /-- in `openChannel` -/
  | netConf
  /-- in `initFoxStartHandler` -/
  | foxStart
  /-- in the retry loop of `initFoxEndHandler` -/
  | foxEnd (index : Nat)

/-- Where a node is in `openChannel`. -/
inductive Pc
  /-- `getConfigFromServer` is called -/
  | call (site : Site) (cl : Client)
  /-- the request is sent -/
  | sent (site : Site) (cl : Client) (request : List UInt8)
  /-- the reply is there -/
  | answered (site : Site) (cl : Client) (msg : ConfReplyMsg)
  /-- `initDefectHandler` -/
  | defect
  /-- the receiver of a start node is started -/
  | foxStart (cl : Client)
  /-- the socket of an end node is connected to `foxAddr cl.par` -/
  | foxEnd (cl : Client)
  /-- a handler of another type is set up -/
  | other (h : Option HandlerType)

/-- The retry loop of `initFoxEndHandler`, and what follows it. -/
def foxEndLoop (index : Nat) (ret : Bool) (cl : Client) : Pc :=
  if cl.par 0 = 0 ∧ index < foxEndRetry then .call (.foxEnd index) cl
  else if !ret then .defect
  else .foxEnd cl

/-- The `switch` of `openChannel`. -/
def Node.initHandler (node : Node) (cl : Client) : Pc :=
  match cl.chH with
  | some .foxStart => .call .foxStart { cl with par := node.startPar cl.par }
  | some .foxEnd => foxEndLoop 0 true cl
  | h => .other h

/-- `openChannel`, up to its first request. -/
def Node.openChannel (node : Node) : Pc :=
  let cl : Client := ⟨some node.h, fun i => if i = 0 then 0 else node.mem i, some node.f⟩
  if node.h = .netConf then .call .netConf cl else node.initHandler cl

/-- What follows the return of `getConfigFromServer`. -/
def Node.resume (node : Node) (site : Site) (cl : Client) (msg : ConfReplyMsg) : Pc :=
  let r := getConfigFromServer msg cl
  match site with
  | .netConf => if !r.1 then .defect else node.initHandler r.2
  | .foxStart => if !r.1 then .defect else .foxStart r.2
  | .foxEnd index => foxEndLoop (index + 1) (r.1 && r.2.par 0 != -1) r.2

/-! ## the system -/

/-- The nodes and the server; `running` until it leaves its loop. -/
structure State (ι : Type) where
  pc : ι → Pc
  info : FoxStartInfo
  running : Bool

/-- A node goes on, with a request buffer that holds `mem`; or the server
answers a node, with a reply that holds `reply` where it is not set. -/
inductive Label (ι : Type)
  | node (i : ι) (mem : Nat → UInt8)
  | server (i : ι) (reply : ConfReplyMsg)

section System

variable {ι : Type} [DecidableEq ι]

def State.setPc (s : State ι) (i : ι) (pc : Pc) : State ι :=
  { s with pc := Function.update s.pc i pc }

@[simp] theorem State.setPc_self (s : State ι) (i : ι) (pc : Pc) : (s.setPc i pc).pc i = pc :=
  Function.update_self ..

theorem State.setPc_of_ne {i j : ι} (s : State ι) (pc : Pc) (h : j ≠ i) :
    (s.setPc i pc).pc j = s.pc j :=
  Function.update_of_ne h ..

/-- Every process calls `openChannel`. -/
def State.init (nodes : ι → Node) : State ι := ⟨fun i => (nodes i).openChannel, .init, true⟩

/-- A node sends its request, or takes the reply. -/
def nodeStep (nodes : ι → Node) (s : State ι) (i : ι) (mem : Nat → UInt8) : Option (State ι) :=
  match s.pc i with
  | .call site cl =>
      some (s.setPc i (.sent site cl (confReqMsg mem (nodes i).ch_msg (nodes i).ch_dotted_quad
        (nodes i).ch_pid (nodes i).ch_tid (nodes i).mychannel cl.par)))
  | .answered site cl msg => some (s.setPc i ((nodes i).resume site cl msg))
  | _ => none

/-- The body of the request loop of `main`. -/
def serverStep (tbl : List ConfEntry) (s : State ι) (i : ι) (reply : ConfReplyMsg) :
    Option (State ι) :=
  if s.running then
    match s.pc i with
    | .sent site cl request =>
        (readConfReqMsg request).map fun msg =>
          let a := lookupConfig tbl s.info msg { reply with nrParameters := 0 }
          { s.setPc i (.answered site cl a.reply) with
            info := a.info
            running := a.reply.err != errFoxMultipeStartNode }
    | _ => none
  else none

def step (tbl : List ConfEntry) (nodes : ι → Node) (s : State ι) : Label ι → Option (State ι)
  | .node i mem => nodeStep nodes s i mem
  | .server i reply => serverStep tbl s i reply

end System

/-! ## requests and replies -/

/-- The part of a request that is looked up. -/
def Node.request (node : Node) : ConfReqMsg where
  chName := stringOf (cStr node.ch_msg)
  chDottedQuad := stringOf (cStr node.ch_dotted_quad)
  chPid := node.ch_pid
  chTid := node.ch_tid
  chNr := node.mychannel
  nrParameters := 0
  parValue := fun _ => 0

/-- The type of handler the table has for a node. -/
def Node.kind (node : Node) (tbl : List ConfEntry) : Option HandlerType := kindOf tbl node.request

/-- What the server remembers of a start node. -/
def Node.address (node : Node) : FoxStartInfo :=
  ⟨fun i => Int64.ofInt (node.tmpAddr i).toNat, foxStartDefaultPort, true⟩

/-- The endpoint of the start node. -/
def endpoint (info : FoxStartInfo) : String :=
  s!"tcp://{info.ip 0}.{info.ip 1}.{info.ip 2}.{info.ip 3}:{info.port}"

/-- The name of the channel is a string of the length that a request holds, and
the table does not make another channel of a fox channel. -/
structure Node.Configured (tbl : List ConfEntry) (node : Node) : Prop where
  fits : (cStr node.ch_msg).length < maxStrSize
  foxStart : node.h = .foxStart → node.kind tbl = some .foxStart
  foxEnd : node.h = .foxEnd → node.kind tbl = some .foxEnd

section Messages

variable {tbl : List ConfEntry} {node : Node} {info : FoxStartInfo} {request : ConfReqMsg}
  {reply : ConfReplyMsg} {mem : Nat → UInt8} {par : Nat → Int64}

theorem length_ch_dotted_quad_lt : (cStr node.ch_dotted_quad).length < maxStrSize := by
  have hle : (cStr node.ch_dotted_quad).length ≤ node.ch_dotted_quad.length :=
    (List.takeWhile_prefix _).length_le
  refine hle.trans_lt ?_
  rw [Node.ch_dotted_quad, asciiBytes, List.length_map]
  cases node.ip with
  | none => decide
  | some ip => exact length_dottedQuad_le.trans_lt (by decide)

/-- A lookup does not depend on the parameters. -/
theorem kindOf_withParameters (n : Int32) (parValue : Nat → Int64) :
    kindOf tbl { request with nrParameters := n, parValue := parValue } = kindOf tbl request := rfl

/-- **A request arrives.** -/
theorem request_read (h : node.Configured tbl) (mem : Nat → UInt8) (par : Nat → Int64) :
    ∃ msg, readConfReqMsg (confReqMsg mem node.ch_msg node.ch_dotted_quad node.ch_pid node.ch_tid
        node.mychannel par) = some msg ∧
      kindOf tbl msg = node.kind tbl ∧ msg.nrParameters = (par 0).toInt32 ∧
      ((par 0).toInt = 5 → ∀ i : Nat, 1 ≤ i → i ≤ 5 → msg.parValue i = par i) := by
  have hname : cString (confReqMsg mem node.ch_msg node.ch_dotted_quad node.ch_pid node.ch_tid
      node.mychannel par) = some (cStr node.ch_msg) := by
    rw [confReqMsg]
    exact cString_field_iff.mpr (.inl h.fits)
  have hip : cString ((confReqMsg mem node.ch_msg node.ch_dotted_quad node.ch_pid node.ch_tid
      node.mychannel par).drop 128) = some (cStr node.ch_dotted_quad) := by
    rw [drop_confReqMsg.1]
    exact cString_field_iff.mpr (.inl length_ch_dotted_quad_lt)
  have hpar (h5 : (par 0).toInt = 5) (i : Nat) (h1 : 1 ≤ i) (hi : i ≤ 5) :
      int64At (((parBytes mem par).drop (8 * i)).take 8) = par i := by
    rw [take_drop_parBytes h1 (by omega) (by omega), int64At_leBytes]
  rw [readConfReqMsg_eq, hname, hip, Option.bind_some, Option.map_some]
  refine ⟨{ node.request with
    nrParameters := (par 0).toInt32
    parValue := fun i => int64At (((parBytes mem par).drop (8 * i)).take 8) }, rfl, ?_, rfl, ?_⟩
  · exact kindOf_withParameters _ _
  · exact hpar

/-- A reply is of the type the table has. -/
theorem hType_lookupConfig {h : HandlerType} (hk : kindOf tbl request = some h) :
    (lookupConfig tbl info request reply).reply.hType = some h := by
  obtain ⟨it, line, hit, he⟩ := lookupConfig_of_kind info reply hk
  rw [he, ← hit]
  unfold serveEntry
  split
  · cases hset : info.isSet <;> simp [makeFoxStartReply, hset]
  · cases hset : info.isSet <;> simp [makeFoxEndReply, hset]
  · rfl

theorem fails_of_not_found (hk : kindOf tbl request = none) :
    (lookupConfig tbl info request reply).reply.fails = true := by
  have hfind : tbl.find? (·.matches request) = none := Option.map_eq_none_iff.mp hk
  rw [lookupConfig_eq, hfind]
  simp [ConfReplyMsg.fails, errConfNotFound, errFoxStartNotSet]

/-- Only a second start node is refused as such. -/
theorem err_eq_multipe
    (h : (lookupConfig tbl info request reply).reply.err = errFoxMultipeStartNode) :
    kindOf tbl request = some .foxStart ∧ info.isSet = true := by
  have hsuccess : confLookupSuccess ≠ errFoxMultipeStartNode := by decide
  cases hk : kindOf tbl request with
  | none =>
      have hfind : tbl.find? (·.matches request) = none := Option.map_eq_none_iff.mp hk
      rw [lookupConfig_eq, hfind] at h
      exact absurd h (by decide : errConfNotFound ≠ errFoxMultipeStartNode)
  | some k =>
      obtain ⟨it, line, hit, he⟩ := lookupConfig_of_kind info reply hk
      rw [he, serveEntry, hit] at h
      split at h
      · refine ⟨rfl, ?_⟩
        cases hset : info.isSet with
        | true => rfl
        | false =>
            rw [makeFoxStartReply, hset] at h
            exact absurd h hsuccess
      · cases hset : info.isSet with
        | true =>
            rw [makeFoxEndReply, hset] at h
            exact absurd h hsuccess
        | false =>
            rw [makeFoxEndReply, hset] at h
            exact absurd h (by decide : errFoxStartNotSet ≠ errFoxMultipeStartNode)
      · exact absurd h hsuccess

end Messages

/-! ## the invariant -/

/-- What holds where a request is made. -/
def Site.Ok (tbl : List ConfEntry) (node : Node) (cl : Client) : Site → Prop
  | .netConf => node.h = .netConf ∧ cl.par 0 = 0
  | .foxStart => node.kind tbl = some .foxStart ∧ ∃ par, cl.par = node.startPar par
  | .foxEnd index => node.kind tbl = some .foxEnd ∧ cl.par 0 = 0 ∧ index < foxEndRetry

/-- The parameters of a reply are the address of the start node. -/
structure Brings (info : FoxStartInfo) (msg : ConfReplyMsg) : Prop where
  isSet : info.isSet = true
  nrParameters : msg.nrParameters = 5
  ip : ∀ i : Fin 4, msg.parValue i = info.ip i
  port : msg.parValue 4 = info.port

/-- What a reply says. -/
structure Answers (tbl : List ConfEntry) (node : Node) (info : FoxStartInfo) (site : Site)
    (msg : ConfReplyMsg) : Prop where
  hType : msg.fails = false → msg.hType = node.kind tbl
  foxEnd : node.kind tbl = some .foxEnd → msg.brings = true → Brings info msg
  foxStart : site = .foxStart → msg.fails = false → info = node.address

/-- An array with parameters holds the address of the start node. -/
def Holds (info : FoxStartInfo) (par : Nat → Int64) : Prop :=
  par 0 ≠ 0 → info.isSet = true ∧ foxAddr par = endpoint info

/-- What holds of a node at each place. -/
def Pc.Ok (tbl : List ConfEntry) (node : Node) (info : FoxStartInfo) : Pc → Prop
  | .call site cl => site.Ok tbl node cl
  | .sent site cl request => site.Ok tbl node cl ∧ ∃ mem, request = confReqMsg mem node.ch_msg
      node.ch_dotted_quad node.ch_pid node.ch_tid node.mychannel cl.par
  | .answered site cl msg => site.Ok tbl node cl ∧ Answers tbl node info site msg
  | .defect | .other _ => True
  | .foxStart _ => node.kind tbl = some .foxStart ∧ info = node.address
  | .foxEnd cl => node.kind tbl = some .foxEnd ∧ Holds info cl.par

/-- The server has accepted the node as the start node. -/
def Pc.registered : Pc → Bool
  | .answered .foxStart _ msg => !msg.fails
  | .foxStart _ => true
  | _ => false

section Nodes

variable {tbl : List ConfEntry} {node : Node} {info info' : FoxStartInfo} {request : ConfReqMsg}
  {reply msg : ConfReplyMsg} {site : Site} {cl : Client} {pc : Pc}

theorem startPar_zero (par : Nat → Int64) : node.startPar par 0 = 5 := rfl

theorem startPar_succ (par : Nat → Int64) (i : Fin 4) :
    node.startPar par (i.val + 1) = Int64.ofInt (node.tmpAddr i).toNat := by
  have hlt : i.val + 1 < 5 := by omega
  rw [Node.startPar, split_ip_dottedQuad]
  beta_reduce
  rw [if_neg (Nat.succ_ne_zero _), if_pos hlt, Nat.add_sub_cancel, List.getD_eq_getElem?_getD,
    List.getElem?_map, List.getElem?_ofFn, dif_pos i.isLt]
  rfl

theorem startPar_five (par : Nat → Int64) : node.startPar par 5 = foxStartDefaultPort := rfl

/-- **The server's reply**, at any site. -/
theorem answers_lookupConfig (hkind : kindOf tbl request = node.kind tbl)
    (hstart : site = .foxStart → node.kind tbl = some .foxStart ∧ request.nrParameters = 5 ∧
      ∃ par, ∀ i : Nat, 1 ≤ i → i ≤ 5 → request.parValue i = node.startPar par i) :
    Answers tbl node (lookupConfig tbl info request reply).info site
      (lookupConfig tbl info request reply).reply where
  hType := fun h => by
    cases hk : kindOf tbl request with
    | none => exact absurd h (by simp [fails_of_not_found hk])
    | some k => rw [hType_lookupConfig hk, ← hkind, hk]
  foxEnd := fun hk hbrings => by
    rw [← hkind] at hk
    have hans := answer_end info reply hk
    have hinfo : (lookupConfig tbl info request reply).info = info :=
      info_of_ne_start (by simp [hk])
    rw [hinfo]
    cases hset : info.isSet with
    | true =>
        rw [if_pos hset] at hans
        obtain ⟨-, -, hnr, hip, hport⟩ := hans
        exact ⟨hset, hnr, hip, hport⟩
    | false =>
        rw [hset] at hans
        simp [ConfReplyMsg.brings, hans.2.2] at hbrings
  foxStart := fun hsite hfails => by
    obtain ⟨hk, hnr, par, hpar⟩ := hstart hsite
    rw [← hkind] at hk
    have hans := answer_start info reply hk
    cases hset : info.isSet with
    | true =>
        rw [if_pos hset] at hans
        simp [ConfReplyMsg.fails, hans.1, errFoxMultipeStartNode, errFoxStartNotSet] at hfails
    | false =>
        rw [hset] at hans
        rw [hans.2.2, hnr, hpar 5 (by decide) (by decide), startPar_five, Node.address]
        congr
        exact funext fun i => (hpar _ (by omega) (by omega)).trans (startPar_succ par i)

/-- The reply that makes a node the start node. -/
theorem registered_answered_iff (hkind : site = .foxStart → kindOf tbl request = some .foxStart)
    (hnr : request.nrParameters = 5 ↔ site = .foxStart) :
    (Pc.answered site cl (lookupConfig tbl info request reply).reply).registered = true ↔
      info.isSet = false ∧ (lookupConfig tbl info request reply).info.isSet = true := by
  constructor
  · intro hreg
    obtain ⟨hsite, hfails⟩ : site = .foxStart ∧
        (lookupConfig tbl info request reply).reply.fails = false := by
      cases site with
      | netConf | foxEnd => exact absurd hreg Bool.false_ne_true
      | foxStart => exact ⟨rfl, by simpa [Pc.registered] using hreg⟩
    have hans := answer_start info reply (hkind hsite)
    cases hset : info.isSet with
    | true =>
        rw [if_pos hset] at hans
        simp [ConfReplyMsg.fails, hans.1, errFoxMultipeStartNode, errFoxStartNotSet] at hfails
    | false =>
        rw [hset] at hans
        rw [hans.2.2]
        simpa using hnr.mpr hsite
  · rintro ⟨hset, hinfo⟩
    have hk : kindOf tbl request = some .foxStart := by
      by_contra hk
      rw [info_of_ne_start hk, hset] at hinfo
      exact Bool.false_ne_true hinfo
    have hans := answer_start info reply hk
    rw [hset] at hans
    rw [hans.2.2] at hinfo
    rw [hnr.mp (by simpa using hinfo)]
    simp [Pc.registered, ConfReplyMsg.fails, hType_lookupConfig hk, hans.1, confLookupSuccess]

/-- What a reply leaves in an array that had no parameters. -/
theorem holds_getConfigFromServer (h : Answers tbl node info site msg)
    (hk : node.kind tbl = some .foxEnd) (h0 : cl.par 0 = 0) :
    Holds info (getConfigFromServer msg cl).2.par := fun hne => by
  have hbrings : msg.brings = true := by
    cases hb : msg.brings with
    | true => rfl
    | false => exact absurd (getConfigFromServer_idle hb h0) hne
  have haddr := h.foxEnd hk hbrings
  obtain ⟨-, -, -, hpar⟩ := getConfigFromServer_brings cl hbrings
  rw [haddr.nrParameters] at hpar
  refine ⟨haddr.isSet, ?_⟩
  delta foxAddr endpoint
  rw [hpar 0 (by decide), hpar 1 (by decide), hpar 2 (by decide), hpar 3 (by decide),
    hpar 4 (by decide), haddr.port]
  rw [← haddr.ip 0, ← haddr.ip 1, ← haddr.ip 2, ← haddr.ip 3]
  rfl

theorem ok_foxEndLoop {index : Nat} {ret : Bool} (hk : node.kind tbl = some .foxEnd)
    (h : Holds info cl.par) : (foxEndLoop index ret cl).Ok tbl node info := by
  unfold foxEndLoop
  split
  · next hcall => exact ⟨hk, hcall⟩
  · split
    · trivial
    · exact ⟨hk, h⟩

theorem ok_initHandler (hstart : cl.chH = some .foxStart → node.kind tbl = some .foxStart)
    (hend : cl.chH = some .foxEnd → node.kind tbl = some .foxEnd ∧ Holds info cl.par) :
    (node.initHandler cl).Ok tbl node info := by
  unfold Node.initHandler
  split
  · next h => exact ⟨hstart h, _, rfl⟩
  · next h => exact ok_foxEndLoop (hend h).1 (hend h).2
  · trivial

theorem ok_openChannel (h : node.Configured tbl) : node.openChannel.Ok tbl node info := by
  unfold Node.openChannel
  split
  · next hnet => exact ⟨hnet, rfl⟩
  · exact ok_initHandler (fun he => h.foxStart (Option.some.inj he))
      fun he => ⟨h.foxEnd (Option.some.inj he), fun hne => absurd rfl hne⟩

/-- **A node goes on with a reply.** -/
theorem ok_resume (hsite : site.Ok tbl node cl) (h : Answers tbl node info site msg) :
    (node.resume site cl msg).Ok tbl node info := by
  obtain ⟨hret, hch⟩ := getConfigFromServer_fst msg cl
  cases site with
  | netConf =>
      simp only [Node.resume, hret, Bool.not_not]
      cases hf : msg.fails with
      | true => trivial
      | false =>
          have hkind : (getConfigFromServer msg cl).2.chH = node.kind tbl :=
            (hch hf).trans (h.hType hf)
          refine ok_initHandler (fun he => hkind ▸ he) fun he => ?_
          have hk : node.kind tbl = some .foxEnd := hkind ▸ he
          exact ⟨hk, holds_getConfigFromServer h hk hsite.2⟩
  | foxStart =>
      simp only [Node.resume, hret, Bool.not_not]
      cases hf : msg.fails with
      | true => trivial
      | false => exact ⟨hsite.1, h.foxStart rfl hf⟩
  | foxEnd index =>
      exact ok_foxEndLoop hsite.1 (holds_getConfigFromServer h hsite.1 hsite.2.1)

theorem registered_foxEndLoop (index : Nat) (ret : Bool) (cl : Client) :
    (foxEndLoop index ret cl).registered = false := by
  unfold foxEndLoop
  split
  · rfl
  · cases ret <;> rfl

theorem registered_initHandler (node : Node) (cl : Client) :
    (node.initHandler cl).registered = false := by
  unfold Node.initHandler
  split
  · rfl
  · exact registered_foxEndLoop ..
  · rfl

theorem registered_openChannel (node : Node) : node.openChannel.registered = false := by
  unfold Node.openChannel
  split
  · rfl
  · exact registered_initHandler ..

theorem registered_resume (node : Node) (site : Site) (cl : Client) (msg : ConfReplyMsg) :
    (node.resume site cl msg).registered = (Pc.answered site cl msg).registered := by
  have hret := (getConfigFromServer_fst msg cl).1
  cases site with
  | netConf =>
      show (if !(getConfigFromServer msg cl).1 then Pc.defect
        else node.initHandler (getConfigFromServer msg cl).2).registered = false
      split
      · rfl
      · exact registered_initHandler ..
  | foxStart =>
      simp only [Node.resume, hret, Bool.not_not, Pc.registered]
      cases msg.fails <;> rfl
  | foxEnd index => exact registered_foxEndLoop ..

/-- A node that is registered is the start node the server remembers. -/
theorem Pc.Ok.info_eq (h : pc.Ok tbl node info) (hreg : pc.registered = true) :
    node.kind tbl = some .foxStart ∧ info = node.address := by
  cases pc with
  | call | sent | defect | other | foxEnd => exact absurd hreg Bool.false_ne_true
  | answered site cl msg =>
      cases site with
      | netConf | foxEnd => exact absurd hreg Bool.false_ne_true
      | foxStart =>
          have hf : msg.fails = false := by simpa [Pc.registered] using hreg
          exact ⟨h.1.1, h.2.foxStart rfl hf⟩
  | foxStart cl => exact h

/-- The server's memory may change until it holds an address. -/
theorem Pc.Ok.congr (h : pc.Ok tbl node info) (hinfo : info.isSet = true → info' = info) :
    pc.Ok tbl node info' := by
  cases pc with
  | call | sent | defect | other => exact h
  | answered site cl msg =>
      refine ⟨h.1, h.2.hType, fun hk hb => ?_, fun hsite hf => ?_⟩
      · have hbrings := h.2.foxEnd hk hb
        rwa [hinfo hbrings.isSet]
      · have haddr := h.2.foxStart hsite hf
        rw [hinfo (by rw [haddr]; rfl), haddr]
  | foxStart cl => exact ⟨h.1, by rw [hinfo (by rw [h.2]; rfl), h.2]⟩
  | foxEnd cl =>
      refine ⟨h.1, fun hne => ?_⟩
      have haddr := h.2 hne
      rwa [hinfo haddr.1]

end Nodes

/-! ## runs -/

section Runs

variable {ι : Type} [DecidableEq ι] {tbl : List ConfEntry} {nodes : ι → Node} {s s' : State ι}
  {i : ι}

/-- What every state of a session satisfies. -/
structure Agreed (tbl : List ConfEntry) (nodes : ι → Node) (s : State ι) : Prop where
  ok : ∀ i, (s.pc i).Ok tbl (nodes i) s.info
  registered : s.info.isSet = true → ∃ i, (s.pc i).registered = true
  unique : ∀ i j, (s.pc i).registered = true → (s.pc j).registered = true → i = j
  running : s.running = false →
    ∃ i j, i ≠ j ∧ (nodes i).kind tbl = some .foxStart ∧ (nodes j).kind tbl = some .foxStart

omit [DecidableEq ι] in
theorem agreed_init (h : ∀ i, (nodes i).Configured tbl) : Agreed tbl nodes (.init nodes) where
  ok := fun i => ok_openChannel (h i)
  registered := fun hset => absurd hset Bool.false_ne_true
  unique := fun i _ hi => absurd hi (by simp [State.init, registered_openChannel])
  running := fun h => by cases h

/-- The steps of a node. -/
theorem nodeStep_cases (tbl : List ConfEntry) {mem : Nat → UInt8}
    (h : nodeStep nodes s i mem = some s') :
    ∃ pc, s' = s.setPc i pc ∧ pc.registered = (s.pc i).registered ∧
      ((s.pc i).Ok tbl (nodes i) s.info → pc.Ok tbl (nodes i) s.info) := by
  unfold nodeStep at h
  split at h
  · next site cl hpc =>
    refine ⟨_, (Option.some.inj h).symm, ?_, fun hok => ?_⟩
    · rw [hpc]
      rfl
    · rw [hpc] at hok
      exact ⟨hok, mem, rfl⟩
  · next site cl msg hpc =>
    refine ⟨_, (Option.some.inj h).symm, ?_, fun hok => ?_⟩
    · rw [hpc, registered_resume]
    · rw [hpc] at hok
      exact ok_resume hok.1 hok.2
  · contradiction

/-- The steps of the server. -/
theorem serverStep_cases {reply : ConfReplyMsg} (h : serverStep tbl s i reply = some s') :
    s.running = true ∧ ∃ site cl request msg, s.pc i = .sent site cl request ∧
      readConfReqMsg request = some msg ∧
      s' = { s.setPc i (.answered site cl
          (lookupConfig tbl s.info msg { reply with nrParameters := 0 }).reply) with
        info := (lookupConfig tbl s.info msg { reply with nrParameters := 0 }).info
        running := (lookupConfig tbl s.info msg { reply with nrParameters := 0 }).reply.err !=
          errFoxMultipeStartNode } := by
  unfold serverStep at h
  split at h
  · next hrunning =>
    split at h
    · next site cl request hpc =>
      obtain ⟨msg, hmsg, he⟩ := Option.map_eq_some_iff.mp h
      exact ⟨hrunning, site, cl, request, msg, hpc, hmsg, he.symm⟩
    · contradiction
  · contradiction

theorem Agreed.setPc (h : Agreed tbl nodes s) {pc : Pc} (hok : pc.Ok tbl (nodes i) s.info)
    (hreg : pc.registered = (s.pc i).registered) : Agreed tbl nodes (s.setPc i pc) := by
  have hsame (j : ι) : ((s.setPc i pc).pc j).registered = (s.pc j).registered := by
    by_cases hj : j = i
    · subst hj
      rw [s.setPc_self, hreg]
    · rw [s.setPc_of_ne pc hj]
  refine ⟨fun j => ?_, fun hset => ?_, fun j k hj hk => ?_, h.running⟩
  · by_cases hj : j = i
    · subst hj
      rw [s.setPc_self]
      exact hok
    · rw [s.setPc_of_ne pc hj]
      exact h.ok j
  · obtain ⟨j, hj⟩ := h.registered hset
    exact ⟨j, (hsame j).trans hj⟩
  · exact h.unique j k ((hsame j).symm.trans hj) ((hsame k).symm.trans hk)

omit [DecidableEq ι] in
/-- What the server reads of a request in transit. -/
theorem Agreed.request_read (h : Agreed tbl nodes s) (hconf : (nodes i).Configured tbl)
    {site : Site} {cl : Client} {request : List UInt8} {msg : ConfReqMsg}
    (hpc : s.pc i = .sent site cl request)
    (hmsg : readConfReqMsg request = some msg) :
    site.Ok tbl (nodes i) cl ∧ kindOf tbl msg = (nodes i).kind tbl ∧
      (msg.nrParameters = 5 ↔ site = .foxStart) ∧
      (site = .foxStart → ∃ par, ∀ k : Nat, 1 ≤ k → k ≤ 5 →
        msg.parValue k = (nodes i).startPar par k) := by
  have hok := h.ok i
  rw [hpc] at hok
  obtain ⟨hsite, mem, rfl⟩ := hok
  obtain ⟨msg', hmsg', hkind, hnr, hpar⟩ := Rendezvous.request_read hconf mem cl.par
  obtain rfl : msg' = msg := Option.some.inj (hmsg'.symm.trans hmsg)
  have hzero (h0 : cl.par 0 = 0) : ¬ msg'.nrParameters = 5 := by
    rw [hnr, h0]
    decide
  refine ⟨hsite, hkind, ?_, ?_⟩
  · cases site with
    | netConf => simp [hzero hsite.2]
    | foxEnd index => simp [hzero hsite.2.1]
    | foxStart =>
        obtain ⟨-, par, hcl⟩ := hsite
        rw [hnr, hcl, startPar_zero]
        simp
  · rintro rfl
    obtain ⟨-, par, hcl⟩ := hsite
    rw [hcl] at hpar
    exact ⟨par, hpar rfl⟩

/-- **The server keeps the invariant.** -/
theorem Agreed.serverStep (h : Agreed tbl nodes s) (hconf : (nodes i).Configured tbl)
    {reply : ConfReplyMsg} (hs : serverStep tbl s i reply = some s') : Agreed tbl nodes s' := by
  obtain ⟨-, site, cl, request, msg, hpc, hmsg, rfl⟩ := serverStep_cases hs
  obtain ⟨hsite, hkind, hnr, hpar⟩ := h.request_read hconf hpc hmsg
  have hstart (he : site = .foxStart) : (nodes i).kind tbl = some .foxStart := by
    subst he
    exact hsite.1
  have hans : Answers tbl (nodes i)
      (lookupConfig tbl s.info msg { reply with nrParameters := 0 }).info site
      (lookupConfig tbl s.info msg { reply with nrParameters := 0 }).reply :=
    answers_lookupConfig hkind fun he => ⟨hstart he, hnr.mpr he, hpar he⟩
  have hreg : (Pc.answered site cl
      (lookupConfig tbl s.info msg { reply with nrParameters := 0 }).reply).registered = true ↔
        s.info.isSet = false ∧
          (lookupConfig tbl s.info msg { reply with nrParameters := 0 }).info.isSet = true :=
    registered_answered_iff (fun he => hkind.trans (hstart he)) hnr
  have hstop (he : (lookupConfig tbl s.info msg { reply with nrParameters := 0 }).reply.err =
      errFoxMultipeStartNode) : (nodes i).kind tbl = some .foxStart ∧ s.info.isSet = true := by
    rw [← hkind]
    exact err_eq_multipe he
  have hkeeps : s.info.isSet = true →
      (lookupConfig tbl s.info msg { reply with nrParameters := 0 }).info = s.info := info_of_isSet
  generalize lookupConfig tbl s.info msg { reply with nrParameters := 0 } = a
    at hans hreg hstop hkeeps
  have hunregistered (j : ι) (hj : (s.pc j).registered = true) : j ≠ i := fun he => by
    rw [he, hpc] at hj
    exact absurd hj Bool.false_ne_true
  have hself : Function.update s.pc i (.answered site cl a.reply) i = .answered site cl a.reply :=
    Function.update_self ..
  have hother {j : ι} (hj : j ≠ i) :
      Function.update s.pc i (.answered site cl a.reply) j = s.pc j := Function.update_of_ne hj ..
  have hset (j : ι) (hj : (s.pc j).registered = true) : s.info.isSet = true := by
    rw [((h.ok j).info_eq hj).2]
    rfl
  refine ⟨fun j => ?_, fun hinfo => ?_, fun j k hj hk => ?_, fun hrunning => ?_⟩
  · show (Function.update s.pc i (.answered site cl a.reply) j).Ok tbl (nodes j) a.info
    by_cases hj : j = i
    · subst hj
      rw [hself]
      exact ⟨hsite, hans⟩
    · rw [hother hj]
      exact (h.ok j).congr hkeeps
  · show ∃ j, (Function.update s.pc i (.answered site cl a.reply) j).registered = true
    cases hold : s.info.isSet with
    | false => exact ⟨i, by rw [hself]; exact hreg.mpr ⟨hold, hinfo⟩⟩
    | true =>
        obtain ⟨j, hj⟩ := h.registered hold
        exact ⟨j, by rw [hother (hunregistered j hj)]; exact hj⟩
  · replace hj : (Function.update s.pc i (.answered site cl a.reply) j).registered = true := hj
    replace hk : (Function.update s.pc i (.answered site cl a.reply) k).registered = true := hk
    by_cases hji : j = i <;> by_cases hki : k = i
    · rw [hji, hki]
    · subst hji
      rw [hself, hreg] at hj
      rw [hother hki] at hk
      exact absurd (hset k hk) (by simp [hj.1])
    · subst hki
      rw [hself, hreg] at hk
      rw [hother hji] at hj
      exact absurd (hset j hj) (by simp [hk.1])
    · rw [hother hji] at hj
      rw [hother hki] at hk
      exact h.unique j k hj hk
  · obtain ⟨hk, hset⟩ := hstop (by simpa using hrunning)
    obtain ⟨j, hj⟩ := h.registered hset
    exact ⟨j, i, hunregistered j hj, ((h.ok j).info_eq hj).1, hk⟩

theorem Agreed.step {l : Label ι} (h : Agreed tbl nodes s) (hconf : ∀ i, (nodes i).Configured tbl)
    (hs : step tbl nodes s l = some s') : Agreed tbl nodes s' := by
  cases l with
  | node i mem =>
      obtain ⟨pc, rfl, hreg, hok⟩ := nodeStep_cases tbl hs
      exact h.setPc (hok (h.ok i)) hreg
  | server i reply => exact h.serverStep (hconf i) hs

theorem reach_agreed (hconf : ∀ i, (nodes i).Configured tbl)
    (hr : Reach (step tbl nodes) (.init nodes) anyStep s) : Agreed tbl nodes s :=
  hr.invariant (agreed_init hconf) fun _ _ _ h _ hs => h.step hconf hs

/-- The endpoint of a start node, at its address in the words of the system. -/
def Node.endpoint (node : Node) : String :=
  s!"tcp://{dottedQuad node.tmpAddr}:{foxStartDefaultPort}"

theorem toString_byte (b : UInt8) : toString (Int64.ofInt b.toNat) = toString b := by
  have hlt := b.toNat_lt
  have hval : (Int64.ofInt b.toNat).toInt = b.toNat :=
    Int64.toInt_ofInt_of_le (by omega) (by omega)
  show toString (Int64.ofInt b.toNat).toInt = toString b.toNat
  rw [hval]
  rfl

theorem endpoint_address (node : Node) : endpoint node.address = node.endpoint := by
  have hstr (s : String) : toString s = s := rfl
  delta endpoint Node.endpoint dottedQuad Node.address
  simp only [toString_byte, hstr, String.append_assoc]

/-- **The nodes agree**: whatever the order of the steps, the server remembers
an address when it has accepted a start node, it accepts no second one, and
every end node that was given parameters is connected to the start node. -/
theorem nodes_agree (hconf : ∀ i, (nodes i).Configured tbl)
    (hr : Reach (step tbl nodes) (.init nodes) anyStep s) :
    (s.info.isSet = true ↔ ∃ i, (s.pc i).registered = true) ∧
      (∀ i j, (s.pc i).registered = true → (s.pc j).registered = true → i = j) ∧
      ∀ j cl, s.pc j = .foxEnd cl → cl.par 0 ≠ 0 →
        ∃ i, (s.pc i).registered = true ∧ foxAddr cl.par = (nodes i).endpoint := by
  have h := reach_agreed hconf hr
  have hinfo {i : ι} (hi : (s.pc i).registered = true) : s.info = (nodes i).address :=
    ((h.ok i).info_eq hi).2
  refine ⟨⟨h.registered, fun ⟨i, hi⟩ => ?_⟩, h.unique, fun j cl hpc hne => ?_⟩
  · rw [hinfo hi]
    rfl
  · have hok := h.ok j
    rw [hpc] at hok
    obtain ⟨hset, haddr⟩ := hok.2 hne
    obtain ⟨i, hi⟩ := h.registered hset
    exact ⟨i, hi, by rw [haddr, hinfo hi, endpoint_address]⟩

end Runs

/-! ## two nodes -/

/-- The clients of `fox_start` and `fox_end`, on two hosts. -/
def foxNodes (isEnd : Bool) : Node where
  h := .netConf
  f := .ascii
  ch_msg := asciiBytes (if isEnd then "fox_end" else "fox_start")
  mychannel := 0
  ip := some fun i => if i = 0 then 10 else if i = 3 then (if isEnd then 2 else 1) else 0
  ch_pid := 4711
  ch_tid := 4711
  mem := fun _ => 77

theorem foxNodes_configured (isEnd : Bool) : (foxNodes isEnd).Configured foxTable := by
  cases isEnd <;> exact ⟨by decide +kernel, by decide, by decide⟩

/-- A request, its answer, and what the node makes of it. -/
def askOnce (isEnd : Bool) : List (Label Bool) :=
  [.node isEnd fun _ => 0, .server isEnd ⟨0, none, none, 3, fun _ => 5⟩, .node isEnd fun _ => 0]

/-- The end node asks before the start node has sent its address. -/
theorem nodes_agree_two : ∃ s : State Bool, ∃ cl, s.pc true = .foxEnd cl ∧
    ∃ i, (s.pc i).registered = true ∧ foxAddr cl.par = (foxNodes i).endpoint := by
  obtain ⟨s, hr, hs⟩ : ∃ s : State Bool, Reach (step foxTable foxNodes) (.init foxNodes) anyStep s ∧
      (match s.pc true with
        | .foxEnd cl => cl.par 0 != 0
        | _ => false) = true :=
    Reach.of_exec_any (askOnce false ++ askOnce true ++ askOnce false ++ askOnce true) _
      (by decide +kernel)
  split at hs
  · next cl hpc =>
    exact ⟨s, cl, hpc, (nodes_agree foxNodes_configured hr).2.2 true cl hpc (by simpa using hs)⟩
  · cases hs

end CloudProfiler.Rendezvous
