import CloudProfiler.Buffer
import CloudProfiler.Census
import CloudProfiler.Config
import CloudProfiler.FileName

/-!
# CloudProfiler.ChInfo

The API calls one after the other: `channels.cpp` with `ch_info`, the
channels that exit cleanup closes.

`openChannel` creates a closure, counts it if it is buffered and enters it
into `ch_info` before it opens the file.  When it fails after that, the
caller gets a defect channel instead and the closure stays behind.

* `Api.openChannel` — with `closure::openChannel` and its ways to fail;
* `Api.closeChannel` — the virtual function, by the kind of the closure;
* `Unharmed` — what holds if failed calls leave nothing behind;
* `Clean` — the calls that leave nothing behind;
* `failed_opens_harmless` — all runs of such calls.

What the handlers do is modelled in `CloudProfiler.Handler`; here a parameter
handler is known by its verdict.
-/

namespace CloudProfiler

/-! ## closures -/

/-- Which `closeChannel` a closure has.  That of PERIODICCOUNTER,
FASTPERIODICCOUNTER and FIRSTLAST ends with `closure::closeChannel`. -/
inductive ClosureKind
  | plain | buffer | defect
  deriving DecidableEq, Repr

/-- The part of `struct closure`, and of `buffer_closure`, that opening and
closing use.  `opened` and `closed` are histories: `openChannel` has returned
the closure, `closeChannel` was called for it. -/
structure ApiClosure where
  kind : ClosureKind
  handlerF : Option Handler
  compress : Bool
  parm : Bool
  chLogfName : Option (List Char)
  isOpen : Bool
  isCloseCalled : Bool
  opened : Bool
  closed : Bool
  deriving DecidableEq, Repr

namespace ApiClosure

/-- `closure::closure`. -/
def new (kind : ClosureKind) (parm : Bool) : ApiClosure where
  kind := kind
  handlerF := none
  compress := false
  parm := parm
  chLogfName := none
  isOpen := false
  isCloseCalled := false
  opened := false
  closed := false

/-- `initDefectHandler`. -/
def defect : ApiClosure := new .defect true

/-- `closeChannel` finds `BufferIdentityHandler`, and takes the channel out of
the counters. -/
def flushes (cl : ApiClosure) : Bool :=
  cl.kind = .buffer ∧ cl.handlerF = some .bufferIdentityHandler

/-- `closeChannel` logs a line with the name of the file. -/
def logsName (cl : ApiClosure) : Bool :=
  match cl.kind with
  | .defect => false
  | .plain => cl.isOpen || !cl.isCloseCalled
  | .buffer => cl.flushes

/-- `closeChannel`, for the fields of the closure.  The file of a buffered
channel is closed by the I/O thread. -/
def closeChannel (cl : ApiClosure) : ApiClosure :=
  match cl.kind with
  | .defect => cl
  | .plain =>
      if cl.isOpen then { cl with closed := true, isOpen := false }
      else { cl with closed := true, isCloseCalled := true }
  | .buffer => { cl with closed := true, handlerF := some .nullHandler }

/-- The channel is buffered, was opened and is not closed. -/
def buf (cl : ApiClosure) : Nat := if cl.kind = .buffer ∧ cl.opened ∧ !cl.closed then 1 else 0

/-- And it compresses. -/
def comp (cl : ApiClosure) : Nat := if cl.compress then cl.buf else 0

end ApiClosure

/-! ## what a call gets from outside -/

/-- What a parameter handler returns, and whether it closes the channel. -/
inductive ParmResult
  | accepted
  | refused (closes : Bool)
  deriving DecidableEq, Repr

/-- What `openChannel` gets from outside: the address, the process and thread
ids, whether the file system lets the file be opened, the replies of the
configuration server to `openChannel` (handler, format and `par[0]`) and to
the FOX handlers, the processor, whether `aligned_alloc` succeeds, and the
verdict of the parameter handler.  A format is `none` if it is no member of
`log_format`. -/
structure OpenEnv where
  ip : Option Ipv4
  pid : Int
  tid : Int
  fileOpens : Bool
  reply : Option (Option HandlerType × Option LogFormat × Int64)
  fox : Option (Option LogFormat × Int64)
  aarch64 : Bool
  alloc : Bool
  parm : ParmResult

/-- The handler, the format and `par[0]` with which a closure is created;
`none` if `openChannel` returns before. -/
def resolve (h : Option HandlerType) (f : Option LogFormat) (env : OpenEnv) :
    Option (HandlerType × Option LogFormat × Int64) :=
  let conf : Option (Option HandlerType × Option LogFormat × Int64) :=
    if h = some .netConf then env.reply else some (h, f, 0)
  match conf with
  | none | some (none, _) | some (some .netConf, _) => none
  | some (some .gpiortt, f, par) => if env.aarch64 then some (.gpiortt, f, par) else none
  | some (some .foxStart, f, par) =>
      some (.foxStart, (env.fox.map (·.1)).getD f, (env.fox.map (·.2)).getD par)
  | some (some .foxEnd, f, par) =>
      some (.foxEnd, (env.fox.map (·.1)).getD f, (env.fox.map (·.2)).getD par)
  | some (some h, f, par) => some (h, f, par)

/-- The closure that the `init…Handler` functions create. -/
def initHandler (h : HandlerType) (f : Option LogFormat) (env : OpenEnv) : ApiClosure :=
  match h with
  | .bufferIdentity => { ApiClosure.new .buffer false with handlerF := f.map handlerOf }
  | .bufferIdentityComp =>
      { ApiClosure.new .buffer false with handlerF := f.map handlerOf, compress := true }
  | .median => .new .plain env.alloc
  | .downsample | .xoy | .periodicCounter | .fastPeriodicCounter | .gpiortt => .new .plain true
  | .identity | .firstlast | .nullh | .netConf => .new .plain false
  | .foxStart => if env.fox.isSome then .new .plain false else .defect
  | .foxEnd => if env.fox.isSome then .new .plain true else .defect

/-- The formats for which `closure::openChannel` opens a file. -/
def knownFormat : Option LogFormat → Bool
  | some .lzo1xTsc | none => false
  | some _ => true

/-- The path `closure::openChannel` builds. -/
def pathName (ip : Ipv4) (pid tid ch_nr : Int) (f : Option LogFormat) (ch_msg : List Char) :
    List Char :=
  match f with
  | some f => logFileName ip pid tid ch_nr f ch_msg
  | none => nameStem ip pid tid ch_nr ++ lit ":unknown_type:" ++ nameMsg ch_msg ++ lit ".txt"

/-- `closure::openChannel`, and that of a defect channel. -/
def ApiClosure.openChannel (cl : ApiClosure) (ch_nr : Int) (ch_msg : List Char)
    (f : Option LogFormat) (env : OpenEnv) : ApiClosure × Bool :=
  match cl.kind, env.ip with
  | .defect, _ | _, none => (cl, false)
  | _, some ip =>
      ({ cl with
          chLogfName := some (pathName ip env.pid env.tid ch_nr f ch_msg)
          isOpen := knownFormat f && env.fileOpens }, knownFormat f && env.fileOpens)

/-! ## the calls -/

/-- The closures, by their address, and the globals.  `ids` are the channels
that `openChannel` has returned; `fault` says that a null `ch_logf_name` was
dereferenced. -/
structure Api where
  nextChannel : Nat
  closure : Nat → ApiClosure
  nrClosures : Nat
  chInfo : List Nat
  ids : List Nat
  numBufCh : Int
  numBufCompCh : Int
  fault : Bool

namespace Api

/-- Program start. -/
def init : Api := ⟨0, fun _ => .defect, 0, [], [], 0, 0, false⟩

/-- Replace a closure. -/
def set (s : Api) (k : Nat) (cl : ApiClosure) : Api :=
  { s with closure := Function.update s.closure k cl }

/-- Create a closure. -/
def push (s : Api) (cl : ApiClosure) : Api :=
  { s with closure := Function.update s.closure s.nrClosures cl, nrClosures := s.nrClosures + 1 }

/-- Return a new defect channel. -/
def returnDefect (s : Api) : Api := { s.push .defect with ids := s.nrClosures :: s.ids }

/-- Return closure `k`. -/
def returnChannel (s : Api) (k : Nat) : Api :=
  { s.set k { s.closure k with opened := true } with ids := k :: s.ids }

/-- `closeChannel` of closure `k`. -/
def closeChannel (s : Api) (k : Nat) : Api :=
  let cl := s.closure k
  { s.set k cl.closeChannel with
    numBufCompCh := if cl.flushes && cl.compress then s.numBufCompCh - 1 else s.numBufCompCh
    numBufCh := if cl.flushes then s.numBufCh - 1 else s.numBufCh
    fault := s.fault || cl.logsName && cl.chLogfName.isNone }

/-- The new channel is counted, if it is buffered, and entered into
`ch_info`. -/
def enter (s : Api) (new_ch : ApiClosure) : Api :=
  { s.push new_ch with
    numBufCh := if new_ch.kind = .buffer then s.numBufCh + 1 else s.numBufCh
    numBufCompCh := if new_ch.compress then s.numBufCompCh + 1 else s.numBufCompCh
    chInfo := s.chInfo ++ [s.nrClosures] }

/-- `openChannel`. -/
def openChannel (s : Api) (h : Option HandlerType) (f : Option LogFormat) (ch_msg : List Char)
    (env : OpenEnv) : Api :=
  match resolve h f env with
  | none => { s with nextChannel := s.nextChannel + 1 }.returnDefect
  | some (ch_h, f, par) =>
      let r := (initHandler ch_h f env).openChannel s.nextChannel ch_msg f env
      let t := { s with nextChannel := s.nextChannel + 1 }.enter r.1
      if !r.2 then t.returnDefect
      else if h = some .netConf ∧ par > 0 then
        if !r.1.parm then t.returnDefect
        else
          match env.parm with
          | .accepted => t.returnChannel s.nrClosures
          | .refused true => (t.closeChannel s.nrClosures).returnDefect
          | .refused false => t.returnDefect
      else t.returnChannel s.nrClosures

/-- `isOpen`. -/
def isOpen (s : Api) (c : Nat) : Bool := s.chInfo.contains c && (s.closure c).isOpen

/-- `parameterizeChannel`, with the verdict of the parameter handler. -/
def parameterizeChannel (s : Api) (c : Nat) (r : ParmResult) : Api :=
  if !(s.closure c).parm then s.closeChannel c
  else if (s.closure c).kind = .defect then s
  else
    match r with
    | .accepted | .refused false => s
    | .refused true => s.closeChannel c

/-- `closeAllChannels`. -/
def closeAllChannels (s : Api) : Api := s.chInfo.foldl closeChannel s

/-- What happens next. -/
inductive Act
  | openChannel (h : Option HandlerType) (f : Option LogFormat) (ch_msg : List Char) (env : OpenEnv)
  | logTS (c : Nat) (tuple : Int64)
  | closeChannel (c : Nat)
  | parameterizeChannel (c : Nat) (r : ParmResult)
  /-- the I/O thread closes the file of a buffered channel -/
  | ioClose (c : Nat)
  /-- `cleanUpAtNormalExit`, `cleanUpAtAbnormalExit` -/
  | cleanUp

/-- One step; calls are made with channels that `openChannel` has returned. -/
def step (s : Api) (a : Act) : Option Api :=
  if s.fault then none
  else
    match a with
    | .openChannel h f ch_msg env => some (s.openChannel h f ch_msg env)
    | .logTS c tuple =>
        if c ∈ s.ids then some (if tuple = -1 then s.closeChannel c else s) else none
    | .closeChannel c => if c ∈ s.ids then some (s.closeChannel c) else none
    | .parameterizeChannel c r => if c ∈ s.ids then some (s.parameterizeChannel c r) else none
    | .ioClose c =>
        if (s.closure c).kind = .buffer ∧ (s.closure c).closed = true then
          some (s.set c { s.closure c with isOpen := false })
        else none
    | .cleanUp => some s.closeAllChannels

/-- No null name was dereferenced, the counters are the numbers of buffered
channels that are open, and defect channels are not open. -/
structure Unharmed (s : Api) : Prop where
  fault : s.fault = false
  numBufCh : s.numBufCh = tally ApiClosure.buf s.nrClosures s.closure
  numBufCompCh : s.numBufCompCh = tally ApiClosure.comp s.nrClosures s.closure
  isOpen : ∀ c ∈ s.ids, (s.closure c).kind = .defect → s.isOpen c = false

/-- The channels a call may close. -/
def mayClose (s : Api) : Act → List Nat
  | .logTS c tuple => if tuple = -1 then [c] else []
  | .closeChannel c | .parameterizeChannel c _ => [c]
  | .cleanUp => s.chInfo
  | .openChannel .. | .ioClose _ => []

/-- **A call leaves nothing behind.**

* A closure is created only while the IP address is available.
* A buffered channel is opened with a format that is known and a file that
  can be opened, and gets no parameters from the configuration server.
* No channel of handler `BufferIdentityHandlerTsc` is closed. -/
def Clean (s : Api) : Act → Prop
  | .openChannel h f _ env => ∀ r ∈ resolve h f env,
      (initHandler r.1 r.2.1 env).kind = .defect ∨ env.ip.isSome = true ∧
        ((initHandler r.1 r.2.1 env).kind = .buffer →
          (knownFormat r.2.1 && env.fileOpens) = true ∧ ¬ (h = some .netConf ∧ r.2.2 > 0))
  | a => ∀ k ∈ s.mayClose a, (s.closure k).handlerF ≠ some .bufferIdentityHandlerTsc

instance : DecidableRel Clean
  | _, .openChannel h f _ env => inferInstanceAs (Decidable (∀ r ∈ resolve h f env, _ ∨ _ ∧ (_ → _)))
  | s, .logTS c tuple => inferInstanceAs (Decidable (∀ k ∈ s.mayClose (.logTS c tuple), _))
  | s, .closeChannel c => inferInstanceAs (Decidable (∀ k ∈ s.mayClose (.closeChannel c), _))
  | s, .parameterizeChannel c r =>
      inferInstanceAs (Decidable (∀ k ∈ s.mayClose (.parameterizeChannel c r), _))
  | s, .ioClose c => inferInstanceAs (Decidable (∀ k ∈ s.mayClose (.ioClose c), _))
  | s, .cleanUp => inferInstanceAs (Decidable (∀ k ∈ s.mayClose .cleanUp, _))

end Api

/-! ## the invariant -/

/-- What holds of a closure: its name can be logged when it is closed, and a
buffered one was opened. -/
structure ApiClosure.Ok (cl : ApiClosure) : Prop where
  name : cl.kind ≠ .defect → cl.chLogfName.isSome = true
  buffer : cl.kind = .buffer → cl.opened = true ∧ cl.handlerF ≠ none ∧
    (cl.closed = true ↔ cl.handlerF = some .nullHandler)
  plain : cl.kind ≠ .buffer → cl.compress = false ∧ cl.handlerF = none
  defect : cl.kind = .defect → cl.isOpen = false

theorem ApiClosure.ok_defect : ApiClosure.defect.Ok := by
  constructor <;> simp [ApiClosure.defect, ApiClosure.new]

/-- A closure that is not buffered is not counted. -/
theorem ApiClosure.buf_of_kind {cl : ApiClosure} (h : cl.kind ≠ .buffer) :
    cl.buf = 0 ∧ cl.comp = 0 := by
  simp [ApiClosure.comp, ApiClosure.buf, h]

namespace Api

/-- What holds while all calls are clean. -/
structure Inv (s : Api) : Prop where
  fault : s.fault = false
  ok : ∀ k, (s.closure k).Ok
  chInfo : ∀ k ∈ s.chInfo, k < s.nrClosures
  ids : ∀ k ∈ s.ids, k < s.nrClosures
  numBufCh : s.numBufCh = tally ApiClosure.buf s.nrClosures s.closure
  numBufCompCh : s.numBufCompCh = tally ApiClosure.comp s.nrClosures s.closure

section Invariant

variable {s s' : Api} {k : Nat} {cl : ApiClosure}

theorem Inv.unharmed (h : Inv s) : Unharmed s :=
  ⟨h.fault, h.numBufCh, h.numBufCompCh, fun c _ hd => by simp [isOpen, (h.ok c).defect hd]⟩

theorem ok_update (h : ∀ k, (s.closure k).Ok) (hcl : cl.Ok) (j : Nat) :
    (Function.update s.closure k cl j).Ok := by
  by_cases hj : j = k
  · rw [hj, Function.update_self]
    exact hcl
  · rw [Function.update_of_ne hj]
    exact h j

/-- A closure changes, and the counters with it. -/
theorem Inv.change (h : Inv s) (hk : k < s.nrClosures) (hcl : cl.Ok) (hs : s'.fault = s.fault)
    (hclosure : s'.closure = Function.update s.closure k cl) (hn : s'.nrClosures = s.nrClosures)
    (hinfo : s'.chInfo = s.chInfo) (hids : s'.ids ⊆ k :: s.ids)
    (hbuf : s'.numBufCh + (s.closure k).buf = s.numBufCh + cl.buf)
    (hcomp : s'.numBufCompCh + (s.closure k).comp = s.numBufCompCh + cl.comp) : Inv s' := by
  have htally := tally_update (w := ApiClosure.buf) (f := s.closure) hk cl
  have htallyc := tally_update (w := ApiClosure.comp) (f := s.closure) hk cl
  have hnum := h.numBufCh
  have hnumc := h.numBufCompCh
  refine ⟨hs.trans h.fault, ?_, ?_, fun j hj => ?_, ?_, ?_⟩
  · rw [hclosure]
    exact ok_update h.ok hcl
  · rw [hinfo, hn]
    exact h.chInfo
  · rw [hn]
    obtain rfl | hj := List.mem_cons.mp (hids hj)
    · exact hk
    · exact h.ids j hj
  · rw [hclosure, hn]
    omega
  · rw [hclosure, hn]
    omega

/-- A closure changes and counts as before. -/
theorem Inv.set (h : Inv s) (hcl : cl.Ok) (hbuf : cl.buf = (s.closure k).buf)
    (hcomp : cl.comp = (s.closure k).comp) : Inv (s.set k cl) :=
  ⟨h.fault, ok_update h.ok hcl, h.chInfo, h.ids,
    h.numBufCh.trans (congrArg _ (tally_update_same hbuf).symm),
    h.numBufCompCh.trans (congrArg _ (tally_update_same hcomp).symm)⟩

/-- A closure is created, and counted. -/
theorem Inv.push (h : Inv s) (hcl : cl.Ok) (hs : s'.fault = s.fault)
    (hclosure : s'.closure = Function.update s.closure s.nrClosures cl)
    (hn : s'.nrClosures = s.nrClosures + 1) (hinfo : s'.chInfo ⊆ s.chInfo ++ [s.nrClosures])
    (hids : s'.ids ⊆ s.nrClosures :: s.ids) (hbuf : s'.numBufCh = s.numBufCh + cl.buf)
    (hcomp : s'.numBufCompCh = s.numBufCompCh + cl.comp) : Inv s' := by
  refine ⟨hs.trans h.fault, ?_, fun k hk => ?_, fun k hk => ?_, ?_, ?_⟩
  · rw [hclosure]
    exact ok_update h.ok hcl
  · obtain hk | hk := List.mem_append.mp (hinfo hk)
    · have := h.chInfo k hk
      omega
    · rw [List.mem_singleton.mp hk]
      omega
  · obtain rfl | hk := List.mem_cons.mp (hids hk)
    · omega
    · have := h.ids k hk
      omega
  · rw [hbuf, hclosure, hn, tally_grow, h.numBufCh]
    rfl
  · rw [hcomp, hclosure, hn, tally_grow, h.numBufCompCh]
    rfl

theorem Inv.returnDefect (h : Inv s) : Inv s.returnDefect :=
  h.push ApiClosure.ok_defect rfl rfl rfl (List.subset_append_left _ _) (List.Subset.refl _)
    (Int.add_zero _).symm (Int.add_zero _).symm

theorem Inv.returnChannel (h : Inv s) (hk : k < s.nrClosures)
    (hkind : (s.closure k).kind ≠ .buffer) : Inv (s.returnChannel k) := by
  have hok := h.ok k
  have hcl : ({ s.closure k with opened := true } : ApiClosure).Ok :=
    ⟨hok.name, fun hb => absurd hb hkind, hok.plain, hok.defect⟩
  refine h.change hk hcl rfl rfl rfl rfl (List.Subset.refl _) ?_ ?_
  · rw [(ApiClosure.buf_of_kind hkind).1, (ApiClosure.buf_of_kind (by exact hkind)).1]
    rfl
  · rw [(ApiClosure.buf_of_kind hkind).2, (ApiClosure.buf_of_kind (by exact hkind)).2]
    rfl

theorem ok_closeChannel (h : cl.Ok) : cl.closeChannel.Ok := by
  have hname := h.name
  have hbuffer := h.buffer
  have hplain := h.plain
  rw [ApiClosure.closeChannel]
  cases hkind : cl.kind with
  | defect => exact h
  | plain =>
      dsimp only
      split <;> constructor <;> simp_all
  | buffer => constructor <;> simp_all

/-- What closing a closure takes from the counts. -/
theorem buf_closeChannel (h : cl.Ok) (htsc : cl.handlerF ≠ some .bufferIdentityHandlerTsc) :
    cl.buf = cl.closeChannel.buf + (if cl.flushes then 1 else 0) ∧
      cl.comp = cl.closeChannel.comp + if cl.flushes && cl.compress then 1 else 0 := by
  cases hkind : cl.kind with
  | defect => simp [ApiClosure.closeChannel, ApiClosure.flushes, hkind]
  | plain =>
      have hclose : cl.closeChannel.kind = .plain := by
        simp only [ApiClosure.closeChannel, hkind]
        split <;> rfl
      simp [ApiClosure.comp, ApiClosure.buf, ApiClosure.flushes, hkind, hclose]
  | buffer =>
      obtain ⟨hopened, hsome, hclosed⟩ := h.buffer hkind
      have hzero : cl.closeChannel.buf = 0 ∧ cl.closeChannel.comp = 0 := by
        simp [ApiClosure.comp, ApiClosure.buf, ApiClosure.closeChannel, hkind]
      rw [hzero.1, hzero.2]
      cases hh : cl.handlerF with
      | none => exact absurd hh hsome
      | some f =>
          cases f with
          | bufferIdentityHandlerTsc => exact absurd hh htsc
          | bufferIdentityHandler =>
              have hopen : cl.closed = false := by
                rw [Bool.eq_false_iff, ne_eq, hclosed, hh]
                simp
              cases hc : cl.compress <;>
                simp [ApiClosure.comp, ApiClosure.buf, ApiClosure.flushes, hkind, hh, hopened, hopen, hc]
          | nullHandler =>
              have hcl := hclosed.mpr hh
              simp [ApiClosure.comp, ApiClosure.buf, ApiClosure.flushes, hh, hcl]

/-- **Closing a closure**, whichever kind it has. -/
theorem Inv.closeChannel (h : Inv s) (hk : k < s.nrClosures)
    (htsc : (s.closure k).handlerF ≠ some .bufferIdentityHandlerTsc) : Inv (s.closeChannel k) := by
  have hok := h.ok k
  obtain ⟨hbuf, hcomp⟩ := buf_closeChannel hok htsc
  have hname : ((s.closure k).logsName && (s.closure k).chLogfName.isNone) = false := by
    cases hkind : (s.closure k).kind <;> simp [ApiClosure.logsName, hkind] <;> intro _ <;>
      have := hok.name (by simp [hkind]) <;> simpa using this
  refine h.change hk (ok_closeChannel hok) ?_ rfl rfl rfl (List.subset_cons_self _ _) ?_ ?_
  · simp [Api.closeChannel, hname]
  · rw [hbuf, Api.closeChannel]
    dsimp only
    split <;> omega
  · rw [hcomp, Api.closeChannel]
    dsimp only
    split <;> omega

/-- **Exit cleanup** closes the closures one after the other. -/
theorem Inv.closeAll {ks : List Nat} (h : Inv s) (hks : ∀ k ∈ ks, k < s.nrClosures)
    (htsc : ∀ k ∈ ks, (s.closure k).handlerF ≠ some .bufferIdentityHandlerTsc) :
    Inv (ks.foldl Api.closeChannel s) := by
  induction ks generalizing s with
  | nil => exact h
  | cons k ks ih =>
      have hk := h.closeChannel (hks k List.mem_cons_self) (htsc k List.mem_cons_self)
      refine ih hk (fun j hj => hks j (List.mem_cons_of_mem _ hj)) fun j hj => ?_
      have hj' := htsc j (List.mem_cons_of_mem _ hj)
      by_cases hjk : j = k
      · subst hjk
        show (Function.update s.closure j _ j).handlerF ≠ _
        rw [Function.update_self, ApiClosure.closeChannel]
        split
        · exact hj'
        · split <;> exact hj'
        · simp
      · show (Function.update s.closure k _ j).handlerF ≠ _
        rwa [Function.update_of_ne hjk]

/-! ## opening -/

/-- A new closure. -/
theorem initHandler_props (h : HandlerType) (f : Option LogFormat) (env : OpenEnv) :
    (initHandler h f env).isOpen = false ∧ (initHandler h f env).closed = false ∧
    ((initHandler h f env).kind ≠ .buffer →
      (initHandler h f env).compress = false ∧ (initHandler h f env).handlerF = none) ∧
    ((initHandler h f env).kind = .buffer → (initHandler h f env).handlerF = f.map handlerOf) := by
  cases h <;> simp [initHandler, ApiClosure.new, ApiClosure.defect] <;> split <;> simp

/-- A closure that is not buffered is entered. -/
theorem Inv.enter (h : Inv s) (hok : cl.Ok) (hkind : cl.kind ≠ .buffer) : Inv (s.enter cl) := by
  refine h.push hok rfl rfl rfl (List.Subset.refl _) (List.subset_cons_self _ _) ?_ ?_
  · simp [Api.enter, hkind, (ApiClosure.buf_of_kind hkind).1]
  · simp [Api.enter, (hok.plain hkind).1, (ApiClosure.buf_of_kind hkind).2]

/-- A buffered closure is entered and returned. -/
theorem Inv.enterBuffer (h : Inv s) (hkind : cl.kind = .buffer) (hclosed : cl.closed = false)
    (hname : cl.chLogfName.isSome = true)
    (hh : cl.handlerF ≠ none ∧ cl.handlerF ≠ some .nullHandler) :
    Inv ((s.enter cl).returnChannel s.nrClosures) := by
  have hset : (s.enter cl).closure s.nrClosures = cl := Function.update_self ..
  have hok : ApiClosure.Ok { cl with opened := true } :=
    ⟨fun _ => hname, fun _ => ⟨rfl, hh.1, by simp [hclosed, hh.2]⟩, fun hne => absurd hkind hne,
      fun hd => by simp [hkind] at hd⟩
  refine h.push hok rfl ?_ rfl (List.Subset.refl _) (List.Subset.refl _) ?_ ?_
  · show Function.update (Function.update s.closure s.nrClosures cl) s.nrClosures
      { (s.enter cl).closure s.nrClosures with opened := true } = _
    rw [Function.update_idem, hset]
  · simp [Api.returnChannel, Api.set, Api.enter, hkind, ApiClosure.buf, hclosed]
  · cases hc : cl.compress <;>
      simp [Api.returnChannel, Api.set, Api.enter, hkind, ApiClosure.comp, ApiClosure.buf, hclosed, hc]

/-- **Opening a channel** of any kind. -/
theorem Inv.openChannel (hinv : Inv s) {h : Option HandlerType} {f : Option LogFormat}
    {ch_msg : List Char} {env : OpenEnv} (hc : Clean s (.openChannel h f ch_msg env)) :
    Inv (s.openChannel h f ch_msg env) := by
  have hnext : Inv { s with nextChannel := s.nextChannel + 1 } :=
    ⟨hinv.fault, hinv.ok, hinv.chInfo, hinv.ids, hinv.numBufCh, hinv.numBufCompCh⟩
  rw [Api.openChannel]
  cases hr : resolve h f env with
  | none => exact hnext.returnDefect
  | some r =>
      obtain ⟨ch_h, f, par⟩ := r
      obtain ⟨hopen, hclosed, hplain, hbuffer⟩ := initHandler_props ch_h f env
      have hclean := hc _ hr
      dsimp only at hclean ⊢
      generalize initHandler ch_h f env = cl at hopen hclosed hplain hbuffer hclean ⊢
      cases hkind : cl.kind with
      | defect =>
          -- FOX_START and FOX_END enter a defect channel when they have no configuration
          have hfile : cl.openChannel s.nextChannel ch_msg f env = (cl, false) := by
            simp [ApiClosure.openChannel, hkind]
          have hok : cl.Ok := ⟨fun hne => absurd hkind hne, fun hb => by simp [hb] at hkind, hplain,
            fun _ => hopen⟩
          rw [hfile]
          exact (hnext.enter hok (by simp [hkind])).returnDefect
      | plain =>
          obtain ⟨hip, -⟩ := hclean.resolve_left (by simp [hkind])
          obtain ⟨ip, hip⟩ := Option.isSome_iff_exists.mp hip
          have hfile : cl.openChannel s.nextChannel ch_msg f env =
              ({ cl with
                chLogfName := some (pathName ip env.pid env.tid s.nextChannel f ch_msg)
                isOpen := knownFormat f && env.fileOpens }, knownFormat f && env.fileOpens) := by
            simp only [ApiClosure.openChannel, hkind, hip]
          have hok : (cl.openChannel s.nextChannel ch_msg f env).1.Ok := by
            rw [hfile]
            exact ⟨fun _ => rfl, fun hb => by simp [hkind] at hb, hplain,
              fun hd => by simp [hkind] at hd⟩
          have hk : (cl.openChannel s.nextChannel ch_msg f env).1.kind ≠ .buffer := by
            simp [hfile, hkind]
          have htsc : (cl.openChannel s.nextChannel ch_msg f env).1.handlerF ≠
              some .bufferIdentityHandlerTsc := by
            rw [(hok.plain hk).2]
            simp
          generalize cl.openChannel s.nextChannel ch_msg f env = r at hok hk htsc ⊢
          have ht := hnext.enter hok hk
          have hlt : s.nrClosures <
              (Api.enter { s with nextChannel := s.nextChannel + 1 } r.1).nrClosures :=
            Nat.lt_succ_self _
          have hset : (Api.enter { s with nextChannel := s.nextChannel + 1 } r.1).closure
              s.nrClosures = r.1 := Function.update_self ..
          have hreturn := ht.returnChannel hlt (by rwa [hset])
          split
          · exact ht.returnDefect
          · split
            · split
              · exact ht.returnDefect
              · split
                · exact hreturn
                · exact (ht.closeChannel hlt (by rwa [hset])).returnDefect
                · exact ht.returnDefect
            · exact hreturn
      | buffer =>
          obtain ⟨hip, hgood⟩ := hclean.resolve_left (by simp [hkind])
          obtain ⟨ip, hip⟩ := Option.isSome_iff_exists.mp hip
          obtain ⟨hok, hpar⟩ := hgood hkind
          have hfile : cl.openChannel s.nextChannel ch_msg f env =
              ({ cl with
                chLogfName := some (pathName ip env.pid env.tid s.nextChannel f ch_msg)
                isOpen := true }, true) := by
            simp only [ApiClosure.openChannel, hkind, hip, hok]
          have hh : cl.handlerF ≠ none ∧ cl.handlerF ≠ some .nullHandler := by
            rw [hbuffer hkind]
            cases f with
            | none => simp [knownFormat] at hok
            | some f => cases f <;> simp [handlerOf]
          simp only [hfile, Bool.not_true, Bool.false_eq_true, if_false, hpar]
          exact hnext.enterBuffer hkind hclosed rfl hh

/-- **Step lemma**: clean calls keep the invariant. -/
theorem Inv.step {a : Act} (h : Inv s) (hc : Clean s a) (hs : step s a = some s') : Inv s' := by
  simp only [Api.step, h.fault, Bool.false_eq_true, if_false] at hs
  cases a with
  | openChannel f hd ch_msg env =>
      cases hs
      exact h.openChannel hc
  | logTS c tuple =>
      simp only [Option.ite_none_right_eq_some] at hs
      obtain ⟨hids, hs⟩ := hs
      split at hs
      · next ht =>
        cases hs
        exact h.closeChannel (h.ids c hids) (hc c (by simp [mayClose, ht]))
      · cases hs
        exact h
  | closeChannel c =>
      simp only [Option.ite_none_right_eq_some] at hs
      obtain ⟨hids, hs⟩ := hs
      cases hs
      exact h.closeChannel (h.ids c hids) (hc c (by simp [mayClose]))
  | parameterizeChannel c r =>
      simp only [Option.ite_none_right_eq_some] at hs
      obtain ⟨hids, hs⟩ := hs
      cases hs
      have hclose := h.closeChannel (h.ids c hids) (hc c (by simp [mayClose]))
      unfold Api.parameterizeChannel
      split
      · exact hclose
      · split
        · exact h
        · cases r with
          | accepted => exact h
          | refused closes => cases closes <;> assumption
  | ioClose c =>
      simp only [Option.ite_none_right_eq_some] at hs
      obtain ⟨⟨hkind, hclosed⟩, hs⟩ := hs
      cases hs
      have hok := h.ok c
      refine h.set ⟨hok.name, hok.buffer, hok.plain, fun _ => rfl⟩ rfl rfl
  | cleanUp =>
      cases hs
      exact h.closeAll h.chInfo hc

/-- **Failed opens leave nothing that can break later**, in all runs of calls
that leave nothing behind. -/
theorem failed_opens_harmless (hr : Reach Api.step init Clean s) : Unharmed s := by
  have h : Inv s := by
    refine hr.invariant ?_ fun _ _ _ h hc hs => h.step hc hs
    exact ⟨rfl, fun _ => ApiClosure.ok_defect, by simp [init], by simp [init], rfl, rfl⟩
  exact h.unharmed

end Invariant

/-- Nothing fails, or the address is not available. -/
def someEnv (available : Bool) : OpenEnv where
  ip := if available then some .local else none
  pid := 4711
  tid := 4712
  fileOpens := true
  reply := none
  fox := none
  aarch64 := false
  alloc := true
  parm := .accepted

/-- A channel that compresses, one of an unsupported type, and an IDENTITY
channel whose format is not known. -/
theorem failed_opens_harmless_twoFail : ∃ s, Reach Api.step init Clean s ∧
    s.ids = [3, 1, 0] ∧ s.chInfo = [0, 2] ∧ Unharmed s := by
  have hrun : ∃ s, Reach Api.step init Clean s ∧
      (s.ids == [3, 1, 0] && s.chInfo == [0, 2]) = true :=
    Reach.of_exec_any [.openChannel (some .bufferIdentityComp) (some .zstd) [] (someEnv true),
      .openChannel none (some .ascii) [] (someEnv true),
      .openChannel (some .identity) none [] (someEnv true), .closeChannel 3, .closeChannel 0,
      .cleanUp] _ (by decide +kernel)
  obtain ⟨s, hr, hs⟩ := hrun
  simp only [Bool.and_eq_true, beq_iff_eq] at hs
  exact ⟨s, hr, hs.1, hs.2, failed_opens_harmless hr⟩

/-- Exit cleanup after an open without address dereferences a null name; a
buffered channel whose format is not known stays counted. -/
theorem failed_opens_harm :
    (∃ s, Reach Api.step init anyStep s ∧ s.fault = true) ∧
    ∃ s, Reach Api.step init anyStep s ∧ s.numBufCh = 1 ∧
      tally ApiClosure.buf s.nrClosures s.closure = 0 := by
  constructor
  · exact Reach.of_exec_any
      [.openChannel (some .identity) (some .ascii) [] (someEnv false), .cleanUp] _ (by decide +kernel)
  · have hrun : ∃ s, Reach Api.step init anyStep s ∧
        decide (s.numBufCh = 1 ∧ tally ApiClosure.buf s.nrClosures s.closure = 0) = true :=
      Reach.of_exec_any [.openChannel (some .bufferIdentity) (some .lzo1xTsc) [] (someEnv true)] _
        (by decide +kernel)
    obtain ⟨s, hr, hs⟩ := hrun
    exact ⟨s, hr, of_decide_eq_true hs⟩

end Api

end CloudProfiler
