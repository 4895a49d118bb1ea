import CloudProfiler.Handler
import CloudProfiler.Nanos
import Mathlib.Logic.Function.Basic

/-!
# CloudProfiler.Fox

Measurements between nodes: FOX_END channels (`fox_end_handler.cpp`) and the
FOX_START channel they are connected to (`fox_start_handler.cpp`).  For each
tuple a FOX_END channel sends a message to the start node, waits for its echo,
and logs when it sent the tuple and how long that took.  The receiver thread
of the start node takes a time-stamp for each message, echoes it, and then
logs the tuple.  It runs before the log file is open, and what it writes
before that is lost; and it reads the tuple from the message it has sent.

The sockets are a DEALER for each FOX_END channel and a ROUTER, which names
its peers by their identities.  Messages of one peer keep their order.

* `identityOf`, `identityOf_injective` — the identity of a socket;
* `endStep`, `startStep` — the handler and the receiver thread, one access to
  a socket, a clock or a log after the other;
* `Session`, `step` — the channels, the receiver thread and the messages;
* `Synchronized` — the steps on clocks that agree.
-/

namespace CloudProfiler

namespace Fox

/-! ## identities -/

/-- A digit of `%X`. -/
def hexDigit (d : Nat) : Char := if d < 10 then Char.ofNat (48 + d) else Char.ofNat (55 + d)

/-- `%04X`. -/
def hex4 (n : Fin 65536) : List Char :=
  [n.val / 4096, n.val / 256 % 16, n.val / 16 % 16, n.val % 16].map hexDigit

/-- The identity of a socket: `%04X-%04X` of two draws of `within`. -/
abbrev Identity := List Char

def identityOf (draws : Fin 65536 × Fin 65536) : Identity := hex4 draws.1 ++ '-' :: hex4 draws.2

theorem hexDigit_injective : ∀ a < 16, ∀ b < 16, hexDigit a = hexDigit b → a = b := by decide

theorem hex4_injective : Function.Injective hex4 := by
  intro m n h
  simp only [hex4, List.map_cons, List.map_nil, List.cons.injEq, and_true] at h
  obtain ⟨h1, h2, h3, h4⟩ := h
  have := hexDigit_injective _ (by omega) _ (by omega) h1
  have := hexDigit_injective _ (by omega) _ (by omega) h2
  have := hexDigit_injective _ (by omega) _ (by omega) h3
  have := hexDigit_injective _ (by omega) _ (by omega) h4
  omega

/-- Different draws are different identities. -/
theorem identityOf_injective : Function.Injective identityOf := by
  intro d d' h
  obtain ⟨h1, h2⟩ := List.append_inj h (by simp [hex4])
  exact Prod.ext (hex4_injective h1) (hex4_injective (List.cons.inj h2).2)

/-! ## the session -/

/-- Where a FOX_END channel is in `FoxEndHandler`. -/
inductive EndPc
  | ready
  /-- the clock has been read -/
  | stamped (tuple : Int64) (ts : Timespec)
  /-- in `recv` -/
  | waiting (tuple : Int64) (ts : Timespec)
  /-- the echo has been received -/
  | received (tuple : Int64) (ts : Timespec)
  deriving DecidableEq

/-- A line of the log of a FOX_END channel. -/
structure EndLine where
  tuple : Int64
  ts : Timespec
  rttNs : Int64
  deriving DecidableEq

/-- A line of the log of the FOX_START channel. -/
structure StartLine where
  tuple : Int64
  ts : Timespec
  deriving DecidableEq

/-- `struct foxend_closure`, and the tuples that reached the handler. -/
structure FoxEnd where
  pc : EndPc
  base : Base EndLine
  calls : List Int64

/-- Where the receiver thread is. -/
inductive ReceiverPc
  | polling
  | holding (peer : Identity) (tuple : Int64)
  | stamped (peer : Identity) (tuple : Int64) (ts : Timespec)
  /-- echoed, and not logged yet -/
  | echoed (peer : Identity) (tuple : Int64) (ts : Timespec)
  deriving DecidableEq

/-- The messages between a FOX_END channel and the start node. -/
structure Wire where
  requests : List Int64
  echoes : List Int64
  deriving DecidableEq

structure Session (ι : Type) where
  ends : ι → FoxEnd
  wires : Identity → Wire
  receiver : ReceiverPc
  /-- `closure::openChannel` has been called for the FOX_START channel. -/
  started : Bool
  /-- The log of the start node; the peer is not written. -/
  start : Base (Identity × StartLine)
  /-- The lines written before the log file was open. -/
  missed : List (Identity × StartLine)
  /-- The time-stamps the receiver has taken, logged or not. -/
  served : List (Identity × StartLine)
  /-- The last reading of a clock. -/
  clock : Int

/-- The steps of a thread that logs on a FOX_END channel. -/
inductive EndLabel
  | logTS (tuple : Int64) (now : Timespec)
  | send
  | recv
  /-- the second reading of the clock, and the line -/
  | log (now : Timespec)
  | closeChannel

/-- The steps of the receiver thread, and the open and close of its channel. -/
inductive StartLabel
  /-- `closure::openChannel`, and whether the file could be opened -/
  | openChannel (ok : Bool)
  | receive (peer : Identity)
  | stamp (now : Timespec)
  | echo
  | write
  | closeChannel

inductive Label (ι : Type)
  | ofEnd (e : ι) (l : EndLabel)
  | ofStart (l : StartLabel)

/-- The clock when a step is over that starts at `c`. -/
def EndLabel.clock (c : Int) : EndLabel → Int
  | .logTS _ now | .log now => now.ns
  | _ => c

def StartLabel.clock (c : Int) : StartLabel → Int
  | .stamp now => now.ns
  | _ => c

/-- `rtt_ns`. -/
def rttNs (ts ts2 : Timespec) : Int64 := (ts2.elapsedNs - ts.elapsedNs).toInt64

/-- The calls on a FOX_END channel, `FoxEndHandler` one access to the socket or
to the clock after the other. -/
def endStep (fe : FoxEnd) (w : Wire) : EndLabel → Option (FoxEnd × Wire)
  | .logTS tuple now =>
      if fe.pc = .ready then
        if tuple = -1 then some ({ fe with base := fe.base.closeChannel }, w)
        else if fe.base.null then some (fe, w)
        else some ({ fe with pc := .stamped tuple now, calls := fe.calls ++ [tuple] }, w)
      else none
  | .send =>
      match fe.pc with
      | .stamped tuple ts =>
          some ({ fe with pc := .waiting tuple ts }, { w with requests := w.requests ++ [tuple] })
      | _ => none
  | .recv =>
      match fe.pc, w.echoes with
      | .waiting tuple ts, _ :: rest =>
          some ({ fe with pc := .received tuple ts }, { w with echoes := rest })
      | _, _ => none
  | .log now =>
      match fe.pc with
      | .received tuple ts =>
          some ({ fe with pc := .ready, base := fe.base.put ⟨tuple, ts, rttNs ts now⟩ }, w)
      | _ => none
  | .closeChannel => some ({ fe with base := fe.base.closeChannel }, w)

section Session

variable {ι : Type} [DecidableEq ι]

def Session.init : Session ι where
  ends _ := ⟨.ready, .opened, []⟩
  wires _ := ⟨[], []⟩
  receiver := .polling
  started := false
  start := { Base.opened with isOpen := false }
  missed := []
  served := []
  clock := 0

variable (identity : ι → Identity) (sentData : Int64 → Int64)

/-- `openChannel` of the FOX_START channel, whose `initFoxStartHandler` has
created the receiver thread, and the loop of `FoxStartReceiver`.  `sentData`
is what `zmqmsg.data()` holds once a message has been sent. -/
def startStep (s : Session ι) : StartLabel → Option (Session ι)
  | .openChannel ok =>
      if s.started then none
      else some { s with started := true, start := { s.start with isOpen := ok } }
  | .receive peer =>
      match s.receiver, (s.wires peer).requests with
      | .polling, tuple :: rest =>
          some { s with
            receiver := .holding peer tuple
            wires := Function.update s.wires peer { s.wires peer with requests := rest } }
      | _, _ => none
  | .stamp now =>
      match s.receiver with
      | .holding peer tuple =>
          some { s with
            receiver := .stamped peer tuple now
            served := s.served ++ [(peer, ⟨tuple, now⟩)] }
      | _ => none
  | .echo =>
      match s.receiver with
      | .stamped peer tuple ts =>
          let w := s.wires peer
          some { s with
            receiver := .echoed peer tuple ts
            wires := Function.update s.wires peer { w with echoes := w.echoes ++ [tuple] } }
      | _ => none
  | .write =>
      match s.receiver with
      | .echoed peer tuple ts =>
          let line := (peer, ⟨sentData tuple, ts⟩)
          some { s with
            receiver := .polling
            start := s.start.put line
            missed := if s.started then s.missed else s.missed ++ [line] }
      | _ => none
  | .closeChannel =>
      -- the application has the channel when it is open
      if s.started then some { s with start := s.start.closeChannel } else none

def step (s : Session ι) : Label ι → Option (Session ι)
  | .ofEnd e l =>
      (endStep (s.ends e) (s.wires (identity e)) l).map fun r =>
        { s with
          ends := Function.update s.ends e r.1
          wires := Function.update s.wires (identity e) r.2
          clock := l.clock s.clock }
  | .ofStart l => (startStep sentData s l).map fun s' => { s' with clock := l.clock s.clock }

/-- A reading of the clocks, which are synchronized: it is a time-stamp before
the year 2262, and no earlier than the last one. -/
def Reads (s : Session ι) (now : Timespec) : Prop :=
  now.Normal ∧ s.clock ≤ now.ns ∧ now.ns < 2 ^ 63

instance (s : Session ι) (now : Timespec) : Decidable (Reads s now) :=
  inferInstanceAs (Decidable (_ ∧ _))

/-- The steps on synchronized clocks. -/
def Synchronized (s : Session ι) : Label ι → Prop
  | .ofEnd _ (.logTS _ now) | .ofEnd _ (.log now) | .ofStart (.stamp now) => Reads s now
  | _ => True

instance : DecidableRel (Synchronized : Session ι → Label ι → Prop) := fun s l =>
  match l with
  | .ofEnd _ (.logTS _ now) | .ofEnd _ (.log now) | .ofStart (.stamp now) =>
      inferInstanceAs (Decidable (Reads s now))
  | .ofEnd _ .send | .ofEnd _ .recv | .ofEnd _ .closeChannel | .ofStart (.openChannel _)
  | .ofStart (.receive _) | .ofStart .echo | .ofStart .write | .ofStart .closeChannel =>
      .isTrue trivial

/-- The lines of a peer. -/
def ofPeer (peer : Identity) (log : List (Identity × StartLine)) : List StartLine :=
  log.filterMap fun l => if l.1 = peer then some l.2 else none

/-- The lines of the start node for a FOX_END channel. -/
def Session.startLines (s : Session ι) (e : ι) : List StartLine := ofPeer (identity e) s.start.lines

/-- The lines it has lost of the channel, its log not being open yet. -/
def Session.missedLines (s : Session ι) (e : ι) : List StartLine := ofPeer (identity e) s.missed

/-- The lines of a FOX_END channel. -/
def Session.endLines (s : Session ι) (e : ι) : List EndLine := (s.ends e).base.lines

end Session

end Fox

end CloudProfiler
