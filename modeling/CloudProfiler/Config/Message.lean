import Mathlib.Data.List.TakeWhile
import CloudProfiler.Config.FoxEnd
import CloudProfiler.Convert

/-!
# CloudProfiler.Config.Message

A configuration request as bytes: `getConfigFromServer` fills a
`conf_req_msg`, and the server reads the fields of what it received.

The two names are fields of 128 characters, filled by `strncpy` and read as C
strings.  A name of 128 characters or more leaves no room for the NUL, and the
server reads on in the field behind it.

* `confReqMsg`, `readConfReqMsg` — the message written and read;
* `cString_field_iff` — which C strings survive such a field;
* `request_arrives_iff` — which requests arrive unchanged, and that every
  configuration comes back unchanged.
-/

namespace CloudProfiler

/-! ## C strings -/

/-- `MAX_STR_SIZE`. -/
def maxStrSize : Nat := 128

/-- The C string at the beginning of some bytes. -/
def cStr (bs : List UInt8) : List UInt8 := bs.takeWhile (· ≠ 0)

/-- `strncpy(dst, s.c_str(), MAX_STR_SIZE)`. -/
def strncpy (s : List UInt8) : List UInt8 := (cStr s ++ List.replicate maxStrSize 0).take maxStrSize

/-- The C string read at some bytes; `none` runs past their end. -/
def cString (bs : List UInt8) : Option (List UInt8) := if 0 ∈ bs then some (cStr bs) else none

/-- A `std::string` of these bytes. -/
def stringOf (bs : List UInt8) : String := String.ofList (bs.map Char.ofUInt8)

section CStrings

variable {s rest : List UInt8}

theorem length_strncpy (s : List UInt8) : (strncpy s).length = maxStrSize := by
  simp [strncpy]

theorem zero_not_mem_cStr (bs : List UInt8) : 0 ∉ cStr bs := fun h => by
  simpa using List.mem_takeWhile_imp h

theorem cStr_append_zero {l : List UInt8} (hl : 0 ∉ l) (m : List UInt8) :
    cStr (l ++ 0 :: m) = l := by
  rw [cStr, List.takeWhile_append_of_pos fun b hb => by simpa using fun h : b = 0 => hl (h ▸ hb)]
  simp

theorem cStr_append_of_not_mem {l : List UInt8} (hl : 0 ∉ l) (m : List UInt8) :
    cStr (l ++ m) = l ++ cStr m := by
  rw [cStr, List.takeWhile_append_of_pos fun b hb => by simpa using fun h : b = 0 => hl (h ▸ hb), cStr]

/-- The C string fits into a field, or what it is cut off follows the field in
memory. -/
def FieldFits (s rest : List UInt8) : Prop :=
  (cStr s).length < maxStrSize ∨ (0 ∈ rest ∧ (cStr s).drop maxStrSize = cStr rest)

instance : Decidable (FieldFits s rest) := inferInstanceAs (Decidable (_ ∨ _))

/-- **What survives a field** that is followed by `rest`. -/
theorem cString_field_iff : cString (strncpy s ++ rest) = some (cStr s) ↔ FieldFits s rest := by
  have hzero := zero_not_mem_cStr s
  by_cases hlen : (cStr s).length < maxStrSize
  · obtain ⟨k, hk⟩ : ∃ k, maxStrSize - (cStr s).length = k + 1 :=
      ⟨_, (Nat.sub_add_cancel (by omega)).symm⟩
    have hcopy : strncpy s = cStr s ++ 0 :: List.replicate k 0 := by
      rw [strncpy, List.take_append, List.take_of_length_le hlen.le, List.take_replicate,
        Nat.min_eq_left (Nat.sub_le _ _), hk, List.replicate_succ]
    rw [hcopy, List.append_assoc, cString, if_pos (by simp), List.cons_append, cStr_append_zero hzero]
    exact iff_of_true rfl (.inl hlen)
  · have hcopy : strncpy s = (cStr s).take maxStrSize := by
      rw [strncpy, List.take_append, Nat.sub_eq_zero_of_le (by omega)]
      simp
    have htake : 0 ∉ (cStr s).take maxStrSize := fun h => hzero (List.mem_of_mem_take h)
    have hmem : 0 ∈ (cStr s).take maxStrSize ++ rest ↔ 0 ∈ rest := by simp [htake]
    rw [hcopy, cString, FieldFits, if_congr hmem rfl rfl, cStr_append_of_not_mem htake]
    by_cases hrest : 0 ∈ rest
    · have hsplit := List.take_append_drop maxStrSize (cStr s)
      rw [if_pos hrest, Option.some.injEq]
      constructor
      · intro h
        exact .inr ⟨hrest, (List.append_cancel_left (h.trans hsplit.symm)).symm⟩
      · rintro (h | ⟨-, h⟩)
        · exact absurd h hlen
        · rw [← h, hsplit]
    · simp [hrest, hlen]

theorem stringOf_injective {l m : List UInt8} (h : stringOf l = stringOf m) : l = m := by
  refine List.map_injective_iff.mpr (fun a b hab => ?_) (String.ofList_injective h)
  have hval : a.toUInt32 = b.toUInt32 := congrArg Char.val hab
  exact UInt8.toNat_inj.mp (by simpa using congrArg UInt32.toNat hval)

end CStrings

/-! ## the message -/

/-- The parameters of a request: `par[1] … par[par[0]]`, in memory that holds
`mem` before. -/
def parBytes (mem : Nat → UInt8) (par : Nat → Int64) : List UInt8 :=
  (List.range 7).flatMap fun i : Nat =>
    if 1 ≤ i ∧ (i : Int) ≤ (par 0).toInt then leBytes 8 (par i).toUInt64.toNat
    else (List.range 8).map fun k => mem (8 * i + k)

/-- The bytes of the request `getConfigFromServer` sends. -/
def confReqMsg (mem : Nat → UInt8) (ch_name ch_dotted_quad : List UInt8) (ch_pid ch_tid : UInt32)
    (ch_nr : Int32) (par : Nat → Int64) : List UInt8 :=
  strncpy ch_name ++ (strncpy ch_dotted_quad ++ (leBytes 4 ch_pid.toNat ++ (leBytes 4 ch_tid.toNat ++
    (leBytes 4 ch_nr.toUInt32.toNat ++ (leBytes 4 (par 0).toInt32.toUInt32.toNat ++
      parBytes mem par)))))

/-- `uint32_t` in memory. -/
def uint32At (bs : List UInt8) : UInt32 := UInt32.ofNat (leNat (bs.take 4))

/-- What the server reads in the bytes of a request; `none` when a name has no
end. -/
def readConfReqMsg (bs : List UInt8) : Option ConfReqMsg :=
  (cString bs).bind fun name =>
    (cString (bs.drop 128)).map fun ip =>
      { chName := stringOf name
        chDottedQuad := stringOf ip
        chPid := uint32At (bs.drop 256)
        chTid := uint32At (bs.drop 260)
        chNr := (uint32At (bs.drop 264)).toInt32
        nrParameters := (uint32At (bs.drop 268)).toInt32
        parValue := fun i => int64At ((bs.drop (272 + 8 * i)).take 8) }

section Message

variable {mem : Nat → UInt8} {ch_name ch_dotted_quad : List UInt8} {ch_pid ch_tid : UInt32}
  {ch_nr : Int32} {par : Nat → Int64}

theorem uint32At_leBytes (x : UInt32) (rest : List UInt8) :
    uint32At (leBytes 4 x.toNat ++ rest) = x := by
  have hlt : x.toNat < 256 ^ 4 := x.toNat_lt
  rw [uint32At, List.take_append_of_le_length (by simp), take_leBytes, leNat_leBytes,
    Nat.mod_eq_of_lt hlt, UInt32.ofNat_toNat]

/-- One of several blocks of 8 bytes. -/
theorem take_drop_flatMap {α : Type} {f : α → List UInt8} (hf : ∀ a, (f a).length = 8) (l : List α)
    {i : Nat} (hi : i < l.length) : ((l.flatMap f).drop (8 * i)).take 8 = f l[i] := by
  induction l generalizing i with
  | nil => cases hi
  | cons a l ih =>
      rw [List.flatMap_cons]
      cases i with
      | zero => simp [List.take_left' (hf a)]
      | succ i =>
          have hdrop : (f a ++ l.flatMap f).drop (8 * (i + 1)) = (l.flatMap f).drop (8 * i) := by
            rw [Nat.mul_succ, Nat.add_comm, ← List.drop_drop, List.drop_left' (hf a)]
          rw [hdrop, ih (by simpa using hi), List.getElem_cons_succ]

theorem take_drop_parBytes {i : Nat} (h1 : 1 ≤ i) (h6 : i ≤ 6) (hi : (i : Int) ≤ (par 0).toInt) :
    ((parBytes mem par).drop (8 * i)).take 8 = leBytes 8 (par i).toUInt64.toNat := by
  have hlen (i : Nat) : (if 1 ≤ i ∧ (i : Int) ≤ (par 0).toInt then leBytes 8 (par i).toUInt64.toNat
      else (List.range 8).map fun k => mem (8 * i + k)).length = 8 := by
    split <;> simp
  rw [parBytes, take_drop_flatMap hlen _ (by simpa using (by omega : i < 7)), List.getElem_range,
    if_pos ⟨h1, hi⟩]

/-- What follows the two names in a message. -/
theorem drop_confReqMsg :
    (confReqMsg mem ch_name ch_dotted_quad ch_pid ch_tid ch_nr par).drop 128 =
      strncpy ch_dotted_quad ++
        (confReqMsg mem ch_name ch_dotted_quad ch_pid ch_tid ch_nr par).drop 256 ∧
    (confReqMsg mem ch_name ch_dotted_quad ch_pid ch_tid ch_nr par).drop 256 =
      leBytes 4 ch_pid.toNat ++ (leBytes 4 ch_tid.toNat ++ (leBytes 4 ch_nr.toUInt32.toNat ++
        (leBytes 4 (par 0).toInt32.toUInt32.toNat ++ parBytes mem par))) := by
  have h128 (s m : List UInt8) : (strncpy s ++ m).drop 128 = m :=
    List.drop_left' (length_strncpy s)
  have h256 (m : List UInt8) : (strncpy ch_name ++ (strncpy ch_dotted_quad ++ m)).drop 256 = m := by
    rw [show 256 = 128 + 128 from rfl, ← List.drop_drop, h128, h128]
  rw [confReqMsg, h128, h256]
  exact ⟨rfl, rfl⟩

/-- What the server reads, apart from the names. -/
theorem readConfReqMsg_eq (mem : Nat → UInt8) (ch_name ch_dotted_quad : List UInt8)
    (ch_pid ch_tid : UInt32) (ch_nr : Int32) (par : Nat → Int64) :
    readConfReqMsg (confReqMsg mem ch_name ch_dotted_quad ch_pid ch_tid ch_nr par) =
      (cString (confReqMsg mem ch_name ch_dotted_quad ch_pid ch_tid ch_nr par)).bind fun name =>
        (cString ((confReqMsg mem ch_name ch_dotted_quad ch_pid ch_tid ch_nr par).drop 128)).map
          fun ip => {
            chName := stringOf name
            chDottedQuad := stringOf ip
            chPid := ch_pid
            chTid := ch_tid
            chNr := ch_nr
            nrParameters := (par 0).toInt32
            parValue := fun i => int64At (((parBytes mem par).drop (8 * i)).take 8) } := by
  have h256 : (confReqMsg mem ch_name ch_dotted_quad ch_pid ch_tid ch_nr par).drop 256 = _ :=
    drop_confReqMsg.2
  rw [readConfReqMsg]
  generalize confReqMsg mem ch_name ch_dotted_quad ch_pid ch_tid ch_nr par = bs at h256 ⊢
  have hnext {n : Nat} {x : Nat} {m : List UInt8} (h : bs.drop n = leBytes 4 x ++ m) :
      bs.drop (n + 4) = m := by
    rw [← List.drop_drop, h, List.drop_left' (length_leBytes 4 x)]
  have h260 := hnext h256
  have h264 := hnext h260
  have h268 := hnext h264
  have h272 := hnext h268
  have hpar (i : Nat) : bs.drop (272 + 8 * i) = (parBytes mem par).drop (8 * i) := by
    rw [← List.drop_drop, h272]
  simp only [h256, h260, h264, h268, hpar, uint32At_leBytes, Int32.toInt32_toUInt32]

end Message

/-! ## requests and replies -/

/-- The server reads in the message what the client passed: the names as C
strings, and parameters `1` to `par[0]`. -/
def ArrivesUnchanged (mem : Nat → UInt8) (ch_name ch_dotted_quad : List UInt8) (ch_pid ch_tid : UInt32)
    (ch_nr : Int32) (par : Nat → Int64) : Prop :=
  ∃ req, readConfReqMsg (confReqMsg mem ch_name ch_dotted_quad ch_pid ch_tid ch_nr par) = some req ∧
    req.chName = stringOf (cStr ch_name) ∧ req.chDottedQuad = stringOf (cStr ch_dotted_quad) ∧
    req.chPid = ch_pid ∧ req.chTid = ch_tid ∧ req.chNr = ch_nr ∧
    req.nrParameters.toInt = (par 0).toInt ∧
    ∀ i : Nat, 1 ≤ i → (i : Int) ≤ (par 0).toInt → req.parValue i = par i

/-- A reply that carries a configuration is copied back: its parameters
behind their number, the handler type and the format. -/
def CopiedBack (msg : ConfReplyMsg) (cl : Client) : Prop :=
  (getConfigFromServer msg cl).1 = true ∧
    (getConfigFromServer msg cl).2.chH = msg.hType ∧
    (getConfigFromServer msg cl).2.format = msg.logF ∧
    (getConfigFromServer msg cl).2.par 0 = Int64.ofNat msg.nrParameters.toNat ∧
    ∀ i < msg.nrParameters.toNat, (getConfigFromServer msg cl).2.par (i + 1) = msg.parValue i

theorem copiedBack {msg : ConfReplyMsg} (h : msg.succeeds = true) (cl : Client) :
    CopiedBack msg cl := by
  have hok : ¬ (msg.hType = none ∨ msg.err ≠ 0) := by
    simpa [ConfReplyMsg.succeeds, not_or] using h
  rw [CopiedBack, getConfigFromServer, if_neg hok]
  refine ⟨rfl, rfl, rfl, rfl, fun i hi => ?_⟩
  simp [hi]

/-- **A request arrives unchanged exactly when its names fit**, and the number
of its parameters is an `int32_t`; a configuration always comes back
unchanged. -/
theorem request_arrives_iff (mem : Nat → UInt8) (ch_name ch_dotted_quad : List UInt8)
    (ch_pid ch_tid : UInt32) (ch_nr : Int32) (par : Nat → Int64)
    (hpar : (par 0).toInt ≤ 6) :
    (ArrivesUnchanged mem ch_name ch_dotted_quad ch_pid ch_tid ch_nr par ∧
      ∀ msg : ConfReplyMsg, msg.nrParameters ≤ 7 → msg.succeeds = true →
        ∀ cl, CopiedBack msg cl) ↔
    FieldFits ch_name ((confReqMsg mem ch_name ch_dotted_quad ch_pid ch_tid ch_nr par).drop 128) ∧
      FieldFits ch_dotted_quad
        ((confReqMsg mem ch_name ch_dotted_quad ch_pid ch_tid ch_nr par).drop 256) ∧
      -2 ^ 31 ≤ (par 0).toInt := by
  have hname : cString (confReqMsg mem ch_name ch_dotted_quad ch_pid ch_tid ch_nr par) =
      some (cStr ch_name) ↔ FieldFits ch_name
        ((confReqMsg mem ch_name ch_dotted_quad ch_pid ch_tid ch_nr par).drop 128) := by
    rw [← cString_field_iff, drop_confReqMsg.1, drop_confReqMsg.2, confReqMsg]
  have hip : cString ((confReqMsg mem ch_name ch_dotted_quad ch_pid ch_tid ch_nr par).drop 128) =
      some (cStr ch_dotted_quad) ↔ FieldFits ch_dotted_quad
        ((confReqMsg mem ch_name ch_dotted_quad ch_pid ch_tid ch_nr par).drop 256) := by
    rw [← cString_field_iff, drop_confReqMsg.1]
  have hcount : (par 0).toInt32.toInt = (par 0).toInt ↔ -2 ^ 31 ≤ (par 0).toInt := by
    rw [Int64.toInt_toInt32]
    constructor
    · intro h
      have := Int.le_bmod (x := (par 0).toInt) (m := 2 ^ 32) (by decide)
      omega
    · intro h
      exact Int.bmod_eq_of_le (by omega) (by omega)
  have hpars (i : Nat) (h1 : 1 ≤ i) (hi : (i : Int) ≤ (par 0).toInt) :
      int64At (((parBytes mem par).drop (8 * i)).take 8) = par i := by
    rw [take_drop_parBytes h1 (by omega) hi, int64At_leBytes]
  rw [and_iff_left fun msg _ h cl => copiedBack h cl, ArrivesUnchanged, readConfReqMsg_eq, ← hname, ← hip,
    ← hcount]
  constructor
  · rintro ⟨req, hreq, hn, hi, -, -, -, hc, -⟩
    obtain ⟨name, hname', hreq⟩ := Option.bind_eq_some_iff.mp hreq
    obtain ⟨ip, hip', rfl⟩ := Option.map_eq_some_iff.mp hreq
    exact ⟨by rw [hname', stringOf_injective hn], by rw [hip', stringOf_injective hi], hc⟩
  · rintro ⟨hn, hi, hc⟩
    rw [hn, hi]
    exact ⟨_, rfl, rfl, rfl, rfl, rfl, rfl, hc, hpars⟩

/-- A name of 128 characters. -/
def longName : List UInt8 := List.replicate 128 120

/-- The address `10.0.0.1`. -/
def someAddress : List UInt8 := [49, 48, 46, 48, 46, 48, 46, 49]

/-- A request for a channel with a short name and one parameter. -/
theorem request_arrives_short :
    (ArrivesUnchanged (fun _ => 0) [99, 104] someAddress 4711 4712 3 (fun i => if i = 0 then 1 else 5) ∧
      ∀ msg : ConfReplyMsg, msg.nrParameters ≤ 7 → msg.succeeds = true →
        ∀ cl, CopiedBack msg cl) :=
  (request_arrives_iff (fun _ => 0) [99, 104] someAddress 4711 4712 3
    (fun i => if i = 0 then 1 else 5) (by decide)).mpr
    ⟨.inl (by decide), .inl (by decide), by decide⟩

/-- A name of 128 characters does not arrive: the server reads the address
behind it. -/
theorem request_longName :
    ¬ ArrivesUnchanged (fun _ => 0) longName someAddress 4711 4712 3 (fun _ => 0) ∧
      (readConfReqMsg (confReqMsg (fun _ => 0) longName someAddress 4711 4712 3
        (fun _ => 0))).map (·.chName) = some (stringOf (longName ++ someAddress)) := by
  have hread : cString (confReqMsg (fun _ => 0) longName someAddress 4711 4712 3 (fun _ => 0)) =
      some (longName ++ someAddress) := by decide +kernel
  have hip : cString ((confReqMsg (fun _ => 0) longName someAddress 4711 4712 3
      (fun _ => 0)).drop 128) = some someAddress := by decide +kernel
  have hreq : (readConfReqMsg (confReqMsg (fun _ => 0) longName someAddress 4711 4712 3
      (fun _ => 0))).map (·.chName) = some (stringOf (longName ++ someAddress)) := by
    rw [readConfReqMsg_eq, hread, hip]
    rfl
  refine ⟨fun ⟨req, hreq', hname, _⟩ => ?_, hreq⟩
  rw [hreq', Option.map_some, Option.some.injEq, hname] at hreq
  exact absurd (stringOf_injective hreq) (by decide +kernel)

end CloudProfiler
