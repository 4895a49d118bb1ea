import CloudProfiler.Convert
import CloudProfiler.Text

/-!
# CloudProfiler.FileName

The names of log files and how the converter reads them.

`closure::openChannel` puts the letter of the format between colons, in front
of the message of the channel; the converter looks for `:b:`, `:z:` and `:l:`
anywhere in the path.  Nothing in front of the format looks like that
(`find_logFileName`), but a message can.

* `convertLogFile_recognises_iff` — the format of a file is recognised exactly
  when the message has none of the tags that matter for it.
-/

namespace CloudProfiler

/-! ## names -/

/-- The path up to the colon in front of the format. -/
def nameStem (ip : Ipv4) (pid tid ch_nr : Int) : List Char :=
  lit "/tmp/md0/cloud_profiler:" ++ ip.chars ++ ':' :: intText pid ++ ':' :: intText tid ++
    lit ":ch" ++ intText ch_nr

/-- The message as it is put into the name: `std::replace` of blanks. -/
def nameMsg (ch_msg : List Char) : List Char := ch_msg.map fun c => if c = ' ' then '_' else c

/-- The path `closure::openChannel` builds. -/
def logFileName (ip : Ipv4) (pid tid ch_nr : Int) (format : LogFormat) (ch_msg : List Char) :
    List Char :=
  nameStem ip pid tid ch_nr ++ ':' :: (formatToStr format).toList ++ ':' :: nameMsg ch_msg ++
    lit ".txt"

/-! ## the converter -/

/-- What the converter does with a path: each step with the index of the tag
it replaces. -/
inductive Conversion
  | decompress (idx : Nat) (codec : String)
  | convertBinToASCII (idx : Nat)
  deriving DecidableEq, Repr

/-- `absolute_path.find(":" + format_str + ":")`. -/
def findTag (format : LogFormat) (path : List Char) : Option Nat :=
  find (':' :: (formatToStr format).toList ++ [':']) path

/-- The function `convertLogFile`. -/
def convertLogFile (path : List Char) (decomp : Bool) : List Conversion :=
  if decomp then
    match findTag .zstd path, findTag .lzo1x path with
    | some idx, _ => [.decompress idx (formatToStr .zstd)]
    | none, some idx => [.decompress idx (formatToStr .lzo1x)]
    | none, none => []
  else
    match findTag .binary path with
    | some idx => [.convertBinToASCII idx]
    | none => []

/-- The function `convertLogFileToAscii`. -/
def convertLogFileToAscii (path : List Char) : List Conversion :=
  match findTag .zstd path, findTag .lzo1x path with
  | some idx, _ => [.decompress idx (formatToStr .zstd), .convertBinToASCII idx]
  | none, some idx => [.decompress idx (formatToStr .lzo1x), .convertBinToASCII idx]
  | none, none =>
      match findTag .binary path with
      | some idx => [.convertBinToASCII idx]
      | none => []

/-! ## searching for a tag -/

section Tags

variable {x l m : List Char} {t : Char}

/-- A tag starts at a colon. -/
theorem find_append_of_no_colon (hx : ':' ∉ x) :
    find [':', t, ':'] (x ++ m) = (find [':', t, ':'] m).map (· + x.length) := by
  induction x with
  | nil => simp
  | cons c x ih =>
      obtain ⟨hc, hx⟩ : ':' ≠ c ∧ ':' ∉ x := by simpa using hx
      have hno : ¬ [':', t, ':'] <+: c :: (x ++ m) := fun h => hc (List.cons_prefix_cons.mp h).1
      rw [List.cons_append, find_cons hno, ih hx, Option.map_map]
      rfl

/-- A field that is not the letter looked for is passed over. -/
theorem find_field (ht : t ≠ ':') (hx : ':' ∉ x) (hne : x ≠ [t]) :
    find [':', t, ':'] (':' :: (x ++ ':' :: m)) =
      (find [':', t, ':'] (':' :: m)).map (· + (x.length + 1)) := by
  have hno : ¬ [':', t, ':'] <+: ':' :: (x ++ ':' :: m) := fun h => by
    obtain ⟨-, h⟩ := List.cons_prefix_cons.mp h
    match x with
    | [] => exact ht (List.cons_prefix_cons.mp h).1
    | [c] => exact hne (by rw [(List.cons_prefix_cons.mp h).1])
    | c :: c' :: x =>
        obtain ⟨-, h⟩ := List.cons_prefix_cons.mp h
        obtain ⟨hcolon, -⟩ := List.cons_prefix_cons.mp h
        subst hcolon
        exact hx (by simp)
  rw [find_cons hno, find_append_of_no_colon hx, Option.map_map]
  rfl

/-- The letter itself is found. -/
theorem find_tag (t : Char) (m : List Char) :
    find [':', t, ':'] (':' :: ([t] ++ ':' :: m)) = some 0 := find_eq_zero ⟨m, rfl⟩

/-- A tag ends in a colon. -/
theorem infix_append_of_no_colon (hm : ':' ∉ m) :
    [':', t, ':'] <:+: l ++ m ↔ [':', t, ':'] <:+: l := by
  refine ⟨fun ⟨s, u, h⟩ => ?_, fun h => h.trans (List.prefix_append l m).isInfix⟩
  obtain ⟨a, ha, -⟩ | ⟨a, ha, hm'⟩ := List.append_eq_append_iff.mp h
  · exact ⟨s, a, ha.symm⟩
  · cases a using List.reverseRecOn with
    | nil => exact ⟨s, [], by simpa using ha⟩
    | append_singleton a c =>
        have hlast := congrArg List.getLast? ha
        simp only [List.getLast?_append, List.getLast?_singleton] at hlast
        have hc : ':' = c := by simpa using hlast
        subst hc
        exact absurd (by simp [hm']) hm

end Tags

/-- The letter of a format. -/
def LogFormat.letter : LogFormat → Char
  | .ascii => 'a'
  | .binary => 'b'
  | .zstd => 'z'
  | .lzo1x => 'l'
  | .asciiTsc => 'i'
  | .binaryTsc => 'y'
  | .zstdTsc => 'd'
  | .lzo1xTsc => 'x'

section Names

variable {ip : Ipv4} {pid tid ch_nr : Int} {f g : LogFormat} {ch_msg : List Char}

theorem toList_formatToStr (f : LogFormat) : (formatToStr f).toList = [f.letter] := by
  cases f <;> decide

theorem letter_injective (h : f.letter = g.letter) : f = g := by
  revert h
  cases f <;> cases g <;> decide

theorem letter_props (f : LogFormat) : f.letter ≠ ':' ∧ f.letter ≠ '.' ∧ f.letter ≠ '-' ∧
    f.letter ≠ '_' ∧ f.letter ≠ ' ' ∧ f.letter.isDigit = false := by
  cases f <;> decide

/-- The tag of a format stands in a message, or at its front. -/
def Tagged (g : LogFormat) (ch_msg : List Char) : Prop :=
  [':', g.letter, ':'] <:+: ':' :: ch_msg

instance : Decidable (Tagged g ch_msg) := inferInstanceAs (Decidable (_ <:+: _))

/-- Replacing blanks makes no tag and destroys none. -/
theorem tagged_nameMsg : Tagged g (nameMsg ch_msg) ↔ Tagged g ch_msg := by
  let r : Char → Char := fun c => if c = ' ' then '_' else c
  have hr {c d : Char} (hd : d ≠ '_') (h : r c = d) : c = d := by
    by_cases hc : c = ' '
    · simp only [r, hc, if_true] at h
      exact absurd h.symm hd
    · simpa [r, hc] using h
  have hmap : ':' :: nameMsg ch_msg = (':' :: ch_msg).map r := by simp [nameMsg, r]
  obtain ⟨-, -, -, hunder, hblank, -⟩ := letter_props g
  rw [Tagged, Tagged, hmap]
  constructor
  · rintro ⟨s, u, h⟩
    obtain ⟨l, u', hl, hsl, -⟩ := List.map_eq_append_iff.mp h.symm
    obtain ⟨s', p, rfl, -, hp⟩ := List.map_eq_append_iff.mp hsl
    refine ⟨s', u', ?_⟩
    obtain ⟨c₁, p, rfl, h₁, hp⟩ := List.map_eq_cons_iff.mp hp
    obtain ⟨c₂, p, rfl, h₂, hp⟩ := List.map_eq_cons_iff.mp hp
    obtain ⟨c₃, p, rfl, h₃, hp⟩ := List.map_eq_cons_iff.mp hp
    obtain rfl := List.map_eq_nil_iff.mp hp
    rw [hl, hr (by decide) h₁, hr hunder h₂, hr (by decide) h₃]
  · rintro ⟨s, u, h⟩
    refine ⟨s.map r, u.map r, ?_⟩
    rw [← h]
    simp [r, hblank]

/-- What the converter finds after the format field. -/
theorem find_msg : find [':', g.letter, ':'] (':' :: (nameMsg ch_msg ++ lit ".txt")) = none ↔
    ¬ Tagged g ch_msg := by
  have htxt : ':' ∉ lit ".txt" := not_mem_lit (by decide)
  rw [find_eq_none, ← List.cons_append, infix_append_of_no_colon htxt, ← Tagged, tagged_nameMsg]

/-- The converter finds the tag of the format at the format field, and any
other tag only in the message. -/
theorem findTag_logFileName : findTag g (logFileName ip pid tid ch_nr f ch_msg) =
    if g = f then some (nameStem ip pid tid ch_nr).length
    else (find [':', g.letter, ':'] (':' :: (nameMsg ch_msg ++ lit ".txt"))).map
      (· + ((nameStem ip pid tid ch_nr).length + 2)) := by
  obtain ⟨hcolon, hdot, hminus, -, -, hdigit⟩ := letter_props g
  have hroot : lit "/tmp/md0/cloud_profiler:" = lit "/tmp/md0/cloud_profiler" ++ [':'] := by
    rw [show lit "/tmp/md0/cloud_profiler:" = _ from lit_ofList _,
      show lit "/tmp/md0/cloud_profiler" = _ from lit_ofList _]
    rfl
  have hch : lit ":ch" = [':', 'c', 'h'] := lit_ofList _
  have hint (z : Int) : ':' ∉ intText z := not_mem_intText (by decide) (by decide)
  have hint' (z : Int) : intText z ≠ [g.letter] := fun h =>
    not_mem_intText (z := z) hminus hdigit (h ▸ List.mem_singleton_self _)
  have hip : ip.chars ≠ [g.letter] := fun h => by
    obtain h | h := ip.dotted _ (h ▸ List.mem_singleton_self _)
    · exact hdot h
    · simp [hdigit] at h
  have hrootc : ':' ∉ lit "/tmp/md0/cloud_profiler" := not_mem_lit (by decide)
  have hname : logFileName ip pid tid ch_nr f ch_msg =
      lit "/tmp/md0/cloud_profiler" ++ ':' :: (ip.chars ++ ':' :: (intText pid ++
        ':' :: (intText tid ++ ':' :: ('c' :: 'h' :: intText ch_nr ++
          ':' :: ([f.letter] ++ ':' :: (nameMsg ch_msg ++ lit ".txt")))))) := by
    simp [logFileName, nameStem, hroot, hch, toList_formatToStr]
  have hlen : (nameStem ip pid tid ch_nr).length = (lit "/tmp/md0/cloud_profiler").length +
      (ip.chars.length + 1 + (intText pid).length + 1 + (intText tid).length + 1 +
        ((intText ch_nr).length + 2 + 1)) := by
    simp [nameStem, hroot, hch]
    omega
  rw [findTag, toList_formatToStr, hname, List.cons_append, List.singleton_append,
    find_append_of_no_colon hrootc, find_field hcolon ip.colon_not_mem hip,
    find_field hcolon (hint pid) (hint' pid), find_field hcolon (hint tid) (hint' tid),
    find_field hcolon (by simp [hint ch_nr]) (by simp), hlen]
  by_cases hgf : g = f
  · subst hgf
    rw [find_tag, if_pos rfl]
    simp only [Option.map_some, List.length_cons, Option.some.injEq]
    omega
  · have hf : ':' ∉ [f.letter] := by simpa using (letter_props f).1.symm
    rw [if_neg hgf, find_field hcolon hf (by simpa using fun h => hgf (letter_injective h.symm))]
    simp only [Option.map_map]
    congr 1
    funext n
    simp only [Function.comp, List.length_cons, List.length_nil]
    omega

theorem findTag_self : findTag f (logFileName ip pid tid ch_nr f ch_msg) =
    some (nameStem ip pid tid ch_nr).length := by rw [findTag_logFileName, if_pos rfl]

/-- The tag of another format is found exactly where the message has it. -/
theorem findTag_eq_none (hne : g ≠ f) :
    findTag g (logFileName ip pid tid ch_nr f ch_msg) = none ↔ ¬ Tagged g ch_msg := by
  rw [findTag_logFileName, if_neg hne, Option.map_eq_none_iff, find_msg]

end Names

/-! ## recognition -/

/-- The converter recognises a path as that of a file of format `f` with the
tag at `idx`: it decompresses what is compressed and converts what is binary,
and does both to compressed files that are to become ASCII. -/
@[mk_iff]
structure Recognises (f : LogFormat) (idx : Nat) (path : List Char) : Prop where
  decomp : convertLogFile path true = match f with
    | .zstd => [.decompress idx "z"]
    | .lzo1x => [.decompress idx "l"]
    | _ => []
  convert : convertLogFile path false = if f = .binary then [.convertBinToASCII idx] else []
  toAscii : convertLogFileToAscii path = match f with
    | .zstd => [.decompress idx "z", .convertBinToASCII idx]
    | .lzo1x => [.decompress idx "l", .convertBinToASCII idx]
    | .binary => [.convertBinToASCII idx]
    | _ => []

/-- The tags that are taken for the format of a file, or for another step it
needs, when they stand in its message. -/
def misleading : LogFormat → List LogFormat
  | .zstd => [.binary]
  | .lzo1x => [.zstd, .binary]
  | .binary => [.zstd, .lzo1x]
  | _ => [.zstd, .lzo1x, .binary]

/-- A path with the tag of the format is recognised exactly when it has none of
the misleading ones. -/
theorem recognises_iff_of_findTag {f : LogFormat} {idx : Nat} {path : List Char}
    (hself : findTag f path = some idx) :
    Recognises f idx path ↔ ∀ g ∈ misleading f, findTag g path = none := by
  obtain ⟨z, hz⟩ : ∃ z, findTag .zstd path = z := ⟨_, rfl⟩
  obtain ⟨l, hl⟩ : ∃ l, findTag .lzo1x path = l := ⟨_, rfl⟩
  obtain ⟨b, hb⟩ : ∃ b, findTag .binary path = b := ⟨_, rfl⟩
  simp only [recognises_iff, convertLogFile, convertLogFileToAscii, hz, hl, hb]
  cases f with
  | zstd =>
      obtain rfl := hz.symm.trans hself
      cases b <;> simp [misleading, formatToStr, hb]
  | lzo1x =>
      obtain rfl := hl.symm.trans hself
      cases z <;> cases b <;> simp [misleading, formatToStr, hz, hb]
  | binary =>
      obtain rfl := hb.symm.trans hself
      cases z <;> cases l <;> simp [misleading, hz, hl]
  | _ => cases z <;> cases l <;> cases b <;> simp [misleading, hz, hl, hb]

/-- **A file is recognised by its format field exactly when its message has
none of the misleading tags.** -/
theorem convertLogFile_recognises_iff (ip : Ipv4) (pid tid ch_nr : Int) (f : LogFormat)
    (ch_msg : List Char) :
    Recognises f (nameStem ip pid tid ch_nr).length (logFileName ip pid tid ch_nr f ch_msg) ↔
      ∀ g ∈ misleading f, ¬ Tagged g ch_msg := by
  rw [recognises_iff_of_findTag findTag_self]
  refine forall_congr' fun g => imp_congr_right fun hg => findTag_eq_none ?_
  rintro rfl
  revert hg
  cases g <;> decide

/-- An ASCII channel with the message `a:z:b`. -/
def colonName : List Char :=
  logFileName .local 4711 4712 0 .ascii ['a', ':', 'z', ':', 'b']

/-- Its message is taken for the format ZSTD, and the log is decompressed. -/
theorem colonName_not_recognised :
    (∃ idx, convertLogFile colonName true = [.decompress idx "z"]) ∧
      ¬ ∃ idx, Recognises .ascii idx colonName := by
  have htag : findTag .zstd colonName ≠ none := fun h =>
    (findTag_eq_none (by decide)).mp h (by decide)
  obtain ⟨idx, hidx⟩ := Option.ne_none_iff_exists'.mp htag
  have hconv : convertLogFile colonName true = [.decompress idx "z"] := by
    simp [convertLogFile, hidx, formatToStr]
  refine ⟨⟨idx, hconv⟩, ?_⟩
  rintro ⟨_, h⟩
  simpa using hconv.symm.trans h.decomp

end CloudProfiler
