import CloudProfiler.Commas
import CloudProfiler.Dict
import CloudProfiler.Nanos

/-!
# CloudProfiler.Duration

Durations as `formatDuration` prints them, read back by the names in their
unit string.

The branches compare with `>`, so a minute, an hour and a day are printed as
60 seconds, 60 minutes and 24 hours, and the days are an `int`.

* `Canonical` — what the text should be;
* `formatDuration_shown` — the fields that can be read in it;
* `formatDuration_canonical_iff` — for which durations it is canonical.
-/

namespace CloudProfiler

/-- The overload for a `timespec`. -/
def formatDurationTS (ts : Timespec) (units : Bool) : List Char :=
  formatDuration ts.tvSec.toUInt64 ts.tvNsec.toUInt64 units

/-- The overload for nano-seconds. -/
def formatDurationNs (ns : UInt64) (units : Bool) : List Char :=
  formatDuration (ns / nanoSPerS) (ns % nanoSPerS) units

/-! ## reading a duration -/

/-- What a field stands for. -/
inductive DurationField
  | days | hours | minutes | seconds | nanos
  deriving DecidableEq

namespace DurationField

/-- The name in a unit string. -/
def name : DurationField → List Char
  | days => ['d', 'a', 'y', 's']
  | hours => ['h', 'h']
  | minutes => ['m', 'm']
  | seconds => ['s', 's']
  | nanos => ['n', 's']

def ofName (s : List Char) : Option DurationField :=
  [days, hours, minutes, seconds, nanos].find? (·.name = s)

/-- Its seconds. -/
def weight : DurationField → Int
  | days => 86400
  | hours => 3600
  | minutes => 60
  | seconds => 1
  | nanos => 0

/-- The number of them that makes one of the next larger. -/
def limit : DurationField → Option Int
  | hours => some 24
  | minutes | seconds => some 60
  | days | nanos => none

end DurationField

/-- A text cut at its underscores and colons. -/
def cut (l : List Char) : List (List Char) := (l.splitOn '_').flatMap (List.splitOn ':')

/-- The value of a field, without commas. -/
def readField (f : List Char) : Option Int := parseInt (f.filter (· ≠ ','))

def fieldValues (body : List Char) : Option (List Int) := (cut body).mapM readField

def unitFields (unit : List Char) : Option (List DurationField) :=
  (cut (strip isBlank unit)).mapM DurationField.ofName

/-- The fields are within their limits and make up the duration. -/
structure MakesUp (t_secs ns : UInt64) (fs : List (DurationField × Int)) : Prop where
  limits : ∀ f ∈ fs, 0 ≤ f.2 ∧ ∀ n ∈ f.1.limit, f.2 < n
  seconds : (fs.map fun f => f.1.weight * f.2).sum = t_secs.toNat
  nanos : ∀ v, (DurationField.nanos, v) ∈ fs ↔ v = ns.toNat

/-- The text has the fields its unit string names. -/
structure Shows (t_secs ns : UInt64) (body unit : List Char)
    (fs : List (DurationField × Int)) : Prop where
  withUnits : formatDuration t_secs ns true = body ++ unit
  withoutUnits : formatDuration t_secs ns false = body
  names : unitFields unit = some (fs.map Prod.fst)
  values : fieldValues body = some (fs.map Prod.snd)

/-- The text is canonical: it shows fields that make up the duration. -/
def Canonical (t_secs ns : UInt64) : Prop :=
  ∃ body unit fs, Shows t_secs ns body unit fs ∧ MakesUp t_secs ns fs

/-! ## reading fields -/

section Fields

variable {l : List Char} {w n : Nat} {z : Int}

theorem parseInt_of_digits (hne : l ≠ []) (hd : ∀ c ∈ l, c.isDigit = true) :
    parseInt l = some (Nat.ofDigitChars 10 l 0 : Int) := by
  have hstrip : strip isBlank l = l := strip_eq_self fun c hc => isBlank_of_isDigit (hd c hc)
  have hsplit : l.splitOn '_' = [l] :=
    List.splitOn_eq_singleton fun h => absurd (hd '_' h) (by decide)
  have hnat : parseNat l = some (Nat.ofDigitChars 10 l 0) := by
    rw [parseNat, hsplit, if_pos (by simpa using ⟨hne, hd⟩)]
    simp
  rw [parseInt, hstrip]
  split
  · exact absurd (hd '-' List.mem_cons_self) (by decide)
  · exact absurd (hd '+' List.mem_cons_self) (by decide)
  · simp [hnat]

/-- A field without commas. -/
theorem readField_eq (h : ',' ∉ l) : readField l = parseInt l := by
  rw [readField, List.filter_eq_self.mpr]
  intro c hc
  have hne : c ≠ ',' := fun he => h (he ▸ hc)
  simpa using hne

/-- Zeros in front do not count. -/
theorem readField_zeroPad (w n : Nat) : readField (zeroPad w (n : Int)) = some (n : Int) := by
  have hd : ∀ c ∈ zeroPad w (n : Int), c.isDigit = true := fun c hc => by
    obtain rfl | hc := mem_leftpad hc
    · decide
    · exact isDigit_of_mem_natText hc
  have hne : zeroPad w (n : Int) ≠ [] := List.append_ne_nil_of_right_ne_nil _ natText_ne_nil
  have hval : Nat.ofDigitChars 10 (zeroPad w (n : Int)) 0 = n := by
    show Nat.ofDigitChars 10 (List.replicate _ '0' ++ natText n) 0 = n
    rw [Nat.ofDigitChars_append, Nat.ofDigitChars_replicate_zero, Nat.mul_zero]
    exact Nat.ofDigitChars_ten_toDigits
  rw [readField_eq fun h => absurd (hd ',' h) (by decide), parseInt_of_digits hne hd, hval]

/-- Nor do blanks. -/
theorem readField_blankPad (w : Nat) (z : Int) : readField (blankPad w z) = some z := by
  have hcomma : ',' ∉ blankPad w z := fun h => by
    obtain h | h := mem_leftpad h
    · exact absurd h (by decide)
    · exact not_mem_intText (by decide) (by decide) h
  rw [readField_eq hcomma]
  refine parseInt_of_strip
    (strip_append_left (fun c hc => ?_) fun c hc => isBlank_of_mem_intText hc)
  rw [List.eq_of_mem_replicate hc]
  decide

theorem readField_intText (z : Int) : readField (intText z) = some z := by
  rw [readField_eq (not_mem_intText (by decide) (by decide)), parseInt_intText]

/-- Colons only. -/
theorem cut_intercalate {p : List Char} {ps : List (List Char)}
    (h : ∀ q ∈ p :: ps, '_' ∉ q ∧ ':' ∉ q) : cut ([':'].intercalate (p :: ps)) = p :: ps := by
  have hline : '_' ∉ [':'].intercalate (p :: ps) := fun hmem => by
    obtain he | ⟨q, hq, hmem⟩ := mem_intercalate hmem
    · exact absurd he (by decide)
    · exact (h q hq).1 hmem
  rw [cut, List.splitOn_eq_singleton hline, List.flatMap_singleton]
  clear hline
  induction ps generalizing p with
  | nil => rw [List.intercalate_singleton, List.splitOn_eq_singleton (h p List.mem_cons_self).2]
  | cons p' ps ih =>
      have hsplit : ([':'].intercalate (p :: p' :: ps) ++ []).splitOn ':' =
          p :: ([':'].intercalate (p' :: ps) ++ []).splitOn ':' :=
        splitOn_intercalate_cons [] (h p List.mem_cons_self).2
      rw [List.append_nil, List.append_nil] at hsplit
      rw [hsplit, ih fun q hq => h q (List.mem_cons_of_mem p hq)]

/-- Days in front. -/
theorem cut_days {d : List Char} (hd : '_' ∉ d ∧ ':' ∉ d) {p : List Char} {ps : List (List Char)}
    (h : ∀ q ∈ p :: ps, '_' ∉ q ∧ ':' ∉ q) :
    cut (d ++ '_' :: [':'].intercalate (p :: ps)) = d :: p :: ps := by
  have hrest := cut_intercalate h
  rw [cut] at hrest
  rw [cut, List.splitOn_append_cons_self_of_not_mem hd.1, List.flatMap_cons, hrest,
    List.splitOn_eq_singleton hd.2]
  rfl

end Fields

/-! ## what is shown -/

/-- The fields that can be read in the text. -/
def shown (t_secs ns : UInt64) : List (DurationField × Int) :=
  let small (n : UInt64) : Int := n.toUInt8.toNat
  if t_secs > 86400 then
    [(.days, (t_secs / 86400).toUInt32.toInt32.toInt), (.hours, small (t_secs % 86400 / 3600)),
      (.minutes, small (t_secs % 86400 % 3600 / 60)),
      (.seconds, small (t_secs % 86400 % 3600 % 60)), (.nanos, ns.toNat)]
  else if t_secs > 3600 then
    [(.hours, small (t_secs / 3600)), (.minutes, small (t_secs % 3600 / 60)),
      (.seconds, small (t_secs % 3600 % 60)), (.nanos, ns.toNat)]
  else if t_secs > 60 then
    [(.minutes, small (t_secs / 60)), (.seconds, small (t_secs % 60)), (.nanos, ns.toNat)]
  else if t_secs > 0 then [(.seconds, small t_secs), (.nanos, ns.toNat)]
  else [(.nanos, ns.toNat)]

section Shown

variable {t_secs ns : UInt64}

/-- Neither an underscore nor a colon occurs in a field. -/
theorem not_mem_zeroPad (w : Nat) (z : Int) : '_' ∉ zeroPad w z ∧ ':' ∉ zeroPad w z := by
  constructor
  · intro h
    obtain h | h := mem_zeroPad h <;> exact absurd h (by decide)
  · intro h
    obtain h | h := mem_zeroPad h <;> exact absurd h (by decide)

theorem not_mem_field (z : Int) : '_' ∉ intText z ∧ ':' ∉ intText z :=
  ⟨not_mem_intText (by decide) (by decide), not_mem_intText (by decide) (by decide)⟩

theorem not_mem_blankPad (w : Nat) (z : Int) : '_' ∉ blankPad w z ∧ ':' ∉ blankPad w z := by
  constructor
  · intro h
    obtain h | h := mem_leftpad h
    · exact absurd h (by decide)
    · exact (not_mem_field z).1 h
  · intro h
    obtain h | h := mem_leftpad h
    · exact absurd h (by decide)
    · exact (not_mem_field z).2 h

/-- A text given by its pieces, each of which is read as a field. -/
theorem shows_of (body : List Char) {unit : List Char} {ps : List (List Char)}
    {fs : List (DurationField × Int)}
    (htext : ∀ units, formatDuration t_secs ns units = body ++ if units then unit else [])
    (hunit : unitFields unit = some (fs.map Prod.fst)) (hcut : cut body = ps)
    (hread : List.Forall₂ (fun p f => readField p = some f.2) ps fs) :
    Shows t_secs ns body unit fs where
  withUnits := htext true
  withoutUnits := by rw [htext false, if_neg (by decide), List.append_nil]
  names := hunit
  values := by
    rw [fieldValues, hcut]
    clear hcut hunit
    induction hread with
    | nil => rfl
    | cons hp _ ih => rw [List.mapM_cons, hp, ih]; rfl

/-- The fields that the unit strings name. -/
theorem unitFields_units :
    unitFields (lit " days_hh:mm:ss:ns") = some [.days, .hours, .minutes, .seconds, .nanos] ∧
      unitFields (lit " hh:mm:ss:ns") = some [.hours, .minutes, .seconds, .nanos] ∧
      unitFields (lit " mm:ss:ns") = some [.minutes, .seconds, .nanos] ∧
      unitFields (lit " ss:ns") = some [.seconds, .nanos] ∧
      unitFields (lit " ns") = some [.nanos] := by
  have hdays : lit " days_hh:mm:ss:ns" = [' ', 'd', 'a', 'y', 's', '_', 'h', 'h', ':', 'm', 'm',
    ':', 's', 's', ':', 'n', 's'] := lit_ofList _
  have hhours : lit " hh:mm:ss:ns" =
    [' ', 'h', 'h', ':', 'm', 'm', ':', 's', 's', ':', 'n', 's'] := lit_ofList _
  have hminutes : lit " mm:ss:ns" = [' ', 'm', 'm', ':', 's', 's', ':', 'n', 's'] := lit_ofList _
  have hseconds : lit " ss:ns" = [' ', 's', 's', ':', 'n', 's'] := lit_ofList _
  have hnanos : lit " ns" = [' ', 'n', 's'] := lit_ofList _
  rw [hdays, hhours, hminutes, hseconds, hnanos]
  decide

/-- Commas do not count either. -/
theorem readField_l2aCommas {num : Int64} (h : num ≠ Int64.minValue) :
    readField (l2aCommas num) = some num.toInt ∧ '_' ∉ l2aCommas num ∧ ':' ∉ l2aCommas num := by
  have hfaithful := groupsFaithfully_l2aCommas h
  exact ⟨hfaithful.value, fun hmem => by simpa using hfaithful.mem hmem,
    fun hmem => by simpa using hfaithful.mem hmem⟩

/-- **What is written can be read.** -/
theorem formatDuration_shown (t_secs : UInt64) (hns : ns.toNat < 1000000000) :
    ∃ body unit, Shows t_secs ns body unit (shown t_secs ns) := by
  have hnanos : ns.toInt64.toInt = (ns.toNat : Int) := toInt_toInt64 (by omega)
  have hpad (n : UInt64) : readField (zeroPad 2 (n.toUInt8.toNat : Int)) =
      some (n.toUInt8.toNat : Int) := readField_zeroPad 2 n.toUInt8.toNat
  have hread : readField (zeroPad 9 ns.toInt64.toInt) = some (ns.toNat : Int) := by
    rw [hnanos, readField_zeroPad]
  obtain ⟨hunit1, hunit2, hunit3, hunit4, hunit5⟩ := unitFields_units
  unfold shown
  by_cases h1 : t_secs > 86400
  · rw [if_pos h1]
    refine ⟨_, _, shows_of
      (intText (t_secs / 86400).toUInt32.toInt32.toInt ++ '_' :: [':'].intercalate
        [zeroPad 2 ((t_secs % 86400 / 3600).toUInt8.toNat : Int),
          zeroPad 2 ((t_secs % 86400 % 3600 / 60).toUInt8.toNat : Int),
          zeroPad 2 ((t_secs % 86400 % 3600 % 60).toUInt8.toNat : Int),
          zeroPad 9 ns.toInt64.toInt])
      (fun units => ?_) hunit1 (cut_days (not_mem_field _) (by simp [not_mem_zeroPad]))
      (.cons (readField_intText _) (.cons (hpad _) (.cons (hpad _) (.cons (hpad _)
        (.cons hread .nil)))))⟩
    simp [formatDuration, if_pos h1, List.intercalate_cons_cons]
  rw [if_neg h1]
  by_cases h2 : t_secs > 3600
  · rw [if_pos h2]
    refine ⟨_, _, shows_of
      ([':'].intercalate [zeroPad 2 ((t_secs / 3600).toUInt8.toNat : Int),
        zeroPad 2 ((t_secs % 3600 / 60).toUInt8.toNat : Int),
        zeroPad 2 ((t_secs % 3600 % 60).toUInt8.toNat : Int), zeroPad 9 ns.toInt64.toInt])
      (fun units => ?_) hunit2 (cut_intercalate (by simp [not_mem_zeroPad]))
      (.cons (hpad _) (.cons (hpad _) (.cons (hpad _) (.cons hread .nil))))⟩
    simp [formatDuration, if_neg h1, if_pos h2, List.intercalate_cons_cons]
  rw [if_neg h2]
  by_cases h3 : t_secs > 60
  · rw [if_pos h3]
    refine ⟨_, _, shows_of
      ([':'].intercalate [zeroPad 2 ((t_secs / 60).toUInt8.toNat : Int),
        zeroPad 2 ((t_secs % 60).toUInt8.toNat : Int), zeroPad 9 ns.toInt64.toInt])
      (fun units => ?_) hunit3 (cut_intercalate (by simp [not_mem_zeroPad]))
      (.cons (hpad _) (.cons (hpad _) (.cons hread .nil)))⟩
    simp [formatDuration, if_neg h1, if_neg h2, if_pos h3, List.intercalate_cons_cons]
  rw [if_neg h3]
  by_cases h4 : t_secs > 0
  · rw [if_pos h4]
    refine ⟨_, _, shows_of
      ([':'].intercalate [blankPad 2 (t_secs.toUInt8.toNat : Int), zeroPad 9 ns.toInt64.toInt])
      (fun units => ?_) hunit4 (cut_intercalate (by simp [not_mem_zeroPad, not_mem_blankPad]))
      (.cons (readField_blankPad 2 _) (.cons hread .nil))⟩
    simp [formatDuration, if_neg h1, if_neg h2, if_neg h3, if_pos h4, List.intercalate_cons_cons]
  rw [if_neg h4]
  have hmin : ns.toInt64 ≠ Int64.minValue := fun hmin => by
    rw [hmin] at hnanos
    have : (-9223372036854775808 : Int) = ns.toNat := hnanos
    omega
  obtain ⟨hcommas, hplain⟩ := readField_l2aCommas hmin
  refine ⟨_, _, shows_of ([':'].intercalate [l2aCommas ns.toInt64]) (fun units => ?_) hunit5
    (cut_intercalate (by simpa using hplain)) (.cons (hcommas.trans (by rw [hnanos])) .nil)⟩
  simp [formatDuration, if_neg h1, if_neg h2, if_neg h3, if_neg h4]

/-- The text can be read in one way only. -/
theorem canonical_iff_makesUp (hns : ns.toNat < 1000000000) :
    Canonical t_secs ns ↔ MakesUp t_secs ns (shown t_secs ns) := by
  obtain ⟨body, unit, hshown⟩ := formatDuration_shown t_secs hns
  constructor
  · rintro ⟨body', unit', fs, hshows, hmakes⟩
    obtain rfl := hshown.withoutUnits.symm.trans hshows.withoutUnits
    have hunit := List.append_cancel_left (hshown.withUnits.symm.trans hshows.withUnits)
    have hnames := hshows.names
    rw [← hunit] at hnames
    rwa [pairs_ext (Option.some.inj (hshown.names.symm.trans hnames))
      (Option.some.inj (hshown.values.symm.trans hshows.values))]
  · exact fun h => ⟨body, unit, _, hshown, h⟩

/-- A small number is not cut off. -/
theorem toNat_toUInt8 {n : UInt64} (h : n.toNat < 256) : n.toUInt8.toNat = n.toNat := by
  rw [UInt64.toNat_toUInt8, Nat.mod_eq_of_lt h]

/-- The conversion to an `int`. -/
theorem toInt_toUInt32_toInt32 (n : UInt64) :
    n.toUInt32.toInt32.toInt = ((n.toNat % 2 ^ 32 : Nat) : Int).bmod (2 ^ 32) := by
  rw [← UInt64.toNat_toUInt32]
  exact BitVec.toInt_eq_toNat_bmod n.toUInt32.toBitVec

/-- The days fit in an `int`. -/
theorem toInt_days (n : UInt64) :
    n.toUInt32.toInt32.toInt = n.toNat ∧ n.toNat < 2 ^ 31 ∨
      n.toUInt32.toInt32.toInt ≠ n.toNat ∧ 2 ^ 31 ≤ n.toNat := by
  have heq := toInt_toUInt32_toInt32 n
  have hlow := Int.le_bmod (x := ((n.toNat % 2 ^ 32 : Nat) : Int)) (m := 2 ^ 32) (by decide)
  have hhigh := Int.bmod_lt (x := ((n.toNat % 2 ^ 32 : Nat) : Int)) (m := 2 ^ 32) (by decide)
  rw [heq]
  by_cases hlt : n.toNat < 2 ^ 31
  · exact .inl ⟨by rw [Int.bmod_eq_of_le (by omega) (by omega)]; omega, hlt⟩
  · exact .inr ⟨by omega, Nat.not_lt.mp hlt⟩

theorem makesUp_iff {fs : List (DurationField × Int)} : MakesUp t_secs ns fs ↔
    (∀ f ∈ fs, 0 ≤ f.2 ∧ ∀ n ∈ f.1.limit, f.2 < n) ∧
      (fs.map fun f => f.1.weight * f.2).sum = t_secs.toNat ∧
      ∀ v, (DurationField.nanos, v) ∈ fs ↔ v = ns.toNat :=
  ⟨fun h => ⟨h.limits, h.seconds, h.nanos⟩, fun ⟨h1, h2, h3⟩ => ⟨h1, h2, h3⟩⟩

/-- The rest of a day in hours, minutes and seconds. -/
theorem split_seconds (t_secs : UInt64) :
    (t_secs % 86400 / 3600).toUInt8.toNat < 24 ∧ (t_secs % 86400 % 3600 / 60).toUInt8.toNat < 60 ∧
      (t_secs % 86400 % 3600 % 60).toUInt8.toNat < 60 ∧
      86400 * (t_secs.toNat / 86400) + 3600 * (t_secs % 86400 / 3600).toUInt8.toNat +
          60 * (t_secs % 86400 % 3600 / 60).toUInt8.toNat +
          (t_secs % 86400 % 3600 % 60).toUInt8.toNat = t_secs.toNat := by
  have hhours : (t_secs % 86400 / 3600).toNat = t_secs.toNat % 86400 / 3600 := by simp
  have hminutes : (t_secs % 86400 % 3600 / 60).toNat = t_secs.toNat % 86400 % 3600 / 60 := by simp
  have hseconds : (t_secs % 86400 % 3600 % 60).toNat = t_secs.toNat % 86400 % 3600 % 60 := by simp
  rw [toNat_toUInt8 (by omega), toNat_toUInt8 (by omega), toNat_toUInt8 (by omega), hhours,
    hminutes, hseconds]
  omega

/-- Which of the durations are shown canonically. -/
theorem makesUp_shown_iff (t_secs ns : UInt64) :
    MakesUp t_secs ns (shown t_secs ns) ↔
      t_secs ≠ 60 ∧ t_secs ≠ 3600 ∧ t_secs ≠ 86400 ∧ t_secs.toNat / 86400 < 2 ^ 31 := by
  have hne (k : UInt64) : t_secs ≠ k ↔ t_secs.toNat ≠ k.toNat := by
    rw [Ne, ← UInt64.toNat_inj]
  have hgt (k : UInt64) : t_secs > k ↔ k.toNat < t_secs.toNat := UInt64.lt_iff_toNat_lt
  rw [hne, hne, hne]
  unfold shown
  rw [makesUp_iff]
  by_cases h1 : t_secs > 86400
  · rw [if_pos h1]
    rw [hgt] at h1
    have hdays := toInt_days (t_secs / 86400)
    obtain ⟨hhours, hminutes, hseconds, hsum⟩ := split_seconds t_secs
    have hdiv : (t_secs / 86400).toNat = t_secs.toNat / 86400 := UInt64.toNat_div _ _
    rw [hdiv] at hdays
    dsimp only
    generalize (t_secs / 86400).toUInt32.toInt32.toInt = days at hdays ⊢
    generalize (t_secs % 86400 / 3600).toUInt8.toNat = hours at hhours hsum ⊢
    generalize (t_secs % 86400 % 3600 / 60).toUInt8.toNat = minutes at hminutes hsum ⊢
    generalize (t_secs % 86400 % 3600 % 60).toUInt8.toNat = seconds at hseconds hsum ⊢
    simp [DurationField.weight, DurationField.limit] at h1 hdays ⊢
    omega
  rw [if_neg h1]
  by_cases h2 : t_secs > 3600
  · rw [if_pos h2]
    rw [hgt] at h1 h2
    simp [DurationField.weight, DurationField.limit] at h1 h2 ⊢
    omega
  rw [if_neg h2]
  by_cases h3 : t_secs > 60
  · rw [if_pos h3]
    rw [hgt] at h1 h2 h3
    simp [DurationField.weight, DurationField.limit] at h1 h2 h3 ⊢
    omega
  rw [if_neg h3]
  by_cases h4 : t_secs > 0
  · rw [if_pos h4]
    rw [hgt] at h1 h2 h3 h4
    simp [DurationField.weight, DurationField.limit] at h1 h2 h3 h4 ⊢
    omega
  rw [if_neg h4]
  rw [hgt] at h1 h2 h3 h4
  simp [DurationField.weight, DurationField.limit] at h1 h2 h3 h4 ⊢
  omega

end Shown

/-! ## the overloads -/

/-- The text is canonical, and the same for the three overloads. -/
structure FormatsFaithfully (t_secs ns : UInt64) : Prop where
  canonical : Canonical t_secs ns
  timespec : ∀ (ts : Timespec) (units : Bool), ts.tvSec.toInt = (t_secs.toNat : Int) →
    ts.tvNsec.toInt = (ns.toNat : Int) → formatDurationTS ts units = formatDuration t_secs ns units
  nanos : ∀ (n : UInt64) (units : Bool), n.toNat = t_secs.toNat * 1000000000 + ns.toNat →
    formatDurationNs n units = formatDuration t_secs ns units

section Overloads

variable {t_secs ns : UInt64}

theorem toUInt64_of_toInt {v : Int64} {n : UInt64} (h : v.toInt = n.toNat) : v.toUInt64 = n := by
  have hv := toNat_toUInt64 v
  have hlt := n.toNat_lt
  exact UInt64.toNat_inj.mp (by omega)

theorem formatDurationNs_eq {n : UInt64} (hns : ns.toNat < 1000000000)
    (h : n.toNat = t_secs.toNat * 1000000000 + ns.toNat) (units : Bool) :
    formatDurationNs n units = formatDuration t_secs ns units := by
  have hdiv : (n / nanoSPerS).toNat = n.toNat / 1000000000 := UInt64.toNat_div n nanoSPerS
  have hmod : (n % nanoSPerS).toNat = n.toNat % 1000000000 := UInt64.toNat_mod n nanoSPerS
  have hsecs : n / nanoSPerS = t_secs := UInt64.toNat_inj.mp (by omega)
  have hrest : n % nanoSPerS = ns := UInt64.toNat_inj.mp (by omega)
  rw [formatDurationNs, hsecs, hrest]

/-- **Durations**: canonical, but for a minute, an hour and a day, and for
`2 ^ 31` days or more. -/
theorem formatDuration_canonical_iff (t_secs ns : UInt64) (hns : ns.toNat < 1000000000) :
    FormatsFaithfully t_secs ns ↔
      t_secs ≠ 60 ∧ t_secs ≠ 3600 ∧ t_secs ≠ 86400 ∧ t_secs.toNat / 86400 < 2 ^ 31 := by
  rw [← makesUp_shown_iff t_secs ns, ← canonical_iff_makesUp hns]
  refine ⟨fun h => h.canonical, fun h => ⟨h, fun ts units hsec hnsec => ?_, fun n units hn =>
    formatDurationNs_eq hns hn units⟩⟩
  rw [formatDurationTS, toUInt64_of_toInt hsec, toUInt64_of_toInt hnsec]

/-- A day, an hour, a minute and a second. -/
theorem formatDuration_canonical_day : FormatsFaithfully 90061 1000 :=
  (formatDuration_canonical_iff 90061 1000 (by decide)).mpr (by decide)

/-- An hour is shown as 60 minutes, and `2 ^ 31` days as a negative number of
days. -/
theorem formatDuration_hour :
    shown 3600 0 = [(.minutes, 60), (.seconds, 0), (.nanos, 0)] ∧
      ¬ FormatsFaithfully 3600 0 ∧ ¬ FormatsFaithfully 60 0 ∧ ¬ FormatsFaithfully 86400 0 ∧
      ¬ FormatsFaithfully 185542587187200 0 := by
  have hno : ∀ t_secs : UInt64, ¬ MakesUp t_secs 0 (shown t_secs 0) →
      ¬ FormatsFaithfully t_secs 0 :=
    fun t_secs hno h => hno ((canonical_iff_makesUp (by decide)).mp h.canonical)
  refine ⟨by decide, hno _ ?_, hno _ ?_, hno _ ?_, hno _ ?_⟩ <;> rw [makesUp_shown_iff] <;> decide

end Overloads

end CloudProfiler
