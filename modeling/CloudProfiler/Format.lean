import CloudProfiler.Mirror
import CloudProfiler.Text
import CloudProfiler.Time

/-!
# CloudProfiler.Format

What the profiler prints of times and numbers (`time.cpp`, `time_io.cpp`,
`util.c`).

* `Calendar` — `localtime_r` and `strftime`, which belong to the C library;
* `formatTS`, `formatDuration`, `l2aCommas` — times, durations and numbers as
  text;
* `writeTimeStampedCtr` — a data line of the counters, and its five columns
  (`writeTimeStampedCtr_eq`).
-/

namespace CloudProfiler

/-! ## printf -/

/-- `%0wd` and `%0wld`: zeros between the sign and the digits. -/
def zeroPad (w : Nat) : Int → List Char
  | .ofNat n => (natText n).leftpad w '0'
  | .negSucc n => '-' :: (natText (n + 1)).leftpad (w - 1) '0'

/-- `%wd`: blanks in front. -/
def blankPad (w : Nat) (z : Int) : List Char := (intText z).leftpad w ' '

/-! ## times -/

/-- `strftime` with the default format of `formatTS`, `%Y-%m-%d_%H:%M:%S`,
in the local time zone. -/
structure Calendar where
  text : Int64 → List Char
  chars : ∀ t, ∀ c ∈ text t, c = '-' ∨ c = '_' ∨ c = ':' ∨ c.isDigit = true

/-- The function `formatTS`. -/
def formatTS (cal : Calendar) (ts : Timespec) : List Char :=
  cal.text ts.tvSec ++ ':' :: zeroPad 9 ts.tvNsec.toInt

/-- The loop of `l2aCommas`, from the last digit to the first; a `long long`
has at most 19 of them. -/
def l2aDigits : Nat → Int → Nat → List Char
  | 0, _, _ => []
  | fuel + 1, n, digit_nr =>
      let c := Char.ofNat (n.tmod 10 + 48).toNat
      if n.tdiv 10 = 0 then [c]
      else if digit_nr % 3 = 0 then c :: ',' :: l2aDigits fuel (n.tdiv 10) (digit_nr + 1)
      else c :: l2aDigits fuel (n.tdiv 10) (digit_nr + 1)

/-- The function `l2aCommas`; negating the least number leaves it as it is. -/
def l2aCommas (num : Int64) : List Char :=
  let n := if num < 0 then -num else num
  let ptr := l2aDigits 20 n.toInt 1 ++ if num < 0 then ['-'] else []
  let index := ptr.length
  mirror index ptr 0 (index - 1)

/-- The function `formatDuration`. -/
def formatDuration (t_secs ns : UInt64) (units : Bool) : List Char :=
  let unit_str (s : String) : List Char := if units then lit s else []
  let two (n : UInt64) : List Char := zeroPad 2 (n.toUInt8.toNat : Int)
  let nanos := zeroPad 9 ns.toInt64.toInt
  if t_secs > 86400 then
    let days := (t_secs / 86400).toUInt32
    let t := t_secs % 86400
    intText days.toInt32.toInt ++ '_' :: two (t / 3600) ++ ':' :: two (t % 3600 / 60) ++
      ':' :: two (t % 3600 % 60) ++ ':' :: nanos ++ unit_str " days_hh:mm:ss:ns"
  else if t_secs > 3600 then
    let t := t_secs
    two (t / 3600) ++ ':' :: two (t % 3600 / 60) ++ ':' :: two (t % 3600 % 60) ++
      ':' :: nanos ++ unit_str " hh:mm:ss:ns"
  else if t_secs > 60 then
    two (t_secs / 60) ++ ':' :: two (t_secs % 60) ++ ':' :: nanos ++ unit_str " mm:ss:ns"
  else if t_secs > 0 then
    blankPad 2 (t_secs.toUInt8.toNat : Int) ++ ':' :: nanos ++ unit_str " ss:ns"
  else l2aCommas ns.toInt64 ++ unit_str " ns"

/-- The function `writeTimeStampedCtr`, up to the end of the line. -/
def writeTimeStampedCtr (cal : Calendar) (ts : Timespec) (ctr : UInt64) : List Char :=
  formatTS cal ts ++ lit ", " ++ natText ctr.toNat ++ lit ", [" ++ intText ts.tvSec.toInt ++
    lit ", " ++ intText ts.tvNsec.toInt ++ lit ", " ++ natText ts.tsc.toNat ++ lit "]"

/-! ## what occurs in it -/

section Chars

variable {c : Char}

theorem mem_leftpad {l : List Char} {w : Nat} {p : Char} (h : c ∈ l.leftpad w p) :
    c = p ∨ c ∈ l := by
  obtain h | h := List.mem_append.mp h
  · exact .inl (List.eq_of_mem_replicate h)
  · exact .inr h

theorem mem_zeroPad {w : Nat} {z : Int} (h : c ∈ zeroPad w z) : c = '-' ∨ c.isDigit = true := by
  have hpad {w n : Nat} (h : c ∈ (natText n).leftpad w '0') : c.isDigit = true := by
    obtain rfl | h := mem_leftpad h
    · decide
    · exact isDigit_of_mem_natText h
  cases z with
  | ofNat n => exact .inr (hpad h)
  | negSucc n => exact (List.mem_cons.mp h).imp_right hpad

theorem mem_formatTS {cal : Calendar} {ts : Timespec} (h : c ∈ formatTS cal ts) :
    c = '-' ∨ c = '_' ∨ c = ':' ∨ c.isDigit = true := by
  obtain h | h := List.mem_append.mp h
  · exact cal.chars _ c h
  · obtain h | h := List.mem_cons.mp h
    · exact .inr (.inr (.inl h))
    · exact (mem_zeroPad h).imp_right fun h => .inr (.inr h)

/-- Neither commas nor line ends occur in a time. -/
theorem not_mem_formatTS {cal : Calendar} {ts : Timespec} (hc : c ∉ ['-', '_', ':'])
    (hd : c.isDigit = false) : c ∉ formatTS cal ts := fun h => by
  simp only [List.mem_cons, List.not_mem_nil, or_false, not_or] at hc
  have := mem_formatTS h
  simp [hc, hd] at this

/-- A digit, or what is written for one of the least number. -/
theorem toNat_digit (n : Int) :
    39 ≤ (Char.ofNat (n.tmod 10 + 48).toNat).toNat ∧
      (Char.ofNat (n.tmod 10 + 48).toNat).toNat ≤ 57 := by
  have hall : ∀ k : Fin 19,
      39 ≤ (Char.ofNat (39 + k)).toNat ∧ (Char.ofNat (39 + k)).toNat ≤ 57 := by
    decide
  have h0 : -10 < n.tmod 10 := Int.lt_tmod_of_pos n (by decide)
  have h1 : n.tmod 10 < 10 := Int.tmod_lt_of_pos n (by decide)
  have heq : (n.tmod 10 + 48).toNat = 39 + (n.tmod 10 + 9).toNat := by omega
  rw [heq]
  exact hall ⟨(n.tmod 10 + 9).toNat, by omega⟩

theorem mem_l2aDigits {fuel : Nat} {n : Int} {digit_nr : Nat} (h : c ∈ l2aDigits fuel n digit_nr) :
    39 ≤ c.toNat ∧ c.toNat ≤ 57 := by
  induction fuel generalizing n digit_nr with
  | zero => cases h
  | succ fuel ih =>
      rw [l2aDigits] at h
      split at h
      · rw [List.mem_singleton.mp h]
        exact toNat_digit n
      · split at h
        · obtain rfl | h := List.mem_cons.mp h
          · exact toNat_digit n
          · obtain rfl | h := List.mem_cons.mp h
            · decide
            · exact ih h
        · obtain rfl | h := List.mem_cons.mp h
          · exact toNat_digit n
          · exact ih h

theorem l2aCommas_eq_reverse (num : Int64) :
    l2aCommas num = (l2aDigits 20 (if num < 0 then -num else num).toInt 1 ++
      if num < 0 then ['-'] else []).reverse :=
  mirror_eq_reverse _

/-- Only digits, commas and what comes shortly before the digits. -/
theorem mem_l2aCommas {num : Int64} (h : c ∈ l2aCommas num) : 39 ≤ c.toNat ∧ c.toNat ≤ 57 := by
  rw [l2aCommas_eq_reverse] at h
  obtain h | h := List.mem_append.mp (List.mem_reverse.mp h)
  · exact mem_l2aDigits h
  · split at h
    · rw [List.mem_singleton.mp h]
      decide
    · cases h

theorem newline_not_mem_l2aCommas (num : Int64) : '\n' ∉ l2aCommas num := fun h =>
  absurd (mem_l2aCommas h).1 (by decide)

/-- A duration is printed on one line. -/
theorem newline_not_mem_formatDuration (t_secs ns : UInt64) (units : Bool) :
    '\n' ∉ formatDuration t_secs ns units := by
  have hpad (w : Nat) (z : Int) : '\n' ∉ zeroPad w z := fun h => by
    obtain h | h := mem_zeroPad h <;> simp at h
  have hint (z : Int) : '\n' ∉ intText z := not_mem_intText (by decide) (by decide)
  have hblank (w : Nat) (z : Int) : '\n' ∉ blankPad w z := fun h => by
    obtain h | h := mem_leftpad h
    · simp at h
    · exact hint z h
  have hdays : '\n' ∉ lit " days_hh:mm:ss:ns" := not_mem_lit (by decide)
  have hhours : '\n' ∉ lit " hh:mm:ss:ns" := not_mem_lit (by decide)
  have hminutes : '\n' ∉ lit " mm:ss:ns" := not_mem_lit (by decide)
  have hseconds : '\n' ∉ lit " ss:ns" := not_mem_lit (by decide)
  have hnanos : '\n' ∉ lit " ns" := not_mem_lit (by decide)
  unfold formatDuration
  repeat' split
  all_goals simp [newline_not_mem_l2aCommas, *]

end Chars

/-! ## the columns of a data line -/

/-- The data lines of the counters have five columns. -/
theorem writeTimeStampedCtr_eq (cal : Calendar) (ts : Timespec) (ctr : UInt64) :
    writeTimeStampedCtr cal ts ctr =
      [','].intercalate
        [formatTS cal ts, ' ' :: natText ctr.toNat, ' ' :: '[' :: intText ts.tvSec.toInt,
          ' ' :: intText ts.tvNsec.toInt, ' ' :: natText ts.tsc.toNat ++ [']']] := by
  have hcomma : lit ", " = [',', ' '] := lit_ofList _
  have hopen : lit ", [" = [',', ' ', '['] := lit_ofList _
  have hclose : lit "]" = [']'] := lit_ofList _
  simp [writeTimeStampedCtr, List.intercalate_cons_cons, hcomma, hopen, hclose]

end CloudProfiler
