import Mathlib.Data.Char
import Mathlib.Data.UInt

/-!
# CloudProfiler.Text

Text files as the Python scripts read them (library layer, nothing here
mentions the profiler): lines, fields and numerals over lists of characters.
`List.splitOn` is `str.split` with a one-character separator.

* `natText`, `intText` — decimal numerals, and `parseInt`, which is `int`;
* `strip` — `str.strip` without an argument;
* `readLines` — what `readline` returns, call after call;
* `readLines_unlines`, `parseInt_intText` — reading undoes writing.
-/

namespace CloudProfiler

/-! ## blanks -/

/-- `str.isspace` on a character of the ASCII range. -/
def isBlank (c : Char) : Bool :=
  c = ' ' || (9 ≤ c.toNat && c.toNat ≤ 13) || (28 ≤ c.toNat && c.toNat ≤ 31)

/-- `str.lstrip`. -/
def stripLeft (p : Char → Bool) (l : List Char) : List Char := l.dropWhile p

/-- `str.strip`. -/
def strip (p : Char → Bool) (l : List Char) : List Char :=
  ((l.dropWhile p).reverse.dropWhile p).reverse

section Strip

variable {p : Char → Bool} {l m : List Char}

theorem dropWhile_eq_self_of_all_false (h : ∀ c ∈ l, p c = false) : l.dropWhile p = l := by
  cases l with
  | nil => rfl
  | cons c l => simp [List.dropWhile, h c (by simp)]

theorem strip_eq_self (h : ∀ c ∈ l, p c = false) : strip p l = l := by
  rw [strip, dropWhile_eq_self_of_all_false h,
    dropWhile_eq_self_of_all_false fun c hc => h c (List.mem_reverse.mp hc), List.reverse_reverse]

theorem dropWhile_append_of_all_true (h : ∀ c ∈ m, p c = true) :
    (m ++ l).dropWhile p = l.dropWhile p := by
  induction m with
  | nil => rfl
  | cons c m ih =>
      rw [List.cons_append, List.dropWhile_cons_of_pos (h c (by simp))]
      exact ih fun c hc => h c (by simp [hc])

/-- Blanks in front are stripped. -/
theorem strip_append_left (hm : ∀ c ∈ m, p c = true) (hl : ∀ c ∈ l, p c = false) :
    strip p (m ++ l) = l := by
  rw [strip, dropWhile_append_of_all_true hm]
  exact strip_eq_self hl

/-- Blanks on both sides are stripped. -/
theorem strip_append_append {t : List Char} (hm : ∀ c ∈ m, p c = true) (hl : ∀ c ∈ l, p c = false)
    (ht : ∀ c ∈ t, p c = true) : strip p (m ++ (l ++ t)) = l := by
  rw [strip, dropWhile_append_of_all_true hm]
  cases l with
  | nil =>
      have hnil := dropWhile_append_of_all_true (l := []) ht
      rw [List.append_nil] at hnil
      rw [List.nil_append, hnil]
      rfl
  | cons c l =>
      have hstart : (c :: l ++ t).dropWhile p = c :: l ++ t := by
        rw [List.cons_append, List.dropWhile_cons_of_neg (by simp [hl c List.mem_cons_self])]
      rw [hstart, List.reverse_append,
        dropWhile_append_of_all_true fun c hc => ht c (List.mem_reverse.mp hc),
        dropWhile_eq_self_of_all_false fun c hc => hl c (List.mem_reverse.mp hc),
        List.reverse_reverse]

end Strip

/-! ## numerals -/

/-- A natural number as a stream inserter or `snprintf` prints it. -/
def natText (n : Nat) : List Char := Nat.toDigits 10 n

/-- An integer as a stream inserter prints it. -/
def intText : Int → List Char
  | .ofNat n => natText n
  | .negSucc n => '-' :: natText (n + 1)

/-- Groups of digits, joined by single underscores. -/
def parseNat (l : List Char) : Option Nat :=
  if ∀ g ∈ l.splitOn '_', g ≠ [] ∧ g.all Char.isDigit = true then
    some (Nat.ofDigitChars 10 (l.splitOn '_').flatten 0)
  else none

/-- `int` on a string of ASCII characters; `none` is a `ValueError`. -/
def parseInt (l : List Char) : Option Int :=
  match strip isBlank l with
  | '-' :: ds => (parseNat ds).map fun n => -(n : Int)
  | '+' :: ds => (parseNat ds).map fun n => (n : Int)
  | ds => (parseNat ds).map fun n => (n : Int)

section Numerals

variable {c : Char} {n : Nat} {z : Int}

theorem isDigit_of_mem_natText (h : c ∈ natText n) : c.isDigit = true :=
  Nat.isDigit_of_mem_toDigits (by decide) (by decide) h

theorem natText_ne_nil : natText n ≠ [] := Nat.toDigits_ne_nil

theorem mem_intText (h : c ∈ intText z) : c = '-' ∨ c.isDigit = true := by
  cases z with
  | ofNat n => exact .inr (isDigit_of_mem_natText h)
  | negSucc n =>
      obtain h | h := List.mem_cons.mp h
      · exact .inl h
      · exact .inr (isDigit_of_mem_natText h)

/-- A character that is neither a digit nor a minus sign occurs in no
numeral. -/
theorem not_mem_intText (hc : c ≠ '-') (hd : c.isDigit = false) : c ∉ intText z := fun h => by
  obtain h | h := mem_intText h
  · exact hc h
  · simp [hd] at h

theorem isBlank_of_isDigit (h : c.isDigit = true) : isBlank c = false := by
  simp only [Char.isDigit, Bool.and_eq_true, decide_eq_true_eq] at h
  have h1 : 48 ≤ c.toNat := UInt32.le_iff_toNat_le.mp h.1
  have hne : c ≠ ' ' := by
    rintro rfl
    exact absurd h1 (by decide)
  have h2 : ¬ c.toNat ≤ 13 := by omega
  have h3 : ¬ c.toNat ≤ 31 := by omega
  simp [isBlank, hne, h2, h3]

theorem isBlank_of_mem_intText (h : c ∈ intText z) : isBlank c = false := by
  obtain rfl | h := mem_intText h
  · decide
  · exact isBlank_of_isDigit h

theorem parseNat_natText : parseNat (natText n) = some n := by
  have hsplit : (natText n).splitOn '_' = [natText n] :=
    List.splitOn_eq_singleton fun h => absurd (isDigit_of_mem_natText h) (by decide)
  rw [parseNat, hsplit, if_pos]
  · simp [natText, Nat.ofDigitChars_ten_toDigits]
  · simp only [List.mem_singleton, forall_eq]
    exact ⟨natText_ne_nil, List.all_eq_true.mpr fun c hc => isDigit_of_mem_natText hc⟩

theorem parseInt_of_strip {l : List Char} (h : strip isBlank l = intText z) :
    parseInt l = some z := by
  rw [parseInt, h]
  cases z with
  | negSucc n =>
      simp only [intText, parseNat_natText, Int.negSucc_eq]
      rfl
  | ofNat n =>
      rw [intText]
      split
      · next ds hds =>
        have := isDigit_of_mem_natText (n := n) (c := '-') (by simp [hds])
        simp at this
      · next ds hds =>
        have := isDigit_of_mem_natText (n := n) (c := '+') (by simp [hds])
        simp at this
      · simp [parseNat_natText]

/-- **`int` reads a numeral**, with blanks around it. -/
theorem parseInt_intText (z : Int) : parseInt (intText z) = some z :=
  parseInt_of_strip (strip_eq_self fun _ hc => isBlank_of_mem_intText hc)

theorem parseInt_blank_intText (z : Int) : parseInt (' ' :: intText z) = some z :=
  parseInt_of_strip (strip_append_left (m := [' ']) (by simp [isBlank])
    fun _ hc => isBlank_of_mem_intText hc)

theorem intText_injective {y z : Int} (h : intText y = intText z) : y = z := by
  have := congrArg parseInt h
  rwa [parseInt_intText, parseInt_intText, Option.some.injEq] at this

end Numerals

/-! ## literals -/

/-- The characters of a literal.  It is not unfolded in passing: decoding a
string is a long computation. -/
@[irreducible] def lit (s : String) : List Char := s.toList

section Literals

variable {c : Char} {l m : List Char}

/-- A literal string is `String.ofList` of its characters. -/
theorem lit_ofList (l : List Char) : lit (String.ofList l) = l := by
  rw [lit, String.toList_ofList]

theorem not_mem_lit (h : l.elem c = false) : c ∉ lit (String.ofList l) := by
  rw [lit_ofList]
  simpa using h

theorem head?_lit_append (h : l.head? = some c) : (lit (String.ofList l) ++ m).head? = some c := by
  rw [lit_ofList, List.head?_append, h]
  rfl

end Literals

/-! ## lines and fields -/

/-- The lines of a file, each with the newline it ends in, if any.  Text mode
ends lines at a carriage return as well, which is not modelled: none of the
logs has one. -/
def readLines : List Char → List (List Char)
  | [] => []
  | c :: cs =>
      if c = '\n' then [c] :: readLines cs
      else
        match readLines cs with
        | [] => [[c]]
        | l :: ls => (c :: l) :: ls

/-- Lines written one after the other. -/
def unlines (ls : List (List Char)) : List Char := ls.flatMap (· ++ ['\n'])

section Lines

variable {l rest : List Char} {ls : List (List Char)}

theorem readLines_append_newline (h : '\n' ∉ l) :
    readLines (l ++ '\n' :: rest) = (l ++ ['\n']) :: readLines rest := by
  induction l with
  | nil => simp [readLines]
  | cons c l ih =>
      obtain ⟨hc, hl⟩ : '\n' ≠ c ∧ '\n' ∉ l := by simpa using h
      rw [List.cons_append, readLines, if_neg (Ne.symm hc), ih hl]
      rfl

/-- **What was written line by line is read line by line.** -/
theorem readLines_unlines (h : ∀ l ∈ ls, '\n' ∉ l) :
    readLines (unlines ls) = ls.map (· ++ ['\n']) := by
  induction ls with
  | nil => rfl
  | cons l ls ih =>
      have hl := h l (by simp)
      rw [unlines, List.flatMap_cons, List.append_assoc, List.singleton_append,
        readLines_append_newline hl, ← unlines, ih fun l hl => h l (by simp [hl]), List.map_cons]

/-- What occurs in joined fields. -/
theorem mem_intercalate {c sep : Char} {ls : List (List Char)} (h : c ∈ [sep].intercalate ls) :
    c = sep ∨ ∃ l ∈ ls, c ∈ l := by
  induction ls with
  | nil => simp at h
  | cons l ls ih =>
      cases ls with
      | nil => exact .inr ⟨l, by simp, by simpa using h⟩
      | cons l' ls =>
          rw [List.intercalate_cons_cons, List.append_assoc, List.mem_append, List.mem_append,
            List.mem_singleton] at h
          obtain h | h | h := h
          · exact .inr ⟨l, by simp, h⟩
          · exact .inl h
          · obtain h | ⟨l'', hl, h⟩ := ih h
            · exact .inl h
            · exact .inr ⟨l'', by simp [hl], h⟩

/-- The first of the joined fields, whatever follows the last one. -/
theorem splitOn_intercalate_cons {sep : Char} {f g : List Char} {fs : List (List Char)}
    (t : List Char) (h : sep ∉ f) :
    ([sep].intercalate (f :: g :: fs) ++ t).splitOn sep =
      f :: ([sep].intercalate (g :: fs) ++ t).splitOn sep := by
  rw [List.intercalate_cons_cons, List.append_assoc, List.append_assoc, List.singleton_append,
    List.splitOn_append_cons_self_of_not_mem h]

end Lines

/-! ## addresses -/

/-- An IPv4 address in a `char[16]`: a dotted quad, or nothing when the array
was zeroed. -/
structure Ipv4 where
  chars : List Char
  dotted : ∀ c ∈ chars, c = '.' ∨ c.isDigit = true
  fits : chars.length ≤ 15
deriving DecidableEq

/-- An address of a private network. -/
def Ipv4.local : Ipv4 := ⟨"10.0.0.1".toList, by simp, by simp⟩

theorem Ipv4.colon_not_mem (ip : Ipv4) : ':' ∉ ip.chars := fun h => by
  obtain h | h := ip.dotted _ h
  · exact absurd h (by decide)
  · exact absurd h (by decide)

/-! ## searching -/

/-- `std::string::find`: where `pat` first occurs. -/
def find (pat : List Char) : List Char → Option Nat
  | [] => if pat = [] then some 0 else none
  | c :: l => if pat.isPrefixOf (c :: l) then some 0 else (find pat l).map (· + 1)

section Find

variable {pat l m : List Char} {c : Char}

theorem find_eq_none : find pat l = none ↔ ¬ pat <:+: l := by
  induction l with
  | nil =>
      rw [find, List.infix_nil]
      split <;> simp [*]
  | cons c l ih =>
      rw [find, List.infix_cons_iff, not_or]
      split
      · next h => simp [List.isPrefixOf_iff_prefix.mp h]
      · next h =>
        rw [Option.map_eq_none_iff, ih]
        simp [← List.isPrefixOf_iff_prefix, h]

theorem find_eq_zero (h : pat <+: l) : find pat l = some 0 := by
  cases l with
  | nil => rw [find, if_pos (List.prefix_nil.mp h)]
  | cons c l => rw [find, if_pos (List.isPrefixOf_iff_prefix.mpr h)]

theorem find_cons (h : ¬ pat <+: c :: l) : find pat (c :: l) = (find pat l).map (· + 1) := by
  rw [find, if_neg (fun h' => h (List.isPrefixOf_iff_prefix.mp h'))]

end Find

end CloudProfiler
