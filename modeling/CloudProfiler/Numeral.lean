import Mathlib.Data.Int.ModEq
import CloudProfiler.Handler.Literal

/-!
# CloudProfiler.Numeral

Numbers with a size postfix: `convertA2I` and `convertA2Inoexit` (`util.c`).

Neither looks at `errno`, and neither checks the product, so a number that is
too large saturates and a product that is too large wraps.

* `Numeral` — the strings that are numbers, and what they stand for;
* `convertA2I_eq` — the two functions agree;
* `convertsExactly_iff` — for which strings the conversion is exact.
-/

namespace CloudProfiler

/-- `convertA2I`: the value, or what it prints before it exits. -/
def convertA2I (str : List Char) : Except (List Char) UInt64 :=
  let r := strtoull str
  if r.2 = str then .error (lit "Invalid number: " ++ str ++ ['\n'])
  else if r.2 = [] then .ok r.1
  else if r.2 = lit "KB" then .ok (r.1 * 1000)
  else if r.2 = lit "KiB" then .ok (r.1 * 1024)
  else if r.2 = lit "MB" then .ok (r.1 * 1000000)
  else if r.2 = lit "MiB" then .ok (r.1 * 1048576)
  else if r.2 = lit "GB" then .ok (r.1 * 1000000000)
  else if r.2 = lit "GiB" then .ok (r.1 * 1073741824)
  else .error (lit "Invalid number postfix: " ++ str ++ ['\n'])

/-! ## numerals -/

/-- The number with the given sign. -/
def signed (negative : Bool) (n : Nat) : Int := if negative then -n else n

/-- A decimal literal: blanks, a sign and at least one digit. -/
def DecimalLiteral (w : List Char) (z : Int) : Prop :=
  ∃ blanks sign digits : List Char, w = blanks ++ (sign ++ digits) ∧
    (∀ c ∈ blanks, isSpace c = true) ∧ sign ∈ [[], ['+'], ['-']] ∧
    (∀ c ∈ digits, c.isDigit = true) ∧ digits ≠ [] ∧
    z = signed (sign = ['-']) (Nat.ofDigitChars 10 digits 0)

/-- The postfixes and their factors. -/
def postfixes : List (List Char × Nat) :=
  [([], 1), (lit "KB", 10 ^ 3), (lit "KiB", 2 ^ 10), (lit "MB", 10 ^ 6), (lit "MiB", 2 ^ 20),
    (lit "GB", 10 ^ 9), (lit "GiB", 2 ^ 30)]

/-- A literal for `z` with a postfix for `f`. -/
def Numeral (s : List Char) (z : Int) (f : Nat) : Prop :=
  ∃ w suffix : List Char, s = w ++ suffix ∧ DecimalLiteral w z ∧ (suffix, f) ∈ postfixes

/-- A product that is not negative has 64 bits at most. -/
def FitsProduct (z : Int) (f : Nat) : Prop := 0 ≤ z → z * f < 2 ^ 64

/-- **The conversion is exact**: the numerals that fit are valid, and no other
string is; their value is the product, reduced to 64 bits if it is negative. -/
def ConvertsExactly (s : List Char) : Prop :=
  ((convertA2Inoexit s).valid = true ↔ ∃ z f, Numeral s z f ∧ FitsProduct z f) ∧
    (∀ z f, Numeral s z f → FitsProduct z f →
      ((convertA2Inoexit s).result.toNat : Int) = z * f % 2 ^ 64 ∧
        convertA2I s = .ok (convertA2Inoexit s).result) ∧
    ((¬ ∃ z f, Numeral s z f ∧ FitsProduct z f) → ∃ message, convertA2I s = .error message)

/-! ## the parts of a literal -/

/-- What follows a sign. -/
def afterSign (t : List Char) : List Char :=
  if t.head? = some '-' ∨ t.head? = some '+' then t.tail else t

/-- The sign, the digits and the rest, as `strtoull` finds them. -/
def literalParts (str : List Char) : Bool × List Char × List Char :=
  let t := str.dropWhile isSpace
  (t.head? = some '-', (afterSign t).takeWhile Char.isDigit, (afterSign t).dropWhile Char.isDigit)

/-- What `strtoull` makes of a sign and a number. -/
def saturated (negative : Bool) (n : Nat) : UInt64 :=
  if 2 ^ 64 ≤ n then ullongMax else if negative then -UInt64.ofNat n else UInt64.ofNat n

theorem strtoull_eq (str : List Char) :
    strtoull str =
      if (literalParts str).2.1 = [] then (0, str)
      else (saturated (literalParts str).1 (Nat.ofDigitChars 10 (literalParts str).2.1 0),
        (literalParts str).2.2) := by
  have hsaturated : ∀ (b : Bool) (n : Nat) (rest : List Char),
      (if 2 ^ 64 ≤ n then (ullongMax, rest)
        else if b then (-UInt64.ofNat n, rest) else (UInt64.ofNat n, rest)) =
      (saturated b n, rest) := by
    intro b n rest
    rw [saturated]
    split <;> try rfl
    split <;> rfl
  rw [strtoull, literalParts]
  simp only [← hsaturated, decide_eq_true_eq]
  split
  · next heq => simp [afterSign, heq]
  · next heq => simp [afterSign, heq]
  · next hminus hplus =>
    have hno : afterSign (str.dropWhile isSpace) = str.dropWhile isSpace := by
      refine if_neg ?_
      cases ht : str.dropWhile isSpace with
      | nil => simp
      | cons c t =>
          simp only [List.head?_cons, Option.some.injEq, not_or]
          exact ⟨fun h => hminus t (h ▸ ht), fun h => hplus t (h ▸ ht)⟩
    rw [hno]

theorem not_isSpace_of_isDigit {c : Char} (h : c.isDigit = true) : isSpace c = false := by
  simp only [isSpace, Bool.or_eq_false_iff, decide_eq_false_iff_not]
  refine ⟨⟨⟨⟨⟨?_, ?_⟩, ?_⟩, ?_⟩, ?_⟩, ?_⟩ <;> rintro rfl <;> exact absurd h (by decide)

/-- A sign before a digit is taken off, and is no blank. -/
theorem afterSign_append {sign digits : List Char} (hsign : sign ∈ [[], ['+'], ['-']])
    (hdigit : ∃ d, digits.head? = some d ∧ d.isDigit = true) :
    afterSign (sign ++ digits) = digits ∧
      (sign ++ digits).dropWhile isSpace = sign ++ digits ∧
      ((sign ++ digits).head? = some '-' ↔ sign = ['-']) := by
  obtain ⟨d, hd, hisDigit⟩ := hdigit
  rw [List.mem_cons, List.mem_cons, List.mem_singleton] at hsign
  obtain rfl | rfl | rfl := hsign
  · have hminus : d ≠ '-' := by rintro rfl; exact absurd hisDigit (by decide)
    have hplus : d ≠ '+' := by rintro rfl; exact absurd hisDigit (by decide)
    rw [List.nil_append, afterSign, hd]
    refine ⟨if_neg (by simp [hminus, hplus]), ?_, by simp [hminus]⟩
    rw [← List.cons_head?_tail hd, List.dropWhile_cons, not_isSpace_of_isDigit hisDigit,
      if_neg Bool.false_ne_true]
  · exact ⟨rfl, rfl, by simp⟩
  · exact ⟨rfl, rfl, by simp⟩

/-- Blanks, a sign and digits are found again, whatever follows. -/
theorem literalParts_append {blanks sign digits rest : List Char}
    (hblanks : ∀ c ∈ blanks, isSpace c = true) (hsign : sign ∈ [[], ['+'], ['-']])
    (hdigits : ∀ c ∈ digits, c.isDigit = true) (hne : digits ≠ [])
    (hrest : rest.takeWhile Char.isDigit = []) :
    literalParts (blanks ++ (sign ++ (digits ++ rest))) =
      (decide (sign = ['-']), digits, rest) := by
  have htake : (digits ++ rest).takeWhile Char.isDigit = digits := by
    rw [List.takeWhile_append_of_pos hdigits, hrest, List.append_nil]
  have hdrop : (digits ++ rest).dropWhile Char.isDigit = rest := by
    rw [List.dropWhile_append_of_pos hdigits]
    have hboth := List.takeWhile_append_dropWhile (p := Char.isDigit) (l := rest)
    rwa [hrest, List.nil_append] at hboth
  obtain ⟨d, digits', rfl⟩ := List.exists_cons_of_ne_nil hne
  have hdigit : ∃ c, (d :: digits' ++ rest).head? = some c ∧ c.isDigit = true :=
    ⟨d, rfl, hdigits d List.mem_cons_self⟩
  obtain ⟨hafter, hstart, hhead⟩ := afterSign_append hsign hdigit
  rw [literalParts, List.dropWhile_append_of_pos hblanks, hstart, hafter, htake, hdrop]
  simp only [hhead]

/-- What is taken off is a sign. -/
theorem exists_sign (t : List Char) :
    ∃ sign : List Char, sign ∈ [[], ['+'], ['-']] ∧ t = sign ++ afterSign t ∧
      (t.head? = some '-' ↔ sign = ['-']) := by
  cases t with
  | nil => exact ⟨[], by simp, rfl, by simp⟩
  | cons c t =>
      by_cases hminus : c = '-'
      · subst hminus
        exact ⟨['-'], by simp, rfl, by simp⟩
      · by_cases hplus : c = '+'
        · subst hplus
          exact ⟨['+'], by simp, rfl, by simp⟩
        · refine ⟨[], by simp, ?_, by simp [hminus]⟩
          rw [afterSign, if_neg (by simp [hminus, hplus]), List.nil_append]

/-- The parts make up the string. -/
theorem literalParts_spec (str : List Char) :
    ∃ blanks sign : List Char,
      str = blanks ++ (sign ++ ((literalParts str).2.1 ++ (literalParts str).2.2)) ∧
      (∀ c ∈ blanks, isSpace c = true) ∧ sign ∈ [[], ['+'], ['-']] ∧
      (∀ c ∈ (literalParts str).2.1, c.isDigit = true) ∧
      (literalParts str).1 = decide (sign = ['-']) := by
  obtain ⟨sign, hsign, hafter, hhead⟩ := exists_sign (str.dropWhile isSpace)
  refine ⟨str.takeWhile isSpace, sign, ?_, List.all_eq_true.mp List.all_takeWhile, hsign,
    List.all_eq_true.mp List.all_takeWhile, ?_⟩
  · rw [literalParts, List.takeWhile_append_dropWhile, ← hafter, List.takeWhile_append_dropWhile]
  · simp only [literalParts, hhead]

/-! ## the two functions -/

theorem postfixFactor_of_mem {p : List Char × Nat} (h : p ∈ postfixes) :
    p.1 = [] ∧ p.2 = 1 ∨ p.1 ≠ [] ∧ postfixFactor p.1 = some (UInt64.ofNat p.2) := by
  revert p
  decide +kernel

theorem mem_of_postfixFactor {suffix : List Char} {f : UInt64}
    (h : postfixFactor suffix = some f) : (suffix, f.toNat) ∈ postfixes := by
  rw [postfixFactor] at h
  repeat' split at h
  all_goals first | contradiction | skip
  all_goals
    subst_vars
    cases h
    decide +kernel

/-- A postfix does not continue the number. -/
theorem takeWhile_isDigit_of_mem_postfixes {p : List Char × Nat} (h : p ∈ postfixes) :
    p.1.takeWhile Char.isDigit = [] := by
  revert p
  decide +kernel

theorem factor_pos {p : List Char × Nat} (h : p ∈ postfixes) : 1 ≤ p.2 ∧ p.2 < 2 ^ 64 := by
  revert p
  decide +kernel

/-- `convertA2I` looks for the same postfixes. -/
theorem convertA2I_of_postfix {str : List Char} (hstuck : (strtoull str).2 ≠ str)
    (hrest : (strtoull str).2 ≠ []) :
    convertA2I str = (postfixFactor (strtoull str).2).elim
      (.error (lit "Invalid number postfix: " ++ str ++ ['\n']))
      fun factor => .ok ((strtoull str).1 * factor) := by
  rw [convertA2I, postfixFactor, if_neg hstuck, if_neg hrest]
  -- one postfix after the other
  split_ifs <;> rfl

/-- **The two functions agree** on what is valid and on the result. -/
theorem convertA2I_eq (str : List Char) :
    if (convertA2Inoexit str).valid then convertA2I str = .ok (convertA2Inoexit str).result
    else ∃ message, convertA2I str = .error message := by
  by_cases hstuck : (strtoull str).2 = str
  · rw [convertA2Inoexit, if_pos hstuck, if_neg Bool.false_ne_true]
    exact ⟨_, if_pos hstuck⟩
  · by_cases hrest : (strtoull str).2 = []
    · rw [convertA2Inoexit, if_neg hstuck, if_pos hrest, if_pos rfl, convertA2I, if_neg hstuck,
        if_pos hrest]
    · rw [convertA2Inoexit, if_neg hstuck, if_neg hrest, convertA2I_of_postfix hstuck hrest]
      cases postfixFactor (strtoull str).2 with
      | none => exact ⟨_, rfl⟩
      | some factor => rfl

/-! ## what is converted -/

/-- The sign and the digits of a numeral determine what it is converted to. -/
theorem Numeral.parts {s : List Char} {z : Int} {f : Nat} (h : Numeral s z f) :
    (literalParts s).2.1 ≠ [] ∧ ((literalParts s).2.2, f) ∈ postfixes ∧
      z = signed (literalParts s).1 (Nat.ofDigitChars 10 (literalParts s).2.1 0) := by
  obtain ⟨w, suffix, rfl, ⟨blanks, sign, digits, rfl, hblanks, hsign, hdigits, hne, rfl⟩, hmem⟩ := h
  have hparts := literalParts_append hblanks hsign hdigits hne
    (takeWhile_isDigit_of_mem_postfixes hmem)
  rw [List.append_assoc, List.append_assoc, hparts]
  exact ⟨hne, hmem, rfl⟩

theorem numeral_of_parts {s : List Char} {f : Nat} (hne : (literalParts s).2.1 ≠ [])
    (hmem : ((literalParts s).2.2, f) ∈ postfixes) :
    Numeral s (signed (literalParts s).1 (Nat.ofDigitChars 10 (literalParts s).2.1 0)) f := by
  obtain ⟨blanks, sign, hs, hblanks, hsign, hdigits, hneg⟩ := literalParts_spec s
  refine ⟨blanks ++ (sign ++ (literalParts s).2.1), _, ?_,
    ⟨blanks, sign, _, rfl, hblanks, hsign, hdigits, hne, by rw [hneg]⟩, hmem⟩
  rw [List.append_assoc, List.append_assoc, ← hs]

/-- A numeral stands for one number. -/
theorem Numeral.unique {s : List Char} {z z' : Int} {f f' : Nat} (h : Numeral s z f)
    (h' : Numeral s z' f') : z = z' ∧ f = f' := by
  obtain ⟨-, hmem, hz⟩ := h.parts
  obtain ⟨-, hmem', hz'⟩ := h'.parts
  refine ⟨hz.trans hz'.symm, ?_⟩
  have hone : ∀ p ∈ postfixes, ∀ q ∈ postfixes, p.1 = q.1 → p.2 = q.2 := by decide +kernel
  exact hone _ hmem _ hmem' rfl

/-- `endptr` is not moved if and only if there are no digits. -/
theorem strtoull_stuck_iff {str : List Char} :
    (strtoull str).2 = str ↔ (literalParts str).2.1 = [] := by
  rw [strtoull_eq]
  split
  · next h => exact iff_of_true rfl h
  · next h =>
    refine iff_of_false (fun heq => h ?_) h
    obtain ⟨blanks, sign, hs, -⟩ := literalParts_spec str
    have hlen := congrArg List.length hs
    have hrest := congrArg List.length heq
    simp only [List.length_append] at hlen hrest
    exact List.eq_nil_of_length_eq_zero (by omega)

/-- What a string with digits and a postfix is converted to. -/
theorem convertA2Inoexit_eq {s : List Char} {f : Nat} (hne : (literalParts s).2.1 ≠ [])
    (hmem : ((literalParts s).2.2, f) ∈ postfixes) :
    convertA2Inoexit s =
      ⟨saturated (literalParts s).1 (Nat.ofDigitChars 10 (literalParts s).2.1 0) *
        UInt64.ofNat f, true, none⟩ := by
  have hstuck : ¬ (strtoull s).2 = s := mt strtoull_stuck_iff.mp hne
  rw [convertA2Inoexit, if_neg hstuck, strtoull_eq, if_neg hne]
  obtain ⟨hnil, rfl⟩ | ⟨hsome, hfactor⟩ := postfixFactor_of_mem hmem
  · rw [if_pos hnil, UInt64.ofNat_one, UInt64.mul_one]
  · rw [if_neg hsome, hfactor]

/-- A string is valid if and only if it is a numeral, whatever its value. -/
theorem convertA2Inoexit_valid_iff {s : List Char} :
    (convertA2Inoexit s).valid = true ↔ ∃ z f, Numeral s z f := by
  constructor
  · intro hvalid
    have hne : (literalParts s).2.1 ≠ [] := by
      intro hnil
      rw [convertA2Inoexit, if_pos (strtoull_stuck_iff.mpr hnil)] at hvalid
      exact absurd hvalid Bool.false_ne_true
    have hfactor : ∃ f, ((literalParts s).2.2, f) ∈ postfixes := by
      have hstuck : ¬ (strtoull s).2 = s := mt strtoull_stuck_iff.mp hne
      rw [convertA2Inoexit, if_neg hstuck, strtoull_eq, if_neg hne] at hvalid
      by_cases hnil : (literalParts s).2.2 = []
      · exact ⟨1, hnil ▸ List.mem_cons_self⟩
      · rw [if_neg hnil] at hvalid
        cases hf : postfixFactor (literalParts s).2.2 with
        | none => rw [hf] at hvalid; exact absurd hvalid Bool.false_ne_true
        | some f => exact ⟨f.toNat, mem_of_postfixFactor hf⟩
    obtain ⟨f, hmem⟩ := hfactor
    exact ⟨_, f, numeral_of_parts hne hmem⟩
  · rintro ⟨z, f, h⟩
    obtain ⟨hne, hmem, -⟩ := h.parts
    rw [convertA2Inoexit_eq hne hmem]

/-- What is converted is the number, up to a multiple of `2 ^ 64`, if it has not
been saturated. -/
theorem saturated_modEq (negative : Bool) {n : Nat} (h : n < 2 ^ 64) :
    ((saturated negative n).toNat : Int) ≡ signed negative n [ZMOD 2 ^ 64] := by
  rw [saturated, if_neg (Nat.not_le.mpr h)]
  cases negative with
  | false => rw [if_neg Bool.false_ne_true, UInt64.toNat_ofNat_of_lt' h]; rfl
  | true =>
      rw [if_pos rfl, UInt64.toNat_neg, UInt64.toNat_ofNat_of_lt' h]
      rw [show UInt64.size = 2 ^ 64 from rfl]
      simp only [Int.ModEq, signed, if_true]
      omega

/-- A saturated number counts as `-1`. -/
theorem saturated_modEq_of_le (negative : Bool) {n : Nat} (h : 2 ^ 64 ≤ n) :
    ((saturated negative n).toNat : Int) ≡ -1 [ZMOD 2 ^ 64] := by
  rw [saturated, if_pos h]
  decide

theorem toNat_mul_factor {x : UInt64} {f : Nat} (hf : f < 2 ^ 64) {z : Int}
    (h : (x.toNat : Int) ≡ z [ZMOD 2 ^ 64]) :
    ((x * UInt64.ofNat f).toNat : Int) = z * f % 2 ^ 64 := by
  rw [UInt64.toNat_mul, UInt64.toNat_ofNat_of_lt' hf]
  push_cast
  exact h.mul_right f

/-- When the value of a numeral is right. -/
def Converts (z : Int) (f : Nat) : Prop :=
  (0 ≤ z → z * f < 2 ^ 64) ∧ (z < 0 → -2 ^ 64 < z ∨ 2 ^ 64 ∣ (z + 1) * f)

/-- The result for a number that fits. -/
theorem Numeral.result_eq_iff {s : List Char} {z : Int} {f : Nat} (h : Numeral s z f)
    (hfits : FitsProduct z f) :
    ((convertA2Inoexit s).result.toNat : Int) = z * f % 2 ^ 64 ↔ Converts z f := by
  obtain ⟨hne, hmem, hz⟩ := h.parts
  obtain ⟨hone, hf⟩ := factor_pos hmem
  rw [convertA2Inoexit_eq hne hmem]
  generalize (literalParts s).1 = b at hz ⊢
  generalize Nat.ofDigitChars 10 (literalParts s).2.1 0 = n at hz ⊢
  dsimp only at hone hf ⊢
  by_cases hn : n < 2 ^ 64
  · refine iff_of_true ?_ ⟨hfits, fun _ => .inl ?_⟩
    · rw [hz]
      exact toNat_mul_factor hf (saturated_modEq b hn)
    · rw [hz, signed]
      split <;> omega
  · rw [toNat_mul_factor hf (saturated_modEq_of_le b (Nat.not_lt.mp hn))]
    cases b with
    | false =>
        have hge : (2 : Int) ^ 64 ≤ z := by
          rw [hz, signed, if_neg Bool.false_ne_true]
          exact_mod_cast Nat.not_lt.mp hn
        have hpos : 0 ≤ z := le_trans (by decide) hge
        have hlt := hfits hpos
        have hmul : z * 1 ≤ z * f := Int.mul_le_mul_of_nonneg_left (by exact_mod_cast hone) hpos
        omega
    | true =>
        have hneg : z ≤ -2 ^ 64 := by
          rw [hz, signed, if_pos rfl]
          have := Nat.not_lt.mp hn
          omega
        have hdvd : (z + 1) * f = z * f - -1 * f := by rw [add_mul, neg_mul, sub_neg_eq_add]
        rw [Converts, hdvd, ← Int.modEq_iff_dvd]
        refine ⟨fun h => ⟨fun h0 => ?_, fun _ => .inr h⟩, fun h => ?_⟩
        · omega
        · exact (h.2 (by omega)).resolve_left (by omega)

/-- What a stream writes is a numeral. -/
theorem numeral_intText (z : Int) : Numeral (intText z) z 1 := by
  refine ⟨intText z, [], (List.append_nil _).symm, ?_, List.mem_cons_self⟩
  cases z with
  | ofNat n =>
      refine ⟨[], [], natText n, rfl, by simp, by simp, fun c => isDigit_of_mem_natText,
        natText_ne_nil, ?_⟩
      rw [natText, Nat.ofDigitChars_ten_toDigits]
      rfl
  | negSucc n =>
      refine ⟨[], ['-'], natText (n + 1), rfl, by simp, by simp, fun c => isDigit_of_mem_natText,
        natText_ne_nil, ?_⟩
      rw [natText, Nat.ofDigitChars_ten_toDigits]
      rfl

/-- **The conversion is exact if and only if** the number is not saturated and
the product of a number that is not negative does not wrap. -/
theorem convertsExactly_iff (s : List Char) :
    ConvertsExactly s ↔ ∀ z f, Numeral s z f → Converts z f := by
  constructor
  · rintro ⟨hvalid, hresult, -⟩ z f h
    obtain ⟨z', f', h', hfits⟩ := hvalid.mp (convertA2Inoexit_valid_iff.mpr ⟨z, f, h⟩)
    obtain ⟨rfl, rfl⟩ := h.unique h'
    exact (h.result_eq_iff hfits).mp (hresult z f h hfits).1
  · intro hconverts
    have hagree := convertA2I_eq s
    refine ⟨convertA2Inoexit_valid_iff.trans ⟨?_, ?_⟩, ?_, ?_⟩
    · rintro ⟨z, f, h⟩
      exact ⟨z, f, h, (hconverts z f h).1⟩
    · rintro ⟨z, f, h, -⟩
      exact ⟨z, f, h⟩
    · intro z f h hfits
      rw [if_pos (convertA2Inoexit_valid_iff.mpr ⟨z, f, h⟩)] at hagree
      exact ⟨(h.result_eq_iff hfits).mpr (hconverts z f h), hagree⟩
    · intro hno
      rwa [if_neg (mt convertA2Inoexit_valid_iff.mp ?_)] at hagree
      rintro ⟨z, f, h⟩
      exact hno ⟨z, f, h, (hconverts z f h).1⟩

/-- `ULLONG_MAX` thousands wrap, and are reported valid. -/
theorem convertsExactly_wraps : ¬ ConvertsExactly (lit "18446744073709551615KB") := by
  rintro ⟨hvalid, -⟩
  obtain ⟨z, f, h, hfits⟩ := hvalid.mp (by decide +kernel)
  have hnumeral : Numeral (lit "18446744073709551615KB") 18446744073709551615 1000 := by
    refine ⟨lit "18446744073709551615", lit "KB", by decide +kernel,
      ⟨[], [], lit "18446744073709551615", rfl, by simp, by simp,
        List.all_eq_true.mp (by decide +kernel), by decide +kernel, by decide +kernel⟩,
      by decide +kernel⟩
  obtain ⟨rfl, rfl⟩ := h.unique hnumeral
  exact absurd (hfits (by decide)) (by decide)

end CloudProfiler
