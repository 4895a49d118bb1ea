import CloudProfiler.Format
import CloudProfiler.Grouping

/-!
# CloudProfiler.Commas

The function `l2aCommas` writes a number in groups of three digits.

* `l2aDigits_eq` — the loop, from the last digit to the first;
* `GroupsFaithfully` — what the text should be;
* `l2aCommas_eq` — what it is, for all numbers but one;
* `l2aCommas_faithful_iff` — the least number has no negative, and is written
  in characters that are not digits.
-/

namespace CloudProfiler

open Grouping

section Digits

variable {n : Nat}

theorem digit_eq (h : n < 10) : Char.ofNat (((n : Int) + 48).toNat) = Nat.digitChar n := by
  have hall : ∀ k : Fin 10, Char.ofNat (((k : Nat) : Int) + 48).toNat = Nat.digitChar k := by decide
  exact hall ⟨n, h⟩

/-- The last digit, and the digits in front of it. -/
theorem natText_reverse (h : 10 ≤ n) :
    (natText n).reverse = Nat.digitChar (n % 10) :: (natText (n / 10)).reverse := by
  rw [natText, Nat.toDigits_of_base_le (by decide) h, List.reverse_append]
  rfl

/-- The digits, from the last to the first, with a comma after every third but
the last. -/
theorem l2aDigits_eq {fuel : Nat} (hfuel : (natText n).length ≤ fuel) (digit_nr : Nat) :
    l2aDigits fuel n digit_nr = separate ',' 3 digit_nr (natText n).reverse := by
  induction fuel generalizing n digit_nr with
  | zero => exact absurd (List.length_eq_zero_iff.mp (Nat.le_zero.mp hfuel)) natText_ne_nil
  | succ fuel ih =>
      have hmod : (n : Int).tmod 10 = ((n % 10 : Nat) : Int) := rfl
      have hdiv : (n : Int).tdiv 10 = ((n / 10 : Nat) : Int) := rfl
      rw [l2aDigits, hmod, hdiv, digit_eq (Nat.mod_lt n (by decide))]
      by_cases hlt : n < 10
      · have htext : natText n = [Nat.digitChar n] := Nat.toDigits_of_lt_base hlt
        have hzero : ((n / 10 : Nat) : Int) = 0 := by omega
        rw [if_pos hzero, htext, Nat.mod_eq_of_lt hlt, List.reverse_singleton, separate]
      · have hle := Nat.not_lt.mp hlt
        have hne : ((n / 10 : Nat) : Int) ≠ 0 := by omega
        have hrest : (natText (n / 10)).length ≤ fuel := by
          have hlen := congrArg List.length (natText_reverse hle)
          rw [List.length_reverse, List.length_cons, List.length_reverse] at hlen
          omega
        have hnil : (natText (n / 10)).reverse ≠ [] := by simpa using natText_ne_nil
        rw [if_neg hne, natText_reverse hle, separate_cons hnil, ih hrest]

end Digits

/-! ## the text -/

/-- Groups of three digits that stand for the number, in a buffer of 27
characters. -/
structure GroupsFaithfully (num : Int64) (text : List Char) : Prop where
  grouped : ∃ sign first groups, text = sign ++ [','].intercalate (first :: groups) ∧
    (sign = [] ∨ sign = ['-']) ∧ (1 ≤ first.length ∧ first.length ≤ 3) ∧
    (∀ g ∈ groups, g.length = 3) ∧ (∀ g ∈ first :: groups, ∀ c ∈ g, c.isDigit = true) ∧
    (first.head? = some '0' → first = ['0'] ∧ groups = [])
  value : parseInt (text.filter (· ≠ ',')) = some num.toInt
  fits : text.length + 1 ≤ 27

section Text

variable {num : Int64}

/-- The number without its sign. -/
theorem toInt_neg_of_ne (h : num ≠ Int64.minValue) :
    (if num < 0 then -num else num).toInt = (num.toInt.natAbs : Int) := by
  have hmin : num.toInt ≠ Int64.minValue.toInt := fun he => h (Int64.toInt_inj.mp he)
  have hle := num.le_toInt
  have hlt := num.toInt_lt
  rw [show Int64.minValue.toInt = -2 ^ 63 by decide] at hmin
  split
  · next hneg =>
    rw [Int64.lt_iff_toInt_lt] at hneg
    have hneg0 : num.toInt < 0 := hneg
    rw [Int64.toInt_neg, Int.bmod_eq_of_le (by omega) (by omega)]
    omega
  · next hpos =>
    rw [Int64.lt_iff_toInt_lt] at hpos
    have hpos0 : ¬ num.toInt < 0 := hpos
    omega

/-- A 64-bit number has at most 19 digits. -/
theorem length_natText_natAbs (num : Int64) : (natText num.toInt.natAbs).length ≤ 19 := by
  have hle := num.le_toInt
  have hlt := num.toInt_lt
  exact (Nat.length_toDigits_le_iff (by decide) (by decide)).mpr (by omega)

/-- The numeral, taken apart. -/
theorem intText_eq (z : Int) :
    intText z = (if z < 0 then ['-'] else []) ++ natText z.natAbs := by
  cases z with
  | ofNat n => rw [if_neg (by simp)]; rfl
  | negSucc n => rw [if_pos (Int.negSucc_lt_zero n)]; rfl

/-- **What is written** for every number but the least: the digits in
groups. -/
theorem l2aCommas_eq (h : num ≠ Int64.minValue) :
    ∃ first groups, l2aCommas num =
        (if num < 0 then ['-'] else []) ++ [','].intercalate (first :: groups) ∧
      Groups 3 first groups (natText num.toInt.natAbs) := by
  have hnil : (natText num.toInt.natAbs).reverse ≠ [] := by simpa using natText_ne_nil
  obtain ⟨first, groups, heq, hgroups⟩ := separate_reverse ',' (by decide : 0 < 3) hnil
  rw [List.reverse_reverse] at hgroups
  refine ⟨first, groups, ?_, hgroups⟩
  have hlen := length_natText_natAbs num
  rw [l2aCommas_eq_reverse, toInt_neg_of_ne h, l2aDigits_eq (by omega), List.reverse_append, heq]
  split <;> rfl

/-- Joined groups without the commas. -/
theorem filter_intercalate {gs : List (List Char)} (h : ∀ g ∈ gs, ',' ∉ g) :
    ([','].intercalate gs).filter (· ≠ ',') = gs.flatten := by
  induction gs with
  | nil => rfl
  | cons g gs ih =>
      have hg : g.filter (· ≠ ',') = g := List.filter_eq_self.mpr fun c hc => by
        have hne : c ≠ ',' := fun he => h g List.mem_cons_self (he ▸ hc)
        simpa using hne
      cases gs with
      | nil => simpa using hg
      | cons g' gs =>
          rw [List.intercalate_cons_cons, List.filter_append, List.filter_append, hg,
            ih fun g hg => h g (List.mem_cons_of_mem _ hg), List.flatten_cons]
          simp

/-- The groups and the commas between them. -/
theorem length_intercalate (first : List Char) {groups : List (List Char)}
    (h : ∀ g ∈ groups, g.length = 3) :
    ([','].intercalate (first :: groups)).length = first.length + 4 * groups.length ∧
      (first ++ groups.flatten).length = first.length + 3 * groups.length := by
  induction groups generalizing first with
  | nil => simp
  | cons g groups ih =>
      obtain ⟨hjoin, hflat⟩ := ih g fun g hg => h g (List.mem_cons_of_mem _ hg)
      have hg := h g List.mem_cons_self
      rw [List.length_append, hg] at hflat
      rw [List.intercalate_cons_cons]
      simp only [List.length_append, List.length_cons, List.length_nil, List.flatten_cons, hjoin,
        hg]
      omega

/-- A numeral does not begin with a zero. -/
theorem natText_eq_of_head? {n : Nat} (h : (natText n).head? = some '0') : natText n = ['0'] := by
  induction n using Nat.strongRecOn with
  | _ n ih =>
      by_cases hlt : n < 10
      · have htext : natText n = [Nat.digitChar n] := Nat.toDigits_of_lt_base hlt
        rw [htext] at h ⊢
        rw [Option.some.inj h]
      · have htext : natText n = natText (n / 10) ++ [Nat.digitChar (n % 10)] :=
          Nat.toDigits_of_base_le (by decide) (Nat.not_lt.mp hlt)
        rw [htext, List.head?_append_of_ne_nil _ natText_ne_nil] at h
        -- the digits in front are those of zero
        have hzero := ih (n / 10) (by omega) h
        have hval := congrArg (fun l => Nat.ofDigitChars 10 l 0) hzero
        rw [natText, Nat.ofDigitChars_ten_toDigits] at hval
        have : n / 10 = 0 := hval
        omega

theorem groupsFaithfully_l2aCommas (h : num ≠ Int64.minValue) :
    GroupsFaithfully num (l2aCommas num) := by
  obtain ⟨first, groups, heq, hgroups⟩ := l2aCommas_eq h
  have hdigit : ∀ g ∈ first :: groups, ∀ c ∈ g, c.isDigit = true := by
    intro g hg c hc
    refine isDigit_of_mem_natText (n := num.toInt.natAbs) ?_
    rw [← hgroups.flatten]
    exact List.mem_flatten.mpr ⟨g, hg, hc⟩
  obtain ⟨hjoin, hflat⟩ := length_intercalate first hgroups.length_eq
  have hlen := length_natText_natAbs num
  rw [← hgroups.flatten, hflat] at hlen
  have hpos := List.length_pos_of_ne_nil hgroups.nonempty
  refine ⟨⟨_, first, groups, heq, ?_, ⟨hpos, hgroups.length_le⟩, hgroups.length_eq, hdigit,
    fun hzero => ?_⟩, ?_, ?_⟩
  · split
    · exact .inr rfl
    · exact .inl rfl
  · have hhead : (natText num.toInt.natAbs).head? = some '0' := by
      rw [← hgroups.flatten, List.head?_append_of_ne_nil _ hgroups.nonempty, hzero]
    have hnum := natText_eq_of_head? hhead
    have hone := congrArg List.length (hgroups.flatten.trans hnum)
    rw [hflat, List.length_singleton] at hone
    have hnil : groups = [] := List.length_eq_zero_iff.mp (by omega)
    rw [← hgroups.flatten, hnil, List.flatten_nil, List.append_nil] at hnum
    exact ⟨hnum, hnil⟩
  · have hcomma : ∀ g ∈ first :: groups, ',' ∉ g := fun g hg hc => by
      have := hdigit g hg ',' hc
      simp at this
    have hsign : ((if num < 0 then ['-'] else []).filter (· ≠ ',') : List Char) =
        if num.toInt < 0 then ['-'] else [] := by
      have hneg : num < 0 ↔ num.toInt < 0 := Int64.lt_iff_toInt_lt
      simp only [hneg]
      split <;> rfl
    rw [heq, List.filter_append, hsign, filter_intercalate hcomma, List.flatten_cons,
      hgroups.flatten, ← intText_eq, parseInt_intText]
  · rw [heq, List.length_append, hjoin]
    split <;> simp <;> omega

/-- The characters of faithful groups. -/
theorem GroupsFaithfully.mem {text : List Char} (h : GroupsFaithfully num text) {c : Char}
    (hc : c ∈ text) : c = '-' ∨ c = ',' ∨ c.isDigit = true := by
  obtain ⟨sign, first, groups, rfl, hsign, -, -, hdigit, -⟩ := h.grouped
  obtain hc | hc := List.mem_append.mp hc
  · obtain rfl | rfl := hsign
    · cases hc
    · exact .inl (List.mem_singleton.mp hc)
  · obtain hc | ⟨g, hg, hc⟩ := mem_intercalate hc
    · exact .inr (.inl hc)
    · exact .inr (.inr (hdigit g hg c hc))

theorem not_groupsFaithfully_of_mem {text : List Char} (h : '(' ∈ text) :
    ¬ GroupsFaithfully num text := fun hf => by
  have := hf.mem h
  simp at this

/-- **Groups of three digits**, for every number but one. -/
theorem l2aCommas_faithful_iff (num : Int64) :
    GroupsFaithfully num (l2aCommas num) ↔ num ≠ Int64.minValue := by
  constructor
  · rintro h rfl
    exact not_groupsFaithfully_of_mem (by decide) h
  · exact groupsFaithfully_l2aCommas

theorem l2aCommas_least : '(' ∈ l2aCommas Int64.minValue ∧
    ¬ GroupsFaithfully Int64.minValue (l2aCommas Int64.minValue) :=
  have h : '(' ∈ l2aCommas Int64.minValue := by decide
  ⟨h, not_groupsFaithfully_of_mem h⟩

end Text

end CloudProfiler
