import CrashTriage.Proofs.Text.Numerals

/-
Numbers of a fixed width. Digits of one width are told apart by their number, so that a number filled up with
zeros is the only writing of it in its width.
-/
namespace CrashTriage
namespace Text

/-- So many decimal digits. -/
structure Digits (width : Nat) (t : Text) : Prop where
  size : t.length = width
  each : ∀ c ∈ t, isDigit c = true

def valueOf (digits : Text) : Nat := Nat.ofDigitChars 10 digits 0

variable {width n : Nat} {c : Char} {s t : Text}

theorem digit_range (digit : isDigit c = true) : 48 ≤ c.toNat ∧ c.toNat ≤ 57 := by
  simp only [isDigit, Bool.and_eq_true, decide_eq_true_eq] at digit
  exact digit

theorem value_cons (c : Char) (t : Text) : valueOf (c :: t) = 10 ^ t.length * (c.toNat - 48) + valueOf t := by
  have zero : '0'.toNat = 48 := rfl
  rw [valueOf, Nat.ofDigitChars_cons, Nat.ofDigitChars_eq_ofDigitChars_zero, Nat.mul_zero, Nat.zero_add, zero]
  rfl

theorem value_small (decimal : ∀ c ∈ t, isDigit c = true) : valueOf t < 10 ^ t.length := by
  induction t with
  | nil => decide
  | cons c t ih =>
    rw [List.forall_mem_cons] at decimal
    have rest := ih decimal.2
    have digit := digit_range decimal.1
    have most : 10 ^ t.length * (c.toNat - 48) ≤ 10 ^ t.length * 9 := Nat.mul_le_mul_left _ (by omega)
    rw [value_cons, List.length_cons, Nat.pow_succ]
    omega

/-- Digits of one width are told apart by their number. -/
theorem value_injective (digits : ∀ c ∈ s, isDigit c = true) (digits' : ∀ c ∈ t, isDigit c = true)
    (widths : s.length = t.length) (same : valueOf s = valueOf t) : s = t := by
  induction s generalizing t with
  | nil => exact (List.length_eq_zero_iff.mp widths.symm).symm
  | cons c s ih =>
    obtain ⟨d, t, rfl⟩ := List.exists_cons_of_length_eq_add_one widths.symm
    rw [List.forall_mem_cons] at digits digits'
    have others : s.length = t.length := Nat.succ.inj widths
    have small := value_small digits.2
    have small' := value_small digits'.2
    rw [value_cons, value_cons, ← others] at same
    rw [← others] at small'
    have positive : 0 < 10 ^ s.length := Nat.pow_pos (by decide)
    have first : c.toNat - 48 = d.toNat - 48 := by
      have quotients := congrArg (· / 10 ^ s.length) same
      simp only [Nat.mul_add_div positive, Nat.div_eq_of_lt small, Nat.div_eq_of_lt small', Nat.add_zero] at quotients
      exact quotients
    have low := digit_range digits.1
    have low' := digit_range digits'.1
    obtain rfl : c = d := Char.toNat_inj.mp (by omega)
    rw [ih digits.2 digits'.2 others (by omega)]

theorem digits_of_padded (positive : 0 < width) (fits : n < 10 ^ width) : Digits width (padded width n) :=
  ⟨padded_length positive fits, padded_digits width n⟩

/-- Digits are their number with zeros in front. -/
theorem padded_of_digits (positive : 0 < width) (digits : Digits width t) : padded width (valueOf t) = t := by
  have small := value_small digits.each
  rw [digits.size] at small
  have written := digits_of_padded positive small
  exact value_injective written.each digits.each (written.size.trans digits.size.symm)
    (padded_value width (valueOf t))

theorem Digits.read (digits : Digits width t) (narrow : width ≤ 9) : readDecimal t = valueOf t := by
  have small := value_small digits.each
  have power : 10 ^ t.length ≤ 10 ^ 9 := Nat.pow_le_pow_right (by decide) (digits.size ▸ narrow)
  exact read_decimal_of_digits digits.each (Nat.lt_of_lt_of_le small (Nat.le_trans power (by decide)))

/-- The digits that a text starts with. -/
structure Leading (digits t : Text) : Prop where
  some_ : digits ≠ []
  whole : t.takeWhile isDigit = digits

theorem leading_taken {t : Text} (some_ : ¬ (t.takeWhile isDigit).isEmpty = true) :
    Leading (t.takeWhile isDigit) t := ⟨by simpa using some_, rfl⟩

theorem Leading.decimal {digits t : Text} (leading : Leading digits t) : ∀ c ∈ digits, isDigit c = true := by
  intro c member
  rw [← leading.whole] at member
  exact List.mem_takeWhile_imp member

theorem Leading.unique {digits other t : Text} (leading : Leading digits t) (leading' : Leading other t) :
    digits = other := leading.whole.symm.trans leading'.whole

theorem Leading.index_iff {digits t : Text} (leading : Leading digits t) (n : Nat) :
    readIndex? digits = some n ↔ (n : Int) = wrap32 (valueOf digits) := read_index_iff leading.decimal n

end Text
end CrashTriage
