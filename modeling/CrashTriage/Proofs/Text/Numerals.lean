import CrashTriage.Proofs.Text.Cuts
import CrashTriage.Text.Numeral
import Mathlib.Tactic.IntervalCases
import Mathlib.Tactic.MkIffOfInductiveProp

/-
Numbers that were written are read back: decimal ones as long as the reader's 32 bits hold them, and what is
left of others in these bits, hexadecimal ones with any zeros before them.
-/
namespace CrashTriage
namespace Text

theorem of_nat_ne_nil (n : Nat) : ofNat n ≠ [] := Nat.toDigits_ne_nil

theorem digits_of_nat (n : Nat) : ∀ c ∈ ofNat n, isDigit c = true := by
  intro c member
  exact Nat.isDigit_of_mem_toDigits (by decide) (by decide) member

theorem wrap_range (n : Int) : -2 ^ 31 ≤ wrap32 n ∧ wrap32 n < 2 ^ 31 := by
  have low := Int.le_bmod (x := n) (m := 2 ^ 32) (by decide)
  have high := Int.bmod_lt (x := n) (m := 2 ^ 32) (by decide)
  have power : Nat.pow 2 32 = 2 ^ 32 := rfl
  rw [wrap32, power]
  omega

theorem wrap_of_small {n : Nat} (small : n < 2 ^ 31) : wrap32 n = n := by
  have power : Nat.pow 2 32 = 4294967296 := rfl
  rw [wrap32, power]
  apply Int.bmod_eq_of_le <;> omega

theorem wrap_eq_self_iff (n : Nat) : wrap32 n = n ↔ n < 2 ^ 31 := by
  constructor
  · intro same
    have range := wrap_range n
    omega
  · exact wrap_of_small

/-- A number that was wrapped goes on as the number itself. -/
theorem wrap_step (n d : Int) : wrap32 (wrap32 n * 10 + d) = wrap32 (n * 10 + d) := by
  unfold wrap32
  rw [← Int.bmod_add_bmod, Int.bmod_mul_bmod, Int.bmod_add_bmod]

/-- A number and the digits read after it, both wrapped. -/
theorem read_decimal_from {digits : Text} (decimal : ∀ c ∈ digits, isDigit c = true) (start : Nat) :
    digits.foldl (fun n c => wrap32 (n * 10 + (c.toNat - 48))) (wrap32 start) =
      wrap32 (Nat.ofDigitChars 10 digits start) := by
  induction digits generalizing start with
  | nil => rw [List.foldl_nil, Nat.ofDigitChars_nil]
  | cons c digits ih =>
    rw [List.forall_mem_cons] at decimal
    have low : 48 ≤ c.toNat := by
      have digit := decimal.1
      simp only [isDigit, Bool.and_eq_true, decide_eq_true_eq] at digit
      exact digit.1
    have zero : '0'.toNat = 48 := rfl
    have step : (start : Int) * 10 + (c.toNat - 48) = ((10 * start + (c.toNat - '0'.toNat) : Nat) : Int) := by
      omega
    rw [List.foldl_cons, wrap_step, step, Nat.ofDigitChars_cons]
    exact ih decimal.2 _

theorem read_decimal_wraps {digits : Text} (decimal : ∀ c ∈ digits, isDigit c = true) :
    readDecimal digits = wrap32 (Nat.ofDigitChars 10 digits 0) :=
  read_decimal_from decimal 0

theorem read_decimal_of_digits {digits : Text} (decimal : ∀ c ∈ digits, isDigit c = true)
    (small : Nat.ofDigitChars 10 digits 0 < 2 ^ 31) :
    readDecimal digits = Nat.ofDigitChars 10 digits 0 := by
  rw [read_decimal_wraps decimal, wrap_of_small small]

theorem read_index_iff {digits : Text} (decimal : ∀ c ∈ digits, isDigit c = true) (n : Nat) :
    readIndex? digits = some n ↔ (n : Int) = wrap32 (Nat.ofDigitChars 10 digits 0) := by
  rw [readIndex?, read_decimal_wraps decimal]
  split
  · rename_i negative
    simp only [reduceCtorEq, false_iff]
    omega
  · rw [Option.some.injEq]
    omega

theorem read_index_of_nat {n : Nat} (small : n < 2 ^ 31) : readIndex? (ofNat n) = some n := by
  have value : Nat.ofDigitChars 10 (ofNat n) 0 = n := Nat.ofDigitChars_ten_toDigits
  rw [read_index_iff (digits_of_nat n), value, wrap_of_small small]

theorem padded_value (width n : Nat) : Nat.ofDigitChars 10 (padded width n) 0 = n := by
  rw [padded, Nat.ofDigitChars_append, Nat.ofDigitChars_replicate_zero, Nat.mul_zero]
  exact Nat.ofDigitChars_ten_toDigits

theorem padded_digits (width n : Nat) : ∀ c ∈ padded width n, isDigit c = true := by
  intro c member
  rcases List.mem_append.mp member with zero | digit
  · rw [List.eq_of_mem_replicate zero]
    decide
  · exact digits_of_nat n c digit

theorem padded_length {width n : Nat} (positive : 0 < width) (fits : n < 10 ^ width) :
    (padded width n).length = width := by
  have short : (ofNat n).length ≤ width := (Nat.length_toDigits_le_iff (by decide) positive).mpr fits
  rw [padded, List.length_append, List.length_replicate]
  omega

theorem digits_value (digits : Text) :
    digits.foldl (fun n c => n * 10 + (c.toNat - 48)) 0 = Nat.ofDigitChars 10 digits 0 := by
  rw [Nat.ofDigitChars_eq_foldl]
  simp only [Nat.mul_comm]
  rfl

theorem read_nat_iff {digits : Text} (decimal : ∀ c ∈ digits, isDigit c = true) (n : Nat) :
    readNat? digits = some n ↔ digits ≠ [] ∧ Nat.ofDigitChars 10 digits 0 = n := by
  have all : digits.all isDigit = true := List.all_eq_true.mpr decimal
  unfold readNat?
  split
  · rename_i rest
    exact absurd (decimal '+' List.mem_cons_self) (by decide)
  · dsimp only
    rw [all, digits_value]
    cases digits <;> simp

/-- The number that hexadecimal digits stand for, whatever its size. -/
def hexValue (digits : Text) : Nat := digits.foldl (fun n c => n * 16 + (hexDigit? c).getD 0) 0

/-- Hexadecimal digits of a number, in either case and with any zeros before them. -/
@[mk_iff]
structure HexNumeral (digits : Text) (n : UInt64) : Prop where
  nonempty : digits ≠ []
  each : ∀ c ∈ digits, isHexDigit c = true
  value : hexValue digits = n.toNat

instance (digits : Text) (n : UInt64) : Decidable (HexNumeral digits n) :=
  decidable_of_iff (digits ≠ [] ∧ digits.all isHexDigit = true ∧ hexValue digits = n.toNat) (by simp [hexNumeral_iff])

/-- A number and the hexadecimal digits read after it, both wrapped at 64 bits. -/
theorem read_hex_from {digits : Text} (each : ∀ c ∈ digits, isHexDigit c = true) (start : Nat) :
    digits.foldl (fun n c => match hexDigit? c with | some d => n * 16 + UInt64.ofNat d | none => n)
        (UInt64.ofNat start) =
      UInt64.ofNat (digits.foldl (fun n c => n * 16 + (hexDigit? c).getD 0) start) := by
  induction digits generalizing start with
  | nil => rfl
  | cons c digits ih =>
    rw [List.forall_mem_cons] at each
    obtain ⟨d, digit⟩ := Option.isSome_iff_exists.mp each.1
    have step : UInt64.ofNat start * 16 + UInt64.ofNat d = UInt64.ofNat (start * 16 + d) := by
      rw [UInt64.ofNat_add, UInt64.ofNat_mul]
      rfl
    rw [List.foldl_cons, List.foldl_cons, digit]
    dsimp only [Option.getD_some]
    rw [step]
    exact ih each.2 (start * 16 + d)

theorem HexNumeral.read {digits : Text} {n : UInt64} (numeral : HexNumeral digits n) : readHex digits = n := by
  have whole := read_hex_from numeral.each 0
  rw [show digits.foldl (fun n c => n * 16 + (hexDigit? c).getD 0) 0 = hexValue digits from rfl,
    numeral.value, UInt64.ofNat_toNat] at whole
  exact whole

/-- The zero and the mark of a hexadecimal number add nothing. -/
theorem HexNumeral.read_marked {digits : Text} {n : UInt64} (numeral : HexNumeral digits n) :
    readHex ('0' :: 'x' :: digits) = n := numeral.read

theorem hex_digit_not_blank {c : Char} (digit : isHexDigit c = true) : isBlank c = false := by
  have range : (48 ≤ c.toNat ∧ c.toNat ≤ 57) ∨ (97 ≤ c.toNat ∧ c.toNat ≤ 102) ∨ (65 ≤ c.toNat ∧ c.toNat ≤ 70) := by
    unfold isHexDigit hexDigit? at digit
    split at digit
    · rename_i decimal
      exact .inl decimal
    · split at digit
      · rename_i lower
        exact .inr (.inl lower)
      · split at digit
        · rename_i upper
          exact .inr (.inr upper)
        · cases digit
  simp [isBlank]
  omega

theorem hex_digit_ne {c d : Char} (digit : isHexDigit c = true) (other : isHexDigit d = false) : d ≠ c := by
  rintro rfl
  rw [digit] at other
  cases other

theorem hex_digit_of_nat {n : Nat} (small : n < 16) :
    hexDigit? n.digitChar = some n ∧ isBlank n.digitChar = false ∧ n.digitChar ≠ '-' := by
  interval_cases n <;> decide

theorem hex_digits_of_nat (n : Nat) : ∀ c ∈ Nat.toDigits 16 n, ∃ d, d < 16 ∧ c = d.digitChar := by
  induction n using Nat.strongRecOn with
  | ind n ih =>
    by_cases small : n < 16
    · rw [Nat.toDigits_of_lt_base small]
      intro c member
      exact ⟨n, small, List.mem_singleton.mp member⟩
    · rw [Nat.toDigits_of_base_le (by omega) (by omega)]
      intro c member
      rcases List.mem_append.mp member with front | last
      · exact ih (n / 16) (by omega) c front
      · exact ⟨n % 16, by omega, List.mem_singleton.mp last⟩

theorem read_hex_append (front : Text) {n : Nat} (small : n < 16) :
    readHex (front ++ [n.digitChar]) = readHex front * 16 + UInt64.ofNat n := by
  simp [readHex, (hex_digit_of_nat small).1]

theorem read_hex_of_digits (n : Nat) : readHex (Nat.toDigits 16 n) = UInt64.ofNat n := by
  induction n using Nat.strongRecOn with
  | ind n ih =>
    by_cases small : n < 16
    · rw [Nat.toDigits_of_lt_base small]
      exact (read_hex_append [] small).trans (UInt64.zero_add _)
    · rw [Nat.toDigits_of_base_le (by omega) (by omega), read_hex_append _ (by omega),
        ih (n / 16) (by omega)]
      have parts : n = n / 16 * 16 + n % 16 := by omega
      calc UInt64.ofNat (n / 16) * 16 + UInt64.ofNat (n % 16)
          = UInt64.ofNat (n / 16 * 16 + n % 16) := by rw [UInt64.ofNat_add, UInt64.ofNat_mul]; rfl
        _ = UInt64.ofNat n := by rw [← parts]

/-- The zero and the mark of a hexadecimal number, and zeros after them, add nothing. -/
theorem read_hex_of_padded (zeros n : Nat) :
    readHex ('0' :: 'x' :: List.replicate zeros '0' ++ Nat.toDigits 16 n) = UInt64.ofNat n := by
  have nothing : readHex (List.replicate zeros '0') = 0 := by
    induction zeros with
    | zero => rfl
    | succ zeros ih =>
      rw [List.replicate_succ, readHex, List.foldl_cons]
      exact ih
  calc readHex ('0' :: 'x' :: List.replicate zeros '0' ++ Nat.toDigits 16 n)
      = readHex (Nat.toDigits 16 n) := by
        unfold readHex
        rw [List.foldl_append]
        exact congrArg (fun start => (Nat.toDigits 16 n).foldl _ start) nothing
    _ = UInt64.ofNat n := read_hex_of_digits n

end Text
end CrashTriage
