import CrashTriage.Calendar.Written
import CrashTriage.Proofs.Calendar.Years
import CrashTriage.Proofs.Text.Numerals
import Mathlib.Tactic.MkIffOfInductiveProp

/-
A stamp of the system log is fifteen bytes long and holds all of a moment but the year. Read back in a
year, it is the moment with the same day and time of that year, if the year has the day.
-/
namespace CrashTriage

namespace TimeOfDay

/-- A leap second is at the end of a minute. -/
@[mk_iff]
structure Real (t : TimeOfDay) : Prop where
  inDay : t.second < 86400
  inSecond : t.nano < 2000000000
  leap : 1000000000 ≤ t.nano → t.second % 60 = 59

variable {t : TimeOfDay}

instance (t : TimeOfDay) : Decidable t.Real := decidable_of_iff _ (real_iff t).symm

theorem eq_mk_iff {second nano : Nat} : t = ⟨second, nano⟩ ↔ t.second = second ∧ t.nano = nano := by
  cases t
  simp

theorem clock_fields (real : t.Real) :
    t.hour < 24 ∧ t.minute < 60 ∧ t.hour * 3600 + t.minute * 60 + t.second % 60 = t.second := by
  have inDay := real.inDay
  unfold hour minute
  omega

theorem of_written (real : t.Real) (whole : t.fraction = 0) :
    of? t.hour t.minute t.secondOfMinute 0 = some t := by
  obtain ⟨hours, minutes, same⟩ := clock_fields real
  obtain ⟨_, inSecond, leap⟩ := real
  unfold fraction at whole
  by_cases leapSecond : 1000000000 ≤ t.nano
  · have last := leap leapSecond
    have sixty : t.secondOfMinute = 60 := by unfold secondOfMinute; omega
    have time : t = ⟨t.hour * 3600 + t.minute * 60 + 59, 0 + 1000000000⟩ := by
      rw [eq_mk_iff]
      omega
    rw [of?, sixty, if_neg (by omega), if_pos ⟨hours, minutes, rfl⟩, ← time]
  · have below : t.secondOfMinute = t.second % 60 := by unfold secondOfMinute; omega
    have time : t = ⟨t.hour * 3600 + t.minute * 60 + t.second % 60, 0⟩ := by
      rw [eq_mk_iff]
      omega
    rw [of?, below, if_pos (by omega), ← time]

theorem second_below (real : t.Real) : t.secondOfMinute < 10 ^ 2 := by
  have inSecond := real.inSecond
  unfold secondOfMinute
  omega

end TimeOfDay

namespace Moment

open Text

@[mk_iff]
structure Real (t : Moment) : Prop where
  date : t.date.Real
  time : t.time.Real

instance (t : Moment) : Decidable t.Real := decidable_of_iff _ (real_iff t).symm

variable {digits lead : Text} {width : Nat} {t : Moment} {year : Int}

theorem read_digits (rest : Text) (decimal : ∀ c ∈ digits, isDigit c = true) (nonempty : digits ≠ [])
    (fits : digits.length ≤ width)
    (stops : digits.length = width ∨ ∀ c, rest.head? = some c → isDigit c = false)
    (small : Nat.ofDigitChars 10 digits 0 < 2 ^ 63) :
    readDigits? width (digits ++ rest) = some (Nat.ofDigitChars 10 digits 0, rest) := by
  have none : (rest.take (width - digits.length)).takeWhile isDigit = [] := by
    rcases stops with full | stops
    · simp [full]
    · cases rest with
      | nil => simp
      | cons c rest =>
        cases width - digits.length with
        | zero => rfl
        | succ more => rw [List.take_succ_cons, List.takeWhile_cons, stops c rfl]; rfl
  have taken : ((digits ++ rest).take width).takeWhile isDigit = digits := by
    rw [List.take_append, List.take_of_length_le fits, List.takeWhile_append_of_pos decimal, none,
      List.append_nil]
  have power : Nat.pow 2 63 = 2 ^ 63 := rfl
  simp only [readDigits?, taken, digits_value, power, List.drop_left]
  rw [if_neg]
  simp only [Bool.or_eq_true, List.isEmpty_iff, decide_eq_true_eq, not_or]
  exact ⟨nonempty, by omega⟩

theorem read_field (decimal : ∀ c ∈ digits, isDigit c = true) (nonempty : digits ≠ [])
    (blank : ∀ c ∈ lead, isBlank c = true) (rest : Text) :
    readField? width (lead ++ digits ++ rest) = readDigits? width (digits ++ rest) := by
  obtain ⟨c, others, rfl⟩ := List.exists_cons_of_ne_nil nonempty
  have solid := digit_not_blank (decimal c List.mem_cons_self)
  rw [readField?, trimStart, List.append_assoc, List.dropWhile_append_of_pos blank, List.cons_append,
    List.dropWhile_cons, solid]
  rfl

theorem read_padded (n : Nat) (fits : n < 10 ^ 2) (rest : Text) :
    readField? 2 (padded 2 n ++ rest) = some (n, rest) := by
  have length : (padded 2 n).length = 2 := padded_length (by decide) fits
  have nonempty : padded 2 n ≠ [] := List.ne_nil_of_length_pos (by omega)
  have value := padded_value 2 n
  have field : readField? 2 ([] ++ padded 2 n ++ rest) = readDigits? 2 (padded 2 n ++ rest) :=
    read_field (padded_digits 2 n) nonempty (by simp) rest
  have read := read_digits rest (padded_digits 2 n) nonempty (by omega) (.inl length) (by omega)
  rw [value] at read
  exact field.trans read

theorem read_clock (real : t.time.Real) :
    readClock? (clock t.time) = some ((t.time.hour, t.time.minute, t.time.secondOfMinute), []) := by
  obtain ⟨hours, minutes, _⟩ := TimeOfDay.clock_fields real
  have last := read_padded t.time.secondOfMinute (TimeOfDay.second_below real) []
  rw [List.append_nil] at last
  have parts : clock t.time = padded 2 t.time.hour ++ ([':'] ++ (padded 2 t.time.minute ++
      ([':'] ++ padded 2 t.time.secondOfMinute))) := by simp [clock]
  have colon : ∀ rest : Text, strip? [':'] ([':'] ++ rest) = some rest := fun rest => by simp [strip?]
  rw [parts, readClock?, read_padded _ (by omega)]
  simp only [Option.bind_eq_bind, Option.bind_some, colon, read_padded _ (show t.time.minute < 10 ^ 2 by omega),
    last]
  rfl

theorem read_number {n : Nat} (positive : 0 < width) (fits : n < 10 ^ width) (small : n < 2 ^ 63) (rest : Text) :
    readDigits? width (ofNat n ++ ' ' :: rest) = some (n, ' ' :: rest) := by
  have value : Nat.ofDigitChars 10 (ofNat n) 0 = n := Nat.ofDigitChars_ten_toDigits
  have short : (ofNat n).length ≤ width := (Nat.length_toDigits_le_iff (by decide) positive).mpr fits
  have stops : ∀ c, (' ' :: rest).head? = some c → isDigit c = false := by
    intro c first
    obtain rfl := Option.some.inj first
    decide
  have read := read_digits (' ' :: rest) (digits_of_nat n) (of_nat_ne_nil n) short (.inr stops) (by omega)
  rwa [value] at read

theorem read_year (year : Nat) (fits : year < 10 ^ 4) (rest : Text) :
    readYear? (ofNat year ++ ' ' :: rest) = some ((year : Int), ' ' :: rest) := by
  obtain ⟨c, others, digits⟩ := List.exists_cons_of_ne_nil (of_nat_ne_nil year)
  have digit : isDigit c = true := digits_of_nat year c (digits ▸ List.mem_cons_self)
  have start : trimStart (ofNat year ++ ' ' :: rest) = ofNat year ++ ' ' :: rest := by
    rw [digits, List.cons_append, trimStart, List.dropWhile_cons, digit_not_blank digit]
    rfl
  rw [readYear?, start]
  split
  · rename_i minus
    rw [digits, List.cons_append] at minus
    obtain rfl := (List.cons.inj minus).1
    cases digit
  · rename_i plus
    rw [digits, List.cons_append] at plus
    obtain rfl := (List.cons.inj plus).1
    cases digit
  · rw [read_number (by decide) fits (by omega)]
    rfl

-- A computation on the text, where deciding the statement itself would go through all characters.
theorem letters_of_all {name : Text} (letters : name.all (fun c => c.utf8Size == 1 && !isBlank c) = true) :
    ∀ c ∈ name, c.utf8Size = 1 ∧ isBlank c = false := by
  simpa using letters

theorem month_name {month : Nat} (first : 1 ≤ month) (last : month ≤ 12) :
    ∃ name, monthNames[month - 1]? = some name ∧ name.length = 3 ∧
      (∀ c ∈ name, c.utf8Size = 1 ∧ isBlank c = false) ∧
      ∀ rest, readMonthName? (name ++ rest) = some (month, rest) := by
  interval_cases month <;> exact ⟨_, rfl, by decide, letters_of_all (by decide), fun _ => rfl⟩

theorem read_day (day : Nat) (fits : day < 10 ^ 2) (rest : Text) :
    readField? 2 (List.replicate (2 - (ofNat day).length) ' ' ++ ofNat day ++ ' ' :: rest) =
      some (day, ' ' :: rest) := by
  have blank : ∀ c ∈ List.replicate (2 - (ofNat day).length) ' ', isBlank c = true := by
    intro c member
    rw [List.eq_of_mem_replicate member]
    decide
  rw [read_field (digits_of_nat day) (of_nat_ne_nil day) blank]
  exact read_number (by decide) fits (by omega) rest

theorem field_after_blank (width : Nat) (rest : Text) :
    readField? width (trimStart (' ' :: rest)) = readField? width rest := by
  have blank : trimStart (' ' :: rest) = trimStart rest := rfl
  rw [readField?, readField?, blank, trimStart, trimStart, List.dropWhile_idempotent]

theorem clock_after_blank (rest : Text) : readClock? (trimStart (' ' :: rest)) = readClock? rest := by
  rw [readClock?, readClock?, field_after_blank]

theorem stamp_parts {name : Text} (named : monthNames[t.date.month - 1]? = some name) :
    t.stamp = name ++ (' ' :: (List.replicate (2 - (ofNat t.date.day).length) ' ' ++ ofNat t.date.day ++
      ' ' :: clock t.time)) := by
  simp [stamp, named]

theorem clock_size {time : TimeOfDay} (real : time.Real) :
    (∀ c ∈ clock time, c.utf8Size = 1) ∧ (clock time).length = 8 := by
  obtain ⟨hours, minutes, _⟩ := TimeOfDay.clock_fields real
  have hour : (padded 2 time.hour).length = 2 := padded_length (by decide) (by omega)
  have minute : (padded 2 time.minute).length = 2 := padded_length (by decide) (by omega)
  have second : (padded 2 time.secondOfMinute).length = 2 := padded_length (by decide) (TimeOfDay.second_below real)
  constructor
  · intro c member
    simp only [clock, List.mem_append, List.mem_cons] at member
    rcases member with (digit | rfl | digit) | rfl | digit
    · exact digit_size (padded_digits _ _ c digit)
    · decide
    · exact digit_size (padded_digits _ _ c digit)
    · decide
    · exact digit_size (padded_digits _ _ c digit)
  · simp only [clock, List.length_append, List.length_cons, hour, minute, second]

theorem clock_stops {time : TimeOfDay} (real : time.Real) {c : Char} (last : (clock time).getLast? = some c) :
    isBlank c = false := by
  have length : (padded 2 time.secondOfMinute).length = 2 := padded_length (by decide) (TimeOfDay.second_below real)
  have nonempty : padded 2 time.secondOfMinute ≠ [] := List.ne_nil_of_length_pos (by omega)
  obtain ⟨digit, ends⟩ : ∃ digit, (padded 2 time.secondOfMinute).getLast? = some digit :=
    Option.isSome_iff_exists.mp (by simpa using nonempty)
  have same : (clock time).getLast? = some digit := by
    simp [clock, List.getLast?_append, List.getLast?_cons, ends]
  obtain rfl := Option.some.inj (last.symm.trans same)
  exact digit_not_blank (padded_digits _ _ c (List.mem_of_getLast? ends))

theorem stamp_size (real : t.Real) : byteSize t.stamp = stampSize := by
  obtain ⟨_, _, first, last, _, inMonth⟩ := Date.real_iff.mp real.date
  have atMost := Date.days_in_month_at_most t.date.year t.date.month
  have short : (ofNat t.date.day).length ≤ 2 :=
    (Nat.length_toDigits_le_iff (by decide) (by decide)).mpr (show t.date.day < 10 ^ 2 by omega)
  obtain ⟨name, named, three, letters, _⟩ := month_name first last
  obtain ⟨small, eight⟩ := clock_size real.time
  rw [byte_size_of_small, stamp_parts named]
  · simp only [List.length_append, List.length_cons, List.length_replicate, three, eight, stampSize]
    omega
  · intro c member
    simp only [stamp_parts named, List.mem_append, List.mem_cons] at member
    rcases member with letter | rfl | (blank | digit) | rfl | time
    · exact (letters c letter).1
    · decide
    · rw [List.eq_of_mem_replicate blank]
      decide
    · exact digit_size (digits_of_nat _ c digit)
    · decide
    · exact small c time

theorem stamp_trimmed (real : t.Real) : Trimmed t.stamp := by
  obtain ⟨_, _, first, last, _, _⟩ := Date.real_iff.mp real.date
  obtain ⟨name, named, three, letters, _⟩ := month_name first last
  rw [stamp_parts named]
  constructor
  · intro c head
    obtain ⟨letter, others, rfl⟩ := List.exists_cons_of_length_eq_add_one three
    obtain rfl := Option.some.inj head
    exact (letters letter List.mem_cons_self).2
  · intro c ends
    apply clock_stops real.time
    have some_ : (clock t.time) ≠ [] := List.ne_nil_of_length_pos (by rw [(clock_size real.time).2]; decide)
    rw [← ends]
    simp [List.getLast?_append, List.getLast?_cons, List.getLast?_eq_getLast_of_ne_nil some_]

theorem read_dated_stamp (real : t.Real) (whole : t.time.fraction = 0) (known : 0 ≤ year) (fits : year < 10 ^ 4) :
    readDatedStamp? (ofInt year ++ ' ' :: t.stamp) =
      (Date.of? year t.date.month t.date.day).map fun date => ⟨date, t.time⟩ := by
  obtain ⟨_, _, first, last, _, inMonth⟩ := Date.real_iff.mp real.date
  have atMost := Date.days_in_month_at_most t.date.year t.date.month
  obtain ⟨name, named, _, _, readName⟩ := month_name first last
  obtain ⟨number, rfl⟩ := Int.eq_ofNat_of_zero_le known
  have written : ofInt number = ofNat number := by
    rw [ofInt, if_neg (by omega), Int.natAbs_natCast]
  have yearRead := read_year number (by omega) t.stamp
  have dayRead := read_day t.date.day (by omega) (clock t.time)
  have blank : trimStart (' ' :: t.stamp) = trimStart t.stamp := rfl
  rw [readDatedStamp?, written, yearRead]
  simp only [Option.bind_eq_bind, Option.bind_some]
  rw [blank, trim_start_trimmed (stamp_trimmed real), stamp_parts named, readName]
  simp only [Option.bind_some]
  rw [field_after_blank, dayRead]
  simp only [Option.bind_some]
  rw [clock_after_blank, read_clock real.time]
  simp only [Option.bind_some]
  rw [TimeOfDay.of_written real.time whole]
  cases Date.of? number t.date.month t.date.day <;> rfl

theorem read_line_stamp (real : t.Real) (whole : t.time.fraction = 0) (known : 0 ≤ year) (fits : year < 10 ^ 4)
    (rest : Text) :
    readLineStamp? (t.stamp ++ rest) year =
      (Date.of? year t.date.month t.date.day).map fun date => ⟨date, t.time⟩ := by
  have front := take_bytes_of_front t.stamp rest
  rw [stamp_size real] at front
  rw [readLineStamp?, front, Option.bind_eq_bind, Option.bind_some, readStamp?,
    trim_trimmed (stamp_trimmed real)]
  exact read_dated_stamp real whole known fits

end Moment
end CrashTriage
