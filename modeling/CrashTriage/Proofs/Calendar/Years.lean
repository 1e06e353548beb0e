import CrashTriage.Calendar.Moment
import Mathlib.Tactic.IntervalCases

/-
How far apart dates and instants lie. A year has 365 days or 366, and two dates of consecutive years with
the same month and day are at least 365 days apart. No two dates are the same day.
-/
namespace CrashTriage

namespace Date

/-- The calendar has the date. -/
def Real (d : Date) : Prop := of? d.year d.month d.day = some d

instance (d : Date) : Decidable d.Real := inferInstanceAs (Decidable (_ = _))

def leapDays (year : Int) : Nat := if isLeapYear year then 1 else 0

variable {d earlier later : Date} {year : Int} {month day : Nat}

theorem of_eq_some_iff :
    of? year month day = some d ↔ d = ⟨year, month, day⟩ ∧ firstYear ≤ year ∧ year ≤ lastYear ∧
      1 ≤ month ∧ month ≤ 12 ∧ 1 ≤ day ∧ day ≤ daysInMonth year month := by
  unfold of?
  split
  · rename_i there
    simp [there, eq_comm]
  · rename_i missing
    simp [missing]

theorem real_iff :
    d.Real ↔ firstYear ≤ d.year ∧ d.year ≤ lastYear ∧ 1 ≤ d.month ∧ d.month ≤ 12 ∧ 1 ≤ d.day ∧
      d.day ≤ daysInMonth d.year d.month := by
  rw [Real, of_eq_some_iff]
  exact and_iff_right rfl

theorem days_in_month_at_most (year : Int) (month : Nat) : daysInMonth year month ≤ 31 := by
  unfold daysInMonth
  repeat' split
  all_goals omega

theorem days_in_month_at_least (year : Int) (month : Nat) : 28 ≤ daysInMonth year month := by
  unfold daysInMonth
  repeat' split
  all_goals omega

/-- A leap day counts from March on. -/
theorem days_before_month (year : Int) (first : 1 ≤ month) (last : month ≤ 12) :
    daysBeforeMonth year month = daysBeforeMonth 1 month + (if 2 < month then leapDays year else 0) := by
  have common : isLeapYear 1 = false := by decide
  unfold leapDays
  cases leap : isLeapYear year <;> interval_cases month <;>
    simp [daysBeforeMonth, daysInMonth, List.range_succ, leap, common]

theorem month_ends_in_year (year : Int) (first : 1 ≤ month) (last : month ≤ 12) :
    daysBeforeMonth year month + daysInMonth year month ≤ 365 + leapDays year := by
  unfold leapDays
  cases leap : isLeapYear year <;> interval_cases month <;>
    simp [daysBeforeMonth, daysInMonth, List.range_succ, leap]

theorem days_before_next_year (year : Int) :
    daysBeforeYear (year + 1) = daysBeforeYear year + 365 + leapDays year := by
  unfold leapDays isLeapYear daysBeforeYear
  simp only [Bool.and_eq_true, Bool.or_eq_true, bne_iff_ne, beq_iff_eq]
  split <;> omega

theorem days_before_years (year : Int) (more : Nat) :
    daysBeforeYear year + 365 * more ≤ daysBeforeYear (year + more) := by
  induction more with
  | zero => simp
  | succ more ih =>
    have next := days_before_next_year (year + more)
    rw [Int.natCast_succ, ← Int.add_assoc]
    omega

theorem days_before_later_year {other : Int} (later : year ≤ other) :
    daysBeforeYear year + 365 * (other - year) ≤ daysBeforeYear other := by
  have grows := days_before_years year (other - year).toNat
  rw [Int.toNat_of_nonneg (by omega)] at grows
  rwa [show year + (other - year) = other by omega] at grows

theorem day_in_year (real : d.Real) :
    daysBeforeYear d.year ≤ d.dayNumber ∧ d.dayNumber < daysBeforeYear (d.year + 1) := by
  obtain ⟨_, _, first, last, positive, inMonth⟩ := real_iff.mp real
  have ends := month_ends_in_year d.year first last
  have next := days_before_next_year d.year
  unfold dayNumber
  omega

/-- The same day of the next year is a year later. -/
theorem next_year_later (months : earlier.month = later.month) (days : earlier.day = later.day)
    (years : earlier.year + 1 = later.year) (first : 1 ≤ later.month) (last : later.month ≤ 12) :
    earlier.dayNumber + 365 ≤ later.dayNumber := by
  have before := days_before_month earlier.year first last
  have after := days_before_month later.year first last
  have next := days_before_next_year earlier.year
  unfold dayNumber
  rw [months, days, before, after, ← years, next]
  split <;> omega

/-- Dates around a year. The one after it is the first of January. -/
theorem year_of_day (real : d.Real) (notEarlier : daysBeforeYear (year - 1) ≤ d.dayNumber)
    (notLater : d.dayNumber ≤ daysBeforeYear (year + 1)) :
    d.year = year - 1 ∨ d.year = year ∨ (d.year = year + 1 ∧ d.dayNumber = daysBeforeYear d.year) := by
  obtain ⟨low, high⟩ := day_in_year real
  by_cases before : d.year + 1 ≤ year - 1
  · have ends := days_before_later_year before
    omega
  · by_cases after : year + 1 ≤ d.year
    · have starts := days_before_later_year after
      have same : d.year = year + 1 := by omega
      rw [same] at low ⊢
      omega
    · omega

theorem first_of_month (real : d.Real) (start : d.dayNumber = daysBeforeYear d.year) : d.day = 1 := by
  obtain ⟨_, _, _, _, positive, _⟩ := real_iff.mp real
  unfold dayNumber at start
  omega

theorem days_before_next_month (year : Int) (first : 1 ≤ month) (last : month < 12) :
    daysBeforeMonth year (month + 1) = daysBeforeMonth year month + daysInMonth year month := by
  cases leap : isLeapYear year <;> interval_cases month <;>
    simp [daysBeforeMonth, daysInMonth, List.range_succ, leap]

theorem days_before_later_month {other : Nat} (year : Int) (first : 1 ≤ month) (later : month < other)
    (last : other ≤ 12) :
    daysBeforeMonth year month + daysInMonth year month ≤ daysBeforeMonth year other := by
  induction other, later using Nat.le_induction with
  | base => rw [days_before_next_month year first last]
  | succ other after ih =>
    rw [days_before_next_month year (by omega) (by omega)]
    exact Nat.le_add_right_of_le (ih (by omega))

theorem later_month_later (real : earlier.Real) (realToo : later.Real) (years : earlier.year = later.year)
    (months : earlier.month < later.month) : earlier.dayNumber < later.dayNumber := by
  obtain ⟨_, _, first, _, _, inMonth⟩ := real_iff.mp real
  obtain ⟨_, _, _, last, positive, _⟩ := real_iff.mp realToo
  have ends := days_before_later_month earlier.year first months last
  unfold dayNumber
  rw [← years]
  omega

theorem later_year_later (real : earlier.Real) (realToo : later.Real) (years : earlier.year < later.year) :
    earlier.dayNumber < later.dayNumber := by
  have ends := (day_in_year real).2
  have starts := (day_in_year realToo).1
  have next : earlier.year + 1 ≤ later.year := years
  have grows := days_before_later_year next
  omega

/-- The calendar gives every day one date. -/
theorem day_number_injective (real : earlier.Real) (realToo : later.Real)
    (same : earlier.dayNumber = later.dayNumber) : earlier = later := by
  have years : earlier.year = later.year := by
    rcases lt_trichotomy earlier.year later.year with before | years | after
    · have order := later_year_later real realToo before
      omega
    · exact years
    · have order := later_year_later realToo real after
      omega
  have months : earlier.month = later.month := by
    rcases lt_trichotomy earlier.month later.month with before | months | after
    · have order := later_month_later real realToo years before
      omega
    · exact months
    · have order := later_month_later realToo real years.symm after
      omega
  have days : earlier.day = later.day := by
    unfold dayNumber at same
    rw [years, months] at same
    omega
  obtain ⟨_, _, _⟩ := earlier
  obtain ⟨_, _, _⟩ := later
  dsimp only at years months days
  rw [years, months, days]

end Date

namespace Instant

variable {a b x y : Instant}

theorem le_iff : a.le b = true ↔ a.second < b.second ∨ (a.second = b.second ∧ a.nano ≤ b.nano) := by
  unfold le compare
  cases seconds : Ord.compare a.second b.second with
  | lt =>
    have less := Int.compare_eq_lt.mp seconds
    simp [less]
  | gt =>
    have greater := Int.compare_eq_gt.mp seconds
    simp
    omega
  | eq =>
    have same := Int.compare_eq_eq.mp seconds
    simp [same, Nat.compare_ne_gt]

/-- Moving further by some seconds lands at most these seconds later. -/
theorem shift_further (a : Instant) {seconds further : Int} (order : seconds ≤ further) :
    (a.shift further).le ⟨(a.shift seconds).second + (further - seconds), (a.shift seconds).nano⟩ = true := by
  rw [le_iff]
  simp only [shift, Bool.or_eq_true, decide_eq_true_eq, beq_iff_eq]
  repeat' split
  all_goals
    dsimp only
    omega

/-- What lies after the instant 364 days before `a` is, a year later, more than a day after `a`. -/
theorem too_late (after : ¬ x.le (a.shift (-(364 * 86400))) = true) (year : x.second + 365 * 86400 ≤ y.second)
    (nano : x.nano = y.nano) : ¬ y.le (a.shift 86400) = true := by
  have day := shift_further a (show -(364 * 86400) ≤ (86400 : Int) by omega)
  rw [le_iff] at after day ⊢
  dsimp only at day
  omega

theorem too_early {window : Int} (notNegative : 0 ≤ window) (short : window < 364 * 86400)
    (before : x.le (a.shift 86400) = true) (year : y.second + 365 * 86400 ≤ x.second) :
    ¬ (a.shift (-window)).le y = true := by
  have day := shift_further a (show -window ≤ (86400 : Int) by omega)
  rw [le_iff] at before day ⊢
  dsimp only at day
  omega

theorem compare_by_parts : Instant.compare =
    compareLex (Ordering.byKey (·.second) Ord.compare) (Ordering.byKey (·.nano) Ord.compare) := rfl

instance : Std.TransCmp Instant.compare := compare_by_parts ▸ inferInstance

end Instant
end CrashTriage
