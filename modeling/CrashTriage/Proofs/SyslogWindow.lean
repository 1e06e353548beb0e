import CrashTriage.Proofs.Calendar.ReadStamps
import CrashTriage.Syslog

/-
Which lines of a system log are kept for a crash. A stamp written at most 364 days before the crash and at
most a day after it tells its moment, though it has no year; the one exception, the first of January after
a crash in December, is taken for a moment before every window, and so it is dropped as it should be.
-/
namespace CrashTriage

namespace Syslog

open Text

/-- A moment with a whole second around a crash. -/
@[mk_iff]
structure Nearby (crash t : Moment) : Prop where
  real : t.Real
  whole : t.time.fraction = 0
  after : ¬ t.instant.le (crash.instant.shift (-(364 * 86400))) = true
  before : t.instant.le (crash.instant.shift 86400) = true

/-- What a line of a log around a crash starts with: the stamp of a moment, or none. -/
inductive LineTime (crash : Moment) : Text → Option Moment → Prop where
  | stamped {t : Moment} (nearby : Nearby crash t) (rest : Text) : LineTime crash (t.stamp ++ rest) (some t)
  | unstamped {line : Text} (inYear : Moment.readLineStamp? line crash.date.year = none)
      (inYearBefore : Moment.readLineStamp? line (crash.date.year - 1) = none) : LineTime crash line none

instance (crash t : Moment) : Decidable (Nearby crash t) := decidable_of_iff _ (nearby_iff crash t).symm

theorem stamped_iff {crash t : Moment} {line : Text} :
    LineTime crash line (some t) ↔ Nearby crash t ∧ t.stamp <+: line := by
  constructor
  · rintro ⟨nearby, rest⟩
    exact ⟨nearby, List.prefix_append _ _⟩
  · rintro ⟨nearby, rest, rfl⟩
    exact .stamped nearby rest

theorem unstamped_iff {crash : Moment} {line : Text} :
    LineTime crash line none ↔ Moment.readLineStamp? line crash.date.year = none ∧
      Moment.readLineStamp? line (crash.date.year - 1) = none := by
  constructor
  · rintro ⟨⟩
    exact ⟨‹_›, ‹_›⟩
  · rintro ⟨inYear, inYearBefore⟩
    exact .unstamped inYear inYearBefore

instance (crash : Moment) (line : Text) : (time : Option Moment) → Decidable (LineTime crash line time)
  | some _ => decidable_of_iff _ stamped_iff.symm
  | none => decidable_of_iff _ unstamped_iff.symm

/-- The moment of the nearest line with a stamp, from the line with this number upwards. -/
def stampAbove? (times : List (Option Moment)) (n : Nat) : Option Moment :=
  ((times.take (n + 1)).filterMap id).getLast?

def Within (crash : Moment) (window : Int) (t : Moment) : Prop :=
  (crash.instant.shift (-(max window 0))).le t.instant = true ∧ t.instant.le crash.instant = true

instance (crash : Moment) (window : Int) (t : Moment) : Decidable (Within crash window t) :=
  inferInstanceAs (Decidable (_ ∧ _))

/-- The lines that go with a stamp in the window. -/
def linesWithin (crash : Moment) (window : Int) (lines : List Text) (times : List (Option Moment)) : List Text :=
  (lines.zipIdx.filter fun (_, n) => (stampAbove? times n).any fun t => decide (Within crash window t)).map (·.1)

variable {crash t : Moment} {window : Int} {line : Text} {lines : List Text} {times : List (Option Moment)}

theorem in_window_eq : inWindow crash window t = decide (Within crash window t) := by
  rw [inWindow, Bool.eq_iff_iff, Bool.and_eq_true, decide_eq_true_eq, Within]

theorem stamp_before_in_year (inYear : Moment.readLineStamp? line crash.date.year = some t)
    (early : t.instant.le (crash.instant.shift 86400) = true) : stampBefore? line crash = some t := by
  rw [stampBefore?, inYear, Option.filter_some, if_pos early]

theorem stamp_before_year (late : ∀ t, Moment.readLineStamp? line crash.date.year = some t →
      ¬ t.instant.le (crash.instant.shift 86400) = true) :
    stampBefore? line crash = Moment.readLineStamp? line (crash.date.year - 1) := by
  rw [stampBefore?]
  cases inYear : Moment.readLineStamp? line crash.date.year with
  | none => rfl
  | some t =>
    rw [Option.filter_some, if_neg (late t inYear)]

theorem stamp_before_of_unstamped (inYear : Moment.readLineStamp? line crash.date.year = none)
    (inYearBefore : Moment.readLineStamp? line (crash.date.year - 1) = none) :
    stampBefore? line crash = none := by
  rw [stamp_before_year (by simp [inYear]), inYearBefore]

theorem nearby_days (time : crash.time.second < 86400) (nearby : Nearby crash t) :
    crash.date.dayNumber - 364 ≤ t.date.dayNumber ∧ t.date.dayNumber ≤ crash.date.dayNumber + 1 := by
  have still : crash.instant.shift 0 = crash.instant := by simp [Instant.shift]
  have back := Instant.shift_further crash.instant (show -(364 * 86400) ≤ (0 : Int) by omega)
  have forth := Instant.shift_further crash.instant (show (0 : Int) ≤ 86400 by omega)
  have after := nearby.after
  have before := nearby.before
  have inDay := nearby.real.time.inDay
  rw [Instant.le_iff] at back forth after before
  rw [still] at back forth
  simp only [Moment.instant] at back forth after before
  omega

theorem stamp_of_year (nearby : Nearby crash t) (known : 0 ≤ crash.date.year) (fits : crash.date.year < 10 ^ 4)
    (same : t.date.year = crash.date.year) (rest : Text) : stampBefore? (t.stamp ++ rest) crash = some t := by
  have real : Date.of? t.date.year t.date.month t.date.day = some t.date := nearby.real.date
  have read := Moment.read_line_stamp nearby.real nearby.whole known fits rest
  rw [← same, real] at read
  exact stamp_before_in_year (same ▸ read) nearby.before

/-- In the year of the crash, a stamp of the year before would be more than a day after the crash. -/
theorem stamp_of_year_before (nearby : Nearby crash t) (known : 1 ≤ crash.date.year)
    (fits : crash.date.year < 10 ^ 4) (earlier : t.date.year = crash.date.year - 1) (rest : Text) :
    stampBefore? (t.stamp ++ rest) crash = some t := by
  obtain ⟨_, _, first, last, _, _⟩ := Date.real_iff.mp nearby.real.date
  have inYear := Moment.read_line_stamp nearby.real nearby.whole (show 0 ≤ crash.date.year by omega) fits rest
  have inYearBefore :=
    Moment.read_line_stamp nearby.real nearby.whole (show 0 ≤ crash.date.year - 1 by omega) (by omega) rest
  have late : ∀ seen, Moment.readLineStamp? (t.stamp ++ rest) crash.date.year = some seen →
      ¬ seen.instant.le (crash.instant.shift 86400) = true := by
    intro seen read
    rw [inYear] at read
    obtain ⟨d, there, rfl⟩ := Option.map_eq_some_iff.mp read
    obtain ⟨rfl, _⟩ := Date.of_eq_some_iff.mp there
    have yearLater : t.date.dayNumber + 365 ≤ Date.dayNumber ⟨crash.date.year, t.date.month, t.date.day⟩ :=
      Date.next_year_later rfl rfl (show t.date.year + 1 = crash.date.year by omega) first last
    apply Instant.too_late nearby.after
    · simp only [Moment.instant]
      omega
    · rfl
  have real : Date.of? t.date.year t.date.month t.date.day = some t.date := nearby.real.date
  rw [stamp_before_year late, inYearBefore, ← earlier, real]
  rfl

/-- The first of January after the crash is taken for the one before it, and neither is in the window. -/
theorem stamp_of_year_after (nearby : Nearby crash t) (date : crash.date.Real) (time : crash.time.second < 86400)
    (known : 0 ≤ crash.date.year) (fits : crash.date.year < 10 ^ 4) (short : max window 0 < 364 * 86400)
    (later : t.date.year = crash.date.year + 1) (newYear : t.date.dayNumber = Date.daysBeforeYear t.date.year)
    (rest : Text) :
    ∃ seen, stampBefore? (t.stamp ++ rest) crash = some seen ∧ ¬ Within crash window seen ∧
      ¬ Within crash window t := by
  obtain ⟨_, _, first, last, _, _⟩ := Date.real_iff.mp nearby.real.date
  obtain ⟨_, inYear⟩ := Date.day_in_year date
  have firstDay := Date.first_of_month nearby.real.date newYear
  have inMonth := Date.days_in_month_at_least crash.date.year t.date.month
  have there : Date.of? crash.date.year t.date.month t.date.day =
      some ⟨crash.date.year, t.date.month, t.date.day⟩ := by
    rw [Date.of_eq_some_iff]
    refine ⟨rfl, ?_, ?_, first, last, by omega, by omega⟩
    · unfold Date.firstYear
      omega
    · unfold Date.lastYear
      omega
  have yearEarlier : Date.dayNumber ⟨crash.date.year, t.date.month, t.date.day⟩ + 365 ≤ t.date.dayNumber :=
    Date.next_year_later rfl rfl later.symm first last
  have read := Moment.read_line_stamp nearby.real nearby.whole known fits rest
  rw [there, Option.map_some] at read
  refine ⟨_, stamp_before_in_year read ?_, ?_, ?_⟩
  · have before := nearby.before
    rw [Instant.le_iff] at before ⊢
    simp only [Moment.instant] at before ⊢
    omega
  · rintro ⟨inWindow, _⟩
    revert inWindow
    apply Instant.too_early (by omega) short nearby.before
    simp only [Moment.instant]
    omega
  · rintro ⟨_, notAfter⟩
    rw [Instant.le_iff] at notAfter
    simp only [Moment.instant] at notAfter
    rw [newYear, later] at notAfter
    omega

theorem stamp_before_of_stamped (date : crash.date.Real) (time : crash.time.second < 86400)
    (years : 1 ≤ crash.date.year ∧ crash.date.year ≤ 9999) (short : max window 0 < 364 * 86400)
    (nearby : Nearby crash t) (rest : Text) :
    ∃ seen, stampBefore? (t.stamp ++ rest) crash = some seen ∧
      (Within crash window seen ↔ Within crash window t) := by
  obtain ⟨notEarlier, notLater⟩ := nearby_days time nearby
  obtain ⟨low, high⟩ := Date.day_in_year date
  have yearBefore := Date.days_before_later_year (show crash.date.year - 1 ≤ crash.date.year by omega)
  have around := Date.year_of_day nearby.real.date
    (show Date.daysBeforeYear (crash.date.year - 1) ≤ t.date.dayNumber by omega) (by omega)
  rcases around with earlier | same | ⟨later, newYear⟩
  · exact ⟨t, stamp_of_year_before nearby years.1 (by omega) earlier rest, Iff.rfl⟩
  · exact ⟨t, stamp_of_year nearby (by omega) (by omega) same rest, Iff.rfl⟩
  · obtain ⟨seen, there, seenOut, out⟩ :=
      stamp_of_year_after nearby date time (by omega) (by omega) short later newYear rest
    exact ⟨seen, there, iff_of_false seenOut out⟩

theorem stamp_above_start (first : Option Moment) : stampAbove? (first :: times) 0 = first := by
  cases first <;> simp [stampAbove?]

theorem stamp_above_later (first : Option Moment) (n : Nat) :
    stampAbove? (first :: times) (n + 1) = (stampAbove? times n).or first := by
  unfold stampAbove?
  rw [List.take_succ_cons]
  cases first with
  | none => rw [List.filterMap_cons_none rfl, Option.or_none]
  | some t =>
    rw [List.filterMap_cons, id_eq, List.getLast?_cons]
    cases ((times.take (n + 1)).filterMap id).getLast? <;> rfl

/-- Whether the line with a number is kept; the lines above all stamps go with `keep`. -/
def keptAt (crash : Moment) (window : Int) (times : List (Option Moment)) (keep : Bool) (n : Nat) : Bool :=
  ((stampAbove? times n).map fun t => decide (Within crash window t)).getD keep

theorem kept_later (first : Option Moment) (keep : Bool) (n : Nat) :
    keptAt crash window (first :: times) keep (n + 1) =
      keptAt crash window times (keptAt crash window (first :: times) keep 0) n := by
  unfold keptAt
  rw [stamp_above_start, stamp_above_later]
  cases stampAbove? times n <;> rfl

theorem keep_lines_cons (line : Text) (lines : List Text) (keep : Bool)
    (kept : Bool) (here : ((stampBefore? line crash).map (inWindow crash window)).getD keep = kept) :
    keepLines crash window keep (line :: lines) =
      if kept then line :: keepLines crash window kept lines else keepLines crash window kept lines := by
  rw [keepLines]
  cases stamp : stampBefore? line crash <;> rw [stamp] at here <;> subst here <;> rfl

theorem line_judged (date : crash.date.Real) (time : crash.time.second < 86400)
    (years : 1 ≤ crash.date.year ∧ crash.date.year ≤ 9999) (short : max window 0 < 364 * 86400)
    {stamp : Option Moment} (lineTime : LineTime crash line stamp) (keep : Bool) :
    ((stampBefore? line crash).map (inWindow crash window)).getD keep =
      (stamp.map fun t => decide (Within crash window t)).getD keep := by
  cases lineTime with
  | stamped nearby rest =>
    obtain ⟨seen, there, same⟩ := stamp_before_of_stamped date time years short nearby rest
    simp [there, in_window_eq, same]
  | unstamped inYear inYearBefore =>
    rw [stamp_before_of_unstamped inYear inYearBefore]
    rfl

theorem keep_lines_kept (date : crash.date.Real) (time : crash.time.second < 86400)
    (years : 1 ≤ crash.date.year ∧ crash.date.year ≤ 9999) (short : max window 0 < 364 * 86400)
    (told : List.Forall₂ (LineTime crash) lines times) (keep : Bool) :
    keepLines crash window keep lines =
      (lines.zipIdx.filter fun x => keptAt crash window times keep x.2).map (·.1) := by
  induction told generalizing keep with
  | nil => rfl
  | @cons line stamp lines times lineTime _ ih =>
    have here : ((stampBefore? line crash).map (inWindow crash window)).getD keep =
        keptAt crash window (stamp :: times) keep 0 := by
      rw [line_judged date time years short lineTime, keptAt, stamp_above_start]
    have below : (lines.zipIdx 1).filter (fun x => keptAt crash window (stamp :: times) keep x.2) =
        (lines.zipIdx.filter fun x =>
          keptAt crash window times (keptAt crash window (stamp :: times) keep 0) x.2).map
            fun x => (x.1, x.2 + 1) := by
      rw [List.zipIdx_succ, List.filter_map]
      simp only [Function.comp_def, kept_later]
    rw [keep_lines_cons line lines keep _ here, ih, List.zipIdx_cons, List.filter_cons, below]
    cases keptAt crash window (stamp :: times) keep 0 <;> simp

theorem narrow_exact (date : crash.date.Real) (time : crash.time.second < 86400)
    (years : 1 ≤ crash.date.year ∧ crash.date.year ≤ 9999) (short : max window 0 < 364 * 86400) (text : Text)
    (told : List.Forall₂ (LineTime crash) (pieces text) times) :
    narrow text crash window = (linesWithin crash window (pieces text) times).flatten := by
  have same : ∀ n, keptAt crash window times false n =
      (stampAbove? times n).any fun t => decide (Within crash window t) := by
    intro n
    unfold keptAt
    cases stampAbove? times n <;> rfl
  rw [narrow, keep_lines_kept date time years short told, linesWithin]
  simp only [same]

/-- A window from New Year's Eve over the end of February. -/
def leapCrash : Moment := ⟨⟨2012, 3, 1⟩, ⟨10, 0⟩⟩

def leapLog : Text :=
  ["boot\n", "Dec 30 23:59:50 a\n", "\tb\n", "Dec 31 23:59:50 c\n", "Feb 29 12:00:00 d\r\n", "\te\n",
    "Mar  1 00:00:11 f"].flatMap String.toList

def leapStamps : List (Option Moment) :=
  [none, some ⟨⟨2011, 12, 30⟩, ⟨86390, 0⟩⟩, none, some ⟨⟨2011, 12, 31⟩, ⟨86390, 0⟩⟩,
    some ⟨⟨2012, 2, 29⟩, ⟨43200, 0⟩⟩, none, some ⟨⟨2012, 3, 1⟩, ⟨11, 0⟩⟩]

theorem narrow_exact_over_leap_day :
    List.Forall₂ (LineTime leapCrash) (pieces leapLog) leapStamps ∧
      narrow leapLog leapCrash (61 * 86400) =
        (linesWithin leapCrash (61 * 86400) (pieces leapLog) leapStamps).flatten ∧
      (linesWithin leapCrash (61 * 86400) (pieces leapLog) leapStamps).flatten =
        "Dec 31 23:59:50 c\nFeb 29 12:00:00 d\r\n\te\n".toList := by
  have told : List.Forall₂ (LineTime leapCrash) (pieces leapLog) leapStamps := by decide +kernel
  exact ⟨told, narrow_exact (by decide) (by decide) (by decide) (by decide) leapLog told, by decide +kernel⟩

end Syslog
end CrashTriage
