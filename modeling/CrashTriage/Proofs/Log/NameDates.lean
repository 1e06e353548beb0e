import CrashTriage.Calendar.Written
import CrashTriage.Log.CrashLog
import CrashTriage.Proofs.Calendar.Years
import CrashTriage.Proofs.Text.Digits

/-
Dates in the names of log files. The seventeen characters are six numbers of fixed widths, so that what is read
as a date is that date written out and nothing else.
-/
namespace CrashTriage
namespace Moment

variable {m : Moment}

theorem time_of_fields (hour minute second : Nat) (short : second < 60) (time : TimeOfDay) :
    TimeOfDay.of? hour minute second 0 = some time ↔
      hour < 24 ∧ minute < 60 ∧ time = ⟨hour * 3600 + minute * 60 + second, 0⟩ := by
  unfold TimeOfDay.of?
  by_cases fits : hour < 24 ∧ minute < 60 ∧ second < 60
  · rw [if_pos fits]
    simp [fits, eq_comm]
  · rw [if_neg fits, if_neg (by omega)]
    simp only [reduceCtorEq, false_iff]
    intro fits'
    exact fits ⟨fits'.1, fits'.2.1, short⟩

theorem of_fields_iff (year month day hour minute second : Nat) :
    ofFields? year month day hour minute second = some m ↔
      Date.of? year month day = some m.date ∧ hour < 24 ∧ minute < 60 ∧ second < 60 ∧
        m.time = ⟨hour * 3600 + minute * 60 + second, 0⟩ := by
  obtain ⟨date, time⟩ := m
  have notNegative (n : Nat) : ¬ (n : Int) < 0 := by omega
  unfold ofFields?
  simp only [notNegative, decide_false, Bool.false_or, Int.toNat_natCast, decide_eq_true_eq, gt_iff_lt]
  by_cases long : (59 : Int) < second
  · rw [if_pos long]
    simp
    omega
  · rw [if_neg long]
    have short : second < 60 := by omega
    simp only [Option.bind_eq_bind, Option.bind_eq_some_iff]
    simp [time_of_fields _ _ _ short, short]
end Moment

namespace LogName

open Text

/-- What the name of a file can tell: a second of a day in the years 0 to 9999. -/
structure NameDate (m : Moment) : Prop where
  real : m.date.Real
  years : 0 ≤ m.date.year ∧ m.date.year ≤ 9999
  inDay : m.time.second < 86400
  whole : m.time.nano = 0

/-- The date as a file name has it: `2011-02-03-123456`. -/
def stamp (m : Moment) : Text :=
  Moment.writtenDate m.date ++ '-' :: (padded 2 m.time.hour ++ (padded 2 m.time.minute ++
    padded 2 m.time.secondOfMinute))

/-- The numbers of a stamp. -/
structure StampParts where
  year : Text
  month : Text
  day : Text
  hour : Text
  minute : Text
  second : Text

namespace StampParts

def text (p : StampParts) : Text :=
  p.year ++ '-' :: (p.month ++ '-' :: (p.day ++ '-' :: (p.hour ++ (p.minute ++ p.second))))

@[mk_iff]
structure Shaped (p : StampParts) : Prop where
  year : Digits 4 p.year
  month : Digits 2 p.month
  day : Digits 2 p.day
  hour : Digits 2 p.hour
  minute : Digits 2 p.minute
  second : Digits 2 p.second

def field (t : Text) (start stop : Nat) : Text := (t.take stop).drop start

def ofText (t : Text) : StampParts :=
  ⟨field t 0 4, field t 5 7, field t 8 10, field t 11 13, field t 13 15, field t 15 17⟩

end StampParts

variable {t : Text} {m : Moment} {p : StampParts} {start stop i : Nat}

def isMark (i : Nat) : Bool := i == 4 || i == 7 || i == 10

theorem shape_at (shape : isDateShape t = true) :
    t.length = 17 ∧ ∀ i c, t[i]? = some c → if isMark i then c = '-' else isDigit c = true := by
  rw [isDateShape, Bool.and_eq_true, beq_iff_eq, List.all_eq_true] at shape
  refine ⟨shape.1, fun i c there => ?_⟩
  have test := shape.2 (c, i) (List.mem_zipIdx_iff_getElem?.mpr there)
  unfold isMark
  dsimp only at test
  split at test
  · rename_i mark
    rw [if_pos mark]
    exact beq_iff_eq.mp test
  · rename_i other
    rw [if_neg other]
    exact test

theorem field_digits (shape : isDateShape t = true) (inText : start ≤ stop ∧ stop ≤ 17)
    (unmarked : ∀ i, start ≤ i → i < stop → isMark i = false) :
    Digits (stop - start) (StampParts.field t start stop) := by
  obtain ⟨size, each⟩ := shape_at shape
  constructor
  · rw [StampParts.field, List.length_drop, List.length_take, size]
    omega
  · intro c member
    obtain ⟨i, there⟩ := List.mem_iff_getElem?.mp member
    rw [StampParts.field, List.getElem?_drop, List.getElem?_take] at there
    split at there
    · rename_i before
      have digit := each _ c there
      rwa [unmarked _ (by omega) before, if_neg (by decide)] at digit
    · cases there

theorem field_before (size : t.length = 17) (start stop : Nat) (inText : start ≤ stop ∧ stop ≤ 17) :
    t.drop start = StampParts.field t start stop ++ t.drop stop := by
  have whole := congrArg (List.drop start) (List.take_append_drop stop t)
  rw [List.drop_append_of_le_length (by rw [List.length_take]; omega)] at whole
  exact whole.symm

theorem mark_before (shape : isDateShape t = true) (i : Nat) (mark : isMark i = true) (inText : i < 17) :
    t.drop i = '-' :: t.drop (i + 1) := by
  obtain ⟨size, each⟩ := shape_at shape
  have here : i < t.length := by omega
  have dash := each i t[i] (List.getElem?_eq_getElem here)
  rw [if_pos mark] at dash
  rw [List.drop_eq_getElem_cons here, dash]

/-- A text in the shape of a date is the six numbers in it with the dashes between them. -/
theorem parts_of_shape (shape : isDateShape t = true) :
    (StampParts.ofText t).Shaped ∧ (StampParts.ofText t).text = t := by
  have size := (shape_at shape).1
  have digits (start stop : Nat) (inText : start ≤ stop ∧ stop ≤ 17)
      (none : (List.range' start (stop - start)).all (fun i => !isMark i) = true) :
      Digits (stop - start) (StampParts.field t start stop) := by
    refine field_digits shape inText fun i after before => ?_
    have unmarked := List.all_eq_true.mp none i (List.mem_range'_1.mpr (by omega))
    simpa using unmarked
  have cut := field_before size
  have dash := mark_before shape
  have none : t.drop 17 = [] := List.drop_eq_nil_of_le (by omega)
  constructor
  · exact ⟨digits 0 4 (by decide) (by decide), digits 5 7 (by decide) (by decide),
      digits 8 10 (by decide) (by decide), digits 11 13 (by decide) (by decide),
      digits 13 15 (by decide) (by decide), digits 15 17 (by decide) (by decide)⟩
  · have written : t.drop 0 = (StampParts.ofText t).text := by
      rw [cut 0 4 (by decide), dash 4 rfl (by decide), cut 5 7 (by decide), dash 7 rfl (by decide),
        cut 8 10 (by decide), dash 10 rfl (by decide), cut 11 13 (by decide), cut 13 15 (by decide),
        cut 15 17 (by decide), none, List.append_nil]
      rfl
    exact written.symm

theorem shape_of_parts (shaped : p.Shaped) : isDateShape p.text = true ∧ StampParts.ofText p.text = p := by
  obtain ⟨year, month, day, hour, minute, second⟩ := p
  obtain ⟨⟨sizeY, y⟩, ⟨sizeM, mo⟩, ⟨sizeD, d⟩, ⟨sizeH, h⟩, ⟨sizeN, n⟩, ⟨sizeS, s⟩⟩ := shaped
  dsimp only at *
  obtain ⟨y1, year, rfl⟩ := List.exists_cons_of_length_eq_add_one sizeY
  obtain ⟨y2, y3, y4, rfl⟩ := List.length_eq_three.mp (Nat.succ.inj sizeY)
  obtain ⟨m1, m2, rfl⟩ := List.length_eq_two.mp sizeM
  obtain ⟨d1, d2, rfl⟩ := List.length_eq_two.mp sizeD
  obtain ⟨h1, h2, rfl⟩ := List.length_eq_two.mp sizeH
  obtain ⟨n1, n2, rfl⟩ := List.length_eq_two.mp sizeN
  obtain ⟨s1, s2, rfl⟩ := List.length_eq_two.mp sizeS
  simp only [List.forall_mem_cons] at y mo d h n s
  refine ⟨?_, rfl⟩
  simp [isDateShape, dateSize, StampParts.text, List.zipIdx, y, mo, d, h, n, s]

theorem read_shaped (shaped : p.Shaped) :
    readDate? p.text = Moment.ofFields? (valueOf p.year) (valueOf p.month) (valueOf p.day) (valueOf p.hour)
      (valueOf p.minute) (valueOf p.second) := by
  obtain ⟨shape, same⟩ := shape_of_parts shaped
  have fields : readDate? p.text =
      if isDateShape p.text then
        let q := StampParts.ofText p.text
        Moment.ofFields? (readDecimal q.year) (readDecimal q.month) (readDecimal q.day) (readDecimal q.hour)
          (readDecimal q.minute) (readDecimal q.second)
      else none := rfl
  rw [fields, if_pos shape, same]
  dsimp only
  rw [shaped.year.read (by decide), shaped.month.read (by decide), shaped.day.read (by decide),
    shaped.hour.read (by decide), shaped.minute.read (by decide), shaped.second.read (by decide)]

namespace StampParts

def ofMoment (m : Moment) : StampParts where
  year := padded 4 m.date.year.natAbs
  month := padded 2 m.date.month
  day := padded 2 m.date.day
  hour := padded 2 m.time.hour
  minute := padded 2 m.time.minute
  second := padded 2 m.time.secondOfMinute

end StampParts

theorem stamp_text (years : 0 ≤ m.date.year ∧ m.date.year ≤ 9999) : stamp m = (StampParts.ofMoment m).text := by
  rw [stamp, Moment.writtenDate, Moment.writtenYear, if_pos years, List.append_assoc, List.cons_append,
    List.append_assoc, List.cons_append]
  rfl

theorem NameDate.shaped (is : NameDate m) : (StampParts.ofMoment m).Shaped := by
  obtain ⟨-, -, -, lastMonth, -, inMonth⟩ := Date.real_iff.mp is.real
  have days := Date.days_in_month_at_most m.date.year m.date.month
  obtain ⟨since, until_⟩ := is.years
  have inDay := is.inDay
  have whole := is.whole
  refine ⟨digits_of_padded (by decide) (by omega), digits_of_padded (by decide) (by omega),
    digits_of_padded (by decide) (by omega), digits_of_padded (by decide) ?_, digits_of_padded (by decide) ?_,
    digits_of_padded (by decide) ?_⟩
  · unfold TimeOfDay.hour; omega
  · unfold TimeOfDay.minute; omega
  · unfold TimeOfDay.secondOfMinute; omega

theorem clock_of_fields {hour minute second : Nat} (minutes : minute < 60) (seconds : second < 60) :
    let time : TimeOfDay := ⟨hour * 3600 + minute * 60 + second, 0⟩
    time.hour = hour ∧ time.minute = minute ∧ time.secondOfMinute = second := by
  dsimp only
  unfold TimeOfDay.hour TimeOfDay.minute TimeOfDay.secondOfMinute
  dsimp only
  omega

theorem clock_fits {time : TimeOfDay} (inDay : time.second < 86400) (whole : time.nano = 0) :
    time.hour < 24 ∧ time.minute < 60 ∧ time.secondOfMinute < 60 ∧
      time = ⟨time.hour * 3600 + time.minute * 60 + time.secondOfMinute, 0⟩ := by
  obtain ⟨second, nano⟩ := time
  unfold TimeOfDay.hour TimeOfDay.minute TimeOfDay.secondOfMinute
  dsimp only at *
  rw [TimeOfDay.mk.injEq]
  omega

theorem parts_of_read (shaped : p.Shaped) (date : m.date = ⟨valueOf p.year, valueOf p.month, valueOf p.day⟩)
    (minutes : valueOf p.minute < 60) (seconds : valueOf p.second < 60)
    (time : m.time = ⟨valueOf p.hour * 3600 + valueOf p.minute * 60 + valueOf p.second, 0⟩) :
    StampParts.ofMoment m = p := by
  obtain ⟨hour, minute, second⟩ := @clock_of_fields (valueOf p.hour) _ _ minutes seconds
  rw [StampParts.ofMoment, date, time, hour, minute, second]
  dsimp only
  rw [Int.natAbs_natCast, padded_of_digits (by decide) shaped.year, padded_of_digits (by decide) shaped.month,
    padded_of_digits (by decide) shaped.day, padded_of_digits (by decide) shaped.hour,
    padded_of_digits (by decide) shaped.minute, padded_of_digits (by decide) shaped.second]

/-- What is read as a date is that date written out. -/
theorem read_date_iff : readDate? t = some m ↔ NameDate m ∧ t = stamp m := by
  constructor
  · intro read
    have shape : isDateShape t = true := by
      by_contra other
      rw [readDate?, if_neg other] at read
      cases read
    obtain ⟨shaped, whole⟩ := parts_of_shape shape
    generalize StampParts.ofText t = p at shaped whole
    subst whole
    rw [read_shaped shaped, Moment.of_fields_iff] at read
    obtain ⟨date, hours, minutes, seconds, time⟩ := read
    obtain ⟨fields, known⟩ := Date.of_eq_some_iff.mp date
    have year := value_small shaped.year.each
    rw [shaped.year.size] at year
    have years : 0 ≤ m.date.year ∧ m.date.year ≤ 9999 := by
      rw [fields]
      dsimp only
      omega
    refine ⟨⟨Date.real_iff.mpr (by rw [fields]; exact known), years, ?_, by rw [time]⟩, ?_⟩
    · rw [time]
      dsimp only
      omega
    · rw [stamp_text years, parts_of_read shaped fields minutes seconds time]
  · rintro ⟨is, rfl⟩
    obtain ⟨hours, minutes, seconds, time⟩ := clock_fits is.inDay is.whole
    have year : (m.date.year.natAbs : Int) = m.date.year := Int.natAbs_of_nonneg is.years.1
    rw [stamp_text is.years, read_shaped is.shaped]
    simp only [StampParts.ofMoment, valueOf, padded_value]
    rw [Moment.of_fields_iff, year]
    exact ⟨is.real, hours, minutes, seconds, time⟩

/-- The stem as a name, an underscore and a date, behind which the stem or a device name starts. -/
structure SplitsAt (stem name : Text) (m : Moment) : Prop where
  nonempty : name ≠ []
  date : NameDate m
  parts : ∃ tail, stem = name ++ '_' :: (stamp m ++ tail) ∧ ∀ c, tail.head? = some c → c = '_'

variable {before stem name tail : Text}

theorem NameDate.stamp_size (is : NameDate m) : (stamp m).length = 17 := by
  have shaped := (stamp_text is.years) ▸ (shape_of_parts is.shaped).1
  exact (shape_at shaped).1

theorem read_date_field_iff :
    readDateField? t = some m ↔
      NameDate m ∧ ∃ tail, t = stamp m ++ tail ∧ ∀ c, tail.head? = some c → c = '_' := by
  have ends : readDateField? t = some m ↔
      readDate? (t.take 17) = some m ∧ ∀ c, (t.drop 17).head? = some c → c = '_' := by
    unfold readDateField? dateSize
    split
    · rename_i none
      simp [none]
    · rename_i rest device
      simp [device]
    · rename_i notEnd notDevice
      simp only [reduceCtorEq, false_iff, not_and]
      intro _ starts
      cases after : t.drop 17 with
      | nil => exact notEnd after
      | cons c rest =>
        obtain rfl := starts c (by rw [after]; rfl)
        exact notDevice rest after
  rw [ends, read_date_iff, and_assoc]
  refine and_congr_right fun is => ?_
  constructor
  · rintro ⟨front, starts⟩
    exact ⟨t.drop 17, by rw [← front, List.take_append_drop], starts⟩
  · rintro ⟨tail, rfl, starts⟩
    have size := is.stamp_size
    rw [← size, List.take_left, List.drop_left]
    exact ⟨rfl, starts⟩

/-- Whether a stem splits at one of its characters. -/
theorem splits_here_iff (before t : Text) (c : Char) :
    SplitsAt (before ++ c :: t) before m ↔ c = '_' ∧ before ≠ [] ∧ readDateField? t = some m := by
  rw [read_date_field_iff]
  constructor
  · rintro ⟨nonempty, is, tail, whole, starts⟩
    obtain ⟨rfl, rfl⟩ := List.cons.inj (List.append_cancel_left whole)
    exact ⟨rfl, nonempty, is, tail, rfl, starts⟩
  · rintro ⟨rfl, nonempty, is, tail, rfl, starts⟩
    exact ⟨nonempty, is, tail, rfl, starts⟩

theorem splits_shorter (splits : SplitsAt stem name m) : name.length < stem.length := by
  obtain ⟨-, -, tail, rfl, -⟩ := splits
  simp

/-- The leftmost split of a stem behind its first `skipped` characters. -/
def LeftmostFrom (skipped : Nat) (stem : Text) : Option (Text × Moment) → Prop
  | some (name, m) => SplitsAt stem name m ∧
      ∀ other m', SplitsAt stem other m' → skipped ≤ other.length → name.length ≤ other.length
  | none => ∀ other m', SplitsAt stem other m' → other.length < skipped

theorem splits_at_front (splits : SplitsAt (before ++ t) name m) (size : name.length = before.length) :
    name = before := by
  obtain ⟨-, -, tail, whole, -⟩ := splits
  exact (List.append_inj whole size.symm).1.symm

theorem split_from_here (read : readDateField? t = some m) (nonempty : before ≠ []) :
    splitFrom? before ('_' :: t) = some (before, m) := by
  rw [splitFrom?, if_pos (by simp [nonempty]), read]

theorem split_from_later {c : Char} (other : ∀ m, ¬ SplitsAt (before ++ c :: t) before m) :
    splitFrom? before (c :: t) = splitFrom? (before ++ [c]) t := by
  rw [splitFrom?]
  split
  · rename_i start
    have start : c = '_' ∧ before ≠ [] := by simpa using start
    cases read : readDateField? t with
    | none => rfl
    | some m => exact absurd ((splits_here_iff before t c).mpr ⟨start.1, start.2, read⟩) (other m)
  · rfl

theorem split_from_leftmost (before t : Text) :
    LeftmostFrom before.length (before ++ t) (splitFrom? before t) := by
  induction t generalizing before with
  | nil =>
    intro other m' splits
    rw [List.append_nil] at splits
    exact splits_shorter splits
  | cons c t ih =>
    -- no split before this character counts, so that one at it is the leftmost
    by_cases here : ∃ m, SplitsAt (before ++ c :: t) before m
    · obtain ⟨m, splits⟩ := here
      obtain ⟨rfl, nonempty, read⟩ := (splits_here_iff before t c).mp splits
      rw [split_from_here read nonempty]
      exact ⟨splits, fun _ _ _ notEarlier => notEarlier⟩
    · have elsewhere : ∀ m, ¬ SplitsAt (before ++ c :: t) before m := fun m splits => here ⟨m, splits⟩
      have later := ih (before ++ [c])
      have longer {other : Text} {m' : Moment} (splits : SplitsAt (before ++ c :: t) other m')
          (notEarlier : before.length ≤ other.length) : (before ++ [c]).length ≤ other.length := by
        rw [List.length_append, List.length_singleton]
        by_contra short
        obtain rfl := splits_at_front splits (by omega)
        exact elsewhere m' splits
      rw [split_from_later elsewhere]
      rw [List.append_assoc, List.singleton_append] at later
      cases found : splitFrom? (before ++ [c]) t with
      | some split =>
        rw [found] at later
        exact ⟨later.1, fun other m' splits notEarlier => later.2 other m' splits (longer splits notEarlier)⟩
      | none =>
        rw [found] at later
        intro other m' splits
        by_contra notEarlier
        have short := later other m' splits
        have long := longer splits (by omega)
        omega

/-- The split of a stem at its leftmost date. -/
structure Leftmost (stem name : Text) (m : Moment) : Prop where
  splits : SplitsAt stem name m
  first : ∀ other m', SplitsAt stem other m' → name.length ≤ other.length

theorem leftmost_unique {name' : Text} {m' : Moment} (one : Leftmost stem name m) (other : Leftmost stem name' m') :
    name' = name ∧ m' = m := by
  have size : name'.length = name.length := Nat.le_antisymm (other.first _ _ one.splits) (one.first _ _ other.splits)
  obtain ⟨-, -, tail, whole, -⟩ := one.splits
  have splits := one.splits
  have splits' := other.splits
  subst whole
  obtain rfl := splits_at_front splits' size
  obtain ⟨-, -, read⟩ := (splits_here_iff _ _ _).mp splits
  obtain ⟨-, -, read'⟩ := (splits_here_iff _ _ _).mp splits'
  exact ⟨rfl, Option.some.inj (read'.symm.trans read)⟩

theorem leftmost_of_split (split : splitStem? stem = some (name, m)) : Leftmost stem name m := by
  have found := split_from_leftmost [] stem
  rw [splitStem?] at split
  rw [split] at found
  exact ⟨found.1, fun other m' splits => found.2 other m' splits (Nat.zero_le _)⟩

theorem no_split_of_none (split : splitStem? stem = none) : ∀ other m', ¬ SplitsAt stem other m' := by
  have found := split_from_leftmost [] stem
  rw [splitStem?] at split
  rw [split] at found
  exact fun other m' splits => Nat.not_lt_zero _ (found other m' splits)

theorem split_stem_iff : splitStem? stem = some (name, m) ↔ Leftmost stem name m := by
  constructor
  · exact leftmost_of_split
  · intro leftmost
    cases split : splitStem? stem with
    | none => exact absurd leftmost.splits (no_split_of_none split name m)
    | some other =>
      obtain ⟨rfl, rfl⟩ := leftmost_unique leftmost (leftmost_of_split split)
      rfl

theorem stamp_plain (is : NameDate m) : '_' ∉ stamp m := by
  have shape := (stamp_text is.years) ▸ (shape_of_parts is.shaped).1
  intro member
  obtain ⟨i, there⟩ := List.mem_iff_getElem?.mp member
  have fits := (shape_at shape).2 i '_' there
  split at fits
  · revert fits
    decide
  · revert fits
    decide

def deviceEnding (device : Option Text) : Text := (device.map ('_' :: ·)).getD []

/-- A split of a stem that lies in its name is one of the name. -/
theorem splits_within_name {m' : Moment} {other : Text} (splits : SplitsAt (name ++ '_' :: tail) other m')
    (shorter : other.length < name.length) : SplitsAt name other m' := by
  obtain ⟨nonempty, is, tail', whole, starts⟩ := splits
  obtain ⟨within, rfl⟩ : ∃ within, name = other ++ '_' :: within := by
    rcases List.append_eq_append_iff.mp whole with ⟨more, rfl, -⟩ | ⟨more, rfl, rest⟩
    · simp at shorter
    · cases more with
      | nil => simp at shorter
      | cons c more =>
        obtain ⟨rfl, -⟩ := List.cons.inj rest
        exact ⟨more, rfl⟩
  rw [List.append_assoc, List.cons_append] at whole
  have behind : within ++ '_' :: tail = stamp m' ++ tail' := (List.cons.inj (List.append_cancel_left whole)).2
  -- a date that ran on beyond the name would hold the underscore behind it
  rcases List.append_eq_append_iff.mp behind with ⟨more, date, rest⟩ | ⟨more, rfl, rest⟩
  · cases more with
    | nil =>
      rw [List.append_nil] at date
      exact ⟨nonempty, is, [], by rw [date, List.append_nil], nofun⟩
    | cons c more =>
      obtain ⟨rfl, -⟩ := List.cons.inj rest
      exact absurd (date ▸ List.mem_append_right _ List.mem_cons_self) (stamp_plain is)
  · refine ⟨nonempty, is, more, rfl, fun c first => starts c ?_⟩
    rw [rest, List.head?_append, first]
    rfl

theorem leftmost_of_parts (nonempty : name ≠ []) (is : NameDate m) (none : ∀ other m', ¬ SplitsAt name other m')
    (device : Option Text) : Leftmost (name ++ '_' :: (stamp m ++ deviceEnding device)) name m := by
  refine ⟨⟨nonempty, is, _, rfl, fun c first => ?_⟩, fun other m' splits => ?_⟩
  · cases device with
    | none => cases first
    | some device => exact (Option.some.inj first).symm
  · by_contra shorter
    exact none other m' (splits_within_name splits (by omega))

end LogName

namespace CrashLog

open LogName

/-- A log is named by the leftmost date in the stem of its path, and by the whole stem when there is none. A name
without a date of its own, with a date and perhaps a device behind it, is found again. -/
theorem log_named (path : Path) :
    (∀ name m, (ofPath path).name = name ∧ (ofPath path).date = some m ↔
      Leftmost ((Path.stem? path).getD []) name m) ∧
    ((∀ name m, ¬ SplitsAt ((Path.stem? path).getD []) name m) →
      (ofPath path).name = (Path.stem? path).getD [] ∧ (ofPath path).date = none) ∧
    ∀ name m device, name ≠ [] → NameDate m → (∀ other m', ¬ SplitsAt name other m') →
      Path.stem? path = some (name ++ '_' :: (stamp m ++ deviceEnding device)) →
      (ofPath path).name = name ∧ (ofPath path).date = some m := by
  have told : (ofPath path).name = (LogName.read path).1 ∧ (ofPath path).date = (LogName.read path).2 := ⟨rfl, rfl⟩
  rw [told.1, told.2]
  have named_iff (name : Text) (m : Moment) : (LogName.read path).1 = name ∧ (LogName.read path).2 = some m ↔
      Leftmost ((Path.stem? path).getD []) name m := by
    rw [← split_stem_iff, LogName.read]
    split
    · rename_i split
      simp [split]
    · rename_i split
      simp [split]
  refine ⟨named_iff, fun none => ?_, fun name m device nonempty is none found => ?_⟩
  · rw [LogName.read]
    split
    · rename_i name m split
      exact absurd (leftmost_of_split split).splits (none name m)
    · exact ⟨rfl, rfl⟩
  · rw [named_iff, found]
    exact leftmost_of_parts nonempty is none device

/-- A thirteenth month and a date that runs on into a letter stay with the name. -/
theorem log_named_behind_false_dates :
    let path := "/Logs/_Überweg_2011-13-03-123456_2011-02-03-123456x_2012-02-29-235959_iPhone_5.crash".toList
    (ofPath path).name = "_Überweg_2011-13-03-123456_2011-02-03-123456x".toList ∧
      (ofPath path).date = some ⟨⟨2012, 2, 29⟩, ⟨86399, 0⟩⟩ := by
  intro path
  have date : NameDate ⟨⟨2012, 2, 29⟩, ⟨86399, 0⟩⟩ := ⟨by decide, by decide, by decide, rfl⟩
  have none : splitStem? "_Überweg_2011-13-03-123456_2011-02-03-123456x".toList = none := by decide +kernel
  have stem : Path.stem? path = some ("_Überweg_2011-13-03-123456_2011-02-03-123456x".toList ++
      '_' :: (stamp ⟨⟨2012, 2, 29⟩, ⟨86399, 0⟩⟩ ++ deviceEnding (some "iPhone_5".toList))) := by decide +kernel
  exact (log_named path).2.2 _ _ _ (by decide) date (no_split_of_none none) stem

end CrashLog
end CrashTriage
