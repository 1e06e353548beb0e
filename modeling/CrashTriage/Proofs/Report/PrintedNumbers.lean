import CrashTriage.Proofs.Backtrace.Headings
import CrashTriage.Report.Header

/-
Numbers of a report and the digits that they are printed in. Indices of threads and frames, the crashed thread
that a field states and the number of the process are what 32 bits keep of the printed numbers; an index that is
negative then is left out. So whatever relates printed to read numbers, it holds in a report just when it holds of
each number that is kept and what is left of it in 32 bits; they are equal just when they are below 2 ^ 31.
-/
namespace CrashTriage
namespace Sections

open Text

/-- A process value with a number in its outermost brackets. -/
structure ProcessNumber (value digits : Text) : Prop where
  place : ∃ name inner after, value = name ++ '[' :: (inner ++ ']' :: after) ∧ '[' ∉ name ∧ ']' ∉ after ∧
    trim inner = digits
  some_ : digits ≠ []
  each : ∀ c ∈ digits, isDigit c = true

variable {text value digits : Text} {thisYear : Int} {header : Header}

theorem ProcessNumber.unique {other : Text} (number : ProcessNumber value digits)
    (number' : ProcessNumber value other) : digits = other := by
  obtain ⟨name, inner, after, rfl, noOpening, noClosing, rfl⟩ := number.place
  obtain ⟨name', inner', after', same, noOpening', noClosing', rfl⟩ := number'.place
  have first := split_once_at noOpening (inner ++ ']' :: after)
  rw [same, split_once_at noOpening'] at first
  obtain ⟨rfl, behind⟩ : name' = name ∧ inner' ++ ']' :: after' = inner ++ ']' :: after := by
    simpa using first
  have last := split_last_at inner noClosing
  rw [← behind, split_last_at inner' noClosing'] at last
  obtain ⟨rfl, -⟩ : inner' = inner ∧ after' = after := by simpa using last
  rfl

/-- What stands before the last closing bracket holds all up to the first opening one. -/
theorem opened_before_closing {before rest upTo after : Text} (opened : value = before ++ '[' :: rest)
    (closed : value = upTo ++ ']' :: after) (shorter : before.length < upTo.length) :
    ∃ inner, upTo = before ++ '[' :: inner := by
  rcases List.append_eq_append_iff.mp (opened.symm.trans closed) with ⟨more, rfl, tail⟩ | ⟨more, rfl, _⟩
  · cases more with
    | nil => simp at shorter
    | cons c more =>
      obtain ⟨rfl, -⟩ := List.cons.inj tail
      exact ⟨more, rfl⟩
  · simp at shorter

theorem process_number_iff (n : Int) : (Header.splitProcess value).2 = some n ↔
    ∃ digits, ProcessNumber value digits ∧ n = readDecimal digits := by
  unfold Header.splitProcess
  constructor
  · intro read
    split at read
    · rename_i before rest upTo after opened closed
      split at read
      · rename_i shorter
        obtain ⟨whole, noOpening⟩ := split_once_some opened
        have whole' := split_last_some closed
        obtain ⟨inner, rfl⟩ := opened_before_closing whole whole' shorter
        have inside : (before ++ '[' :: inner).drop (before.length + 1) = inner := by simp
        rw [inside] at read
        dsimp only at read
        split at read
        · cases read
        · rename_i decimal
          obtain ⟨some_, each⟩ : trim inner ≠ [] ∧ ∀ c ∈ trim inner, isDigit c = true := by simpa using decimal
          have place : value = before ++ '[' :: (inner ++ ']' :: after) := by
            rw [whole', List.append_assoc, List.cons_append]
          have noClosing := split_last_free closed
          exact ⟨trim inner, ⟨⟨before, inner, after, place, noOpening, noClosing, rfl⟩, some_, each⟩,
            (Option.some.inj read).symm⟩
      · cases read
    · cases read
  · rintro ⟨digits, ⟨⟨name, inner, after, rfl, noOpening, noClosing, rfl⟩, some_, each⟩, rfl⟩
    have parts : name ++ '[' :: (inner ++ ']' :: after) = (name ++ '[' :: inner) ++ ']' :: after := by simp
    have closed := split_last_at (name ++ '[' :: inner) noClosing
    rw [← parts] at closed
    have inside : (name ++ '[' :: inner).drop (name.length + 1) = inner := by simp
    have shorter : name.length < (name ++ '[' :: inner).length := by simp
    have decimal : ((trim inner).isEmpty || !(trim inner).all isDigit) = false := by
      simpa [List.all_eq_true] using ⟨some_, each⟩
    rw [split_once_at noOpening, closed]
    dsimp only
    rw [if_pos shorter, inside, decimal]
    rfl

theorem build_parts {s : Sections} (built : Header.build s thisYear = .ok header) :
    (∃ process, s.field? "Process".toList = some process ∧ header.pid = (Header.splitProcess process).2) ∧
      ((s.field? "Crashed Thread".toList).bind Header.statedThread?).or
        ((s.threads.find? (·.crashed)).map (·.index)) = some header.crashedThread := by
  unfold Header.build at built
  dsimp only at built
  split at built
  · rename_i process found
    split at built
    · cases built
    · split at built
      · split at built
        · split at built
          · rename_i crashedThread stated
            cases built
            exact ⟨⟨process, found, rfl⟩, stated⟩
          · cases built
        · cases built
      · cases built
  · cases built

theorem stated_thread_iff (n : Nat) : Header.statedThread? value = some n ↔
    ∃ digits, Leading digits value ∧ (n : Int) = wrap32 (valueOf digits) := by
  unfold Header.statedThread?
  constructor
  · intro stated
    dsimp only at stated
    split at stated
    · cases stated
    · rename_i some_
      have leading := leading_taken some_
      exact ⟨_, leading, (leading.index_iff n).mp stated⟩
  · rintro ⟨digits, leading, same⟩
    have some_ : ¬ digits.isEmpty = true := by simpa using leading.some_
    dsimp only
    rw [leading.whole, if_neg some_]
    exact (leading.index_iff n).mpr same

theorem frame_number {line : Text} {number : Nat} {f : Frame} (read : Frame.read? line number = some f) :
    ∃ digits, Leading digits (trimStart line) ∧ (f.index : Int) = wrap32 (valueOf digits) := by
  unfold Frame.read? at read
  dsimp only at read
  split at read
  · cases read
  · rename_i some_
    have leading := leading_taken some_
    obtain ⟨index, known, read⟩ := Option.bind_eq_some_iff.mp read
    obtain ⟨cut, _, read⟩ := Option.bind_eq_some_iff.mp read
    split at read
    · cases read
    · cases read
      exact ⟨_, leading, (leading.index_iff index).mp known⟩

/-- A header that takes the crashed thread from the value of its field. -/
structure StatesThread (text : Text) (thisYear : Int) (header : Header) (value : Text) : Prop where
  built : Header.build (read text) thisYear = .ok header
  field : (read text).field? "Crashed Thread".toList = some value
  stated : Header.statedThread? value ≠ none

/-- The numbers that are read of a report, by those that are printed at their places. -/
structure NumbersRead (reads : Nat → Int → Prop) (text : Text) (thisYear : Int) : Prop where
  sections : List.Forall₂ (fun line t => ∃ digits, Thread.Heading line.1 digits t.crashed ∧
    reads (valueOf digits) t.index) (Thread.openings text) (Thread.readAll text)
  frames : ∀ t ∈ Thread.readAll text, ∀ f ∈ t.frames, ∃ line digits, (line, f.line) ∈ Thread.backtraceLines text ∧
    Leading digits (trimStart line) ∧ reads (valueOf digits) f.index
  pid : ∀ header n, Header.build (read text) thisYear = .ok header → header.pid = some n →
    ∃ value digits, (read text).field? "Process".toList = some value ∧ ProcessNumber value digits ∧
      reads (valueOf digits) n
  crashedThread : ∀ header value, StatesThread text thisYear header value →
    ∃ digits, Leading digits value ∧ reads (valueOf digits) header.crashedThread
  /-- The crash is looked for in the section that the printed number heads. -/
  crashedSection : ∀ header, Header.build (read text) thisYear = .ok header →
    ∀ line t, (line, t) ∈ (Thread.openings text).zip (Thread.readAll text) → t.index = header.crashedThread →
      ∃ digits, Thread.Heading line.1 digits t.crashed ∧ reads (valueOf digits) header.crashedThread

/-- The numbers that are left out: indices that 32 bits make negative, and no number of a process. -/
structure NumbersLeftOut (text : Text) (thisYear : Int) : Prop where
  sections : ∀ line ∈ Thread.backtraceLines text, ∀ digits crashed, Thread.Heading line.1 digits crashed →
    (line ∉ Thread.openings text ↔ wrap32 (valueOf digits) < 0)
  frames : ∀ line number digits, Leading digits (trimStart line) → wrap32 (valueOf digits) < 0 →
    Frame.read? line number = none
  pid : ∀ header value digits, Header.build (read text) thisYear = .ok header →
    (read text).field? "Process".toList = some value → ProcessNumber value digits → header.pid ≠ none
  crashedThread : ∀ value digits, Leading digits value →
    (Header.statedThread? value = none ↔ wrap32 (valueOf digits) < 0)
  /-- Without a stated thread, the first section that is marked as crashed counts. -/
  unstated : ∀ header, Header.build (read text) thisYear = .ok header →
    (∀ value, ¬ StatesThread text thisYear header value) →
      ∃ t, (Thread.readAll text).find? (·.crashed) = some t ∧ header.crashedThread = t.index

/-- Something holds of the printed numbers that are read. -/
structure NumbersKept (holds : Nat → Prop) (text : Text) (thisYear : Int) : Prop where
  sections : ∀ line ∈ Thread.openings text, ∀ digits crashed, Thread.Heading line.1 digits crashed →
    holds (valueOf digits)
  frames : ∀ t ∈ Thread.readAll text, ∀ f ∈ t.frames, ∀ line digits, (line, f.line) ∈ Thread.backtraceLines text →
    Leading digits (trimStart line) → holds (valueOf digits)
  pid : ∀ header value digits, Header.build (read text) thisYear = .ok header →
    (read text).field? "Process".toList = some value → ProcessNumber value digits → holds (valueOf digits)
  crashedThread : ∀ header value digits, StatesThread text thisYear header value → Leading digits value →
    holds (valueOf digits)

theorem section_read {line : Text × Nat} {t : Thread} (opened : Thread.opened? line = some t.key) :
    ∃ digits, Thread.Heading line.1 digits t.crashed ∧ (t.index : Int) = wrap32 (valueOf digits) := by
  obtain ⟨digits, heading, known⟩ := Thread.opened_iff.mp opened
  obtain ⟨rest, _, leading, _⟩ := id heading
  exact ⟨digits, heading, (leading.index_iff t.index).mp known⟩

theorem frame_read {t : Thread} {f : Frame} (member : t ∈ Thread.readAll text) (inside : f ∈ t.frames) :
    ∃ line digits, (line, f.line) ∈ Thread.backtraceLines text ∧ Leading digits (trimStart line) ∧
      (f.index : Int) = wrap32 (valueOf digits) := by
  have frame : f ∈ Thread.framesFrom false (Thread.backtraceLines text) := by
    rw [← Thread.read_all_frames]
    exact List.mem_flatMap.mpr ⟨t, member, inside⟩
  obtain ⟨⟨line, number⟩, there, rfl, read⟩ := Thread.mem_frames_from frame
  obtain ⟨digits, leading, index⟩ := frame_number read
  exact ⟨line, digits, there, leading, index⟩

theorem pid_of_number (built : Header.build (read text) thisYear = .ok header)
    (field : (read text).field? "Process".toList = some value) (number : ProcessNumber value digits) :
    header.pid = some (wrap32 (valueOf digits)) := by
  obtain ⟨⟨process, field', pid⟩, -⟩ := build_parts built
  obtain rfl : value = process := Option.some.inj (field.symm.trans field')
  rw [pid, process_number_iff]
  exact ⟨digits, number, (read_decimal_wraps number.each).symm⟩

theorem pid_read {n : Int} (built : Header.build (read text) thisYear = .ok header)
    (pid : header.pid = some n) : ∃ value digits, (read text).field? "Process".toList = some value ∧
      ProcessNumber value digits ∧ n = wrap32 (valueOf digits) := by
  obtain ⟨⟨value, field, same⟩, -⟩ := build_parts built
  obtain ⟨digits, number, read⟩ := (process_number_iff n).mp (same.symm.trans pid)
  exact ⟨value, digits, field, number, read.trans (read_decimal_wraps number.each)⟩

theorem crashed_thread_read (states : StatesThread text thisYear header value) :
    ∃ digits, Leading digits value ∧ (header.crashedThread : Int) = wrap32 (valueOf digits) := by
  obtain ⟨-, crashed⟩ := build_parts states.built
  obtain ⟨n, stated⟩ := Option.ne_none_iff_exists'.mp states.stated
  rw [states.field, Option.bind_some, stated, Option.some_or] at crashed
  obtain rfl := Option.some.inj crashed
  exact (stated_thread_iff _).mp stated

theorem numbers_of_kept (reads : Nat → Int → Prop)
    (kept : NumbersKept (fun printed => reads printed (wrap32 printed)) text thisYear) :
    NumbersRead reads text thisYear := by
  have sections : List.Forall₂ (fun line t => ∃ digits, Thread.Heading line.1 digits t.crashed ∧
      reads (valueOf digits) t.index) (Thread.openings text) (Thread.readAll text) := by
    obtain ⟨lengths, each⟩ := List.forall₂_iff_zip.mp (Thread.sections_opened text)
    refine List.forall₂_iff_zip.mpr ⟨lengths, fun {line t} paired => ?_⟩
    obtain ⟨digits, heading, index⟩ := section_read (each paired)
    rw [index]
    exact ⟨digits, heading, kept.sections line (List.of_mem_zip paired).1 digits t.crashed heading⟩
  constructor
  · exact sections
  · intro t member f inside
    obtain ⟨line, digits, there, leading, index⟩ := frame_read member inside
    rw [index]
    exact ⟨line, digits, there, leading, kept.frames t member f inside line digits there leading⟩
  · intro header n built pid
    obtain ⟨value, digits, field, number, same⟩ := pid_read built pid
    rw [same]
    exact ⟨value, digits, field, number, kept.pid header value digits built field number⟩
  · intro header value states
    obtain ⟨digits, leading, index⟩ := crashed_thread_read states
    rw [index]
    exact ⟨digits, leading, kept.crashedThread header value digits states leading⟩
  · intro header built line t paired same
    rw [← same]
    exact (List.forall₂_iff_zip.mp sections).2 paired

/-- At each place there is only one printed number. -/
theorem kept_of_numbers (reads : Nat → Int → Prop) (numbers : NumbersRead reads text thisYear) :
    NumbersKept (fun printed => reads printed (wrap32 printed)) text thisYear := by
  constructor
  · intro line opening digits crashed heading
    obtain ⟨t, ⟨printed, heading', told⟩, opened⟩ :=
      Readings.read_both numbers.sections (Thread.sections_opened text) opening
    obtain ⟨other, heading'', index⟩ := section_read opened
    obtain rfl := heading.digits_unique heading'
    obtain rfl := heading.digits_unique heading''
    rwa [index] at told
  · intro t member f inside line digits there leading
    obtain ⟨line', digits', there', leading', told⟩ := numbers.frames t member f inside
    obtain ⟨line'', digits'', there'', leading'', index⟩ := frame_read member inside
    have ascend := Thread.backtrace_lines_ascend text
    obtain rfl : line = line' := congrArg Prod.fst (Thread.line_unique ascend there there' rfl)
    obtain rfl : line = line'' := congrArg Prod.fst (Thread.line_unique ascend there there'' rfl)
    obtain rfl := leading.unique leading'
    obtain rfl := leading.unique leading''
    rwa [index] at told
  · intro header value digits built field number
    obtain ⟨value', digits', field', number', told⟩ :=
      numbers.pid header _ built (pid_of_number built field number)
    obtain rfl : value = value' := Option.some.inj (field.symm.trans field')
    obtain rfl := number.unique number'
    exact told
  · intro header value digits states leading
    obtain ⟨digits', leading', told⟩ := numbers.crashedThread header value states
    obtain ⟨digits'', leading'', index⟩ := crashed_thread_read states
    obtain rfl := leading.unique leading'
    obtain rfl := leading.unique leading''
    rwa [index] at told

theorem kept_of_all {holds : Nat → Prop} (all : ∀ printed, holds printed) : NumbersKept holds text thisYear := by
  constructor <;> intros <;> exact all _

/-- A number is left out when no index is what 32 bits keep of it. -/
theorem left_out_iff (printed : Nat) : (∀ n : Nat, (n : Int) ≠ wrap32 printed) ↔ wrap32 printed < 0 := by
  constructor
  · intro none
    have index := none (wrap32 printed).toNat
    omega
  · intro negative n
    omega

theorem numbers_left_out (text : Text) (thisYear : Int) : NumbersLeftOut text thisYear := by
  constructor
  · intro line there digits crashed heading
    rw [← left_out_iff]
    obtain ⟨rest, _, leading, _⟩ := id heading
    constructor
    · intro absent n same
      refine absent (List.mem_filter.mpr ⟨there, ?_⟩)
      rw [Thread.opened_iff.mpr ⟨digits, heading, (leading.index_iff n).mpr same⟩]
      rfl
    · intro none opening
      obtain ⟨⟨index, mark⟩, opened⟩ := Option.isSome_iff_exists.mp (List.mem_filter.mp opening).2
      obtain ⟨other, heading', known⟩ := Thread.opened_iff.mp opened
      obtain rfl := heading.digits_unique heading'
      exact none index ((leading.index_iff index).mp known)
  · intro line number digits leading negative
    cases read : Frame.read? line number with
    | none => rfl
    | some f =>
      obtain ⟨other, leading', index⟩ := frame_number read
      obtain rfl := leading.unique leading'
      exact absurd index ((left_out_iff _).mpr negative f.index)
  · intro header value digits built field number
    rw [pid_of_number built field number]
    exact Option.some_ne_none _
  · intro value digits leading
    rw [← left_out_iff, Option.eq_none_iff_forall_ne_some]
    constructor
    · intro none n same
      exact none n ((stated_thread_iff n).mpr ⟨digits, leading, same⟩)
    · intro none n stated
      obtain ⟨other, leading', same⟩ := (stated_thread_iff n).mp stated
      obtain rfl := leading.unique leading'
      exact none n same
  · intro header built unstated
    obtain ⟨-, crashed⟩ := build_parts built
    have none : ((read text).field? "Crashed Thread".toList).bind Header.statedThread? = none := by
      rw [Option.bind_eq_none_iff]
      intro value field
      by_contra stated
      exact unstated value ⟨built, field, stated⟩
    rw [none, Option.none_or] at crashed
    obtain ⟨t, found, index⟩ := Option.map_eq_some_iff.mp crashed
    exact ⟨t, found, index.symm⟩

/-- The numbers of a report are what 32 bits keep of the printed ones, where that is an index. They are the printed
ones just when those that are read are below 2 ^ 31. -/
theorem numbers_printed_iff (text : Text) (thisYear : Int) :
    NumbersRead (fun printed n => n = wrap32 printed) text thisYear ∧ NumbersLeftOut text thisYear ∧
      (NumbersRead (fun printed n => n = printed) text thisYear ↔
        NumbersKept (fun printed => printed < 2 ^ 31) text thisYear) := by
  have fits : (fun printed : Nat => wrap32 printed = printed) = fun printed => printed < 2 ^ 31 :=
    funext fun printed => propext (wrap_eq_self_iff printed)
  refine ⟨?_, numbers_left_out text thisYear, ?_⟩
  · exact numbers_of_kept (fun printed n => n = wrap32 printed) (kept_of_all fun _ => rfl)
  · rw [← fits]
    constructor
    · exact kept_of_numbers fun printed n => n = printed
    · exact numbers_of_kept fun printed n => n = printed

/-- A crash in thread 2 ^ 32 of a process, whose sections are those of its threads 0 and 1. -/
def overflowingReport : Text :=
  ["Process: Demo [7]", "Date/Time: 2011-02-03 12:00:30", "Crashed Thread: 4294967296", "", "Thread 0:",
    "0   App   0x1010 0x1000 + 16", "", "Thread 1 Crashed:", "0   Foo   0x2010 0x2000 + 16"].flatMap
      fun line => line.toList ++ ['\n']

theorem crashed_thread_of_other_number :
    (Header.build (read overflowingReport) 2011).map (·.crashedThread) = .ok 0 ∧
      (read overflowingReport).field? "Crashed Thread".toList = some "4294967296".toList ∧
      (Thread.readAll overflowingReport).map (·.key) = [(0, false), (1, true)] ∧
      ¬ NumbersRead (fun printed n => n = printed) overflowingReport 2011 := by
  have built : (Header.build (read overflowingReport) 2011).map (·.crashedThread) = .ok 0 := by
    decide +kernel
  have field : (read overflowingReport).field? "Crashed Thread".toList = some "4294967296".toList := by
    decide +kernel
  refine ⟨built, field, by decide +kernel, fun exact_ => ?_⟩
  obtain ⟨header, ok, zero⟩ := Readings.map_ok.mp built
  have states : StatesThread overflowingReport 2011 header "4294967296".toList := ⟨ok, field, by decide⟩
  have whole : Leading "4294967296".toList "4294967296".toList := ⟨by decide, by decide⟩
  obtain ⟨digits, leading, same⟩ := exact_.crashedThread header _ states
  obtain rfl := whole.unique leading
  rw [zero] at same
  exact absurd same (by decide)

end Sections
end CrashTriage
