import CrashTriage.Proofs.Backtrace.Frames
import CrashTriage.Proofs.Text.Digits

/-
Lines that head the sections of a report. A section is opened by each heading whose number, or what 32 bits keep
of it, is an index, and by no other line; the sections come in the order of their headings.
-/
namespace CrashTriage

open Text

namespace Thread

def headingMark (crashed : Bool) : Text := if crashed then "Crashed:".toList else [':']

/-- A line that heads a section, with the digits of its number. -/
def Heading (line digits : Text) (crashed : Bool) : Prop :=
  ∃ rest, line = "Thread ".toList ++ rest ∧ Leading digits rest ∧
    trim (rest.dropWhile isDigit) = headingMark crashed

variable {line digits rest text : Text} {crashed : Bool} {index : Nat}

theorem Heading.digits_unique {other : Text} {crashed' : Bool} (heading : Heading line digits crashed)
    (heading' : Heading line other crashed') : digits = other := by
  obtain ⟨rest, rfl, leading, _⟩ := heading
  obtain ⟨rest', same, leading', _⟩ := heading'
  obtain rfl : rest = rest' := List.append_cancel_left same
  exact leading.unique leading'

theorem read_stack_iff : BacktraceLine.readHeading? rest = some (.stack index crashed) ↔
    ∃ digits, Leading digits rest ∧ readIndex? digits = some index ∧
      trim (rest.dropWhile isDigit) = headingMark crashed := by
  unfold BacktraceLine.readHeading?
  dsimp only
  rw [drop_taken]
  constructor
  · intro read
    split at read
    · cases read
    · rename_i some_
      obtain ⟨n, known, read⟩ := Option.bind_eq_some_iff.mp read
      refine ⟨rest.takeWhile isDigit, leading_taken some_, ?_⟩
      split at read
      · rename_i mark
        cases read
        exact ⟨known, mark⟩
      · split at read
        · rename_i mark
          cases read
          exact ⟨known, mark⟩
        · repeat' split at read
          all_goals cases read
  · rintro ⟨digits, ⟨some_, rfl⟩, known, mark⟩
    have nonempty : (rest.takeWhile isDigit).isEmpty = false := by simpa using some_
    rw [nonempty, known, mark]
    cases crashed <;> rfl

theorem stack_line_iff : BacktraceLine.ofLine line = .stack index crashed ↔
    ∃ digits, Heading line digits crashed ∧ readIndex? digits = some index := by
  unfold BacktraceLine.ofLine
  constructor
  · intro kind
    split at kind
    · rename_i heading found
      obtain ⟨rest, stripped, read⟩ := Option.bind_eq_some_iff.mp found
      rw [kind] at read
      obtain ⟨digits, leading, known, mark⟩ := read_stack_iff.mp read
      exact ⟨digits, ⟨rest, (strip_eq_some_iff _ _ _).mp stripped, leading, mark⟩, known⟩
    · split at kind <;> cases kind
  · rintro ⟨digits, ⟨rest, rfl, leading, mark⟩, known⟩
    have read := read_stack_iff.mpr ⟨digits, leading, known, mark⟩
    rw [(strip_eq_some_iff _ _ _).mpr rfl, Option.bind_some, read]

/-- What a line says of the section that it opens. -/
def opened? (line : Text × Nat) : Option (Nat × Bool) :=
  match BacktraceLine.ofLine line.1 with
  | .stack index crashed => some (index, crashed)
  | _ => none

/-- The lines of a report that open a section. -/
def openings (text : Text) : List (Text × Nat) := (backtraceLines text).filter fun line => (opened? line).isSome

def key (t : Thread) : Nat × Bool := (t.index, t.crashed)

theorem opened_iff {line : Text × Nat} : opened? line = some (index, crashed) ↔
    ∃ digits, Heading line.1 digits crashed ∧ readIndex? digits = some index := by
  rw [← stack_line_iff, opened?]
  cases BacktraceLine.ofLine line.1 <;> simp

theorem add_frame_keys (f : Frame) (sections : List Thread) :
    (addFrame f sections).map key = sections.map key := by
  cases sections <;> rfl

theorem step_keys (p : Progress) (line : Text × Nat) :
    (p.step line).sections.reverse.map key = p.sections.reverse.map key ++ (opened? line).toList := by
  unfold Progress.step opened?
  cases BacktraceLine.ofLine line.1 with
  | stack index crashed => simp [key]
  | other text =>
    dsimp only
    split
    · split
      · rw [List.map_reverse, add_frame_keys, List.map_reverse, Option.toList_none, List.append_nil]
      · simp
    · simp
  | _ => simp

theorem run_keys (p : Progress) (lines : List (Text × Nat)) :
    (lines.foldl Progress.step p).sections.reverse.map key =
      p.sections.reverse.map key ++ lines.filterMap opened? := by
  induction lines generalizing p with
  | nil => simp
  | cons line lines ih =>
    rw [List.foldl_cons, ih, step_keys, List.append_assoc, List.filterMap_cons]
    cases opened? line <;> rfl

theorem assign_names_keys (names : List (Nat × Text)) (sections : List Thread) :
    (assignNames names sections).map key = sections.map key := by
  induction sections generalizing names with
  | nil => rfl
  | cons t rest ih => rw [assignNames, List.map_cons, List.map_cons, ih]; rfl

theorem read_all_keys (text : Text) : (readAll text).map key = (backtraceLines text).filterMap opened? := by
  rw [readAll, assign_names_keys, run_keys]
  rfl

/-- Each section is the one that its line opens. -/
theorem sections_opened (text : Text) :
    List.Forall₂ (fun line t => opened? line = some (key t)) (openings text) (readAll text) :=
  Readings.paired_of_some (read_all_keys text)

end Thread
end CrashTriage
