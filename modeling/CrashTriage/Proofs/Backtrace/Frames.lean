import CrashTriage.Proofs.Backtrace.FrameLine
import CrashTriage.Proofs.Lists
import CrashTriage.Proofs.Text.Lines
import Mathlib.Data.List.Nodup

/-
The frames of a report, line by line. While a stack is open a line can hold one frame, and what it
holds depends on nothing but the line; so frames stand on different lines, in the order of the lines.
-/
namespace CrashTriage
namespace Thread

open Text

/-- Is a stack open after a line? -/
def openAfter (inStack : Bool) (line : Text) : Bool :=
  match BacktraceLine.ofLine line with
  | .stack _ _ => true
  | .other _ => inStack
  | _ => false

/-- The frame on a line; there is none while no stack is open. -/
def frameAt? (inStack : Bool) (line : Text × Nat) : Option Frame :=
  match BacktraceLine.ofLine line.1 with
  | .other _ => if inStack then Frame.read? line.1 line.2 else none
  | _ => none

def framesFrom (inStack : Bool) : List (Text × Nat) → List Frame
  | [] => []
  | line :: rest => (frameAt? inStack line).toList ++ framesFrom (openAfter inStack line.1) rest

def framesOf (sections : List Thread) : List Frame := sections.reverse.flatMap (·.frames)

theorem other_line {line text : Text} (kind : BacktraceLine.ofLine line = .other text) : text = line := by
  unfold BacktraceLine.ofLine at kind
  split at kind
  · rename_i heading found
    obtain ⟨rest, _, read⟩ := Option.bind_eq_some_iff.mp found
    subst kind
    unfold BacktraceLine.readHeading? at read
    dsimp only at read
    split at read
    · contradiction
    obtain ⟨index, _, read⟩ := Option.bind_eq_some_iff.mp read
    repeat' split at read
    all_goals cases read
  · split at kind
    · contradiction
    · cases kind
      rfl

theorem frames_of_add (f : Frame) (t : Thread) (rest : List Thread) :
    framesOf (addFrame f (t :: rest)) = framesOf (t :: rest) ++ [f] := by
  simp [framesOf, addFrame]

/-- An open stack has a section that frames can be added to. -/
def Progress.Ready (p : Progress) : Prop := p.inStack = true → p.sections ≠ []

theorem step_frames (p : Progress) (line : Text × Nat) (ready : p.Ready) :
    (p.step line).inStack = openAfter p.inStack line.1 ∧ (p.step line).Ready ∧
      framesOf (p.step line).sections = framesOf p.sections ++ (frameAt? p.inStack line).toList := by
  unfold Progress.step openAfter frameAt? Progress.Ready
  cases kind : BacktraceLine.ofLine line.1 with
  | stack index crashed => simp [framesOf]
  | naming index name => simp
  | state => simp
  | blank => simp
  | other text =>
    obtain rfl := other_line kind
    dsimp only
    cases isOpen : p.inStack with
    | false => simp [isOpen]
    | true =>
      obtain ⟨t, rest, sections⟩ := List.exists_cons_of_ne_nil (ready isOpen)
      cases Frame.read? line.1 line.2 with
      | none => simp [isOpen, sections]
      | some frame =>
        have added := frames_of_add frame t rest
        simp only [if_true, sections, added, Option.toList_some]
        simp [addFrame]

theorem run_frames (p : Progress) (lines : List (Text × Nat)) (ready : p.Ready) :
    framesOf (lines.foldl Progress.step p).sections =
      framesOf p.sections ++ framesFrom p.inStack lines := by
  induction lines generalizing p with
  | nil => simp [framesFrom]
  | cons line rest ih =>
    obtain ⟨inStack, still, frames⟩ := step_frames p line ready
    rw [List.foldl_cons, ih _ still, inStack, frames, framesFrom, List.append_assoc]

theorem assign_names_frames (names : List (Nat × Text)) (sections : List Thread) :
    (assignNames names sections).flatMap (·.frames) = sections.flatMap (·.frames) := by
  induction sections generalizing names with
  | nil => rfl
  | cons t rest ih => rw [assignNames, List.flatMap_cons, List.flatMap_cons, ih]

theorem read_all_frames (text : Text) :
    (readAll text).flatMap (·.frames) = framesFrom false (backtraceLines text) := by
  have ready : Progress.start.Ready := fun isOpen => nomatch isOpen
  rw [readAll, assign_names_frames]
  exact run_frames Progress.start (backtraceLines text) ready

theorem frame_at_some {inStack : Bool} {line : Text × Nat} {f : Frame}
    (found : frameAt? inStack line = some f) :
    inStack = true ∧ Frame.read? line.1 line.2 = some f ∧ f.line = line.2 := by
  unfold frameAt? at found
  split at found
  · split at found
    · rename_i isOpen
      obtain ⟨h, rest, _, _, rfl⟩ := head_of_read found
      exact ⟨isOpen, found, rfl⟩
    · contradiction
  · contradiction

theorem mem_frames_from {inStack : Bool} {lines : List (Text × Nat)} {f : Frame}
    (member : f ∈ framesFrom inStack lines) :
    ∃ line ∈ lines, line.2 = f.line ∧ Frame.read? line.1 f.line = some f := by
  induction lines generalizing inStack with
  | nil => contradiction
  | cons line rest ih =>
    rcases List.mem_append.mp member with here | later
    · obtain ⟨_, read, same⟩ := frame_at_some (Option.mem_toList.mp here)
      exact ⟨line, List.mem_cons_self, same.symm, same.symm ▸ read⟩
    · obtain ⟨other, there, facts⟩ := ih later
      exact ⟨other, List.mem_cons_of_mem _ there, facts⟩

theorem frames_ascend {inStack : Bool} {lines : List (Text × Nat)}
    (ascend : lines.Pairwise fun a b => a.2 < b.2) :
    (framesFrom inStack lines).Pairwise fun f g => f.line < g.line := by
  induction lines generalizing inStack with
  | nil => exact .nil
  | cons line rest ih =>
    obtain ⟨above, ascendRest⟩ := List.pairwise_cons.mp ascend
    rw [framesFrom, List.pairwise_append]
    refine ⟨?_, ih ascendRest, ?_⟩
    · cases frameAt? inStack line with
      | none => exact .nil
      | some f => exact List.pairwise_singleton _ f
    · intro f here g later
      obtain ⟨_, _, same⟩ := frame_at_some (Option.mem_toList.mp here)
      obtain ⟨other, there, number, _⟩ := mem_frames_from later
      have below := above other there
      omega

theorem line_unique {lines : List (Text × Nat)} (ascend : lines.Pairwise fun a b => a.2 < b.2)
    {line other : Text × Nat} (there : line ∈ lines) (there' : other ∈ lines) (same : line.2 = other.2) :
    line = other := by
  have distinct : (lines.map (·.2)).Nodup := List.pairwise_map.mpr (ascend.imp Nat.ne_of_lt)
  exact List.inj_on_of_nodup_map distinct there there' same

theorem frame_read_here {inStack : Bool} {lines : List (Text × Nat)}
    (ascend : lines.Pairwise fun a b => a.2 < b.2) {line : Text × Nat} (there : line ∈ lines) {f : Frame}
    (member : f ∈ framesFrom inStack lines) (number : f.line = line.2) :
    Frame.read? line.1 line.2 = some f := by
  obtain ⟨other, otherThere, same, read⟩ := mem_frames_from member
  obtain rfl := line_unique ascend otherThere there (same.trans number)
  exact same ▸ read

theorem closed_without_heading {line : Text} (plain : startsWith line "Thread ".toList = false) :
    openAfter false line = false := by
  rw [openAfter, BacktraceLine.ofLine, strip_none_of_other_start plain]
  dsimp only [Option.bind_none]
  cases allBlank line <;> rfl

/-- No stack is open before the first line that starts as a heading does. -/
theorem frames_after_heading {lines : List (Text × Nat)}
    (ascend : lines.Pairwise fun a b => a.2 < b.2) {f : Frame} (member : f ∈ framesFrom false lines) :
    ∀ line ∈ lines.takeWhile fun line => !startsWith line.1 "Thread ".toList, line.2 < f.line := by
  induction lines with
  | nil => simp
  | cons first rest ih =>
    intro line before
    cases heading : startsWith first.1 "Thread ".toList with
    | true =>
      rw [List.takeWhile_cons_of_neg (by rw [heading]; decide)] at before
      contradiction
    | false =>
      have closed : frameAt? false first = none := by
        unfold frameAt?
        split <;> rfl
      rw [framesFrom, closed, closed_without_heading heading] at member
      have later : f ∈ framesFrom false rest := member
      rw [List.takeWhile_cons_of_pos (by rw [heading]; rfl)] at before
      obtain ⟨above, ascendRest⟩ := List.pairwise_cons.mp ascend
      rcases List.mem_cons.mp before with rfl | among
      · obtain ⟨other, there, number, _⟩ := mem_frames_from later
        have order := above other there
        omega
      · exact ih ascendRest later line among

/-- A line before the image table is cut out alike by both readings of line ends. -/
theorem backtrace_line_at {text : Text} {line : Text × Nat} (member : line ∈ backtraceLines text) :
    ∃ piece, (pieces text)[line.2]? = some piece ∧ line.1 = (Line.ofPiece piece).body ∧
      line.1 = dropEndWhile (· == '\r') (chompPiece piece) := by
  have numbered := (List.takeWhile_sublist _).mem member
  have there := List.mem_zipIdx_iff_getElem?.mp numbered
  rw [fullLines, List.map_map, List.getElem?_map] at there
  obtain ⟨piece, found, body⟩ := Option.map_eq_some_iff.mp there
  have cut := body_of_chomped (pieces_cut text) (List.mem_of_getElem? found)
  exact ⟨piece, found, body.symm, body.symm.trans cut⟩

theorem backtrace_lines_ascend (text : Text) :
    (backtraceLines text).Pairwise fun a b => a.2 < b.2 :=
  (Numbered.ascending _ 0).sublist (List.takeWhile_sublist _)

end Thread
end CrashTriage
