import CrashTriage.Proofs.Backtrace.Frames

/-
Reports whose frame lines are written anew. Where each new line still holds its frame, with another
detail perhaps, and every other line is kept, the threads are the same but for those details.
-/
namespace CrashTriage
namespace Thread

open Text

def mapFrames (renew : Frame → Frame) (t : Thread) : Thread := { t with frames := t.frames.map renew }

def Progress.mapFrames (renew : Frame → Frame) (p : Progress) : Progress :=
  { p with sections := p.sections.map (Thread.mapFrames renew) }

/-- New lines for the lines of a report with some frames. -/
structure Rewrites (renew : Frame → Frame) (new : Text × Nat → Text) (frames : List Frame)
    (lines : List (Text × Nat)) : Prop where
  kept : ∀ line ∈ lines, (∀ f ∈ frames, f.line ≠ line.2) → new line = line.1
  other : ∀ line ∈ lines, ∀ f ∈ frames, f.line = line.2 →
    BacktraceLine.ofLine (new line) = .other (new line)
  read : ∀ line ∈ lines, ∀ f ∈ frames, f.line = line.2 →
    Frame.read? (new line) line.2 = some (renew f)

section Renewal

variable {renew : Frame → Frame} {new : Text × Nat → Text}

theorem add_frame_map (f : Frame) (sections : List Thread) :
    addFrame (renew f) (sections.map (mapFrames renew)) = (addFrame f sections).map (mapFrames renew) := by
  cases sections with
  | nil => rfl
  | cons t rest => simp [addFrame, mapFrames]

theorem step_in_stack (p : Progress) (line : Text × Nat) :
    (p.step line).inStack = openAfter p.inStack line.1 := by
  unfold Progress.step openAfter
  cases BacktraceLine.ofLine line.1 with
  | other text =>
    dsimp only
    split
    · split <;> rfl
    · rfl
  | _ => rfl

theorem step_kept (p : Progress) {line : Text × Nat} (none : frameAt? p.inStack line = none) :
    (p.mapFrames renew).step line = (p.step line).mapFrames renew := by
  unfold frameAt? at none
  unfold Progress.step
  cases kind : BacktraceLine.ofLine line.1 with
  | other text =>
    obtain rfl := other_line kind
    simp only [kind] at none
    cases isOpen : p.inStack with
    | true =>
      rw [isOpen, if_pos rfl] at none
      simp only [Progress.mapFrames, isOpen, if_true, none]
    | false => simp [Progress.mapFrames, isOpen]
  | _ => simp [Progress.mapFrames, mapFrames]

theorem step_renewed (p : Progress) {line : Text × Nat} {f : Frame} {text : Text}
    (found : frameAt? p.inStack line = some f) (other : BacktraceLine.ofLine text = .other text)
    (read : Frame.read? text line.2 = some (renew f)) :
    (p.mapFrames renew).step (text, line.2) = (p.step line).mapFrames renew := by
  obtain ⟨isOpen, old, _⟩ := frame_at_some found
  have kind : BacktraceLine.ofLine line.1 = .other line.1 := by
    obtain ⟨h, rest, _, whole, _⟩ := head_of_read old
    rw [whole]
    exact h.line_kind rest
  simp only [Progress.step, kind, other, Progress.mapFrames, isOpen, if_true, old, read, add_frame_map]

theorem first_line_frames {inStack : Bool} {line : Text × Nat} {rest : List (Text × Nat)}
    (ascend : (line :: rest).Pairwise fun a b => a.2 < b.2) {f : Frame}
    (member : f ∈ framesFrom inStack (line :: rest)) (here : f.line = line.2) :
    frameAt? inStack line = some f := by
  rcases List.mem_append.mp member with first | later
  · exact Option.mem_toList.mp first
  · obtain ⟨other, there, number, _⟩ := mem_frames_from later
    have above := (List.pairwise_cons.mp ascend).1 other there
    omega

theorem rewrites_rest {inStack : Bool} {line : Text × Nat} {rest : List (Text × Nat)}
    (ascend : (line :: rest).Pairwise fun a b => a.2 < b.2)
    (rewrites : Rewrites renew new (framesFrom inStack (line :: rest)) (line :: rest)) :
    Rewrites renew new (framesFrom (openAfter inStack line.1) rest) rest where
  kept other there none := by
    refine rewrites.kept other (List.mem_cons_of_mem _ there) fun f member => ?_
    rcases List.mem_append.mp member with first | later
    · obtain ⟨_, _, same⟩ := frame_at_some (Option.mem_toList.mp first)
      have above := (List.pairwise_cons.mp ascend).1 other there
      omega
    · exact none f later
  other line there f member :=
    rewrites.other line (List.mem_cons_of_mem _ there) f (List.mem_append_right _ member)
  read line there f member :=
    rewrites.read line (List.mem_cons_of_mem _ there) f (List.mem_append_right _ member)

theorem run_renewed (p : Progress) (lines : List (Text × Nat))
    (ascend : lines.Pairwise fun a b => a.2 < b.2)
    (rewrites : Rewrites renew new (framesFrom p.inStack lines) lines) :
    (lines.map fun line => (new line, line.2)).foldl Progress.step (p.mapFrames renew) =
      (lines.foldl Progress.step p).mapFrames renew := by
  induction lines generalizing p with
  | nil => rfl
  | cons line rest ih =>
    have here : line ∈ line :: rest := List.mem_cons_self
    have stepped : (p.mapFrames renew).step (new line, line.2) = (p.step line).mapFrames renew := by
      cases found : frameAt? p.inStack line with
      | none =>
        have same : new line = line.1 := rewrites.kept line here fun f member number => by
          have some := first_line_frames ascend member number
          rw [found] at some
          contradiction
        rw [same]
        exact step_kept p found
      | some f =>
        have member : f ∈ framesFrom p.inStack (line :: rest) :=
          List.mem_append_left _ (Option.mem_toList.mpr found)
        have number := (frame_at_some found).2.2
        exact step_renewed p found (rewrites.other line here f member number)
          (rewrites.read line here f member number)
    have later := rewrites_rest ascend rewrites
    rw [← step_in_stack] at later
    rw [List.map_cons, List.foldl_cons, List.foldl_cons, stepped]
    exact ih (p.step line) (List.pairwise_cons.mp ascend).2 later

theorem assign_names_map (names : List (Nat × Text)) (sections : List Thread) :
    assignNames names (sections.map (mapFrames renew)) =
      (assignNames names sections).map (mapFrames renew) := by
  induction sections generalizing names with
  | nil => rfl
  | cons t rest ih =>
    have index : (mapFrames renew t).index = t.index := rfl
    rw [List.map_cons, assignNames, index, ih]
    rfl

theorem read_all_renewed {text out : Text}
    (lines : backtraceLines out = (backtraceLines text).map fun line => (new line, line.2))
    (rewrites : Rewrites renew new (framesFrom false (backtraceLines text)) (backtraceLines text)) :
    readAll out = (readAll text).map (mapFrames renew) := by
  have run := run_renewed Progress.start (backtraceLines text) (backtrace_lines_ascend text) rewrites
  rw [← lines] at run
  have start : Progress.start.mapFrames renew = Progress.start := rfl
  rw [start] at run
  rw [readAll, readAll, run]
  dsimp only [Progress.mapFrames]
  rw [← List.map_reverse, assign_names_map]

end Renewal

end Thread
end CrashTriage
