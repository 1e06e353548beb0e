import CrashTriage.Proofs.Symbol.ExactEdits

/-
The lines of a report after symbolication. Where no name holds a line feed, lines stay lines: each
keeps its number and its ends, and an edited one is a head with another rest.
-/
namespace CrashTriage
namespace Symbolication

open Text

variable {images : List Image} {source : Image → Option SymbolTable} {text : Text}

/-- No name holds a line feed. -/
def SingleLineNames (source : Image → Option SymbolTable) : Prop :=
  ∀ image table, source image = some table → ∀ s ∈ table.symbols, '\n' ∉ s.2

theorem follows_written (found : Text × Nat) : FollowsWord (written found) := by
  intro c first
  obtain rfl : ' ' = c := by simpa [written] using first
  decide

theorem of_nat_digits (n : Nat) :
    ∃ front last, ofNat n = front ++ [last] ∧ ∀ c ∈ ofNat n, isEnd c = false := by
  have some : ofNat n ≠ [] := Nat.toDigits_ne_nil
  refine ⟨(ofNat n).dropLast, (ofNat n).getLast some, (List.dropLast_append_getLast some).symm, ?_⟩
  intro c member
  have digit : c.isDigit = true := Nat.isDigit_of_mem_toDigits (by decide) (by decide) member
  rw [isEnd, Bool.or_eq_false_iff, beq_eq_false_iff_ne, beq_eq_false_iff_ne]
  constructor <;> rintro rfl <;> revert digit <;> decide

theorem written_stops (front : Text) (found : Text × Nat) (c : Char)
    (last : (front ++ written found).getLast? = some c) : isEnd c = false := by
  obtain ⟨digits, digit, whole, none⟩ := of_nat_digits found.2
  have same : front ++ written found =
      (front ++ ' ' :: found.1 ++ " + ".toList ++ digits) ++ [digit] := by
    simp [written, whole]
  rw [same, List.getLast?_concat, Option.some.injEq] at last
  exact none c (by simp [whole, last])

theorem written_single_line {found : Text × Nat} (free : '\n' ∉ found.1) : '\n' ∉ written found := by
  obtain ⟨_, _, _, none⟩ := of_nat_digits found.2
  have digits : '\n' ∉ ofNat found.2 := fun feed => by simpa [isEnd] using none '\n' feed
  simp [written, free, digits]

theorem found_single_line (names : SingleLineNames source) {f : Frame} {found : Text × Nat}
    (good : outcome images (tableIn images source text) f = .ok found) : '\n' ∉ found.1 := by
  have fares := fares_outcome images (tableIn images source text) f
  rw [good] at fares
  obtain _ | _ | _ | ⟨image, t, start, name, distance, _, answer, there, _⟩ := fares
  obtain ⟨first, _, given⟩ := Option.bind_eq_some_iff.mp answer
  exact names first t given _ (SymbolTable.lookup_at_or_below there).1

/-- The lines of a report without their ends, numbered from zero. -/
def numberedLines (text : Text) : List (Text × Nat) := ((fullLines text).map (·.body)).zipIdx

def newBody (edits : List LineEdit) (line : Text × Nat) : Text :=
  match edits.find? (·.line == line.2) with
  | some e => (takeBytes? e.keep line.1).getD line.1 ++ e.written
  | none => line.1

/-- A line on which a frame is resolved, with the line that takes its place. -/
structure Resolved (images : List Image) (source : Image → Option SymbolTable) (text : Text)
    (line : Text × Nat) (f : Frame) (found : Text × Nat) (h : FrameHead) (rest : Text) : Prop where
  raw : f ∈ rawFrames text
  good : outcome images (tableIn images source text) f = .ok found
  follows : FollowsWord rest
  old : line.1 = h.text ++ rest
  parts : f = h.frame rest line.2
  new : newBody (editsOf images source text).reverse line = h.text ++ written found

theorem edit_line_body (edits : List LineEdit) (line : Line) (n : Nat) :
    editLine edits (line, n) = newBody edits (line.body, n) ++ line.ending := by
  unfold editLine newBody
  cases edits.find? (·.line == n) with
  | none => rfl
  | some e => rfl

theorem edit_text_bodies (edits : List LineEdit) (text : Text) :
    editText edits text = ((pieces text).zipIdx.map fun x =>
      newBody edits ((Line.ofPiece x.1).body, x.2) ++ (Line.ofPiece x.1).ending).flatten := by
  rw [editText, List.flatMap_def, fullLines, List.zipIdx_map, List.map_map]
  exact congrArg List.flatten
    (List.map_congr_left fun x _ => edit_line_body edits (Line.ofPiece x.1) x.2)

theorem numbered_pieces (text : Text) :
    numberedLines text = (pieces text).zipIdx.map fun x => ((Line.ofPiece x.1).body, x.2) := by
  rw [numberedLines, fullLines, List.map_map, List.zipIdx_map]
  rfl

theorem new_body_cases {line : Text × Nat} (member : line ∈ numberedLines text) :
    (newBody (editsOf images source text).reverse line = line.1 ∧
      ∀ f ∈ rawFrames text, f.line = line.2 → error? images (tableIn images source text) f ≠ none) ∨
    ∃ f found h rest, Resolved images source text line f found h rest := by
  by_cases none : ∀ f ∈ rawFrames text, f.line = line.2 →
      error? images (tableIn images source text) f ≠ none
  · exact .inl ⟨by rw [newBody, find_no_edit none], none⟩
  · right
    push Not at none
    obtain ⟨f, raw, number, good⟩ := none
    obtain ⟨found, good⟩ : ∃ found, outcome images (tableIn images source text) f = .ok found := by
      unfold error? at good
      cases answer : outcome images (tableIn images source text) f with
      | ok found => exact ⟨found, rfl⟩
      | error e => rw [answer] at good; contradiction
    obtain ⟨piece, h, rest, ending, there, stands, cut⟩ := raw_frame_stands raw
    have body : line.1 = h.text ++ rest := by
      have here := List.mem_zipIdx_iff_getElem?.mp member
      rw [fullLines, List.map_map, List.getElem?_map, ← number, there] at here
      simpa [cut] using here.symm
    have parts : f = h.frame rest line.2 := number ▸ stands.parts
    refine ⟨f, found, h, rest, raw, good, stands.follows, body, parts, ?_⟩
    have size : f.addressEnd = byteSize h.text := by rw [parts]; rfl
    rw [newBody, ← number, find_edit raw good]
    dsimp only
    rw [body, size, take_bytes_of_front]
    rfl

theorem new_body_stands (names : SingleLineNames source) :
    ∀ x ∈ (pieces text).zipIdx, CanStandFor (Line.ofPiece x.1).body
      (newBody (editsOf images source text).reverse ((Line.ofPiece x.1).body, x.2)) := by
  intro x there
  have member : ((Line.ofPiece x.1).body, x.2) ∈ numberedLines text := by
    rw [numbered_pieces]
    exact List.mem_map.mpr ⟨x, there, rfl⟩
  rcases @new_body_cases images source text _ member with ⟨same, _⟩ | ⟨f, found, h, rest, resolved⟩
  · exact .inl same
  · right
    have piece : x.1 ∈ pieces text := List.mem_of_getElem? (List.mem_zipIdx_iff_getElem?.mp there)
    have free := body_without_feed (pieces_cut text) piece
    have old : (Line.ofPiece x.1).body = h.text ++ rest := resolved.old
    rw [old, List.mem_append, not_or] at free
    rw [resolved.new]
    refine ⟨by simp [written], ?_, written_stops h.text found⟩
    rw [List.mem_append, not_or]
    exact ⟨free.1, written_single_line (found_single_line names resolved.good)⟩

/-- The report with symbols. -/
def edited (images : List Image) (source : Image → Option SymbolTable) (text : Text) : Text :=
  editText (editsOf images source text).reverse text

theorem numbered_edited (names : SingleLineNames source) :
    numberedLines (edited images source text) = (numberedLines text).map fun line =>
      (newBody (editsOf images source text).reverse line, line.2) := by
  rw [edited, edit_text_bodies, numberedLines, full_lines_of_edited (new_body_stands names),
    List.map_map, numbered_pieces, List.map_map]
  exact Numbered.map_numbered (pieces text) fun x =>
    newBody (editsOf images source text).reverse ((Line.ofPiece x.1).body, x.2)

end Symbolication
end CrashTriage
