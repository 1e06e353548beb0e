import CrashTriage.Proofs.Symbol.StableReports
import CrashTriage.Proofs.Text.Utf8

/-
The file of a report, cut around what symbols are written over. A report is read and written as text, so
that the file keeps what stands outside these parts just as far as it is UTF-8.
-/
namespace CrashTriage
namespace Symbolication

open Text Bytes

/-- A line of a file. Symbols are written over the replaced part; where there are none to write the front
is the whole line. -/
structure CutLine where
  front : Bytes
  replaced : Bytes
  written : Bytes
  ending : Bytes
deriving DecidableEq

namespace CutLine

def before (c : CutLine) : Bytes := c.front ++ c.replaced ++ c.ending

/-- The line with symbols, all else being kept byte for byte. -/
def kept (c : CutLine) : Bytes := c.front ++ c.written ++ c.ending

/-- The line with symbols, its front written as it was read. -/
def after (c : CutLine) : Bytes := repaired c.front ++ c.written ++ c.ending

end CutLine

variable {images : List Image} {source : Image → Option SymbolTable} {text : Text}

/-- How one line is cut: around the detail of a frame that a symbol is found for, or not at all. -/
inductive Cut (images : List Image) (source : Image → Option SymbolTable) (text : Text) (n : Nat) :
    CutLine → Prop where
  | whole (front : Bytes) :
    (∀ f ∈ rawFrames text, f.line = n → ∀ found, outcome images (tableIn images source text) f ≠ .ok found) →
    Cut images source text n ⟨front, [], [], []⟩
  | around (f : Frame) (found : Text × Nat) (h : FrameHead) (front replaced ending : Bytes) :
    f ∈ rawFrames text → f.line = n → outcome images (tableIn images source text) f = .ok found →
    toText front = h.text → f = h.frame (toText replaced) n → (∀ b ∈ ending, b = 10 ∨ b = 13) →
    (∀ c, (toText front ++ toText replaced).getLast? = some c → c ≠ '\n' ∧ c ≠ '\r') →
    Cut images source text n ⟨front, replaced, (written found).toBytes, ending⟩

structure CutFile (images : List Image) (source : Image → Option SymbolTable) (text : Text)
    (file : Bytes) (cuts : List CutLine) : Prop where
  raw : ∀ f, f ∈ rawFrames text ↔ (∃ t ∈ Thread.readAll text, f ∈ t.frames) ∧ f.isSymbolicated = false
  file : file = (cuts.map (·.before)).flatten
  lines : cuts.map (fun c => toText c.before) = pieces text
  texts : ∀ c ∈ cuts, toText c.before = toText c.front ++ toText c.replaced ++ toText c.ending
  cut : ∀ n c, cuts[n]? = some c → Cut images source text n c

structure LineCut (images : List Image) (source : Image → Option SymbolTable) (text : Text) (n : Nat)
    (line : Bytes) (c : CutLine) : Prop where
  before : c.before = line
  after : c.after =
    (editLine (editsOf images source text).reverse (Line.ofPiece (toText line), n)).toBytes
  texts : toText line = toText c.front ++ toText c.replaced ++ toText c.ending
  cut : Cut images source text n c

theorem cut_line {n : Nat} {line : Bytes} (there : (pieces text)[n]? = some (toText line)) :
    ∃ c, LineCut images source text n line c := by
  by_cases resolved : ∃ f ∈ rawFrames text, f.line = n ∧
      ∃ found, outcome images (tableIn images source text) f = .ok found
  · obtain ⟨f, raw, rfl, found, good⟩ := resolved
    obtain ⟨piece, h, rest, ending, same, stands, parts⟩ := raw_frame_stands raw
    obtain rfl := Option.some.inj (there.symm.trans same)
    obtain ⟨body, last, cut, bodyText, lastText⟩ := cut_text stands.whole
    obtain ⟨front, replaced, rfl, frontText, replacedText⟩ := cut_text bodyText
    rw [← lastText] at stands
    have ends := line_end_bytes stands.ends
    refine ⟨⟨front, replaced, (written found).toBytes, last⟩, ?_, ?_, ?_, ?_⟩
    · exact cut.symm
    · rw [edit_line_resolved raw good parts stands.parts, to_bytes_append, to_bytes_append, ← frontText,
        ← lastText]
      show repaired front ++ _ ++ last = repaired front ++ _ ++ repaired last
      rw [ends.1]
    · rw [stands.whole, frontText, replacedText]
    · refine .around f found h front replaced last raw rfl good frontText ?_ ends.2 ?_
      · rw [replacedText]
        exact stands.parts
      · rw [frontText, replacedText]
        exact stands.stops
  · have none : ∀ f ∈ rawFrames text, f.line = n → error? images (tableIn images source text) f ≠ .none := by
      intro f raw here
      rw [error?]
      split
      · rename_i found good
        exact absurd ⟨f, raw, here, found, good⟩ resolved
      · exact Option.some_ne_none _
    refine ⟨⟨line, [], [], []⟩, ?_, ?_, ?_, ?_⟩
    · simp [CutLine.before]
    · rw [editLine, find_no_edit none]
      show repaired line ++ [] ++ [] = Text.toBytes (Line.text _)
      rw [line_text, List.append_nil, List.append_nil, repaired]
    · simp [to_text_nil]
    · exact .whole line fun f raw here found good => resolved ⟨f, raw, here, found, good⟩

/-- A file whose text is symbolicated is cut, and what is written is the cuts with symbols. -/
theorem cut_file (images : List Image) (source : Image → Option SymbolTable) (file : Bytes) :
    ∃ cuts, CutFile images source (toText file) file cuts ∧
      (edited images source (toText file)).toBytes = (cuts.map (·.after)).flatten := by
  have whole : toText file = (pieces (toText file)).flatten := (pieces_flatten _).symm
  obtain ⟨bs, flat, texts⟩ := cut_texts whole
  -- the cut of a line depends on its number, so that cuts are chosen for numbered lines
  have each : ∀ x : Bytes × Nat, ∃ c, bs[x.2]? = some x.1 → LineCut images source (toText file) x.2 x.1 c := by
    rintro ⟨line, n⟩
    by_cases there : bs[n]? = some line
    · have piece : (pieces (toText file))[n]? = some (toText line) := by
        rw [← texts, List.getElem?_map, there]
        rfl
      obtain ⟨c, cut⟩ := cut_line piece
      exact ⟨c, fun _ => cut⟩
    · exact ⟨⟨[], [], [], []⟩, fun here => absurd here there⟩
  choose cut holds using each
  have lineCut : ∀ x ∈ bs.zipIdx, LineCut images source (toText file) x.2 x.1 (cut x) := fun x member =>
    holds x (List.mem_zipIdx_iff_getElem?.mp member)
  have before : (bs.zipIdx.map cut).map (·.before) = bs := by
    rw [List.map_map]
    exact (List.map_congr_left fun x member => (lineCut x member).before).trans (List.zipIdx_map_fst 0 bs)
  have after : (bs.zipIdx.map cut).map (·.after) = bs.zipIdx.map fun x => Text.toBytes
      (editLine (editsOf images source (toText file)).reverse (Line.ofPiece (toText x.1), x.2)) := by
    rw [List.map_map]
    exact List.map_congr_left fun x member => (lineCut x member).after
  refine ⟨bs.zipIdx.map cut, ⟨fun _ => mem_raw_frames_iff, ?_, ?_, ?_, ?_⟩, ?_⟩
  · rw [before, flat]
  · calc (bs.zipIdx.map cut).map (fun c => toText c.before)
        = ((bs.zipIdx.map cut).map (·.before)).map toText := by simp only [List.map_map]; rfl
      _ = pieces (toText file) := by rw [before, texts]
  · intro c member
    obtain ⟨x, there, rfl⟩ := List.mem_map.mp member
    rw [(lineCut x there).before]
    exact (lineCut x there).texts
  · intro n c found
    rw [List.getElem?_map] at found
    obtain ⟨⟨line, m⟩, there, rfl⟩ := Option.map_eq_some_iff.mp found
    have listed := List.mem_of_getElem? there
    obtain ⟨_, rfl⟩ : line ∈ bs ∧ m = n := by
      rw [List.getElem?_zipIdx] at there
      obtain ⟨same, inside, pair⟩ := Option.map_eq_some_iff.mp there
      cases pair
      exact ⟨List.mem_of_getElem? inside, Nat.zero_add n⟩
    exact (lineCut _ listed).cut
  · have lines : (fullLines (toText file)).zipIdx =
        bs.zipIdx.map fun x => (Line.ofPiece (toText x.1), x.2) := by
      rw [fullLines, ← texts, List.map_map, List.zipIdx_map]
      rfl
    rw [edited, editText, lines, List.flatMap_def, to_bytes_flatten, after]
    simp only [List.map_map, Function.comp_def]

/-- The rest of the file is kept byte for byte just when the parts before the symbols are UTF-8. -/
theorem kept_iff (cuts : List CutLine) :
    (cuts.map (·.after)).flatten = (cuts.map (·.kept)).flatten ↔ ∀ c ∈ cuts, IsUtf8 c.front := by
  constructor
  · intro same c member
    -- no line gets shorter when it is written back, so none can make up for another
    have pairs : ∀ p ∈ cuts.map fun c => (c.kept, c.after), p.1 = p.2 := by
      refine same_of_longer ?_ ?_
      · intro p there
        obtain ⟨c, _, rfl⟩ := List.mem_map.mp there
        have longer := length_le_repaired c.front
        simp only [CutLine.kept, CutLine.after, List.length_append]
        omega
      · rw [List.map_map, List.map_map]
        exact same.symm
    have line : c.kept = c.after := pairs _ (List.mem_map_of_mem member)
    have front := List.append_cancel_right (List.append_cancel_right line)
    exact (is_utf8_iff c.front).mpr front.symm
  · intro utf8
    refine congrArg List.flatten (List.map_congr_left fun c member => ?_)
    rw [CutLine.after, CutLine.kept, (is_utf8_iff c.front).mp (utf8 c member)]

theorem fronts_of_utf8 {file : Bytes} {cuts : List CutLine} (cut : CutFile images source (toText file) file cuts)
    (utf8 : IsUtf8 file) : ∀ c ∈ cuts, IsUtf8 c.front := by
  have lines : ∀ p ∈ cuts.map fun c => (c.before, repaired c.before), p.1 = p.2 := by
    refine same_of_longer ?_ ?_
    · intro p there
      obtain ⟨c, _, rfl⟩ := List.mem_map.mp there
      exact length_le_repaired c.before
    · calc ((cuts.map fun c => (c.before, repaired c.before)).map (·.1)).flatten
          = (cuts.map (·.before)).flatten := by rw [List.map_map]; rfl
        _ = file := cut.file.symm
        _ = Text.toBytes (toText file) := ((is_utf8_iff file).mp utf8).symm
        _ = Text.toBytes (cuts.map fun c => toText c.before).flatten := by rw [cut.lines, pieces_flatten]
        _ = ((cuts.map fun c => (c.before, repaired c.before)).map (·.2)).flatten := by
          rw [to_bytes_flatten, List.map_map, List.map_map]
          rfl
  intro c member
  have line : c.before = repaired c.before := lines _ (List.mem_map_of_mem member)
  have parts : c.front ++ c.replaced ++ c.ending =
      repaired c.front ++ repaired c.replaced ++ repaired c.ending := by
    calc c.front ++ c.replaced ++ c.ending = repaired c.before := line
      _ = _ := by rw [repaired, cut.texts c member, to_bytes_append, to_bytes_append]; rfl
  have total := congrArg List.length parts
  simp only [List.length_append] at total
  have front := length_le_repaired c.front
  have replaced := length_le_repaired c.replaced
  have ending := length_le_repaired c.ending
  rw [List.append_assoc, List.append_assoc] at parts
  have same := (List.append_inj parts (by omega)).1
  exact (is_utf8_iff c.front).mpr same.symm

end Symbolication
end CrashTriage
