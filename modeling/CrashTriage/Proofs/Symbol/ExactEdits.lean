import Mathlib.Data.List.Nodup
import CrashTriage.Proofs.Symbol.Outcomes

/-
Symbolication is exact: each raw frame is resolved once or reported once, and on the lines of the resolved
frames alone the text between the address and the line's end is replaced.
-/
namespace CrashTriage
namespace Symbolication

open Text

variable {images : List Image} {source : Image → Option SymbolTable} {text : Text}

/-- How a frame fares, given the table of each image. -/
inductive Fares (images : List Image) (table : Image → Option SymbolTable) (f : Frame) :
    Except SymbolicationError (Text × Nat) → Prop where
  | noImage : (∀ i ∈ images, i.contains f.address = false) →
      Fares images table f (.error (.noImage f.address))
  | noSymbols (image : Image) : Image.owner? images f.address = some image → table image = none →
      Fares images table f (.error (.noSymbols f.address image.path))
  | noSymbol (image : Image) (t : SymbolTable) : Image.owner? images f.address = some image →
      table image = some t →
      (∀ s ∈ t.symbols, f.address.toNat < image.base.toNat + s.1.toNat) →
      Fares images table f (.error (.noSymbol f.address image.path))
  /-- Neither subtraction wraps: the base, the symbol's start and the distance make up the address. -/
  | found (image : Image) (t : SymbolTable) (start : UInt64) (name : Text) (distance : Nat) :
      Image.owner? images f.address = some image → table image = some t →
      t.lookup? (f.address - image.base) = some (start, name) →
      image.base.toNat + start.toNat + distance = f.address.toNat →
      Fares images table f (.ok (name, distance))

theorem fares_outcome (images : List Image) (table : Image → Option SymbolTable) (f : Frame) :
    Fares images table f (outcome images table f) := by
  unfold outcome
  cases owner : Image.owner? images f.address with
  | none => exact .noImage (Image.owner_none owner)
  | some image =>
    have above := Image.owner_contains owner
    have offset : (f.address - image.base).toNat = f.address.toNat - image.base.toNat :=
      UInt64.toNat_sub_of_le _ _ (UInt64.le_iff_toNat_le.mpr above)
    dsimp only
    cases answer : table image with
    | none => exact .noSymbols image owner answer
    | some t =>
      dsimp only
      cases found : t.lookup? (f.address - image.base) with
      | none =>
        refine .noSymbol image t owner answer fun s member => ?_
        have later := SymbolTable.lookup_none found s member
        omega
      | some s =>
        obtain ⟨start, name⟩ := s
        have below := (SymbolTable.lookup_at_or_below found).2
        have distance : (f.address - image.base - start).toNat =
            (f.address - image.base).toNat - start.toNat :=
          UInt64.toNat_sub_of_le _ _ (UInt64.le_iff_toNat_le.mpr below)
        refine .found image t start name _ owner answer found ?_
        dsimp only at below
        omega

/-- A line as it is cut from a report, with the frame on it: a head that ends with the address, a rest,
and line ends. The frame is also that of the line without its line ends. -/
structure Stands (f : Frame) (piece : Text) (h : FrameHead) (rest ending : Text) : Prop where
  whole : piece = h.text ++ rest ++ ending
  follows : FollowsWord rest
  ends : ∀ c ∈ ending, c = '\n' ∨ c = '\r'
  stops : ∀ c, (h.text ++ rest).getLast? = some c → c ≠ '\n' ∧ c ≠ '\r'
  parts : f = h.frame rest f.line
  read : Frame.read? (dropEndWhile (· == '\r') (chompPiece piece)) f.line = some f
  keep : takeBytes? f.addressEnd piece = some h.text

/-- The frames to be resolved are those of the report's threads that no symbol was found for yet. -/
theorem mem_raw_frames_iff {f : Frame} :
    f ∈ rawFrames text ↔ (∃ t ∈ Thread.readAll text, f ∈ t.frames) ∧ f.isSymbolicated = false := by
  rw [rawFrames, List.mem_filter, List.mem_flatMap, Bool.not_eq_true']

theorem raw_frame_on_line {f : Frame} (raw : f ∈ rawFrames text) :
    ∃ line ∈ Thread.backtraceLines text, line.2 = f.line ∧ Frame.read? line.1 f.line = some f := by
  have member := (List.mem_filter.mp raw).1
  rw [Thread.read_all_frames] at member
  exact Thread.mem_frames_from member

theorem raw_frame_stands {f : Frame} (raw : f ∈ rawFrames text) :
    ∃ piece h rest ending, (pieces text)[f.line]? = some piece ∧ Stands f piece h rest ending ∧
      Line.ofPiece piece = ⟨h.text ++ rest, ending⟩ := by
  obtain ⟨line, member, number, read⟩ := raw_frame_on_line raw
  obtain ⟨piece, found, body, chomped⟩ := Thread.backtrace_line_at member
  obtain ⟨h, rest, follows, parts, frame⟩ := head_of_read read
  have bodyParts : (Line.ofPiece piece).body = h.text ++ rest := body.symm.trans parts
  have whole : piece = h.text ++ rest ++ (Line.ofPiece piece).ending := by
    rw [← bodyParts]
    exact (line_text piece).symm
  refine ⟨piece, h, rest, (Line.ofPiece piece).ending, number ▸ found, ?_, ?_⟩
  · refine ⟨whole, follows, line_ending piece, ?_, frame, chomped ▸ read, ?_⟩
    · intro c last
      have other := line_body_stops piece c (bodyParts ▸ last)
      simpa [isEnd] using other
    · have size : f.addressEnd = byteSize h.text := by rw [frame]; rfl
      rw [size, whole, List.append_assoc]
      exact take_bytes_of_front h.text _
  · rw [← bodyParts]

theorem raw_frames_ascend (text : Text) : (rawFrames text).Pairwise fun f g => f.line < g.line := by
  rw [rawFrames, Thread.read_all_frames]
  exact (Thread.frames_ascend (Thread.backtrace_lines_ascend text)).filter _

theorem raw_frame_unique {f g : Frame} (rawF : f ∈ rawFrames text) (rawG : g ∈ rawFrames text)
    (same : f.line = g.line) : f = g := by
  have distinct : ((rawFrames text).map (·.line)).Nodup :=
    List.pairwise_map.mpr ((raw_frames_ascend text).imp Nat.ne_of_lt)
  exact List.inj_on_of_nodup_map distinct rawF rawG same

theorem edit_some {table : Image → Option SymbolTable} {f : Frame} {e : LineEdit} :
    edit? images table f = some e ↔
      ∃ found, outcome images table f = .ok found ∧ e = ⟨f.line, f.addressEnd, written found⟩ := by
  unfold edit?
  cases outcome images table f <;> simp [eq_comm]

/-- What the lines of a report become. -/
def editedLines (images : List Image) (source : Image → Option SymbolTable) (text : Text) :
    List Text :=
  (fullLines text).zipIdx.map (editLine (editsOf images source text).reverse)

theorem edited_line_at {n : Nat} {piece : Text} (found : (pieces text)[n]? = some piece) :
    (editedLines images source text)[n]? =
      some (editLine (editsOf images source text).reverse (Line.ofPiece piece, n)) := by
  simp [editedLines, fullLines, found]

theorem find_no_edit {n : Nat} (none : ∀ f ∈ rawFrames text, f.line = n →
    error? images (tableIn images source text) f ≠ .none) :
    (editsOf images source text).reverse.find? (·.line == n) = .none := by
  rw [List.find?_eq_none]
  intro e member
  obtain ⟨f, raw, edit⟩ := List.mem_filterMap.mp (List.mem_reverse.mp member)
  obtain ⟨found, good, rfl⟩ := edit_some.mp edit
  rw [beq_iff_eq]
  intro same
  exact none f raw same (by rw [error?, good])

theorem find_edit {f : Frame} {found : Text × Nat} (raw : f ∈ rawFrames text)
    (good : outcome images (tableIn images source text) f = .ok found) :
    (editsOf images source text).reverse.find? (·.line == f.line) =
      some ⟨f.line, f.addressEnd, written found⟩ := by
  have member : (⟨f.line, f.addressEnd, written found⟩ : LineEdit) ∈ editsOf images source text :=
    List.mem_filterMap.mpr ⟨f, raw, edit_some.mpr ⟨found, good, rfl⟩⟩
  have there : ((editsOf images source text).reverse.find? (·.line == f.line)).isSome := by
    rw [List.find?_isSome]
    exact ⟨_, List.mem_reverse.mpr member, beq_self_eq_true f.line⟩
  obtain ⟨e, first⟩ := Option.isSome_iff_exists.mp there
  obtain ⟨g, rawG, edit⟩ :=
    List.mem_filterMap.mp (List.mem_reverse.mp (List.mem_of_find?_eq_some first))
  obtain ⟨other, goodG, rfl⟩ := edit_some.mp edit
  have sameLine : g.line = f.line := by simpa using List.find?_some first
  obtain rfl := raw_frame_unique rawG raw sameLine
  obtain rfl := Except.ok.inj (goodG.symm.trans good)
  exact first

theorem edit_line_resolved {f : Frame} {found : Text × Nat} {piece rest ending : Text} {h : FrameHead}
    (raw : f ∈ rawFrames text) (good : outcome images (tableIn images source text) f = .ok found)
    (cut : Line.ofPiece piece = ⟨h.text ++ rest, ending⟩) (parts : f = h.frame rest f.line) :
    editLine (editsOf images source text).reverse (Line.ofPiece piece, f.line) =
      h.text ++ written found ++ ending := by
  have size : f.addressEnd = byteSize h.text := by rw [parts]; rfl
  rw [editLine, find_edit raw good]
  dsimp only
  rw [cut, size, take_bytes_of_front]
  rfl

theorem counted (images : List Image) (table : Image → Option SymbolTable) (frames : List Frame) :
    (frames.filterMap (edit? images table)).length + (frames.filterMap (error? images table)).length =
      frames.length := by
  induction frames with
  | nil => rfl
  | cons f rest ih =>
    rw [List.filterMap_cons, List.filterMap_cons, edit?, error?]
    cases outcome images table f <;> simp only [List.length_cons] <;> omega

/-- What symbolication promises of a report: `after` is what its lines become. -/
structure Exact (images : List Image) (source : Image → Option SymbolTable) (text : Text)
    (after : List Text) (result : Text × SymbolicationSummary) : Prop where
  raw : ∀ f, f ∈ rawFrames text ↔ (∃ t ∈ Thread.readAll text, f ∈ t.frames) ∧ f.isSymbolicated = false
  fares : ∀ f ∈ rawFrames text, Fares images (tableIn images source text) f
    (outcome images (tableIn images source text) f)
  inOrder : (rawFrames text).Pairwise fun f g => f.line < g.line
  errors : result.2.errors = (rawFrames text).filterMap (error? images (tableIn images source text))
  counts : result.2.resolved + result.2.errors.length = (rawFrames text).length
  input : text = (pieces text).flatten
  output : result.1 = after.flatten
  lines : after.length = (pieces text).length
  stands : ∀ f ∈ rawFrames text, ∃ piece h rest ending,
    (pieces text)[f.line]? = some piece ∧ Stands f piece h rest ending ∧
    ∀ found, outcome images (tableIn images source text) f = .ok found →
      after[f.line]? = some (h.text ++ written found ++ ending)
  kept : ∀ (n : Nat) (piece : Text), (pieces text)[n]? = some piece →
    (∀ f ∈ rawFrames text, f.line = n → error? images (tableIn images source text) f ≠ none) →
    after[n]? = some piece

theorem symbolication_exact (images : List Image) (source : Image → Option SymbolTable) (text : Text) :
    ∃ after, Exact images source text after (Id.run (run text images source)) := by
  refine ⟨editedLines images source text, ?_⟩
  rw [run_outcomes]
  refine
    { raw := fun f => mem_raw_frames_iff
      fares := fun f _ => fares_outcome images (tableIn images source text) f
      inOrder := raw_frames_ascend text
      errors := rfl
      counts := counted images (tableIn images source text) (rawFrames text)
      input := (pieces_flatten text).symm
      output := ?_
      lines := by simp [editedLines, fullLines]
      stands := ?_
      kept := ?_ }
  · rw [editText, editedLines, List.flatMap_def]
  · intro f raw
    obtain ⟨piece, h, rest, ending, found, stands, cut⟩ := raw_frame_stands raw
    refine ⟨piece, h, rest, ending, found, stands, fun symbol good => ?_⟩
    rw [edited_line_at found, edit_line_resolved raw good cut stands.parts]
  · intro n piece found none
    rw [edited_line_at found, editLine, find_no_edit none]
    exact congrArg some (line_text piece)

end Symbolication
end CrashTriage
