import CrashTriage.Proofs.Backtrace.Renewal
import CrashTriage.Proofs.Symbol.EditedLines
import CrashTriage.Report.Header
import Mathlib.Data.List.TakeWhile

/-
A report with symbols is read as the report was, but for the details of the frames that were resolved,
and symbolicating it once more changes nothing. Images that share both base and path are to have the
same table: which of them is asked for it depends on which frames are raw.
-/
namespace CrashTriage
namespace Symbolication

open Text

variable {images : List Image} {source : Image → Option SymbolTable} {text : Text}

def DistinctKeys (images : List Image) : Prop := (images.map fun i => (i.base, i.path)).Nodup

/-- Images that share both base and path have the same table. -/
def AnswersByKey (images : List Image) (source : Image → Option SymbolTable) : Prop :=
  ∀ i ∈ images, ∀ j ∈ images, (i.base, i.path) = (j.base, j.path) → source i = source j

theorem distinct_answers (distinct : DistinctKeys images) : AnswersByKey images source :=
  fun _ here _ there same => congrArg source (List.inj_on_of_nodup_map distinct here there same)

theorem asked_is_owner (alike : AnswersByKey images source) {frames : List Frame} {f : Frame}
    {image : Image} (member : f ∈ frames) (owner : Image.owner? images f.address = some image) :
    tableAmong images source frames image = source image := by
  obtain ⟨first, asked⟩ := owner_is_asked member owner
  have sameKey : (first.base, first.path) = (image.base, image.path) := by
    simpa using List.find?_some asked
  obtain ⟨g, _, ownerG⟩ := List.mem_filterMap.mp (List.mem_of_find?_eq_some asked)
  have firstIn : first ∈ images := (List.mem_filter.mp (Image.least_mem ownerG)).1
  have imageIn : image ∈ images := (List.mem_filter.mp (Image.least_mem owner)).1
  rw [tableAmong, asked]
  exact alike first firstIn image imageIn sameKey

theorem outcome_from_source (alike : AnswersByKey images source) {f : Frame} (raw : f ∈ rawFrames text) :
    outcome images (tableIn images source text) f = outcome images source f := by
  unfold outcome
  cases owner : Image.owner? images f.address with
  | none => rfl
  | some image =>
    dsimp only
    rw [tableIn, asked_is_owner alike raw owner]

/-- A frame as it is read after symbolication: of a resolved one the detail is what was written. -/
def renew (images : List Image) (source : Image → Option SymbolTable) (f : Frame) : Frame :=
  if f.isSymbolicated then f
  else match outcome images source f with
    | .ok found =>
      { f with detail := trim (written found), raw := RawLocation.read? (trim (written found)) }
    | .error _ => f

theorem renew_address (f : Frame) : (renew images source f).address = f.address := by
  unfold renew
  split
  · rfl
  · split <;> rfl

theorem renew_line (f : Frame) : (renew images source f).line = f.line := by
  unfold renew
  split
  · rfl
  · split <;> rfl

theorem mem_raw_frames {f : Frame} :
    f ∈ rawFrames text ↔
      f ∈ Thread.framesFrom false (Thread.backtraceLines text) ∧ f.isSymbolicated = false := by
  rw [rawFrames, Thread.read_all_frames, List.mem_filter]
  simp

theorem renew_resolved (alike : AnswersByKey images source) {line : Text × Nat} {f : Frame}
    {found : Text × Nat} {h : FrameHead} {rest : Text}
    (resolved : Resolved images source text line f found h rest) :
    renew images source f = h.frame (written found) line.2 := by
  have raw := (mem_raw_frames.mp resolved.raw).2
  have good := resolved.good
  rw [outcome_from_source alike resolved.raw] at good
  rw [renew, raw, good]
  simp only [Bool.false_eq_true, if_false]
  rw [resolved.parts]
  rfl

theorem renew_unresolved (alike : AnswersByKey images source) {f : Frame}
    (member : f ∈ Thread.framesFrom false (Thread.backtraceLines text))
    (none : f ∈ rawFrames text → error? images (tableIn images source text) f ≠ none) :
    renew images source f = f := by
  unfold renew
  split
  · rfl
  · rename_i raw
    have isRaw : f ∈ rawFrames text := mem_raw_frames.mpr ⟨member, by simpa using raw⟩
    have failed := none isRaw
    rw [error?, outcome_from_source alike isRaw] at failed
    split
    · rename_i found good
      rw [good] at failed
      contradiction
    · rfl

theorem edited_rewrites (alike : AnswersByKey images source) :
    Thread.Rewrites (renew images source) (newBody (editsOf images source text).reverse)
      (Thread.framesFrom false (Thread.backtraceLines text)) (Thread.backtraceLines text) := by
  have ascend := Thread.backtrace_lines_ascend text
  have numbered : ∀ line ∈ Thread.backtraceLines text, line ∈ numberedLines text :=
    fun line there => (List.takeWhile_sublist _).mem there
  -- What a line that holds a frame becomes: a frame line with the frame renewed.
  have becomes : ∀ line ∈ Thread.backtraceLines text,
      ∀ f ∈ Thread.framesFrom false (Thread.backtraceLines text), f.line = line.2 →
      ∃ (h : FrameHead) (rest : Text), FollowsWord rest ∧
        newBody (editsOf images source text).reverse line = h.text ++ rest ∧
        renew images source f = h.frame rest line.2 := by
    intro line there f member number
    have read := Thread.frame_read_here ascend there member number
    rcases @new_body_cases images source text line (numbered line there) with
      ⟨same, none⟩ | ⟨g, found, h, rest, resolved⟩
    · obtain ⟨h, rest, follows, whole, parts⟩ := head_of_read read
      have unresolved := renew_unresolved alike member fun raw => none f raw number
      exact ⟨h, rest, follows, same.trans whole, unresolved.trans parts⟩
    · have sameFrame : f = g := by
        rw [resolved.old, h.read resolved.follows] at read
        exact (Option.some.inj read).symm.trans resolved.parts.symm
      subst sameFrame
      exact ⟨h, written found, follows_written found, resolved.new, renew_resolved alike resolved⟩
  constructor
  · intro line there none
    rcases @new_body_cases images source text line (numbered line there) with
      ⟨same, _⟩ | ⟨g, found, h, rest, resolved⟩
    · exact same
    · have number : g.line = line.2 := by rw [resolved.parts]; rfl
      exact absurd number (none g (mem_raw_frames.mp resolved.raw).1)
  · intro line there f member number
    obtain ⟨h, rest, _, whole, _⟩ := becomes line there f member number
    rw [whole]
    exact h.line_kind rest
  · intro line there f member number
    obtain ⟨h, rest, follows, whole, parts⟩ := becomes line there f member number
    rw [whole, parts]
    exact h.read follows line.2

theorem headings_kept {line : Text × Nat} (member : line ∈ numberedLines text) :
    BacktraceLine.startsImages (newBody (editsOf images source text).reverse line) =
        BacktraceLine.startsImages line.1 ∧
      startsWith (newBody (editsOf images source text).reverse line) "Thread ".toList =
        startsWith line.1 "Thread ".toList := by
  rcases @new_body_cases images source text line member with ⟨same, _⟩ | ⟨f, found, h, rest, resolved⟩
  · rw [same]
    exact ⟨rfl, rfl⟩
  · obtain ⟨newThread, newImages⟩ := h.not_read_as_heading (written found)
    obtain ⟨oldThread, oldImages⟩ := h.not_read_as_heading rest
    rw [resolved.new, resolved.old, newThread, newImages, oldThread, oldImages]
    exact ⟨rfl, rfl⟩

theorem backtrace_lines_numbered (t : Text) : Thread.backtraceLines t =
    (numberedLines t).takeWhile fun line => !BacktraceLine.startsImages line.1 := rfl

theorem backtrace_lines_edited (names : SingleLineNames source) :
    Thread.backtraceLines (edited images source text) = (Thread.backtraceLines text).map fun line =>
      (newBody (editsOf images source text).reverse line, line.2) := by
  rw [backtrace_lines_numbered, backtrace_lines_numbered, numbered_edited names]
  exact Mapped.take_while_map (numberedLines text) fun line member => by
    rw [(headings_kept member).1]

theorem threads_edited (alike : AnswersByKey images source) (names : SingleLineNames source) :
    Thread.readAll (edited images source text) =
      (Thread.readAll text).map (Thread.mapFrames (renew images source)) :=
  Thread.read_all_renewed (backtrace_lines_edited names) (edited_rewrites alike)

theorem bodies_numbered (t : Text) : (fullLines t).map (·.body) = (numberedLines t).map (·.1) := by
  rw [numberedLines, List.zipIdx_map_fst]

theorem numbered_ascend (t : Text) : (numberedLines t).Pairwise fun a b => a.2 < b.2 :=
  Numbered.ascending _ 0

theorem image_lines_edited (names : SingleLineNames source) :
    Sections.imageLines ((fullLines (edited images source text)).map (·.body)) =
      Sections.imageLines ((fullLines text).map (·.body)) := by
  have after (t : Text) : ((numberedLines t).map (·.1)).dropWhile
        (fun line => !BacktraceLine.startsImages line) =
      ((numberedLines t).dropWhile fun line => !BacktraceLine.startsImages line.1).map (·.1) :=
    Mapped.drop_while_map (numberedLines t) fun _ _ => rfl
  have same : (numberedLines (edited images source text)).dropWhile
        (fun line => !BacktraceLine.startsImages line.1) =
      ((numberedLines text).dropWhile fun line => !BacktraceLine.startsImages line.1).map fun line =>
        (newBody (editsOf images source text).reverse line, line.2) := by
    rw [numbered_edited names]
    exact Mapped.drop_while_map (numberedLines text) fun line member => by
      rw [(headings_kept member).1]
  rw [Sections.imageLines, Sections.imageLines, bodies_numbered, bodies_numbered, after, after, same,
    List.map_map]
  congr 1
  refine List.map_congr_left fun line later => ?_
  dsimp only [Function.comp_apply]
  have member : line ∈ numberedLines text := (List.dropWhile_sublist _).mem later
  rcases @new_body_cases images source text line member with ⟨kept, _⟩ | ⟨f, found, h, rest, resolved⟩
  · exact kept
  · -- A frame's line stands before the image table.
    obtain ⟨other, before, number, _⟩ := raw_frame_on_line resolved.raw
    have here : f.line = line.2 := by rw [resolved.parts]; rfl
    have ascend := numbered_ascend text
    rw [← List.takeWhile_append_dropWhile (p := fun line => !BacktraceLine.startsImages line.1)
      (l := numberedLines text)] at ascend
    have order := (List.pairwise_append.mp ascend).2.2 other before line later
    omega

theorem header_lines_edited (names : SingleLineNames source) :
    Sections.headerLines ((fullLines (edited images source text)).map (·.body)) =
      Sections.headerLines ((fullLines text).map (·.body)) := by
  have before (t : Text) : Sections.headerLines ((numberedLines t).map (·.1)) =
      ((numberedLines t).takeWhile fun line => !BacktraceLine.startsImages line.1 &&
        !startsWith line.1 "Thread ".toList).map (·.1) :=
    Mapped.take_while_map (numberedLines t) fun _ _ => rfl
  have same : (numberedLines (edited images source text)).takeWhile
        (fun line => !BacktraceLine.startsImages line.1 && !startsWith line.1 "Thread ".toList) =
      ((numberedLines text).takeWhile fun line => !BacktraceLine.startsImages line.1 &&
        !startsWith line.1 "Thread ".toList).map fun line =>
          (newBody (editsOf images source text).reverse line, line.2) := by
    rw [numbered_edited names]
    refine Mapped.take_while_map (numberedLines text) fun line member => ?_
    dsimp only
    rw [(headings_kept member).1, (headings_kept member).2]
  rw [bodies_numbered, bodies_numbered, before, before, same, List.map_map]
  refine List.map_congr_left fun line header => ?_
  dsimp only [Function.comp_apply]
  have member : line ∈ numberedLines text := (List.takeWhile_sublist _).mem header
  rcases @new_body_cases images source text line member with ⟨kept, _⟩ | ⟨f, found, h, rest, resolved⟩
  · exact kept
  · -- A frame's line stands after the first line that starts as a heading does.
    have inStack := (mem_raw_frames.mp resolved.raw).1
    have here : f.line = line.2 := by rw [resolved.parts]; rfl
    have early : line ∈ (Thread.backtraceLines text).takeWhile fun line =>
        !startsWith line.1 "Thread ".toList := by
      rw [backtrace_lines_numbered, List.takeWhile_takeWhile]
      simpa only [Bool.decide_and, Bool.decide_eq_true, Bool.and_comm] using header
    have order := Thread.frames_after_heading (Thread.backtrace_lines_ascend text) inStack line early
    omega

theorem frames_edited (alike : AnswersByKey images source) (names : SingleLineNames source) :
    Thread.framesFrom false (Thread.backtraceLines (edited images source text)) =
      (Thread.framesFrom false (Thread.backtraceLines text)).map (renew images source) := by
  rw [← Thread.read_all_frames, ← Thread.read_all_frames, threads_edited alike names,
    List.flatMap_map, List.map_flatMap]
  rfl

theorem outcome_of_renewed (f : Frame) :
    outcome images source (renew images source f) = outcome images source f := by
  unfold outcome
  rw [renew_address]

theorem errors_from_source (alike : AnswersByKey images source) (text : Text) :
    errorsOf images source text = (rawFrames text).filterMap (error? images source) :=
  List.filterMap_congr fun f raw => by rw [error?, error?, outcome_from_source alike raw]

/-- A renewed frame fails as the frame did, whether or not what was written looks raw. -/
theorem error_of_renewed (f : Frame) :
    (if !(renew images source f).isSymbolicated then error? images source (renew images source f)
      else none) = if !f.isSymbolicated then error? images source f else none := by
  cases symbolicated : f.isSymbolicated with
  | true =>
    have same : renew images source f = f := by rw [renew, if_pos symbolicated]
    rw [same, symbolicated]
  | false =>
    cases answer : outcome images source f with
    | error e =>
      have same : renew images source f = f := by
        rw [renew, if_neg (by simp [symbolicated]), answer]
      rw [same, symbolicated]
    | ok found =>
      simp [error?, outcome_of_renewed, answer]

theorem errors_edited (alike : AnswersByKey images source) (names : SingleLineNames source) :
    errorsOf images source (edited images source text) = errorsOf images source text := by
  rw [errors_from_source alike, errors_from_source alike, rawFrames, rawFrames,
    Thread.read_all_frames, Thread.read_all_frames, frames_edited alike names,
    List.filterMap_filter, List.filterMap_filter, List.filterMap_map]
  exact List.filterMap_congr fun f _ => error_of_renewed f

theorem edit_text_unchanged {edits : List LineEdit}
    (same : ∀ line ∈ numberedLines text, newBody edits line = line.1) : editText edits text = text := by
  have each : ((pieces text).zipIdx.map fun x =>
      newBody edits ((Line.ofPiece x.1).body, x.2) ++ (Line.ofPiece x.1).ending) = pieces text := by
    nth_rewrite 2 [← List.zipIdx_map_fst 0 (pieces text)]
    refine List.map_congr_left fun x there => ?_
    have member : ((Line.ofPiece x.1).body, x.2) ∈ numberedLines text := by
      rw [numbered_pieces]
      exact List.mem_map.mpr ⟨x, there, rfl⟩
    rw [same _ member]
    exact line_text x.1
  rw [edit_text_bodies, each, pieces_flatten]

theorem head_of_same_size {h k : FrameHead} {rest other : Text}
    (whole : h.text ++ rest = k.text ++ other) (size : byteSize h.text = byteSize k.text) :
    h.text = k.text := by
  have taken := take_bytes_of_front h.text rest
  rw [whole, size, take_bytes_of_front] at taken
  exact (Option.some.inj taken).symm

/-- A frame of the report with symbols that is raw was raw, and the same symbol is found for it. -/
theorem raw_before (alike : AnswersByKey images source) (names : SingleLineNames source) {f : Frame}
    {found : Text × Nat} (raw : f ∈ rawFrames (edited images source text))
    (good : outcome images (tableIn images source (edited images source text)) f = .ok found) :
    ∃ g ∈ rawFrames text, renew images source g = f ∧
      outcome images (tableIn images source text) g = .ok found := by
  obtain ⟨member, isRaw⟩ := mem_raw_frames.mp raw
  rw [frames_edited alike names] at member
  obtain ⟨g, memberG, rfl⟩ := List.mem_map.mp member
  rw [outcome_from_source alike raw, outcome_of_renewed] at good
  have rawG : g ∈ rawFrames text := by
    refine mem_raw_frames.mpr ⟨memberG, ?_⟩
    cases symbolicated : g.isSymbolicated with
    | false => rfl
    | true => rwa [renew, if_pos symbolicated, symbolicated] at isRaw
  exact ⟨g, rawG, rfl, (outcome_from_source alike rawG).trans good⟩

theorem edited_again (alike : AnswersByKey images source) (names : SingleLineNames source) :
    edited images source (edited images source text) = edited images source text := by
  refine edit_text_unchanged fun line member => ?_
  rcases @new_body_cases images source _ line member with ⟨same, _⟩ | ⟨f, found, h, rest, resolved⟩
  · exact same
  · rw [numbered_edited names] at member
    obtain ⟨old, there, rfl⟩ := List.mem_map.mp member
    obtain ⟨g, rawG, renewed, goodG⟩ := raw_before alike names resolved.raw resolved.good
    have number : g.line = old.2 := by
      rw [← @renew_line images source g, renewed, resolved.parts]
      rfl
    rcases @new_body_cases images source text old there with
      ⟨_, none⟩ | ⟨g', found', k, rest', before⟩
    · exact absurd (by rw [error?, goodG]) (none g rawG number)
    · have numberBefore : g'.line = old.2 := by rw [before.parts]; rfl
      obtain rfl := raw_frame_unique rawG before.raw (number.trans numberBefore.symm)
      obtain rfl := Except.ok.inj (goodG.symm.trans before.good)
      have sameFrame : h.frame rest old.2 = k.frame (written found) old.2 :=
        resolved.parts.symm.trans (renewed.symm.trans (renew_resolved alike before))
      have size : byteSize h.text = byteSize k.text := congrArg Frame.addressEnd sameFrame
      have whole := resolved.old
      dsimp only at whole ⊢
      have sameHead : h.text = k.text := head_of_same_size (whole.symm.trans before.new) size
      rw [resolved.new, sameHead]
      exact before.new.symm

theorem run_text (images : List Image) (source : Image → Option SymbolTable) (text : Text) :
    (Id.run (run text images source)).1 = edited images source text := by
  rw [run_outcomes, edited]

theorem run_errors (images : List Image) (source : Image → Option SymbolTable) (text : Text) :
    (Id.run (run text images source)).2.errors = errorsOf images source text := by
  rw [run_outcomes]

theorem symbolication_stable (distinct : DistinctKeys images) (names : SingleLineNames source)
    (text : Text) :
    let result := Id.run (run text images source)
    let again := Id.run (run result.1 images source)
    (Sections.read result.1).fields = (Sections.read text).fields ∧
      (Sections.read result.1).images = (Sections.read text).images ∧
      (Sections.read result.1).threads =
        (Sections.read text).threads.map (Thread.mapFrames (renew images source)) ∧
      again.1 = result.1 ∧ again.2.errors = result.2.errors := by
  dsimp only
  rw [run_text, run_text, run_errors, run_errors]
  have alike : AnswersByKey images source := distinct_answers distinct
  refine ⟨?_, ?_, ?_, edited_again alike names, errors_edited alike names⟩
  · simp only [Sections.read, header_lines_edited names]
  · simp only [Sections.read, image_lines_edited names]
  · simp only [Sections.read, threads_edited alike names]

/-- A frame of an image, and one that no image holds. -/
def reportedStack : Text :=
  "Thread 0 Crashed:\r\n0 My App  0x1010  0x1000 + 16\r\n1 gone 0x9 0x0 + 9".toList

def reportedImage : Image :=
  { base := 0x1000
    size := 0x100
    name := "My App".toList
    path := "/My App".toList
    arch := none
    version := none
    uuid := none
    fromUnofficialSource := true
    newerThanOsBuild := false }

/-- A table whose only name looks like the base of a raw location. -/
def rawLookingTable : SymbolTable := SymbolTable.empty.insert (8, "0x1".toList)

theorem symbolication_stable_with_raw_looking_name :
    (Id.run (run reportedStack [reportedImage] fun _ => some rawLookingTable)).1 =
      "Thread 0 Crashed:\r\n0 My App  0x1010 0x1 + 8\r\n1 gone 0x9 0x0 + 9".toList ∧
    DistinctKeys [reportedImage] ∧ SingleLineNames (fun _ => some rawLookingTable) ∧
    let result := Id.run (run reportedStack [reportedImage] fun _ => some rawLookingTable)
    let again := Id.run (run result.1 [reportedImage] fun _ => some rawLookingTable)
    (Sections.read result.1).fields = (Sections.read reportedStack).fields ∧
      (Sections.read result.1).images = (Sections.read reportedStack).images ∧
      (Sections.read result.1).threads = (Sections.read reportedStack).threads.map
        (Thread.mapFrames (renew [reportedImage] fun _ => some rawLookingTable)) ∧
      again.1 = result.1 ∧ again.2.errors = result.2.errors := by
  have distinct : DistinctKeys [reportedImage] := List.nodup_singleton _
  have names : SingleLineNames (fun _ => some rawLookingTable) := by
    rintro _ _ ⟨⟩ s member
    obtain rfl := List.mem_singleton.mp member
    decide
  exact ⟨by decide +kernel, distinct, names, symbolication_stable distinct names reportedStack⟩

end Symbolication
end CrashTriage
