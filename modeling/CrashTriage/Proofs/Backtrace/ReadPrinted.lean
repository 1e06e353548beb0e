import CrashTriage.Proofs.Backtrace.Printed
import CrashTriage.Proofs.Lists
import CrashTriage.Proofs.Text.Lines

/-
A printed report is read back. Each line of an entry has one meaning; the lines of an entry leave the
reader closed with one more section; names find their sections because no two entries share a number.
-/
namespace CrashTriage

open Text

def lineEnd (carriage : Bool) : Text := if carriage then ['\r', '\n'] else ['\n']

/-- Lines with their ends: a line feed, after a carriage return on the lines that ask for it. -/
def endLines (carriage : Nat → Bool) (first : Nat) (ls : List Text) : Text :=
  (ls.zipIdx first).flatMap fun l => l.1 ++ lineEnd (carriage l.2)

theorem body_of_ended (l : Text) (carriage : Bool) :
    (Line.ofPiece (l ++ lineEnd carriage)).body = dropEndWhile isEnd l := by
  have ends : ∀ c ∈ (lineEnd carriage).reverse, isEnd c = true :=
    List.all_eq_true.mp (by cases carriage <;> decide)
  show dropEndWhile isEnd (l ++ lineEnd carriage) = _
  rw [dropEndWhile, List.reverse_append, List.dropWhile_append_of_pos ends]
  rfl

theorem pieces_of_ended {l : Text} (free : '\n' ∉ l) (carriage : Bool) (rest : Text) :
    pieces (l ++ lineEnd carriage ++ rest) = (l ++ lineEnd carriage) :: pieces rest := by
  cases carriage with
  | false =>
    have cut := pieces_ended l rest free
    simpa [lineEnd] using cut
  | true =>
    have cut := pieces_ended (l ++ ['\r']) rest (by simp [free])
    simpa [lineEnd] using cut

theorem bodies_of_ended (carriage : Nat → Bool) (first : Nat) {ls : List Text}
    (free : ∀ l ∈ ls, '\n' ∉ l) (rest : Text) :
    (fullLines (endLines carriage first ls ++ rest)).map (·.body) =
      ls.map (dropEndWhile isEnd) ++ (fullLines rest).map (·.body) := by
  induction ls generalizing first with
  | nil => rfl
  | cons l ls ih =>
    rw [List.forall_mem_cons] at free
    have here : endLines carriage first (l :: ls) ++ rest =
        l ++ lineEnd (carriage first) ++ (endLines carriage (first + 1) ls ++ rest) := by
      simp [endLines]
    rw [here, fullLines, pieces_of_ended free.1, List.map_cons, List.map_cons, body_of_ended,
      ← fullLines, ih (first + 1) free.2]
    rfl

theorem OneLine.body {l : Text} (one : OneLine l) : dropEndWhile isEnd l = l := by
  have parts : Line.ofPiece (l ++ []) = ⟨l, []⟩ := line_of_parts (by simp) one.stops
  rw [List.append_nil] at parts
  exact congrArg Line.body parts

/-- What a line starts with is kept when its ends are dropped, and nothing else comes to its start. -/
theorem starts_without_ends {start : Text} (solid : start.any isEnd = false) (l : Text) :
    startsWith (dropEndWhile isEnd l) start = startsWith l start := by
  have whole := drop_end_append_take isEnd l
  rw [Bool.eq_iff_iff, startsWith, startsWith, List.isPrefixOf_iff_prefix, List.isPrefixOf_iff_prefix]
  constructor
  · intro front
    exact front.trans ⟨_, whole⟩
  · intro front
    rcases List.prefix_or_prefix_of_prefix front ⟨_, whole⟩ with inBody | ⟨more, longer⟩
    · exact inBody
    · cases more with
      | nil => exact ⟨[], by rw [List.append_nil, ← longer, List.append_nil]⟩
      | cons c more =>
        -- the start would reach into the ends that were dropped
        have inEnds : c ∈ l.reverse.takeWhile isEnd := by
          obtain ⟨tail, same⟩ := front
          rw [← longer, List.append_assoc] at same
          have ends := List.append_cancel_left (same.trans whole.symm)
          rw [← List.mem_reverse, ← ends]
          exact List.mem_cons_self
        have other := List.any_eq_false.mp solid c (longer ▸ List.mem_append_right _ List.mem_cons_self)
        exact absurd (List.mem_takeWhile_imp inEnds) other

theorem pieces_start {front : Text} (nonempty : front ≠ []) (free : '\n' ∉ front) (t : Text) :
    ∃ more rest, pieces (front ++ t) = (front ++ more) :: rest := by
  induction front with
  | nil => contradiction
  | cons c front ih =>
    rw [List.mem_cons, not_or] at free
    rw [List.cons_append, pieces, if_neg (Ne.symm free.1)]
    cases front with
    | nil =>
      rw [List.nil_append]
      cases pieces t with
      | nil => exact ⟨[], [], rfl⟩
      | cons piece rest => exact ⟨piece, rest, rfl⟩
    | cons d front =>
      obtain ⟨more, rest, cut⟩ := ih (List.cons_ne_nil d front) free.2
      rw [cut]
      exact ⟨more, rest, rfl⟩

theorem images_first_line {images : Text} (starts : BacktraceLine.startsImages images = true) :
    ∃ body rest, (fullLines images).map (·.body) = body :: rest ∧
      BacktraceLine.startsImages body = true := by
  obtain ⟨t, rfl⟩ := List.isPrefixOf_iff_prefix.mp starts
  have nonempty : BacktraceLine.imagesHeading ≠ [] := by decide
  obtain ⟨more, rest, cut⟩ := pieces_start nonempty (by decide) t
  rw [fullLines, cut, List.map_cons, List.map_cons]
  refine ⟨_, _, rfl, ?_⟩
  show startsWith (dropEndWhile isEnd (BacktraceLine.imagesHeading ++ more)) _ = true
  rw [starts_without_ends (by decide)]
  exact List.isPrefixOf_iff_prefix.mpr ⟨more, rfl⟩

/-- A line of a report's header: it reads neither as a thread's line nor as the head of the images. -/
@[mk_iff]
structure HeaderLine (line : Text) : Prop where
  free : '\n' ∉ line
  noThread : startsWith line "Thread ".toList = false
  noImages : BacktraceLine.startsImages line = false

instance (line : Text) : Decidable (HeaderLine line) := decidable_of_iff _ (headerLine_iff line).symm

theorem HeaderLine.body_start {line : Text} (header : HeaderLine line) :
    startsWith (dropEndWhile isEnd line) "Thread ".toList = false ∧
      BacktraceLine.startsImages (dropEndWhile isEnd line) = false := by
  rw [BacktraceLine.startsImages, starts_without_ends (by decide), starts_without_ends (by decide)]
  exact ⟨header.noThread, header.noImages⟩

theorem HeaderLine.step {line : Text} (header : HeaderLine line) {p : Thread.Progress}
    (closed : p.inStack = false) (number : Nat) :
    p.step (dropEndWhile isEnd line, number) = p := by
  rw [Thread.Progress.step, BacktraceLine.ofLine, strip_none_of_other_start header.body_start.1,
    Option.bind_none]
  cases allBlank (dropEndWhile isEnd line) with
  | true =>
    show ({ p with inStack := false } : Thread.Progress) = p
    rw [← closed]
  | false =>
    dsimp only [Bool.false_eq_true, if_false]
    rw [closed]
    rfl

/-- What a heading says, once its number is read. -/
theorem read_heading {n : Nat} (small : n < 2 ^ 31) {rest : Text}
    (apart : ∀ c, rest.head? = some c → isDigit c = false) :
    BacktraceLine.readHeading? (ofNat n ++ rest) =
      if trim rest = [':'] then some (.stack n false)
      else if trim rest = "Crashed:".toList then some (.stack n true)
      else match strip? "name:".toList (trim rest) with
        | some name => some (.naming n (trim name))
        | none =>
          if startsWith (trim rest) "crashed with".toList || endsWith (trim rest) "State:".toList then
            some .state
          else none := by
  have stops : rest.takeWhile isDigit = [] := by
    cases rest with
    | nil => rfl
    | cons c rest => rw [List.takeWhile_cons, apart c rfl]; rfl
  have digits : (ofNat n ++ rest).takeWhile isDigit = ofNat n := by
    rw [List.takeWhile_append_of_pos (digits_of_nat n), stops, List.append_nil]
  have some_ : (ofNat n).isEmpty = false := by simp [of_nat_ne_nil n]
  have after : (ofNat n ++ rest).drop (ofNat n).length = rest := List.drop_left
  unfold BacktraceLine.readHeading?
  simp only [digits, some_, after, read_index_of_nat small, Option.bind_eq_bind, Option.bind_some,
    Bool.false_eq_true, if_false]
  rfl

namespace ThreadEntry

variable {t : ThreadEntry} {width : Nat}

theorem heading_kind (printable : t.Printable) :
    BacktraceLine.ofLine t.heading = .stack t.index t.crashed := by
  have found := (strip_eq_some_iff "Thread ".toList t.heading _).mpr rfl
  rw [BacktraceLine.ofLine, found, Option.bind_some]
  cases t.crashed with
  | false =>
    rw [read_heading printable.index (by simp; decide)]
    rfl
  | true =>
    rw [read_heading printable.index (by simp; decide)]
    rfl

theorem name_line_kind (printable : t.Printable) {name : Text} (named : t.name = some name) :
    BacktraceLine.ofLine (t.nameLine name) = .naming t.index name := by
  have trimmed := (printable.name name named).1
  have found := (strip_eq_some_iff "Thread ".toList (t.nameLine name) _).mpr rfl
  have apart : ∀ c, (' ' :: ("name:".toList ++ ' ' :: name)).head? = some c → isDigit c = false := by
    intro c first
    obtain rfl : ' ' = c := by simpa using first
    decide
  obtain ⟨rest, tail, same⟩ : ∃ rest,
      trim (' ' :: ("name:".toList ++ ' ' :: name)) = "name:".toList ++ rest ∧ trim rest = name := by
    cases name with
    | nil => exact ⟨[], rfl, rfl⟩
    | cons c name =>
      refine ⟨' ' :: c :: name, ?_, FrameEntry.trim_after_blank trimmed⟩
      have whole : Trimmed ("name:".toList ++ ' ' :: c :: name) := by
        refine ⟨fun d first => ?_, fun d last => ?_⟩
        · obtain rfl : 'n' = d := by simpa using first
          decide
        · exact trimmed.stop d (by simpa using last)
      exact FrameEntry.trim_after_blank whole
  have stripped := (strip_eq_some_iff "name:".toList ("name:".toList ++ rest) rest).mpr rfl
  have other : ∀ end_ : Text, "name:".toList.take 2 ≠ end_.take 2 → "name:".toList ++ rest ≠ end_ := by
    rintro _ different rfl
    exact different rfl
  rw [BacktraceLine.ofLine, found, Option.bind_some, read_heading printable.index apart, tail,
    if_neg (other _ (by decide)), if_neg (other _ (by decide)), stripped]
  dsimp only
  rw [same]

/-- The section that an entry leaves, before names are given out. -/
def unnamed (width : Nat) (t : ThreadEntry) (first : Nat) : Thread :=
  { t.thread width first with name := none }

def namings (t : ThreadEntry) : List (Nat × Text) := t.name.toList.map (t.index, ·)

theorem step_frame {e : FrameEntry} (printable : e.Printable) {p : Thread.Progress} (isOpen : p.inStack = true)
    (number : Nat) :
    p.step (e.line width, number) =
      { p with sections := Thread.addFrame (e.frame width number) p.sections } := by
  have kind : BacktraceLine.ofLine (e.line width) = .other (e.line width) :=
    (FrameEntry.frameHead width e printable).line_kind _
  rw [Thread.Progress.step, kind]
  dsimp only
  rw [if_pos isOpen, FrameEntry.read_line printable]

theorem run_frame_lines {frames : List FrameEntry} (printable : ∀ e ∈ frames, e.Printable) (first : Nat)
    (s : Thread) (rest : List Thread) (names : List (Nat × Text)) :
    ((frames.map (·.line width)).zipIdx first).foldl Thread.Progress.step ⟨s :: rest, names, true⟩ =
      ⟨{ s with frames := s.frames ++ (frames.zipIdx first).map fun e => e.1.frame width e.2 } :: rest,
        names, true⟩ := by
  induction frames generalizing first s with
  | nil => simp
  | cons e frames ih =>
    rw [List.forall_mem_cons] at printable
    rw [List.map_cons, List.zipIdx_cons, List.foldl_cons, step_frame printable.1 rfl, Thread.addFrame,
      ih printable.2]
    simp

theorem run_section (printable : t.Printable) (first : Nat) (sections : List Thread)
    (names : List (Nat × Text)) :
    ((t.lines width).zipIdx first).foldl Thread.Progress.step ⟨sections, names, false⟩ =
      ⟨t.unnamed width first :: sections, t.namings ++ names, false⟩ := by
  -- the heading opens the stack, and the blank line after the frames closes it
  have opened : ∀ n ns, ((t.heading :: t.frames.map (FrameEntry.line width) ++ [[]]).zipIdx n).foldl
      Thread.Progress.step ⟨sections, ns, false⟩ =
        ⟨⟨t.index, t.crashed, none,
          (t.frames.zipIdx (n + 1)).map fun (e : FrameEntry × Nat) => e.1.frame width e.2⟩ :: sections,
          ns, false⟩ := by
    intro n ns
    have heading : Thread.Progress.step ⟨sections, ns, false⟩ (t.heading, n) =
        ⟨⟨t.index, t.crashed, none, []⟩ :: sections, ns, true⟩ := by
      rw [Thread.Progress.step, heading_kind printable]
    rw [List.zipIdx_append, List.foldl_append, List.zipIdx_cons, List.foldl_cons, heading,
      run_frame_lines printable.frames]
    rfl
  cases named : t.name with
  | none =>
    have whole : t.lines width = t.heading :: t.frames.map (FrameEntry.line width) ++ [[]] := by
      simp [lines, named]
    rw [whole, opened]
    simp [unnamed, thread, namings, named]
  | some name =>
    have whole : t.lines width = t.nameLine name :: (t.heading :: t.frames.map (FrameEntry.line width) ++ [[]]) := by
      simp [lines, named]
    have naming : Thread.Progress.step ⟨sections, names, false⟩ (t.nameLine name, first) =
        ⟨sections, (t.index, name) :: names, false⟩ := by
      rw [Thread.Progress.step, name_line_kind printable named]
    rw [whole, List.zipIdx_cons, List.foldl_cons, naming, opened]
    simp [unnamed, thread, namings, named]

theorem run_sections {entries : List ThreadEntry} (printable : ∀ t ∈ entries, t.Printable) (first : Nat)
    (sections : List Thread) (names : List (Nat × Text)) :
    ((entries.flatMap (·.lines width)).zipIdx first).foldl Thread.Progress.step ⟨sections, names, false⟩ =
      ⟨((threads width first entries).map fun s => { s with name := none }).reverse ++ sections,
        (entries.flatMap (·.namings)).reverse ++ names, false⟩ := by
  induction entries generalizing first sections names with
  | nil => rfl
  | cons t entries ih =>
    rw [List.forall_mem_cons] at printable
    have single : t.namings.reverse = t.namings := by
      cases named : t.name <;> simp [namings, named]
    rw [List.flatMap_cons, List.zipIdx_append, List.foldl_append, run_section printable.1, ih printable.2,
      List.flatMap_cons, List.reverse_append, threads, List.map_cons, List.reverse_cons, single]
    simp [unnamed]

theorem threads_entries (first : Nat) (entries : List ThreadEntry) :
    (threads width first entries).map (fun s => (s.index, s.name)) = entries.map fun t => (t.index, t.name) := by
  induction entries generalizing first with
  | nil => rfl
  | cons t entries ih => rw [threads, List.map_cons, ih, List.map_cons]; rfl

end ThreadEntry

/-- Where no two sections share a number, each finds the latest name of its number. -/
theorem assign_names_distinct {sections : List Thread} (distinct : (sections.map (·.index)).Nodup)
    (names : List (Nat × Text)) :
    Thread.assignNames names sections = sections.map fun s => { s with name := names.lookup s.index } := by
  induction sections generalizing names with
  | nil => rfl
  | cons s sections ih =>
    obtain ⟨new, rest⟩ := List.nodup_cons.mp distinct
    rw [Thread.assignNames, ih rest, List.map_cons]
    congr 1
    refine List.map_congr_left fun other member => ?_
    have differs : other.index ≠ s.index := fun same =>
      new (List.mem_map.mpr ⟨other, member, same⟩)
    have found := Keyed.lookup_filter (fun k => k != s.index) other.index names
    rw [found, if_pos (bne_iff_ne.mpr differs)]

theorem lookup_namings {entries : List ThreadEntry} (distinct : (entries.map (·.index)).Nodup)
    {t : ThreadEntry} (member : t ∈ entries) :
    (entries.flatMap (·.namings)).reverse.lookup t.index = t.name := by
  have keys : ((entries.flatMap (·.namings)).map (·.1)).Sublist (entries.map (·.index)) := by
    clear distinct member
    induction entries with
    | nil => exact .slnil
    | cons t entries ih =>
      cases named : t.name with
      | none => simpa [ThreadEntry.namings, named] using ih.cons t.index
      | some name => simpa [ThreadEntry.namings, named] using ih
  have once : ((entries.flatMap (·.namings)).reverse.map (·.1)).Nodup := by
    rw [List.map_reverse, List.nodup_reverse]
    exact distinct.sublist keys
  apply Option.ext
  intro name
  rw [Keyed.lookup_iff_mem once, List.mem_reverse, List.mem_flatMap]
  constructor
  · rintro ⟨other, there, naming⟩
    obtain ⟨found, named, same⟩ := List.mem_map.mp naming
    obtain ⟨index, rfl⟩ : other.index = t.index ∧ found = name := by simpa using same
    obtain rfl := List.inj_on_of_nodup_map distinct there member index
    simpa using named
  · intro named
    exact ⟨t, member, by simp [ThreadEntry.namings, named]⟩

theorem not_images_of_thread (rest : Text) :
    BacktraceLine.startsImages ("Thread ".toList ++ rest) = false := by
  have thread : "Thread ".toList = 'T' :: "hread ".toList := rfl
  have images : BacktraceLine.imagesHeading = 'B' :: "inary Images:".toList := rfl
  rw [BacktraceLine.startsImages, startsWith, thread, images, List.cons_append, List.isPrefixOf_cons_cons]
  rfl

theorem one_line_ended {front : Text} {c : Char} (free : '\n' ∉ front) (other : isEnd c = false) :
    OneLine (front ++ [c]) := by
  constructor
  · have different : '\n' ≠ c := by
      rintro rfl
      contradiction
    simp [free, different]
  · intro d last
    rw [List.getLast?_concat] at last
    cases last
    exact other

/-- What a line of an entry is to the reader of lines. -/
theorem entry_line {t : ThreadEntry} {width : Nat} (printable : t.Printable) {l : Text}
    (member : l ∈ t.lines width) : OneLine l ∧ BacktraceLine.startsImages l = false := by
  have number : '\n' ∉ ofNat t.index := fun feed => by
    exact absurd (digits_of_nat t.index '\n' feed) (by decide)
  simp only [ThreadEntry.lines, List.mem_append, List.mem_cons, List.mem_map, Option.mem_toList,
    List.not_mem_nil, or_false] at member
  rcases member with (⟨name, named, rfl⟩ | rfl | ⟨e, there, rfl⟩) | rfl
  · obtain ⟨trimmed, free⟩ := printable.name name named
    have parts : t.nameLine name =
        ("Thread ".toList ++ (ofNat t.index ++ ' ' :: "name:".toList) ++ [' ']) ++ name := by
      unfold ThreadEntry.nameLine
      simp only [List.append_assoc, List.cons_append, List.nil_append]
    have front : OneLine ("Thread ".toList ++ (ofNat t.index ++ ' ' :: "name:".toList) ++ [' ']) :=
      one_line_ended (by simp [number]) (by decide)
    refine ⟨?_, not_images_of_thread _⟩
    rw [parts]
    exact one_line_after front.free (one_line_of_trimmed trimmed free) front.stops
  · refine ⟨?_, not_images_of_thread _⟩
    have parts : t.heading =
        "Thread ".toList ++ (ofNat t.index ++ if t.crashed then " Crashed".toList else []) ++ [':'] := by
      unfold ThreadEntry.heading
      simp only [List.append_assoc]
    rw [parts]
    refine one_line_ended ?_ (by decide)
    cases t.crashed <;> simp [number]
  · have entry := printable.frames e there
    exact ⟨FrameEntry.one_line entry, ((FrameEntry.frameHead width e entry).not_read_as_heading _).2⟩
  · exact ⟨⟨by simp, by simp⟩, rfl⟩

/-- A report: header lines, the lines of its threads, and what comes from the image table on. -/
def printReport (width : Nat) (carriage : Nat → Bool) (header : List Text) (entries : List ThreadEntry)
    (images : Text) : Text :=
  endLines carriage 0 (header ++ entries.flatMap (·.lines width)) ++ images

theorem printed_backtrace_lines (width : Nat) (carriage : Nat → Bool) {header : List Text}
    {entries : List ThreadEntry} {images : Text} (plain : ∀ line ∈ header, HeaderLine line)
    (printable : ∀ t ∈ entries, t.Printable)
    (table : images = [] ∨ BacktraceLine.startsImages images = true) :
    Thread.backtraceLines (printReport width carriage header entries images) =
      (header.map (dropEndWhile isEnd) ++ entries.flatMap (·.lines width)).zipIdx := by
  have entryLine : ∀ l ∈ entries.flatMap (·.lines width), OneLine l ∧ BacktraceLine.startsImages l = false := by
    intro l member
    obtain ⟨t, there, inside⟩ := List.mem_flatMap.mp member
    exact entry_line (printable t there) inside
  have free : ∀ l ∈ header ++ entries.flatMap (·.lines width), '\n' ∉ l := by
    intro l member
    rcases List.mem_append.mp member with front | back
    · exact (plain l front).free
    · exact (entryLine l back).1.free
  have kept : (entries.flatMap (·.lines width)).map (dropEndWhile isEnd) = entries.flatMap (·.lines width) :=
    (List.map_congr_left fun l member => (entryLine l member).1.body).trans (List.map_id _)
  have before : ∀ l ∈ (header.map (dropEndWhile isEnd) ++ entries.flatMap (·.lines width)).zipIdx,
      (!BacktraceLine.startsImages l.1) = true := by
    intro l member
    rw [Bool.not_eq_true']
    rcases List.mem_append.mp (List.fst_mem_of_mem_zipIdx member) with front | back
    · obtain ⟨line, there, same⟩ := List.mem_map.mp front
      rw [← same]
      exact (plain line there).body_start.2
    · exact (entryLine l.1 back).2
  rw [Thread.backtraceLines, printReport, bodies_of_ended carriage 0 free, List.map_append, kept,
    List.zipIdx_append, List.takeWhile_append_of_pos before]
  rcases table with rfl | starts
  · exact List.append_nil _
  · obtain ⟨body, rest, first, starts⟩ := images_first_line starts
    rw [first, List.zipIdx_cons, List.takeWhile_cons_of_neg (by simp [starts]), List.append_nil]

theorem run_header {header : List Text} (plain : ∀ line ∈ header, HeaderLine line) (first : Nat) :
    ((header.map (dropEndWhile isEnd)).zipIdx first).foldl Thread.Progress.step Thread.Progress.start =
      Thread.Progress.start := by
  induction header generalizing first with
  | nil => rfl
  | cons line header ih =>
    rw [List.forall_mem_cons] at plain
    rw [List.map_cons, List.zipIdx_cons, List.foldl_cons, plain.1.step rfl, ih plain.2]

/-- Threads that are printed are read back, each frame with the number of its line and where its address
ends, and with a raw location just where its detail is one. -/
theorem Thread.read_printed_report (width : Nat) (carriage : Nat → Bool) {header : List Text}
    {entries : List ThreadEntry} {images : Text} (plain : ∀ line ∈ header, HeaderLine line)
    (printable : ∀ t ∈ entries, t.Printable) (distinct : (entries.map (·.index)).Nodup)
    (table : images = [] ∨ BacktraceLine.startsImages images = true) :
    readAll (printReport width carriage header entries images) =
        ThreadEntry.threads width header.length entries ∧
      ∀ t ∈ ThreadEntry.threads width header.length entries, ∀ f ∈ t.frames, ∀ location,
        f.raw = some location ↔ RawLocation.Written f.detail location := by
  constructor
  · have named := @ThreadEntry.threads_entries width header.length entries
    have indices : (ThreadEntry.threads width header.length entries).map (·.index) = entries.map (·.index) := by
      simpa [Function.comp_def] using congrArg (List.map Prod.fst) named
    rw [readAll, printed_backtrace_lines width carriage plain printable table, List.zipIdx_append,
      List.foldl_append, run_header plain, List.length_map, Nat.zero_add, Progress.start,
      ThreadEntry.run_sections printable]
    dsimp only
    rw [List.append_nil, List.append_nil, List.reverse_reverse, assign_names_distinct]
    · rw [List.map_map]
      refine (List.map_congr_left fun t member => ?_).trans (List.map_id _)
      have pair : (t.index, t.name) ∈ entries.map fun t => (t.index, t.name) :=
        named ▸ List.mem_map.mpr ⟨t, member, rfl⟩
      obtain ⟨e, there, same⟩ := List.mem_map.mp pair
      obtain ⟨index, name⟩ := Prod.mk.inj same
      have found := lookup_namings distinct there
      rw [index, name] at found
      show ({ t with name := _ } : Thread) = t
      rw [found]
    · rw [List.map_map]
      show ((ThreadEntry.threads width header.length entries).map (·.index)).Nodup
      rwa [indices]
  · intro t member f inside location
    rw [← raw_location_iff]
    suffices same : f.raw = RawLocation.read? f.detail by rw [same]
    clear distinct plain printable
    generalize header.length = first at member
    induction entries generalizing first with
    | nil => contradiction
    | cons e entries ih =>
      rcases List.mem_cons.mp member with rfl | later
      · obtain ⟨x, _, rfl⟩ := List.mem_map.mp inside
        rfl
      · exact ih _ later

theorem Thread.read_named_and_crashed :
    readAll (printReport 8 (fun n => n % 2 == 0) ["Process: Notes".toList, []]
        [⟨0, false, some "main queue".toList, [⟨0, "UI Kit".toList, 0x1F0, "0x1000 + 12".toList⟩]⟩,
          ⟨3, true, none, [⟨7, "libé".toList, 0xABCDEF012, "+ 12".toList⟩]⟩]
        "Binary Images:\n1   x   0x1".toList) =
      [⟨0, false, some "main queue".toList,
          [⟨0, "UI Kit".toList, 0x1F0, "0x1000 + 12".toList, some ⟨0x1000, 12⟩, 4, 23⟩]⟩,
        ⟨3, true, none, [⟨7, "libé".toList, 0xABCDEF012, "+ 12".toList, none, 7, 23⟩]⟩] :=
  (read_printed_report 8 (fun n => n % 2 == 0) (by decide +kernel) (by decide +kernel) (by decide +kernel)
    (.inr (by decide +kernel))).1.trans (by decide +kernel)

end CrashTriage
