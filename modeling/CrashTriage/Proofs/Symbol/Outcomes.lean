import CrashTriage.Proofs.Backtrace.Frames
import CrashTriage.Symbol.Symbolication

/-
What becomes of each raw frame. A frame's outcome depends on the frame, the images and the tables
alone; a table is the one that was given for the first owning image with the same base and path.
-/
namespace CrashTriage

namespace Image

theorem least_none_iff (images : List Image) : least? images = none ↔ images = [] := by
  cases images with
  | nil => simp [least?]
  | cons image rest =>
    simp only [least?, reduceCtorEq, iff_false]
    split
    · split <;> simp
    · simp

theorem least_mem {images : List Image} {image : Image} (least : least? images = some image) :
    image ∈ images := by
  induction images with
  | nil => cases least
  | cons first rest ih =>
    unfold least? at least
    split at least
    · rename_i other found
      split at least
      · exact List.mem_cons_of_mem _ (ih (found.trans least))
      · cases least
        exact List.mem_cons_self
    · cases least
      exact List.mem_cons_self

theorem owner_none {images : List Image} {address : UInt64} (alone : owner? images address = none) :
    ∀ i ∈ images, i.contains address = false := by
  have empty := List.filter_eq_nil_iff.mp ((least_none_iff _).mp alone)
  intro i member
  simpa using empty i member

theorem owner_contains {images : List Image} {address : UInt64} {image : Image}
    (owner : owner? images address = some image) : image.base.toNat ≤ address.toNat := by
  have holds := (List.mem_filter.mp (least_mem owner)).2
  simp only [contains, Bool.and_eq_true, decide_eq_true_eq] at holds
  exact UInt64.le_iff_toNat_le.mp holds.1

end Image

namespace SymbolTable

theorem lookup_at_or_below {table : SymbolTable} {offset : UInt64} {s : Symbol}
    (found : table.lookup? offset = some s) : s ∈ table.symbols ∧ s.1.toNat ≤ offset.toNat := by
  have member := List.mem_of_getLast? found
  have below := List.mem_takeWhile_imp member
  simp only [decide_eq_true_eq] at below
  exact ⟨(List.takeWhile_sublist _).mem member, UInt64.le_iff_toNat_le.mp below⟩

theorem lookup_none {table : SymbolTable} {offset : UInt64} (missing : table.lookup? offset = none) :
    ∀ s ∈ table.symbols, offset.toNat < s.1.toNat := by
  have ascending := table.ascending
  unfold lookup? at missing
  cases symbols : table.symbols with
  | nil => simp
  | cons first rest =>
    rw [symbols] at missing ascending
    have above : ¬ first.1 ≤ offset := by
      intro below
      rw [List.takeWhile_cons_of_pos (by simpa using below), List.getLast?_eq_none_iff] at missing
      cases missing
    rw [UInt64.le_iff_toNat_le] at above
    intro s member
    rcases List.mem_cons.mp member with rfl | later
    · omega
    · have order := UInt64.lt_iff_toNat_lt.mp ((List.pairwise_cons.mp ascending).1 s later)
      omega

end SymbolTable

namespace Symbolication

open Text

variable {images : List Image} {source : Image → Option SymbolTable}

/-- The first owner of a frame that has a base and path. -/
def askedImage? (images : List Image) (frames : List Frame) (key : UInt64 × Path) : Option Image :=
  (frames.filterMap fun f => Image.owner? images f.address).find? fun i => (i.base, i.path) == key

/-- The table for an image when frames are visited in order. -/
def tableAmong (images : List Image) (source : Image → Option SymbolTable) (frames : List Frame)
    (image : Image) : Option SymbolTable :=
  (askedImage? images frames (image.base, image.path)).bind source

/-- The name found for a frame and the distance from the symbol's start, or why there is none. -/
def outcome (images : List Image) (table : Image → Option SymbolTable) (f : Frame) :
    Except SymbolicationError (Text × Nat) :=
  match Image.owner? images f.address with
  | none => .error (.noImage f.address)
  | some image =>
    match table image with
    | none => .error (.noSymbols f.address image.path)
    | some t =>
      match t.lookup? (f.address - image.base) with
      | none => .error (.noSymbol f.address image.path)
      | some (start, name) => .ok (name, (f.address - image.base - start).toNat)

/-- What is written after an address. -/
def written (found : Text × Nat) : Text := ' ' :: found.1 ++ " + ".toList ++ ofNat found.2

def edit? (images : List Image) (table : Image → Option SymbolTable) (f : Frame) : Option LineEdit :=
  match outcome images table f with
  | .ok found => some ⟨f.line, f.addressEnd, written found⟩
  | .error _ => none

def error? (images : List Image) (table : Image → Option SymbolTable) (f : Frame) :
    Option SymbolicationError :=
  match outcome images table f with
  | .ok _ => none
  | .error e => some e

theorem asked_image_append (images : List Image) (done more : List Frame) (key : UInt64 × Path) :
    askedImage? images (done ++ more) key =
      (askedImage? images done key).or (askedImage? images more key) := by
  rw [askedImage?, List.filterMap_append, List.find?_append]
  rfl

theorem asked_image_alone (images : List Image) (f : Frame) (key : UInt64 × Path) :
    askedImage? images [f] key = (Image.owner? images f.address).filter fun i => (i.base, i.path) == key := by
  unfold askedImage?
  cases owner : Image.owner? images f.address with
  | none => simp [owner]
  | some image => simp [owner, Option.filter]

theorem owner_is_asked {done : List Frame} {f : Frame} {image : Image} (member : f ∈ done)
    (owner : Image.owner? images f.address = some image) :
    ∃ first, askedImage? images done (image.base, image.path) = some first := by
  rw [← Option.isSome_iff_exists, askedImage?, List.find?_isSome]
  exact ⟨image, List.mem_filterMap.mpr ⟨f, member, owner⟩, beq_self_eq_true _⟩

theorem outcome_later {done : List Frame} {f : Frame} (member : f ∈ done) (more : List Frame) :
    outcome images (tableAmong images source (done ++ more)) f =
      outcome images (tableAmong images source done) f := by
  unfold outcome
  cases owner : Image.owner? images f.address with
  | none => rfl
  | some image =>
    obtain ⟨first, asked⟩ := owner_is_asked member owner
    have same : tableAmong images source (done ++ more) image = tableAmong images source done image := by
      rw [tableAmong, asked_image_append, asked, Option.some_or, tableAmong, asked]
    simp only [same]

/-- What is known after some frames were visited. -/
structure Visited (images : List Image) (source : Image → Option SymbolTable) (done : List Frame)
    (p : Progress) : Prop where
  tables : ∀ key, p.tables.lookup key = (askedImage? images done key).map source
  edits : p.edits = (done.filterMap (edit? images (tableAmong images source done))).reverse
  errors : p.errors = (done.filterMap (error? images (tableAmong images source done))).reverse

theorem use_outcome (p : Progress) {f : Frame} {image : Image} (table : Image → Option SymbolTable)
    (owner : Image.owner? images f.address = some image) :
    p.use f image (table image) =
      { tables := p.tables
        edits := (edit? images table f).toList ++ p.edits
        errors := (error? images table f).toList ++ p.errors } := by
  unfold edit? error? outcome
  rw [owner]
  dsimp only
  cases table image with
  | none => rfl
  | some t =>
    dsimp only [Progress.use]
    cases t.lookup? (f.address - image.base) with
    | none => rfl
    | some s => rfl

/-- Whatever a step does to the tables, it answers for its frame by the tables known after it. -/
def Answers (images : List Image) (source : Image → Option SymbolTable) (done : List Frame)
    (p : Progress) (f : Frame) : Prop :=
  ∃ tables, (∀ key, tables.lookup key = (askedImage? images (done ++ [f]) key).map source) ∧
    Id.run (Progress.step images source p f) =
      { tables
        edits := (edit? images (tableAmong images source (done ++ [f])) f).toList ++ p.edits
        errors := (error? images (tableAmong images source (done ++ [f])) f).toList ++ p.errors }

section Step

variable {done : List Frame} {p : Progress} {f : Frame} {image : Image}

theorem answers_unowned (visited : Visited images source done p)
    (unowned : Image.owner? images f.address = none) : Answers images source done p f := by
  refine ⟨p.tables, fun key => ?_, ?_⟩
  · rw [visited.tables, asked_image_append, asked_image_alone, unowned, Option.filter_none,
      Option.or_none]
  · simp only [Progress.step, edit?, error?, outcome, unowned]
    rfl

theorem answers_known (visited : Visited images source done p)
    (owner : Image.owner? images f.address = some image) {first : Image}
    (before : askedImage? images done (image.base, image.path) = some first) :
    Answers images source done p f := by
  have known : p.tables.lookup (image.base, image.path) = some (source first) := by
    rw [visited.tables, before, Option.map_some]
  have answer : tableAmong images source (done ++ [f]) image = source first := by
    rw [tableAmong, asked_image_append, before, Option.some_or]
    rfl
  refine ⟨p.tables, fun key => ?_, ?_⟩
  · rw [visited.tables, asked_image_append, asked_image_alone, owner]
    by_cases same : (image.base, image.path) = key
    · rw [← same, before]
      rfl
    · simp [Option.filter, same]
  · have used := use_outcome p (tableAmong images source (done ++ [f])) owner
    rw [answer] at used
    rw [← used]
    simp only [Progress.step, owner, known]
    rfl

theorem answers_new (visited : Visited images source done p)
    (owner : Image.owner? images f.address = some image)
    (before : askedImage? images done (image.base, image.path) = none) :
    Answers images source done p f := by
  have unknown : p.tables.lookup (image.base, image.path) = none := by
    rw [visited.tables, before, Option.map_none]
  have answer : tableAmong images source (done ++ [f]) image = source image := by
    rw [tableAmong, asked_image_append, before, asked_image_alone, owner]
    simp [Option.filter]
  refine ⟨((image.base, image.path), source image) :: p.tables, fun key => ?_, ?_⟩
  · rw [asked_image_append, asked_image_alone, owner, List.lookup_cons, visited.tables]
    by_cases same : (image.base, image.path) = key
    · rw [← same, before]
      simp [Option.filter]
    · have other : (key == (image.base, image.path)) = false := by simpa using Ne.symm same
      simp [Option.filter, same, other]
  · have used := use_outcome
      { p with tables := ((image.base, image.path), source image) :: p.tables }
      (tableAmong images source (done ++ [f])) owner
    rw [answer] at used
    rw [← used]
    simp only [Progress.step, owner, unknown]
    rfl

theorem answers_step (visited : Visited images source done p) (f : Frame) :
    Answers images source done p f := by
  cases owner : Image.owner? images f.address with
  | none => exact answers_unowned visited owner
  | some image =>
    cases before : askedImage? images done (image.base, image.path) with
    | some first => exact answers_known visited owner before
    | none => exact answers_new visited owner before

theorem step_visited (visited : Visited images source done p) (f : Frame) :
    Visited images source (done ++ [f]) (Id.run (Progress.step images source p f)) := by
  obtain ⟨tables, known, after⟩ := answers_step visited f
  have earlierEdits : done.filterMap (edit? images (tableAmong images source (done ++ [f]))) =
      done.filterMap (edit? images (tableAmong images source done)) :=
    List.filterMap_congr fun g member => by rw [edit?, edit?, outcome_later member]
  have earlierErrors : done.filterMap (error? images (tableAmong images source (done ++ [f]))) =
      done.filterMap (error? images (tableAmong images source done)) :=
    List.filterMap_congr fun g member => by rw [error?, error?, outcome_later member]
  rw [after]
  refine ⟨known, ?_, ?_⟩
  · rw [List.filterMap_append, List.reverse_append, earlierEdits, ← visited.edits]
    cases found : edit? images (tableAmong images source (done ++ [f])) f <;> simp [found]
  · rw [List.filterMap_append, List.reverse_append, earlierErrors, ← visited.errors]
    cases found : error? images (tableAmong images source (done ++ [f])) f <;> simp [found]

theorem run_visited (more : List Frame) (visited : Visited images source done p) :
    Visited images source (done ++ more)
      (Id.run (more.foldlM (Progress.step images source) p)) := by
  induction more generalizing done p with
  | nil => simpa using visited
  | cons f more ih =>
    have after := ih (step_visited visited f)
    rw [List.append_assoc, List.singleton_append] at after
    rw [List.foldlM_cons]
    exact after

end Step

theorem start_visited : Visited images source [] Progress.start :=
  ⟨fun _ => rfl, rfl, rfl⟩

/-- The table for an image in a report. -/
def tableIn (images : List Image) (source : Image → Option SymbolTable) (text : Text) :
    Image → Option SymbolTable :=
  tableAmong images source (rawFrames text)

def editsOf (images : List Image) (source : Image → Option SymbolTable) (text : Text) :
    List LineEdit :=
  (rawFrames text).filterMap (edit? images (tableIn images source text))

def errorsOf (images : List Image) (source : Image → Option SymbolTable) (text : Text) :
    List SymbolicationError :=
  (rawFrames text).filterMap (error? images (tableIn images source text))

theorem run_outcomes (images : List Image) (source : Image → Option SymbolTable) (text : Text) :
    Id.run (run text images source) =
      (editText (editsOf images source text).reverse text,
        ⟨(editsOf images source text).length, errorsOf images source text⟩) := by
  have visited := run_visited (rawFrames text) (@start_visited images source)
  have ran : Id.run (run text images source) =
      let p := Id.run ((rawFrames text).foldlM (Progress.step images source) Progress.start)
      (editText p.edits text, ⟨p.edits.length, p.errors.reverse⟩) := rfl
  rw [ran]
  dsimp only
  rw [visited.edits, visited.errors, List.reverse_reverse, List.length_reverse]
  rfl

end Symbolication
end CrashTriage
