import CrashTriage.Proofs.Disk.LexicalPlaces
import CrashTriage.Proofs.KeptAnswers
import CrashTriage.Symbol.Source

/-
What a source of the images' own files answers over a run of questions, on a disk that does not change.
Tables are kept by the components of a file's path, while a reading depends on the path as it is written and
on the architecture of the image: an image gets the table of the first image that was asked for at its file.
-/
namespace CrashTriage
namespace ObjectFiles

variable {d : Disk} {root : Option Path} {seen : List Image} {image other : Image}
variable {known : List (List Component × Option SymbolTable)}

/-- The tables answered to questions in order. -/
def answers (d : Disk) : ObjectFiles → List Image → List (Option SymbolTable)
  | _, [] => []
  | o, image :: rest =>
    let (table, later) := (symbolsFor d image).run o
    table :: answers d later rest

/-- The table in the file of an image, for its architecture. -/
def readFor (d : Disk) (root : Option Path) (image : Image) : Option SymbolTable :=
  ObjectFile.read? d ((ofRoot root).file image) image.arch

def fileKey (root : Option Path) (image : Image) : List Component :=
  Path.components ((ofRoot root).file image)

theorem symbols_for_known {table : Option SymbolTable} (kept : known.lookup (fileKey root image) = some table) :
    (symbolsFor d image).run ⟨root, known⟩ = (table, ⟨root, known⟩) := by
  have there : known.lookup (Path.components ((⟨root, known⟩ : ObjectFiles).file image)) = some table := kept
  simp [symbolsFor, there]
  rfl

theorem symbols_for_new (absent : known.lookup (fileKey root image) = none) :
    (symbolsFor d image).run ⟨root, known⟩ =
      (readFor d root image, ⟨root, (fileKey root image, readFor d root image) :: known⟩) := by
  have nowhere : known.lookup (Path.components ((⟨root, known⟩ : ObjectFiles).file image)) = none := absent
  simp [symbolsFor, nowhere]
  rfl

theorem symbols_for_step (keeps : KeptAnswers.Keeps (fileKey root) (readFor d root) seen known)
    (image : Image) : ∃ later, (symbolsFor d image).run ⟨root, known⟩ =
        (readFor d root (KeptAnswers.first (fileKey root) seen image), ⟨root, later⟩) ∧
      KeptAnswers.Keeps (fileKey root) (readFor d root) (seen ++ [image]) later := by
  cases kept : known.lookup (fileKey root image) with
  | some table =>
    obtain ⟨rfl, still⟩ := KeptAnswers.known_answer keeps kept
    exact ⟨known, symbols_for_known kept, still⟩
  | none =>
    obtain ⟨itself, still⟩ := KeptAnswers.new_answer keeps kept
    rw [itself]
    exact ⟨_, symbols_for_new kept, still⟩

theorem answers_first (keeps : KeptAnswers.Keeps (fileKey root) (readFor d root) seen known)
    (images : List Image) : answers d ⟨root, known⟩ images =
      KeptAnswers.firstAnswers (fileKey root) (readFor d root) seen images := by
  induction images generalizing seen known with
  | nil => rfl
  | cons image rest ih =>
    obtain ⟨later, answered, still⟩ := symbols_for_step keeps image
    rw [answers, answered, KeptAnswers.firstAnswers]
    exact congrArg _ (ih still)

/-- Files of the same components that are no directories by their spelling, and one architecture. -/
structure ReadAlike (d : Disk) (root : Option Path) (image other : Image) : Prop where
  architecture : image.arch = other.arch
  direct : ∃ r, d.route ((ofRoot root).file image) = .ok r ∧ r.slash = false
  directToo : ∃ r, d.route ((ofRoot root).file other) = .ok r ∧ r.slash = false

theorem read_alike (same : fileKey root image = fileKey root other) (alike : ReadAlike d root image other) :
    readFor d root image = readFor d root other := by
  obtain ⟨r, routed, direct⟩ := alike.direct
  obtain ⟨r', routed', direct'⟩ := alike.directToo
  obtain rfl := Disk.route_of_components same routed routed' (direct.trans direct'.symm)
  unfold readFor ObjectFile.read?
  rw [Disk.read_of_route (routed.trans routed'.symm), alike.architecture]

theorem answers_read_iff (d : Disk) (root : Option Path) (images : List Image) :
    answers d (ofRoot root) images = KeptAnswers.firstAnswers (fileKey root) (readFor d root) [] images ∧
      (answers d (ofRoot root) images = images.map (readFor d root) ↔
        ∀ done image rest, images = done ++ image :: rest →
          readFor d root (KeptAnswers.first (fileKey root) done image) = readFor d root image) ∧
      ((∀ image ∈ images, ∀ other ∈ images, fileKey root image = fileKey root other →
          ReadAlike d root image other) →
        answers d (ofRoot root) images = images.map (readFor d root)) := by
  have kept : answers d (ofRoot root) images = _ := answers_first (KeptAnswers.keeps_nothing _ _) images
  have same_iff := KeptAnswers.first_answers_eq_iff (fileKey root) (readFor d root) [] images
  rw [← kept] at same_iff
  refine ⟨kept, same_iff, fun alike => same_iff.mpr fun done image rest whole => ?_⟩
  rw [List.nil_append]
  rcases KeptAnswers.first_cases (fileKey root) done image with itself | ⟨earlier, same⟩
  · rw [itself]
  · refine read_alike same (alike _ ?_ image ?_ same)
    · rw [whole]
      exact List.mem_append_left _ earlier
    · simp [whole]

def word (n : Nat) : Bytes := [n / 2 ^ 24, n / 2 ^ 16, n / 2 ^ 8, n].map UInt8.ofNat

/-- A file for one architecture with one symbol at offset 16. -/
def thinFile (subtype : Nat) (name : Text) : Bytes :=
  let header := [0xfeedface, 12, subtype, 2, 1, 24, 0]
  let symbolTable := [2, 24, 52, 1, 64, name.length + 3]
  (header ++ symbolTable ++ [1]).flatMap (fun n => (word n).reverse) ++ [0x0f, 1, 0, 0] ++
    (word 16).reverse ++ [0] ++ Text.toBytes ('_' :: name) ++ [0]

/-- A file for two architectures, whose symbols have different names. -/
def universalFile : Bytes :=
  [0xcafebabe, 2, 12, 9, 48, 69, 0, 12, 11, 117, 70, 0].flatMap word ++
    thinFile 9 "v7".toList ++ thinFile 11 "v7s".toList

def universalDisk : Disk where
  nodes := [([], ⟨.directory, 0o755, 0⟩), ([['o']], ⟨.file (.bytes universalFile), 0o644, 0⟩)]
  workingDir := []
  enforced := true
  now := 0

def imageAt (architecture : Text) (uuid : Option Text) (path : Path) : Image where
  base := 0x1000
  size := 0x1000
  name := "App".toList
  path := path
  arch := some architecture
  version := none
  uuid := uuid
  fromUnofficialSource := false
  newerThanOsBuild := false

def sliceImage (architecture : Text) : Image := imageAt architecture none "/o".toList

def oneSymbol (name : Text) : SymbolTable := SymbolTable.ofList [(16, name)]

/-- The second image gets the symbols of the first one's architecture. -/
theorem slice_of_other_architecture :
    let images := [sliceImage "armv7".toList, sliceImage "armv7s".toList]
    answers universalDisk (ofRoot none) images = [some (oneSymbol "v7".toList), some (oneSymbol "v7".toList)] ∧
      images.map (readFor universalDisk none) =
        [some (oneSymbol "v7".toList), some (oneSymbol "v7s".toList)] ∧
      answers universalDisk (ofRoot none) images ≠ images.map (readFor universalDisk none) := by
  decide +kernel

end ObjectFiles
end CrashTriage
