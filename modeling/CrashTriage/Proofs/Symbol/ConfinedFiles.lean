import CrashTriage.Proofs.Image.RowRange
import CrashTriage.Proofs.Symbol.KeptTables
import CrashTriage.Report.Header

/-
Which files symbols are read from. A build identifier that stands in a report names one file in a directory
of symbol files, whatever the identifier is. The path of an image is followed below a root by its names, so
that the image's file may lie elsewhere when the path goes further up than down.
-/
namespace CrashTriage

/-- Nothing on a disk but what is at the path has a say in the answer. -/
def ReadsOnly {α : Type} (path : Path) (answer : Disk → α) : Prop :=
  ∀ d e : Disk, d.isFile path = e.isFile path → d.read path = e.read path → answer d = answer e

namespace Image

open Text

variable {line row inner uuid key : Text} {opening closing : Char} {image : Image}

theorem bracketed_from_row (taken : (takeBracketed opening closing row).2 = some inner) :
    ∀ c ∈ inner, c ∈ row := by
  unfold takeBracketed at taken
  split at taken
  · rename_i before _ upToClosing _ _ closed
    split at taken
    · dsimp only at taken
      split at taken
      · cases taken
      · cases taken
        intro c member
        rw [split_last_some closed]
        exact List.mem_append_left _ (List.mem_of_mem_drop (mem_of_trim member))
    · cases taken
  · cases taken

/-- A build identifier stands before the first slash of its row. -/
theorem uuid_no_slash (read : readRow? line = some image) (there : image.uuid = some uuid) : '/' ∉ uuid := by
  obtain ⟨head, path, _, _, _, _, cut, _, _, _, _, _, _, named⟩ := row_parts read
  intro slash
  exact (split_once_some cut).2 (bracketed_from_row (named.symm.trans there) '/' slash)

theorem lower_no_slash {c : Char} (lowered : lowerAscii c = '/') : c = '/' := by
  unfold lowerAscii at lowered
  split at lowered
  · rename_i letter
    have low : 65 ≤ c.toNat := letter.1
    have high : c.toNat ≤ 90 := letter.2
    have code := congrArg Char.toNat lowered
    rw [Char.ofNat, dif_pos (.inl (by omega))] at code
    have slash : c.toNat + 32 = 47 := code
    omega
  · exact lowered

theorem uuid_key_no_slash (read : readRow? line = some image) (keyed : image.uuidKey = some key) : '/' ∉ key := by
  obtain ⟨uuid, there, rfl⟩ := Option.map_eq_some_iff.mp keyed
  intro slash
  obtain ⟨c, member, lowered⟩ := List.mem_map.mp slash
  obtain rfl := lower_no_slash lowered
  exact uuid_no_slash read there (List.mem_filter.mp member).1

end Image

namespace SymbolDirectory

variable {text key : Text} {image : Image}

theorem file_name_single (free : '/' ∉ key) : Disk.SingleName (key ++ ".sym".toList) := by
  have ending : (key ++ ".sym".toList).getLast? = some 'm' := by
    rw [List.getLast?_append]
    rfl
  refine ⟨?_, ?_, ?_, ?_⟩
  · intro same
    rw [same] at ending
    cases ending
  · rw [List.mem_append, not_or]
    exact ⟨free, by decide⟩
  · intro same
    rw [same] at ending
    contradiction
  · intro same
    rw [same] at ending
    contradiction

theorem symbols_for_keyed (s : SymbolDirectory) (d : Disk) (keyed : image.uuidKey = some key) :
    (symbolsFor d image).run s = match s.known.lookup key with
      | some table => (table, s)
      | none => (read? d s key, { s with known := (key, read? d s key) :: s.known }) := by
  cases known : s.known.lookup key <;> simp [symbolsFor, keyed, known] <;> rfl

theorem reads_only_file (s : SymbolDirectory) (keyed : image.uuidKey = some key) :
    ReadsOnly (s.file key) fun d => (symbolsFor d image).run s := by
  intro d e file content
  have same : read? d s key = read? e s key := by
    unfold read?
    dsimp only
    rw [file, Disk.readText, Disk.readText, content]
  dsimp only
  rw [symbols_for_keyed s d keyed, symbols_for_keyed s e keyed, same]

theorem file_in_directory (member : image ∈ (Sections.read text).images) (s : SymbolDirectory) :
    (∀ key, image.uuidKey = some key →
      ∃ name, Disk.SingleName name ∧ s.file key = Path.join s.directory name ∧
        (∀ workingDir, Disk.placeFrom workingDir (s.file key) =
          Disk.placeFrom workingDir s.directory ++ [name]) ∧
        ReadsOnly (s.file key) fun d => (symbolsFor d image).run s) ∧
    (image.uuidKey = none → ∀ d, (symbolsFor d image).run s = (none, s)) := by
  obtain ⟨line, _, read⟩ := List.mem_filterMap.mp member
  refine ⟨fun key keyed => ?_, fun unnamed d => ?_⟩
  · have single := file_name_single (Image.uuid_key_no_slash read keyed)
    exact ⟨_, single, rfl, fun workingDir => Disk.place_of_single workingDir single s.directory,
      reads_only_file s keyed⟩
  · simp [symbolsFor, unnamed]
    rfl

def dottedImage : Image := ObjectFiles.imageAt "arm64".toList (some "..-..".toList) "/App".toList

def dottedReport : Text := "Binary Images:\n0x1000 - 0x1fff App arm64 <..-..> /App\n".toList

/- The identifier is `....` without its dash. -/
theorem dotted_file_in_directory :
    dottedImage ∈ (Sections.read dottedReport).images ∧ dottedImage.uuidKey = some "....".toList ∧
      ∃ name, Disk.SingleName name ∧
        (ofPath "/sym".toList).file "....".toList = Path.join "/sym".toList name ∧
        Disk.placeFrom [] ((ofPath "/sym".toList).file "....".toList) = ["sym".toList, name] := by
  have member : dottedImage ∈ (Sections.read dottedReport).images := by decide +kernel
  have keyed : dottedImage.uuidKey = some "....".toList := by decide +kernel
  obtain ⟨name, single, joined, place, _⟩ :=
    (file_in_directory member (ofPath "/sym".toList)).1 _ keyed
  exact ⟨member, keyed, name, single, joined, place []⟩

end SymbolDirectory

namespace ObjectFiles

open Disk

/-- By their names alone, the file of an image lies at or below the root. -/
def Confined (workingDir : Place) (root : Path) (image : Image) : Prop :=
  placeFrom workingDir root <+: placeFrom workingDir ((ofRoot (some root)).file image)

theorem file_place (workingDir : Place) (root : Path) (image : Image) :
    placeFrom workingDir ((ofRoot (some root)).file image) =
      lexicalPlace (placeFrom workingDir root) (namesOf image.path) := by
  have relative := behind_slashes_relative image.path
  rw [← names_behind_slashes image.path, ← place_of_joined workingDir root relative]
  rfl

theorem confined_iff (workingDir : Place) (image : Image) :
    ((∀ root, Confined workingDir root image) ↔ Trail.Balanced (namesOf image.path)) ∧
      (∀ root, Confined workingDir root image ↔
        let trail := Trail.ofNames (namesOf image.path)
        let place := placeFrom workingDir root
        place.drop (place.length - trail.up) <+: trail.down) ∧
      ∀ root known, ReadsOnly ((ofRoot (some root)).file image) fun d =>
        (symbolsFor d image).run ⟨some root, known⟩ := by
  refine ⟨?_, fun root => ?_, fun root known d e file content => ?_⟩
  · simp only [Confined, file_place]
    exact stays_below_all_iff workingDir _
  · rw [Confined, file_place]
    exact stays_iff _ _
  · have same : readFor d (some root) image = readFor e (some root) image := by
      rw [readFor, readFor, ObjectFile.read?, ObjectFile.read?, content]
    cases kept : known.lookup (fileKey (some root) image) with
    | some table => exact (symbols_for_known kept).trans (symbols_for_known kept).symm
    | none =>
      dsimp only
      rw [symbols_for_new kept, symbols_for_new kept, same]

def climbingImage : Image := imageAt "armv7".toList (some "aa".toList) "/../o".toList

def climbingReport : Text := "Binary Images:\n0x1000 - 0x1fff App armv7 <aa> /../o\n".toList

theorem image_beside_root :
    climbingImage ∈ (Sections.read climbingReport).images ∧
      (ofRoot (some "sys".toList)).file climbingImage = "sys/../o".toList ∧
      placeFrom ["work".toList] "sys".toList = ["work".toList, "sys".toList] ∧
      placeFrom ["work".toList] "sys/../o".toList = ["work".toList, ['o']] ∧
      ¬ Confined ["work".toList] "sys".toList climbingImage := by
  unfold Confined
  decide +kernel

end ObjectFiles
end CrashTriage
