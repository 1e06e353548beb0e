import CrashTriage.Proofs.Package.DpkgAnswers

/-
Lists of packages that are not installed. A removed package leaves its list behind, and ownership is told
from all lists. This makes no difference to any path just when each place that such a list names is named
first by an installed package, and, as far as paths lie below it, by two of them.
-/
namespace CrashTriage
namespace Owner

open Text

variable {entries : List (Path × Text)} {keeps : Text → Bool}

def keptEntries (keeps : Text → Bool) (entries : List (Path × Text)) : List (Path × Text) :=
  entries.filter fun e => keeps e.2

def ListsFirst (entries : List (Path × Text)) (place : Path) (id : Text) : Prop :=
  Lists entries place id ∧ ∀ other, Lists entries place other → NotAfter id other

/-- What others list is listed first by one that is kept, and a directory by two of these. -/
structure Covered (keeps : Text → Bool) (entries : List (Path × Text)) (place : Path) : Prop where
  first : ∃ id, keeps id = true ∧ ListsFirst entries place id
  shared : place = [] ∨ ∃ a b, a ≠ b ∧ keeps a = true ∧ keeps b = true ∧
    Lists entries place a ∧ Lists entries place b

theorem lists_kept (place : Path) (id : Text) :
    Lists (keptEntries keeps entries) place id ↔ Lists entries place id ∧ keeps id = true := by
  unfold Lists keptEntries
  constructor
  · rintro ⟨entry, member, same⟩
    obtain ⟨there, kept⟩ := List.mem_filter.mp member
    exact ⟨⟨entry, there, same⟩, kept⟩
  · rintro ⟨⟨entry, there, same⟩, kept⟩
    exact ⟨entry, List.mem_filter.mpr ⟨there, kept⟩, same⟩

theorem select_exact {path : Path} {id : Text}
    (exact_ : exactOwner? (trimSlashes path) entries = some id) : select? path entries = some id :=
  (select_eq_some_iff path entries id).mpr (.inl exact_)

theorem select_of_kept {path : Path} {id : Text}
    (selected : select? path (keptEntries keeps entries) = some id) : keeps id = true := by
  obtain ⟨place, listed⟩ := select_listed selected
  exact ((lists_kept place id).mp listed).2

theorem exact_exists {place : Path} {id : Text} (ordered : Ordered entries)
    (listed : Lists entries place id) :
    ∃ first, exactOwner? place entries = some first ∧ ListsFirst entries place first := by
  cases found : exactOwner? place entries with
  | some first => exact ⟨first, rfl, (exact_of_ordered ordered place first).mp found⟩
  | none =>
    obtain ⟨entry, member, same⟩ := listed
    rw [exactOwner?, Option.map_eq_none_iff, List.find?_eq_none] at found
    exact absurd (beq_iff_eq.mpr same) (found _ member)

theorem trimmed_place {place : Path} {id : Text} (listed : Lists entries place id) :
    trimSlashes place = place := by
  obtain ⟨entry, _, rfl⟩ := listed
  exact trim_slashes_idempotent entry

theorem first_kept {place : Path} {id : Text} (ordered : Ordered entries)
    (same : ∀ path, select? path (keptEntries keeps entries) = select? path entries)
    (listed : Lists entries place id) : ∃ first, keeps first = true ∧ ListsFirst entries place first := by
  -- The place itself is asked for.
  obtain ⟨first, found, lists⟩ := exact_exists ordered listed
  rw [← trimmed_place listed] at found
  exact ⟨first, select_of_kept ((same place).trans (select_exact found)), lists⟩

theorem longer_than_entries (entries : List (Path × Text)) :
    ∃ n, ∀ place id, Lists entries place id → place.length ≤ n := by
  induction entries with
  | nil =>
    refine ⟨0, fun place id ⟨entry, member, _⟩ => ?_⟩
    simp at member
  | cons e rest ih =>
    obtain ⟨n, bound⟩ := ih
    refine ⟨max n (trimSlashes e.1).length, fun place id ⟨entry, member, same⟩ => ?_⟩
    rcases List.mem_cons.mp member with rfl | later
    · rw [← same]
      exact Nat.le_max_right _ _
    · exact Nat.le_trans (bound place id ⟨entry, later, same⟩) (Nat.le_max_left _ _)

theorem slash_before_plain {place other rest : Path} {n : Nat}
    (split : place ++ '/' :: List.replicate n 'x' = other ++ '/' :: rest) :
    other.length ≤ place.length := by
  rcases List.append_eq_append_iff.mp split with ⟨more, rfl, plain⟩ | ⟨less, rfl, _⟩
  · cases more with
    | nil => simp
    | cons c more =>
      obtain ⟨-, plain⟩ := List.cons.inj plain
      have slash : '/' ∈ List.replicate n 'x' := by simp [plain]
      simp at slash
  · simp

/-- Below a listed directory there is a path that is not listed and has nothing nearer above it. -/
theorem fresh_path {place : Path} {id : Text} (listed : Lists entries place id)
    (nonempty : place ≠ []) : ∃ path, trimSlashes path = path ∧
      (∀ other, ¬ Lists entries path other) ∧ Nearest path entries place := by
  obtain ⟨n, bound⟩ := longer_than_entries entries
  refine ⟨place ++ '/' :: List.replicate (n + 1) 'x', ?_, fun other there => ?_, ?_, ⟨id, listed⟩, ?_⟩
  · refine List.rdropWhile_eq_self_iff.mpr fun _ => ?_
    simp [List.replicate_succ']
  · have long := bound _ other there
    simp only [List.length_append, List.length_cons, List.length_replicate] at long
    omega
  · exact (below_iff _ _).mpr ⟨nonempty, _, rfl⟩
  · intro other _ below _
    obtain ⟨_, rest, split⟩ := (below_iff _ _).mp below
    exact slash_before_plain split

theorem exact_none {path : Path} (unlisted : ∀ other, ¬ Lists entries path other) :
    exactOwner? path entries = none := by
  rw [exactOwner?, Option.map_eq_none_iff, List.find?_eq_none]
  exact fun e member same => unlisted e.2 ⟨e.1, member, beq_iff_eq.mp same⟩

theorem select_below_iff {path place : Path} (trimmed : trimSlashes path = path)
    (unlisted : ∀ other, ¬ Lists entries path other) (near : Nearest path entries place) (id : Text) :
    select? path entries = some id ↔ ∀ other, Lists entries place other ↔ other = id := by
  rw [select_eq_some_iff, trimmed, exact_none unlisted]
  constructor
  · rintro (found | ⟨_, other, also, only⟩)
    · cases found
    · rwa [nearest_unique near also]
  · exact fun only => .inr ⟨rfl, place, near, only⟩

theorem nearest_kept {path place : Path} {id : Text} (near : Nearest path entries place)
    (listed : Lists (keptEntries keeps entries) place id) :
    Nearest path (keptEntries keeps entries) place :=
  ⟨near.below, ⟨id, listed⟩,
    fun other name below there => near.longest other name below ((lists_kept other name).mp there).1⟩

theorem shared_kept {place : Path} {id first : Text}
    (same : ∀ path, select? path (keptEntries keeps entries) = select? path entries)
    (listed : Lists entries place id) (leftOut : keeps id = false) (nonempty : place ≠ [])
    (kept : keeps first = true) (there : Lists entries place first) :
    ∃ a b, a ≠ b ∧ keeps a = true ∧ keeps b = true ∧ Lists entries place a ∧ Lists entries place b := by
  -- With two listers, a fresh path below the place has no owner, so it has none among those kept.
  obtain ⟨path, trimmed, unlisted, near⟩ := fresh_path listed nonempty
  have keptThere := (lists_kept place first).mpr ⟨there, kept⟩
  have noOwner : select? path entries ≠ some first := by
    rw [Ne, select_below_iff trimmed unlisted near]
    intro only
    rw [(only id).mp listed, kept] at leftOut
    contradiction
  rw [← same, Ne, select_below_iff trimmed (fun other also => unlisted other ((lists_kept _ _).mp also).1)
    (nearest_kept near keptThere)] at noOwner
  by_contra alone
  refine noOwner fun other => ⟨fun also => ?_, ?_⟩
  · obtain ⟨lists, keptOther⟩ := (lists_kept _ _).mp also
    by_contra different
    exact alone ⟨other, first, different, keptOther, kept, lists, there⟩
  · rintro rfl
    exact keptThere

section Covered

variable (covered : ∀ place id, Lists entries place id → keeps id = false → Covered keeps entries place)

include covered

theorem kept_lister {place : Path} {id : Text}
    (listed : Lists entries place id) : ∃ other, Lists (keptEntries keeps entries) place other := by
  cases kept : keeps id with
  | true => exact ⟨id, (lists_kept place id).mpr ⟨listed, kept⟩⟩
  | false =>
    obtain ⟨first, keptFirst, lists, _⟩ := (covered place id listed kept).first
    exact ⟨first, (lists_kept place first).mpr ⟨lists, keptFirst⟩⟩

theorem lists_first_kept (place : Path) (id : Text) :
    ListsFirst (keptEntries keeps entries) place id ↔ ListsFirst entries place id := by
  constructor
  · rintro ⟨there, least⟩
    refine ⟨((lists_kept place id).mp there).1, fun other listed => ?_⟩
    cases kept : keeps other with
    | true => exact least other ((lists_kept place other).mpr ⟨listed, kept⟩)
    | false =>
      obtain ⟨first, keptFirst, lists, before⟩ := (covered place other listed kept).first
      exact not_after_trans (least first ((lists_kept place first).mpr ⟨lists, keptFirst⟩))
        (before other listed)
  · rintro ⟨there, least⟩
    have kept : keeps id = true := by
      by_contra leftOut
      obtain ⟨first, keptFirst, lists, before⟩ :=
        (covered place id there (eq_false_of_ne_true leftOut)).first
      have same : id = first := not_after_antisymm (least first lists) (before id there)
      exact leftOut (same ▸ keptFirst)
    exact ⟨(lists_kept place id).mpr ⟨there, kept⟩,
      fun other also => least other ((lists_kept place other).mp also).1⟩

theorem nearest_kept_iff (path place : Path) :
    Nearest path (keptEntries keeps entries) place ↔ Nearest path entries place := by
  constructor
  · rintro ⟨below, ⟨id, listed⟩, longest⟩
    refine ⟨below, ⟨id, ((lists_kept place id).mp listed).1⟩, fun other name above lists => ?_⟩
    obtain ⟨keptName, there⟩ := kept_lister covered lists
    exact longest other keptName above there
  · intro near
    obtain ⟨id, listed⟩ := near.listed
    obtain ⟨keptId, there⟩ := kept_lister covered listed
    exact nearest_kept near there

theorem sole_kept_iff {path place : Path} (near : Nearest path entries place) (id : Text) :
    (∀ other, Lists (keptEntries keeps entries) place other ↔ other = id) ↔
      ∀ other, Lists entries place other ↔ other = id := by
  obtain ⟨someone, listed⟩ := near.listed
  obtain ⟨keptOne, there⟩ := kept_lister covered listed
  constructor
  · intro only other
    have own := ((lists_kept place id).mp ((only id).mpr rfl)).1
    refine ⟨fun lists => ?_, fun same => same ▸ own⟩
    cases kept : keeps other with
    | true => exact (only other).mp ((lists_kept place other).mpr ⟨lists, kept⟩)
    | false =>
      rcases (covered place other lists kept).shared with empty | ⟨a, b, different, keptA, keptB, la, lb⟩
      · exact absurd empty ((below_iff path place).mp near.below).1
      · have isA := (only a).mp ((lists_kept place a).mpr ⟨la, keptA⟩)
        have isB := (only b).mp ((lists_kept place b).mpr ⟨lb, keptB⟩)
        exact absurd (isA.trans isB.symm) different
  · intro only other
    refine ⟨fun also => (only other).mp ((lists_kept place other).mp also).1, ?_⟩
    rintro rfl
    rwa [(only keptOne).mp ((lists_kept place keptOne).mp there).1] at there

end Covered

/-- Entries that are left out make no difference just when each place they list is covered. -/
theorem select_kept_iff (ordered : Ordered entries) :
    (∀ path, select? path (keptEntries keeps entries) = select? path entries) ↔
      ∀ place id, Lists entries place id → keeps id = false → Covered keeps entries place := by
  constructor
  · intro same place id listed leftOut
    obtain ⟨first, kept, lists⟩ := first_kept ordered same listed
    refine ⟨⟨first, kept, lists⟩, ?_⟩
    by_cases root : place = []
    · exact .inl root
    · exact .inr (shared_kept same listed leftOut root kept lists.1)
  · intro covered path
    have keptOrdered : Ordered (keptEntries keeps entries) := List.Pairwise.filter _ ordered
    have exact_ (place : Path) :
        exactOwner? place (keptEntries keeps entries) = exactOwner? place entries := by
      apply Option.ext
      intro id
      rw [exact_of_ordered keptOrdered, exact_of_ordered ordered]
      exact lists_first_kept covered place id
    apply Option.ext
    intro id
    rw [select_eq_some_iff, select_eq_some_iff, exact_]
    refine or_congr_right (and_congr_right fun _ => exists_congr fun place => ?_)
    rw [nearest_kept_iff covered]
    exact and_congr_right fun near => sole_kept_iff covered near id

end Owner

namespace DpkgDatabase

open Text Owner

variable {d : Disk} {db : DpkgDatabase} {lists : List (Text × List Path)} {installed : List StatusEntry}

def isInstalled (installed : List StatusEntry) (id : Text) : Bool :=
  installed.any fun entry => entry.identifier == id

def namedOwner (d : Disk) (db : DpkgDatabase) : Option Text → Except PackageDbError (Option Package)
  | some id => (packageOf d db id).map some
  | none => .ok none

def ownerFrom (d : Disk) (db : DpkgDatabase) (lists : List (Text × List Path)) (path : Path) :
    Except PackageDbError (Option Package) := namedOwner d db (select? path (entriesOf lists))

theorem owner_from (read : fileLists d db.infoDir = .ok lists) (path : Path) :
    ((owner? d path).run db).1 = ownerFrom d db lists path := by
  rw [owner_answer, read, ownerFrom]
  simp only [Except.bind]
  cases select? path (entriesOf lists) <;> rfl

theorem entries_kept (keeps : Text → Bool) (lists : List (Text × List Path)) :
    entriesOf (lists.filter fun list => keeps list.1) = keptEntries keeps (entriesOf lists) := by
  induction lists with
  | nil => rfl
  | cons list lists ih =>
    obtain ⟨id, files⟩ := list
    have split (rest : List (Text × List Path)) :
        entriesOf ((id, files) :: rest) = files.map (fun file => (file, id)) ++ entriesOf rest :=
      List.flatMap_cons
    have own : keptEntries keeps (files.map fun file => (file, id)) =
        if keeps id then files.map fun file => (file, id) else [] := by
      cases kept : keeps id <;> simp [keptEntries, kept]
    have both : keptEntries keeps (entriesOf ((id, files) :: lists)) =
        keptEntries keeps (files.map fun file => (file, id)) ++ keptEntries keeps (entriesOf lists) := by
      rw [split, keptEntries, List.filter_append]
      rfl
    rw [both, own, List.filter_cons, ← ih]
    cases keeps id
    · rfl
    · exact split _

theorem listed_package {place : Path} {id : Text} (listed : Lists (entriesOf lists) place id) :
    ∃ files, (id, files) ∈ lists := by
  obtain ⟨entry, member, _⟩ := listed
  obtain ⟨list, there, inList⟩ := List.mem_flatMap.mp member
  obtain ⟨file, _, same⟩ := List.mem_map.mp inList
  cases same
  exact ⟨list.2, there⟩

theorem package_no_slash (read : fileLists d db.infoDir = .ok lists) (proper : d.ProperNames)
    {place : Path} {id : Text} (listed : Lists (entriesOf lists) place id) : '/' ∉ id := by
  obtain ⟨files, member⟩ := listed_package listed
  obtain ⟨names, name, _, names_, standing, belongs, _⟩ := mem_lists read member
  have noSlash := Disk.list_proper proper names_ name standing
  rw [list_owner_name noSlash belongs] at noSlash
  exact fun slash => noSlash (List.mem_append_left _ slash)

theorem script_lines_error {dir : Path} {id : Text} {e : PackageDbError}
    (failed : scriptLines d dir id = .error e) :
    ∃ cause, e = .io (Path.join dir (id ++ scriptSuffix)) cause := by
  simp only [scriptLines, readText] at failed
  split at failed
  · cases body : d.readText (Path.join dir (id ++ scriptSuffix)) with
    | error cause =>
      rw [body] at failed
      cases failed
      exact ⟨cause, rfl⟩
    | ok text =>
      rw [body] at failed
      cases failed
  · cases failed

theorem package_injective (known : statusOf d db = .ok installed) {a b : Text} (first : '/' ∉ a)
    (second : '/' ∉ b) (same : packageOf d db a = packageOf d db b) : a = b := by
  have answer (id : Text) : packageOf d db id = (scriptLines d db.infoDir id).map
      (record id (installed.find? fun e => e.identifier == id)) := by
    rw [packageOf, known]
    cases scriptLines d db.infoDir id <;> rfl
  rw [answer, answer] at same
  cases linesA : scriptLines d db.infoDir a with
  | ok config =>
    cases linesB : scriptLines d db.infoDir b with
    | ok others =>
      rw [linesA, linesB] at same
      exact congrArg (·.identifier) (Except.ok.inj same)
    | error e =>
      rw [linesA, linesB] at same
      cases same
  | error e =>
    cases linesB : scriptLines d db.infoDir b with
    | ok others =>
      rw [linesA, linesB] at same
      cases same
    | error e' =>
      rw [linesA, linesB] at same
      -- The errors name the packages' scripts.
      obtain ⟨cause, rfl⟩ := script_lines_error linesA
      obtain ⟨cause', rfl⟩ := script_lines_error linesB
      have plain {id : Text} (noSlash : '/' ∉ id) : '/' ∉ id ++ scriptSuffix := by
        rw [List.mem_append, not_or]
        exact ⟨noSlash, by decide⟩
      have paths := (PackageDbError.io.inj (Except.error.inj same)).1
      exact List.append_cancel_right (Path.join_name_injective (plain first) (plain second) paths)

theorem named_owner_injective (known : statusOf d db = .ok installed) {one other : Option Text}
    (plain : ∀ id, one = some id → '/' ∉ id) (plainOther : ∀ id, other = some id → '/' ∉ id)
    (same : namedOwner d db one = namedOwner d db other) : one = other := by
  cases one with
  | none =>
    cases other with
    | none => rfl
    | some b => cases answer : packageOf d db b <;> simp [namedOwner, answer, Except.map] at same
  | some a =>
    cases other with
    | none => cases answer : packageOf d db a <;> simp [namedOwner, answer, Except.map] at same
    | some b =>
      have packages : packageOf d db a = packageOf d db b := by
        cases answerA : packageOf d db a <;> cases answerB : packageOf d db b <;>
          simp [namedOwner, answerA, answerB, Except.map] at same <;> rw [same]
      exact congrArg some (package_injective known (plain a rfl) (plainOther b rfl) packages)

/-- Owners are told as if only installed packages had lists just when these list each place that others
list: one of them before all others, and two of them where paths may lie below it. -/
theorem owners_installed_iff (read : fileLists d db.infoDir = .ok lists)
    (known : statusOf d db = .ok installed) (proper : d.ProperNames) :
    (∀ path, ((owner? d path).run db).1 =
        ownerFrom d db (lists.filter fun list => isInstalled installed list.1) path) ↔
      ∀ place id, Lists (entriesOf lists) place id → isInstalled installed id = false →
        Covered (isInstalled installed) (entriesOf lists) place := by
  rw [← select_kept_iff (ordered_lists (lists_ascend read))]
  refine forall_congr' fun path => ?_
  rw [owner_from read, ownerFrom, ownerFrom, entries_kept]
  constructor
  · intro same
    refine (named_owner_injective known (fun id selected => ?_) (fun id selected => ?_) same).symm
    · obtain ⟨place, listed⟩ := select_listed selected
      exact package_no_slash read proper listed
    · obtain ⟨place, listed⟩ := select_listed selected
      exact package_no_slash read proper ((lists_kept place id).mp listed).1
  · exact fun same => by rw [same]

def adminDisk (lists : List (String × String)) (status : String) : Disk :=
  let file (content : String) : Node := ⟨.file (.bytes (Text.toBytes content.toList)), 0o644, 0⟩
  let directory : Node := ⟨.directory, 0o755, 0⟩
  { nodes := [([], directory), ([['d']], directory), ([['d'], "info".toList], directory),
      ([['d'], "status".toList], file status)] ++
        lists.map fun list => ([['d'], "info".toList, list.1.toList], file list.2)
    workingDir := []
    enforced := true
    now := 0 }

def gamesDatabase : DpkgDatabase := .ofDir "/d".toList

def installedEntry (id : String) : StatusEntry := ⟨id.toList, none, none, none, true⟩

def sharedLeftover : Disk :=
  adminDisk [("game.list", "/usr/games\n/usr/games/chess\n"), ("maps.list", "/usr/games/\n"),
      ("tool.list", "/usr/games\n")]
    "Package: game\nStatus: install ok installed\n\nPackage: maps\nStatus: install ok installed\n"

def sharedLists : List (Text × List Path) :=
  [("game".toList, ["/usr/games".toList, "/usr/games/chess".toList]), ("maps".toList, ["/usr/games/".toList]),
    ("tool".toList, ["/usr/games".toList])]

theorem shared_lists_read : fileLists sharedLeftover gamesDatabase.infoDir = .ok sharedLists := by
  have listed : sharedLeftover.list gamesDatabase.infoDir =
      .ok (["game.list", "maps.list", "tool.list"].map String.toList) := by decide +kernel
  exact lists_of_ascending listed (by decide +kernel) (by decide +kernel)

def gamesInstalled : List StatusEntry := [installedEntry "game", installedEntry "maps"]

theorem owners_installed_iff_of_shared :
    fileLists sharedLeftover gamesDatabase.infoDir = .ok sharedLists ∧
      statusOf sharedLeftover gamesDatabase = .ok gamesInstalled ∧ sharedLeftover.ProperNames ∧
      ∀ path, ((owner? sharedLeftover path).run gamesDatabase).1 = ownerFrom sharedLeftover gamesDatabase
        (sharedLists.filter fun list => isInstalled gamesInstalled list.1) path := by
  have known : statusOf sharedLeftover gamesDatabase = .ok gamesInstalled := by decide +kernel
  have proper : sharedLeftover.ProperNames := by
    unfold Disk.ProperNames
    decide +kernel
  refine ⟨shared_lists_read, known, proper,
    (owners_installed_iff shared_lists_read known proper).mpr ?_⟩
  rintro place id ⟨entry, member, rfl⟩ leftOut
  have only : ∀ e ∈ entriesOf sharedLists, isInstalled gamesInstalled e.2 = false →
      e = ("/usr/games".toList, "tool".toList) := by decide +kernel
  obtain ⟨rfl, rfl⟩ := Prod.mk.inj (only _ member leftOut)
  have game : Lists (entriesOf sharedLists) (trimSlashes "/usr/games".toList) "game".toList :=
    ⟨"/usr/games".toList, by decide +kernel, rfl⟩
  have maps : Lists (entriesOf sharedLists) (trimSlashes "/usr/games".toList) "maps".toList :=
    ⟨"/usr/games/".toList, by decide +kernel, by decide +kernel⟩
  have least : ∀ e ∈ entriesOf sharedLists, NotAfter "game".toList e.2 := by decide +kernel
  have gameInstalled : isInstalled gamesInstalled "game".toList = true := by decide +kernel
  have mapsInstalled : isInstalled gamesInstalled "maps".toList = true := by decide +kernel
  refine ⟨⟨"game".toList, gameInstalled, game, fun other there => ?_⟩, .inr ?_⟩
  · obtain ⟨e, here, _⟩ := there
    exact least (e, other) here
  · exact ⟨"game".toList, "maps".toList, by decide, gameInstalled, mapsInstalled, game, maps⟩

def ownLeftover : Disk :=
  adminDisk [("game.list", "/usr/games\n"), ("tool.list", "/opt/tool\n/usr/games\n")]
    "Package: game\nStatus: install ok installed\n\nPackage: tool\nStatus: deinstall ok config-files\n"

def ownLists : List (Text × List Path) :=
  [("game".toList, ["/usr/games".toList]), ("tool".toList, ["/opt/tool".toList, "/usr/games".toList])]

theorem own_lists_read : fileLists ownLeftover gamesDatabase.infoDir = .ok ownLists := by
  have listed : ownLeftover.list gamesDatabase.infoDir =
      .ok (["game.list", "tool.list"].map String.toList) := by decide +kernel
  exact lists_of_ascending listed (by decide +kernel) (by decide +kernel)

/- The removed package is named as an owner, and takes what lies below its directory from the other. -/
theorem removed_package_owns :
    statusOf ownLeftover gamesDatabase = .ok [installedEntry "game"] ∧
      fileLists ownLeftover gamesDatabase.infoDir = .ok ownLists ∧
      ((owner? ownLeftover "/opt/tool".toList).run gamesDatabase).1 =
        .ok (some (.named "tool".toList)) ∧
      ownerFrom ownLeftover gamesDatabase (ownLists.filter fun list =>
        isInstalled [installedEntry "game"] list.1) "/opt/tool".toList = .ok none ∧
      ((owner? ownLeftover "/usr/games/chess".toList).run gamesDatabase).1 = .ok none ∧
      ownerFrom ownLeftover gamesDatabase (ownLists.filter fun list =>
        isInstalled [installedEntry "game"] list.1) "/usr/games/chess".toList =
          .ok (some (.named "game".toList)) := by
  rw [owner_from own_lists_read, owner_from own_lists_read]
  refine ⟨?_, own_lists_read, ?_, ?_, ?_, ?_⟩ <;> decide +kernel

end DpkgDatabase
end CrashTriage
