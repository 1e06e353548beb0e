import CrashTriage.Package.Dpkg
import CrashTriage.Proofs.Disk.Names
import CrashTriage.Proofs.Lists
import CrashTriage.Proofs.Package.Nearest
import CrashTriage.Proofs.Runs
import CrashTriage.Proofs.Text.Names

/-
The answers of a dpkg database as values: what it keeps of the status file is the status file's content,
so no answer depends on which questions were asked before. Lists of files stand in the order of their
packages, and a package has one list.
-/
namespace CrashTriage
namespace DpkgDatabase

open Text Owner Runs

/-- The installed packages that a database answers from. -/
def statusOf (d : Disk) (db : DpkgDatabase) : Except PackageDbError (List StatusEntry) :=
  match db.installed with
  | some entries => .ok entries
  | none => (readText d (Path.join db.adminDir "status".toList)).map installedIn

def packageOf (d : Disk) (db : DpkgDatabase) (id : Text) : Except PackageDbError Package := do
  let entries ← statusOf d db
  let config ← scriptLines d db.infoDir id
  pure (record id (entries.find? fun e => e.identifier == id) config)

theorem run_status (d : Disk) (db : DpkgDatabase) :
    ∃ kept : DpkgDatabase, (status d).run db = (statusOf d db, kept) ∧
      kept.adminDir = db.adminDir ∧ statusOf d kept = statusOf d db := by
  unfold status
  rw [bind_answered (run_get db)]
  obtain ⟨adminDir, installed⟩ := db
  cases installed with
  | some entries => exact ⟨⟨adminDir, some entries⟩, rfl, rfl, rfl⟩
  | none =>
    have read := run_lift (readText d (Path.join adminDir "status".toList))
      (⟨adminDir, none⟩ : DpkgDatabase)
    cases body : readText d (Path.join adminDir "status".toList) with
    | error e =>
      rw [body] at read
      have known : statusOf d ⟨adminDir, none⟩ = .error e := by simp only [statusOf, body, Except.map]
      exact ⟨⟨adminDir, none⟩, (bind_failed read).trans (by rw [known]), rfl, rfl⟩
    | ok text =>
      rw [body] at read
      have known : statusOf d ⟨adminDir, none⟩ = .ok (installedIn text) := by
        simp only [statusOf, body, Except.map]
      exact ⟨⟨adminDir, some (installedIn text)⟩, (bind_answered read).trans (by rw [known]; rfl), rfl,
        known.symm⟩

theorem run_package (d : Disk) (db : DpkgDatabase) (id : Text) :
    ∃ kept : DpkgDatabase, (package d id).run db = (packageOf d db id, kept) ∧
      kept.adminDir = db.adminDir ∧ statusOf d kept = statusOf d db := by
  obtain ⟨kept, asked, sameDir, sameStatus⟩ := run_status d db
  refine ⟨kept, ?_, sameDir, sameStatus⟩
  unfold package packageOf
  have sameInfo : kept.infoDir = db.infoDir := by rw [infoDir, sameDir, infoDir]
  cases found : statusOf d db with
  | error e =>
    rw [found] at asked
    exact bind_failed asked
  | ok entries =>
    rw [found] at asked
    rw [bind_answered asked, bind_answered (run_get kept), sameInfo]
    have read := run_lift (scriptLines d db.infoDir id) kept
    cases lines : scriptLines d db.infoDir id with
    | error e =>
      rw [lines] at read
      exact bind_failed read
    | ok config =>
      rw [lines] at read
      exact bind_answered read

theorem package_congr {d e : Disk} {db other : DpkgDatabase}
    (status : statusOf d db = statusOf e other)
    (lines : ∀ id, scriptLines d db.infoDir id = scriptLines e other.infoDir id) (id : Text) :
    packageOf d db id = packageOf e other id := by
  rw [packageOf, status, lines, packageOf]

def entriesOf (lists : List (Text × List Path)) : List (Path × Text) :=
  lists.flatMap fun (id, files) => files.map fun file => (file, id)

theorem owner_answer (d : Disk) (db : DpkgDatabase) (path : Path) :
    ((owner? d path).run db).1 = (fileLists d db.infoDir).bind fun lists =>
      match select? path (entriesOf lists) with
      | some id => (packageOf d db id).map some
      | none => .ok none := by
  unfold owner?
  rw [bind_answered (run_get db)]
  have read := run_lift (fileLists d db.infoDir) db
  cases found : fileLists d db.infoDir with
  | error e =>
    rw [found] at read
    rw [bind_failed read]
    rfl
  | ok lists =>
    rw [found] at read
    rw [bind_answered read]
    simp only [Except.bind]
    change Prod.fst (ExceptT.run (match select? path (entriesOf lists) with
      | some id => some <$> package d id
      | none => pure none) db) = _
    cases select? path (entriesOf lists) with
    | none => rfl
    | some id =>
      obtain ⟨kept, asked, -⟩ := run_package d db id
      dsimp only
      rw [map_eq_pure_bind]
      cases answer : packageOf d db id with
      | error e =>
        rw [answer] at asked
        rw [bind_failed asked]
        rfl
      | ok p =>
        rw [answer] at asked
        rw [bind_answered asked]
        rfl

/-- What is read of a dpkg directory reads alike on two disks. -/
structure SameDirectory (dir : Path) (d e : Disk) : Prop where
  names : e.list (Path.join dir "info".toList) = d.list (Path.join dir "info".toList)
  status : e.readText (Path.join dir "status".toList) = d.readText (Path.join dir "status".toList)
  text : ∀ name, e.readText (Path.join (Path.join dir "info".toList) name) =
    d.readText (Path.join (Path.join dir "info".toList) name)
  isFile : ∀ name, e.isFile (Path.join (Path.join dir "info".toList) name) =
    d.isFile (Path.join (Path.join dir "info".toList) name)

variable {d e : Disk} {db reader : DpkgDatabase}

theorem same_lists (same : SameDirectory db.adminDir d e) (sameDir : reader.adminDir = db.adminDir) :
    fileLists e reader.infoDir = fileLists d db.infoDir := by
  have read : ∀ name, readText e (Path.join db.infoDir name) =
      readText d (Path.join db.infoDir name) := fun name => by rw [readText, infoDir, same.text]; rfl
  have names : e.list db.infoDir = d.list db.infoDir := same.names
  rw [infoDir, sameDir, ← infoDir]
  simp only [fileLists, names, read]

theorem same_script_lines (same : SameDirectory db.adminDir d e)
    (sameDir : reader.adminDir = db.adminDir) (id : Text) :
    scriptLines e reader.infoDir id = scriptLines d db.infoDir id := by
  have read : ∀ name, readText e (Path.join db.infoDir name) =
      readText d (Path.join db.infoDir name) := fun name => by rw [readText, infoDir, same.text]; rfl
  have isFile : ∀ name, e.isFile (Path.join db.infoDir name) =
      d.isFile (Path.join db.infoDir name) := same.isFile
  rw [infoDir, sameDir, ← infoDir]
  simp only [scriptLines, isFile, read]

theorem same_unread_status (same : SameDirectory db.adminDir d e)
    (sameDir : reader.adminDir = db.adminDir) (sameKept : reader.installed = db.installed) :
    statusOf e reader = statusOf d db := by
  rw [statusOf, statusOf, sameKept, sameDir, readText, readText, same.status]

/-- The lists of the files in a directory, in the order of the files. -/
def listsOf (d : Disk) (dir : Path) (names : List Text) :
    Except PackageDbError (List (Text × List Path)) :=
  (names.filterMap fun name => (listOwner? name).map fun id => (name, id)).mapM fun (name, id) => do
    pure (id, listedPaths (← readText d (Path.join dir name)))

theorem file_lists_ok {dir : Path} {lists : List (Text × List Path)}
    (read : fileLists d dir = .ok lists) :
    ∃ names found, d.list dir = .ok names ∧ listsOf d dir names = .ok found ∧
      lists = found.mergeSort fun a b => Text.compare a.1 b.1 != .gt := by
  obtain ⟨names, listed, more⟩ := Readings.bind_ok.mp read
  obtain ⟨found, each, sorted⟩ := Readings.bind_ok.mp more
  exact ⟨names, found, Readings.map_error_ok.mp listed, each, (Except.ok.inj sorted).symm⟩

theorem mem_lists {dir : Path} {lists : List (Text × List Path)} (read : fileLists d dir = .ok lists)
    {id : Text} {files : List Path} (member : (id, files) ∈ lists) :
    ∃ names name body, d.list dir = .ok names ∧ name ∈ names ∧ listOwner? name = some id ∧
      readText d (Path.join dir name) = .ok body ∧ files = listedPaths body := by
  obtain ⟨names, found, listed, each, rfl⟩ := file_lists_ok read
  have here : (id, files) ∈ found := List.mem_mergeSort.mp member
  obtain ⟨⟨name, owner⟩, owned, one⟩ := Readings.mem_of_read (Readings.of_all_read each) here
  obtain ⟨body, text, same⟩ := Readings.bind_ok.mp one
  obtain ⟨other, standing, names_it⟩ := List.mem_filterMap.mp owned
  obtain ⟨id', belongs, pair⟩ := Option.map_eq_some_iff.mp names_it
  cases same
  cases pair
  exact ⟨names, name, body, listed, standing, belongs, text, rfl⟩

theorem lists_ascend {dir : Path} {lists : List (Text × List Path)}
    (read : fileLists d dir = .ok lists) : lists.Pairwise fun a b => NotAfter a.1 b.1 := by
  obtain ⟨names, found, _, _, rfl⟩ := file_lists_ok read
  refine (List.pairwise_mergeSort ?_ ?_ found).imp fun before => by simpa [NotAfter] using before
  · intro a b c first second
    have trans := not_after_trans (a := a.1) (b := b.1) (c := c.1)
    simp only [NotAfter, bne_iff_ne] at *
    exact trans first second
  · intro a b
    simpa [NotAfter] using not_after_total a.1 b.1

theorem ordered_lists {lists : List (Text × List Path)}
    (ascend : lists.Pairwise fun a b => NotAfter a.1 b.1) : Ordered (entriesOf lists) := by
  unfold Ordered entriesOf
  rw [List.pairwise_flatMap]
  constructor
  · intro list _
    rw [List.pairwise_map]
    exact List.pairwise_of_forall fun _ _ => not_after_refl _
  · refine ascend.imp ?_
    rintro a b before x memberX y memberY
    obtain ⟨_, _, rfl⟩ := List.mem_map.mp memberX
    obtain ⟨_, _, rfl⟩ := List.mem_map.mp memberY
    exact before

theorem lists_of_ascending {dir : Path} {names : List Text} {found : List (Text × List Path)}
    (listed : d.list dir = .ok names) (each : listsOf d dir names = .ok found)
    (ascend : found.Pairwise fun a b => NotAfter a.1 b.1) : fileLists d dir = .ok found := by
  have sorted : found.mergeSort (fun a b => Text.compare a.1 b.1 != .gt) = found :=
    List.mergeSort_of_pairwise (ascend.imp fun {a b} before => by simpa [NotAfter] using before)
  unfold listsOf at each
  rw [fileLists, listed]
  exact (Readings.bind_ok.mpr ⟨names, rfl, Readings.bind_ok.mpr ⟨found, each, congrArg _ sorted⟩⟩)

theorem list_owner_name {name id : Text} (noSlash : '/' ∉ name)
    (belongs : listOwner? name = some id) : name = id ++ ".list".toList := by
  unfold listOwner? at belongs
  split at belongs
  · rename_i stem extension cut
    simp only [Option.ite_none_right_eq_some, Option.some.injEq] at belongs
    obtain ⟨rfl, rfl⟩ := belongs
    exact Path.split_extension_name noSlash cut
  · contradiction

/- Without a slash in its name a file is named after its package, so a package has one list. -/
theorem one_list_each {dir : Path} {lists : List (Text × List Path)}
    (read : fileLists d dir = .ok lists)
    (proper : d.ProperNames)
    {id : Text} {files others : List Path} (first : (id, files) ∈ lists)
    (second : (id, others) ∈ lists) : files = others := by
  obtain ⟨names, name, body, listed, standing, belongs, text, rfl⟩ := mem_lists read first
  obtain ⟨names', name', body', listed', standing', belongs', text', rfl⟩ := mem_lists read second
  have named := list_owner_name (Disk.list_proper proper listed name standing) belongs
  have named' := list_owner_name (Disk.list_proper proper listed' name' standing') belongs'
  rw [named] at text
  rw [named', text] at text'
  rw [Except.ok.inj text']

theorem lists_distinct {dir : Path} {lists : List (Text × List Path)}
    (read : fileLists d dir = .ok lists) (proper : d.ProperNames) (distinct : d.DistinctPlaces) :
    (lists.map (·.1)).Nodup := by
  obtain ⟨names, found, listed, each, rfl⟩ := file_lists_ok read
  have owners : found.map (·.1) = names.filterMap listOwner? := by
    have same := Readings.map_of_read (f := (·.2)) (g := (·.1)) (Readings.of_all_read each)
      fun named list one => by
        obtain ⟨body, _, made⟩ := Readings.bind_ok.mp one
        cases made
        rfl
    rw [same, List.map_filterMap]
    exact congrArg (names.filterMap ·) (funext fun name => by cases listOwner? name <;> rfl)
  refine ((List.mergeSort_perm found _).map _).nodup_iff.mpr ?_
  rw [owners, List.Nodup, List.pairwise_filterMap]
  refine (Disk.list_distinct distinct listed).imp_of_mem fun {a b} standing standing' different => ?_
  rintro id belongs other belongs' rfl
  have named := list_owner_name (Disk.list_proper proper listed a standing) belongs
  have named' := list_owner_name (Disk.list_proper proper listed b standing') belongs'
  exact different (named.trans named'.symm)

end DpkgDatabase
end CrashTriage
