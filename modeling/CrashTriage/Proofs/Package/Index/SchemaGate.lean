import CrashTriage.Proofs.Package.Index.WholeImports

/-
Versions of the schema. A file of an index whose version is above the newest is refused and left as it is;
any other is brought to the newest with all its rows. The gate has no lower end: a file of a negative
version gets the newest version and the table of script lines, but not the tables of the first version.
-/
namespace CrashTriage

namespace IndexTables

variable {t : IndexTables} {v : Int}

def rows (t : IndexTables) : IndexRows := ⟨t.packages.getD [], t.files.getD [], t.lines.getD []⟩

/-- The tables that each version of the schema comes with are there. Version 0 comes with none, but may
have some. -/
structure HasSchema (t : IndexTables) : Prop where
  supported : 0 ≤ t.version ∧ t.version ≤ currentVersion
  first : 1 ≤ t.version → t.packages.isSome ∧ t.files.isSome
  second : 2 ≤ t.version → t.lines.isSome

/-- A table is still there with its rows, or is a new one without any. -/
def TableKept {α : Type} (before after : Option (List α)) : Prop :=
  after = before ∨ before = none ∧ after = some []

structure Upgraded (t later : IndexTables) : Prop where
  version : later.version = currentVersion
  packages : TableKept t.packages later.packages
  files : TableKept t.files later.files
  lines : TableKept t.lines later.lines

theorem table_made {α : Type} (table : Option (List α)) : TableKept table (some (table.getD [])) := by
  cases table with
  | none => exact .inr ⟨rfl, rfl⟩
  | some rows => exact .inl rfl

theorem table_rows {α : Type} {table : Option (List α)} (there : table.isSome) :
    table = some (table.getD []) := by
  obtain ⟨rows, rfl⟩ := Option.isSome_iff_exists.mp there
  rfl

theorem migrate_refused_iff : t.migrate = .error v ↔ v = t.version ∧ currentVersion < v := by
  unfold migrate
  split
  · rename_i above
    rw [Except.error.injEq]
    exact ⟨fun same => ⟨same.symm, same ▸ above⟩, fun same => same.1.symm⟩
  · rename_i supported
    constructor
    · intro refused
      cases refused
    · rintro ⟨rfl, above⟩
      exact absurd above supported

theorem migrate_carried_out (supported : t.version ≤ currentVersion) :
    ∃ later, t.migrate = .ok later ∧ t.Upgraded later ∧ (t.version = currentVersion → later = t) ∧
      (t.HasSchema → later.Holds t.rows) := by
  obtain ⟨version, packages, files, lines⟩ := t
  have most : version ≤ 2 := supported
  have gate : ¬ version > currentVersion := not_lt.mpr supported
  rcases lt_or_eq_of_le most with older | rfl
  · by_cases fresh : version = 0
    · refine ⟨⟨2, some (packages.getD []), some (files.getD []), some (lines.getD [])⟩, ?_,
        ⟨rfl, table_made _, table_made _, table_made _⟩, fun newest => ?_, fun _ => ⟨rfl, rfl, rfl⟩⟩
      · simp [migrate, fresh, currentVersion]
      · exact absurd newest (ne_of_lt older)
    · refine ⟨⟨2, packages, files, some (lines.getD [])⟩, ?_, ⟨rfl, .inl rfl, .inl rfl, table_made _⟩,
        fun newest => absurd newest (ne_of_lt older), fun schema => ?_⟩
      · simp [migrate, gate, fresh, older]
      · have low : 0 ≤ version := schema.supported.1
        obtain ⟨packagesThere, filesThere⟩ := schema.first (by dsimp only; omega)
        exact ⟨table_rows packagesThere, table_rows filesThere, rfl⟩
  · refine ⟨_, rfl, ⟨rfl, .inl rfl, .inl rfl, .inl rfl⟩, fun _ => rfl, fun schema => ?_⟩
    obtain ⟨packagesThere, filesThere⟩ := schema.first (by decide : (1 : Int) ≤ 2)
    exact ⟨table_rows packagesThere, table_rows filesThere, table_rows (schema.second le_rfl)⟩

end IndexTables

namespace Disk

variable {name : IndexName} {path : Path} {file : IndexFile} {d later : Disk}

/-- Nothing keeps an opened file from being written. -/
structure Writable (d : Disk) (file : IndexFile) : Prop where
  unlocked : file.readOnly = false
  node : ∃ node, d.find? file.place = some node ∧ d.allows node .write = true
  directory : d.require file.place.dropLast .write = .ok ()

/-- What is seen of a file when it is opened is in it. It is an index without a schema where the file was
made only then. -/
theorem opened_seen (opened : d.openIndex name path = .ok (file, later)) :
    later.indexAt file = .ok file.seen ∧ (later = d ∨ file.seen = .blank) := by
  unfold openIndex at opened
  split at opened
  · cases opened
  rename_i place _
  split at opened
  · dsimp only at opened
    split at opened
    · cases opened
      refine ⟨?_, .inr rfl⟩
      simp [indexAt, tick, put, find?, newFile, Content.tables?]
    · cases opened
  · rename_i node found
    split at opened
    · cases opened
    rename_i content held
    split at opened
    · cases opened
    split at opened
    · rename_i tables read
      cases opened
      obtain ⟨entry, mode, modified⟩ := node
      obtain rfl : entry = .file content := held
      exact ⟨by simp only [indexAt, found, read], .inl rfl⟩
    · cases opened

theorem store_carried_out (seen : d.indexAt file = .ok file.seen) (writable : d.Writable file)
    (tables : IndexTables) :
    ∃ kept e, d.storeIndex file tables = .ok (kept, e) ∧ kept.place = file.place := by
  obtain ⟨unlocked, ⟨node, found, allowed⟩, directory⟩ := writable
  have written : ∃ e, d.writeAt file.place (.index tables) = .ok ((), e) := by
    simp only [writeAt, found]
    exact ⟨_, rfl⟩
  obtain ⟨e, written⟩ := written
  by_cases same : tables = file.seen ∧ tables.hasRows = false
  · obtain ⟨rfl, rowless⟩ := same
    refine ⟨file, d, Readings.bind_ok.mpr ⟨file.seen, seen, ?_⟩, rfl⟩
    simp [found, unlocked, allowed, rowless]
    rfl
  · refine ⟨{ file with seen := tables }, e, Readings.bind_ok.mpr ⟨file.seen, seen, ?_⟩, rfl⟩
    simp [found, unlocked, allowed, directory, written, same]
    rfl

end Disk

namespace PackageIndex

open Runs Readings

variable {path : Path} {name : IndexName} {file : Disk.IndexFile} {disk : Disk} {h after : Host}
variable {later : IndexTables} {e : PackageDbError}

theorem given_sql {α : Type} {answer : Except SqlProblem α} {a : α} (answered : answer = .ok a) (h : Host) :
    (Host.given (answer.mapError PackageDbError.sql)).run h = (.ok a, h) := by
  rw [answered]
  rfl

theorem given_sql_failed {α : Type} {answer : Except SqlProblem α}
    (failed : (Host.given (answer.mapError PackageDbError.sql)).run h = (.error e, after)) :
    ∃ problem, e = .sql problem := by
  cases answer with
  | error problem => exact ⟨problem, (Except.error.inj (Prod.mk.inj failed).1).symm⟩
  | ok a => cases failed

/-- Brings an opened file to the newest schema. -/
def upgrade (file : Disk.IndexFile) : HostM PackageDbError PackageIndex := do
  let later ← Host.given (migrated file.seen)
  if later ≠ file.seen then
    let (file, disk) ← Host.given (((← get).disk.storeIndex file later).mapError PackageDbError.sql)
    modify fun h => { h with disk }
    pure (.stored file)
  else pure (.stored file)

theorem open_found (read : IndexName.read path = .ok name) (inFile : name.isTransient = false)
    (opened : h.disk.openIndex name path = .ok (file, disk)) :
    (openFile path).run h = (upgrade file).run { h with disk } := by
  unfold openFile
  rw [bind_answered (given_sql read h), inFile]
  exact (bind_answered (run_get h)).trans (bind_answered (given_sql opened h))

theorem migrated_refused (above : IndexTables.currentVersion < file.seen.version) (h : Host) :
    (Host.given (migrated file.seen)).run h = (.error (.unsupportedVersion file.seen.version), h) := by
  rw [migrated, IndexTables.migrate_refused_iff.mpr ⟨rfl, above⟩]
  rfl

theorem migrated_carried_out (made : file.seen.migrate = .ok later) (h : Host) :
    (Host.given (migrated file.seen)).run h = (.ok later, h) := by
  rw [migrated, made]
  rfl

theorem upgrade_refused (above : IndexTables.currentVersion < file.seen.version) (h : Host) :
    (upgrade file).run h = (.error (.unsupportedVersion file.seen.version), h) :=
  bind_failed (migrated_refused above h)

theorem upgrade_not_refused (made : file.seen.migrate = .ok later) (v : Int) :
    (upgrade file).run h ≠ (.error (.unsupportedVersion v), after) := by
  intro refused
  rcases failed_bind refused with unmade | ⟨tables, between, _, more⟩
  · rw [migrated_carried_out made] at unmade
    cases unmade
  split at more
  · rcases failed_bind more with got | ⟨host, _, _, more⟩
    · cases got
    rcases failed_bind more with stored | ⟨_, _, _, more⟩
    · -- A failure to store is told as one of the file, not of its version.
      obtain ⟨problem, told⟩ := given_sql_failed stored
      cases told
    · cases more
  · cases more

theorem upgrade_carried_out (seen : h.disk.indexAt file = .ok file.seen) (made : file.seen.migrate = .ok later)
    (writable : later ≠ file.seen → h.disk.Writable file) :
    ∃ kept after, (upgrade file).run h = (.ok (.stored kept), after) ∧ kept.place = file.place ∧
      after.disk.indexAt kept = .ok later := by
  unfold upgrade
  rw [bind_answered (migrated_carried_out made h)]
  split
  · rename_i changed
    obtain ⟨kept, e, stored, same⟩ := Disk.store_carried_out seen (writable changed) later
    refine ⟨kept, { h with disk := e }, ?_, same, Disk.stored_seen stored⟩
    exact (bind_answered (run_get h)).trans (bind_answered (given_sql stored h))
  · rename_i same
    rw [not_not] at same
    exact ⟨file, h, rfl, rfl, same ▸ seen⟩

theorem open_refused (read : IndexName.read path = .ok name) (inFile : name.isTransient = false)
    (opened : h.disk.openIndex name path = .ok (file, disk))
    (above : IndexTables.currentVersion < file.seen.version) :
    (openFile path).run h = (.error (.unsupportedVersion file.seen.version), h) := by
  rw [open_found read inFile opened, upgrade_refused above]
  rcases (Disk.opened_seen opened).2 with rfl | blank
  · rfl
  · rw [blank] at above
    contradiction

theorem schema_gate (read : IndexName.read path = .ok name) (inFile : name.isTransient = false)
    (opened : h.disk.openIndex name path = .ok (file, disk)) :
    (∀ v after, (openFile path).run h = (.error (.unsupportedVersion v), after) ↔
      v = file.seen.version ∧ IndexTables.currentVersion < v ∧ after = h) ∧
    (file.seen.version ≤ IndexTables.currentVersion →
      (file.seen.version ≠ IndexTables.currentVersion → disk.Writable file) →
      ∃ kept after tables, (openFile path).run h = (.ok (.stored kept), after) ∧
        kept.place = file.place ∧ after.disk.indexAt kept = .ok tables ∧ file.seen.Upgraded tables ∧
        (file.seen.HasSchema → tables.Holds file.seen.rows)) := by
  refine ⟨fun v after => ?_, fun supported writable => ?_⟩
  · constructor
    · intro refused
      rcases lt_or_ge IndexTables.currentVersion file.seen.version with above | supported
      · rw [open_refused read inFile opened above] at refused
        cases refused
        exact ⟨rfl, above, rfl⟩
      · obtain ⟨later, made, _⟩ := IndexTables.migrate_carried_out supported
        rw [open_found read inFile opened] at refused
        exact absurd refused (upgrade_not_refused made v)
    · rintro ⟨rfl, above, rfl⟩
      exact open_refused read inFile opened above
  · obtain ⟨later, made, upgraded, newest, holds⟩ := IndexTables.migrate_carried_out supported
    obtain ⟨kept, after, ran, place, seen⟩ := upgrade_carried_out (h := { h with disk })
      (Disk.opened_seen opened).1 made fun changed => writable fun same => changed (newest same)
    exact ⟨kept, after, later, (open_found read inFile opened).trans ran, place, seen, upgraded, holds⟩

/-- A disk with an index at the root. -/
def indexHost (tables : IndexTables) : Host :=
  .ofDisk
    { nodes := [([], ⟨.directory, 0o755, 0⟩), ([['i']], ⟨.file (.index tables), 0o644, 0⟩)]
      workingDir := []
      enforced := true
      now := 0 }

def indexPath : Path := "/i".toList

def indexName : IndexName := ⟨indexPath, .create, false⟩

theorem index_name_read : IndexName.read indexPath = .ok indexName := by decide +kernel

/-- Tables of the first version, with a package and one of its files. -/
def firstTables : IndexTables :=
  ⟨1, some [⟨['a'], none, "Bee".toList, none, false⟩], some [⟨"/opt".toList, ['a']⟩], none⟩

def laterTables : IndexTables := { firstTables with version := 99 }

theorem schema_gate_of_first_version :
    firstTables.HasSchema ∧
      (∃ kept after tables, (openFile indexPath).run (indexHost firstTables) = (.ok (.stored kept), after) ∧
        after.disk.indexAt kept = .ok tables ∧ tables.version = 2 ∧
        tables.Holds ⟨[⟨['a'], none, "Bee".toList, none, false⟩], [⟨"/opt".toList, ['a']⟩], []⟩) ∧
      (openFile indexPath).run (indexHost laterTables) =
        (.error (.unsupportedVersion 99), indexHost laterTables) := by
  have schema : firstTables.HasSchema := ⟨by decide, fun _ => by decide, by decide⟩
  have opened : (indexHost firstTables).disk.openIndex indexName indexPath =
      .ok (⟨[['i']], false, firstTables⟩, (indexHost firstTables).disk) := by decide +kernel
  have openedLater : (indexHost laterTables).disk.openIndex indexName indexPath =
      .ok (⟨[['i']], false, laterTables⟩, (indexHost laterTables).disk) := by decide +kernel
  have writable : Disk.Writable (indexHost firstTables).disk ⟨[['i']], false, firstTables⟩ :=
    ⟨rfl, ⟨_, rfl, by decide⟩, by decide⟩
  obtain ⟨kept, after, tables, ran, _, seen, upgraded, holds⟩ :=
    (schema_gate index_name_read rfl opened).2 (by decide) fun _ => writable
  refine ⟨schema, ⟨kept, after, tables, ran, seen, upgraded.version, holds schema⟩, ?_⟩
  exact ((schema_gate index_name_read rfl openedLater).1 99 _).mpr ⟨rfl, by decide, rfl⟩

/- The file is told to be of version 2, and has no packages. -/
theorem negative_version_accepted :
    let bare : IndexTables := ⟨-1, none, none, none⟩
    let stamped : IndexTables := ⟨2, none, none, some []⟩
    ((openFile indexPath).run (indexHost bare)).1 = .ok (.stored ⟨[['i']], false, stamped⟩) ∧
      ((openFile indexPath).run (indexHost bare)).2.disk.indexAt ⟨[['i']], false, bare⟩ = .ok stamped := by
  decide +kernel

end PackageIndex
end CrashTriage
