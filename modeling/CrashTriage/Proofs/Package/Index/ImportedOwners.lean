import CrashTriage.Proofs.Package.Index.Transactions

/-
An index filled from a dpkg database names the same owners as the database does. Both have the same
listed paths, and both have them in the order of the packages.
-/
namespace CrashTriage

namespace DpkgDatabase

open Runs

variable {d : Disk} {db kept : DpkgDatabase}

/-- The record of a list of files. -/
def recordOf (d : Disk) (db : DpkgDatabase) (list : Text × List Path) :
    Except PackageDbError (Package × List Path) :=
  (packageOf d db list.1).map fun package => (package, list.2)

theorem package_kept (sameDir : kept.adminDir = db.adminDir)
    (sameStatus : statusOf d kept = statusOf d db) (id : Text) :
    packageOf d kept id = packageOf d db id :=
  package_congr sameStatus (fun _ => by rw [infoDir, sameDir, infoDir]) id

theorem run_record (d : Disk) (db : DpkgDatabase) (list : Text × List Path) :
    ∃ kept : DpkgDatabase,
      (do pure (← package d list.1, list.2) : DpkgM (Package × List Path)).run db =
        (recordOf d db list, kept) ∧
      kept.adminDir = db.adminDir ∧ statusOf d kept = statusOf d db := by
  obtain ⟨kept, asked, sameDir, sameStatus⟩ := run_package d db list.1
  refine ⟨kept, ?_, sameDir, sameStatus⟩
  unfold recordOf
  cases answer : packageOf d db list.1 with
  | error e =>
    rw [answer] at asked
    exact bind_failed asked
  | ok p =>
    rw [answer] at asked
    exact bind_answered asked

theorem run_all_records (d : Disk) (db : DpkgDatabase) (lists : List (Text × List Path)) :
    ∃ kept : DpkgDatabase,
      (lists.mapM fun list => do pure (← package d list.1, list.2) :
        DpkgM (List (Package × List Path))).run db = (lists.mapM (recordOf d db), kept) ∧
      kept.adminDir = db.adminDir ∧ statusOf d kept = statusOf d db := by
  induction lists generalizing db with
  | nil => exact ⟨db, rfl, rfl, rfl⟩
  | cons list rest ih =>
    obtain ⟨first, asked, sameDir, sameStatus⟩ := run_record d db list
    obtain ⟨last, others, lastDir, lastStatus⟩ := ih first
    have same : recordOf d first = recordOf d db := by
      funext list
      rw [recordOf, package_kept sameDir sameStatus, recordOf]
    rw [same] at others
    rw [List.mapM_cons, List.mapM_cons]
    cases record : recordOf d db list with
    | error e =>
      rw [record] at asked
      exact ⟨first, bind_failed asked, sameDir, sameStatus⟩
    | ok r =>
      rw [record] at asked
      refine ⟨last, ?_, lastDir.trans sameDir, lastStatus.trans sameStatus⟩
      rw [bind_answered asked]
      cases more : rest.mapM (recordOf d db) with
      | error e =>
        rw [more] at others
        exact bind_failed others
      | ok rs =>
        rw [more] at others
        exact bind_answered others

theorem run_records {recs : List (Package × List Path)}
    (read : (PackageIndex.records d).run db = (.ok recs, kept)) :
    ∃ lists, fileLists d db.infoDir = .ok lists ∧ lists.mapM (recordOf d db) = .ok recs ∧
      kept.adminDir = db.adminDir ∧ statusOf d kept = statusOf d db := by
  obtain ⟨_, _, got, more⟩ := answered_bind read
  cases got
  obtain ⟨lists, _, found, each⟩ := answered_bind more
  rw [run_lift] at found
  obtain ⟨listed, rfl⟩ := Prod.mk.inj found
  obtain ⟨last, all, sameDir, sameStatus⟩ := run_all_records d db lists
  obtain ⟨answer, rfl⟩ := Prod.mk.inj (all.symm.trans each)
  exact ⟨lists, listed, answer, sameDir, sameStatus⟩

end DpkgDatabase

namespace IndexTables

open Owner DpkgDatabase Text

variable {lists : List (Text × List Path)} {recs : List (Package × List Path)}

/-- Each record is that of the list in its place. -/
def Records (lists : List (Text × List Path)) (recs : List (Package × List Path)) : Prop :=
  List.Forall₂ (fun list r => r.1.identifier = list.1 ∧ r.2 = list.2) lists recs

theorem ordered_rows (ascend : recs.Pairwise fun a b => NotAfter a.1.identifier b.1.identifier) :
    Ordered (entries (IndexRows.empty.putAll recs).files) := by
  induction recs using List.reverseRecOn with
  | nil => exact .nil
  | append_singleton recs r ih =>
    obtain ⟨before, _, last⟩ := List.pairwise_append.mp ascend
    have written : (IndexRows.empty.putAll (recs ++ [r])).files =
        ((IndexRows.empty.putAll recs).files.filter fun row => row.identifier != r.1.identifier) ++
          IndexRows.fileRows r.1.identifier r.2 := by
      simp [IndexRows.putAll, IndexRows.put, IndexRows.without, IndexRows.append, IndexRows.record]
    have earlier := ih before
    unfold Ordered entries at earlier ⊢
    rw [List.pairwise_map] at earlier ⊢
    rw [written, List.pairwise_append]
    refine ⟨earlier.filter _, ?_, ?_⟩
    · apply List.pairwise_of_forall_mem_list
      intro a memberA b memberB
      rw [IndexRows.file_row_identifier memberA, IndexRows.file_row_identifier memberB]
      exact not_after_refl _
    · intro a memberA b memberB
      obtain ⟨s, there, listed⟩ := IndexRows.file_row_recorded (List.mem_filter.mp memberA).1
      rw [IndexRows.file_row_identifier listed, IndexRows.file_row_identifier memberB]
      exact last s there r (by simp)

theorem same_lists_rows (records : Records lists recs) (one : IndexRows.OneRecordEach recs)
    (place : Path) (id : Text) :
    Lists (entries (IndexRows.empty.putAll recs).files) place id ↔ Lists (entriesOf lists) place id := by
  constructor
  · rintro ⟨entry, member, rfl⟩
    obtain ⟨row, here, same⟩ := List.mem_map.mp member
    cases same
    obtain ⟨r, there, listed⟩ := IndexRows.file_row_recorded here
    obtain ⟨list, standing, sameId, sameFiles⟩ := Readings.mem_of_read records there
    obtain ⟨file, inFiles, rfl⟩ := List.mem_map.mp listed
    refine ⟨file, List.mem_flatMap.mpr ⟨list, standing, ?_⟩, (trim_slashes_idempotent file).symm⟩
    exact List.mem_map.mpr ⟨file, sameFiles ▸ inFiles, by rw [sameId]⟩
  · rintro ⟨entry, member, rfl⟩
    obtain ⟨list, standing, listed⟩ := List.mem_flatMap.mp member
    obtain ⟨file, inFiles, same⟩ := List.mem_map.mp listed
    obtain ⟨rfl, rfl⟩ := Prod.mk.inj same
    obtain ⟨r, there, sameId, sameFiles⟩ := Readings.mem_of_read records.flip standing
    refine ⟨trimSlashes file, List.mem_map.mpr ⟨⟨trimSlashes file, list.1⟩, ?_, rfl⟩,
      trim_slashes_idempotent file⟩
    apply IndexRows.recorded_file_row one there
    exact List.mem_map.mpr ⟨file, sameFiles ▸ inFiles, by rw [sameId]⟩

theorem trimmed_rows (recs : List (Package × List Path)) :
    ∀ row ∈ (IndexRows.empty.putAll recs).files, trimSlashes row.path = row.path := by
  intro row member
  obtain ⟨r, _, listed⟩ := IndexRows.file_row_recorded member
  obtain ⟨file, _, rfl⟩ := List.mem_map.mp listed
  exact trim_slashes_idempotent file

theorem records_ascend (records : Records lists recs)
    (ascend : lists.Pairwise fun a b => NotAfter a.1 b.1) :
    recs.Pairwise fun a b => NotAfter a.1.identifier b.1.identifier := by
  have same : recs.map (fun r => r.1.identifier) = lists.map (fun list => list.1) := by
    induction records with
    | nil => rfl
    | cons first _ ih =>
      rw [List.map_cons, List.map_cons, first.1, ih (List.pairwise_cons.mp ascend).2]
  have mapped : (lists.map fun list => list.1).Pairwise NotAfter := List.pairwise_map.mpr ascend
  rw [← same] at mapped
  exact List.pairwise_map.mp mapped

theorem select_imported (records : Records lists recs) (one : IndexRows.OneRecordEach recs)
    (ascend : lists.Pairwise fun a b => NotAfter a.1 b.1) (path : Path) :
    select? path (entries (IndexRows.empty.putAll recs).files) = select? path (entriesOf lists) :=
  select_same_lists (ordered_rows (records_ascend records ascend)) (ordered_lists ascend)
    (same_lists_rows records one) path

end IndexTables

namespace PackageIndex

open DpkgDatabase

variable {index later : PackageIndex} {budget : Option Nat} {h after : Host} {d : Disk}
variable {db asked reader : DpkgDatabase} {imports : ImportCounts}

theorem record_of_ok {list : Text × List Path} {r : Package × List Path}
    (made : recordOf d db list = .ok r) :
    packageOf d db list.1 = .ok r.1 ∧ r.1.identifier = list.1 ∧ r.2 = list.2 := by
  obtain ⟨package, answer, rfl⟩ := Readings.map_ok.mp made
  obtain ⟨entries, _, more⟩ := Readings.bind_ok.mp answer
  obtain ⟨config, _, same⟩ := Readings.bind_ok.mp more
  cases same
  exact ⟨answer, rfl, rfl⟩

theorem one_record_each {lists : List (Text × List Path)} {recs : List (Package × List Path)}
    (read : fileLists d db.infoDir = .ok lists) (proper : d.ProperNames)
    (made : List.Forall₂ (fun list r => recordOf d db list = .ok r) lists recs) :
    IndexRows.OneRecordEach recs := by
  intro r first s second same
  obtain ⟨⟨id, files⟩, there, madeFirst⟩ := Readings.mem_of_read made first
  obtain ⟨⟨id', files'⟩, there', madeSecond⟩ := Readings.mem_of_read made second
  obtain ⟨_, sameId, _⟩ := record_of_ok madeFirst
  obtain ⟨_, sameId', _⟩ := record_of_ok madeSecond
  have ids : id = id' := sameId.symm.trans (same.trans sameId')
  subst ids
  obtain rfl := one_list_each read proper there there'
  exact Except.ok.inj (madeFirst.symm.trans madeSecond)

theorem import_answers_like_dpkg
    (imported : index.importFrom budget db h = ((.ok (imports, later), asked), after))
    (proper : h.disk.ProperNames) (sameDirectory : SameDirectory db.adminDir h.disk d)
    (sameIndex : later.tables d = later.tables after.disk)
    (sameReader : reader = asked ∨ db.installed = none ∧ reader = ofDir db.adminDir) (path : Path) :
    ∃ owner, ((DpkgDatabase.owner? d path).run reader).1 = .ok owner ∧
      later.ask d (fun t => t.owner? path) = .ok owner := by
  obtain ⟨recs, tables, read, _, seen, holds⟩ := import_seen imported
  obtain ⟨lists, listed, each, askedDir, askedStatus⟩ := run_records read
  have made := Readings.of_all_read each
  have records : IndexTables.Records lists recs := made.imp fun _ _ one => (record_of_ok one).2
  have one := one_record_each listed proper made
  have ascend := lists_ascend listed
  have sameDir : reader.adminDir = db.adminDir := by
    rcases sameReader with rfl | ⟨_, rfl⟩
    · exact askedDir
    · rfl
  have sameStatus : statusOf d reader = statusOf h.disk db := by
    rcases sameReader with rfl | ⟨unread, rfl⟩
    · exact (same_unread_status (askedDir ▸ sameDirectory) rfl rfl).trans askedStatus
    · exact same_unread_status sameDirectory rfl unread.symm
  have sameAnswers : ∀ id, packageOf d reader id = packageOf h.disk db id :=
    package_congr sameStatus (same_script_lines sameDirectory sameDir)
  have indexAnswer : later.ask d (fun t => t.owner? path) =
      (tables.owner? path).mapError PackageDbError.sql := by
    rw [ask, sameIndex, seen]
    rfl
  rw [owner_answer, same_lists sameDirectory sameDir, listed, indexAnswer,
    IndexTables.owner_of_rows holds (IndexTables.trimmed_rows recs),
    IndexTables.select_imported records one ascend]
  simp only [Except.bind]
  cases selected : Owner.select? path (entriesOf lists) with
  | none => exact ⟨none, rfl, rfl⟩
  | some id =>
    obtain ⟨place, entry, member, _⟩ := Owner.select_listed selected
    obtain ⟨list, standing, inList⟩ := List.mem_flatMap.mp member
    obtain ⟨file, _, same⟩ := List.mem_map.mp inList
    cases same
    obtain ⟨r, there, madeRecord⟩ := Readings.mem_of_read made.flip standing
    obtain ⟨answer, sameId, _⟩ := record_of_ok madeRecord
    have own := IndexRows.of_put_all_mem IndexRows.empty one there
    have found := IndexTables.package_of_record holds own
    rw [sameId] at found
    dsimp only at answer found ⊢
    exact ⟨some r.1, by rw [sameAnswers, answer]; rfl, by rw [found]; rfl⟩

/-- One package, which lists a directory and a directory below it and ships a script. -/
def onePackageDisk : Disk :=
  let file (content : String) : Node := ⟨.file (.bytes (Text.toBytes content.toList)), 0o644, 0⟩
  let directory : Node := ⟨.directory, 0o755, 0⟩
  let info : Place := [['d'], "info".toList]
  { nodes := [([], directory), ([['d']], directory), (info, directory),
      (info ++ ["a.list".toList], file "/usr/\n/usr/lib//\n"),
      (info ++ ["a.crash_reporter".toList], file "include as x\n"),
      ([['d'], "status".toList], file "Package: a\nStatus: installed\nAuthor: Ann\n")]
    workingDir := []
    enforced := true
    now := 0 }

/-- An index that knows another package. -/
def outdatedIndex : PackageIndex :=
  .inMemory ⟨2, some [⟨['z'], none, ['z'], none, false⟩], some [⟨"/usr/lib".toList, ['z']⟩], some []⟩

def renewedIndex : PackageIndex :=
  .inMemory ⟨2, some [⟨['a'], none, ['a'], some "Ann".toList, false⟩],
    some [⟨"/usr".toList, ['a']⟩, ⟨"/usr/lib".toList, ['a']⟩], some [⟨['a'], 0, "include as x".toList⟩]⟩

def renewal : (Except PackageDbError (ImportCounts × PackageIndex) × DpkgDatabase) × Host :=
  outdatedIndex.importFrom none (ofDir "/d".toList) (.ofDisk onePackageDisk)

theorem import_answers_like_dpkg_below_directory :
    renewal.1.1 = .ok (⟨1, 2, 1⟩, renewedIndex) ∧ onePackageDisk.ProperNames ∧
    ∃ owner,
      ((DpkgDatabase.owner? onePackageDisk "/usr/lib//x/".toList).run (ofDir "/d".toList)).1 = .ok owner ∧
      renewedIndex.ask onePackageDisk (fun t => t.owner? "/usr/lib//x/".toList) = .ok owner := by
  have renewed : renewal.1.1 = .ok (⟨1, 2, 1⟩, renewedIndex) := by decide +kernel
  have proper : onePackageDisk.ProperNames := by
    unfold Disk.ProperNames
    decide +kernel
  refine ⟨renewed, proper, ?_⟩
  have imported : renewal = ((.ok (⟨1, 2, 1⟩, renewedIndex), renewal.1.2), renewal.2) := by
    rw [← renewed]
  exact import_answers_like_dpkg imported proper ⟨rfl, rfl, fun _ => rfl, fun _ => rfl⟩ rfl
    (.inr ⟨rfl, rfl⟩) "/usr/lib//x/".toList

end PackageIndex
end CrashTriage
