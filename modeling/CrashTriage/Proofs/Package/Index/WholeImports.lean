import CrashTriage.Proofs.Package.Index.ImportedOwners

/-
Imports as a whole. An import that fails, at whatever file or statement, leaves the host and the index as
they were. One that succeeds leaves the rows of the packages that the dpkg database has lists of, and no
other row.
-/
namespace CrashTriage

namespace DpkgDatabase

open Runs

variable {d : Disk} {db : DpkgDatabase} {recs : List (Package × List Path)}

/-- What a dpkg database holds: the record and the listed paths of each package that has a list. -/
structure Describes (d : Disk) (db : DpkgDatabase) (recs : List (Package × List Path)) : Prop where
  lists : fileLists d db.infoDir = .ok (recs.map fun r => (r.1.identifier, r.2))
  packages : ∀ r ∈ recs, ((package d r.1.identifier).run db).1 = .ok r.1

theorem package_answer (d : Disk) (db : DpkgDatabase) (id : Text) :
    ((package d id).run db).1 = packageOf d db id := by
  obtain ⟨_, asked, _⟩ := run_package d db id
  rw [asked]

theorem records_answer (d : Disk) (db : DpkgDatabase) :
    ((PackageIndex.records d).run db).1 =
      (fileLists d db.infoDir).bind fun lists => lists.mapM (recordOf d db) := by
  unfold PackageIndex.records
  rw [bind_answered (run_get db)]
  have read := run_lift (fileLists d db.infoDir) db
  cases found : fileLists d db.infoDir with
  | error e =>
    rw [found] at read
    rw [bind_failed read]
    rfl
  | ok lists =>
    rw [found] at read
    rw [bind_answered read]
    obtain ⟨_, all, _⟩ := run_all_records d db lists
    exact congrArg Prod.fst all

theorem describes_iff : Describes d db recs ↔ ((PackageIndex.records d).run db).1 = .ok recs := by
  rw [records_answer]
  constructor
  · rintro ⟨lists, packages⟩
    rw [lists]
    refine Readings.all_read (List.forall₂_map_left_iff.mpr (List.forall₂_same.mpr fun r member => ?_))
    rw [recordOf, ← package_answer, packages r member]
    rfl
  · intro read
    obtain ⟨lists, listed, each⟩ := Readings.bind_ok.mp read
    have made := Readings.of_all_read each
    have same : (recs.map fun r => (r.1.identifier, r.2)) = lists.map id :=
      Readings.map_of_read made fun list r one => by
        obtain ⟨_, sameId, sameFiles⟩ := PackageIndex.record_of_ok one
        rw [sameId, sameFiles]
        rfl
    refine ⟨by rw [listed, same, List.map_id], fun r member => ?_⟩
    obtain ⟨list, _, one⟩ := Readings.mem_of_read made member
    obtain ⟨answer, sameId, _⟩ := PackageIndex.record_of_ok one
    rw [package_answer, sameId, answer]

theorem described_distinct (described : Describes d db recs) (proper : d.ProperNames) (distinct : d.DistinctPlaces) :
    (recs.map (·.1.identifier)).Nodup := by
  have lists := lists_distinct described.lists proper distinct
  rwa [List.map_map] at lists

end DpkgDatabase

namespace PackageIndex

open DpkgDatabase Runs Readings

variable {index later : PackageIndex} {budget : Option Nat} {h after : Host} {e : PackageDbError}
variable {db asked : DpkgDatabase} {imports : ImportCounts} {statements : List IndexStatement}

theorem given_failed {α : Type} {result : Except PackageDbError α}
    (failed : (Host.given result : HostM PackageDbError α).run h = (.error e, after)) : after = h :=
  (Prod.mk.inj failed).2.symm

theorem given_answered {α : Type} {result : Except PackageDbError α} {a : α}
    (answered : (Host.given result : HostM PackageDbError α).run h = (.ok a, after)) :
    result = .ok a ∧ h = after := Prod.mk.inj answered

theorem write_failed (failed : index.write budget statements h = (.error e, after)) : after = h := by
  -- Whatever makes a transaction fail comes before anything is stored.
  rcases failed_bind failed with got | ⟨host, _, got, more⟩
  · cases got
  cases got
  rcases failed_bind more with read | ⟨before, between, read, more⟩
  · exact given_failed read
  obtain ⟨_, rfl⟩ := given_answered read
  cases before.transaction budget statements with
  | mk outcome tables =>
    rcases failed_bind more with carried | ⟨⟨⟩, between, carried, more⟩
    · exact given_failed carried
    obtain ⟨_, rfl⟩ := given_answered carried
    cases index with
    | inMemory _ => cases more
    | stored file =>
      rcases failed_bind more with got | ⟨host, _, got, more⟩
      · cases got
      cases got
      rcases failed_bind more with stored | ⟨⟨kept, disk⟩, between, stored, more⟩
      · exact given_failed stored
      · cases more

theorem import_failed (failed : index.importFrom budget db h = ((.error e, asked), after)) :
    after = h := by
  unfold importFrom at failed
  split at failed
  · exact (Prod.mk.inj failed).2.symm
  · split at failed
    rename_i outcome host filled
    cases failed
    rcases failed_bind filled with written | ⟨_, _, _, more⟩
    · exact write_failed written
    · cases more

def Stores (d : Disk) : PackageIndex → Prop
  | .inMemory _ => True
  | .stored file => ∀ tables, ∃ kept, d.storeIndex file tables = .ok kept

theorem write_carried_out {t : IndexTables} {rows : IndexRows} (known : index.tables h.disk = .ok t)
    (holds : t.Holds rows) (stores : index.Stores h.disk)
    (enough : ∀ n, budget = some n → statements.length ≤ n) :
    ∃ later after, index.write budget statements h = (.ok later, after) := by
  obtain ⟨tables, done⟩ := IndexTables.perform_all_complete holds enough
  have carried : t.transaction budget statements = (.ok (), tables) := by
    simp only [IndexTables.transaction, done]
  have read : (Host.given (index.tables h.disk) : HostM PackageDbError IndexTables).run h =
      (.ok t, h) := by
    rw [known]
    rfl
  unfold write
  cases index with
  | inMemory _ =>
    refine ⟨.inMemory tables, h, ((bind_answered (run_get h)).trans (bind_answered read)).trans ?_⟩
    rw [carried]
    rfl
  | stored file =>
    obtain ⟨⟨kept, disk⟩, stored⟩ := stores tables
    refine ⟨.stored kept, { h with disk }, ((bind_answered (run_get h)).trans (bind_answered read)).trans ?_⟩
    rw [carried]
    have last : (Host.given ((h.disk.storeIndex file tables).mapError PackageDbError.sql) :
        HostM PackageDbError (Disk.IndexFile × Disk)).run h = (.ok (kept, disk), h) := by
      rw [stored]
      rfl
    exact (bind_answered (run_get h)).trans (bind_answered last)

theorem import_read {recs : List (Package × List Path)} (described : Describes h.disk db recs)
    (index : PackageIndex) (budget : Option Nat) :
    ∃ asked, index.importFrom budget db h =
      (((index.fill budget recs h).1, asked), (index.fill budget recs h).2) := by
  have read := describes_iff.mp described
  cases answer : (records h.disk).run db with
  | mk outcome asked =>
    rw [answer] at read
    obtain rfl : outcome = .ok recs := read
    exact ⟨asked, by simp only [importFrom, answer]; rfl⟩

theorem import_carried_out {recs : List (Package × List Path)} {t : IndexTables} {rows : IndexRows}
    (described : Describes h.disk db recs) (known : index.tables h.disk = .ok t) (holds : t.Holds rows)
    (stores : index.Stores h.disk)
    (enough : ∀ n, budget = some n → (IndexTables.replaceAll recs).length ≤ n) :
    ∃ imports later asked after,
      index.importFrom budget db h = ((.ok (imports, later), asked), after) := by
  obtain ⟨later, after, written⟩ := write_carried_out known holds stores enough
  obtain ⟨asked, ran⟩ := import_read described index budget
  have filled : index.fill budget recs h = (.ok (counts recs, later), after) := bind_answered written
  exact ⟨counts recs, later, asked, after, by rw [ran, filled]⟩

theorem counts_in_order (recs : List (Package × List Path)) :
    counts recs = ⟨(IndexRows.inOrder recs).packages.length, (IndexRows.inOrder recs).files.length,
      (IndexRows.inOrder recs).lines.length⟩ := by
  induction recs with
  | nil => rfl
  | cons r recs ih =>
    rw [counts, ImportCounts.mk.injEq] at ih ⊢
    obtain ⟨packages, files, lines⟩ := ih
    simp only [IndexRows.inOrder, List.flatMap_cons, List.length_append, List.length_cons,
      List.foldr_cons] at packages files lines ⊢
    rw [files, lines]
    refine ⟨?_, ?_, ?_⟩
    · simp [IndexRows.record, Nat.add_comm]
    · simp [IndexRows.record, IndexRows.fileRows]
    · simp [IndexRows.record, IndexRows.lineRows]

structure SameAnswers (index : PackageIndex) (d later : Disk) : Prop where
  package : ∀ id, index.ask later (fun t => t.package? id) = index.ask d fun t => t.package? id
  owner : ∀ path, index.ask later (fun t => t.owner? path) = index.ask d fun t => t.owner? path
  count : index.ask later (fun t => t.packageCount) = index.ask d fun t => t.packageCount

/-- The tables hold the rows of these records and nothing else, and so many were counted. -/
structure Replaced (t : IndexTables) (recs : List (Package × List Path)) (imports : ImportCounts) :
    Prop where
  rows : t.Holds (IndexRows.inOrder recs)
  package : ∀ r ∈ recs, t.package? r.1.identifier = .ok (some r.1)
  noOther : ∀ id, id ∉ recs.map (·.1.identifier) → t.package? id = .ok none
  count : t.packageCount = .ok imports.packages
  counted : imports = ⟨(IndexRows.inOrder recs).packages.length,
    (IndexRows.inOrder recs).files.length, (IndexRows.inOrder recs).lines.length⟩

theorem replaced_by_import (proper : h.disk.ProperNames) (distinct : h.disk.DistinctPlaces)
    (imported : index.importFrom budget db h = ((.ok (imports, later), asked), after)) :
    ∃ recs t, Describes h.disk db recs ∧ later.tables after.disk = .ok t ∧ Replaced t recs imports := by
  obtain ⟨recs, t, read, rfl, seen, holds⟩ := import_seen imported
  have described : Describes h.disk db recs := describes_iff.mpr (by rw [read])
  have apart := described_distinct described proper distinct
  have rows : t.Holds (IndexRows.inOrder recs) := IndexRows.put_all_distinct apart ▸ holds
  refine ⟨recs, t, described, seen, rows, fun r member => ?_, fun id missing => ?_, ?_, counts_in_order recs⟩
  · have one : IndexRows.OneRecordEach recs := fun r here s there same =>
      List.inj_on_of_nodup_map apart here there same
    rw [IndexTables.package_of_written holds, IndexRows.last_record_of_mem one member, Option.map_some]
  · have none : IndexRows.lastRecord? id recs = none := by
      cases found : IndexRows.lastRecord? id recs with
      | none => rfl
      | some r =>
        obtain ⟨there, same⟩ := IndexRows.last_record_found found
        exact absurd (List.mem_map.mpr ⟨r, there, same⟩) missing
    rw [IndexTables.package_of_written holds, none, Option.map_none]
  · rw [IndexTables.packageCount, rows.packages, counts_in_order recs]

theorem import_all_or_nothing (index : PackageIndex) (budget : Option Nat) (db : DpkgDatabase) (h : Host)
    (proper : h.disk.ProperNames) (distinct : h.disk.DistinctPlaces) :
    (∀ e asked after, index.importFrom budget db h = ((.error e, asked), after) →
      after = h ∧ index.SameAnswers h.disk after.disk) ∧
    (∀ imports later asked after, index.importFrom budget db h = ((.ok (imports, later), asked), after) →
      ∃ recs t, Describes h.disk db recs ∧ later.tables after.disk = .ok t ∧ Replaced t recs imports) ∧
    ∀ recs t rows, Describes h.disk db recs → index.tables h.disk = .ok t → t.Holds rows →
      index.Stores h.disk → (∀ n, budget = some n → (IndexTables.replaceAll recs).length ≤ n) →
      ∃ imports later asked after,
        index.importFrom budget db h = ((.ok (imports, later), asked), after) := by
  refine ⟨fun e asked after failed => ?_, fun imports later asked after => replaced_by_import proper distinct,
    fun recs t rows => import_carried_out⟩
  obtain rfl := import_failed failed
  exact ⟨rfl, fun _ => rfl, fun _ => rfl, rfl⟩

def twoPackagesHost : Host :=
  let file (content : Content) : Node := ⟨.file content, 0o644, 0⟩
  let text (content : String) : Node := file (.bytes (Text.toBytes content.toList))
  let directory : Node := ⟨.directory, 0o755, 0⟩
  let info : Place := [['d'], "info".toList]
  let tables : IndexTables :=
    ⟨2, some [⟨['a'], none, "Old".toList, none, false⟩], some [⟨"/opt".toList, ['a']⟩], some []⟩
  .ofDisk
    { nodes := [([], directory), ([['i']], file (.index tables)), ([['d']], directory),
        (info, directory), (info ++ ["a.list".toList], text "/usr/\n"),
        (info ++ ["a.crash_reporter".toList], text "include as x\n"),
        (info ++ ["b.list".toList], text "/usr\n/usr/lib/\n"),
        ([['d'], "status".toList], text "Package: b\nStatus: install ok installed\nName: Bee\n")]
      workingDir := []
      enforced := true
      now := 0 }

def twoRecords : List (Package × List Path) :=
  [({ Package.named ['a'] with config := ["include as x".toList] }, ["/usr/".toList]),
    ({ Package.named ['b'] with name := "Bee".toList }, ["/usr".toList, "/usr/lib/".toList])]

def twoPackagesDatabase : DpkgDatabase := .ofDir "/d".toList

theorem two_records_described : Describes twoPackagesHost.disk twoPackagesDatabase twoRecords where
  lists := by
    have listed : twoPackagesHost.disk.list twoPackagesDatabase.infoDir =
        .ok (["a.list", "a.crash_reporter", "b.list"].map String.toList) := by decide +kernel
    exact lists_of_ascending listed (by decide +kernel) (by decide +kernel)
  packages := by decide +kernel

def fileIndex : PackageIndex := .stored ⟨[['i']], false, .blank⟩

/- The second package is being written when the import is stopped. -/
theorem import_all_or_nothing_in_file :
    twoPackagesHost.disk.ProperNames ∧ twoPackagesHost.disk.DistinctPlaces ∧
      (∃ asked, fileIndex.importFrom (some 10) twoPackagesDatabase twoPackagesHost =
        ((.error (.sql .interrupted), asked), twoPackagesHost)) ∧
      ∃ later asked after recs t, fileIndex.importFrom none twoPackagesDatabase twoPackagesHost =
          ((.ok (⟨2, 3, 1⟩, later), asked), after) ∧
        Describes twoPackagesHost.disk twoPackagesDatabase recs ∧
        later.tables after.disk = .ok t ∧ Replaced t recs ⟨2, 3, 1⟩ := by
  have proper : twoPackagesHost.disk.ProperNames := by
    unfold Disk.ProperNames
    decide +kernel
  have distinct : twoPackagesHost.disk.DistinctPlaces := by
    unfold Disk.DistinctPlaces
    decide +kernel
  have stopped : (fileIndex.fill (some 10) twoRecords twoPackagesHost).1 = .error (.sql .interrupted) := by
    decide +kernel
  have counted : (fileIndex.fill none twoRecords twoPackagesHost).1.map (·.1) = .ok ⟨2, 3, 1⟩ := by
    decide +kernel
  obtain ⟨⟨imports, later⟩, filled, rfl⟩ := Readings.map_ok.mp counted
  obtain ⟨asked, failed⟩ := import_read two_records_described fileIndex (some 10)
  obtain ⟨asked', done⟩ := import_read two_records_described fileIndex none
  rw [stopped] at failed
  rw [filled] at done
  obtain ⟨same, _⟩ := (import_all_or_nothing fileIndex (some 10) twoPackagesDatabase twoPackagesHost
    proper distinct).1 _ _ _ failed
  obtain ⟨recs, t, described, seen, replaced⟩ := (import_all_or_nothing fileIndex none
    twoPackagesDatabase twoPackagesHost proper distinct).2.1 _ _ _ _ done
  rw [same] at failed
  exact ⟨proper, distinct, ⟨asked, failed⟩, later, asked', _, recs, t, done, described, seen, replaced⟩

end PackageIndex
end CrashTriage
