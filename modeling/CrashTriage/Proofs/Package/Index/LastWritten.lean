import CrashTriage.Proofs.Package.Index.WholeImports
import Mathlib.Data.Finset.Card
import Mathlib.Logic.Relation

/-
An index as a map from identifiers to records. Whatever calls were made since an index was new, and
whether they succeeded or failed, its tables hold under each identifier the rows of the record that was
written last, and no others.
-/
namespace CrashTriage

abbrev Catalog := Text → Option (Package × List Path)

namespace Catalog

def empty : Catalog := fun _ => none

def write (m : Catalog) (r : Package × List Path) : Catalog :=
  fun id => if r.1.identifier = id then some r else m id

theorem written (records : List (Package × List Path)) (id : Text) :
    records.foldl write empty id = IndexRows.lastRecord? id records := by
  induction records using List.reverseRecOn with
  | nil => rfl
  | append_singleton records r ih =>
    rw [List.foldl_append, List.foldl_cons, List.foldl_nil, write, ih]
    by_cases same : r.1.identifier = id <;> simp [IndexRows.lastRecord?, same]

end Catalog

namespace IndexTables

variable {t : IndexTables} {rows : IndexRows} {m : Catalog}

def KeepsRows (rows : IndexRows) (m : Catalog) : Prop :=
  ∀ id, rows.of id = (m id).elim IndexRows.empty fun r => IndexRows.record r.1 r.2

/-- What an index answers when it is a catalog. Under a path stand the identifiers whose list has it,
each as often as the list does. -/
structure Refines (t : IndexTables) (m : Catalog) : Prop where
  package : ∀ id, t.package? id = .ok ((m id).map (·.1))
  count : ∃ ids : Finset Text, (∀ id, id ∈ ids ↔ (m id).isSome) ∧ t.packageCount = .ok ids.card
  listed : ∀ path, ∃ found, t.rowsAt path = .ok found ∧ (∀ row ∈ found, row.path = path) ∧
    ∀ id, (found.map (·.identifier)).count id =
      (m id).elim 0 fun r => (r.2.map Owner.trimSlashes).count path
  noOtherRows : ∃ rows, t.Holds rows ∧ KeepsRows rows m

theorem keeps_written (written : List (Package × List Path)) :
    KeepsRows (IndexRows.empty.putAll written) (written.foldl Catalog.write .empty) := by
  intro id
  rw [IndexRows.of_put_all, Catalog.written]
  cases IndexRows.lastRecord? id written <;> rfl

theorem refines_count (holds : t.Holds rows) (keeps : KeepsRows rows m) :
    ∃ ids : Finset Text, (∀ id, id ∈ ids ↔ (m id).isSome) ∧ t.packageCount = .ok ids.card := by
  have own (id : Text) : rows.packages.filter (fun r => r.identifier == id) =
      ((m id).elim IndexRows.empty fun r => IndexRows.record r.1 r.2).packages :=
    congrArg IndexRows.packages (keeps id)
  have once : (rows.packages.map (·.identifier)).Nodup := by
    refine List.nodup_iff_count_le_one.mpr fun id => ?_
    have counted : (rows.packages.map (·.identifier)).count id =
        (rows.packages.filter fun r => r.identifier == id).length := by
      rw [List.count, List.countP_map, List.countP_eq_length_filter]
      rfl
    rw [counted, own]
    cases m id <;> simp [IndexRows.empty, IndexRows.record]
  refine ⟨(rows.packages.map (·.identifier)).toFinset, fun id => ?_, ?_⟩
  · have there : id ∈ rows.packages.map (·.identifier) ↔
        rows.packages.filter (fun r => r.identifier == id) ≠ [] := by
      simp [List.filter_eq_nil_iff]
    rw [List.mem_toFinset, there, own]
    cases m id <;> simp [IndexRows.empty, IndexRows.record]
  · rw [packageCount, holds.packages, List.toFinset_card_of_nodup once, List.length_map]

theorem refines_listed (holds : t.Holds rows) (keeps : KeepsRows rows m) (path : Path) :
    ∃ found, t.rowsAt path = .ok found ∧ (∀ row ∈ found, row.path = path) ∧
      ∀ id, (found.map (·.identifier)).count id =
        (m id).elim 0 fun r => (r.2.map Owner.trimSlashes).count path := by
  refine ⟨rows.files.filter fun r => r.path == path, ?_, fun row member => ?_, fun id => ?_⟩
  · simp only [rowsAt, holds.files]
  · exact beq_iff_eq.mp (List.mem_filter.mp member).2
  · have own : rows.files.filter (fun r => r.identifier == id) =
        ((m id).elim IndexRows.empty fun r => IndexRows.record r.1 r.2).files :=
      congrArg IndexRows.files (keeps id)
    -- Rows of the path with the identifier are rows of the identifier with the path.
    calc ((rows.files.filter fun r => r.path == path).map (·.identifier)).count id
        = ((rows.files.filter fun r => r.identifier == id).map (·.path)).count path := by
          simp only [List.count, List.countP_map, List.countP_filter, Function.comp_def, Bool.and_comm]
      _ = (m id).elim 0 fun r => (r.2.map Owner.trimSlashes).count path := by
          rw [own]
          cases found : m id with
          | none => rfl
          | some r => simp [IndexRows.record, IndexRows.fileRows, Function.comp_def]

theorem refines_of_written {written : List (Package × List Path)}
    (holds : t.Holds (IndexRows.empty.putAll written)) :
    t.Refines (written.foldl Catalog.write .empty) where
  package id := by rw [Catalog.written, package_of_written holds]
  count := refines_count holds (keeps_written written)
  listed := refines_listed holds (keeps_written written)
  noOtherRows := ⟨_, holds, keeps_written written⟩

end IndexTables

namespace PackageIndex

open Runs Readings DpkgDatabase

/-- A new index, in memory or in a file that was not there. -/
inductive Begins : PackageIndex → Host → Prop where
  | inMemory {index : PackageIndex} (h : Host) (made : new = .ok index) : Begins index h
  | inFile {path : Path} {name : IndexName} {index : PackageIndex} {before h : Host}
      (read : IndexName.read path = .ok name)
      (missing : ∀ place, before.disk.locateIndex? name.file = some place →
        before.disk.find? place = none)
      (opened : openFile path before = (.ok index, h)) : Begins index h

structure Session where
  index : PackageIndex
  host : Host
  catalog : Catalog

/-- What happens to an index. Between the calls anything may happen to the host that leaves the tables
of the index alone. -/
inductive Session.Step : Session → Session → Prop where
  | meanwhile {s : Session} (host : Host)
      (untouched : s.index.tables host.disk = s.index.tables s.host.disk) : Step s { s with host }
  | upserted {s : Session} {index : PackageIndex} {host : Host} (budget : Option Nat)
      (package : Package) (files : List Path)
      (ok : s.index.upsertWithin budget package files s.host = (.ok index, host)) :
      Step s ⟨index, host, s.catalog.write (package, files)⟩
  | notUpserted {s : Session} {e : PackageDbError} {host : Host} (budget : Option Nat)
      (package : Package) (files : List Path)
      (failed : s.index.upsertWithin budget package files s.host = (.error e, host)) :
      Step s { s with host }
  | imported {s : Session} {index : PackageIndex} {host : Host} {imports : ImportCounts}
      {asked : DpkgDatabase} {recs : List (Package × List Path)} (budget : Option Nat)
      (db : DpkgDatabase) (described : Describes s.host.disk db recs)
      (ok : s.index.importFrom budget db s.host = ((.ok (imports, index), asked), host)) :
      Step s ⟨index, host, recs.foldl Catalog.write .empty⟩
  | notImported {s : Session} {e : PackageDbError} {host : Host} {asked : DpkgDatabase}
      (budget : Option Nat) (db : DpkgDatabase)
      (failed : s.index.importFrom budget db s.host = ((.error e, asked), host)) :
      Step s { s with host }

def Session.Keeps (s : Session) : Prop :=
  ∃ t written, s.index.tables s.host.disk = .ok t ∧ t.Holds (IndexRows.empty.putAll written) ∧
    s.catalog = written.foldl Catalog.write .empty

theorem migrated_blank {t : IndexTables} (made : migrated .blank = .ok t) :
    t.Holds IndexRows.empty := by
  cases made
  exact ⟨rfl, rfl, rfl⟩

theorem opened_missing {name : IndexName} {path : Path} {d later : Disk} {file : Disk.IndexFile}
    (missing : ∀ place, d.locateIndex? name.file = some place → d.find? place = none)
    (opened : d.openIndex name path = .ok (file, later)) : file.seen = .blank := by
  unfold Disk.openIndex at opened
  split at opened
  · cases opened
  · rename_i place located
    rw [missing place located] at opened
    dsimp only at opened
    split at opened
    · cases opened
      rfl
    · cases opened

theorem begins_empty {index : PackageIndex} {h : Host} (begins : Begins index h) :
    ∃ t, index.tables h.disk = .ok t ∧ t.Holds IndexRows.empty := by
  cases begins with
  | inMemory _ made =>
    obtain ⟨t, blank, rfl⟩ := map_ok.mp made
    exact ⟨t, rfl, migrated_blank blank⟩
  | @inFile path name _ before _ read missing opened =>
    obtain ⟨given, between, got, more⟩ := answered_bind opened
    obtain ⟨same, rfl⟩ := given_answered got
    obtain rfl : given = name := by
      rw [read] at same
      exact (Except.ok.inj same).symm
    dsimp only at more
    split at more
    · obtain ⟨made, rfl⟩ := given_answered more
      obtain ⟨t, blank, rfl⟩ := map_ok.mp made
      exact ⟨t, rfl, migrated_blank blank⟩
    · obtain ⟨host, _, got, more⟩ := answered_bind more
      cases got
      obtain ⟨⟨file, disk⟩, between, found, more⟩ := answered_bind more
      obtain ⟨there, rfl⟩ := given_answered found
      have fresh := opened_missing missing (map_error_ok.mp there)
      obtain ⟨⟨⟩, between, changed, more⟩ := answered_bind more
      cases changed
      obtain ⟨later, between, migrated, more⟩ := answered_bind more
      obtain ⟨made, rfl⟩ := given_answered migrated
      rw [fresh] at made
      split at more
      · obtain ⟨host, _, got, more⟩ := answered_bind more
        cases got
        obtain ⟨⟨kept, disk⟩, between, stored, more⟩ := answered_bind more
        obtain ⟨written, rfl⟩ := given_answered stored
        obtain ⟨⟨⟩, between, changed, more⟩ := answered_bind more
        cases changed
        cases more
        refine ⟨later, ?_, migrated_blank made⟩
        exact congrArg (Except.mapError PackageDbError.sql) (Disk.stored_seen (map_error_ok.mp written))
      · rename_i same
        rw [fresh] at same
        cases made
        contradiction

theorem step_keeps {s later : Session} (keeps : s.Keeps) (step : s.Step later) : later.Keeps := by
  obtain ⟨t, written, seen, holds, known⟩ := keeps
  cases step with
  | meanwhile host untouched => exact ⟨t, written, untouched.trans seen, holds, known⟩
  | upserted budget package files ok =>
    obtain ⟨before, tables, found, done, after⟩ := write_seen ok
    obtain rfl := Except.ok.inj (seen.symm.trans found)
    have rows := IndexTables.perform_all_holds holds done
    rw [IndexRows.write_package_rows] at rows
    refine ⟨tables, written ++ [(package, files)], after, ?_, ?_⟩
    · simpa [IndexRows.putAll] using rows
    · simp [known]
  | notUpserted budget package files failed =>
    obtain rfl := write_failed failed
    exact ⟨t, written, seen, holds, known⟩
  | imported budget db described ok =>
    obtain ⟨recs, tables, read, _, after, rows⟩ := import_seen ok
    have same := describes_iff.mp described
    rw [read] at same
    obtain rfl := Except.ok.inj same
    exact ⟨tables, recs, after, rows, rfl⟩
  | notImported budget db failed =>
    obtain rfl := import_failed failed
    exact ⟨t, written, seen, holds, known⟩

theorem index_refines_map {index : PackageIndex} {h : Host} {s : Session} (begins : Begins index h)
    (run : Relation.ReflTransGen Session.Step ⟨index, h, .empty⟩ s) :
    ∃ t, s.index.tables s.host.disk = .ok t ∧ t.Refines s.catalog ∧
      ∀ package files, s.index.Stores s.host.disk →
        ∃ later host, s.index.upsert package files s.host = (.ok later, host) := by
  have keeps : s.Keeps := by
    induction run with
    | refl =>
      obtain ⟨t, seen, holds⟩ := begins_empty begins
      exact ⟨t, [], seen, holds, rfl⟩
    | tail _ step ih => exact step_keeps ih step
  obtain ⟨t, written, seen, holds, known⟩ := keeps
  refine ⟨t, seen, known ▸ IndexTables.refines_of_written holds, fun package files stores => ?_⟩
  exact write_carried_out seen holds stores fun _ none => nomatch none

def olderRecord : Package × List Path :=
  ({ Package.named ['a'] with config := ["deny x".toList, "deny y".toList] }, ["/opt".toList, "/opt/".toList])

def newerRecord : Package × List Path := ({ Package.named ['a'] with author := some "Ann".toList }, ["/bin".toList])

def indexOf (written : List (Package × List Path)) : PackageIndex :=
  let rows := IndexRows.empty.putAll written
  .inMemory ⟨2, some rows.packages, some rows.files, some rows.lines⟩

def mixedCatalog : Catalog := (twoRecords.foldl Catalog.write .empty).write newerRecord

theorem index_refines_map_after_import :
    Begins (indexOf []) twoPackagesHost ∧
      Relation.ReflTransGen Session.Step ⟨indexOf [], twoPackagesHost, .empty⟩
        ⟨indexOf (twoRecords ++ [newerRecord]), twoPackagesHost, mixedCatalog⟩ ∧
      mixedCatalog ['a'] = some newerRecord ∧
      ∃ t, (indexOf (twoRecords ++ [newerRecord])).tables twoPackagesHost.disk = .ok t ∧
        t.Refines mixedCatalog := by
  have begins : Begins (indexOf []) twoPackagesHost := .inMemory _ rfl
  have upserted : (indexOf []).upsertWithin none olderRecord.1 olderRecord.2 twoPackagesHost =
      (.ok (indexOf [olderRecord]), twoPackagesHost) := Prod.ext (by decide +kernel) rfl
  have interrupted : (indexOf [olderRecord]).upsertWithin (some 2) newerRecord.1 newerRecord.2
      twoPackagesHost = (.error (.sql .interrupted), twoPackagesHost) := Prod.ext (by decide +kernel) rfl
  have filled : (indexOf [olderRecord]).fill none twoRecords twoPackagesHost =
      (.ok (⟨2, 3, 1⟩, indexOf twoRecords), twoPackagesHost) := Prod.ext (by decide +kernel) rfl
  obtain ⟨asked, imported⟩ := import_read two_records_described (indexOf [olderRecord]) none
  rw [filled] at imported
  have replaced : (indexOf twoRecords).upsertWithin none newerRecord.1 newerRecord.2 twoPackagesHost =
      (.ok (indexOf (twoRecords ++ [newerRecord])), twoPackagesHost) := Prod.ext (by decide +kernel) rfl
  have run : Relation.ReflTransGen Session.Step ⟨indexOf [], twoPackagesHost, .empty⟩
      ⟨indexOf (twoRecords ++ [newerRecord]), twoPackagesHost, mixedCatalog⟩ :=
    (((Relation.ReflTransGen.single (.upserted none _ _ upserted)).tail
      (.notUpserted (some 2) _ _ interrupted)).tail
      (.imported none twoPackagesDatabase two_records_described imported)).tail
      (.upserted none _ _ replaced)
  obtain ⟨t, seen, refines, _⟩ := index_refines_map begins run
  exact ⟨begins, run, rfl, t, seen, refines⟩

end PackageIndex
end CrashTriage
