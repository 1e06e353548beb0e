import CrashTriage.Package.Index.Stored
import CrashTriage.Proofs.Package.DpkgAnswers
import CrashTriage.Proofs.Package.Index.Queries

/-
Transactions on an index wherever it is kept: a transaction that was carried out is seen by whoever asks
next, and an import that succeeds has written the records that were read.
-/
namespace CrashTriage

namespace Disk
theorem written_at {place : Place} {content : Content} {d e : Disk}
    (written : d.writeAt place content = .ok ((), e)) :
    ∃ mode modified, e.find? place = some ⟨.file content, mode, modified⟩ := by
  unfold writeAt at written
  split at written
  · rename_i node found
    cases written
    exact ⟨node.mode, d.now, by simp [tick, put, find?]⟩
  · contradiction

theorem stored_seen {file later : IndexFile} {tables : IndexTables} {d e : Disk}
    (stored : storeIndex file tables d = .ok (later, e)) : e.indexAt later = .ok tables := by
  obtain ⟨before, seen, more⟩ := Readings.bind_ok.mp stored
  split at more
  · cases more
  dsimp only at more
  split at more
  · cases more
  split at more
  · -- Nothing changes where the tables are the same.
    rename_i same
    cases more
    simp only [Bool.and_eq_true, decide_eq_true_eq] at same
    exact same.1 ▸ seen
  split at more
  · cases more
  split at more
  · rename_i written
    cases more
    obtain ⟨mode, modified, here⟩ := written_at written
    simp [indexAt, here, Content.tables?]
  · cases more

end Disk

namespace PackageIndex
variable {index later : PackageIndex} {budget : Option Nat} {h after : Host}

open Runs Readings

theorem transaction_ok {before tables : IndexTables} {statements : List IndexStatement}
    (done : before.transaction budget statements = (.ok (), tables)) :
    before.performAll budget statements = .ok tables := by
  unfold IndexTables.transaction at done
  split at done
  · rename_i found
    cases done
    exact found
  · cases done

theorem write_seen {statements : List IndexStatement}
    (written : index.write budget statements h = (.ok later, after)) :
    ∃ before tables, index.tables h.disk = .ok before ∧
      before.performAll budget statements = .ok tables ∧ later.tables after.disk = .ok tables := by
  obtain ⟨host, _, got, more⟩ := answered_bind written
  cases got
  obtain ⟨before, between, asked, more⟩ := answered_bind more
  obtain ⟨known, rfl⟩ := Prod.mk.inj asked
  cases result : before.transaction budget statements with
  | mk outcome tables =>
    simp only [result] at more
    obtain ⟨⟨⟩, between, carried, more⟩ := answered_bind more
    obtain ⟨mapped, rfl⟩ := Prod.mk.inj carried
    have done := transaction_ok (result.trans (by rw [map_error_ok.mp mapped]))
    refine ⟨before, tables, known, done, ?_⟩
    cases index with
    | inMemory _ =>
      cases more
      rfl
    | stored file =>
      obtain ⟨host, _, got, more⟩ := answered_bind more
      cases got
      obtain ⟨⟨kept, disk⟩, between, stored, more⟩ := answered_bind more
      obtain ⟨mapped, rfl⟩ := Prod.mk.inj stored
      cases more
      exact congrArg (Except.mapError PackageDbError.sql) (Disk.stored_seen (map_error_ok.mp mapped))

theorem import_seen {db asked : DpkgDatabase} {imports : ImportCounts}
    (imported : index.importFrom budget db h = ((.ok (imports, later), asked), after)) :
    ∃ recs tables, (records h.disk).run db = (.ok recs, asked) ∧ imports = counts recs ∧
      later.tables after.disk = .ok tables ∧
      tables.Holds (IndexRows.empty.putAll recs) := by
  unfold importFrom at imported
  split at imported
  · cases imported
  · rename_i recs kept read
    split at imported
    rename_i outcome host filled
    cases imported
    obtain ⟨index, between, written, more⟩ := answered_bind filled
    cases more
    obtain ⟨before, tables, _, done, seen⟩ := write_seen written
    exact ⟨recs, tables, read, rfl, seen, IndexTables.replace_holds done⟩

end PackageIndex
end CrashTriage
