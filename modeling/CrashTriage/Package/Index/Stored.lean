import CrashTriage.Disk.IndexFile
import CrashTriage.Host
import CrashTriage.Package.Dpkg

/-
A package index: a copy of what a dpkg database says, in memory or in a file. Opening one brings its
schema to the newest version; writing to it is done in transactions.
-/
namespace CrashTriage

inductive PackageIndex where
  | inMemory (tables : IndexTables)
  | stored (file : Disk.IndexFile)
deriving DecidableEq

/-- What an import brought in. -/
structure ImportCounts where
  packages : Nat
  files : Nat
  scriptLines : Nat
deriving DecidableEq, Repr

namespace PackageIndex

def migrated (tables : IndexTables) : Except PackageDbError IndexTables :=
  (tables.migrate).mapError .unsupportedVersion

/-- A new index in memory. -/
def new : Except PackageDbError PackageIndex := (migrated .blank).map .inMemory

/-- The index in a file, which is made when it is missing. -/
def openFile (path : Path) : HostM PackageDbError PackageIndex := do
  let name ← Host.given ((IndexName.read path).mapError PackageDbError.sql)
  if name.isTransient then return ← Host.given new
  let (file, disk) ← Host.given (((← get).disk.openIndex name path).mapError PackageDbError.sql)
  modify fun h => { h with disk }
  let later ← Host.given (migrated file.seen)
  if later ≠ file.seen then
    let (file, disk) ← Host.given (((← get).disk.storeIndex file later).mapError PackageDbError.sql)
    modify fun h => { h with disk }
    pure (.stored file)
  else pure (.stored file)

def tables (d : Disk) : PackageIndex → Except PackageDbError IndexTables
  | .inMemory t => .ok t
  | .stored file => (d.indexAt file).mapError .sql

/-- Asks the tables of an index. -/
def ask (d : Disk) (index : PackageIndex) (question : IndexTables → Except SqlProblem α) :
    Except PackageDbError α := do
  (question (← index.tables d)).mapError .sql

/-- Carries out a transaction. -/
def write (index : PackageIndex) (budget : Option Nat) (statements : List IndexStatement) :
    HostM PackageDbError PackageIndex := do
  let before ← Host.given (index.tables (← get).disk)
  let (result, after) := before.transaction budget statements
  Host.given (result.mapError PackageDbError.sql)
  match index with
  | .inMemory _ => pure (.inMemory after)
  | .stored file =>
    let (file, disk) ← Host.given (((← get).disk.storeIndex file after).mapError PackageDbError.sql)
    modify fun h => { h with disk }
    pure (.stored file)

/-- Writes a package with the files it lists, in place of an earlier record. -/
def upsertWithin (index : PackageIndex) (budget : Option Nat) (package : Package)
    (files : List Path) : HostM PackageDbError PackageIndex :=
  index.write budget (IndexTables.writePackage package files)

def upsert (index : PackageIndex) (package : Package) (files : List Path) :
    HostM PackageDbError PackageIndex :=
  index.upsertWithin none package files

/-- Reads every package of a dpkg database with its files. -/
def records (d : Disk) : DpkgM (List (Package × List Path)) := do
  let lists ← DpkgDatabase.fileLists d (← get).infoDir
  lists.mapM fun (id, files) => do pure (← DpkgDatabase.package d id, files)

def counts (records : List (Package × List Path)) : ImportCounts :=
  ⟨records.length, records.foldr (fun r n => r.2.length + n) 0,
    records.foldr (fun r n => r.1.config.length + n) 0⟩

/-- Replaces the content of an index by what was read. -/
def fill (index : PackageIndex) (budget : Option Nat) (records : List (Package × List Path)) :
    HostM PackageDbError (ImportCounts × PackageIndex) := do
  let index ← index.write budget (IndexTables.replaceAll records)
  pure (counts records, index)

/-- Replaces the content of an index by that of a dpkg database, which is read in full before. The
dpkg database is handed back with what it keeps. -/
def importFrom (index : PackageIndex) (budget : Option Nat) (db : DpkgDatabase) :
    StateM Host (Except PackageDbError (ImportCounts × PackageIndex) × DpkgDatabase) := fun h =>
  match (records h.disk).run db with
  | (.error e, db) => ((.error e, db), h)
  | (.ok records, db) =>
    let (result, h) := index.fill budget records h
    ((result, db), h)

end PackageIndex

end CrashTriage
