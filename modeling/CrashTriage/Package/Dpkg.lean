import CrashTriage.Package.Database
import CrashTriage.Package.Status

/-
The database of the dpkg package manager: a status file, and a directory with the list of files of each
package, `ID.list`, and with the scripts that some packages ship, `ID.crash_reporter`. The status
file is read once; everything else is read anew for each question.
-/
namespace CrashTriage

structure DpkgDatabase where
  adminDir : Path
  /-- The installed packages once read; each identifier stands once. -/
  installed : Option (List StatusEntry)
deriving DecidableEq, Repr

/-- Questions to a dpkg database. -/
abbrev DpkgM (α : Type) := ExceptT PackageDbError (StateM DpkgDatabase) α

namespace DpkgDatabase

open Text

def ofDir (adminDir : Path) : DpkgDatabase := ⟨adminDir, none⟩

def infoDir (db : DpkgDatabase) : Path := Path.join db.adminDir "info".toList

def scriptSuffix : Text := ".crash_reporter".toList

def readText (d : Disk) (path : Path) : Except PackageDbError Text :=
  (d.readText path).mapError (.io path)

/-- Puts an entry in place of one with the same identifier. -/
def putEntry (entries : List StatusEntry) (e : StatusEntry) : List StatusEntry :=
  entries.filter (fun other => other.identifier != e.identifier) ++ [e]

/-- The installed packages of a status file. -/
def installedIn (body : Text) : List StatusEntry :=
  ((StatusEntry.readAll body).filter (·.installed)).foldl putEntry []

/-- The installed packages, kept once they could be read. -/
def status (d : Disk) : DpkgM (List StatusEntry) := do
  let db ← get
  match db.installed with
  | some entries => pure entries
  | none =>
    let entries := installedIn (← readText d (Path.join db.adminDir "status".toList))
    set { db with installed := some entries }
    pure entries

/-- The identifier of the package whose files a file lists. -/
def listOwner? (name : Text) : Option Text :=
  match Path.splitExtension? name with
  | some (id, some extension) => if extension = "list".toList then some id else none
  | _ => none

/-- The paths in a list of files. -/
def listedPaths (body : Text) : List Path :=
  ((lines body).map trim).filter fun line => !line.isEmpty

/-- The lists of all packages in the order of their identifiers. -/
def fileLists (d : Disk) (infoDir : Path) : Except PackageDbError (List (Text × List Path)) := do
  let names ← (d.list infoDir).mapError (.io infoDir)
  let owned := names.filterMap fun name => (listOwner? name).map fun id => (name, id)
  let lists ← owned.mapM fun (name, id) => do
    pure (id, listedPaths (← readText d (Path.join infoDir name)))
  pure (lists.mergeSort fun a b => Text.compare a.1 b.1 != .gt)

/-- The lines of a package's script; none when it ships no script. -/
def scriptLines (d : Disk) (infoDir : Path) (id : Text) : Except PackageDbError (List Text) := do
  let path := Path.join infoDir (id ++ scriptSuffix)
  if d.isFile path then pure (lines (← readText d path)) else pure []

/-- A package's record; the maintainer stands in for an author. -/
def record (id : Text) (entry : Option StatusEntry) (config : List Text) : Package :=
  { Package.named id with
    name := (entry.bind (·.name)).getD id
    author := entry.bind fun e => e.author.or e.maintainer
    config }

def package (d : Disk) (id : Text) : DpkgM Package := do
  let entries ← status d
  let config ← scriptLines d (← get).infoDir id
  pure (record id (entries.find? fun e => e.identifier == id) config)

/-- The package that owns a path. -/
def owner? (d : Disk) (path : Path) : DpkgM (Option Package) := do
  let lists ← fileLists d (← get).infoDir
  let entries := lists.flatMap fun (id, files) => files.map fun file => (file, id)
  match Owner.select? path entries with
  | some id => some <$> package d id
  | none => pure none

end DpkgDatabase

end CrashTriage
