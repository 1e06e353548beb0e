import CrashTriage.Package.Index.Stored
import CrashTriage.Package.Resolver

/-
The database that is asked who owns a path: the package index when one is configured and there, the
dpkg database otherwise.
-/
namespace CrashTriage

inductive PackageSource where
  | dpkg (database : DpkgDatabase)
  | index (index : PackageIndex)
deriving DecidableEq

/-- Runs that look owners up and keep the answers. -/
abbrev OwnerM := StateT Resolver (StateM PackageSource)

namespace PackageSource

def name : PackageSource → Text
  | .dpkg _ => "dpkg".toList
  | .index _ => "package-index".toList

/-- The database that a configuration asks for. -/
def ofConfig (c : Config) : HostM PackageDbError PackageSource := do
  match c.packageIndex with
  | some path =>
    if (← get).disk.isFile path then .index <$> PackageIndex.openFile path
    else pure (.dpkg (.ofDir c.dpkgDir))
  | none => pure (.dpkg (.ofDir c.dpkgDir))

/-- The answer to who owns a path, with the database as it is afterwards. -/
def answer (d : Disk) (path : Path) : PackageSource → OwnerAnswer × PackageSource
  | .dpkg database =>
    let (found, database) := (DpkgDatabase.owner? d path).run database
    (found, .dpkg database)
  | .index tables => (tables.ask d fun t => t.owner? path, .index tables)

def owner (d : Disk) (path : Path) : StateM PackageSource OwnerAnswer := modifyGet (answer d path)

/-- The owner of a path. -/
def resolve (d : Disk) (path : Path) : OwnerM Resolution := Resolver.resolve (owner d) path

/-- What a run finds when nothing has been looked up before. -/
def freshly (s : PackageSource) (c : Config) (run : OwnerM α) : α :=
  ((run.run (Resolver.ofConfig c)).run s).1.1

end PackageSource

end CrashTriage
