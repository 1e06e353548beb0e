import CrashTriage.Disk.Basic

/-
What can go wrong when a package database is asked.
-/
namespace CrashTriage

inductive PackageDbError where
  | io (path : Path) (cause : OsError)
  | sql (problem : SqlProblem)
  /-- The schema version found. -/
  | unsupportedVersion (found : Int)
deriving DecidableEq, Repr

namespace PackageDbError

def message : PackageDbError → Text
  | .io path cause =>
    "Failed to read package database at ".toList ++ path ++ ": ".toList ++ cause.message
  | .sql problem => "SQLite error: ".toList ++ problem.message
  | .unsupportedVersion found =>
    "Unsupported schema version ".toList ++ Text.ofInt found ++ "; supported range is 0..=".toList ++
      Text.ofInt IndexTables.currentVersion

/-- The messages of what lies behind an error. -/
def causes : PackageDbError → List Text
  | .io _ cause => [cause.message]
  | .sql problem => [problem.message, problem.detail]
  | .unsupportedVersion _ => []

end PackageDbError

end CrashTriage
