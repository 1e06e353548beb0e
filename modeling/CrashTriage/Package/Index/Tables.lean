import CrashTriage.Package.Owner

/-
The tables of a package index. A file of an index holds a schema version and up to three tables;
a table that was never created makes every statement on it fail. Rows stand in the order of their
insertion. A transaction is a list of statements that takes effect as a whole or not at all.
-/
namespace CrashTriage

structure PackageRow where
  identifier : Text
  storeIdentifier : Option Text
  name : Text
  author : Option Text
  isAppStore : Bool
deriving DecidableEq, Repr

/-- A path that a package lists. -/
structure FileRow where
  path : Path
  identifier : Text
deriving DecidableEq, Repr

/-- A line of a package's script. -/
structure LineRow where
  identifier : Text
  number : Nat
  line : Text
deriving DecidableEq, Repr

structure IndexTables where
  version : Int
  packages : Option (List PackageRow)
  files : Option (List FileRow)
  lines : Option (List LineRow)
deriving DecidableEq, Repr

/-- Why a statement on an index fails. -/
inductive SqlProblem where
  | noTable (name : Text)
  | notAnIndex
  | cannotOpen (path : Path)
  | readOnly
  /-- Nothing can be added to the directory of the file. -/
  | readOnlyDirectory
  | interrupted
  /-- Where the name of an index holds a NUL. -/
  | nulInName (position : Nat)
  | badAuthority (host : Text)
  | unknownMode (option value : Text)
  | modeRefused (value : Text)
  | unknownFileSystem (name : Text)
deriving DecidableEq, Repr

namespace SqlProblem

def message : SqlProblem → Text
  | .noTable name => "no such table: ".toList ++ name
  | .notAnIndex => "file is not a database".toList
  | .cannotOpen path => "unable to open database file: ".toList ++ path
  | .readOnly => "attempt to write a readonly database".toList
  | .readOnlyDirectory => "attempt to write a readonly database".toList
  | .interrupted => "interrupted".toList
  | .nulInName position =>
    "nul byte found in provided data at position: ".toList ++ Text.ofNat position
  | .badAuthority host => "invalid uri authority: ".toList ++ host
  | .unknownMode option value => "no such ".toList ++ option ++ " mode: ".toList ++ value
  | .modeRefused value => "access mode not allowed: ".toList ++ value
  | .unknownFileSystem name => "no such vfs: ".toList ++ name

/-- The class of a problem, with its number. -/
def detail : SqlProblem → Text
  | .noTable _ | .badAuthority _ | .unknownMode _ _ | .unknownFileSystem _ =>
    "Error code 1: SQL error or missing database".toList
  | .modeRefused _ => "Error code 3: Access permission denied".toList
  | .readOnly => "Error code 8: Attempt to write a readonly database".toList
  | .readOnlyDirectory => "Error code 1544: SQLITE_READONLY_DIRECTORY".toList
  | .interrupted => "Error code 9: Operation terminated by sqlite3_interrupt()".toList
  | .cannotOpen _ => "Error code 14: Unable to open the database file".toList
  | .notAnIndex => "Error code 26: File opened that is not a database file".toList
  | .nulInName position => message (.nulInName position)

end SqlProblem

/-- A change of the tables. -/
inductive IndexStatement where
  | clearLines
  | clearFiles
  | clearPackages
  /-- Inserts a package in place of one with the same identifier. -/
  | putPackage (row : PackageRow)
  | dropFiles (identifier : Text)
  | dropLines (identifier : Text)
  | addFile (row : FileRow)
  | addLine (row : LineRow)
deriving DecidableEq, Repr

namespace IndexTables

/-- A file without a schema. -/
def blank : IndexTables := ⟨0, none, none, none⟩

def hasRows (t : IndexTables) : Bool :=
  t.packages.any (!·.isEmpty) || t.files.any (!·.isEmpty) || t.lines.any (!·.isEmpty)

/-- The newest schema. -/
def currentVersion : Int := 2

def onPackages (t : IndexTables) (f : List PackageRow → List PackageRow) :
    Except SqlProblem IndexTables :=
  match t.packages with
  | some rows => .ok { t with packages := some (f rows) }
  | none => .error (.noTable "packages".toList)

/-- Rows that belong to packages can only be changed where the table of packages is. -/
def withOwners (t : IndexTables) (changed : IndexTables) : Except SqlProblem IndexTables :=
  if t.packages.isSome then .ok changed else .error (.noTable "main.packages".toList)

def onFiles (t : IndexTables) (f : List FileRow → List FileRow) :
    Except SqlProblem IndexTables :=
  match t.files with
  | some rows => t.withOwners { t with files := some (f rows) }
  | none => .error (.noTable "package_files".toList)

def onLines (t : IndexTables) (f : List LineRow → List LineRow) :
    Except SqlProblem IndexTables :=
  match t.lines with
  | some rows => t.withOwners { t with lines := some (f rows) }
  | none => .error (.noTable "package_config".toList)

def perform (t : IndexTables) : IndexStatement → Except SqlProblem IndexTables
  | .clearLines => t.onLines fun _ => []
  | .clearFiles => t.onFiles fun _ => []
  | .clearPackages => t.onPackages fun _ => []
  | .putPackage row =>
    t.onPackages fun rows => rows.filter (fun r => r.identifier != row.identifier) ++ [row]
  | .dropFiles id => t.onFiles fun rows => rows.filter fun r => r.identifier != id
  | .dropLines id => t.onLines fun rows => rows.filter fun r => r.identifier != id
  | .addFile row => t.onFiles fun rows => rows ++ [row]
  | .addLine row => t.onLines fun rows => rows ++ [row]

/-- Performs statements in order; the first `budget` of them can be carried out, when there is a
budget. -/
def performAll (t : IndexTables) :
    (budget : Option Nat) → List IndexStatement → Except SqlProblem IndexTables
  | _, [] => .ok t
  | some 0, _ :: _ => .error .interrupted
  | budget, s :: rest =>
    match t.perform s with
    | .ok t => performAll t (budget.map (· - 1)) rest
    | .error e => .error e

/-- The tables after a transaction, and its outcome: a failed one is rolled back. -/
def transaction (t : IndexTables) (budget : Option Nat) (statements : List IndexStatement) :
    Except SqlProblem Unit × IndexTables :=
  match t.performAll budget statements with
  | .ok later => (.ok (), later)
  | .error e => (.error e, t)

/-- Brings an index to the newest schema; a version above it is refused. Version 1 lacks the table
of script lines, version 0 has no schema yet. Tables that are there are kept. -/
def migrate (t : IndexTables) : Except Int IndexTables :=
  if t.version > currentVersion then .error t.version
  else
    let t :=
      if t.version = 0 then
        { t with packages := some (t.packages.getD []), files := some (t.files.getD []), version := 1 }
      else t
    .ok (if t.version < 2 then { t with lines := some (t.lines.getD []), version := 2 } else t)

/-- Statements that write a package together with the files it lists. -/
def writePackage (package : Package) (files : List Path) : List IndexStatement :=
  let id := package.identifier
  [.putPackage ⟨id, package.storeIdentifier, package.name, package.author, package.isAppStore⟩,
    .dropFiles id, .dropLines id] ++
  files.map (fun file => .addFile ⟨Owner.trimSlashes file, id⟩) ++
  package.config.zipIdx.map fun (line, number) => .addLine ⟨id, number, line⟩

/-- Statements that replace the whole content. -/
def replaceAll (records : List (Package × List Path)) : List IndexStatement :=
  [.clearLines, .clearFiles, .clearPackages] ++
    records.flatMap fun (package, files) => writePackage package files

/-- The number of packages. -/
def packageCount (t : IndexTables) : Except SqlProblem Nat :=
  match t.packages with
  | some rows => .ok rows.length
  | none => .error (.noTable "packages".toList)

/-- The script lines of a package in the order of their numbers. -/
def scriptLines (t : IndexTables) (id : Text) : Except SqlProblem (List Text) :=
  match t.lines with
  | some rows =>
    .ok (((rows.filter fun r => r.identifier == id).mergeSort fun a b => a.number ≤ b.number).map
      (·.line))
  | none => .error (.noTable "package_config".toList)

def package? (t : IndexTables) (id : Text) : Except SqlProblem (Option Package) :=
  match t.packages with
  | none => .error (.noTable "packages".toList)
  | some rows =>
    match rows.find? fun r => r.identifier == id with
    | none => .ok none
    | some r => (t.scriptLines id).map fun config =>
      some ⟨r.identifier, r.storeIdentifier, r.name, r.author, config, r.isAppStore⟩

/-- The rows of a path. -/
def rowsAt (t : IndexTables) (path : Path) : Except SqlProblem (List FileRow) :=
  match t.files with
  | some rows => .ok (rows.filter fun r => r.path == path)
  | none => .error (.noTable "package_files".toList)

/-- A path and what stands before each of its slashes but a leading one, the longest first. -/
def ancestry (path : Path) : List Path :=
  path :: ((List.range path.length).reverse.filter fun i => 0 < i && path[i]? == some '/').map
    path.take

/-- The rows of a path and of its ancestors. -/
def candidates (t : IndexTables) (path : Path) : Except SqlProblem (List (Path × Text)) :=
  (ancestry (Owner.trimSlashes path)).foldl (fun found place => do
    let found ← found
    let rows ← t.rowsAt place
    pure (found ++ rows.map fun r => (r.path, r.identifier))) (.ok [])

/-- The package that owns a path. -/
def owner? (t : IndexTables) (path : Path) : Except SqlProblem (Option Package) := do
  match Owner.select? path (← t.candidates path) with
  | some id => t.package? id
  | none => pure none

end IndexTables

end CrashTriage
