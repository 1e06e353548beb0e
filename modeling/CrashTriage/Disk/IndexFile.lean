import CrashTriage.Disk.Change
import CrashTriage.Package.Index.Name

/-
Files of indexes. A file without content, or with a single byte, is an index without a schema; any
other file that is no index is refused. A change needs a journal beside the file while it is made.
-/
namespace CrashTriage

namespace Content

/-- The tables of an index. -/
def tables? : Content → Option IndexTables
  | .index tables => some tables
  | .bytes [] => some .blank
  | .bytes [_] => some .blank
  | .bytes _ => none

end Content

namespace Disk

/-- What stands in a place, which is entered from the root. -/
def look (d : Disk) (place : Place) : Except OsError Node := do
  let parent ← d.enter [] place.dropLast
  if let some name := place.getLast? then
    d.require parent .search
    if Text.byteSize name > nameLimit then throw .nameTooLong
  match d.find? place with
  | some node => pure node
  | none => throw .notFound

/-- Follows names, each `..` leading back over the name before it, whether that was there or not. -/
def indexPlace? (d : Disk) (place : Place) : List Text → Option Place
  | [] => some place
  | step :: rest =>
    if step = ['.', '.'] then d.indexPlace? place.dropLast rest
    else
      match d.look (place ++ [step]) with
      | .ok _ | .error .notFound => d.indexPlace? (place ++ [step]) rest
      | .error _ => none

/-- How long the path from the root to a file of an index can be. -/
def indexPathLimit : Nat := 504

/-- The place that the name of a file of an index leads to. -/
def locateIndex? (d : Disk) (file : Path) : Option Place := do
  let r ← (d.route file).toOption
  let place ← d.indexPlace? r.start r.steps
  let length := place.foldr (fun name rest => 1 + Text.byteSize name + rest) 0
  if length = 0 || length > indexPathLimit then none else some place

/-- An index in a file that was opened. -/
structure IndexFile where
  place : Place
  readOnly : Bool
  /-- The tables as they were last seen, which are still there for whoever opened the file when it
  has been removed. -/
  seen : IndexTables
deriving DecidableEq

/-- Opens the file that a name leads to. The name as it was written is told when it cannot be
opened. -/
def openIndex (name : IndexName) (written : Path) (d : Disk) : Except SqlProblem (IndexFile × Disk) :=
  let readOnly := name.frozen || name.access = .readOnly
  match d.locateIndex? name.file with
  | none => .error (.cannotOpen written)
  | some place =>
    match d.find? place with
    | none =>
      if name.access = .create && (d.require place.dropLast .write).isOk then
        .ok (⟨place, readOnly, .blank⟩, (d.put place (newFile (.bytes []) 0o644 d)).tick)
      else .error (.cannotOpen written)
    | some node =>
      match node.entry with
      | .directory => .error (.cannotOpen written)
      | .file content =>
        if !d.allows node .read then .error (.cannotOpen written)
        else match content.tables? with
          | some tables => .ok (⟨place, readOnly, tables⟩, d)
          | none => .error .notAnIndex

/-- The tables in an opened file. -/
def indexAt (file : IndexFile) (d : Disk) : Except SqlProblem IndexTables :=
  match d.find? file.place with
  | none => .ok file.seen
  | some ⟨.file content, _, _⟩ =>
    match content.tables? with
    | some tables => .ok tables
    | none => .error .notAnIndex
  | some ⟨.directory, _, _⟩ => .error .notAnIndex

/-- Stores the tables of an index. The file must be writable; where anything is written at all, its
directory must be too. -/
def storeIndex (file : IndexFile) (tables : IndexTables) (d : Disk) :
    Except SqlProblem (IndexFile × Disk) := do
  let before ← d.indexAt file
  match d.find? file.place with
  | none => throw .readOnly
  | some node =>
    if file.readOnly || !d.allows node .write then throw .readOnly
    if tables = before && !tables.hasRows then return (file, d)
    if !(d.require file.place.dropLast .write).isOk then throw .readOnlyDirectory
    match d.writeAt file.place (.index tables) with
    | .ok ((), d) => pure ({ file with seen := tables }, d)
    | .error _ => throw .readOnly

end Disk

end CrashTriage
