import CrashTriage.Disk.Basic

/-
Single changes of a disk. Each either fails and changes nothing or yields the changed disk.
-/
namespace CrashTriage

namespace Disk

open Text

def tick (d : Disk) : Disk := { d with now := d.now + 1 }

/-- A path from the root. -/
def absolute (d : Disk) (path : Path) : Path :=
  if Path.isAbsolute path then path
  else
    let base := if d.workingDir.isEmpty then ['/'] else d.workingDir.flatMap fun name => '/' :: name
    Path.join base path

/-- The directory that a path names, in which a name can be added or removed. -/
def enterForChange (d : Disk) (path : Path) : Except OsError Place := do
  let r ← d.route path
  let place ← d.enter r.start r.steps
  d.require place .search
  pure place

/-- The place of the last name of a path, its directory having been entered. A path that ends in no
name fails with `unnamed`. -/
def enterParent (d : Disk) (path : Path) (unnamed : OsError) : Except OsError (Place × Text × Bool) := do
  let r ← d.route path
  match r.steps.getLast? with
  | none => throw unnamed
  | some last =>
    let parent ← d.enter r.start r.steps.dropLast
    d.require parent .search
    if last = ['.', '.'] then throw unnamed
    if byteSize last > nameLimit then throw .nameTooLong
    pure (parent, last, r.slash)

/-- Where a path leads by its names alone, each `..` leading back over the name before it. -/
def lexicalPlace (start : Place) : List Text → Place
  | [] => start
  | step :: rest =>
    lexicalPlace (if step = ['.', '.'] then start.dropLast else start ++ [step]) rest

/-- Puts a node where a path leads, with the directories on the way to it. -/
def plant (path : Path) (node : Node) (d : Disk) : Disk :=
  match d.route path with
  | .error _ => d
  | .ok r =>
    let place := lexicalPlace r.start r.steps
    let onTheWay := (List.range place.length).map place.take
    (onTheWay.foldl (fun d way =>
      if (d.find? way).isSome then d else d.put way ⟨.directory, 0o755, d.now⟩) d).put place node

def newFile (content : Content) (mode : Nat) (d : Disk) : Node := ⟨.file content, mode, d.now⟩

/-- Names for temporary files, all different. -/
def temporaryName (n : Nat) : Text := ".tmp".toList ++ padded 6 n

/-- The first temporary name that is free in a place. -/
def freeName (d : Disk) (place : Place) : Text :=
  let names := (List.range (d.nodes.length + 1)).map temporaryName
  (names.find? fun name => (d.find? (place ++ [name])).isNone).getD (temporaryName d.nodes.length)

/-- Makes an empty file with a free name in a directory, for its owner alone. -/
def createTemporary (directory : Path) (d : Disk) : Except OsError (Place × Disk) := do
  let parent ← d.enterForChange (d.absolute directory)
  d.require parent .write
  let place := parent ++ [d.freeName parent]
  pure (place, (d.put place (newFile (.bytes []) 0o600 d)).tick)

/-- Replaces what a file holds. -/
def writeAt (place : Place) (content : Content) (d : Disk) : Except OsError (Unit × Disk) :=
  match d.find? place with
  | some node => .ok ((), (d.put place { node with entry := .file content, modified := d.now }).tick)
  | none => .error .notFound

def setModeAt (place : Place) (mode : Nat) (d : Disk) : Except OsError (Unit × Disk) :=
  match d.find? place with
  | some node => .ok ((), d.put place { node with mode })
  | none => .error .notFound

/-- Gives the file at `place` the name `path`, in place of a file there. -/
def moveFrom (place : Place) (path : Path) (d : Disk) : Except OsError (Unit × Disk) := do
  let (parent, name, slash) ← d.enterParent path .busy
  let target := parent ++ [name]
  if slash then throw .notDirectory
  d.require parent .write
  match d.find? place, d.find? target with
  | none, _ => throw .notFound
  | some node, old =>
    if old.any (·.isDirectory) then throw .isDirectory
    pure ((), (d.erase place).put target node)

/-- Removes a file. -/
def remove (path : Path) (d : Disk) : Except OsError (Unit × Disk) := do
  let (parent, name, slash) ← d.enterParent path .isDirectory
  match d.find? (parent ++ [name]) with
  | none => throw .notFound
  | some node =>
    if slash then throw (if node.isDirectory then .isDirectory else .notDirectory)
    d.require parent .write
    if node.isDirectory then throw .isDirectory
    pure ((), d.erase (parent ++ [name]))

/-- Makes one directory. -/
def makeDirectory (path : Path) (d : Disk) : Except OsError (Unit × Disk) := do
  let (parent, name, _) ← d.enterParent path .alreadyExists
  let place := parent ++ [name]
  if (d.find? place).isSome then throw .alreadyExists
  d.require parent .write
  pure ((), (d.put place ⟨.directory, 0o755, d.now⟩).tick)

/-- Makes a directory and those on the way to it that are missing; `fuel` bounds their number. -/
def makeDirectories (fuel : Nat) (path : Path) (d : Disk) : Except OsError (Unit × Disk) :=
  if path.isEmpty then .ok ((), d)
  else
    match makeDirectory path d, fuel, Path.parent? path with
    | .ok done, _, _ => .ok done
    | .error .notFound, fuel + 1, some parent => do
      let ((), d) ← makeDirectories fuel parent d
      match makeDirectory path d with
      | .ok done => pure done
      | .error e => if d.isDirectory path then pure ((), d) else throw e
    | .error e, _, _ => if d.isDirectory path then .ok ((), d) else .error e

end Disk

end CrashTriage
