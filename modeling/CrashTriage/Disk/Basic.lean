import CrashTriage.Package.Index.File
import CrashTriage.Text.Numeral

/-
Files and directories as a value. A place is the list of names from the root; a disk is a list of
places with what stands there. A path is walked name by name as an operating system does: every
directory on the way must exist, and must let itself be searched when permissions are enforced.
Relative paths start at the working directory, which is also reached as `/proc/self/cwd`.
-/
namespace CrashTriage

/-- Errors of the operating system. -/
inductive OsError where
  | notFound
  | badDescriptor
  | denied
  | busy
  | alreadyExists
  | notDirectory
  | isDirectory
  | nameTooLong
  | notEmpty
  | nulInName
  | nulInArgument
  | argumentsTooLong
deriving DecidableEq, Repr

namespace OsError

def message : OsError → Text
  | .notFound => "No such file or directory (os error 2)".toList
  | .badDescriptor => "Bad file descriptor (os error 9)".toList
  | .denied => "Permission denied (os error 13)".toList
  | .busy => "Device or resource busy (os error 16)".toList
  | .alreadyExists => "File exists (os error 17)".toList
  | .notDirectory => "Not a directory (os error 20)".toList
  | .isDirectory => "Is a directory (os error 21)".toList
  | .nameTooLong => "File name too long (os error 36)".toList
  | .notEmpty => "Directory not empty (os error 39)".toList
  | .nulInName => "file name contained an unexpected NUL byte".toList
  | .nulInArgument => "nul byte found in provided data".toList
  | .argumentsTooLong => "Argument list too long (os error 7)".toList

end OsError

/-- What a file holds. -/
inductive Content where
  | bytes (bytes : Bytes)
  | index (tables : IndexTables)
deriving DecidableEq

namespace Content

def toBytes : Content → Bytes
  | .bytes b => b
  | .index tables => tables.toBytes

/-- What a file with these bytes holds. -/
def ofBytes (bytes : Bytes) : Content :=
  match IndexTables.ofBytes? bytes with
  | some tables => .index tables
  | none => .bytes bytes

end Content

inductive Entry where
  | file (content : Content)
  | directory
deriving DecidableEq

structure Node where
  entry : Entry
  /-- Permission bits. -/
  mode : Nat
  /-- The time of the last change in seconds. -/
  modified : Int
deriving DecidableEq

namespace Node

def isDirectory (n : Node) : Bool :=
  match n.entry with
  | .directory => true
  | .file _ => false

end Node

/-- Names from the root. -/
abbrev Place := List Text

structure Disk where
  nodes : List (Place × Node)
  workingDir : Place
  /-- Do permission bits bind the user? -/
  enforced : Bool
  now : Int
deriving DecidableEq

/-- What a directory or file may be asked for by its owner. -/
inductive Access where
  | read
  | write
  | search
deriving DecidableEq, Repr

namespace Access

def bit : Access → Nat
  | .read => 0o400
  | .write => 0o200
  | .search => 0o100

end Access

namespace Disk

open Text

def find? (d : Disk) (place : Place) : Option Node := d.nodes.lookup place

/-- Puts a node in place of what stands there. -/
def put (d : Disk) (place : Place) (node : Node) : Disk :=
  { d with nodes := (place, node) :: d.nodes.filter fun n => n.1 != place }

def erase (d : Disk) (place : Place) : Disk :=
  { d with nodes := d.nodes.filter fun n => n.1 != place }

/-- Removes a place with all places below it. -/
def eraseTree (d : Disk) (place : Place) : Disk :=
  { d with nodes := d.nodes.filter fun n => !place.isPrefixOf n.1 }

def allows (d : Disk) (node : Node) (access : Access) : Bool :=
  !d.enforced || node.mode / access.bit % 2 == 1

def require (d : Disk) (place : Place) (access : Access) : Except OsError Unit :=
  match d.find? place with
  | some node => if d.allows node access then .ok () else .error .denied
  | none => .error .notFound

/-- A path taken apart: where it starts, its names, and whether a slash ends it. -/
structure Route where
  start : Place
  steps : List Text
  slash : Bool
deriving DecidableEq, Repr

def nameLimit : Nat := 255

def pathLimit : Nat := 4096

/-- The steps to the working directory from the root under its fixed name. -/
def workingDirName : List Text := ["proc", "self", "cwd"].map String.toList

def route (d : Disk) (path : Path) : Except OsError Route :=
  let steps := (split '/' path).filter fun s => !s.isEmpty && s != ['.']
  let slash := endsWith path ['/'] || endsWith path ['/', '.'] || path == ['.']
  if path.isEmpty then .error .notFound
  else if path.any (· == '\x00') then .error .nulInName
  else if byteSize path ≥ pathLimit then .error .nameTooLong
  else if !Path.isAbsolute path then .ok ⟨d.workingDir, steps, slash⟩
  else if workingDirName.isPrefixOf steps then
    .ok ⟨d.workingDir, steps.drop workingDirName.length, slash⟩
  else .ok ⟨[], steps, slash⟩

/-- Follows names through directories. -/
def enter (d : Disk) (place : Place) : List Text → Except OsError Place
  | [] => .ok place
  | step :: rest => do
    d.require place .search
    if step = ['.', '.'] then d.enter place.dropLast rest
    else if byteSize step > nameLimit then throw .nameTooLong
    else
      match d.find? (place ++ [step]) with
      | none => throw .notFound
      | some node =>
        if node.isDirectory then d.enter (place ++ [step]) rest else throw .notDirectory

/-- Where a path leads; what it leads to need not exist unless a slash ends the path. -/
def locate (d : Disk) (path : Path) : Except OsError Place := do
  let r ← d.route path
  match r.steps.getLast? with
  | none => pure r.start
  | some last =>
    let parent ← d.enter r.start r.steps.dropLast
    if last = ['.', '.'] then d.enter parent [last]
    else
      d.require parent .search
      if byteSize last > nameLimit then throw .nameTooLong
      else if r.slash then d.enter parent [last]
      else pure (parent ++ [last])

def stat (d : Disk) (path : Path) : Except OsError Node := do
  match d.find? (← d.locate path) with
  | some node => pure node
  | none => throw .notFound

def isFile (d : Disk) (path : Path) : Bool :=
  match d.stat path with
  | .ok node => !node.isDirectory
  | .error _ => false

def isDirectory (d : Disk) (path : Path) : Bool :=
  match d.stat path with
  | .ok node => node.isDirectory
  | .error _ => false

/-- The bytes of a file. -/
def read (d : Disk) (path : Path) : Except OsError Bytes := do
  let node ← d.stat path
  if !d.allows node .read then throw .denied
  match node.entry with
  | .file content => pure content.toBytes
  | .directory => throw .isDirectory

/-- The text of a file, bytes that are no UTF-8 being replaced. -/
def readText (d : Disk) (path : Path) : Except OsError Text := (d.read path).map Bytes.toText

/-- The names of what stands directly in a place. -/
def namesIn (d : Disk) (place : Place) : List Text :=
  d.nodes.filterMap fun n =>
    match n.1.getLast? with
    | some name => if n.1.dropLast = place then some name else none
    | none => none

/-- The names in a directory. -/
def list (d : Disk) (path : Path) : Except OsError (List Text) := do
  let place ← d.locate path
  match d.find? place with
  | none => throw .notFound
  | some node =>
    if !node.isDirectory then throw .notDirectory
    else if !d.allows node .read then throw .denied
    else pure (d.namesIn place)

end Disk

end CrashTriage
