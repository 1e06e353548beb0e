import CrashTriage.Package.Index.Tables
import CrashTriage.Text.Bytes
import CrashTriage.Text.Numeral

/-
Names of indexes. A name is that of a file, or a `file:` URI whose query says how the file may be used.
An empty file name and `:memory:` name no file but an index of its own, which ends with its use.
-/
namespace CrashTriage

/-- How an index may be used. -/
inductive IndexAccess where
  | readOnly
  /-- The file has to be there. -/
  | existing
  /-- A missing file is made. -/
  | create
  | memory
deriving DecidableEq, Repr

namespace IndexAccess

def ofKeyword? (t : Text) : Option IndexAccess :=
  [("ro", readOnly), ("rw", existing), ("rwc", create), ("memory", memory)].lookup (String.ofList t)

/-- A use may be narrowed down from one rank to a lower one. -/
def rank : IndexAccess → Nat
  | .readOnly => 1
  | .existing => 2
  | .create => 6
  | .memory => 128

def refuses (current wanted : IndexAccess) : Bool :=
  wanted != .memory && current.rank < wanted.rank

end IndexAccess

structure IndexName where
  file : Path
  access : IndexAccess
  /-- Is the file taken to be one that nobody changes? -/
  frozen : Bool
deriving DecidableEq, Repr

namespace IndexName

open Text

def isTransient (name : IndexName) : Bool :=
  name.access = .memory || name.file.isEmpty || name.file == ":memory:".toList

/-- The bytes that a part of a URI stands for; an escape of the byte zero ends it. -/
def unescape : Text → Bytes
  | [] => []
  | '%' :: a :: b :: rest =>
    match hexDigit? a, hexDigit? b with
    | some high, some low =>
      if high = 0 && low = 0 then [] else UInt8.ofNat (high * 16 + low) :: unescape rest
    | _, _ => toBytes ['%'] ++ unescape (a :: b :: rest)
  | c :: rest => toBytes [c] ++ unescape rest
termination_by t => t.length

def decoded (t : Text) : Text := Bytes.toText (unescape t)

/-- The options of a query; one without a name is passed over. -/
def options (query : Text) : List (Text × Text) :=
  ((split '&' query).map fun option =>
    match splitOnce? '=' option with
    | some (key, value) => (decoded key, decoded value)
    | none => (decoded option, [])).filter fun (key, _) => !key.isEmpty

/-- What follows the scheme, without an authority; only the local one is known. -/
def stripAuthority (t : Text) : Except SqlProblem Text :=
  match t with
  | '/' :: '/' :: rest =>
    let host := rest.takeWhile (· != '/')
    if host.isEmpty || host == "localhost".toList then .ok (rest.drop host.length)
    else .error (.badAuthority host)
  | _ => .ok t

/-- Ways in which files are reached. -/
def fileSystems : List String :=
  ["unix", "unix-none", "unix-dotfile", "unix-excl"]

/-- Is the value of an option a yes? -/
def affirms (value : Text) : Bool :=
  match value with
  | c :: _ =>
    if isDigit c then
      (value.takeWhile isDigit).foldl (fun n c => (n * 10 + (c.toNat - 48)) % 256) 0 != 0
    else ["on", "yes", "true"].contains (String.ofList (toLowerAscii value))
  | [] => false

/-- Takes an option into account. -/
def withOption (access : IndexAccess) (key value : Text) : Except SqlProblem IndexAccess :=
  if key = "mode".toList then
    match IndexAccess.ofKeyword? value with
    | none => .error (.unknownMode "access".toList value)
    | some wanted => if access.refuses wanted then .error (.modeRefused value) else .ok wanted
  else if key = "cache".toList && ! ["shared", "private"].contains (String.ofList value) then
    .error (.unknownMode key value)
  else .ok access

/-- The name that a URI without its scheme stands for. -/
def ofUri (uri : Text) : Except SqlProblem IndexName := do
  let body := (← stripAuthority uri).takeWhile (· != '#')
  let (file, query) := (splitOnce? '?' body).getD (body, [])
  let options := options query
  let access ← options.foldlM (fun access (key, value) => withOption access key value) .create
  let access ← match options.reverse.lookup "vfs".toList with
    | none => pure access
    | some system =>
      if fileSystems.contains (String.ofList system) then pure access
      else if system = "memdb".toList then pure .memory
      else throw (.unknownFileSystem system)
  pure ⟨decoded file, access, ((options.lookup "immutable".toList).map affirms).getD false⟩

/-- Reads a name as it was written. -/
def read (path : Path) : Except SqlProblem IndexName :=
  match splitOnce? '\x00' path with
  | some (before, _) => .error (.nulInName (byteSize before))
  | none =>
    match strip? "file:".toList path with
    | some uri => ofUri uri
    | none => .ok ⟨path, .create, false⟩

end IndexName

end CrashTriage
