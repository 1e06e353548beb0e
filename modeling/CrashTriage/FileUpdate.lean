import CrashTriage.Helper.Process

/-
Replacing and deleting files. A file is replaced by preparing a temporary file and renaming it over
the old one, so that readers see either the old or the new content. Where the directory of the file
lets nothing be made, the temporary file goes to a directory that a privileged helper may take it
from, and the helper moves it. Permissions of an existing file go over to its replacement.
-/
namespace CrashTriage

inductive FileError where
  /-- A failure at a path; it may have struck a temporary file, which is then named. -/
  | io (path : Path) (cause : OsError) (temporary : Option Path)
  | denied (path : Path)
  | helper (problem : HelperError)
deriving DecidableEq, Repr

namespace FileError

open Text

def escaped (c : Char) : Text :=
  if c = '"' ∨ c = '\\' then ['\\', c]
  else if c = '\n' then ['\\', 'n']
  else if c = '\r' then ['\\', 'r']
  else if c = '\t' then ['\\', 't']
  else if c = '\x00' then ['\\', '0']
  else if c.toNat < 32 || c.toNat == 127 then
    "\\u\x7b".toList ++ Nat.toDigits 16 c.toNat ++ ['\x7d']
  else [c]

/-- The operating system's error, with the temporary file it struck. -/
def causeMessage (cause : OsError) : Option Path → Text
  | none => cause.message
  | some path => cause.message ++ " at path \"".toList ++ path.flatMap escaped ++ ['"']

def message : FileError → Text
  | .io path cause temporary =>
    "I/O error at ".toList ++ path ++ ": ".toList ++ causeMessage cause temporary
  | .denied path =>
    "permission denied for ".toList ++ path ++ " and no privileged helper is available".toList
  | .helper problem => problem.message

/-- The messages of what lies behind an error. -/
def causes : FileError → List Text
  | .io _ cause temporary => [causeMessage cause temporary]
  | .denied _ => []
  | .helper problem => problem.causes

end FileError

/-- A temporary file with the content that is to replace another file. -/
structure Draft where
  place : Place
  path : Path
deriving DecidableEq, Repr

/-- Why no draft could be prepared, with the path of the draft where the failure names it. -/
structure DraftError where
  cause : OsError
  path : Option Path
deriving DecidableEq, Repr

namespace DraftError

/-- The failure seen from `path`. -/
def toFileError (e : DraftError) (path : Path) : FileError :=
  if e.cause = .denied then .denied path else .io path e.cause e.path

end DraftError

namespace Host

/-- The outcome of a run as a value. -/
def outcome (run : HostM ε α) : HostM ε' (Except ε α) := fun h =>
  let (result, later) := run h
  (.ok result, later)

/-- A run with its failures seen differently. -/
def failingAs (f : ε → ε') (run : HostM ε α) : HostM ε' α := do
  match ← outcome run with
  | .ok a => pure a
  | .error e => throw (f e)

end Host

namespace Draft

open Host

/-- Removes a draft. -/
def discard (draft : Draft) : HostM ε Unit := change fun d => d.erase draft.place

/-- Gives a draft its content and mode, and waits until both are stored. -/
def fill (draft : Draft) (contents : Bytes) (mode : Option Nat) : HostM DraftError Unit := do
  failingAs (⟨·, some draft.path⟩) (step (Disk.writeAt draft.place (.bytes contents)))
  match mode with
  | some mode => failingAs (⟨·, none⟩) (step (Disk.setModeAt draft.place mode))
  | none => pure ()
  failingAs (⟨·, none⟩) pause

/-- Prepares a draft in a directory; nothing remains of one that fails. -/
def prepare (directory : Path) (contents : Bytes) (mode : Option Nat) : HostM DraftError Draft := do
  let base := (← get).disk.absolute directory
  let place ← failingAs (⟨·, some (Path.join base (Disk.temporaryName 0))⟩)
    (step (Disk.createTemporary directory))
  let draft : Draft := ⟨place, Path.join base (place.getLast?.getD [])⟩
  match ← outcome (draft.fill contents mode) with
  | .ok () => pure draft
  | .error e =>
    draft.discard
    throw e

/-- Renames a draft over a file; the draft goes when that fails. -/
def persist (draft : Draft) (path : Path) : HostM DraftError Unit := do
  match ← outcome (step (Disk.moveFrom draft.place path)) with
  | .ok () => pure ()
  | .error e =>
    draft.discard
    throw ⟨e, none⟩

/-- Lets a draft stay when the run ends. -/
def keep (draft : Draft) : HostM DraftError Unit := do
  match ← outcome pause with
  | .ok () => pure ()
  | .error e =>
    draft.discard
    throw ⟨e, none⟩

end Draft

namespace FileUpdate

open Host

/-- Has a helper move a draft from the temporary directory to `path`. -/
def replaceThrough (helper : Helper) (path : Path) (contents : Bytes) (mode : Option Nat)
    (temporary : Path) : HostM FileError Unit := do
  let draft ← failingAs (·.toFileError temporary) do
    let draft ← Draft.prepare temporary contents mode
    draft.keep
    pure draft
  match ← outcome (ask helper (.move draft.path path)) with
  | .ok () => pure ()
  | .error problem =>
    draft.discard
    throw (.helper problem)

/-- Replaces the file at `path`, which need not exist. -/
def replace (path : Path) (contents : Bytes) (temporary : Path) (helper : Option Helper) :
    HostM FileError Unit := do
  let directory := (Path.parent? path).getD ['.']
  let mode := ((← get).disk.stat path).toOption.map (·.mode)
  match ← outcome (Draft.prepare directory contents mode) with
  | .ok draft => failingAs (·.toFileError path) (draft.persist path)
  | .error e =>
    if e.cause = .denied then
      match helper with
      | none => throw (.denied path)
      | some helper => replaceThrough helper path contents mode temporary
    else throw (.io directory e.cause e.path)

/-- Deletes a file, through a helper where the user may not. -/
def delete (path : Path) (helper : Option Helper) : HostM FileError Unit := do
  match ← outcome (step (Disk.remove path)) with
  | .ok () => pure ()
  | .error .denied =>
    match helper with
    | none => throw (.denied path)
    | some helper => failingAs .helper (ask helper (.delete path))
  | .error e => throw (.io path e none)

end FileUpdate

end CrashTriage
