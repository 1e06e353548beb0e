import CrashTriage.Script.Shell.Expansion

/-
Redirections. Their words are expanded before any of them takes effect; then they take effect from left
to right, up to one that fails.
-/
namespace CrashTriage

namespace Shell

open Text ShellM

/-- A redirection whose words are expanded. -/
inductive Redirected where
  | file (descriptor : Nat) (mode : OpenMode) (name : Text)
  | copy (descriptor source : Nat)
  | close (descriptor : Nat)
  | document (descriptor : Nat) (text : Text)
deriving DecidableEq, Repr

def expandRedirection (r : Runner) : Redirection → ShellM Redirected
  | .file descriptor mode name => do return .file descriptor mode (← expandText r name)
  | .duplicate descriptor source => do
    match ← expandText r source with
    | ['-'] => return .close descriptor
    | [c] =>
      if isDigit c then return .copy descriptor (c.toNat - 48)
      else failWith ["Syntax error: ".toList, SyntaxProblem.message .badDescriptor]
    | _ => failWith ["Syntax error: ".toList, SyntaxProblem.message .badDescriptor]
  | .here descriptor number => do
    let word := ((← get).documents[number]?).getD []
    return .document descriptor (Mark.text (← expandParts r false .written word))

/-- An error of the operating system in the words of a shell, which has its own for a name that leads
nowhere. -/
def reason (usual : String) (e : OsError) : Text :=
  match e with
  | .notFound | .notDirectory => usual.toList
  | _ => trimEnd (e.message.takeWhile (· != '('))

/-- The words of the operating system for an error. -/
def plainReason (e : OsError) : Text := trimEnd (e.message.takeWhile (· != '('))

/-- Files that stand for a descriptor. -/
def descriptorFiles : List (Text × Nat) :=
  [("/dev/stdin", 0), ("/dev/stdout", 1), ("/dev/stderr", 2), ("/dev/fd/0", 0), ("/dev/fd/1", 1),
    ("/dev/fd/2", 2)].map fun (name, n) => (name.toList, n)

/-- The channel of a file opened for reading. -/
def openToRead (d : Disk) (name : Text) : Except OsError Channel := do
  let place ← d.locate (toChars name)
  match d.find? place with
  | none => throw .notFound
  | some node =>
    if !d.allows node .read then throw .denied
    else if node.isDirectory then pure .directory
    else pure (.file place 0 true false false)

/-- Opens a file for writing, making it where it is missing. -/
def openToWrite (mode : OpenMode) (mask : Nat) (name : Text) (protect : Bool) (d : Disk) :
    Except OsError (Channel × Disk) := do
  let place ← d.locate (toChars name)
  let channel := Channel.file place 0 (mode = .readWrite) true (mode = .append)
  match d.find? place with
  | some node =>
    if node.isDirectory then throw .isDirectory
    else if !d.allows node .write then throw .denied
    else if protect && mode = .truncate then throw .alreadyExists
    else if mode = .append || mode = .readWrite then pure (channel, d)
    else
      let ((), d) ← d.writeAt place (.bytes [])
      pure (channel, d)
  | none =>
    d.require place.dropLast .write
    let bits := 0o666 &&& (0o777 ^^^ mask)
    pure (channel, (d.put place (d.newFile (.bytes []) bits)).tick)

/-- Opens a file, or fails. -/
def openFile (mode : OpenMode) (name : Text) : ShellM Nat := do
  let d ← disk
  if name = "/dev/null".toList then newChannel .null
  else
    match (descriptorFiles.lookup name).map channelOf? with
    | some known =>
      match ← known with
      | some number => return number
      | none => failWith ["cannot open ".toList, name, ": No such file".toList]
    | none =>
      match mode with
      | .read =>
        match openToRead d name with
        | .ok c => newChannel c
        | .error e => failWith ["cannot open ".toList, name, ": ".toList, reason "No such file" e]
      | _ =>
        let protect ← hasOption 'C'
        match ← tryDisk (openToWrite mode (← environment).mask name protect) with
        | .ok c => newChannel c
        | .error e =>
          failWith ["cannot create ".toList, name, ": ".toList, reason "Directory nonexistent" e]

def redirect : Redirected → ShellM Unit
  | .file descriptor mode name => do assignDescriptor descriptor (some (← openFile mode name))
  | .copy descriptor source => do
    match ← channelOf? source with
    | some number => assignDescriptor descriptor (some number)
    | none => failWith [ofNat source, ": ".toList, plainReason .badDescriptor]
  | .close descriptor => assignDescriptor descriptor none
  | .document descriptor text => do
    assignDescriptor descriptor (some (← newChannel (.source text)))

/-- Runs with the descriptors put back at the end. -/
def keepingDescriptors (run : ShellM α) : ShellM α := do
  let kept := (← environment).descriptors
  let putBack : ShellM Unit := modifyEnvironment fun e => { e with descriptors := kept }
  let a ← tryCatch run fun jump => do
    putBack
    throw jump
  putBack
  return a

/-- Carries out redirections; the status tells whether all of them could be. -/
def tryRedirect (rs : List Redirected) : ShellM Bool :=
  tryCatch (do rs.forM redirect; return true) fun jump =>
    match jump with
    | .failure => return false
    | _ => throw jump

end Shell

end CrashTriage
