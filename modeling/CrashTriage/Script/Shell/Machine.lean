import CrashTriage.Host
import CrashTriage.Script.Shell.Arithmetic
import CrashTriage.Script.Shell.Pattern

/-
The state of a running shell. Descriptors lead to channels, which subshells share with the shell that
started them; all else about a subshell is its own. Processes are not run side by side: a pipeline runs
its commands in their order, each on all that the one before it printed.
-/
namespace CrashTriage

namespace Shell

open Text

/-- What a descriptor leads to. -/
inductive Channel where
  /-- What was written, the latest first. -/
  | sink (written : List Text)
  /-- What is left to be read. -/
  | source (rest : Text)
  | file (place : Place) (offset : Nat) (readable writable appends : Bool)
  | directory
  | null
deriving DecidableEq, Repr

structure Variable where
  value : Option Text
  exported : Bool
  readOnly : Bool
deriving DecidableEq, Repr

def Variable.unset : Variable := ⟨none, false, false⟩

structure Function where
  line : Nat
  body : Command

/-- All that a subshell starts with a copy of. -/
structure Environment where
  name : Text
  assigned : List (Text × Variable)
  /-- For each function that is running, the variables to put back after it. -/
  locals : List (List (Text × Option Variable))
  positional : List Text
  functions : List (Text × Function)
  options : List Char
  status : Nat
  /-- The status of the commands whose output was taken last. -/
  substituted : Nat
  descriptors : List (Nat × Nat)
  traps : List (Text × Text)
  /-- The command that messages come from. -/
  speaker : Option Text
  line : Nat
  functionLine : Option Nat
  /-- The number of functions that are running. -/
  calls : Nat
  loops : Nat
  mask : Nat
  /-- Which word `getopts` looks at next, and how far it is within the word before that one. -/
  optionPlace : Nat × Nat
  /-- The status of the command that was started last in the background. -/
  background : Option Nat
  workingDir : Place

structure Machine where
  disk : Disk
  channels : Array Channel
  documents : Array Word
  environment : Environment

/-- Why a command does not run to its end. -/
inductive Jump where
  /-- With the status that was asked for, if any was. -/
  | exit (status : Option Nat)
  /-- After a message; the status is set. -/
  | failure
  | killed (signal : Nat)
  | returned
  | broke (loops : Nat)
  | continued (loops : Nat)
  /-- The bound on steps was reached. -/
  | exhausted
deriving DecidableEq, Repr

abbrev ShellM := ExceptT Jump (StateM Machine)

/-- How commands are run within others. -/
structure Runner where
  /-- A tested command may fail without ending the shell. -/
  command : (tested : Bool) → Command → ShellM Unit
  text : (tested : Bool) → Text → ShellM Unit

/-! Bytes -/

/-- A text of characters as a text of bytes. -/
def ofChars (t : Text) : Text := Bytes.latin (toBytes t)

def toOctets (t : Text) : Bytes := t.map fun c => UInt8.ofNat c.toNat

/-- The characters that a text of bytes spells. -/
def toChars (t : Text) : Text := Bytes.toText (toOctets t)

namespace ShellM

def environment : ShellM Environment := do return (← get).environment

def modifyEnvironment (f : Environment → Environment) : ShellM Unit :=
  modify fun m => { m with environment := f m.environment }

def status : ShellM Nat := do return (← environment).status

def setStatus (n : Nat) : ShellM Unit := modifyEnvironment fun e => { e with status := n }

def hasOption (c : Char) : ShellM Bool := do return (← environment).options.contains c

def disk : ShellM Disk := do return (← get).disk

/-- A change of the disk that may be refused. -/
def tryDisk (change : Disk → Except OsError (α × Disk)) : ShellM (Except OsError α) := do
  let m ← get
  match change m.disk with
  | .ok (a, disk) =>
    set { m with disk }
    return .ok a
  | .error e => return .error e

/-! Channels -/

def newChannel (c : Channel) : ShellM Nat := do
  let m ← get
  set { m with channels := m.channels.push c }
  return m.channels.size

def channelOf? (descriptor : Nat) : ShellM (Option Nat) := do
  return (← environment).descriptors.lookup descriptor

def channel (number : Nat) : ShellM Channel := do return ((← get).channels[number]?).getD .null

def setChannel (number : Nat) (c : Channel) : ShellM Unit :=
  modify fun m => { m with channels := m.channels.setIfInBounds number c }

def assignDescriptor (descriptor : Nat) (channel? : Option Nat) : ShellM Unit :=
  modifyEnvironment fun e =>
    let others := e.descriptors.filter (·.1 != descriptor)
    { e with descriptors := (channel?.map fun c => (descriptor, c)).toList ++ others }

/-- The bytes of a file, empty for anything else. -/
def bytesAt (place : Place) : ShellM Text := do
  match (← disk).find? place with
  | some ⟨.file content, _, _⟩ => return Bytes.latin content.toBytes
  | _ => return []

def setBytesAt (place : Place) (t : Text) : ShellM Unit := do
  let _ ← tryDisk (Disk.writeAt place (.ofBytes (toOctets t)))

/-- A text with some of it overwritten from an offset on; a gap is filled with zeros. -/
def overwrite (old : Text) (offset : Nat) (new : Text) : Text :=
  old.take offset ++ List.replicate (offset - old.length) '\x00' ++ new ++ old.drop (offset + new.length)

/-- Writes to a descriptor, if it can be written to. -/
def write (descriptor : Nat) (t : Text) : ShellM Bool := do
  match ← channelOf? descriptor with
  | none => return t.isEmpty
  | some number =>
    match ← channel number with
    | .sink written =>
      setChannel number (.sink (t :: written))
      return true
    | .null => return true
    | .file place offset readable true appends =>
      if !t.isEmpty then
        let old ← bytesAt place
        let start := if appends then old.length else offset
        setBytesAt place (overwrite old start t)
        setChannel number (.file place (start + t.length) readable true appends)
      return true
    | _ => return t.isEmpty

def print (t : Text) : ShellM Unit := do
  let _ ← write 1 t

/-- Takes up to `n` bytes from a descriptor, or all of them. -/
def readBytes (descriptor : Nat) (n? : Option Nat) : ShellM (Except OsError Text) := do
  match ← channelOf? descriptor with
  | none => return .error .badDescriptor
  | some number =>
    match ← channel number with
    | .source rest =>
      let n := n?.getD rest.length
      setChannel number (.source (rest.drop n))
      return .ok (rest.take n)
    | .file place offset true writable appends =>
      let rest := (← bytesAt place).drop offset
      let read := rest.take (n?.getD rest.length)
      setChannel number (.file place (offset + read.length) true writable appends)
      return .ok read
    | .directory => return .error .isDirectory
    | .null => return .ok []
    | _ => return .error .badDescriptor

/-- All that was written to a sink. -/
def collected (number : Nat) : ShellM Text := do
  match ← channel number with
  | .sink written => return written.reverse.flatten
  | _ => return []

/-! Messages -/

/-- Prints a message with the shell's name, the line and the command that it comes from. -/
def warn (message : Text) : ShellM Unit := do
  let e ← environment
  let speaker := match e.speaker with
    | some name => name ++ ": ".toList
    | none => []
  let _ ← write 2 (e.name ++ ": ".toList ++ ofNat e.line ++ ": ".toList ++ speaker ++ message ++ ['\n'])

/-- Gives up a command, or the shell where nothing catches the failure. -/
def fail (message : Text) : ShellM α := do
  warn message
  setStatus 2
  throw .failure

def failWith (parts : List Text) : ShellM α := fail parts.flatten

/-! Variables -/

def parameter (name : Text) : ShellM Variable := do
  return ((← environment).assigned.lookup name).getD .unset

def value? (name : Text) : ShellM (Option Text) := do return (← parameter name).value

def putVariable (name : Text) (v : Option Variable) : ShellM Unit :=
  modifyEnvironment fun e =>
    let others := e.assigned.filter (·.1 != name)
    { e with assigned := (v.map fun v => (name, v)).toList ++ others }

/-- Sets a variable; one that is read-only stays as it is, and the attempt fails. Setting `OPTIND` tells
`getopts` where to go on. -/
def assign (name value : Text) : ShellM Unit := do
  if !isName name then failWith [name, ": bad variable name".toList]
  let v ← parameter name
  if v.readOnly then failWith [name, ": is read only".toList]
  let exported := v.exported || (← hasOption 'a')
  putVariable name (some { v with value := some value, exported })
  if name = "OPTIND".toList then
    modifyEnvironment fun e => { e with optionPlace := (max 1 ((readNat? value).getD 1), 0) }

/-- Keeps a variable to put it back when the function at hand is left. -/
def keepVariable (name : Text) : ShellM Unit :=
  modifyEnvironment fun e =>
    match e.locals with
    | kept :: rest =>
      if kept.any (·.1 == name) then e
      else { e with locals := ((name, e.assigned.lookup name) :: kept) :: rest }
    | [] => e

/-- Runs with the variables that are kept meanwhile put back at the end. -/
def keepingVariables (run : ShellM α) : ShellM α := do
  modifyEnvironment fun e => { e with locals := [] :: e.locals }
  let putBack : ShellM Unit := do
    let e ← environment
    (e.locals.headD []).forM fun (name, v) => putVariable name v
    modifyEnvironment fun e => { e with locals := e.locals.tail }
  let a ← tryCatch run fun jump => do
    putBack
    throw jump
  putBack
  return a

/-- The characters that separate fields. -/
def separators : ShellM Text := do return (← value? "IFS".toList).getD " \t\n".toList

/-! Subshells -/

/-- Runs with an environment of its own, which is dropped at the end. -/
def apart (run : ShellM α) : ShellM α := do
  let outer := (← get).environment
  let putBack : ShellM Unit := modify fun m =>
    { m with
      environment := { outer with status := m.environment.status }
      disk := { m.disk with workingDir := outer.workingDir } }
  let a ← tryCatch run fun jump => do
    putBack
    throw jump
  putBack
  return a

end ShellM

namespace Runner

open ShellM

/-- Runs the action that waits for the end of a shell. The status stays unless the action asks for
another one. -/
def runExitTrap (r : Runner) : ShellM Unit := do
  let e ← environment
  match e.traps.lookup "EXIT".toList with
  | none => return
  | some action =>
    modifyEnvironment fun e => { e with traps := e.traps.filter (·.1 != "EXIT".toList) }
    let final ← tryCatch (do r.text false action; pure e.status) fun jump =>
      match jump with
      | .killed _ | .exhausted => throw jump
      | .exit (some n) => pure n
      | _ => pure e.status
    setStatus final

/-- Runs to the end of a shell, whatever it ends by, and then what waits for the end. -/
def toEnd (r : Runner) (run : ShellM Unit) : ShellM Unit := do
  tryCatch run fun jump =>
    match jump with
    | .killed _ | .exhausted => throw jump
    | .exit (some n) => setStatus n
    | _ => pure ()
  r.runExitTrap

/-- Runs in a subshell, whose status is the result. Actions on signals are not handed down. -/
def subshell (r : Runner) (run : ShellM Unit) : ShellM Nat := apart do
  modifyEnvironment fun e => { e with traps := e.traps.filter (·.2.isEmpty) }
  r.toEnd run
  status

/-- What a run prints, without the line ends at its end. -/
def capture (r : Runner) (run : ShellM Unit) : ShellM Text := do
  let before ← status
  let sink ← newChannel (.sink [])
  let after ← r.subshell do
    assignDescriptor 1 (some sink)
    run
  setStatus before
  modifyEnvironment fun e => { e with substituted := after }
  let printed := (← collected sink).filter (· != '\x00')
  return dropEndWhile (· == '\n') printed

end Runner

end Shell

end CrashTriage
