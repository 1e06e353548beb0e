import CrashTriage.Cli.Reach

/-
The program at the terminal. It reads the part of the file system that an invocation may look at, runs
the invocation on it, and carries its changes over.
-/
namespace CrashTriage.Terminal

/-- The entry for a path as the system sees it. -/
def entryOf (path : Path) : IO.FS.DirEntry := ⟨".", String.ofList path⟩

/-- The node for a file or an empty directory. -/
def readNode? (path : Path) : IO (Option Node) := do
  try
    let file := (entryOf path).path
    let metadata ← file.metadata
    let modified := metadata.modified.sec
    match metadata.type with
    | .dir => return some ⟨.directory, 0o755, modified⟩
    | .file =>
      let bytes ← IO.FS.readBinFile file
      return some ⟨.file (.ofBytes bytes.toList), 0o644, modified⟩
    | _ => return none
  catch _ => return none

/-- Adds what stands at a path; of a directory also what stands directly in it. -/
def addPath (d : Disk) (path : Path) : IO Disk := do
  match ← readNode? path with
  | none => return d
  | some node =>
    let d := d.plant path node
    if !node.isDirectory then return d
    try
      let entries ← (entryOf path).path.readDir
      entries.foldlM (fun d entry => do
        let inner := Path.join path entry.fileName.toList
        match ← readNode? inner with
        | some node => return d.plant inner node
        | none => return d) d
    catch _ => return d

/-- Reads what an invocation may look at, until nothing new is named. -/
def gather (s : Surroundings) (i : Invocation) : (rounds : Nat) → List Path → Disk → IO Disk
  | 0, _, d => return d
  | rounds + 1, known, d => do
    let wanted := ((i.paths s (Host.ofDisk d)).filter fun path => !known.contains path).eraseDups
    if wanted.isEmpty then return d
    let d ← wanted.foldlM addPath d
    gather s i rounds (known ++ wanted) d

def pathOf (place : Place) : Path := place.flatMap fun name => '/' :: name

/-- Writes a file under another name first, so that the old or the new content is there. -/
def writeFile (path : Path) (bytes : Bytes) : IO Unit := do
  let draft := path ++ ".draft".toList
  IO.FS.writeBinFile (String.ofList draft) ⟨bytes.toArray⟩
  IO.FS.rename (String.ofList draft) (String.ofList path)

/-- Carries the changes between two disks over to the file system. -/
def carryOver (before after : Disk) : IO Unit := do
  for (place, node) in after.nodes.reverse do
    let path := pathOf place
    if (before.find? place).map Node.entry != some node.entry then
      match node.entry with
      | .directory => IO.FS.createDir (String.ofList path)
      | .file content => writeFile path content.toBytes
  for (place, node) in before.nodes do
    if (after.find? place).isNone && !node.isDirectory then
      IO.FS.removeFile (String.ofList (pathOf place))

def variableNames : List String := ["CRASHREPORT_CONFIG", "CRASHREPORT_LOG_FORMAT"]

def surroundings (now : Int) : IO Surroundings := do
  let found ← variableNames.mapM fun name => do
    return (← IO.getEnv name).map fun value => (name.toList, value.toList)
  return ⟨found.filterMap id, Date.yearOfSeconds now⟩

/-- The seconds since 1970 at which this program started. -/
def startTime : IO Int := do
  try
    return (← (entryOf "/proc/self".toList).path.metadata).modified.sec
  catch _ => return 0

def run (words : List Text) : IO UInt32 := do
  let now ← startTime
  let home := (← IO.currentDir).toString.toList
  let workingDir := (Text.split '/' home).filter fun name => !name.isEmpty
  let bare : Disk := ⟨[([], ⟨.directory, 0o755, now⟩)], workingDir, false, now⟩
  let s ← surroundings now
  let before ← match Invocation.read words with
    | .ok i => do gather s i 8 [] (← addPath bare ['.'])
    | .error _ => pure bare
  let (outcome, host) := Invocation.runWords s words (Host.ofDisk before)
  IO.print (String.ofList outcome.out)
  IO.eprint (String.ofList outcome.err)
  carryOver before host.disk
  return UInt32.ofNat outcome.code

end CrashTriage.Terminal

def main (args : List String) : IO UInt32 :=
  CrashTriage.Terminal.run (args.map String.toList)
