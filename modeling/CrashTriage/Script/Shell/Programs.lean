import CrashTriage.Script.Shell.Builtins
import CrashTriage.Script.Shell.FileTools
import CrashTriage.Script.Shell.Search

/-
The programs that a command can name: those of the system, found in its directories, and files of the
disk that may be run, which are scripts of a shell unless their first line names another program.
-/
namespace CrashTriage

namespace Shell

open Text ShellM

namespace Program

/-- Directories in which the programs of the system stand. -/
def systemDirectories : List Text := ["/usr/bin", "/bin"].map String.toList

def searchPath : Text :=
  "/usr/local/sbin:/usr/local/bin:/usr/sbin:/usr/bin:/sbin:/bin".toList

/-- Complaints of a program of the system under its own name. -/
def ownWarning (name message : Text) : ShellM Unit :=
  Tool.complain [name, ": ".toList, message]

def tools : List (Text × Tool) :=
  [("basename", Tool.basename), ("cat", .cat), ("chmod", .chmod), ("cp", .cp), ("cut", .cut), ("dirname", .dirname),
    ("echo", fun words => do
      print (Tool.plainEcho words)
      return 0),
    ("false", fun _ => return 1), ("grep", .grep), ("head", .partOf "head" Tool.headOf), ("ls", .ls), ("mkdir", .mkdir),
    ("mv", .mv), ("printf", .printf (ownWarning "printf".toList)),
    ("pwd", fun _ => do
      print ((← Builtin.workingDir) ++ ['\n'])
      return 0),
    ("rev", .rev), ("rm", .rm), ("rmdir", .rmdir), ("seq", .seq), ("sleep", .sleep),
    ("sort", .sort), ("tac", .tac), ("tail", .partOf "tail" Tool.tailOf), ("tee", .tee),
    ("test", .test (ownWarning "test".toList)), ("touch", .touch), ("tr", .tr), ("true", fun _ => return 0),
    ("uniq", .uniq), ("wc", .wc)].map fun (name, tool) => (name.toList, tool)

/-- Names under which the shell itself can be started. -/
def shellNames : List Text := ["sh", "dash"].map String.toList

/-- The environment that a shell starts with. -/
def startEnvironment (name : Text) (inherited : List (Text × Variable)) (descriptors : List (Nat × Nat))
    (workingDir : Place) : Environment :=
  let own := [("PATH", String.ofList searchPath), ("OPTIND", "1"), ("IFS", " \t\n"), ("PS1", "# "), ("PS2", "> "), ("PS4", "+ ")].map
    fun (name, value) => (name.toList, (⟨some value.toList, false, false⟩ : Variable))
  { name, descriptors, workingDir
    assigned := own.filter (fun v => !inherited.any (·.1 == v.1)) ++ inherited
    locals := []
    positional := []
    functions := []
    options := []
    status := 0
    substituted := 0
    traps := []
    speaker := none
    line := 0
    functionLine := none
    calls := 0
    loops := 0
    mask := 0o022
    optionPlace := (1, 0)
    background := none }

/-- Runs in a process of its own, which may be ended by a signal. -/
def inProcess (r : Runner) (run : ShellM Unit) : ShellM Nat := apart do
  tryCatch (r.toEnd run) fun jump =>
    match jump with
    | .killed signal => setStatus (128 + signal)
    | _ => throw jump
  status

/-- Runs a new shell, to which exported variables are handed down. -/
def inShell (r : Runner) (name : Text) (run : ShellM Unit) : ShellM Nat := inProcess r do
  let e ← environment
  let fresh := startEnvironment name (e.assigned.filter (·.2.exported)) e.descriptors e.workingDir
  modifyEnvironment fun _ => { fresh with mask := e.mask, traps := e.traps.filter (·.2.isEmpty) }
  run

/-- Options of a shell at the head of its words, with whether commands are given as a word. -/
def shellOptions : (fuel : Nat) → (given : Bool) → List Text → ShellM (Bool × List Text)
  | 0, given, words => return (given, words)
  | fuel + 1, given, words => do
    match words with
    | ['-'] :: rest | ['-', '-'] :: rest => return (given, rest)
    | ('-' :: letters) :: rest =>
      let rest ← Builtin.setLetters true (letters.filter (· != 'c')) rest
      shellOptions fuel (given || letters.elem 'c') rest
    | ('+' :: letters) :: rest => shellOptions fuel given (← Builtin.setLetters false letters rest)
    | _ => return (given, words)

/-- Runs the commands in a file. -/
def runScript (r : Runner) (file : Text) (positional : List Text) : ShellM Unit := do
  match (← disk).read (toChars file) with
  | .ok bytes =>
    modifyEnvironment fun e => { e with name := file, positional }
    r.text false (Bytes.latin bytes)
  | .error e =>
    warn ("cannot open ".toList ++ file ++ ": ".toList ++ reason "No such file" e)
    setStatus 2
    throw .failure

def runShell (r : Runner) (name : Text) (words : List Text) : ShellM Nat := inShell r name do
  let (given, rest) ← shellOptions (words.length + 1) false words
  match given, rest with
  | true, [] => fail "-c requires an argument".toList
  | true, commands :: rest =>
    modifyEnvironment fun e => { e with name := rest.headD e.name, positional := rest.drop 1 }
    r.text false commands
  | false, words =>
    match (if ← hasOption 's' then none else words.head?) with
    | some file => runScript r file (words.drop 1)
    | none =>
      modifyEnvironment fun e => { e with positional := words }
      match ← readBytes 0 none with
      | .ok t => r.text false t
      | .error _ => return

/-- A program that was found: one of the system, or a file that may be run. -/
inductive Found where
  | system (name : Text)
  | file (path : Text)
deriving DecidableEq, Repr

/-- The program that runs another one with other variables. -/
def environmentName : Text := "env".toList

def isSystem (name : Text) : Bool :=
  (tools.lookup name).isSome || shellNames.contains name || name = environmentName

/-- What stands at a path, if it can be run. -/
def foundAt (d : Disk) (path : Text) : Except OsError Found :=
  let name := Tool.baseOf path
  if systemDirectories.any (fun directory => path == directory ++ '/' :: name) && isSystem name then
    .ok (.system name)
  else
    match d.stat (toChars path) with
    | .error e => .error e
    | .ok node =>
      if !node.isDirectory && Condition.permits d node .search then .ok (.file path) else .error .denied

/-- The places a name is looked up in, with what stands there. -/
def candidates (d : Disk) (path name : Text) : List (Text × Except OsError Found) :=
  if name.elem '/' then [(name, foundAt d name)]
  else (split ':' path).map fun directory =>
    let place := if directory.isEmpty then name else directory ++ '/' :: name
    (place, foundAt d place)

/-- The path of a program and the program, or why there is none, in the directories of a path. An empty
name leads to a directory. -/
def findIn (path name : Text) : ShellM (Except OsError (Text × Found)) := do
  let tried := candidates (← disk) path name
  let found := tried.filterMap fun (place, result) => result.toOption.map fun f => (place, f)
  let isDenied := fun result : Except OsError Found =>
    match result with
    | .error .notFound | .error .notDirectory | .ok _ => false
    | .error _ => true
  match found with
  | f :: _ => return .ok f
  | [] =>
    return .error (if name.isEmpty || tried.any fun t => isDenied t.2 then .denied else .notFound)

def find (name : Text) : ShellM (Except OsError (Text × Found)) := do
  findIn ((← value? "PATH".toList).getD []) name

/-- The program and its first word that the first line of a script names. -/
def interpreter? (bytes : Text) : Option (Text × List Text) :=
  match strip? ['#', '!'] bytes with
  | none => none
  | some t =>
    let line := (t.takeWhile (· != '\n')).dropWhile (fun c => c == ' ' || c == '\t')
    let path := line.takeWhile fun c => c != ' ' && c != '\t'
    let word := trimEnd ((line.drop path.length).dropWhile fun c => c == ' ' || c == '\t')
    some (path, if word.isEmpty then [] else [word])

/-- Makes changes to the exported variables that words of the form `name=value` ask for; the words after
them are left. -/
def exportWords : List Text → ShellM (List Text)
  | [] => return []
  | word :: rest => do
    if word = ['-', 'i'] then
      modifyEnvironment fun e => { e with assigned := e.assigned.filter fun v => !v.2.exported }
      exportWords rest
    else
      match splitOnce? '=' word with
      | some (name, value) =>
        putVariable name (some ⟨some value, true, false⟩)
        exportWords rest
      | none => return word :: rest

def listExported : ShellM Unit := do
  print ((← environment).assigned.flatMap fun (name, v) =>
    if v.exported then Tool.withFeed (name ++ '=' :: v.value.getD []) else [])

/-- Runs a program that was found; `fuel` bounds how often a program only runs another one. -/
def start (r : Runner) : (fuel : Nat) → (called : Text) → Found → List Text →
    ShellM (Except OsError Nat)
  | 0, _, _, _ => return .error .denied
  | fuel + 1, called, .system name, words => do
    match tools.lookup name with
    | some tool => return .ok (← tool words)
    | none =>
      if name != environmentName then return .ok (← runShell r called words)
      apart do
        match ← exportWords words with
        | [] =>
          listExported
          return .ok 0
        | program :: words =>
          let path := (← value? "PATH".toList).getD (joinWith [':'] systemDirectories)
          let result ← match ← findIn path program with
            | .ok (_, found) => start r fuel program found words
            | .error e => pure (.error e)
          match result with
          | .ok status => return .ok status
          | .error e =>
            Tool.complain ["env: '".toList, program, "': ".toList, plainReason e]
            return .ok (if e = .notFound then 127 else 126)
  | fuel + 1, _, .file path, words => do
    match (← disk).read (toChars path) with
    | .error _ => return .error .denied
    | .ok bytes =>
      match interpreter? (Bytes.latin bytes) with
      | none => return .ok (← inShell r path (runScript r path words))
      | some (program, first) =>
        match foundAt (← disk) program with
        | .ok (.file _) => return .error .denied
        | .ok found => start r fuel program found (first ++ path :: words)
        | .error e => return .error e

/-- Runs the program of a name; a name that leads to none is complained about. -/
def run (r : Runner) (name : Text) (words : List Text) : ShellM Nat := do
  let result ← match ← find name with
    | .ok (_, found) => start r (words.length + 2) name found words
    | .error e => pure (.error e)
  match result with
  | .ok status => return status
  | .error e =>
    warn (name ++ ": ".toList ++ reason "not found" e)
    return if e = .notFound || e = .notDirectory || !name.elem '/' then 127 else 126

end Program

end Shell

end CrashTriage
