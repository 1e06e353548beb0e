import CrashTriage.Script.Shell.Programs
import CrashTriage.Script.Shell.Reader

/-
How commands run. The words of a command are expanded before its redirections take effect, and these
before its assignments. Assignments before a command last as long as it does, but those before a special
command stay; a special command that fails ends the shell, any other has status 2.
-/
namespace CrashTriage

namespace Shell

open Text ShellM

/-- Ends the shell after a command that failed untested, when it is set to. -/
def checkFailure (tested : Bool) : ShellM Unit := do
  if !tested && (← hasOption 'e') && (← status) != 0 then throw (.exit none)

/-- Runs as a command of the shell, which has a status of 2 when it fails, or ends the shell if it is
special. -/
def asBuiltin (special : Bool) (name : Text) (run : ShellM Nat) : ShellM Unit := do
  let speaker := (← environment).speaker
  let as := fun (speaker : Option Text) => modifyEnvironment fun e => { e with speaker }
  as (some name)
  tryCatch (do setStatus (← run)) fun jump => do
    if special || jump != .failure then
      as speaker
      throw jump
  as speaker

/-! Functions -/

/-- How many functions may run within each other. -/
def callLimit : Nat := 1000

def callFunction (r : Runner) (tested : Bool) (f : Function) (words : List Text) : ShellM Unit := do
  let outer ← environment
  if outer.calls ≥ callLimit then fail "Maximum function recursion depth (1000) reached".toList
  modifyEnvironment fun e =>
    { e with
      positional := words
      optionPlace := (1, 0)
      functionLine := some f.line
      loops := 0
      calls := e.calls + 1 }
  let putBack : ShellM Unit := modifyEnvironment fun e =>
    { e with
      positional := outer.positional
      optionPlace := outer.optionPlace
      functionLine := outer.functionLine
      loops := outer.loops
      calls := outer.calls }
  tryCatch (r.command tested f.body) fun jump => do
    if jump != .returned then
      putBack
      throw jump
  putBack

/-! Commands that run others -/

/-- The words of one text are run as commands. -/
def evaluateWords (r : Runner) (tested : Bool) (words : List Text) : ShellM Nat := do
  r.text tested (joinWith [' '] words)
  status

/-- Runs the commands in a file in the shell itself. -/
def sourceFile (r : Runner) (words : List Text) : ShellM Nat := do
  match words with
  | [] => return 0
  | name :: _ =>
    let path := (← value? "PATH".toList).getD []
    let places := if name.elem '/' then [name]
      else (split ':' path).map fun directory =>
        if directory.isEmpty then name else directory ++ '/' :: name
    let d ← disk
    if Condition.isNullDevice name then
      setStatus 0
      return 0
    match places.find? fun place => d.isFile (toChars place) with
    | none =>
      if name.elem '/' then failWith ["cannot open ".toList, name, ": No such file".toList]
      else failWith [name, ": not found".toList]
    | some place =>
      match d.read (toChars place) with
      | .error e => failWith ["cannot open ".toList, place, ": ".toList, plainReason e]
      | .ok bytes =>
        tryCatch (r.text false (Bytes.latin bytes)) fun jump =>
          if jump = .returned then pure () else throw jump
        status

/-- Puts a program in place of the shell, or without words only keeps redirections. -/
def replaceShell (r : Runner) (words : List Text) : ShellM Nat := do
  match words with
  | [] => return 0
  | name :: rest =>
    let status ← Program.run r name rest
    modifyEnvironment fun e => { e with traps := e.traps.filter (·.1 != "EXIT".toList) }
    throw (.exit (some status))

abbrev Builtins := List (Text × (List Text → ShellM Nat))

/-- Commands of the shell that run no others. -/
def plainBuiltins (r : Runner) : Builtins :=
  let nothing := fun (_ : List Text) => (return 0 : ShellM Nat)
  let exported := fun v : Variable => { v with exported := true }
  let readOnly := fun v : Variable => { v with readOnly := true }
  [(":", nothing), ("alias", nothing), ("unalias", nothing), ("ulimit", nothing), ("true", nothing), ("false", fun _ => return 1),
    ("break", Builtin.leaveLoops .broke), ("continue", Builtin.leaveLoops .continued),
    ("cd", Builtin.changeDirectory), ("chdir", Builtin.changeDirectory),
    ("echo", fun words => do
      if ← write 1 (echo words) then return 0
      warn "echo: I/O error".toList
      return 1),
    ("exit", Builtin.exit), ("export", Builtin.declareAll "export" exported (·.exported)),
    ("getopts", Builtin.nextOption), ("bg", Builtin.resume), ("fg", Builtin.resume), ("jobs", nothing), ("kill", Builtin.kill r),
    ("local", Builtin.declareLocal),
    ("printf", fun words => do Tool.printf warn (← Builtin.arguments "" "" words).operands),
    ("pwd", Builtin.printDirectory), ("read", Builtin.readVariables),
    ("readonly", Builtin.declareAll "readonly" readOnly (·.readOnly)),
    ("return", Builtin.leaveFunction), ("set", Builtin.setWords), ("shift", Builtin.shift),
    ("test", Tool.test warn),
    ("[", fun words => do
      if (words.getLast?.bind List.head?) = some ']' then Tool.test warn words.dropLast
      else
        warn "missing ]".toList
        return 2),
    ("times", Builtin.times), ("trap", Builtin.setTraps), ("umask", Builtin.setMask),
    ("unset", Builtin.unset), ("wait", Builtin.wait)].map fun (name, run) => (name.toList, run)

/-- Names of the commands that run others. -/
def runningNames : List Text := [".", "command", "eval", "exec", "hash", "type"].map String.toList

/-- What a name means to the shell, in a few words or as `command -v` tells it. -/
def describe (brief : Bool) (name : Text) : ShellM (Option Text) := do
  let e ← environment
  let called := fun what : String => some (if brief then name else name ++ what.toList)
  if keywords.contains name then return called " is a shell keyword"
  else if (e.functions.lookup name).isSome then return called " is a shell function"
  else
    let r : Runner := ⟨fun _ _ => return, fun _ _ => return⟩
    if specialNames.contains name then return called " is a special shell builtin"
    else if runningNames.contains name || ((plainBuiltins r).lookup name).isSome then
      return called " is a shell builtin"
    else
      match ← Program.find name with
      | .ok (path, _) => return some (if brief then path else name ++ " is ".toList ++ path)
      | .error _ => return none

/-- Describes names; the status is 127 when one means nothing. -/
def describeAll (brief : Bool) : List Text → ShellM Nat
  | [] => return 0
  | name :: rest => do
    let known ← describe brief name
    match known with
    | some t => print (t ++ ['\n'])
    | none => if !brief then print (name ++ ": not found\n".toList)
    let later ← describeAll brief rest
    return if known.isNone then 127 else later

/-- Looks for the commands of names; the status is 1 when one leads nowhere. -/
def locateAll (words : List Text) : ShellM Nat := do
  let a ← Builtin.arguments "rv" "" words
  let missing ← a.operands.filterM fun name => do
    let isMissing := (← describe true name).isNone
    if isMissing then warn (name ++ ": not found".toList)
    return isMissing
  return if missing.isEmpty then 0 else 1

/-- A command that is no function. -/
def builtin? (r : Runner) (tested : Bool) (name : Text) : Option (List Text → ShellM Nat) :=
  match String.ofList name with
  | "." => some (sourceFile r)
  | "eval" => some (evaluateWords r tested)
  | "exec" => some (replaceShell r)
  | "hash" => some locateAll
  | "type" => some (describeAll false)
  | _ => (plainBuiltins r).lookup name

/-- Runs a command that is no function; failures do not end the shell. -/
def runUnnamed (r : Runner) (tested : Bool) (words : List Text) : ShellM Nat := do
  let a ← Builtin.arguments "pvV" "" words
  match a.operands with
  | [] => return 0
  | name :: rest =>
    if a.has 'v' then describeAll true [name]
    else if a.has 'V' then describeAll false [name]
    else
      match builtin? r tested name with
      | some run => do
        asBuiltin false name (run rest)
        status
      | none =>
        modifyEnvironment fun e => { e with speaker := none }
        Program.run r name rest

/-- Commands whose assignments among their words are not split. -/
def declaringNames : List Text := ["export", "readonly", "local"].map String.toList

def isSpecialName (name : Text) : Bool := specialNames.contains name

/-- Runs a command by its name. -/
def invoke (r : Runner) (tested : Bool) (name : Text) (words : List Text) : ShellM Unit := do
  match (← environment).functions.lookup name with
  | some f => callFunction r tested f words
  | none =>
    if name = "command".toList then asBuiltin false name (runUnnamed r tested words)
    else
      match builtin? r tested name with
      | some run => asBuiltin (isSpecialName name) name (run words)
      | none => setStatus (← Program.run r name words)

/-! Simple commands -/

/-- Expands words until there is a first field; also the words after those. -/
def expandFirst (r : Runner) : List Word → ShellM (List Text × List Word)
  | [] => return ([], [])
  | w :: rest => do
    match ← expandFields r w with
    | [] => expandFirst r rest
    | fields => return (fields, rest)

def expandRest (r : Runner) (declares : Bool) : List Word → ShellM (List Text)
  | [] => return []
  | w :: rest => do
    let fields ← match if declares then assignment? w else none with
      | some (name, value) => do pure [name ++ '=' :: (← expandAssigned r value)]
      | none => expandFields r w
    return fields ++ (← expandRest r declares rest)

/-- Assigns, for the command at hand alone or for good; tells what was assigned. -/
def assignAll (r : Runner) (lasting exported : Bool) : List (Text × Word) → ShellM (List Text)
  | [] => return []
  | (name, word) :: rest => do
    let value ← expandAssigned r word
    if !lasting then keepVariable name
    assign name value
    if exported then
      putVariable name (some { (← parameter name) with exported := true })
    return (name ++ '=' :: value) :: (← assignAll r lasting exported rest)

/-- Shows a command before it is run, on the error output that the shell has. -/
def trace (descriptors : List (Nat × Nat)) (words : List Text) : ShellM Unit := do
  if ← hasOption 'x' then
    let mark := (← value? "PS4".toList).getD []
    keepingDescriptors do
      modifyEnvironment fun e => { e with descriptors }
      let _ ← write 2 (mark ++ joinWith [' '] words ++ ['\n'])

def runSimple (r : Runner) (tested : Bool) (line : Nat) (assignments : List (Text × Word))
    (words : List Word) (redirections : List Redirection) : ShellM Unit := do
  modifyEnvironment fun e =>
    { e with
      line := match e.functionLine with
        | some first => line + 1 - first
        | none => line
      substituted := 0 }
  let (fields, later) ← expandFirst r words
  let name := fields.headD []
  let fields := fields ++ (← expandRest r (declaringNames.contains name) later)
  let isFunction := ((← environment).functions.lookup name).isSome
  let special := fields.isEmpty || (isSpecialName name && !isFunction)
  let redirected ← redirections.mapM (expandRedirection r)
  let descriptors := (← environment).descriptors
  let run : ShellM Unit := do
    if !(← tryRedirect redirected) then
      setStatus 2
      if special && !fields.isEmpty then throw .failure
    else
      let assigned ← assignAll r special (!special || name = "exec".toList) assignments
      trace descriptors (assigned ++ fields)
      match fields with
      | [] => setStatus (← environment).substituted
      | name :: words => invoke r tested name words
  let kept := if special then run else keepingVariables run
  if name = "exec".toList && !isFunction then kept else keepingDescriptors kept
  checkFailure tested

/-! Pipelines and subshells -/

/-- Runs commands in subshells, each on what the one before it printed. None of them sees the status of
another. -/
def runPipeline (r : Runner) (tested : Bool) (input : Option Nat) : List Command → ShellM Unit
  | [] => return
  | c :: rest => do
    let before ← status
    let sink ← newChannel (.sink [])
    let after ← r.subshell do
      if let some channel := input then assignDescriptor 0 (some channel)
      if !rest.isEmpty then assignDescriptor 1 (some sink)
      r.command tested c
    setStatus (if rest.isEmpty then after else before)
    if !rest.isEmpty then
      let piped ← newChannel (.source (← collected sink))
      runPipeline r tested (some piped) rest

/-- Runs to the end what a shell does not wait for. -/
def runBackground (r : Runner) (c : Command) : ShellM Unit := do
  let result ← r.subshell do
    assignDescriptor 0 (some (← newChannel .null))
    r.command false c
  modifyEnvironment fun e => { e with background := some result }
  setStatus 0

def runSubshell (r : Runner) (tested : Bool) (body : Command) (redirections : List Redirection) :
    ShellM Unit := do
  let redirected ← redirections.mapM (expandRedirection r)
  setStatus (← r.subshell do
    redirected.forM redirect
    r.command tested body)
  checkFailure tested

def runRedirected (r : Runner) (tested : Bool) (body : Command) (redirections : List Redirection) :
    ShellM Unit := do
  let redirected ← redirections.mapM (expandRedirection r)
  keepingDescriptors do
    if ← tryRedirect redirected then r.command tested body else setStatus 2

/-! Loops and choices -/

/-- Runs one round of a loop; does the loop go on? -/
def runRound (round : ShellM Unit) : ShellM Bool :=
  tryCatch (do round; return true) fun jump =>
    match jump with
    | .broke n => if n ≤ 1 then return false else throw (.broke (n - 1))
    | .continued n => if n ≤ 1 then return true else throw (.continued (n - 1))
    | _ => throw jump

/-- Runs what contains loops one deeper than what is around it. -/
def withinLoop (run : (enter : ShellM Unit) → ShellM Unit) : ShellM Unit := do
  let depth := (← environment).loops
  let count := fun n => modifyEnvironment fun e => { e with loops := n }
  run (count (depth + 1))
  count depth

/-- The number of rounds that a loop may take. -/
def roundLimit : Nat := 100000

/-- Runs the rounds of a loop; `last` is the status of the round before. -/
def runRounds (r : Runner) (tested untilTrue : Bool) (test body : Command) (enter : ShellM Unit) :
    (rounds : Nat) → (last : Nat) → ShellM Unit
  | 0, _ => throw .exhausted
  | rounds + 1, last => do
    enter
    let reached ← newChannel (.sink [])
    let goesOn ← runRound do
      r.command true test
      if ((← status) = 0) = !untilTrue then
        setChannel reached (.sink [['x']])
        r.command tested body
    let ran := !(← collected reached).isEmpty
    if !goesOn then return
    else if ran then runRounds r tested untilTrue test body enter rounds (← status)
    else setStatus last

def runEach (r : Runner) (tested : Bool) (name : Text) (body : Command) (enter : ShellM Unit) :
    List Text → ShellM Unit
  | [] => return
  | word :: rest => do
    enter
    assign name word
    if ← runRound (r.command tested body) then runEach r tested name body enter rest

/-- Runs the body of the first case of which a pattern fits. -/
def runCases (r : Runner) (tested : Bool) (t : Text) : List (List Word × Command) → ShellM Unit
  | [] => setStatus 0
  | (patterns, body) :: rest => do
    let fitting ← patterns.anyM fun word => do return (← expandPattern r word).isMatch t
    if !fitting then runCases r tested t rest
    else
      match body with
      | .sequence [] => setStatus 0
      | _ => r.command tested body

namespace Command

/-- Runs a command, by means of what runs the commands in it. -/
def carryOut (r : Runner) (tested : Bool) : Command → ShellM Unit
  | .simple line assignments words redirections =>
    runSimple r tested line assignments words redirections
  | .negation c => do
    r.command true c
    setStatus (if (← status) = 0 then 1 else 0)
  | .both a b => do
    r.command true a
    if (← status) = 0 then r.command tested b
  | .either a b => do
    r.command true a
    if (← status) != 0 then r.command tested b
  | .sequence cs => cs.forM (r.command tested)
  | .pipeline cs => do
    runPipeline r tested none cs
    checkFailure tested
  | .background c => runBackground r c
  | .subshell line body redirections => do
    modifyEnvironment fun e => { e with line }
    runSubshell r tested body redirections
  | .redirected line body redirections => do
    modifyEnvironment fun e => { e with line }
    runRedirected r tested body redirections
  | .condition test body otherwise => do
    r.command true test
    if (← status) = 0 then r.command tested body
    else
      match otherwise with
      | some c => r.command tested c
      | none => setStatus 0
  | .loop untilTrue test body =>
    withinLoop fun enter => runRounds r tested untilTrue test body enter roundLimit 0
  | .each line name words body => do
    modifyEnvironment fun e => { e with line }
    let items ← match words with
      | some words => expandRest r false words
      | none => pure (← environment).positional
    setStatus 0
    withinLoop fun enter => runEach r tested name body enter items
  | .choice line word cases => do
    modifyEnvironment fun e => { e with line }
    runCases r tested (← expandText r word) cases
  | .define line name body => do
    modifyEnvironment fun e =>
      { e with functions := (name, ⟨line, body⟩) :: e.functions.filter (·.1 != name) }
    setStatus 0

/-- Runs a command unless commands are only read. -/
def step (r : Runner) (tested : Bool) (c : Command) : ShellM Unit := do
  if !(← hasOption 'n') then c.carryOut r tested

end Command

/-- Runs the lines of a text one after the other; each is read only when those before it have run. -/
def runLines (r : Runner) (tested : Bool) : (fuel : Nat) → (ran : Bool) → Source → ShellM Unit
  | 0, _, _ => return
  | fuel + 1, ran, s => do
    let (result, s) := { s with documents := (← get).documents }.next
    modify fun m => { m with documents := s.documents }
    match result with
    | .error problem =>
      modifyEnvironment fun e => { e with line := s.line }
      failWith ["Syntax error: ".toList, problem.message]
    | .ok none => if !ran then setStatus 0
    | .ok (some cs) =>
      cs.forM (r.command tested)
      runLines r tested fuel (ran || !cs.isEmpty) s

def runText (r : Runner) (tested : Bool) (t : Text) : ShellM Unit :=
  runLines r tested (t.length + 1) false (.ofText t #[])

/-- What runs commands nested at most so deep. -/
def runner : (depth : Nat) → Runner
  | 0 => ⟨fun _ _ => throw .exhausted, fun _ _ => throw .exhausted⟩
  | depth + 1 => ⟨fun tested c => c.step (runner depth) tested, fun tested t => runText (runner depth) tested t⟩

end Shell

end CrashTriage
