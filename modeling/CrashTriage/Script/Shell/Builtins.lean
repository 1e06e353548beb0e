import CrashTriage.Script.Shell.Tools

/-
The commands that a shell carries out itself, as far as they look at nothing but its own state: its
variables, positional parameters, options, working directory, loops and signals. Each yields a status.
-/
namespace CrashTriage

namespace Shell

open Text ShellM

namespace Builtin

/-- Reads the options at the head of some words. -/
def options (flags valued : String) : (fuel : Nat) → List Text → ShellM Tool.Arguments
  | 0, words => return ⟨[], words⟩
  | fuel + 1, words =>
    match words with
    | ['-', '-'] :: rest => return ⟨[], rest⟩
    | ('-' :: c :: t) :: rest =>
      match Tool.readLetters flags.toList valued.toList [] rest (c :: t) with
      | .ok (found, rest) => do
        let later ← options flags valued fuel rest
        return { later with options := found ++ later.options }
      | .error c =>
        if valued.toList.contains c then failWith ["No arg for -".toList, [c], " option".toList]
        else failWith ["Illegal option -".toList, [c]]
    | _ => return ⟨[], words⟩

def arguments (flags valued : String) (words : List Text) : ShellM Tool.Arguments :=
  options flags valued (words.length + 1) words

/-- A decimal number that is not negative and fits a signed word of 32 bits. -/
def number (t : Text) : ShellM Nat := do
  match wholeNumeral? (some 10) t with
  | some n =>
    if 0 ≤ n && n < Nat.pow 2 31 then return n.toNat else failWith ["Illegal number: ".toList, t]
  | none => failWith ["Illegal number: ".toList, t]

/-! Loops and the end of a run -/

/-- Leaves or goes on with the loop that is the given number of loops out, or with the outermost one. -/
def leaveLoops (jump : Nat → Jump) (words : List Text) : ShellM Nat := do
  let n ← match words with
    | [] => pure 1
    | t :: _ => number t
  if n = 0 then failWith ["Illegal number: ".toList, words.headD []]
  let loops := min n (← environment).loops
  setStatus 0
  if loops > 0 then throw (jump loops)
  return 0

def exit (words : List Text) : ShellM Nat := do
  match words with
  | [] => throw (.exit none)
  | t :: _ => throw (.exit (some ((← number t) % 256)))

def leaveFunction (words : List Text) : ShellM Nat := do
  if let t :: _ := words then setStatus (← number t)
  throw .returned

/-! Variables -/

/-- Gives a variable, with a value if the word has one, a mark. -/
def declare (mark : Variable → Variable) (word : Text) : ShellM Unit := do
  let (name, value?) := match splitOnce? '=' word with
    | some (name, value) => (name, some value)
    | none => (word, none)
  if !isName name then failWith [name, ": bad variable name".toList]
  if let some value := value? then assign name value
  putVariable name (some (mark (← parameter name)))

/-- A text between single quotes, a quote in it standing between double quotes. -/
def singleQuoted (t : Text) : Text :=
  '\'' :: t.flatMap (fun c => if c = '\'' then "'\"'\"'".toList else [c]) ++ ['\'']

/-- Lists variables by their names. -/
def listVariables (start : Text) (shown : Variable → Bool) : ShellM Unit := do
  let listed := (← environment).assigned.filter fun v => shown v.2
  let sorted := listed.mergeSort fun a b => Text.compare a.1 b.1 != .gt
  print (sorted.flatMap fun (name, v) =>
    let value := match v.value with
      | some t => '=' :: singleQuoted t
      | none => []
    start ++ name ++ value ++ ['\n'])

def declareAll (name : String) (mark : Variable → Variable) (shown : Variable → Bool)
    (words : List Text) : ShellM Nat := do
  let a ← arguments "p" "" words
  if a.has 'p' || a.operands.isEmpty then listVariables (name.toList ++ [' ']) shown
  else a.operands.forM (declare mark)
  return 0

/-- Makes variables local to the function that is running. -/
def declareLocal (words : List Text) : ShellM Nat := do
  if (← environment).locals.isEmpty then fail "not in a function".toList
  words.forM fun word => do
    keepVariable (word.takeWhile (· != '='))
    declare id word
  return 0

def unset (words : List Text) : ShellM Nat := do
  let a ← arguments "vf" "" words
  a.operands.forM fun name => do
    if a.has 'f' then
      modifyEnvironment fun e => { e with functions := e.functions.filter (·.1 != name) }
    else
      if !isName name then failWith [name, ": bad variable name".toList]
      if (← parameter name).readOnly then failWith [name, ": is read only".toList]
      putVariable name none
  return 0

/-! Positional parameters and options -/

def optionNames : List (String × Char) :=
  [("errexit", 'e'), ("noglob", 'f'), ("ignoreeof", 'I'), ("interactive", 'i'), ("monitor", 'm'),
    ("noexec", 'n'), ("stdin", 's'), ("xtrace", 'x'), ("verbose", 'v'), ("vi", 'V'), ("emacs", 'E'),
    ("noclobber", 'C'), ("allexport", 'a'), ("notify", 'b'), ("nounset", 'u')]

def setOption (on : Bool) (c : Char) : ShellM Unit := do
  if !(optionNames.any fun entry => entry.2 == c) then
    failWith ["Illegal option ".toList, [if on then '-' else '+', c]]
  modifyEnvironment fun e =>
    let others := e.options.filter (· != c)
    { e with options := if on then c :: others else others }

def setNamedOption (on : Bool) (name : Text) : ShellM Unit := do
  match optionNames.find? fun entry => entry.1.toList == name with
  | some (_, c) => setOption on c
  | none => failWith ["Illegal option ".toList, [if on then '-' else '+'], "o ".toList, name]

def setPositional (words : List Text) : ShellM Unit :=
  modifyEnvironment fun e => { e with positional := words, optionPlace := (1, 0) }

/-- Sets the options that letters stand for, one of which may take its name from the words. -/
def setLetters (on : Bool) : Text → List Text → ShellM (List Text)
  | [], rest => return rest
  | 'o' :: letters, rest => do
    if let name :: _ := rest then setNamedOption on name
    setLetters on letters (rest.drop 1)
  | c :: letters, rest => do
    setOption on c
    setLetters on letters rest

/-- Options up to the first word that is none, then positional parameters, which stay if there are no
words for them. -/
def setAll : (fuel : Nat) → List Text → ShellM Unit
  | 0, _ => return
  | fuel + 1, words => do
    match words with
    | [] => return
    | ['-', '-'] :: rest => setPositional rest
    | ['-'] :: rest =>
      setOption false 'x'
      setOption false 'v'
      if !rest.isEmpty then setPositional rest
    | ('-' :: letters) :: rest => setAll fuel (← setLetters true letters rest)
    | ('+' :: letters) :: rest => setAll fuel (← setLetters false letters rest)
    | _ => setPositional words

def setWords (words : List Text) : ShellM Nat := do
  if words.isEmpty then listVariables [] (·.value.isSome) else setAll (words.length + 1) words
  return 0

def shift (words : List Text) : ShellM Nat := do
  let n ← match words with
    | [] => pure 1
    | t :: _ => number t
  let positional := (← environment).positional
  if n > positional.length then fail "can't shift that many".toList
  setPositional (positional.drop n)
  return 0

/-- What follows an option among the letters of those that are known. -/
def knownOption? (c : Char) : Text → Option Text
  | [] => none
  | d :: ':' :: rest => if d = c then some (':' :: rest) else knownOption? c rest
  | d :: rest => if d = c then some rest else knownOption? c rest

/-- The letters that are left of the word that `getopts` is within, or else those of the next word, with
the place of the word after it; none when that is no option. -/
def optionLetters? (words : List Text) (index offset : Nat) : Option Text × Nat :=
  match if offset = 0 || index < 2 then [] else ((words[index - 2]?).getD []).drop offset with
  | c :: rest => (some (c :: rest), index)
  | [] =>
    match words[index - 1]? with
    | some ['-', '-'] => (none, index + 1)
    | some ('-' :: c :: rest) => (some (c :: rest), index + 1)
    | _ => (none, index)

/-- Keeps the place of the next option, whose letters that are left start at an offset. -/
def keepOptionPlace (index offset : Nat) : ShellM Unit := do
  assign "OPTIND".toList (ofNat index)
  modifyEnvironment fun e => { e with optionPlace := (index, offset) }

/-- Finds the next option among words; the status is 1 when there is none. -/
def nextOption (words : List Text) : ShellM Nat := do
  match words with
  | letters :: name :: given =>
    let e ← environment
    let words := if given.isEmpty then e.positional else given
    let silent := letters.head? = some ':'
    let value := assign "OPTARG".toList
    let complain := fun (what : List Text) => do
      let _ ← write 2 (what.flatten ++ ['\n'])
      putVariable "OPTARG".toList none
    match optionLetters? words e.optionPlace.1 e.optionPlace.2 with
    | (none, index) | (some [], index) =>
      keepOptionPlace index 0
      assign name ['?']
      return 1
    | (some (c :: rest), index) =>
      let offset := if rest.isEmpty then 0 else ((words[index - 2]?).getD []).length - rest.length
      match knownOption? c letters with
      | none =>
        if silent then value [c] else complain ["Illegal option -".toList, [c]]
        keepOptionPlace index offset
        assign name ['?']
      | some (':' :: _) =>
        match rest, words[index - 1]? with
        | [], none =>
          if silent then value [c] else complain ["No arg for -".toList, [c], " option".toList]
          keepOptionPlace index 0
          assign name (if silent then [':'] else ['?'])
        | [], some next =>
          value next
          keepOptionPlace (index + 1) 0
          assign name [c]
        | _, _ =>
          value rest
          keepOptionPlace index 0
          assign name [c]
      | some _ =>
        value []
        keepOptionPlace index offset
        assign name [c]
      return 0
  | _ => fail "Usage: getopts optstring var [arg]".toList

/-! Reading -/

/-- Reads a line byte by byte. A backslash keeps the next byte from separating fields and joins lines;
tells whether the line was ended. -/
def readLine (raw : Bool) : (fuel : Nat) → (escaped : Bool) → ShellM (List PatternChar × Bool)
  | 0, _ => return ([], false)
  | fuel + 1, escaped => do
    match ← readBytes 0 (some 1) with
    | .ok [c] =>
      if c = '\x00' then readLine raw fuel escaped
      else if escaped then
        let (line, ended) ← readLine raw fuel false
        return (if c = '\n' then line else ⟨c, true⟩ :: line, ended)
      else if c = '\\' && !raw then readLine raw fuel true
      else if c = '\n' then return ([], true)
      else
        let (line, ended) ← readLine raw fuel false
        return (⟨c, false⟩ :: line, ended)
    | _ => return ([], false)

def isSeparator (separators : Text) (c : PatternChar) : Bool := !c.literal && separators.elem c.char

def isBlankSeparator (separators : Text) (c : PatternChar) : Bool :=
  isSeparator separators c && " \t\n".toList.contains c.char

/-- The first field of a line and what follows its separators. -/
def takeField (separators : Text) (line : List PatternChar) : Text × List PatternChar :=
  let line := line.dropWhile (isBlankSeparator separators)
  let field := line.takeWhile fun c => !isSeparator separators c
  let rest := (line.drop field.length).dropWhile (isBlankSeparator separators)
  let rest := match rest with
    | c :: t => if isSeparator separators c then t.dropWhile (isBlankSeparator separators) else rest
    | [] => []
  (Pattern.text field, rest)

/-- One field for each name, the last one taking all that is left, but for the separator at the end of
a single field. -/
def assignFields (separators : Text) : List Text → List PatternChar → ShellM Unit
  | [], _ => return
  | [name], line => do
    let (field, rest) := takeField separators line
    if rest.isEmpty then assign name field
    else
      let line := line.dropWhile (isBlankSeparator separators)
      let kept := (line.reverse.dropWhile (isBlankSeparator separators)).reverse
      assign name (Pattern.text kept)
  | name :: names, line => do
    let (field, rest) := takeField separators line
    assign name field
    assignFields separators names rest

/-- The number of bytes that a run of `read` may take. -/
def readLimit : Nat := 1000000

def readVariables (words : List Text) : ShellM Nat := do
  let a ← arguments "r" "p" words
  if a.operands.isEmpty then fail "arg count".toList
  let (line, ended) ← readLine (a.has 'r') readLimit false
  assignFields (← separators) a.operands line
  return if ended then 0 else 1

/-! Directories -/

/-- The path of a place. -/
def pathOf (place : Place) : Text :=
  if place.isEmpty then ['/'] else ofChars (place.flatMap fun name => '/' :: name)

def workingDir : ShellM Text := do return pathOf (← disk).workingDir

def changeDirectory (words : List Text) : ShellM Nat := do
  let a ← arguments "LP" "" words
  let (target, shown) ← match a.operands with
    | [] => pure ((← value? "HOME".toList).getD [], false)
    | ['-'] :: _ => pure ((← value? "OLDPWD".toList).getD [], true)
    | t :: _ => pure (t, false)
  let d ← disk
  let path := toChars (if target.isEmpty then ['.'] else target)
  match d.enterForChange path with
  | .error _ => failWith ["can't cd to ".toList, target]
  | .ok place =>
    let before ← workingDir
    modify fun m => { m with disk := { m.disk with workingDir := place } }
    putVariable "OLDPWD".toList (some { (← parameter "OLDPWD".toList) with value := some before })
    putVariable "PWD".toList (some { (← parameter "PWD".toList) with value := some (pathOf place) })
    if shown then print (pathOf place ++ ['\n'])
    return 0

def printDirectory (words : List Text) : ShellM Nat := do
  let _ ← arguments "LP" "" words
  print ((← workingDir) ++ ['\n'])
  return 0

/-- What a mask leaves to one kind of user. -/
def leftBits (bits : Nat) : Text :=
  ['r', 'w', 'x'].filter fun c =>
    match c with
    | 'r' => bits / 4 % 2 == 0
    | 'w' => bits / 2 % 2 == 0
    | _ => bits % 2 == 0

def setMask (words : List Text) : ShellM Nat := do
  let a ← arguments "S" "" words
  match a.operands with
  | [] =>
    let mask := (← environment).mask
    if a.has 'S' then
      print ("u=".toList ++ leftBits (mask / 64) ++ ",g=".toList ++ leftBits (mask / 8) ++
        ",o=".toList ++ leftBits mask ++ ['\n'])
    else
      let digits := Nat.toDigits 8 mask
      print (List.replicate (4 - digits.length) '0' ++ digits ++ ['\n'])
  | t :: _ =>
    if t.isEmpty || !t.all isOctal then failWith ["Illegal mode: ".toList, t]
    let n := t.foldl (fun n c => n * 8 + (c.toNat - 48)) 0
    modifyEnvironment fun e => { e with mask := n % 512 }
  return 0

/-! Signals -/

/-- Signals by their names without `SIG`; what happens at the end of a shell is the first of them. -/
def signals : List (Nat × Text) :=
  (0, "EXIT".toList) :: ExitStatus.signalNames.map fun (n, name) => (n, name.toList.drop 3)

/-- The signal that a number stands for, or the name of one whose number is not below `least`. -/
def signal? (least : Nat) (t : Text) : Option (Nat × Text) :=
  let n? := if t.all isDigit then readNat? t else none
  signals.find? fun (n, name) => some n = n? || (n ≥ least && name = t.map Char.toUpper)

def setTraps (words : List Text) : ShellM Nat := do
  let a ← arguments "" "" words
  let e ← environment
  let isNumber := fun t : Text => !t.isEmpty && t.all isDigit
  let (action, names) := match a.operands with
    | [] => (none, [])
    | [name] => (none, [name])
    | first :: rest =>
      if isNumber first then (none, first :: rest)
      else (if first = ['-'] then none else some first, rest)
  if a.operands.isEmpty then
    print (signals.flatMap fun (_, name) =>
      match e.traps.lookup name with
      | some action => "trap -- ".toList ++ singleQuoted action ++ ' ' :: name ++ ['\n']
      | none => [])
    return 0
  match names.mapM (signal? 0) with
  | none =>
    let bad := names.find? fun name => (signal? 0 name).isNone
    let _ ← write 2 ("trap: ".toList ++ bad.getD [] ++ ": bad trap\n".toList)
    return 1
  | some found =>
    found.forM fun (_, name) => modifyEnvironment fun e =>
      let others := e.traps.filter (·.1 != name)
      { e with traps := (action.map fun action => (name, action)).toList ++ others }
    return 0

/-- Signals that a process which has no action for them passes over or only stops at. -/
def harmlessSignals : List Nat := [0, 17, 18, 19, 20, 21, 22, 23, 28]

/-- Sends a signal to the shell. -/
def receive (r : Runner) (number : Nat) (name : Text) : ShellM Unit := do
  match (← environment).traps.lookup name with
  | some action =>
    if !(number = 9) then
      let before ← status
      r.text false action
      setStatus before
    else throw (.killed number)
  | none => if !harmlessSignals.contains number then throw (.killed number)

def sendSignals (r : Runner) (number : Nat) (name : Text) : List Text → ShellM Nat
  | [] => return 0
  | process :: rest => do
    let known := process = processNumber
    if known then receive r number name
    else
      if !process.all isDigit then failWith ["Illegal number: ".toList, process]
      warn "No such process\n".toList
    let later ← sendSignals r number name rest
    return if known then later else 1

/-- Prints the names of all signals, or of the one that a number or the status it causes stands for. -/
def listSignals (words : List Text) : ShellM Nat := do
  match words with
  | [] => print (signals.flatMap fun (n, name) => Tool.withFeed (if n = 0 then ['0'] else name))
  | t :: _ =>
    let n ← number t
    match (signals.drop 1).lookup (if n > 128 then n - 128 else n) with
    | some name => print (Tool.withFeed name)
    | none => failWith ["invalid signal number or exit status: ".toList, t]
  return 0

def killUsage : Text :=
  ("Usage: kill [-s sigspec | -signum | -sigspec] [pid | job]... or\n" ++
    "kill -l [exitstatus]").toList

def kill (r : Runner) (words : List Text) : ShellM Nat := do
  let first := words.headD []
  let short := if first.head? = some '-' then signal? 1 (first.drop 1) else none
  match short with
  | some (number, name) =>
    if words.length = 1 then fail killUsage
    sendSignals r number name (words.drop 1)
  | none =>
    let a ← arguments "l" "s" words
    if a.has 'l' then
      return ← listSignals a.operands
    match a.value? 's', a.operands with
    | _, [] => fail killUsage
    | none, processes => sendSignals r 15 "TERM".toList processes
    | some t, processes =>
      match signal? 1 t with
      | some (number, name) => sendSignals r number name processes
      | none => failWith ["invalid signal number or name: ".toList, t]

/-- Goes on with a job; there is none that was stopped. -/
def resume (_ : List Text) : ShellM Nat := fail "No current job".toList

/-- Waits for what runs in the background, which has always ended. -/
def wait (words : List Text) : ShellM Nat := do
  match words.getLast? with
  | none => return 0
  | some process =>
    if process = backgroundNumber then return ((← environment).background).getD 127
    let _ ← number process
    return 127

def times (_ : List Text) : ShellM Nat := do
  print "0m0.000000s 0m0.000000s\n0m0.000000s 0m0.000000s\n".toList
  return 0

end Builtin

end Shell

end CrashTriage
