import CrashTriage.Script.Shell.Condition
import CrashTriage.Script.Shell.Printing
import CrashTriage.Script.Shell.Redirecting

/-
The programs of a system that shell scripts use on texts: each reads the files it is given, or its
standard input, prints to its standard output, and complains to its standard error under its own name.
-/
namespace CrashTriage

namespace Shell

open Text ShellM

/-- A program, which ends with a status. -/
abbrev Tool := (arguments : List Text) → ShellM Nat

namespace Tool

/-- Words sorted into options, each with its value, and operands. -/
structure Arguments where
  options : List (Char × Text)
  operands : List Text
deriving DecidableEq, Repr

namespace Arguments

def has (a : Arguments) (c : Char) : Bool := a.options.any (·.1 == c)

/-- The value given last to an option. -/
def value? (a : Arguments) (c : Char) : Option Text := a.options.reverse.lookup c

end Arguments

/-- Reads the options in one word; the value of an option is the rest of the word or the next one. -/
def readLetters (flags valued : List Char) : (letters rest : List Text) → Text →
    Except Char (List (Char × Text) × List Text)
  | _, rest, [] => .ok ([], rest)
  | used, rest, c :: t =>
    if valued.contains c then
      match t, rest with
      | [], value :: rest => .ok ([(c, value)], rest)
      | [], [] => .error c
      | _, _ => .ok ([(c, t)], rest)
    else if flags.contains c then do
      let (options, rest) ← readLetters flags valued used rest t
      pure ((c, []) :: options, rest)
    else .error c

/-- Sorts words into options and operands, which may stand in any order up to `--`. -/
def readArguments (flags valued : List Char) : (fuel : Nat) → List Text → Except Char Arguments
  | 0, words => .ok ⟨[], words⟩
  | _ + 1, [] => .ok ⟨[], []⟩
  | fuel + 1, word :: rest =>
    match word with
    | ['-', '-'] => .ok ⟨[], rest⟩
    | '-' :: c :: t => do
      let (options, rest) ← readLetters flags valued [] rest (c :: t)
      let later ← readArguments flags valued fuel rest
      pure { later with options := options ++ later.options }
    | _ => do
      let later ← readArguments flags valued fuel rest
      pure { later with operands := word :: later.operands }

def complain (parts : List Text) : ShellM Unit := do
  let _ ← write 2 (parts.flatten ++ ['\n'])

/-- Runs a program on its options and operands. -/
def withArguments (name : Text) (flags valued : String) (misuse : Nat) (run : Arguments → ShellM Nat) :
    Tool := fun words => do
  match readArguments flags.toList valued.toList (words.length + 1) words with
  | .ok a => run a
  | .error c =>
    complain [name, ": invalid option -- '".toList, [c], "'".toList]
    complain ["Try '".toList, name, " --help' for more information.".toList]
    return misuse

/-- What an operand names; a dash is the standard input. -/
def readInput (name : Text) : ShellM (Except OsError Text) := do
  if name = ['-'] || descriptorFiles.lookup name = some 0 then readBytes 0 none
  else if Condition.isNullDevice name then return .ok []
  else return ((← disk).read (toChars name)).map Bytes.latin

/-- Reads inputs one by one; what cannot be read is complained about, with status 1. -/
def forInputs (name : Text) (use : (input text : Text) → ShellM Unit) : List Text → ShellM Nat
  | [] => return 0
  | input :: rest => do
    let failed ← match ← readInput input with
      | .ok t => do
        use input t
        pure false
      | .error e => do
        complain [name, ": ".toList, input, ": ".toList, plainReason e]
        pure true
    let later ← forInputs name use rest
    return if failed then 1 else later

def inputs (operands : List Text) : List Text := if operands.isEmpty then [['-']] else operands

/-- A program that prints what becomes of all its inputs together. -/
def onAll (name : Text) (operands : List Text) (change : Text → Text) : ShellM Nat := do
  let sink ← newChannel (.sink [])
  let status ← forInputs name (fun _ t => do
    let before ← collected sink
    setChannel sink (.sink [before ++ t])) (inputs operands)
  print (change (← collected sink))
  return status

def leftPadded (width : Nat) (t : Text) : Text := List.replicate (width - t.length) ' ' ++ t

/-! cat -/

/-- Lines as `cat` shows them under its options, the first one having number `n`. -/
def numberLines (a : Arguments) : (n : Nat) → (afterBlank : Bool) → List Text → List Text
  | _, _, [] => []
  | n, afterBlank, line :: rest =>
    let blank := line = ['\n']
    if a.has 's' && blank && afterBlank then numberLines a n true rest
    else
      let counted := a.has 'b' && !blank || a.has 'n' && !a.has 'b'
      let number := if counted then leftPadded 6 (ofNat n) ++ ['\t'] else []
      let tabs := fun c => if c = '\t' && a.has 'T' then ['^', 'I'] else [c]
      let ending := if a.has 'E' && line.getLast? = some '\n' then ['$'] else []
      let (body, feed) := match line.getLast? with
        | some '\n' => (line.dropLast, ['\n'])
        | _ => (line, [])
      (number ++ body.flatMap tabs ++ ending ++ feed) ::
        numberLines a (if counted then n + 1 else n) blank rest

/-- Is a file what is printed to, as far as it would be read in again? -/
def printsTo (name : Text) : ShellM Bool := do
  match ← channelOf? 1 with
  | none => return false
  | some number =>
    match ← channel number with
    | .file place offset _ _ appends =>
      let size := (← bytesAt place).length
      return ((← disk).locate (toChars name)).toOption == some place && 0 < (if appends then size else offset)
    | _ => return false

/-- Prints files as they are; a file that is being printed to is left out. -/
def copyOut : List Text → ShellM Nat
  | [] => return 0
  | input :: rest => do
    let status ←
      if ← printsTo input then
        complain ["cat: ".toList, input, ": input file is output file".toList]
        pure 1
      else forInputs "cat".toList (fun _ t => print t) [input]
    return max status (← copyOut rest)

def cat : Tool := withArguments "cat".toList "nbsETu" "" 1 fun a => do
  if a.options.all (·.1 == 'u') then copyOut (inputs a.operands)
  else onAll "cat".toList a.operands fun t => (numberLines a 1 false (pieces t)).flatten

/-! head and tail -/

/-- The old spelling of a number of lines, `-3`, as an option. -/
def withCount (words : List Text) : List Text :=
  match words with
  | ('-' :: d :: t) :: rest =>
    if isDigit d && t.all isDigit then ['-', 'n'] :: (d :: t) :: rest else words
  | _ => words

/-- The start of a text, or all but the end when the count has a minus sign. -/
def headOf (a : Arguments) (t : Text) : Text :=
  let cut := fun (count : Text) (units : List Text) =>
    let keep := match count with
      | '-' :: n => units.length - (readNat? n).getD 0
      | n => (readNat? n).getD 0
    (units.take keep).flatten
  match a.value? 'c' with
  | some n => cut n (t.map fun c => [c])
  | none => cut ((a.value? 'n').getD ['1', '0']) (pieces t)

/-- The end of a text, or all from a place on when the count has a plus sign. -/
def tailOf (a : Arguments) (t : Text) : Text :=
  let cut := fun (count : Text) (units : List Text) =>
    let skip := match count with
      | '+' :: n => (readNat? n).getD 0 - 1
      | '-' :: n => units.length - (readNat? n).getD 0
      | n => units.length - (readNat? n).getD 0
    (units.drop skip).flatten
  match a.value? 'c' with
  | some n => cut n (t.map fun c => [c])
  | none => cut ((a.value? 'n').getD ['1', '0']) (pieces t)

/-- Prints a part of each input, under its name when there are several. -/
def partOf (name : String) (part : Arguments → Text → Text) : Tool := fun words =>
  withArguments name.toList "q" "nc" 1 (fun a => do
    let several := a.operands.length > 1 && !a.has 'q'
    let started ← newChannel (.sink [])
    forInputs name.toList (fun input t => do
      let first := (← collected started).isEmpty
      setChannel started (.sink [['x']])
      let shown := if input = ['-'] then "standard input".toList else input
      if several then
        print ((if first then [] else ['\n']) ++ "==> ".toList ++ shown ++ " <==\n".toList)
      print (part a t)) (inputs a.operands)) (withCount words)

/-! wc -/

def counts (a : Arguments) (t : Text) : List Nat :=
  let chosen := fun c => a.has c || !(a.has 'l' || a.has 'w' || a.has 'c' || a.has 'm')
  (if chosen 'l' then [t.count '\n'] else []) ++
    (if chosen 'w' then [((splitBy isSpaceByte t).filter (!·.isEmpty)).length] else []) ++
    (if chosen 'c' || a.has 'm' then [t.length] else [])

/-- Counts lines, words and bytes. Columns are as wide as the greatest number of bytes, and seven wide
when that is not known beforehand. -/
def wc : Tool := withArguments "wc".toList "lwcm" "" 1 fun a => do
  let read ← newChannel (.sink [])
  let rows ← (inputs a.operands).mapM fun input => do
    match ← readInput input with
    | .ok t =>
      setChannel read (.sink [t ++ (← collected read)])
      return some (counts a t, if a.operands.isEmpty then [] else ' ' :: input)
    | .error e =>
      complain ["wc: ".toList, input, ": ".toList, plainReason e]
      return none
  let found := rows.filterMap id
  let columns := (counts a []).length
  let total := (found.map (·.1)).foldl (fun sums row => List.zipWith (· + ·) sums row)
    (List.replicate columns 0)
  let fromFile ← match ← channelOf? 0 with
    | some number => do
      match ← channel number with
      | .file _ _ _ _ _ => pure true
      | _ => pure false
    | none => pure false
  let known := fromFile || (!a.operands.isEmpty && !a.operands.contains ['-'])
  let size := (ofNat (← collected read).length).length
  let width := if columns = 1 && a.operands.length ≤ 1 then 1 else if known then size else max 7 size
  let row := fun (numbers : List Nat) (name : Text) =>
    joinWith [' '] (numbers.map fun n => leftPadded width (ofNat n)) ++ name ++ ['\n']
  print (found.flatMap fun (numbers, name) => row numbers name)
  if a.operands.length > 1 then print (row total " total".toList)
  return if found.length = rows.length then 0 else 1

/-! Lines -/

def withFeed (line : Text) : Text := line ++ ['\n']

/-- Adjacent equal members counted. -/
def runs : List Text → List (Nat × Text)
  | [] => []
  | line :: rest =>
    match runs rest with
    | (n, same) :: later => if same = line then (n + 1, line) :: later else (1, line) :: (n, same) :: later
    | [] => [(1, line)]

/-- The number at the head of a line. -/
def leadingNumber (line : Text) : Int := ((readNumeral? (some 10) line).map (·.1)).getD 0

def sort : Tool := withArguments "sort".toList "rnu" "" 2 fun a =>
  onAll "sort".toList a.operands fun t =>
    let before := fun x y : Text =>
      let order := if a.has 'n' then Ord.compare (leadingNumber x) (leadingNumber y) else .eq
      let order := order.then (if a.has 'u' && a.has 'n' then .eq else Text.compare x y)
      if a.has 'r' then order != .lt else order != .gt
    let sorted := (lines t).mergeSort before
    ((if a.has 'u' then (runs sorted).map (·.2) else sorted).map withFeed).flatten

def uniq : Tool := withArguments "uniq".toList "cdu" "" 1 fun a =>
  onAll "uniq".toList (a.operands.take 1) fun t =>
    let kept := (runs (lines t)).filter fun (n, _) => !(a.has 'd' && n = 1) && !(a.has 'u' && n > 1)
    kept.flatMap fun (n, line) =>
      withFeed ((if a.has 'c' then leftPadded 7 (ofNat n) ++ [' '] else []) ++ line)

def tac : Tool := withArguments "tac".toList "" "" 1 fun a =>
  onAll "tac".toList a.operands fun t => (pieces t).reverse.flatten

def rev : Tool := withArguments "rev".toList "" "" 1 fun a =>
  onAll "rev".toList a.operands fun t =>
    ((fullLines t).map fun line => line.body.reverse ++ line.ending).flatten

/-! tr -/

/-- The characters of a set with its ranges and escapes. -/
def setMembers : (fuel : Nat) → Text → Text
  | 0, _ => []
  | _ + 1, [] => []
  | fuel + 1, '[' :: ':' :: t =>
    let name := t.takeWhile (· != ':')
    match namedSet? name, t.drop name.length with
    | some holds, ':' :: ']' :: rest =>
      ((List.range 256).map Char.ofNat).filter holds ++ setMembers fuel rest
    | _, _ => '[' :: setMembers fuel (':' :: t)
  | fuel + 1, '\\' :: t =>
    let (c, rest) := readEscape t
    c :: setMembers fuel rest
  | fuel + 1, a :: '-' :: b :: t =>
    (List.range (b.toNat + 1 - a.toNat)).map (fun n => Char.ofNat (a.toNat + n)) ++ setMembers fuel t
  | fuel + 1, c :: t => c :: setMembers fuel t

/-- Drops repetitions of members of a set. -/
def squeeze (set : Text) : Text → Text
  | a :: b :: t => if a = b && set.elem a then squeeze set (b :: t) else a :: squeeze set (b :: t)
  | t => t

def translate (complement delete squeezed : Bool) (first second t : Text) : Text :=
  let inFirst := fun c => first.elem c != complement
  if delete then
    let kept := t.filter fun c => !inFirst c
    if squeezed then squeeze second kept else kept
  else
    let moved := t.map fun c =>
      if !inFirst c || second.isEmpty then c
      else if complement then (second.getLast?).getD c
      else (second[first.idxOf c]?).getD ((second.getLast?).getD c)
    if squeezed then squeeze (if second.isEmpty then (moved.filter inFirst) else second) moved else moved

def tr : Tool := withArguments "tr".toList "cCds" "" 1 fun a => do
  let sets := a.operands.map fun t => setMembers (t.length + 1) t
  match sets with
  | [] =>
    complain ["tr: missing operand".toList]
    return 1
  | first :: rest =>
    onAll "tr".toList [] (translate (a.has 'c' || a.has 'C') (a.has 'd') (a.has 's') first (rest.headD []))

/-! Other texts -/

/-- The numbers from the first to the last of one to three words, with the step in the middle. -/
def seq : Tool := fun words => do
  let numbers := words.map fun w => ((readNumeral? (some 10) w).map (·.1)).getD 0
  let (first, step, last) : Int × Int × Int := match numbers with
    | [last] => (1, 1, last)
    | [first, last] => (first, 1, last)
    | first :: step :: last :: _ => (first, step, last)
    | [] => (1, 1, 0)
  let size := if step = 0 then 0 else (last - first) / step + 1
  print ((List.range size.toNat).flatMap fun (n : Nat) => withFeed (ofInt (first + step * n)))
  return if words.isEmpty then 1 else 0

/-- A number of seconds, or of a greater unit. -/
def isInterval (t : Text) : Bool :=
  let number := match t.getLast? with
    | some c => if "smhd".toList.contains c then t.dropLast else t
    | none => t
  match Double.read? number with
  | some (.finite false _ _) | some (.infinite false) => true
  | _ => false

/-- Waits, which takes no time here. -/
def sleep : Tool := withArguments "sleep".toList "" "" 1 fun a => do
  let bad := a.operands.filter fun t => !isInterval t
  bad.forM fun t => complain ["sleep: invalid time interval '".toList, t, ['\'']]
  if a.operands.isEmpty then complain ["sleep: missing operand".toList]
  if bad.isEmpty && !a.operands.isEmpty then return 0
  complain ["Try 'sleep --help' for more information.".toList]
  return 1

/-! cut -/

/-- Ranges of positions, `2`, `2-4`, `-3` or `2-`, the last being open. -/
def readRanges (t : Text) : List (Nat × Option Nat) :=
  (split ',' t).map fun range =>
    match splitOnce? '-' range with
    | some (first, last) => ((readNat? first).getD 1, readNat? last)
    | none => ((readNat? range).getD 0, readNat? range)

def chosen (ranges : List (Nat × Option Nat)) (xs : List α) : List α :=
  (xs.zipIdx 1).filterMap fun (x, n) =>
    if ranges.any fun (first, last) => first ≤ n && n ≤ last.getD n then some x else none

/-- The chosen fields of a line; a line without the mark between fields is kept whole, or dropped. -/
def cutFields (mark : Char) (dropsWhole : Bool) (ranges line : Text) : Text :=
  if line.elem mark then withFeed (joinWith [mark] (chosen (readRanges ranges) (split mark line)))
  else if dropsWhole then []
  else withFeed line

def cut : Tool := withArguments "cut".toList "s" "dfcb" 1 fun a => do
  let mark := ((a.value? 'd').getD ['\t']).headD '\t'
  let onLines := fun change => onAll "cut".toList a.operands fun t => (lines t).flatMap change
  match (a.value? 'c').or (a.value? 'b'), a.value? 'f' with
  | some ranges, _ => onLines fun line => withFeed (chosen (readRanges ranges) line)
  | none, some ranges => onLines (cutFields mark (a.has 's') ranges)
  | none, none =>
    complain ["cut: you must specify a list of bytes, characters, or fields".toList]
    complain ["Try 'cut --help' for more information.".toList]
    return 1

def tee : Tool := withArguments "tee".toList "a" "" 1 fun a => do
  let t ← match ← readBytes 0 none with
    | .ok t => pure t
    | .error _ => pure []
  print t
  let mode := if a.has 'a' then OpenMode.append else .truncate
  let results ← a.operands.mapM fun name => do
    let mask := (← environment).mask
    match ← tryDisk (openToWrite mode mask name false) with
    | .ok c =>
      keepingDescriptors do
        assignDescriptor 1 (some (← newChannel c))
        print t
      return true
    | .error e =>
      complain ["tee: ".toList, name, ": ".toList, plainReason e]
      return false
  return if results.all id then 0 else 1

/-- The last name of a path, trailing slashes aside. -/
def baseOf (path : Text) : Text :=
  let bare := dropEndWhile (· == '/') path
  if bare.isEmpty then path.take 1 else (bare.reverse.takeWhile (· != '/')).reverse

def directoryOf (path : Text) : Text :=
  let bare := dropEndWhile (· == '/') path
  let parent := dropEndWhile (· != '/') bare
  if bare.isEmpty then path.take 1
  else if parent.isEmpty then ['.']
  else
    let parent := dropEndWhile (· == '/') parent
    if parent.isEmpty then ['/'] else parent

def basename : Tool := fun words => do
  match words with
  | [] =>
    complain ["basename: missing operand".toList]
    return 1
  | path :: rest =>
    let base := baseOf path
    let ending := rest.headD []
    let cut := if endsWith base ending && base.length > ending.length then base.length - ending.length
      else base.length
    print (withFeed (base.take cut))
    return 0

def dirname : Tool := fun words => do
  print (words.flatMap fun path => withFeed (directoryOf path))
  return if words.isEmpty then 1 else 0

/-- Prints its words, carrying out escapes only when asked to. -/
def plainEcho (words : List Text) : Text :=
  let isOption := fun w : Text =>
    w.length > 1 && w.head? == some '-' && (w.drop 1).all fun c => "neE".toList.contains c
  let options := (words.takeWhile isOption).flatten
  let body := joinWith [' '] (words.dropWhile isOption)
  let (out, stopped) := if options.elem 'e' then unescape (body.length + 1) body else (body, false)
  if options.elem 'n' || stopped then out else withFeed out

/-- Prints by a format, and complains about arguments that are no numbers. -/
def printf (warn : Text → ShellM Unit) : Tool := fun words => do
  match words with
  | [] =>
    warn "usage: printf format [arg ...]".toList
    return 2
  | format :: arguments =>
    let (p, ending) := Printing.passes format (arguments.length + 1) ⟨[], arguments, []⟩
    p.problems.reverse.forM warn
    if let .failed message := ending then warn message
    print p.out.reverse.flatten
    match ending with
    | .failed _ => return 2
    | _ => return if p.problems.isEmpty then 0 else 1

def test (warn : Text → ShellM Unit) : Tool := fun words => do
  match Condition.holds (← disk) (words.length + 1) words with
  | .ok b => return if b then 0 else 1
  | .error message =>
    warn message
    return 2

end Tool

end Shell

end CrashTriage
