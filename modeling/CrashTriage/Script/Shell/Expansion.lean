import CrashTriage.Script.Shell.Machine

/-
What words become. Parameters, arithmetic and the output of commands are put in; what came out of them
unquoted is split into fields; and fields with unquoted pattern characters become the names of the files
that fit, or stay as they are when none does.
-/
namespace CrashTriage

namespace Shell

open Text ShellM

/-- Where a character of an expanded word comes from. -/
inductive Origin where
  | written
  | expanded
  | quoted
deriving DecidableEq, Repr

inductive Mark where
  | char (origin : Origin) (c : Char)
  /-- Quotes: the field is kept even when it is empty. -/
  | quote
  /-- Ends a field, even an empty one if it is `hard`. -/
  | cut (hard : Bool)
deriving DecidableEq, Repr

namespace Mark

def ofText (origin : Origin) (t : Text) : List Mark := t.map (.char origin)

def text (marks : List Mark) : Text :=
  marks.filterMap fun mark =>
    match mark with
    | .char _ c => some c
    | _ => none

def pattern (marks : List Mark) : Pattern :=
  marks.filterMap fun mark =>
    match mark with
    | .char origin c => some ⟨c, origin == .quoted⟩
    | _ => none

end Mark

/-! Splitting -/

/-- Fields as far as they are known; `current` stands last character first. -/
structure Splitting where
  done : List Pattern
  current : Pattern
  /-- Is the current field kept even if it is empty? -/
  kept : Bool
  /-- Was the last separator a blank? -/
  spaced : Bool

namespace Splitting

def start : Splitting := ⟨[], [], false, false⟩

def close (s : Splitting) (spaced : Bool) : Splitting :=
  ⟨s.current.reverse :: s.done, [], false, spaced⟩

def push (s : Splitting) (c : PatternChar) : Splitting :=
  { s with current := c :: s.current, spaced := false }

/-- Blanks are one separator with the blanks, and the one separator that is no blank, around them. -/
def separate (s : Splitting) (blank : Bool) : Splitting :=
  if s.spaced then { s with spaced := blank }
  else if blank && s.current.isEmpty && !s.kept then s
  else s.close blank

def step (separators : Text) (s : Splitting) (mark : Mark) : Splitting :=
  match mark with
  | .quote => { s with kept := true, spaced := false }
  | .cut hard => if hard then s.close false else s.separate true
  | .char origin c =>
    if origin != .expanded || !separators.elem c then s.push ⟨c, origin == .quoted⟩
    else s.separate (c == ' ' || c == '\t' || c == '\n')

def fields (s : Splitting) : List Pattern :=
  (if s.current.isEmpty && !s.kept then s.done else s.current.reverse :: s.done).reverse

end Splitting

def splitFields (separators : Text) (marks : List Mark) : List Pattern :=
  (marks.foldl (Splitting.step separators) .start).fields

/-! File names -/

def sortTexts (ts : List Text) : List Text := ts.mergeSort fun a b => Text.compare a b != .gt

/-- The names in a directory that fit; a dot at the head must be written out. -/
def namesFitting (d : Disk) (directory : Text) (p : Pattern) : List Text :=
  let names := match d.list (if directory.isEmpty then ['.'] else toChars directory) with
    | .ok names => names.map ofChars ++ [['.'], ['.', '.']]
    | .error _ => []
  let dotted := p.head?.any (·.char == '.')
  names.filter fun name => (dotted || name.head? != some '.') && p.isMatch name

/-- The paths that fit below what is built so far. -/
def pathsFitting (d : Disk) : (fuel : Nat) → (built : Text) → Pattern → List Text
  | 0, _, _ => []
  | fuel + 1, built, p =>
    let segment := p.takeWhile fun c => c.char != '/'
    let later := p.drop segment.length
    let slashes := later.takeWhile fun c => c.char == '/'
    let later := later.drop slashes.length
    let names := if Pattern.isActive segment then namesFitting d built segment
      else [Pattern.text (Pattern.unescaped segment)]
    names.flatMap fun name =>
      let path := built ++ name ++ Pattern.text slashes
      if !later.isEmpty then pathsFitting d fuel path later
      else if (d.stat (toChars path)).isOk then [path] else []

/-- A field, or the names of the files that fit it. -/
def withFileNames (d : Disk) (p : Pattern) : List Text :=
  if !Pattern.isActive p then [p.text]
  else
    match pathsFitting d (p.length + 1) [] p with
    | [] => [p.text]
    | paths => sortTexts paths

/-! Parameters -/

/-- The process number that the shell takes itself to have. -/
def processNumber : Text := "1".toList

/-- The process number of whatever runs in the background. -/
def backgroundNumber : Text := "2".toList

/-- Options by the letters they are shown as, in this order. -/
def optionLetters : List Char := "ubaCEVvxsnmiIfe".toList

/-- The value of a parameter that is not all positional parameters. -/
def parameterValue? (name : Text) : ShellM (Option Text) := do
  let e ← environment
  match name with
  | ['#'] => return some (ofNat e.positional.length)
  | ['?'] => return some (ofNat e.status)
  | ['$'] => return some processNumber
  | ['-'] => return some (optionLetters.filter e.options.contains)
  | ['!'] => return e.background.map fun _ => backgroundNumber
  | _ =>
    match readNat? name with
    | some 0 => return some e.name
    | some (n + 1) => return e.positional[n]?
    | none => value? name

/-- Positional parameters as one text. -/
def joinedParameters : ShellM Text := do
  let separator := ((← value? "IFS".toList).getD [' ']).take 1
  return joinWith separator (← environment).positional

def isAll (name : Text) : Bool := name == ['@'] || name == ['*']

def valueOf? (name : Text) : ShellM (Option Text) := do
  if isAll name then return some (← joinedParameters) else parameterValue? name

/-- The value, a parameter that is not set being empty or, under an option, a failure. -/
def valueOf (name : Text) : ShellM Text := do
  match ← valueOf? name with
  | some t => return t
  | none =>
    if ← hasOption 'u' then failWith [name, ": parameter not set".toList]
    return []

def originOf (quoted : Bool) : Origin := if quoted then .quoted else .expanded

/-- What the positional parameters put into a word that is split. -/
def parameterFields (quoted separate : Bool) : ShellM (List Mark) := do
  let separators ← separators
  let positional := (← environment).positional
  let origin := originOf quoted
  if !quoted then return [Mark.cut false].intercalate (positional.map (Mark.ofText origin))
  else if separate then
    return [Mark.cut true].intercalate (positional.map fun t => .quote :: Mark.ofText origin t)
  else return Mark.ofText origin (joinWith (separators.take 1) positional)

/-- What a parameter puts into a word. -/
def valueMarks (splits quoted : Bool) (name : Text) : ShellM (List Mark) := do
  if isAll name && splits then parameterFields quoted (name = ['@'])
  else return Mark.ofText (originOf quoted) (← valueOf name)

/-! Arithmetic -/

def parameterAccess (expression : Text) : ParameterAccess ShellM where
  read name := do
    let t := (← value? name).getD []
    match wholeNumeral? none t with
    | some n => return Int64.ofInt n
    | none => failWith ["Illegal number: ".toList, t]
  write name n := assign name (ofInt n.toInt)
  fail problem :=
    failWith ["arithmetic expression: ".toList, problem.message, ": \"".toList, expression, ['"']]

/-- The value of an expression as a text. -/
def evaluate (expression : Text) : ShellM Text := do
  let access := parameterAccess expression
  match Expression.read expression with
  | .ok e => return ofInt (← e.value access).toInt
  | .error problem => return ofInt (← access.fail problem).toInt

/-! Home directories -/

/-- The home directory of a user, which is that of the shell's own for an empty name. -/
def homeOf? (own : Option Text) (user : Text) : Option Text :=
  if user.isEmpty then own else if user = "root".toList then some "/root".toList else none

/-- A text whose tilde at the head stands for a home directory; `whole` tells whether nothing else is
part of the name after the tilde. -/
def tildeParts (own : Option Text) (whole : Bool) (t : Text) : Word :=
  match t with
  | '~' :: t =>
    let user := t.takeWhile (· != '/')
    let rest := t.drop user.length
    match homeOf? own user, whole || !rest.isEmpty with
    | some home, true => [.text true home, .text false rest]
    | _, _ => [.text false ('~' :: t)]
  | _ => [.text false t]

/-- Puts home directories in for tildes at the head of a word, and after its colons if asked to. -/
def withHomes (own : Option Text) (colons : Bool) : (first : Bool) → Word → Word
  | _, [] => []
  | first, .text false t :: rest =>
    let pieces := if colons then split ':' t else [t]
    let changed := pieces.zipIdx.map fun (piece, n) =>
      if first || n > 0 then tildeParts own (rest.isEmpty || n + 1 < pieces.length) piece
      else [.text false piece]
    [.text false [':']].intercalate changed ++
      withHomes own colons (colons && t.getLast? = some ':') rest
  | _, part :: rest => part :: withHomes own colons false rest

/-- The marks of a word with a home directory put in for the tilde at its head. -/
def homeMarks (own : Option Text) (word : Word) (marks : List Mark) : List Mark :=
  match word with
  | .text false t :: rest =>
    match tildeParts own rest.isEmpty t with
    | .text true home :: .text false left :: _ =>
      .quote :: Mark.ofText .quoted home ++ marks.drop (t.length - left.length)
    | _ => marks
  | _ => marks

def withHome (word : Word) : ShellM Word := do
  return withHomes (← value? "HOME".toList) false true word

/-! Words -/

mutual

/-- What parts become; `plain` is the origin of unquoted text. -/
def expandParts (r : Runner) (splits : Bool) (plain : Origin) : List Part → ShellM (List Mark)
  | [] => return []
  | part :: rest => do
    let marks ← expandPart r splits plain part
    return marks ++ (← expandParts r splits plain rest)

def expandPart (r : Runner) (splits : Bool) (plain : Origin) : Part → ShellM (List Mark)
  | .text true t => return .quote :: Mark.ofText .quoted t
  | .text false t => return Mark.ofText plain t
  | .parameter quoted use => expandUse r splits quoted use
  | .output quoted body => do
    return Mark.ofText (originOf quoted) (← r.capture (r.command false (.sequence body)))
  | .arithmetic quoted expression => do
    let marks ← expandParts r false .quoted expression
    return Mark.ofText (originOf quoted) (← evaluate (Mark.text marks))

def expandUse (r : Runner) (splits quoted : Bool) : ParameterUse → ShellM (List Mark)
  | .value name => valueMarks splits quoted name
  | .length name => do
    return Mark.ofText (originOf quoted) (ofNat (← valueOf name).length)
  | .without name atEnd longest pattern => do
    let t ← valueOf name
    let marks ← expandParts r false .written pattern
    return Mark.ofText (originOf quoted) ((Mark.pattern marks).strip atEnd longest t)
  | .malformed => fail "Bad substitution".toList
  | .otherwise name orEmpty fallback word => do
    let value? ← valueOf? name
    let own ← ShellM.value? "HOME".toList
    let usable := match value? with
      | some t => !(orEmpty && t.isEmpty)
      | none => false
    match fallback, usable with
    | .alternative, true | .word, false => do
      let marks ← expandParts r splits (originOf quoted) word
      return if quoted then marks else homeMarks own word marks
    | .alternative, false => return []
    | .assigned, false =>
      if !isName name then failWith [name, ": bad variable name".toList]
      let t := Mark.text (homeMarks own word (← expandParts r false .written word))
      assign name t
      return Mark.ofText (originOf quoted) t
    | .complaint, false =>
      let t := Mark.text (← expandParts r false .written word)
      let usual := if orEmpty then "parameter not set or null" else "parameter not set"
      failWith [name, ": ".toList, if t.isEmpty then usual.toList else t]
    | _, true => valueMarks splits quoted name

end

/-- The one text that a word becomes where it is not split. -/
def expandText (r : Runner) (word : Word) : ShellM Text := do
  return Mark.text (← expandParts r false .written (← withHome word))

/-- The value that a word assigns, in which tildes may also stand after colons. -/
def expandAssigned (r : Runner) (word : Word) : ShellM Text := do
  let word := withHomes (← value? "HOME".toList) true true word
  return Mark.text (← expandParts r false .written word)

def expandPattern (r : Runner) (word : Word) : ShellM Pattern := do
  return Mark.pattern (← expandParts r false .written (← withHome word))

/-- The fields that a word becomes. -/
def expandFields (r : Runner) (word : Word) : ShellM (List Text) := do
  let marks ← expandParts r true .written (← withHome word)
  let fields := splitFields (← separators) marks
  if ← hasOption 'f' then return fields.map Pattern.text
  let d ← disk
  return fields.flatMap (withFileNames d)

end Shell

end CrashTriage
