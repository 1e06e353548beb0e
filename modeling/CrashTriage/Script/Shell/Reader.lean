import CrashTriage.Script.Shell.Reading

/-
Lists of commands. A line is read as a whole before it is run. Keywords count only where a command can
start, unquoted; lists within other commands hold at least one command, but what stands in `$( )` and
after a pattern of `case` may hold none.
-/
namespace CrashTriage

namespace Shell

open Text Reading

def keywords : List Text :=
  ["!", "case", "do", "done", "elif", "else", "esac", "fi", "for", "if", "in", "then", "until", "while",
    "\x7b", "\x7d"].map String.toList

namespace Token

def keyword? : Token → Option Text
  | .word [.text false t] => if keywords.contains t then some t else none
  | _ => none

def isKeyword (t : Token) (name : String) : Bool := t.keyword? == some name.toList

def isMark (t : Token) (name : String) : Bool :=
  match t with
  | .mark m => m == name.toList
  | _ => false

def shown (t : Text) : Text := '"' :: t ++ ['"']

/-- How a complaint names a token. -/
def name (t : Token) : Text :=
  match t, t.keyword? with
  | _, some keyword => shown keyword
  | .finish, _ => "end of file".toList
  | .newline, _ => "newline".toList
  | .mark m, _ => shown m
  | .redirect _ _, _ => "redirection".toList
  | .word _, _ => "word".toList

def isFinish : Token → Bool
  | .finish => true
  | _ => false

def isNewline : Token → Bool
  | .newline => true
  | _ => false

/-- Can a token end a list of commands within another command? -/
def endsList (t : Token) : Bool :=
  t.isFinish || t.isMark ")" || t.isMark ";;" ||
    ["do", "done", "elif", "else", "esac", "fi", "then", "\x7d"].any t.isKeyword

end Token

def unexpected (t : Token) : Reading α := throw (.unexpected t.name none)

/-- Marks of one character that are doubled to another mark. -/
def readMark (c : Char) (doubled : Bool) : Reading Token := do
  let _ ← take
  if doubled then
    if ← takeIf c then return .mark [c, c]
  return .mark [c]

/-- The mark of a redirection. -/
def readRedirectMark (descriptor : Option Nat) : Reading Token := do
  match ← take with
  | some '>' =>
    let given := descriptor.getD 1
    for c in ['>', '|', '&'] do
      if ← takeIf c then return .redirect given ['>', c]
    return .redirect given ['>']
  | _ =>
    let given := descriptor.getD 0
    if ← takeIf '<' then
      return .redirect given (if ← takeIf '-' then ['<', '<', '-'] else ['<', '<'])
    for c in ['&', '>'] do
      if ← takeIf c then return .redirect given ['<', c]
    return .redirect given ['<']

/-- Reads the next token. -/
def readToken (nested : Nested) : (fuel : Nat) → Reading Token
  | 0 => return .finish
  | fuel + 1 => do
    if let some t := (← get).ahead then
      modify fun s => { s with ahead := none }
      return t
    match ← peek with
    | none =>
      readDocuments nested fuel
      return .finish
    | some c =>
      if c = ' ' || c = '\t' then
        let _ ← take
        readToken nested fuel
      else if c = '#' then
        modify fun s => { s with rest := s.rest.dropWhile (· != '\n') }
        readToken nested fuel
      else if c = '\n' then
        let _ ← take
        readDocuments nested fuel
        return .newline
      else if c = '&' || c = '|' || c = ';' then readMark c true
      else if c = '(' || c = ')' then readMark c false
      else
        let word ← readParts nested fuel .bare []
        let descriptor? := match word with
          | [] => some none
          | [.text false [d]] => if isDigit d then some (some (d.toNat - 48)) else none
          | _ => none
        match descriptor?, ← peek with
        | some descriptor, some '<' => readRedirectMark descriptor
        | some descriptor, some '>' => readRedirectMark descriptor
        | _, _ => return .word word

def unread (t : Token) : Reading Unit := modify fun s => { s with ahead := some t }

/-- The next token that is no line end. -/
def readPastLines (nested : Nested) : (fuel : Nat) → Reading Token
  | 0 => return .finish
  | fuel + 1 => do
    match ← readToken nested fuel with
    | .newline => readPastLines nested fuel
    | t => return t

def demand (nested : Nested) (fuel : Nat) (fits : Token → Bool) (name : String) : Reading Unit := do
  let t ← readToken nested fuel
  if !fits t then throw (.unexpected t.name (some (Token.shown name.toList)))

def demandKeyword (nested : Nested) (fuel : Nat) (name : String) : Reading Unit :=
  demand nested fuel (·.isKeyword name) name

def demandMark (nested : Nested) (fuel : Nat) (name : String) : Reading Unit :=
  demand nested fuel (·.isMark name) name

/-- The text before the end of a here-document and whether any of it was quoted. Dollar signs have no
meaning here. -/
def readDelimiter : (fuel : Nat) → Reading (Text × Bool)
  | 0 => return ([], false)
  | fuel + 1 => do
    match ← peek with
    | none => return ([], false)
    | some c =>
      if endsWord c then return ([], false)
      let _ ← take
      if c = '\\' then
        let d ← take
        let (t, _) ← readDelimiter fuel
        return (d.getD c :: t, true)
      else if c = '\'' || c = '"' then
        let s ← get
        match splitOnce? c s.rest with
        | none => throw .openQuote
        | some (inner, rest) =>
          set { s with rest }
          let (t, _) ← readDelimiter fuel
          return (inner ++ t, true)
      else
        let (t, quoted) ← readDelimiter fuel
        return (c :: t, quoted)

def openModes : List (Text × OpenMode) :=
  [("<", OpenMode.read), ("<>", .readWrite), (">", .truncate), (">|", .clobber), (">>", .append)].map
    fun (mark, mode) => (mark.toList, mode)

/-- The plain text of a word without quotes and expansions. -/
def plainText? : Word → Option Text
  | [.text false t] => some t
  | _ => none

/-- Reads what a redirection leads to. -/
def readRedirection (nested : Nested) (fuel : Nat) (descriptor : Nat) (mark : Text) :
    Reading Redirection := do
  if mark.take 2 = ['<', '<'] then
    let _ ← takeWhile (fun c => c == ' ' || c == '\t') fuel
    match ← peek with
    | some c => if endsWord c || c = '#' then unexpected (← readToken nested fuel)
    | none => unexpected .finish
    let (delimiter, literal) ← readDelimiter fuel
    let number := (← get).documents.size
    modify fun s =>
      { s with
        documents := s.documents.push []
        asked := s.asked ++ [⟨number, delimiter, literal, mark.length = 3⟩] }
    return .here descriptor number
  else
    match ← readToken nested fuel with
    | .word word =>
      match openModes.lookup mark with
      | some mode => return .file descriptor mode word
      | none => return .duplicate descriptor word
    | t => unexpected t

/-- Reads the redirections that follow a command. -/
def readRedirections (nested : Nested) : (fuel : Nat) → Reading (List Redirection)
  | 0 => return []
  | fuel + 1 => do
    match ← readToken nested fuel with
    | .redirect descriptor mark =>
      let r ← readRedirection nested fuel descriptor mark
      return r :: (← readRedirections nested fuel)
    | t =>
      unread t
      return []

/-- The words of a `for`, and the token after them. -/
def readWords (nested : Nested) : (fuel : Nat) → Reading (List Word × Token)
  | 0 => return ([], .finish)
  | fuel + 1 => do
    match ← readToken nested fuel with
    | .word w =>
      let (ws, t) ← readWords nested fuel
      return (w :: ws, t)
    | t => return ([], t)

/-- The patterns of a case, up to the closing parenthesis. -/
def readPatterns (nested : Nested) : (fuel : Nat) → (first : Token) → Reading (List Word)
  | 0, t => unexpected t
  | fuel + 1, .word w => do
    let t ← readToken nested fuel
    if t.isMark "|" then return w :: (← readPatterns nested fuel (← readToken nested fuel))
    else if t.isMark ")" then return [w]
    else throw (.unexpected t.name (some (Token.shown [')'])))
  | _ + 1, t => unexpected t

def Command.ofList : List Command → Command
  | [c] => c
  | cs => .sequence cs

def goodFunctionName? (word : Word) : Option Text :=
  (plainText? word).filter fun name => isName name && !specialNames.contains name

mutual

/-- Reads a list of commands within another one, up to the token that ends it; unless `started`, it must
not be empty. -/
def readList (fuel : Nat) (started : Bool) : Reading (List Command) :=
  match fuel with
  | 0 => return []
  | fuel + 1 => do
    let nested := nestedAt fuel
    let t ← readPastLines nested fuel
    unread t
    if t.isFinish || started && t.endsList then return []
    let c ← readChain fuel
    match ← readToken nested fuel with
    | .newline => return c :: (← readList fuel true)
    | t =>
      if t.isMark ";" then return c :: (← readList fuel true)
      else if t.isMark "&" then return .background c :: (← readList fuel true)
      else
        unread t
        return [c]

/-- The readers for the commands nested in words. -/
def nestedAt (fuel : Nat) : Nested :=
  match fuel with
  | 0 => ⟨return [], return ()⟩
  | fuel + 1 => ⟨readList fuel true, demandMark (nestedAt fuel) fuel ")"⟩

/-- Commands joined by `&&` and `||`. -/
def readChain (fuel : Nat) : Reading Command :=
  match fuel with
  | 0 => unexpected .finish
  | fuel + 1 => do readChainAfter fuel (← readPipeline fuel)

def readChainAfter (fuel : Nat) (first : Command) : Reading Command :=
  match fuel with
  | 0 => return first
  | fuel + 1 => do
    let nested := nestedAt fuel
    let t ← readToken nested fuel
    let joined? : Option (Command → Command → Command) :=
      if t.isMark "&&" then some .both else if t.isMark "||" then some .either else none
    match joined? with
    | some join =>
      unread (← readPastLines nested fuel)
      readChainAfter fuel (join first (← readPipeline fuel))
    | none =>
      unread t
      return first

def readPipeline (fuel : Nat) : Reading Command :=
  match fuel with
  | 0 => unexpected .finish
  | fuel + 1 => do
    let t ← readToken (nestedAt fuel) fuel
    let negated := t.isKeyword "!"
    if !negated then unread t
    let c ← match ← readPiped fuel with
      | [c] => pure c
      | cs => pure (.pipeline cs)
    return if negated then .negation c else c

/-- Commands joined by `|`. -/
def readPiped (fuel : Nat) : Reading (List Command) :=
  match fuel with
  | 0 => unexpected .finish
  | fuel + 1 => do
    let nested := nestedAt fuel
    let c ← readCommand fuel
    let t ← readToken nested fuel
    if t.isMark "|" then
      unread (← readPastLines nested fuel)
      return c :: (← readPiped fuel)
    else
      unread t
      return [c]

def readCommand (fuel : Nat) : Reading Command :=
  match fuel with
  | 0 => unexpected .finish
  | fuel + 1 => do
    let nested := nestedAt fuel
    let t ← readToken nested fuel
    let line := (← get).line
    match t, t.keyword? with
    | .redirect _ _, _ | .word _, none =>
      unread t
      readSimple fuel line [] [] []
    | _, none =>
      if !t.isMark "(" then unexpected t
      let body ← readList fuel false
      demandMark nested fuel ")"
      return .subshell line (.ofList body) (← readRedirections nested fuel)
    | _, some keyword =>
      let c ← match String.ofList keyword with
        | "if" => readCondition fuel
        | "while" => readLoop fuel false
        | "until" => readLoop fuel true
        | "for" => readEach fuel
        | "case" => readChoice fuel
        | "\x7b" => do
          let body ← readList fuel false
          demandKeyword nested fuel "\x7d"
          pure (.ofList body)
        | _ => unexpected t
      match ← readRedirections nested fuel with
      | [] => return c
      | redirections => return .redirected line c redirections

/-- The rest of a conditional, after `if` or `elif`. -/
def readCondition (fuel : Nat) : Reading Command :=
  match fuel with
  | 0 => unexpected .finish
  | fuel + 1 => do
    let nested := nestedAt fuel
    let test ← readList fuel false
    demandKeyword nested fuel "then"
    let body ← readList fuel false
    let t ← readToken nested fuel
    let otherwise? ←
      if t.isKeyword "elif" then some <$> readCondition fuel
      else if t.isKeyword "else" then do
        let other ← readList fuel false
        demandKeyword nested fuel "fi"
        pure (some (.ofList other))
      else if t.isKeyword "fi" then pure none
      else throw (.unexpected t.name (some (Token.shown "fi".toList)))
    return .condition (.ofList test) (.ofList body) otherwise?

def readLoop (fuel : Nat) (untilTrue : Bool) : Reading Command :=
  match fuel with
  | 0 => unexpected .finish
  | fuel + 1 => do
    let test ← readList fuel false
    return .loop untilTrue (.ofList test) (← readBody fuel)

/-- A list between `do` and `done`. -/
def readBody (fuel : Nat) : Reading Command :=
  match fuel with
  | 0 => unexpected .finish
  | fuel + 1 => do
    demandKeyword (nestedAt fuel) fuel "do"
    let body ← readList fuel false
    demandKeyword (nestedAt fuel) fuel "done"
    return .ofList body

def readEach (fuel : Nat) : Reading Command :=
  match fuel with
  | 0 => unexpected .finish
  | fuel + 1 => do
    let nested := nestedAt fuel
    let line := (← get).line
    let name ← match ← readToken nested fuel with
      | .word w =>
        match (plainText? w).filter isName with
        | some name => pure name
        | none => throw .badLoopName
      | _ => throw .badLoopName
    let t ← readPastLines nested fuel
    let words ←
      if t.isKeyword "in" then do
        let (words, t) ← readWords nested fuel
        if !(t.isMark ";" || t.isNewline) then unexpected t
        pure (some words)
      else do
        if !t.isMark ";" then unread t
        pure none
    unread (← readPastLines nested fuel)
    return .each line name words (← readBody fuel)

def readChoice (fuel : Nat) : Reading Command :=
  match fuel with
  | 0 => unexpected .finish
  | fuel + 1 => do
    let nested := nestedAt fuel
    let line := (← get).line
    match ← readToken nested fuel with
    | .word word =>
      let t ← readPastLines nested fuel
      if !t.isKeyword "in" then throw (.unexpected t.name (some (Token.shown "in".toList)))
      return .choice line word (← readCases fuel)
    | t => throw (.unexpected t.name (some "word".toList))

/-- The cases of a choice, up to `esac`. -/
def readCases (fuel : Nat) : Reading (List (List Word × Command)) :=
  match fuel with
  | 0 => unexpected .finish
  | fuel + 1 => do
    let nested := nestedAt fuel
    let t ← readPastLines nested fuel
    if t.isKeyword "esac" then return []
    let patterns ← readPatterns nested fuel (← if t.isMark "(" then readToken nested fuel else pure t)
    let body ← readList fuel true
    let one := (patterns, Command.ofList body)
    let t ← readPastLines nested fuel
    if t.isMark ";;" then return one :: (← readCases fuel)
    else if t.isKeyword "esac" then return [one]
    else throw (.unexpected t.name (some (Token.shown ";;".toList)))

/-- The rest of a simple command; what was read of it stands last first. -/
def readSimple (fuel : Nat) (line : Nat) (assignments : List (Text × Word)) (words : List Word)
    (redirections : List Redirection) : Reading Command :=
  match fuel with
  | 0 => unexpected .finish
  | fuel + 1 => do
    let nested := nestedAt fuel
    match ← readToken nested fuel with
    | .word w =>
      match words, assignment? w with
      | [], some assignment => readSimple fuel line (assignment :: assignments) [] redirections
      | _, _ => readSimple fuel line assignments (w :: words) redirections
    | .redirect descriptor mark =>
      let r ← readRedirection nested fuel descriptor mark
      readSimple fuel line assignments words (r :: redirections)
    | t =>
      match t.isMark "(", assignments, words, redirections with
      | true, [], [word], [] =>
        demandMark nested fuel ")"
        match goodFunctionName? word with
        | none => throw .badFunctionName
        | some name =>
          unread (← readPastLines nested fuel)
          return .define line name (← readCommand fuel)
      | _, _, _, _ =>
        unread t
        return .simple line assignments.reverse words.reverse redirections.reverse

end

/-- Reads the commands of one line, whose end is passed over; none at the end of the text. -/
def readLineCommands : (fuel : Nat) → (started : Bool) → Reading (Option (List Command))
  | 0, _ => return none
  | fuel + 1, started => do
    let nested := nestedAt fuel
    let goOn := fun c => do
      return some (c :: ((← readLineCommands fuel true).getD []))
    match ← readToken nested fuel with
    | .newline => return some []
    | .finish =>
      unread .finish
      return if started then some [] else none
    | t =>
      unread t
      let c ← readChain fuel
      match ← readToken nested fuel with
      | .newline => return some [c]
      | .finish =>
        unread .finish
        return some [c]
      | t =>
        if t.isMark ";" then goOn c
        else if t.isMark "&" then goOn (.background c)
        else unexpected t

namespace Source

def ofText (text : Text) (documents : Array Word) : Source := ⟨text, 1, none, documents, []⟩

/-- No text needs more steps than this at any depth. -/
def fuel (s : Source) : Nat := 8 * s.rest.length + 64

/-- Reads one line of commands; none at the end of the text. -/
def next (s : Source) : Except SyntaxProblem (Option (List Command)) × Source :=
  (readLineCommands s.fuel false).run s

end Source

end Shell

end CrashTriage
