import CrashTriage.Script.Shell.Syntax

/-
Words of a command line. A backslash before a line end joins two lines everywhere but between single
quotes. Between double quotes a backslash keeps its meaning only before a few characters, and in a word
after a parameter's name those quotes only mark. Reading fails with the reason that a shell would give.
-/
namespace CrashTriage

namespace Shell

open Text

inductive Token where
  | finish
  | newline
  | mark (text : Text)
  | redirect (descriptor : Nat) (mark : Text)
  | word (word : Word)

/-- A here-document that the line at hand asks for. -/
structure AskedDocument where
  number : Nat
  delimiter : Text
  /-- Nothing in it is expanded. -/
  literal : Bool
  /-- Tabs at the head of its lines are left out. -/
  stripped : Bool
deriving DecidableEq, Repr

/-- A text that is being read, with the documents found in it. -/
structure Source where
  rest : Text
  line : Nat
  ahead : Option Token
  documents : Array Word
  asked : List AskedDocument

abbrev Reading := ExceptT SyntaxProblem (StateM Source)

namespace Reading

/-- Passes over line ends that a backslash hides, and tells the number of lines. -/
def dropJoins : Text → Nat × Text
  | '\\' :: '\n' :: t => let (n, t) := dropJoins t; (n + 1, t)
  | t => (0, t)

/-- The next character, lines being joined. -/
def peek : Reading (Option Char) := do
  let s ← get
  let (n, t) := dropJoins s.rest
  set { s with rest := t, line := s.line + n }
  return t.head?

/-- Takes the next character as it stands. -/
def take : Reading (Option Char) := do
  let s ← get
  match s.rest with
  | [] => return none
  | c :: t =>
    set { s with rest := t, line := if c = '\n' then s.line + 1 else s.line }
    return some c

/-- Takes characters that satisfy `p`; `fuel` bounds their number. -/
def takeWhile (p : Char → Bool) : (fuel : Nat) → Reading Text
  | 0 => return []
  | fuel + 1 => do
    match ← peek with
    | some c =>
      if p c then
        let _ ← take
        return c :: (← takeWhile p fuel)
      else return []
    | none => return []

/-- Takes a character if it is the next one. -/
def takeIf (c : Char) : Reading Bool := do
  if (← peek) = some c then
    let _ ← take
    return true
  else return false

end Reading

/-- Parts of a word, the last first, with one more character. -/
def pushChar (quoted : Bool) (c : Char) (parts : Word) : Word :=
  match parts with
  | .text q t :: rest => if q = quoted then .text q (t ++ [c]) :: rest else .text quoted [c] :: parts
  | _ => .text quoted [c] :: parts

/-- Is this where an unquoted word ends? -/
def endsWord (c : Char) : Bool := " \t\n;&|<>()".toList.contains c

/-- Does a backslash between double quotes take away the meaning of a character? -/
def isEscapable (also : Text) (c : Char) : Bool := "\\\x60$".toList.contains c || also.elem c

/-- Where a part of a word stands, which decides how it is read and where it ends. -/
inductive Region where
  | bare
  /-- After the name of a parameter in braces. -/
  | braced
  | quoted
  /-- Both; `inner` tells whether quotes within the braces are open. -/
  | quotedBraced (inner : Bool)
  /-- Between `$((` and `))`, at a depth of parentheses. -/
  | arithmetic (depth : Nat)
  | document
deriving DecidableEq, Repr

namespace Region

def isQuoted : Region → Bool
  | .bare | .braced => false
  | _ => true

/-- Characters that a backslash can precede here besides the usual ones. -/
def escapable : Region → Text
  | .quoted | .arithmetic _ => ['"']
  | .quotedBraced _ => ['"', '\x7d']
  | _ => []

/-- What is wrong when a text ends here, if anything. -/
def openProblem? : Region → Option SyntaxProblem
  | .bare | .document => none
  | .braced | .quotedBraced _ => some .openBrace
  | .quoted => some .openQuote
  | .arithmetic _ => some .openArithmetic

end Region

/-- What a character does to the part of a word at hand. -/
inductive Meaning where
  | ends
  /-- Ends the part and is not a part of it. -/
  | closes
  | plain
  | moves (region : Region)
  | opensSingle
  | opensDouble
  | escapes
  | dollar
  | backquote
deriving DecidableEq, Repr

def Region.meaning (p : Region) (c : Char) (next : Option Char) : Meaning :=
  if c = '\\' then .escapes
  else if c = '$' then .dollar
  else if c = '\x60' then .backquote
  else match p with
    | .bare | .braced =>
      if c = '\'' then .opensSingle
      else if c = '"' then .opensDouble
      else if p = .braced then (if c = '\x7d' then .closes else .plain)
      else if endsWord c then .ends else .plain
    | .quoted => if c = '"' then .closes else .plain
    | .quotedBraced inner =>
      if c = '"' then .moves (.quotedBraced !inner)
      else if c = '\x7d' && !inner then .closes else .plain
    | .arithmetic depth =>
      if c = '(' then .moves (.arithmetic (depth + 1))
      else if c = ')' then
        if depth > 0 then .moves (.arithmetic (depth - 1))
        else if next = some ')' then .closes else .plain
      else .plain
    | .document => .plain

open Reading

/-- Reads a text between backquotes: the text of the commands in it. -/
def readBackquotes (quoted : Bool) : (fuel : Nat) → Reading Text
  | 0 => throw .openBackquote
  | fuel + 1 => do
    let _ ← peek
    match ← take with
    | none => throw .openBackquote
    | some c =>
      if c = '\x60' then return []
      else if c = '\\' then
        match ← take with
        | none => throw .openBackquote
        | some d =>
          let kept := if isEscapable (if quoted then ['"'] else []) d then [d] else [c, d]
          return kept ++ (← readBackquotes quoted fuel)
      else return c :: (← readBackquotes quoted fuel)

/-- Reads another text as if it stood here. -/
def within (text : Text) (read : Reading α) : Reading α := do
  let s ← get
  set { s with rest := text, ahead := none, asked := [] }
  let a ← read
  modify fun inner => { s with documents := inner.documents }
  return a

/-- Reads what stands in parentheses after a dollar sign, up to the token after it. -/
def nestedCommands (commands : Reading (List Command)) (closing : Reading Unit) :
    Reading (List Command) := do
  let s ← get
  set { s with ahead := none, asked := [] }
  let cs ← commands
  closing
  modify fun inner => { inner with ahead := none, asked := s.asked }
  return cs

/-- How words find the commands nested in them. -/
structure Nested where
  commands : Reading (List Command)
  /-- Reads the parenthesis that ends them. -/
  closing : Reading Unit

mutual

/-- Reads parts of a word up to where its region ends; the parts so far stand last first. -/
def readParts (nested : Nested) : (fuel : Nat) → Region → Word → Reading Word
  | 0, _, parts => return parts.reverse
  | fuel + 1, region, parts => do
    match ← peek with
    | none =>
      match region.openProblem? with
      | some problem => throw problem
      | none => return parts.reverse
    | some c =>
      let plain := pushChar region.isQuoted c parts
      match region.meaning c ((← get).rest)[1]? with
      | .ends => return parts.reverse
      | .closes =>
        let _ ← take
        if let .arithmetic _ := region then
          let _ ← take
        return parts.reverse
      | .plain =>
        let _ ← take
        readParts nested fuel region plain
      | .moves next =>
        let _ ← take
        match region with
        | .arithmetic _ => readParts nested fuel next plain
        | _ => readParts nested fuel next parts
      | .opensSingle =>
        let _ ← take
        let s ← get
        match splitOnce? '\'' s.rest with
        | none => throw .openQuote
        | some (inner, t) =>
          set { s with rest := t, line := s.line + inner.count '\n' }
          readParts nested fuel region (.text true inner :: parts)
      | .opensDouble =>
        let _ ← take
        let inner ← readParts nested fuel .quoted []
        let whole := match inner with
          | [.parameter true (.value ['@'])] => inner
          | _ => .text true [] :: inner
        readParts nested fuel region (whole.reverse ++ parts)
      | .escapes =>
        let _ ← take
        match ← take with
        | none => readParts nested fuel region (pushChar true c parts)
        | some d =>
          if !region.isQuoted || isEscapable region.escapable d then
            readParts nested fuel region (pushChar true d parts)
          else readParts nested fuel region (pushChar true d (pushChar true c parts))
      | .dollar =>
        let _ ← take
        match ← readDollar nested fuel region.isQuoted with
        | some part => readParts nested fuel region (part :: parts)
        | none => readParts nested fuel region plain
      | .backquote =>
        let _ ← take
        let text ← readBackquotes region.isQuoted fuel
        let cs ← within text nested.commands
        readParts nested fuel region (.output region.isQuoted cs :: parts)

/-- Reads what follows a dollar sign, if the sign means anything. -/
def readDollar (nested : Nested) : (fuel : Nat) → (quoted : Bool) → Reading (Option Part)
  | 0, _ => return none
  | fuel + 1, quoted => do
    match ← peek with
    | none => return none
    | some '(' =>
      let _ ← take
      if ← takeIf '(' then
        return some (.arithmetic quoted (← readParts nested fuel (.arithmetic 0) []))
      else return some (.output quoted (← nestedCommands nested.commands nested.closing))
    | some '\x7b' =>
      let _ ← take
      return some (.parameter quoted (← readBraces nested fuel quoted))
    | some c =>
      if isNameStart c then return some (.parameter quoted (.value (← takeWhile isNameChar fuel)))
      else if isSpecial c then
        let _ ← take
        return some (.parameter quoted (.value [c]))
      else return none

/-- Reads what stands between braces after a dollar sign. -/
def readBraces (nested : Nested) : (fuel : Nat) → (quoted : Bool) → Reading ParameterUse
  | 0, _ => throw .openBrace
  | fuel + 1, quoted => do
    let c := (← peek).getD '\x7d'
    if isNameStart c then readUse nested fuel quoted (← takeWhile isNameChar fuel)
    else if isDigit c then readUse nested fuel quoted (← takeWhile isDigit fuel)
    else if c = '\x7d' then readMalformed nested fuel quoted
    else
      let _ ← take
      let d := (← peek).getD '\x7d'
      if c = '#' then
        if isNameChar d then
          let name ← if isDigit d then takeWhile isDigit fuel else takeWhile isNameChar fuel
          if ← takeIf '\x7d' then return .length name else readMalformed nested fuel quoted
        else if d != '\x7d' && ((← get).rest)[1]? = some '\x7d' then
          if isSpecial d then
            let _ ← take
            let _ ← take
            return .length [d]
          else readMalformed nested fuel quoted
        else readUse nested fuel quoted [c]
      else if isSpecial c then readUse nested fuel quoted [c]
      else readMalformed nested fuel quoted

/-- Reads what is to be done with a parameter, up to the closing brace. -/
def readUse (nested : Nested) : (fuel : Nat) → (quoted : Bool) → (name : Text) → Reading ParameterUse
  | 0, _, _ => throw .openBrace
  | fuel + 1, quoted, name => do
    let inner : Region := if quoted then .quotedBraced false else .braced
    let colon ← takeIf ':'
    let c := (← peek).getD '\x7d'
    let fallback? : Option Fallback :=
      [('-', Fallback.word), ('=', .assigned), ('?', .complaint), ('+', .alternative)].lookup c
    match fallback? with
    | some fallback =>
      let _ ← take
      return .otherwise name colon fallback (← readParts nested fuel inner [])
    | none =>
      if colon then
        if c = '\x7d' then
          let _ ← take
          let _ ← readParts nested fuel inner []
          return .value name
        else readMalformed nested fuel quoted
      else if c = '\x7d' then
        if ← takeIf c then return .value name else throw .openBrace
      else if c = '%' || c = '#' then
        let _ ← take
        let longest ← takeIf c
        return .without name (c = '%') longest (← readParts nested fuel .braced [])
      else readMalformed nested fuel quoted

/-- Passes over the rest of what stands between braces. -/
def readMalformed (nested : Nested) : (fuel : Nat) → (quoted : Bool) → Reading ParameterUse
  | 0, _ => throw .openBrace
  | fuel + 1, quoted => do
    let _ ← readParts nested fuel (if quoted then .quotedBraced false else .braced) []
    return .malformed

end

/-- Lines up to the one that is the delimiter, and the rest. Where a backslash can join lines, a joined
line is no delimiter. -/
def takeDocument (a : AskedDocument) : (fuel : Nat) → (joined : Bool) → Text → Text × Text
  | 0, _, t => ([], t)
  | fuel + 1, joined, t =>
    if t.isEmpty then ([], [])
    else
      let whole := match splitOnce? '\n' t with
        | some (line, _) => line
        | none => t
      let line := if a.stripped && !joined then whole.dropWhile (· == '\t') else whole
      let after := t.drop (whole.length + 1)
      if line = a.delimiter && !joined then ([], after)
      else
        let joins := !a.literal && (line.reverse.takeWhile (· == '\\')).length % 2 = 1
        let (body, rest) := takeDocument a fuel joins after
        (line ++ (if whole.length < t.length then ['\n'] else []) ++ body, rest)

/-- Reads a here-document that starts here. -/
def readDocument (nested : Nested) (fuel : Nat) (a : AskedDocument) : Reading Unit := do
  let s ← get
  let (body, rest) := takeDocument a (s.rest.length + 1) false s.rest
  let read := s.rest.take (s.rest.length - rest.length)
  set { s with rest, line := s.line + read.count '\n' }
  let word ← if a.literal then pure [.text true body] else within body (readParts nested fuel .document [])
  modify fun s => { s with documents := s.documents.setIfInBounds a.number word }

/-- Reads the here-documents that the line just ended asks for. -/
def readDocuments (nested : Nested) (fuel : Nat) : Reading Unit := do
  let asked := (← get).asked
  modify fun s => { s with asked := [] }
  asked.forM (readDocument nested fuel)

end Shell

end CrashTriage
