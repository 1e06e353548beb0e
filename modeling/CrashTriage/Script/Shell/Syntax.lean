import CrashTriage.Text.Numeral

/-
Command lines of a POSIX shell as trees. Texts inside a shell are strings of bytes, each byte being the
character with its number. A word is a list of parts; a quoted part is neither split nor matched against
file names. The body of a here-document follows the line that asks for it, so a redirection names it by
its number.
-/
namespace CrashTriage

namespace Shell

open Text

/-- How a redirection opens a file. -/
inductive OpenMode where
  | read
  | readWrite
  | truncate
  /-- Truncates even where existing files are protected. -/
  | clobber
  | append
deriving DecidableEq, Repr

/-- What a parameter that is not set, or empty where `:` asks for it, is replaced by. -/
inductive Fallback where
  | word
  | assigned
  | complaint
  /-- The word stands for the parameter when it *is* set. -/
  | alternative
deriving DecidableEq, Repr

mutual

/-- A part of a word. -/
inductive Part where
  | text (quoted : Bool) (text : Text)
  | parameter (quoted : Bool) (use : ParameterUse)
  /-- What a list of commands prints. -/
  | output (quoted : Bool) (body : List Command)
  | arithmetic (quoted : Bool) (expression : List Part)

/-- What is made of a parameter. -/
inductive ParameterUse where
  | value (name : Text)
  | length (name : Text)
  | otherwise (name : Text) (orEmpty : Bool) (fallback : Fallback) (word : List Part)
  /-- The value without its shortest or longest start or end that fits a pattern. -/
  | without (name : Text) (atEnd longest : Bool) (pattern : List Part)
  /-- Fails when it is reached. -/
  | malformed

inductive Redirection where
  | file (descriptor : Nat) (mode : OpenMode) (name : List Part)
  | duplicate (descriptor : Nat) (source : List Part)
  | here (descriptor : Nat) (document : Nat)

inductive Command where
  | simple (line : Nat) (assignments : List (Text × List Part)) (words : List (List Part))
    (redirections : List Redirection)
  | negation (command : Command)
  /-- Commands each of which succeeds before the next one is run. -/
  | both (first second : Command)
  | either (first second : Command)
  | sequence (commands : List Command)
  | pipeline (commands : List Command)
  | background (command : Command)
  | subshell (line : Nat) (body : Command) (redirections : List Redirection)
  | redirected (line : Nat) (body : Command) (redirections : List Redirection)
  | condition (test body : Command) (otherwise : Option Command)
  | loop (untilTrue : Bool) (test body : Command)
  /-- Runs a body for each word, or for each positional parameter. -/
  | each (line : Nat) (name : Text) (words : Option (List (List Part))) (body : Command)
  | choice (line : Nat) (word : List Part) (cases : List (List (List Part) × Command))
  | define (line : Nat) (name : Text) (body : Command)

end

abbrev Word := List Part

/-! Names -/

def isNameStart (c : Char) : Bool := c.isAlpha || c == '_'

def isNameChar (c : Char) : Bool := isNameStart c || isDigit c

def isName (t : Text) : Bool := t.head?.any isNameStart && t.all isNameChar

/-- Names of parameters that are single marks. -/
def isSpecial (c : Char) : Bool := "#?$!-*@".toList.contains c || isDigit c

/-- Commands whose failure ends the shell, and whose assignments stay. -/
def specialNames : List Text :=
  [".", ":", "break", "continue", "eval", "exec", "exit", "export", "local", "readonly", "return",
    "set", "shift", "times", "trap", "unset"].map String.toList

/-- A word of the form `name=value`, taken apart. -/
def assignment? (word : Word) : Option (Text × Word) :=
  match word with
  | .text false t :: rest =>
    match splitOnce? '=' t with
    | some (name, value) =>
      if isName name then some (name, if value.isEmpty then rest else .text false value :: rest)
      else none
    | none => none
  | _ => none

/-! Why a text is no list of commands -/

inductive SyntaxProblem where
  | unexpected (found : Text) (expected : Option Text)
  | openQuote
  | openBrace
  | openArithmetic
  | openBackquote
  | badLoopName
  | badFunctionName
  | badDescriptor
deriving DecidableEq, Repr

def SyntaxProblem.message : SyntaxProblem → Text
  | .unexpected found none => found ++ " unexpected".toList
  | .unexpected found (some expected) =>
    found ++ " unexpected (expecting ".toList ++ expected ++ [')']
  | .openQuote => "Unterminated quoted string".toList
  | .openBrace => "Missing '\x7d'".toList
  | .openArithmetic => "Missing '))'".toList
  | .openBackquote => "EOF in backquote substitution".toList
  | .badLoopName => "Bad for loop variable".toList
  | .badFunctionName => "Bad function name".toList
  | .badDescriptor => "Bad fd number".toList

end Shell

end CrashTriage
