import CrashTriage.Text.Basic

/-
The status file of a dpkg database: stanzas of `Key: value` lines separated by blank lines. Keys are
compared without regard to the case of ASCII letters, of a repeated key the last line counts, and
lines that start with a space or a tab continue a field that is of no interest here.
-/
namespace CrashTriage

structure StatusEntry where
  identifier : Text
  name : Option Text
  author : Option Text
  maintainer : Option Text
  installed : Bool
deriving DecidableEq, Repr

namespace StatusEntry

open Text

/-- The text between two line feeds in a row, and after the last such pair. -/
def splitStanzas : Text → List Text
  | [] => [[]]
  | ['\n'] => [['\n']]
  | '\n' :: '\n' :: t => [] :: splitStanzas t
  | c :: t =>
    match splitStanzas t with
    | [] => [[c]]
    | stanza :: rest => (c :: stanza) :: rest

def isContinuation (line : Text) : Bool := startsWith line [' '] || startsWith line ['\t']

/-- The lower-case key and the value of a line. -/
def readField? (line : Text) : Option (Text × Text) :=
  if isContinuation line then none
  else (splitOnce? ':' line).map fun (key, value) => (toLowerAscii (trim key), trim value)

/-- The fields of a stanza, the last line first. -/
def readFields (stanza : Text) : List (Text × Text) := ((lines stanza).filterMap readField?).reverse

def isInstalled (status : Text) : Bool := (words status).getLast? == some "installed".toList

/-- The entry of a stanza that names a package. -/
def read? (stanza : Text) : Option StatusEntry := do
  let fields := readFields stanza
  let identifier ← fields.lookup "package".toList
  pure {
    identifier
    name := fields.lookup "name".toList
    author := fields.lookup "author".toList
    maintainer := fields.lookup "maintainer".toList
    installed := ((fields.lookup "status".toList).map isInstalled).getD false }

def readAll (body : Text) : List StatusEntry := (splitStanzas body).filterMap read?

end StatusEntry

end CrashTriage
