import CrashTriage.Text.Bytes
import CrashTriage.Text.Numeral

/-
XML cut into tags, text and references. Comments, instructions, character data sections and document
type declarations are passed over wherever they stand; only the declaration at the head of a document
is told. Blanks inside tags are spaces, tabs and line ends of ASCII.
-/
namespace CrashTriage

open Text

inductive Markup where
  | declaration
  | opening (name : Text)
  | closing (name : Text)
  | text (text : Text)
  /-- What stands between an ampersand and a semicolon. -/
  | reference (name : Text)
deriving DecidableEq, Repr

namespace Markup

def isBlank (c : Char) : Bool := c == ' ' || c == '\t' || c == '\n' || c == '\r'

/-- The inside of a tag up to the bracket that closes it, which may stand between quotes. -/
def readTag? : (quote : Option Char) → Text → Option (Text × Text)
  | _, [] => none
  | none, '>' :: t => some ([], t)
  | some q, c :: t =>
    (readTag? (if c = q then none else some q) t).map fun (a, b) => (c :: a, b)
  | none, c :: t =>
    (readTag? (if c = '"' || c = '\'' then some c else none) t).map fun (a, b) => (c :: a, b)

/-- Where the reading of a document type declaration stands. -/
inductive DoctypePlace where
  | head
  | headQuoted (quote : Char)
  | subset
  | rule
  | ruleQuoted (quote : Char)
  | comment
  | instruction
  | tail
deriving DecidableEq, Repr

/-- The text after a document type declaration. Brackets hold rules, comments and instructions, and
quotes protect all marks. -/
def skipDoctype? : DoctypePlace → Text → Option Text
  | _, [] => none
  | .head, c :: t =>
    if c = '>' then some t
    else if c = '[' then skipDoctype? .subset t
    else if c = '"' || c = '\'' then skipDoctype? (.headQuoted c) t
    else skipDoctype? .head t
  | .headQuoted q, c :: t => skipDoctype? (if c = q then .head else .headQuoted q) t
  | .subset, '<' :: '!' :: '-' :: '-' :: t => skipDoctype? .comment t
  | .subset, '<' :: '?' :: t => skipDoctype? .instruction t
  | .subset, c :: t =>
    skipDoctype? (if c = ']' then .tail else if c = '<' then .rule else .subset) t
  | .rule, c :: t =>
    if c = '>' then skipDoctype? .subset t
    else skipDoctype? (if c = '"' || c = '\'' then .ruleQuoted c else .rule) t
  | .ruleQuoted q, c :: t => skipDoctype? (if c = q then .rule else .ruleQuoted q) t
  | .comment, '-' :: '-' :: '>' :: t => skipDoctype? .subset t
  | .comment, _ :: t => skipDoctype? .comment t
  | .instruction, '?' :: '>' :: t => skipDoctype? .subset t
  | .instruction, _ :: t => skipDoctype? .instruction t
  | .tail, c :: t => if c = '>' then some t else skipDoctype? .tail t

/-- The text after a markup that starts with `<!`: a comment, character data, or a document type
declaration with a name. -/
def skipBang? (t : Text) : Option Text :=
  match strip? "--".toList t with
  | some t => (splitAt? "-->".toList t).map (·.2)
  | none =>
    match strip? "[CDATA[".toList t with
    | some t => (splitAt? "]]>".toList t).map (·.2)
    | none =>
      if toLowerAscii (t.take 7) = "doctype".toList &&
          ((t.drop 7).dropWhile isBlank).head? ≠ some '>' then
        skipDoctype? .head (t.drop 7)
      else none

/-- Is this the inside of the declaration at the head of a document? -/
def isDeclaration (inner : Text) : Bool :=
  match strip? "xml".toList inner with
  | some rest => rest.head?.all isBlank
  | none => false

/-- Cuts a document; what cannot be read ends the list with nothing after it. -/
def readAll : (fuel : Nat) → Text → List (Option Markup)
  | 0, _ => [none]
  | _ + 1, [] => []
  | fuel + 1, '<' :: '?' :: t =>
    match if t.head? = some '>' then none else splitAt? "?>".toList t with
    | some (inner, t) =>
      if isDeclaration inner then some .declaration :: readAll fuel t else readAll fuel t
    | none => [none]
  | fuel + 1, '<' :: '!' :: t =>
    match skipBang? t with
    | some t => readAll fuel t
    | none => [none]
  | fuel + 1, '<' :: '/' :: t =>
    match splitOnce? '>' t with
    | some (name, t) => some (.closing (dropEndWhile isBlank name)) :: readAll fuel t
    | none => [none]
  | fuel + 1, '<' :: t =>
    match readTag? none t with
    | none => [none]
    | some (inner, t) =>
      let isEmpty := endsWith inner ['/']
      let inner := if isEmpty then inner.dropLast else inner
      let name := inner.takeWhile fun c => !isBlank c
      if isEmpty then some (.opening name) :: some (.closing name) :: readAll fuel t
      else some (.opening name) :: readAll fuel t
  | fuel + 1, '&' :: t =>
    let name := t.takeWhile fun c => c != ';' && c != '&' && c != '<'
    match t.drop name.length with
    | ';' :: t => some (.reference name) :: readAll fuel t
    | _ => [none]
  | fuel + 1, t =>
    let isText := fun c => c != '<' && c != '&'
    some (.text (t.takeWhile isText)) :: readAll fuel (t.dropWhile isText)

def ofText (t : Text) : List (Option Markup) :=
  readAll (t.length + 1) ((strip? ['\uFEFF'] t).getD t)

/-! References -/

/-- The character of a reference by number; nothing inside when the number names none. -/
def numbered? (name : Text) : Option (Option Char) :=
  let read := fun (radix : Nat) (digits : Text) =>
    let n := digits.foldl (fun n c => n * radix + (hexDigit? c).getD 0) 0
    let fits := digits.all fun c => (hexDigit? c).any (· < radix)
    if digits.isEmpty || !fits || n = 0 || !n.isValidChar then none else some (Char.ofNat n)
  match name with
  | '#' :: 'x' :: digits => some (read 16 digits)
  | '#' :: digits => some (read 10 digits)
  | _ => none

def named : List (String × Char) :=
  [("lt", '<'), ("gt", '>'), ("amp", '&'), ("quot", '"'), ("apos", '\'')]

/-- The text that a reference stands for; nothing for an unknown name. -/
def referenced? (name : Text) : Option Text :=
  match numbered? name with
  | some c => c.map fun c => [c]
  | none => some ((named.find? fun known => known.1.toList == name).map (·.2)).toList

end Markup

end CrashTriage
