import CrashTriage.Text.Numeral

/-
Places in a YAML text. Lines end at a line feed, a carriage return, both, or at one of the separators
U+0085, U+2028 and U+2029; the last two are kept where a line end is kept, all others become line feeds.
-/
namespace CrashTriage

namespace Yaml

open Text

def isSpace (c : Char) : Bool := c == ' ' || c == '\t'

def isBreak (c : Char) : Bool :=
  c == '\n' || c == '\r' || c == '\u0085' || c == '\u2028' || c == '\u2029'

/-- May a mark of one character end here? -/
def endsMark : Option Char → Bool
  | none => true
  | some c => isSpace c || isBreak c

def isNameChar (c : Char) : Bool :=
  ('a' ≤ c && c ≤ 'z') || ('A' ≤ c && c ≤ 'Z') || isDigit c || c == '_' || c == '-'

/-- The text from a place on, with the number of its line and of its column, and the number of
characters before it. -/
structure Cursor where
  rest : Text
  line : Nat
  column : Nat
  index : Nat
deriving DecidableEq, Repr

namespace Cursor

def ofText (t : Text) : Cursor := ⟨t, 0, 0, 0⟩

def at? (c : Cursor) (n : Nat) : Option Char := c.rest[n]?

def starts (c : Cursor) (d : Char) : Bool := c.rest.head? == some d

/-- Passes over characters of one line. -/
def advance (c : Cursor) (n : Nat) : Cursor :=
  { c with rest := c.rest.drop n, column := c.column + n, index := c.index + n }

def advanceWhile (c : Cursor) (p : Char → Bool) : Cursor :=
  c.advance (c.rest.takeWhile p).length

def atSpace (c : Cursor) : Bool := c.rest.head?.any isSpace

def atBreak (c : Cursor) : Bool := c.rest.head?.any isBreak

/-- Is this the end of a line or of the text? -/
def atLineEnd (c : Cursor) : Bool := c.rest.head?.all isBreak

/-- Passes over a line end and tells how it is kept; anywhere else, nothing happens. -/
def takeBreak (c : Cursor) : Text × Cursor :=
  match c.rest with
  | '\r' :: '\n' :: t => (['\n'], ⟨t, c.line + 1, 0, c.index + 2⟩)
  | d :: t =>
    if !isBreak d then ([], c)
    else
      let kept := if d = '\u2028' || d = '\u2029' then d else '\n'
      ([kept], ⟨t, c.line + 1, 0, c.index + 1⟩)
  | [] => ([], c)

def skipBreak (c : Cursor) : Cursor := c.takeBreak.2

/-- Is there a mark of three characters at the start of a line, with a blank or nothing after it? -/
def atMark (c : Cursor) (d : Char) : Bool :=
  c.column == 0 && c.rest.take 3 == [d, d, d] && endsMark (c.at? 3)

def atDocumentMark (c : Cursor) : Bool := c.atMark '-' || c.atMark '.'

/-- Passes over blanks, a comment and the end of the line; anything else on the line is refused. -/
def finishLine? (c : Cursor) : Option Cursor :=
  let c := c.advanceWhile isSpace
  let c := if c.starts '#' then c.advanceWhile (!isBreak ·) else c
  if c.atLineEnd then some c.skipBreak else none

end Cursor

end Yaml

end CrashTriage
