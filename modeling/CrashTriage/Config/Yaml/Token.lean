import CrashTriage.Config.Yaml.Scalar
import CrashTriage.Text.Bytes

/-
Tokens of YAML: indentation and the marks of collections, keys and values, and the scalars between them.
Whether something is a key shows only when a colon follows on the same line, so the places where a key
may stand are kept, one for each level of brackets, and the marks of a key are put there later.
-/
namespace CrashTriage

namespace Yaml

open Text

/-- A tag as it is written: the handle of a known beginning, and the bytes after it. -/
structure Tag where
  handle : Text
  suffix : Bytes
deriving DecidableEq, Repr

inductive Token where
  | versionDirective (major minor : Nat)
  /-- Lets a handle stand for the beginning of tags. -/
  | tagDirective (handle : Text) (beginning : Bytes)
  | documentStart
  | documentEnd
  | blockSequenceStart
  | blockMappingStart
  | blockEnd
  | flowSequenceStart
  | flowSequenceEnd
  | flowMappingStart
  | flowMappingEnd
  | blockEntry
  | flowEntry
  | key
  | value
  | anchor (name : Text)
  | reference (name : Text)
  | tag (tag : Tag)
  | scalar (text : Text) (style : ScalarStyle)
deriving DecidableEq, Repr

/-- A place where a key may have started. -/
structure KeyPlace where
  /-- Must a key stand here, because the block leaves nothing else? -/
  required : Bool
  /-- The number of tokens before it. -/
  token : Nat
  place : Cursor
deriving DecidableEq, Repr

/-- How far the tokens of a text have been read. -/
structure Scan where
  cursor : Cursor
  tokens : Array Token
  /-- The column of the innermost block, and those of the blocks around it. -/
  indent : Int
  outerIndents : List Int
  /-- May a key start at the next token? -/
  keyAllowed : Bool
  keyPlace : Option KeyPlace
  /-- The places on the levels of brackets around this one. -/
  outerKeyPlaces : List (Option KeyPlace)
deriving Repr

namespace Scan

def start (t : Text) : Scan := ⟨.ofText t, #[], -1, [], true, none, []⟩

def inFlow (s : Scan) : Bool := !s.outerKeyPlaces.isEmpty

def push (s : Scan) (t : Token) : Scan := { s with tokens := s.tokens.push t }

/-- Adds a token of so many characters. -/
def take (s : Scan) (n : Nat) (t : Token) : Scan := { s.push t with cursor := s.cursor.advance n }

/-- Closes the blocks that stand deeper than a column. -/
def closeBlocks (s : Scan) (column : Int) : Scan :=
  if s.inFlow then s
  else
    let rec close (s : Scan) : List Int → Scan
      | [] => s
      | outer :: rest =>
        if s.indent > column then
          close { s.push .blockEnd with indent := outer, outerIndents := rest } rest
        else s
    close s s.outerIndents

/-- Opens a block at a column that is deeper than the innermost one; its mark goes before the token
with the given number, or to the end. -/
def openBlock (s : Scan) (column : Nat) (mark : Token) (before : Option Nat) : Scan :=
  if s.inFlow || (column : Int) ≤ s.indent then s
  else
    let tokens := match before with
      | some n => s.tokens.insertIdxIfInBounds n mark
      | none => s.tokens.push mark
    { s with tokens, indent := column, outerIndents := s.indent :: s.outerIndents }

/-- Gives up the place of a key, unless a key must stand there. -/
def dropKeyPlace? (s : Scan) : Option Scan :=
  if s.keyPlace.any (·.required) then none else some { s with keyPlace := none }

/-- Keeps the current place as one where a key may stand. -/
def saveKeyPlace? (s : Scan) : Option Scan :=
  if !s.keyAllowed then some s
  else do
    let required := !s.inFlow && s.indent = s.cursor.column
    let s ← s.dropKeyPlace?
    pure { s with keyPlace := some ⟨required, s.tokens.size, s.cursor⟩ }

/-- A key lies on one line and has at most 1024 characters. -/
def KeyPlace.isStale (k : KeyPlace) (c : Cursor) : Bool :=
  k.place.line < c.line || k.place.index + 1024 < c.index

/-- Gives up all places where a key can no longer stand. -/
def dropStalePlaces? (s : Scan) : Option Scan :=
  let stale := fun (k : Option KeyPlace) => k.any (KeyPlace.isStale · s.cursor)
  let all := s.keyPlace :: s.outerKeyPlaces
  if all.any fun k => stale k && k.any (·.required) then none
  else
    let keep := fun k => if stale k then none else k
    some { s with keyPlace := keep s.keyPlace, outerKeyPlaces := s.outerKeyPlaces.map keep }

/-- Passes over blanks, comments and line ends. In a block, tabs are no blanks where a key may stand. -/
def skipToToken : (fuel : Nat) → Scan → Scan
  | 0, s => s
  | fuel + 1, s =>
    let c := if s.cursor.column = 0 && s.cursor.starts '\uFEFF' then s.cursor.advance 1 else s.cursor
    let c := c.advanceWhile fun d => d == ' ' || (d == '\t' && (s.inFlow || !s.keyAllowed))
    let c := if c.starts '#' then c.advanceWhile (!isBreak ·) else c
    if c.atBreak then
      skipToToken fuel { s with cursor := c.skipBreak, keyAllowed := s.keyAllowed || !s.inFlow }
    else { s with cursor := c }

/-! Directives, anchors and tags -/

def readNumber? (c : Cursor) : Option (Nat × Cursor) :=
  let digits := c.rest.takeWhile isDigit
  if digits.isEmpty || digits.length > 9 then none
  else (readNat? digits).map (·, c.advance digits.length)

/-- A handle: a mark, perhaps with a name and a second mark. In a directive a name needs the second
mark. -/
def readHandle? (directive : Bool) (c : Cursor) : Option (Text × Cursor) :=
  if !c.starts '!' then none
  else
    let name := (c.rest.drop 1).takeWhile isNameChar
    let after := c.advance (name.length + 1)
    if after.starts '!' then some ('!' :: name ++ ['!'], after.advance 1)
    else if directive && !name.isEmpty then none
    else some ('!' :: name, after)

/-- The bytes of an escaped character: as many escapes as its first byte announces. -/
def readEscapedBytes? : (count : Nat) → (first : Bool) → Text → Option Bytes
  | 0, _, _ => some []
  | count + 1, first, t =>
    match t with
    | '%' :: a :: b :: t => do
      let n := (← hexDigit? a) * 16 + (← hexDigit? b)
      if first then
        let size ← if n < 0x80 then some 0 else if 0xC0 ≤ n && n < 0xE0 then some 1
          else if 0xE0 ≤ n && n < 0xF0 then some 2 else if 0xF0 ≤ n && n < 0xF8 then some 3 else none
        (readEscapedBytes? (min count size) false t).map (UInt8.ofNat n :: ·)
      else if 0x80 ≤ n && n < 0xC0 then
        (readEscapedBytes? count false t).map (UInt8.ofNat n :: ·)
      else none
    | _ => none

def isUriChar (verbatim : Bool) (c : Char) : Bool :=
  isNameChar c || ";/?:@&=+$.%!~*'()".toList.contains c || (verbatim && [',', '[', ']'].contains c)

/-- The rest of a tag. -/
def readUri? (verbatim : Bool) : (fuel : Nat) → Cursor → Option (Bytes × Cursor)
  | 0, _ => none
  | fuel + 1, c =>
    match c.rest with
    | d :: _ =>
      if !isUriChar verbatim d then some ([], c)
      else do
        let bytes ← if d = '%' then readEscapedBytes? 4 true c.rest else some (toBytes [d])
        let size := if d = '%' then 3 * bytes.length else 1
        let (more, c) ← readUri? verbatim fuel (c.advance size)
        pure (bytes ++ more, c)
    | [] => some ([], c)

def uri? (verbatim : Bool) (c : Cursor) : Option (Bytes × Cursor) :=
  readUri? verbatim (c.rest.length + 1) c

/-- A tag. Its bytes count up to a zero byte. -/
def readTag? (flow : Bool) (c : Cursor) : Option (Tag × Cursor) := do
  let visible := fun (bytes : Bytes) => bytes.takeWhile (· != 0)
  let (tag, c) ←
    if c.at? 1 = some '<' then do
      let (bytes, c) ← uri? true (c.advance 2)
      if bytes.isEmpty || !c.starts '>' then none
      pure (Tag.mk [] (visible bytes), c.advance 1)
    else do
      let (handle, after) ← readHandle? false c
      if handle.length > 1 && handle.getLast? = some '!' then do
        let (bytes, c) ← uri? false after
        if bytes.isEmpty then none
        pure (Tag.mk handle (visible bytes), c)
      else do
        let (bytes, c) ← uri? false after
        let bytes := visible (toBytes handle.tail ++ bytes)
        pure (if bytes.isEmpty then Tag.mk [] (toBytes ['!']) else Tag.mk ['!'] bytes, c)
  if (flow && c.starts ',') || endsMark c.rest.head? then pure (tag, c) else none

/-- The name of an anchor or a reference, its mark having been read. -/
def readName? (c : Cursor) : Option (Text × Cursor) :=
  let name := c.rest.takeWhile isNameChar
  let after := c.advance name.length
  let ends := match after.rest.head? with
    | none => true
    | some d => isSpace d || isBreak d || "?:,]\x7d%@\x60".toList.contains d
  if name.isEmpty || !ends then none else some (name, after)

/-- A directive, from its mark to the end of the line. -/
def readDirective? (c : Cursor) : Option (Token × Cursor) := do
  let c := c.advance 1
  let name := c.rest.takeWhile isNameChar
  let c := c.advance name.length
  if name.isEmpty || !endsMark c.rest.head? then none
  let c := c.advanceWhile isSpace
  let (token, c) ←
    if name = "YAML".toList then do
      let (major, c) ← readNumber? c
      if !c.starts '.' then none
      let (minor, c) ← readNumber? (c.advance 1)
      pure (Token.versionDirective major minor, c)
    else if name = "TAG".toList then do
      let (handle, c) ← readHandle? true c
      if !c.atSpace then none
      let (bytes, c) ← uri? true (c.advanceWhile isSpace)
      if bytes.isEmpty || !endsMark c.rest.head? then none
      pure (Token.tagDirective handle (bytes.takeWhile (· != 0)), c)
    else none
  pure (token, ← c.finishLine?)

/-! Tokens in turn -/

/-- Takes in a token that was read apart; a key may start at it. -/
def keyed? (s : Scan) (read : Cursor → Option (Token × Cursor)) : Option Scan := do
  let s ← s.saveKeyPlace?
  let (token, c) ← read s.cursor
  pure { s.push token with cursor := c, keyAllowed := false }

/-- A mark at the left margin, which ends all blocks. -/
def margin? (s : Scan) (read : Cursor → Option (Token × Cursor)) : Option Scan := do
  let s ← (s.closeBlocks (-1)).dropKeyPlace?
  let (token, c) ← read s.cursor
  pure { s.push token with cursor := c, keyAllowed := false }

def openFlow? (s : Scan) (mark : Token) : Option Scan := do
  let s ← s.saveKeyPlace?
  pure { s.take 1 mark with
    keyAllowed := true, keyPlace := none, outerKeyPlaces := s.keyPlace :: s.outerKeyPlaces }

def closeFlow? (s : Scan) (mark : Token) : Option Scan := do
  let s ← s.dropKeyPlace?
  let s := { s.take 1 mark with keyAllowed := false }
  match s.outerKeyPlaces with
  | place :: rest => pure { s with keyPlace := place, outerKeyPlaces := rest }
  | [] => pure s

def flowEntry? (s : Scan) : Option Scan := do
  let s ← s.dropKeyPlace?
  pure { s.take 1 .flowEntry with keyAllowed := true }

def blockEntry? (s : Scan) : Option Scan := do
  if !s.inFlow && !s.keyAllowed then none
  let s ← (s.openBlock s.cursor.column .blockSequenceStart none).dropKeyPlace?
  pure { s.take 1 .blockEntry with keyAllowed := true }

def explicitKey? (s : Scan) : Option Scan := do
  if !s.inFlow && !s.keyAllowed then none
  let s ← (s.openBlock s.cursor.column .blockMappingStart none).dropKeyPlace?
  pure { s.take 1 .key with keyAllowed := !s.inFlow }

/-- A colon, which makes a key of what stands at the place kept last. -/
def value? (s : Scan) : Option Scan :=
  match s.keyPlace with
  | some place =>
    let s := { s with tokens := s.tokens.insertIdxIfInBounds place.token .key, keyPlace := none }
    let s := s.openBlock place.place.column .blockMappingStart (some place.token)
    some { s.take 1 .value with keyAllowed := false }
  | none => do
    if !s.inFlow && !s.keyAllowed then none
    let s := s.openBlock s.cursor.column .blockMappingStart none
    pure { s.take 1 .value with keyAllowed := !s.inFlow }

def blockScalar? (s : Scan) (folded : Bool) : Option Scan := do
  let s ← s.dropKeyPlace?
  let (text, c) ← readBlock? folded s.indent (s.cursor.advance 1)
  pure { s.push (.scalar text (if folded then .folded else .literal)) with cursor := c, keyAllowed := true }

def quotedScalar? (s : Scan) (quote : Char) : Option Scan :=
  s.keyed? fun c => do
    let (text, c) ← readQuoted? quote (c.rest.length + 1) (c.advance 1) []
    pure (.scalar text .quoted, c)

def plainScalar? (s : Scan) : Option Scan := do
  let s ← s.saveKeyPlace?
  let (text, gap, c) ← readPlain? s.inFlow (s.indent + 1) (s.cursor.rest.length + 1) s.cursor [] .none
  pure { s.push (.scalar text .plain) with cursor := c, keyAllowed := gap.broken }

/-- Can a plain scalar start here? -/
def startsPlain (flow : Bool) (c : Cursor) : Bool :=
  match c.rest with
  | [] => false
  | d :: t =>
    let indicators := "-?:,[]\x7b\x7d#&*!|>'\"%@\x60".toList
    !(endsMark (some d) || indicators.contains d) || (d == '-' && !t.head?.any isSpace) ||
      (!flow && (d == '?' || d == ':') && !endsMark t.head?)

/-- Reads the next token; there is one. -/
def next? (s : Scan) : Option Scan :=
  let c := s.cursor
  let flow := s.inFlow
  let isolated := endsMark (c.at? 1)
  match c.rest with
  | [] => none
  | d :: _ =>
    if c.column = 0 && d = '%' then s.margin? readDirective?
    else if c.atMark '-' then s.margin? fun c => some (.documentStart, c.advance 3)
    else if c.atMark '.' then s.margin? fun c => some (.documentEnd, c.advance 3)
    else if d = '[' then s.openFlow? .flowSequenceStart
    else if d = '\x7b' then s.openFlow? .flowMappingStart
    else if d = ']' then s.closeFlow? .flowSequenceEnd
    else if d = '\x7d' then s.closeFlow? .flowMappingEnd
    else if d = ',' then s.flowEntry?
    else if d = '-' && isolated then s.blockEntry?
    else if d = '?' && (flow || isolated) then s.explicitKey?
    else if d = ':' && (flow || isolated) then s.value?
    else if d = '*' then
      s.keyed? fun c => (readName? (c.advance 1)).map fun (name, c) => (.reference name, c)
    else if d = '&' then
      s.keyed? fun c => (readName? (c.advance 1)).map fun (name, c) => (.anchor name, c)
    else if d = '!' then s.keyed? fun c => (readTag? flow c).map fun (tag, c) => (.tag tag, c)
    else if (d = '|' || d = '>') && !flow then s.blockScalar? (d = '>')
    else if d = '\'' || d = '"' then s.quotedScalar? d
    else if startsPlain flow c then s.plainScalar?
    else none

/-- Reads tokens to the end of the text, where all blocks end. -/
def run? : (fuel : Nat) → Scan → Option (List Token)
  | 0, _ => none
  | fuel + 1, s => do
    let s ← (skipToToken (s.cursor.rest.length + 1) s).dropStalePlaces?
    let s := s.closeBlocks s.cursor.column
    if s.cursor.rest.isEmpty then
      let s ← (s.closeBlocks (-1)).dropKeyPlace?
      pure s.tokens.toList
    else run? fuel (← s.next?)

end Scan

/-- Characters that may stand in a document. -/
def isPrintable (c : Char) : Bool :=
  let n := c.toNat
  n == 9 || n == 10 || n == 13 || (0x20 ≤ n && n ≤ 0x7E) || n == 0x85 ||
    (0xA0 ≤ n && n ≤ 0xFFFD) || 0x10000 ≤ n

/-- The tokens of a text. -/
def Token.ofText? (t : Text) : Option (List Token) :=
  if t.all isPrintable then Scan.run? (t.length + 1) (.start t) else none

end Yaml

end CrashTriage
