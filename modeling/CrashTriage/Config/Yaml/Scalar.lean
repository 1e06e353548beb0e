import CrashTriage.Config.Yaml.Cursor

/-
Scalars of YAML. A plain scalar ends at a colon with a blank after it, at a comment or, inside brackets,
at a mark of theirs. Plain and quoted scalars fold their line ends; double quotes know escapes. Block
scalars keep their line ends, or fold those between lines that do not start with a blank.
-/
namespace CrashTriage

namespace Yaml

open Text

inductive ScalarStyle where
  | plain
  | quoted
  | literal
  | folded
deriving DecidableEq, Repr

/-- What stands between two words of a scalar: blanks, or line ends, the first apart. -/
structure Gap where
  spaces : Text
  broken : Bool
  first : Text
  more : Text
deriving DecidableEq, Repr

namespace Gap

def none : Gap := ⟨[], false, [], []⟩

/-- A single line end becomes a blank; of several the first is left out. -/
def text (g : Gap) : Text :=
  if !g.broken then g.spaces
  else if g.first = ['\n'] then (if g.more.isEmpty then [' '] else g.more)
  else g.first ++ g.more

/-- Reads on over blanks and line ends. In front of the column `limit` no tab may indent a line. -/
def read? (limit : Int) : (fuel : Nat) → Cursor → Gap → Option (Gap × Cursor)
  | 0, c, g => some (g, c)
  | fuel + 1, c, g =>
    match c.rest with
    | d :: _ =>
      if isSpace d then
        if !g.broken then read? limit fuel (c.advance 1) { g with spaces := g.spaces ++ [d] }
        else if d = '\t' && (c.column : Int) < limit then .none
        else read? limit fuel (c.advance 1) g
      else if isBreak d then
        let (kept, c) := c.takeBreak
        if g.broken then read? limit fuel c { g with more := g.more ++ kept }
        else read? limit fuel c ⟨[], true, kept, g.more⟩
      else some (g, c)
    | [] => some (g, c)

end Gap

/-! Plain scalars -/

def isFlowMark (c : Char) : Bool := [',', '[', ']', '\x7b', '\x7d'].contains c

/-- The part of a plain scalar up to a blank or to its end. A colon right before a mark of brackets is
refused inside them. -/
def plainWord? (flow : Bool) : Text → Option Text
  | [] => some []
  | c :: t =>
    if isSpace c || isBreak c then some []
    else if flow && c == ':' && t.head?.any (fun d => isFlowMark d || d == '?') then none
    else if (c == ':' && endsMark t.head?) || (flow && isFlowMark c) then some []
    else (plainWord? flow t).map (c :: ·)

/-- Reads words of a plain scalar whose lines stand at `indent` or deeper; tells what stands after the
last word. -/
def readPlain? (flow : Bool) (indent : Int) :
    (fuel : Nat) → Cursor → (done : Text) → Gap → Option (Text × Gap × Cursor)
  | 0, c, done, gap => some (done, gap, c)
  | fuel + 1, c, done, gap =>
    if c.atDocumentMark || c.starts '#' then some (done, gap, c)
    else do
      let word ← plainWord? flow c.rest
      let c := c.advance word.length
      let (done, gap) := if word.isEmpty then (done, gap) else (done ++ gap.text ++ word, Gap.none)
      if !(c.atSpace || c.atBreak) then pure (done, gap, c)
      else
        let (gap, c) ← Gap.read? indent (c.rest.length + 1) c gap
        if !flow && (c.column : Int) < indent then pure (done, gap, c)
        else readPlain? flow indent fuel c done gap

/-! Quoted scalars -/

/-- The character of an escape with a number of so many digits. -/
def numbered? (count : Nat) (t : Text) : Option Char :=
  let digits := t.take count
  let n := digits.foldl (fun n c => n * 16 + (hexDigit? c).getD 0) 0
  if digits.length = count && digits.all isHexDigit && n.isValidChar then some (Char.ofNat n)
  else none

def escapes : List (Char × Char) :=
  [('0', '\x00'), ('a', '\x07'), ('b', '\x08'), ('t', '\t'), ('\t', '\t'), ('n', '\n'),
    ('v', '\x0b'), ('f', '\x0c'), ('r', '\r'), ('e', '\x1b'), (' ', ' '), ('"', '"'), ('/', '/'),
    ('\\', '\\'), ('N', '\u0085'), ('_', '\u00A0'), ('L', '\u2028'), ('P', '\u2029')]

/-- The character of an escape after its backslash, and the number of characters it takes. -/
def readEscape? : Text → Option (Char × Nat)
  | 'x' :: t => (numbered? 2 t).map (·, 3)
  | 'u' :: t => (numbered? 4 t).map (·, 5)
  | 'U' :: t => (numbered? 8 t).map (·, 9)
  | c :: _ => (escapes.lookup c).map (·, 1)
  | [] => none

/-- The part of a quoted scalar up to a blank or to its closing quote; tells whether an escaped line end
stands at its end, which then has been passed over. -/
def quotedPart? (quote : Char) :
    (fuel : Nat) → Cursor → (done : Text) → Option (Text × Bool × Cursor)
  | 0, c, done => some (done, false, c)
  | fuel + 1, c, done =>
    match c.rest with
    | [] => some (done, false, c)
    | d :: t =>
      if isSpace d || isBreak d then some (done, false, c)
      else if quote = '\'' && d = '\'' && t.head? = some '\'' then
        quotedPart? quote fuel (c.advance 2) (done ++ ['\''])
      else if d = quote then some (done, false, c)
      else if quote = '"' && d = '\\' then
        if t.head?.any isBreak then some (done, true, (c.advance 1).skipBreak)
        else do
          let (e, size) ← readEscape? t
          quotedPart? quote fuel (c.advance (size + 1)) (done ++ [e])
      else quotedPart? quote fuel (c.advance 1) (done ++ [d])

/-- The content of a quoted scalar after its opening quote. -/
def readQuoted? (quote : Char) : (fuel : Nat) → Cursor → (done : Text) → Option (Text × Cursor)
  | 0, _, _ => none
  | fuel + 1, c, done =>
    if c.atDocumentMark || c.rest.isEmpty then none
    else do
      let (part, broken, c) ← quotedPart? quote (c.rest.length + 1) c []
      if c.starts quote then pure (done ++ part, c.advance 1)
      else
        let (gap, c) ← Gap.read? 0 (c.rest.length + 1) c { Gap.none with broken }
        readQuoted? quote fuel c (done ++ part ++ gap.text)

/-! Block scalars -/

/-- Which line ends at its tail a block scalar keeps. -/
inductive Chomp where
  | one
  | none
  | all
deriving DecidableEq, Repr

def readChomp (c : Cursor) : Chomp × Cursor :=
  if c.starts '-' then (.none, c.advance 1)
  else if c.starts '+' then (.all, c.advance 1)
  else (.one, c)

/-- How much deeper than its surroundings a block scalar stands, if its head tells. -/
def readDepth? (c : Cursor) : Option (Option Nat × Cursor) :=
  match c.rest with
  | d :: _ =>
    if d = '0' then none
    else if isDigit d then some (some (d.toNat - 48), c.advance 1)
    else some (none, c)
  | [] => some (none, c)

/-- The marks after the bar or the angle, in any order. -/
def readBlockMarks? (c : Cursor) : Option (Chomp × Option Nat × Cursor) :=
  let (chomp, after) := readChomp c
  if chomp ≠ .one then (readDepth? after).map fun (depth, c) => (chomp, depth, c)
  else do
    let (depth, c) ← readDepth? c
    let (chomp, c) := if depth.isSome then readChomp c else (.one, c)
    pure (chomp, depth, c)

/-- Passes over empty lines and over blanks up to the column `depth`, or up to any column when it is
not known yet. Tells the line ends and the deepest column met. -/
def blockBreaks? (depth : Option Nat) :
    (fuel : Nat) → Cursor → (deepest : Nat) → (breaks : Text) → Option (Text × Nat × Cursor)
  | 0, c, deepest, breaks => some (breaks, deepest, c)
  | fuel + 1, c, deepest, breaks =>
    let spaces := (c.rest.takeWhile (· == ' ')).length
    let c := c.advance <| match depth with
      | some depth => min spaces (depth - c.column)
      | none => spaces
    let deepest := max deepest c.column
    if c.starts '\t' && depth.all (c.column < ·) then none
    else if c.atBreak then
      let (kept, c) := c.takeBreak
      blockBreaks? depth fuel c deepest (breaks ++ kept)
    else some (breaks, deepest, c)

/-- The tail of a block scalar: the end of its last line and the empty lines after it, and whether that
line starts with a blank. -/
structure BlockTail where
  last : Text
  breaks : Text
  blank : Bool
deriving DecidableEq, Repr

/-- Reads the lines of a block scalar that stand at `depth`. -/
def blockLines? (folded : Bool) (depth : Nat) :
    (fuel : Nat) → Cursor → (done : Text) → BlockTail → Option (Text × BlockTail × Cursor)
  | 0, c, done, tail => some (done, tail, c)
  | fuel + 1, c, done, tail =>
    if c.column ≠ depth || c.rest.isEmpty then some (done, tail, c)
    else do
      let blank := c.atSpace
      let between :=
        if folded && tail.last = ['\n'] && !tail.blank && !blank then
          if tail.breaks.isEmpty then [' '] else []
        else tail.last
      let line := c.rest.takeWhile (!isBreak ·)
      let (last, c) := (c.advance line.length).takeBreak
      let (breaks, _, c) ← blockBreaks? (some depth) (c.rest.length + 1) c 0 []
      blockLines? folded depth fuel c (done ++ between ++ tail.breaks ++ line) ⟨last, breaks, blank⟩

/-- The block scalar whose bar or angle has been read, in something at the column `outer`. -/
def readBlock? (folded : Bool) (outer : Int) (c : Cursor) : Option (Text × Cursor) := do
  let (chomp, deeper, c) ← readBlockMarks? c
  let c ← c.finishLine?
  let given := deeper.map fun n => (max outer 0).toNat + n
  let (breaks, deepest, c) ← blockBreaks? given (c.rest.length + 1) c 0 []
  let depth := given.getD (max deepest (max (outer + 1) 1).toNat)
  let (text, tail, c) ← blockLines? folded depth (c.rest.length + 1) c [] ⟨[], breaks, false⟩
  let ending := match chomp with
    | .none => []
    | .one => tail.last
    | .all => tail.last ++ tail.breaks
  pure (text ++ ending, c)

end Yaml

end CrashTriage
