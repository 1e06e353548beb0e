import CrashTriage.Text.Basic

/-
Words of a script line under the quoting rules of a POSIX shell. Blanks are the space, the tab and the
line feed. A hash at the start of a word opens a comment up to the end of the line. Single quotes
keep everything; inside double quotes a backslash acts before `$`, a backquote, `"` and itself only.
A backslash with a line feed joins two lines.

Written words are bare where every character allows it. Otherwise they are cut into the longest
pieces that one kind of quotes can hold, single quotes being preferred; a circumflex is only ever
written right after an opening single quote.
-/
namespace CrashTriage

namespace Words

/-- Where the reader of a line stands. -/
inductive Place where
  | between
  | comment
  | bare
  | bareEscape
  | single
  | double
  | doubleEscape
deriving DecidableEq, Repr

/-- What one character does: the next place, the characters it adds to the current word, and whether
that word is over. -/
structure Move where
  next : Place
  added : Text
  ends : Bool
deriving DecidableEq, Repr

def isSeparator (c : Char) : Bool := c == ' ' || c == '\t' || c == '\n'

/-- Characters that a backslash protects inside double quotes. -/
def isDoubleSpecial (c : Char) : Bool := c == '$' || c == '\x60' || c == '"' || c == '\\'

def bareMove (c : Char) : Move :=
  if c = '"' then ⟨.double, [], false⟩
  else if c = '\'' then ⟨.single, [], false⟩
  else if c = '\\' then ⟨.bareEscape, [], false⟩
  else if isSeparator c then ⟨.between, [], true⟩
  else ⟨.bare, [c], false⟩

def move (place : Place) (c : Char) : Move :=
  match place with
  | .between =>
    if isSeparator c then ⟨.between, [], false⟩
    else if c = '#' then ⟨.comment, [], false⟩
    else bareMove c
  | .comment => if c = '\n' then ⟨.between, [], false⟩ else ⟨.comment, [], false⟩
  | .bare => bareMove c
  | .bareEscape => if c = '\n' then ⟨.bare, [], false⟩ else ⟨.bare, [c], false⟩
  | .single => if c = '\'' then ⟨.bare, [], false⟩ else ⟨.single, [c], false⟩
  | .double =>
    if c = '"' then ⟨.bare, [], false⟩
    else if c = '\\' then ⟨.doubleEscape, [], false⟩
    else ⟨.double, [c], false⟩
  | .doubleEscape =>
    if isDoubleSpecial c then ⟨.double, [c], false⟩
    else if c = '\n' then ⟨.double, [], false⟩
    else ⟨.double, ['\\', c], false⟩

/-- The words of a line read from a place with a word begun; none when a quote or a backslash is
left open at the end. -/
def readFrom (place : Place) (word : Text) : Text → Option (List Text)
  | [] =>
    match place with
    | .between | .comment => some []
    | .bare => some [word]
    | _ => none
  | c :: t =>
    let m := move place c
    if m.ends then (readFrom m.next [] t).map (word :: ·)
    else readFrom m.next (word ++ m.added) t

def read? (line : Text) : Option (List Text) := readFrom .between [] line

/-- The ways of writing that a piece of a word admits. -/
structure Ways where
  bare : Bool
  single : Bool
  double : Bool
deriving DecidableEq, Repr

namespace Ways

def all : Ways := ⟨true, true, true⟩

def none (w : Ways) : Bool := !w.bare && !w.single && !w.double

def meet (v w : Ways) : Ways := ⟨v.bare && w.bare, v.single && w.single, v.double && w.double⟩

end Ways

def isBareSafe (c : Char) : Bool :=
  ('0' ≤ c && c ≤ '9') || ('A' ≤ c && c ≤ 'Z') || ('a' ≤ c && c ≤ 'z') ||
    "+-./:@]_".toList.contains c

def waysOf (c : Char) : Ways :=
  { bare := isBareSafe c
    single := !(c == '\'' || c == '^' || c == '\\')
    double := !(c == '\x60' || c == '$' || c == '!' || c == '^') }

/-- The longest start of a text that the ways left after it admit, the rest, and those ways. -/
def spanWays (ways : Ways) : Text → Text × Text × Ways
  | [] => ([], [], ways)
  | c :: t =>
    let next := ways.meet (waysOf c)
    if next.none then ([], c :: t, ways)
    else
      let (piece, rest, final) := spanWays next t
      (c :: piece, rest, final)

theorem spanWays_rest_length (ways : Ways) (t : Text) :
    (spanWays ways t).2.1.length ≤ t.length := by
  induction t generalizing ways with
  | nil => simp [spanWays]
  | cons c t ih =>
    simp only [spanWays]
    split
    · simp
    · have := ih (ways.meet (waysOf c))
      exact Nat.le_succ_of_le this

/-- The first piece of a word that starts with `c`. -/
def firstPiece (c : Char) (t : Text) : Text × Text × Ways :=
  let (piece, rest, ways) :=
    spanWays (if c = '^' then ⟨false, true, false⟩ else Ways.all.meet (waysOf c)) t
  (c :: piece, rest, ways)

def writePiece (piece : Text) (ways : Ways) : Text :=
  if ways.bare then piece
  else if ways.single then '\'' :: piece ++ ['\'']
  else '"' :: piece.flatMap (fun c => if isDoubleSpecial c then ['\\', c] else [c]) ++ ['"']

def writePieces : Text → Text
  | [] => []
  | c :: t =>
    let cut := firstPiece c t
    writePiece cut.1 cut.2.2 ++ writePieces cut.2.1
termination_by word => word.length
decreasing_by
  simp only [firstPiece, List.length_cons]
  exact Nat.lt_succ_of_le (spanWays_rest_length _ t)

/-- The written form of a word. A word with a NUL character has none and is left as it is. -/
def quote (word : Text) : Text :=
  if word.isEmpty then ['\'', '\'']
  else if word.any (· == '\x00') then word
  else writePieces word

/-- Written words with single spaces between them. -/
def join (words : List Text) : Text := Text.joinWith [' '] (words.map quote)

end Words

end CrashTriage
