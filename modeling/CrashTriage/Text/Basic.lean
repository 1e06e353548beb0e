/-
Text as a list of characters, with the cuts that line-oriented report formats are read by.
A blank is a character with Unicode's White_Space property. Cuts never lose a character other than
the separator they name. Byte counts are those of the UTF-8 form.
-/
namespace CrashTriage

abbrev Text := List Char

namespace Text

def isBlank (c : Char) : Bool :=
  let n := c.toNat
  (9 ≤ n && n ≤ 13) || n == 0x20 || n == 0x85 || n == 0xA0 || n == 0x1680 ||
    (0x2000 ≤ n && n ≤ 0x200A) || n == 0x2028 || n == 0x2029 || n == 0x202F || n == 0x205F ||
    n == 0x3000

def isDigit (c : Char) : Bool := '0' ≤ c && c ≤ '9'

def lowerAscii (c : Char) : Char :=
  if 'A' ≤ c ∧ c ≤ 'Z' then Char.ofNat (c.toNat + 32) else c

/-- Lowers the letters A to Z and nothing else. -/
def toLowerAscii (t : Text) : Text := t.map lowerAscii

def dropEndWhile (p : Char → Bool) (t : Text) : Text := (t.reverse.dropWhile p).reverse

def trimStart (t : Text) : Text := t.dropWhile isBlank

def trimEnd (t : Text) : Text := dropEndWhile isBlank t

def trim (t : Text) : Text := trimEnd (trimStart t)

def allBlank (t : Text) : Bool := t.all isBlank

def startsWith (t start : Text) : Bool := start.isPrefixOf t

def endsWith (t ending : Text) : Bool := ending.isSuffixOf t

/-- What follows `start` at the head of `t`. -/
def strip? : (start t : Text) → Option Text
  | [], t => some t
  | _ :: _, [] => none
  | a :: start, c :: t => if a = c then strip? start t else none

/-- The text before and after the first character that satisfies `p`, that character left out. -/
def splitFirst? (p : Char → Bool) : Text → Option (Text × Text)
  | [] => none
  | c :: t => if p c then some ([], t) else (splitFirst? p t).map fun (a, b) => (c :: a, b)

def splitOnce? (sep : Char) (t : Text) : Option (Text × Text) := splitFirst? (· == sep) t

/-- The text before and after the last `sep`. -/
def splitLast? (sep : Char) (t : Text) : Option (Text × Text) :=
  (splitOnce? sep t.reverse).map fun (a, b) => (b.reverse, a.reverse)

/-- Fields between separators; a text without one is a single field. -/
def splitBy (p : Char → Bool) : Text → List Text
  | [] => [[]]
  | c :: t =>
    match p c, splitBy p t with
    | true, fields => [] :: fields
    | false, [] => [[c]]
    | false, field :: fields => (c :: field) :: fields

def split (sep : Char) (t : Text) : List Text := splitBy (· == sep) t

/-- The maximal runs of characters that are not blank. -/
def words (t : Text) : List Text := (splitBy isBlank t).filter (!·.isEmpty)

def joinWith (sep : Text) (parts : List Text) : Text := sep.intercalate parts

/-- The text before and after the first occurrence of `inner`. -/
def splitAt? (inner : Text) : Text → Option (Text × Text)
  | [] => if inner.isEmpty then some ([], []) else none
  | c :: t =>
    match strip? inner (c :: t) with
    | some rest => some ([], rest)
    | none => (splitAt? inner t).map fun (a, b) => (c :: a, b)

def contains (t inner : Text) : Bool := (splitAt? inner t).isSome

/-- A line as it stands in a file: its text and the carriage returns and line feed that end it. -/
structure Line where
  body : Text
  ending : Text
deriving DecidableEq, Repr

namespace Line

/-- Separates a line from the line ends at its tail. -/
def ofPiece (piece : Text) : Line :=
  let isEnd := fun c => c == '\n' || c == '\r'
  ⟨dropEndWhile isEnd piece, (piece.reverse.takeWhile isEnd).reverse⟩

def text (line : Line) : Text := line.body ++ line.ending

end Line

/-- The text cut after each line feed; no piece is empty. -/
def pieces : Text → List Text
  | [] => []
  | c :: t =>
    if c = '\n' then [c] :: pieces t
    else match pieces t with
      | [] => [[c]]
      | piece :: rest => (c :: piece) :: rest

/-- A piece without its line feed, or its carriage return and line feed. -/
def chompPiece (piece : Text) : Text :=
  match piece.reverse with
  | '\n' :: '\r' :: t => t.reverse
  | '\n' :: t => t.reverse
  | _ => piece

/-- Lines ended by a line feed or by a carriage return and a line feed. -/
def lines (t : Text) : List Text := (pieces t).map chompPiece

/-- Lines with their ends, any run of carriage returns before the line feed counting as line end. -/
def fullLines (t : Text) : List Line := (pieces t).map Line.ofPiece

def byteSize (t : Text) : Nat := t.foldr (fun c size => c.utf8Size + size) 0

/-- The characters that make up the first `n` bytes, if `n` falls between two characters. -/
def takeBytes? : Nat → Text → Option Text
  | 0, _ => some []
  | _ + 1, [] => none
  | n + 1, c :: t =>
    if c.utf8Size ≤ n + 1 then (takeBytes? (n + 1 - c.utf8Size) t).map (c :: ·) else none

/-- The order of code points, which is also the order of UTF-8 bytes. -/
def compare : Text → Text → Ordering
  | [], [] => .eq
  | [], _ :: _ => .lt
  | _ :: _, [] => .gt
  | a :: s, b :: t => (Ord.compare a.toNat b.toNat).then (compare s t)

end Text

end CrashTriage
