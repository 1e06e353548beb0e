import CrashTriage.Plist.Value

/-
The text form of property lists with braces for dictionaries and parentheses for arrays, whose
separators are passed over. It is read byte by byte: a text here stands for bytes, each character for
the byte with its number. Only strings have to be UTF-8.
-/
namespace CrashTriage

namespace Plist

namespace OpenStep

open Text

/-- The text in bytes that characters stand for. -/
def decoded? (t : Text) : Option Text := Bytes.toText? (t.map fun c => UInt8.ofNat c.toNat)

/-- Does a character end an unquoted string? Line feeds and equals signs do not. -/
def endsWord (c : Char) : Bool :=
  c == ' ' || c == ')' || c == '\r' || c == '\t' || c == ';' || c == ','

/-- An unquoted string: an integer if it reads as one. -/
def word? (t : Text) : Option Plist :=
  (decoded? t).map fun t =>
    match readInteger? t with
    | some n => .integer n
    | none => .string t

/-- The upper half of the NeXTSTEP character set. -/
def upperHalf : Text :=
  ("\u00A0ÀÁÂÃÄÅÇÈÉÊËÌÍÎÏÐÑÒÓÔÕÖÙÚÛÜÝÞµ×÷©¡¢£⁄¥ƒ§¤’“«‹›ﬁﬂ®–†‡·¦¶•‚„”»…‰¬¿¹ˋ´ˆ˜¯˘˙¨²˚¸³˝˛ˇ—±¼½¾àáâãäåçèéêëì" ++
    "ÆíªîïðñŁØŒºòóôõöæùúûıüýłøœßþÿ\uFFFD\uFFFD").toList

/-- The character with a number of that set; numbers above it are code points. -/
def numbered (n : Nat) : Char := if n < 0x80 then Char.ofNat n else (upperHalf[n - 0x80]?).getD (Char.ofNat n)

/-- The number that `count` digits of a radix make at the head of a text. -/
def digits? (radix count : Nat) (t : Text) : Option (Nat × Text) :=
  let digits := t.take count
  if digits.length = count && digits.all fun c => (hexDigit? c).any (· < radix) then
    some (digits.foldl (fun n c => n * radix + (hexDigit? c).getD 0) 0, t.drop count)
  else none

/-- The character of one UTF-16 unit, or of two when the first is the first half of a pair. -/
def readUnits? (t : Text) : Option (Char × Text) := do
  let (high, t) ← digits? 16 4 t
  if high.isValidChar then pure (Char.ofNat high, t)
  else if high < 0xDC00 then
    let (low, t) ← digits? 16 4 (← strip? ['\\', 'U'] t)
    if 0xDC00 ≤ low && low < 0xE000 then
      pure (Char.ofNat (0x10000 + (high - 0xD800) * 0x400 + (low - 0xDC00)), t)
    else none
  else none

def escapes : List (Char × Char) :=
  [('\\', '\\'), ('"', '"'), ('\'', '\''), ('\n', '\n'), ('a', '\x07'), ('b', '\x08'),
    ('f', '\x0c'), ('n', '\n'), ('r', '\r'), ('t', '\t'), ('v', '\x0b')]

/-- The character of an escape after its backslash. -/
def readEscape? : Text → Option (Char × Text)
  | 'U' :: t => readUnits? t
  | c :: t =>
    match escapes.lookup c with
    | some shown => some (shown, t)
    | none => (digits? 8 3 (c :: t)).map fun (n, t) => (numbered n, t)
  | [] => none

/-- The content of a string up to its closing quote; `fuel` bounds its length. -/
def readQuoted? (quote : Char) : (fuel : Nat) → Text → Option (Text × Text)
  | 0, _ => none
  | _ + 1, [] => none
  | fuel + 1, '\\' :: t => do
    let (shown, t) ← readEscape? t
    let (more, t) ← readQuoted? quote fuel t
    pure (Bytes.latin (toBytes [shown]) ++ more, t)
  | fuel + 1, c :: t =>
    if c = quote then some ([], t)
    else (readQuoted? quote fuel t).map fun (a, b) => (c :: a, b)

/-- The text after a comment whose slash has been read. A star is looked at together with what follows
it, and a comment may end with the text right after a star. -/
def skipComment? : Text → Option Text
  | [] => none
  | ['*'] => some []
  | '*' :: '/' :: t => some t
  | '*' :: _ :: t => skipComment? t
  | _ :: t => skipComment? t

/-- The events of a document; the list ends with nothing where it is broken. A slash that starts no
comment gives way to the character after it, which is read twice unless it ends a string. -/
def readEvents : (fuel : Nat) → Text → List (Option Event)
  | 0, _ => [none]
  | _ + 1, [] => []
  | fuel + 1, c :: t =>
    let word := fun (first : Char) =>
      match word? (first :: t.takeWhile fun c => !endsWord c) with
      | some v => some (.value v) :: readEvents fuel (t.dropWhile fun c => !endsWord c)
      | none => [none]
    if c = '(' then some .startArray :: readEvents fuel t
    else if c = '\x7b' then some .startDictionary :: readEvents fuel t
    else if c = ')' || c = '\x7d' then some .stop :: readEvents fuel t
    else if c = '"' || c = '\'' then
      match readQuoted? c (t.length + 1) t with
      | some (s, t) =>
        match decoded? s with
        | some s => some (.value (.string s)) :: readEvents fuel t
        | none => [none]
      | none => [none]
    else if c = '/' then
      match t with
      | [] => [none]
      | '/' :: t => readEvents fuel (t.dropWhile (· != '\n'))
      | '*' :: _ =>
        match skipComment? t with
        | some t => readEvents fuel t
        | none => [none]
      | first :: _ => word first
    else if c = ',' || c = ';' || c = '=' || c = ' ' || c = '\r' || c = '\t' || c = '\n' then
      readEvents fuel t
    else word c

def events (bytes : Bytes) : List (Option Event) :=
  readEvents (bytes.length + 1) (Bytes.latin bytes)

end OpenStep

end Plist

end CrashTriage
