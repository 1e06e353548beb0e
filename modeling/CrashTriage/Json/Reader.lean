import CrashTriage.Json.Value

/-
Reading JSON. The grammar is that of RFC 8259: no comments, no trailing commas, no byte order mark,
no control characters inside strings, and surrogates only in pairs. What is passed over unread need not
have its surrogates in pairs: a lenient reading puts U+FFFD for those that stand alone.
-/
namespace CrashTriage

namespace Json

open Text

def isSpace (c : Char) : Bool := c == ' ' || c == '\n' || c == '\r' || c == '\t'

def skip (t : Text) : Text := t.dropWhile isSpace

def readHex4? : Text → Option (Nat × Text)
  | a :: b :: c :: d :: rest => do
    let a ← hexDigit? a
    let b ← hexDigit? b
    let c ← hexDigit? c
    let d ← hexDigit? d
    pure (a * 4096 + b * 256 + c * 16 + d, rest)
  | _ => none

/-- The character of an escape, the backslash and its letter having been read up to `u`. -/
def readUnicode? (t : Text) : Option (Char × Text) := do
  let (high, t) ← readHex4? t
  if 0xD800 ≤ high && high < 0xDC00 then
    match t with
    | '\\' :: 'u' :: t =>
      let (low, t) ← readHex4? t
      if 0xDC00 ≤ low && low < 0xE000 then
        pure (Char.ofNat (0x10000 + (high - 0xD800) * 0x400 + (low - 0xDC00)), t)
      else none
    | _ => none
  else if 0xDC00 ≤ high && high < 0xE000 then none
  else pure (Char.ofNat high, t)

def readEscape? (strict : Bool) : Text → Option (Char × Text)
  | '"' :: t => some ('"', t)
  | '\\' :: t => some ('\\', t)
  | '/' :: t => some ('/', t)
  | 'b' :: t => some ('\x08', t)
  | 'f' :: t => some ('\x0c', t)
  | 'n' :: t => some ('\n', t)
  | 'r' :: t => some ('\r', t)
  | 't' :: t => some ('\t', t)
  | 'u' :: t =>
    if strict then readUnicode? t
    else (readUnicode? t).or ((readHex4? t).map fun (_, t) => ('\uFFFD', t))
  | _ => none

/-- The rest of a string whose opening quote has been read; `fuel` bounds its length. -/
def readStringTail? (strict : Bool) : Nat → Text → Option (Text × Text)
  | 0, _ => none
  | _ + 1, [] => none
  | _ + 1, '"' :: t => some ([], t)
  | fuel + 1, '\\' :: t => do
    let (c, t) ← readEscape? strict t
    let (s, t) ← readStringTail? strict fuel t
    pure (c :: s, t)
  | fuel + 1, c :: t =>
    if c.toNat < 32 then none
    else (readStringTail? strict fuel t).map fun (s, t) => (c :: s, t)

def readString? (strict : Bool) (t : Text) : Option (Text × Text) :=
  readStringTail? strict (t.length + 1) t

/-- The integer part of a number: zero, or digits that do not start with zero. -/
def integerPart? (t : Text) : Option (Text × Text) :=
  let digits := t.takeWhile isDigit
  if digits.isEmpty || (digits.length > 1 && digits.head? == some '0') then none
  else some (digits, t.drop digits.length)

def fractionPart? : Text → Option (Text × Text)
  | '.' :: t =>
    let digits := t.takeWhile isDigit
    if digits.isEmpty then none else some ('.' :: digits, t.drop digits.length)
  | t => some ([], t)

def exponentDigits? (mark : Text) (t : Text) : Option (Text × Text) :=
  let digits := t.takeWhile isDigit
  if digits.isEmpty then none else some (mark ++ digits, t.drop digits.length)

def exponentPart? : Text → Option (Text × Text)
  | [] => some ([], [])
  | c :: t =>
    if c = 'e' ∨ c = 'E' then
      match t with
      | '-' :: t => exponentDigits? ['e', '-'] t
      | '+' :: t => exponentDigits? ['e'] t
      | t => exponentDigits? ['e'] t
    else some ([], c :: t)

/-- A number; minus zero counts as a decimal. -/
def readNumber? (t : Text) : Option (Json × Text) := do
  let (sign, t) := match t with
    | '-' :: t => (['-'], t)
    | t => (([] : Text), t)
  let (whole, t) ← integerPart? t
  let (fraction, t) ← fractionPart? t
  let (exponent, t) ← exponentPart? t
  let value := (readNat? whole).getD 0
  if fraction.isEmpty && exponent.isEmpty && (sign.isEmpty || value ≠ 0) then
    pure (.integer (if sign.isEmpty then value else -(value : Int)), t)
  else pure (.decimal (sign ++ whole ++ fraction ++ exponent), t)

mutual

/-- One value; `fuel` bounds the number of characters left. -/
def readValue? (strict : Bool) : Nat → Text → Option (Json × Text)
  | 0, _ => none
  | fuel + 1, t =>
    match skip t with
    | '"' :: t => (readString? strict t).map fun (s, t) => (.string s, t)
    | '[' :: t =>
      match skip t with
      | ']' :: t => some (.array [], t)
      | t => (readElements? strict fuel t).map fun (elements, t) => (.array elements, t)
    | '\x7b' :: t =>
      match skip t with
      | '\x7d' :: t => some (.object [], t)
      | t => (readMembers? strict fuel t).map fun (members, t) => (.object members, t)
    | 'n' :: 'u' :: 'l' :: 'l' :: t => some (.null, t)
    | 't' :: 'r' :: 'u' :: 'e' :: t => some (.bool true, t)
    | 'f' :: 'a' :: 'l' :: 's' :: 'e' :: t => some (.bool false, t)
    | t => readNumber? t

/-- One or more elements up to the closing bracket. -/
def readElements? (strict : Bool) : Nat → Text → Option (List Json × Text)
  | 0, _ => none
  | fuel + 1, t => do
    let (value, t) ← readValue? strict fuel t
    match skip t with
    | ']' :: t => pure ([value], t)
    | ',' :: t =>
      let (rest, t) ← readElements? strict fuel t
      pure (value :: rest, t)
    | _ => none

/-- One or more members up to the closing brace. -/
def readMembers? (strict : Bool) : Nat → Text → Option (List (Text × Json) × Text)
  | 0, _ => none
  | fuel + 1, t => do
    let t ← strip? ['"'] (skip t)
    let (name, t) ← readString? strict t
    let t ← strip? [':'] (skip t)
    let (value, t) ← readValue? strict fuel t
    match skip t with
    | '\x7d' :: t => pure ([(name, value)], t)
    | ',' :: t =>
      let (rest, t) ← readMembers? strict fuel t
      pure ((name, value) :: rest, t)
    | _ => none

end

/-- Members up to the closing brace, of which those are read strictly whose names satisfy a test. -/
def readFields? (strict : Text → Bool) : Nat → Text → Option (List (Text × Json) × Text)
  | 0, _ => none
  | fuel + 1, t => do
    let t ← strip? ['"'] (skip t)
    let (name, t) ← readString? true t
    let t ← strip? [':'] (skip t)
    let (value, t) ← readValue? (strict name) (2 * t.length + 2) t
    match skip t with
    | '\x7d' :: t => pure ([(name, value)], t)
    | ',' :: t =>
      let (rest, t) ← readFields? strict fuel t
      pure ((name, value) :: rest, t)
    | _ => none

/-- The value at the end of a text. -/
def alone? (result : Option (Json × Text)) : Option Json := do
  let (value, t) ← result
  if (skip t).isEmpty then pure value else none

/-- The one value a text consists of. -/
def read? (t : Text) : Option Json := alone? (readValue? true (2 * t.length + 2) t)

/-- The one value a text consists of; of an object, those members are read strictly whose names satisfy
a test. -/
def readKnown? (strict : Text → Bool) (t : Text) : Option Json :=
  match skip t with
  | '\x7b' :: rest =>
    match skip rest with
    | '\x7d' :: rest => alone? (some (.object [], rest))
    | rest =>
      alone? ((readFields? strict (rest.length + 1) rest).map fun (members, t) => (.object members, t))
  | _ => read? t

end Json

end CrashTriage
