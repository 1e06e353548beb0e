import CrashTriage.Script.Shell.Arithmetic
import CrashTriage.Text.Double

/-
What echo and printf print. A backslash and a letter stand for a control character, a backslash and up
to three octal digits for a byte. A format is used again as long as arguments are left; where none is
left, a number is zero and a text empty.
-/
namespace CrashTriage

namespace Shell

open Text

/-! Escapes -/

def isOctal (c : Char) : Bool := '0' ≤ c && c ≤ '7'

def escapeLetters : List (Char × Char) :=
  [('\\', '\\'), ('a', '\x07'), ('b', '\x08'), ('e', '\x1b'), ('f', '\x0c'), ('n', '\n'), ('r', '\x0d'),
    ('t', '\t'), ('v', '\x0b')]

/-- The character that a backslash stands for with what follows it, and the text after it. A backslash
before anything else stands for itself. -/
def readEscape (t : Text) : Char × Text :=
  let digits := (t.take 3).takeWhile isOctal
  match t with
  | c :: rest =>
    match escapeLetters.lookup c with
    | some d => (d, rest)
    | none =>
      if digits.isEmpty then ('\\', t)
      else (Char.ofNat (digits.foldl (fun n c => n * 8 + (c.toNat - 48)) 0 % 256), t.drop digits.length)
  | [] => ('\\', [])

/-- A text with its escapes carried out, octal numbers having a zero before them or not; and whether
`\c` ended all output. -/
def unescape : (fuel : Nat) → Text → Text × Bool
  | 0, _ => ([], false)
  | _ + 1, [] => ([], false)
  | _ + 1, '\\' :: 'c' :: _ => ([], true)
  | fuel + 1, '\\' :: t =>
    let t := match t with
      | '0' :: d :: rest => if isOctal d then d :: rest else t
      | _ => t
    let (c, rest) := readEscape t
    let (out, stopped) := unescape fuel rest
    (c :: out, stopped)
  | fuel + 1, c :: t =>
    let (out, stopped) := unescape fuel t
    (c :: out, stopped)

/-- Words with a blank between any two, up to one that ends all output. -/
def echoWords : List Text → Text × Bool
  | [] => ([], false)
  | w :: rest =>
    let (out, stopped) := unescape (w.length + 1) w
    if stopped || rest.isEmpty then (out, stopped)
    else
      let (later, stopped) := echoWords rest
      (out ++ ' ' :: later, stopped)

def echo (words : List Text) : Text :=
  let (bare, words) := match words with
    | ['-', 'n'] :: rest => (true, rest)
    | _ => (false, words)
  let (out, stopped) := echoWords words
  if bare || stopped then out else out ++ ['\n']

/-! Conversions -/

/-- How a value is laid out. -/
structure Layout where
  left : Bool
  plus : Bool
  space : Bool
  zeros : Bool
  alternate : Bool
  width : Nat
  precision : Option Nat
deriving DecidableEq, Repr

namespace Layout

def fill (l : Layout) (t : Text) : Text :=
  let blanks := List.replicate (l.width - t.length) ' '
  if l.left then t ++ blanks else blanks ++ t

/-- Fills between a sign and digits. -/
def fillNumber (l : Layout) (zeros : Bool) (sign digits : Text) : Text :=
  if zeros && !l.left then
    sign ++ List.replicate (l.width - sign.length - digits.length) '0' ++ digits
  else l.fill (sign ++ digits)

def sign (l : Layout) (negative : Bool) : Text :=
  if negative then ['-'] else if l.plus then ['+'] else if l.space then [' '] else []

def text (l : Layout) (t : Text) : Text :=
  l.fill (match l.precision with
    | some n => t.take n
    | none => t)

/-- At least as many digits as the precision asks for; zero has none under a precision of zero. -/
def digits (l : Layout) (base n : Nat) : Text :=
  let shown := if n = 0 && l.precision = some 0 then [] else Nat.toDigits base n
  List.replicate (l.precision.getD 0 - shown.length) '0' ++ shown

def signed (l : Layout) (n : Int) : Text :=
  l.fillNumber (l.zeros && l.precision.isNone) (l.sign (n < 0)) (l.digits 10 n.natAbs)

def unsigned (l : Layout) (letter : Char) (n : Nat) : Text :=
  let zeros := l.zeros && l.precision.isNone
  match letter with
  | 'o' =>
    let digits := l.digits 8 n
    l.fillNumber zeros [] (if l.alternate && digits.head? != some '0' then '0' :: digits else digits)
  | 'x' => l.fillNumber zeros (if l.alternate && n != 0 then ['0', 'x'] else []) (l.digits 16 n)
  | 'X' =>
    l.fillNumber zeros (if l.alternate && n != 0 then ['0', 'X'] else [])
      ((l.digits 16 n).map Char.toUpper)
  | _ => l.fillNumber zeros [] (l.digits 10 n)

/-- A number of units of a power of ten below one, with a point before the last `places` digits. -/
def pointed (l : Layout) (places units : Nat) : Text :=
  let digits := padded (places + 1) units
  let (whole, fraction) := digits.splitAt (digits.length - places)
  if places = 0 && !l.alternate then whole else whole ++ '.' :: fraction

/-- The quotient by a power of ten, rounded to the nearest. -/
def rounded (numerator denominator : Nat) (power : Int) : Nat :=
  if power ≥ 0 then Double.roundEven numerator (denominator * Nat.pow 10 power.toNat)
  else Double.roundEven (numerator * Nat.pow 10 power.natAbs) denominator

/-- The power of ten of the first digit after rounding to `places` more digits. -/
def leadingPower (numerator denominator places : Nat) : Int :=
  if numerator = 0 then 0
  else
    let power := Double.magnitude numerator denominator - 1
    if rounded numerator denominator (power - places) ≥ Nat.pow 10 (places + 1) then power + 1 else power

def exponential (l : Layout) (places : Nat) (numerator denominator : Nat) : Text :=
  let power := leadingPower numerator denominator places
  l.pointed places (rounded numerator denominator (power - places)) ++
    'e' :: (if power < 0 then '-' else '+') :: padded 2 power.natAbs

def fixed (l : Layout) (places : Nat) (numerator denominator : Nat) : Text :=
  l.pointed places (rounded numerator denominator (-(places : Int)))

/-- Drops zeros after a point, and a point without digits after it. -/
def trimmed (t : Text) : Text :=
  if t.elem '.' then dropEndWhile (· == '.') (dropEndWhile (· == '0') t) else t

/-- Fixed unless the exponent is small or the precision does not reach, without zeros at the end. -/
def general (l : Layout) (precision : Nat) (numerator denominator : Nat) : Text :=
  let significant := max precision 1
  let power := leadingPower numerator denominator (significant - 1)
  let trim := fun t => if l.alternate then t else trimmed t
  if power < -4 || power ≥ significant then
    let t := l.exponential (significant - 1) numerator denominator
    match splitOnce? 'e' t with
    | some (digits, exponent) => trim digits ++ 'e' :: exponent
    | none => t
  else trim (l.fixed ((significant : Int) - 1 - power).toNat numerator denominator)

def double (l : Layout) (letter : Char) (d : Double) : Text :=
  let upper := fun t : Text => if letter.isUpper then t.map Char.toUpper else t
  match d with
  | .nan => l.fill (upper "nan".toList)
  | .infinite negative => l.fill (l.sign negative ++ upper "inf".toList)
  | .finite negative mantissa exponent =>
    let (n, d) := Double.scale mantissa 1 exponent
    let precision := l.precision.getD 6
    let digits := match letter.toLower with
      | 'e' => l.exponential precision n d
      | 'f' => l.fixed precision n d
      | _ => l.general precision n d
    l.fillNumber l.zeros (l.sign negative) (upper digits)

end Layout

/-- The floating point numeral at the head of a text, and what follows it. -/
def readDouble? (t : Text) : Option (Double × Text) :=
  let t := t.dropWhile isSpaceByte
  let sizes := (List.range (t.length + 1)).reverse
  sizes.findSome? fun n => (Double.read? (t.take n)).map fun d => (d, t.drop n)

/-! printf -/

/-- A format under way: what was printed, the latest first, the arguments that are left, and what was
wrong with those that were used, the latest first. -/
structure Printing where
  out : List Text
  arguments : List Text
  problems : List Text

namespace Printing

/-- How a pass over a format ends. -/
inductive Ending where
  | complete
  /-- By `\c`. -/
  | stopped
  | failed (message : Text)
deriving DecidableEq, Repr

def put (p : Printing) (t : Text) : Printing := { p with out := t :: p.out }

def nextText (p : Printing) : Text × Printing := (p.arguments.headD [], { p with arguments := p.arguments.tail })

/-- Notes what is wrong with an argument that was read as a number up to `rest`. -/
def check (p : Printing) (argument rest : Text) (fits : Bool) : Printing :=
  let problem? :=
    if !rest.isEmpty then
      some (if rest = argument then "expected numeric value" else "not completely converted")
    else if !fits then some "Numerical result out of range"
    else none
  match problem? with
  | some problem => { p with problems := (argument ++ ": ".toList ++ problem.toList) :: p.problems }
  | none => p

/-- The next argument as a number; a quote before a character stands for the character's number. -/
def nextNumber (p : Printing) (read : Text → Option (α × Text)) (fits : α → Bool) (zero : α)
    (ofChar : Nat → α) : α × Printing :=
  let (argument, p) := p.nextText
  match argument with
  | '\'' :: t | '"' :: t => (ofChar ((t.head?.map Char.toNat).getD 0), p)
  | _ =>
    match read argument with
    | some (n, rest) => (n, p.check argument rest (fits n))
    | none => (zero, p.check argument argument true)

def nextSigned (p : Printing) : Int × Printing :=
  let (n, p) := p.nextNumber (readNumeral? none) inRange 0 fun n => (n : Int)
  (clamp n, p)

/-- Negative numbers stand for what is left when they are taken from 2^64. -/
def nextUnsigned (p : Printing) : Nat × Printing :=
  let limit : Int := Nat.pow 2 64
  let (n, p) := p.nextNumber (readNumeral? none) (fun n => n.natAbs < limit.toNat) 0 fun n => (n : Int)
  (if n.natAbs < limit.toNat then (n % limit).toNat else limit.toNat - 1, p)

def nextDouble (p : Printing) : Double × Printing :=
  p.nextNumber readDouble? (fun _ => true) (.finite false 0 0) fun n => Double.ofDecimal false n 0

/-- A width or precision at the head of a text, which a star takes from the arguments. -/
def readCount (p : Printing) (t : Text) : Option Int × Text × Printing :=
  match t with
  | '*' :: t =>
    let (n, p) := p.nextSigned
    (some n, t, p)
  | _ =>
    let digits := t.takeWhile isDigit
    ((readNat? digits).map fun n => (n : Int), t.drop digits.length, p)

/-- The layout at the head of a conversion, and the text from its letter on. -/
def readLayout (p : Printing) (t : Text) : Layout × Text × Printing :=
  let isFlag := fun c => "#-+ 0".toList.contains c
  let flags := t.takeWhile isFlag
  let (width, t, p) := p.readCount (t.drop flags.length)
  let (precision, t, p) := match t with
    | '.' :: t =>
      let (n, t, p) := p.readCount t
      (some (n.getD 0), t, p)
    | _ => (none, t, p)
  let width := width.getD 0
  (⟨flags.elem '-' || width < 0, flags.elem '+', flags.elem ' ', flags.elem '0', flags.elem '#',
    width.natAbs, (precision.filter (· ≥ 0)).map Int.toNat⟩, t, p)

/-- What a conversion prints, and whether output ends with it; none for a letter without meaning. -/
def convert? (p : Printing) (l : Layout) (letter : Char) : Option (Text × Bool × Printing) :=
  if letter = 's' then
    let (t, p) := p.nextText
    some (l.text t, false, p)
  else if letter = 'b' then
    let (t, p) := p.nextText
    let (out, stopped) := unescape (t.length + 1) t
    some (l.text out, stopped, p)
  else if letter = 'c' then
    let (t, p) := p.nextText
    some (l.fill [t.headD '\x00'], false, p)
  else if letter = 'd' || letter = 'i' then
    let (n, p) := p.nextSigned
    some (l.signed n, false, p)
  else if "ouxX".toList.contains letter then
    let (n, p) := p.nextUnsigned
    some (l.unsigned letter n, false, p)
  else if "eEfFgG".toList.contains letter then
    let (d, p) := p.nextDouble
    some (l.double letter d, false, p)
  else none

/-- One pass over a format. -/
def pass : (fuel : Nat) → Text → Printing → Printing × Ending
  | 0, _, p => (p, .complete)
  | _ + 1, [], p => (p, .complete)
  | fuel + 1, c :: t, p =>
    if c = '\\' then
      let (d, rest) := readEscape t
      pass fuel rest (p.put [d])
    else if c = '%' && t.head? != some '%' then
      let (layout, rest, p) := p.readLayout t
      match rest with
      | [] => (p, .failed "missing format character".toList)
      | letter :: rest =>
        match p.convert? layout letter with
        | none =>
          let directive := c :: t.take (t.length - rest.length)
          (p, .failed (directive ++ ": invalid directive".toList))
        | some (out, true, p) => (p.put out, .stopped)
        | some (out, false, p) => pass fuel rest (p.put out)
    else pass fuel (if c = '%' then t.drop 1 else t) (p.put [c])

/-- Passes over a format as long as arguments are left and used. -/
def passes (format : Text) : (fuel : Nat) → Printing → Printing × Ending
  | 0, p => (p, .complete)
  | fuel + 1, p =>
    match pass (format.length + 1) format p with
    | (later, .complete) =>
      if later.arguments.isEmpty || later.arguments.length = p.arguments.length then (later, .complete)
      else passes format fuel later
    | ended => ended

end Printing

end Shell

end CrashTriage
