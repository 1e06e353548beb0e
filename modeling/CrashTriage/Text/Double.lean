import CrashTriage.Text.Numeral

/-
Binary floating point numbers of 64 bits, as exact values. A decimal numeral is read as the nearest
number, ties going to the even mantissa. A number is written with the fewest digits that read
back as it, and of those with the digits nearest to it, never with an exponent.
-/
namespace CrashTriage

/-- A mantissa below 2^53 times a power of two. A mantissa below 2^52 goes with the lowest exponent. -/
inductive Double where
  | finite (negative : Bool) (mantissa : Nat) (exponent : Int)
  | infinite (negative : Bool)
  | nan
deriving DecidableEq, Repr

namespace Double

open Text

def lowestExponent : Int := -1074

/-- A fraction scaled by a power of two: numerator and denominator. -/
def scale (numerator denominator : Nat) (power : Int) : Nat × Nat :=
  if power ≥ 0 then (numerator * Nat.pow 2 power.toNat, denominator)
  else (numerator, denominator * Nat.pow 2 power.natAbs)

def floorLog2 (n : Nat) : Int := n.log2

/-- The quotient rounded to the nearest, a tie to the even neighbour. -/
def roundEven (numerator denominator : Nat) : Nat :=
  let q := numerator / denominator
  let twice := 2 * (numerator % denominator)
  if twice > denominator || (twice == denominator && q % 2 == 1) then q + 1 else q

/-- The lowest exponent at which the quotient fits into 53 bits, among those from `start` on. -/
def fittingExponent (numerator denominator : Nat) : (fuel : Nat) → (start : Int) → Int
  | 0, e => e
  | fuel + 1, e =>
    let (n, d) := scale numerator denominator (-e)
    if n / d < Nat.pow 2 53 then e else fittingExponent numerator denominator fuel (e + 1)

/-- The number nearest to a fraction. -/
def ofFraction (negative : Bool) (numerator denominator : Nat) : Double :=
  if numerator = 0 then .finite negative 0 lowestExponent
  else
    let start := max lowestExponent (floorLog2 numerator - floorLog2 denominator - 54)
    let e := fittingExponent numerator denominator 4 start
    let (n, d) := scale numerator denominator (-e)
    let m := roundEven n d
    let (m, e) := if m = Nat.pow 2 53 then (Nat.pow 2 52, e + 1) else (m, e)
    if e > 971 then .infinite negative else .finite negative m e

/-- The number with the bits of a 64-bit word. -/
def ofBits64 (bits : Nat) : Double :=
  let negative := bits / Nat.pow 2 63 % 2 == 1
  let exponent : Nat := bits / Nat.pow 2 52 % 2048
  let fraction := bits % Nat.pow 2 52
  if exponent = 2047 then (if fraction = 0 then .infinite negative else .nan)
  else if exponent = 0 then .finite negative fraction lowestExponent
  else .finite negative (fraction + Nat.pow 2 52) ((exponent : Int) - 1075)

/-- The number with the bits of a 32-bit word. -/
def ofBits32 (bits : Nat) : Double :=
  let negative := bits / Nat.pow 2 31 % 2 == 1
  let exponent : Nat := bits / Nat.pow 2 23 % 256
  let fraction := bits % Nat.pow 2 23
  if exponent = 255 then (if fraction = 0 then .infinite negative else .nan)
  else
    let (m, e) : Nat × Int :=
      if exponent = 0 then (fraction, -149) else (fraction + Nat.pow 2 23, (exponent : Int) - 150)
    let (n, d) := scale m 1 e
    ofFraction negative n d

/-- A power of ten beyond which every number of few digits is infinite or zero. -/
def decimalLimit : Nat := 20000

def ofDecimal (negative : Bool) (digits : Nat) (exponent : Int) : Double :=
  if digits = 0 then .finite negative 0 lowestExponent
  else if exponent > decimalLimit then .infinite negative
  else if exponent < -(decimalLimit : Int) then .finite negative 0 lowestExponent
  else if exponent ≥ 0 then ofFraction negative (digits * Nat.pow 10 exponent.toNat) 1
  else ofFraction negative digits (Nat.pow 10 exponent.natAbs)

/-- The exponent after `e`, zero when there is none. -/
def readExponent? : Text → Option Int
  | [] => some 0
  | c :: t =>
    if c = 'e' ∨ c = 'E' then
      let (negative, digits) := match t with
        | '-' :: t => (true, t)
        | '+' :: t => (false, t)
        | t => (false, t)
      if digits.isEmpty || !digits.all isDigit then none
      else (readNat? digits).map fun n => if negative then -(n : Int) else (n : Int)
    else none

/-- Reads a decimal numeral, or a name of infinity or of the value that is no number. -/
def read? (t : Text) : Option Double := do
  let (negative, t) := match t with
    | '-' :: t => (true, t)
    | '+' :: t => (false, t)
    | t => (false, t)
  let name := toLowerAscii t
  if name = "inf".toList || name = "infinity".toList then return .infinite negative
  if name = "nan".toList then return .nan
  let whole := t.takeWhile isDigit
  let (fraction, rest) := match t.drop whole.length with
    | '.' :: t => (t.takeWhile isDigit, t.dropWhile isDigit)
    | t => ([], t)
  if whole.isEmpty && fraction.isEmpty then none
  let exponent ← readExponent? rest
  let digits := (readNat? (whole ++ fraction)).getD 0
  pure (ofDecimal negative digits (exponent - fraction.length))

/-- The number of digits before the point, negative when zeros follow the point. -/
def magnitude (numerator denominator : Nat) : Int :=
  if numerator ≥ denominator then (Nat.toDigits 10 (numerator / denominator)).length
  else
    let inverse := (Nat.toDigits 10 (denominator / numerator)).length
    if denominator ≤ numerator * Nat.pow 10 (inverse - 1) then 2 - (inverse : Int) else 1 - (inverse : Int)

/-- The bounds of what reads back as a number, and the number, over one denominator. -/
structure Interval where
  low : Nat
  value : Nat
  high : Nat
  denominator : Nat
  closed : Bool
deriving DecidableEq, Repr

def interval (mantissa : Nat) (exponent : Int) : Interval :=
  let below := if mantissa = Nat.pow 2 52 ∧ exponent > lowestExponent then 1 else 2
  let (factor, denominator) := scale 1 1 (exponent - 2)
  ⟨(4 * mantissa - below) * factor, 4 * mantissa * factor, (4 * mantissa + 2) * factor, denominator,
    mantissa % 2 == 0⟩

def Interval.contains (i : Interval) (numerator denominator : Nat) : Bool :=
  let low := i.low * denominator
  let here := numerator * i.denominator
  let high := i.high * denominator
  if i.closed then low ≤ here && here ≤ high else low < here && here < high

/-- The neighbour of the value on the grid of a power of ten that reads back as it: the nearer one,
when both do. -/
def gridPoint? (i : Interval) (power : Int) : Option Nat :=
  let (up, down) : Nat × Nat :=
    if power ≥ 0 then (Nat.pow 10 power.toNat, 1) else (1, Nat.pow 10 power.natAbs)
  let n := i.value * down
  let d := i.denominator * up
  let c := n / d
  let lower := i.contains (c * up) down
  let upper := i.contains ((c + 1) * up) down
  let upperNearer := 2 * (n % d) > d || (2 * (n % d) == d && c % 2 == 1)
  if lower && upper then some (if upperNearer then c + 1 else c)
  else if lower then some c
  else if upper then some (c + 1)
  else none

/-- The fewest digits that read back as a number, with the power of ten of the last one. -/
def shortest (mantissa : Nat) (exponent : Int) : Nat × Int :=
  let i := interval mantissa exponent
  let size := magnitude i.value i.denominator
  let found := (List.range 17).findSome? fun (k : Nat) =>
    let power := size - ((k : Int) + 1)
    (gridPoint? i power).map fun digits => (digits, power)
  found.getD (0, 0)

/-- Digits with a point in the place of a power of ten, or zeros after them. -/
def positional (digits : Nat) (power : Int) : Text :=
  let shown := ofNat digits
  if power ≥ 0 then shown ++ List.replicate power.toNat '0'
  else
    let places := power.natAbs
    let filled := List.replicate (places + 1 - shown.length) '0' ++ shown
    let (whole, fraction) := filled.splitAt (filled.length - places)
    let fraction := dropEndWhile (· == '0') fraction
    if fraction.isEmpty then whole else whole ++ '.' :: fraction

def write : Double → Text
  | .nan => "NaN".toList
  | .infinite negative => (if negative then ['-'] else []) ++ "inf".toList
  | .finite negative mantissa exponent =>
    let sign := if negative then ['-'] else []
    if mantissa = 0 then sign ++ ['0']
    else
      let (digits, power) := shortest mantissa exponent
      sign ++ positional digits power

end Double

end CrashTriage
