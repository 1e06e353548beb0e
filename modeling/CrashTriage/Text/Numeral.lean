import CrashTriage.Text.Bytes

/-
Numbers in text. Reading is lenient: a decimal reader takes every character at its distance from
'0' and wraps at signed 32 bits, a hexadecimal reader passes over what is no digit and wraps at 64
bits. Callers cut out what they want read.
-/
namespace CrashTriage

namespace Text

def hexDigit? (c : Char) : Option Nat :=
  if '0' ≤ c ∧ c ≤ '9' then some (c.toNat - 48)
  else if 'a' ≤ c ∧ c ≤ 'f' then some (c.toNat - 87)
  else if 'A' ≤ c ∧ c ≤ 'F' then some (c.toNat - 55)
  else none

def isHexDigit (c : Char) : Bool := (hexDigit? c).isSome

/-- Wraps to the signed 32-bit range. -/
def wrap32 (n : Int) : Int := n.bmod (Nat.pow 2 32)

def readDecimal (t : Text) : Int :=
  t.foldl (fun n c => wrap32 (n * 10 + (c.toNat - 48))) 0

def readHex (t : Text) : UInt64 :=
  t.foldl (fun n c => match hexDigit? c with
    | some d => n * 16 + UInt64.ofNat d
    | none => n) 0

/-- A number read from decimal digits, kept only when it is not negative after wrapping. -/
def readIndex? (digits : Text) : Option Nat :=
  let n := readDecimal digits
  if n < 0 then none else some n.toNat

/-- The value of a text of decimal digits, whatever its length; an optional plus sign is allowed. -/
def readNat? (t : Text) : Option Nat :=
  let digits := match t with
    | '+' :: rest => rest
    | _ => t
  if digits.isEmpty || !digits.all isDigit then none
  else some (digits.foldl (fun n c => n * 10 + (c.toNat - 48)) 0)

def ofNat (n : Nat) : Text := Nat.toDigits 10 n

def ofInt (n : Int) : Text :=
  if n < 0 then '-' :: ofNat n.natAbs else ofNat n.natAbs

/-- Decimal digits, filled with zeros on the left up to `width`. -/
def padded (width n : Nat) : Text :=
  let digits := ofNat n
  List.replicate (width - digits.length) '0' ++ digits

/-- Lower case hexadecimal digits after `0x`. -/
def ofAddress (n : UInt64) : Text := "0x".toList ++ Nat.toDigits 16 n.toNat

end Text

namespace Bytes

/-- Bytes as the characters with the same numbers, for the number readers. -/
def latin (bytes : Bytes) : Text := bytes.map fun b => Char.ofNat b.toNat

def readDecimal (bytes : Bytes) : Int := Text.readDecimal (latin bytes)

def readHex (bytes : Bytes) : UInt64 := Text.readHex (latin bytes)

end Bytes

end CrashTriage
