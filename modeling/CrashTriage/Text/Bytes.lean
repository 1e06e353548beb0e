import CrashTriage.Text.Basic

/-
UTF-8. Every text has one byte form. Reading is strict or lossy: a lossy reading puts U+FFFD for
each longest run of bytes that starts a character without completing it, and for each byte that
starts none, so it never fails.
-/
namespace CrashTriage

abbrev Bytes := List UInt8

namespace Text

def toBytes (t : Text) : Bytes := t.flatMap String.utf8EncodeChar

end Text

namespace Bytes

def isContinuation (b : UInt8) : Bool := 0x80 ≤ b && b ≤ 0xBF

def low (b : UInt8) : Nat := b.toNat % 64

/-- May `second` follow the lead byte of a character of three or four bytes? Overlong forms,
surrogates and values above U+10FFFF are refused here. -/
def secondFits (lead second : UInt8) : Bool :=
  if lead == 0xE0 then 0xA0 ≤ second && second ≤ 0xBF
  else if lead == 0xED then 0x80 ≤ second && second ≤ 0x9F
  else if lead == 0xF0 then 0x90 ≤ second && second ≤ 0xBF
  else if lead == 0xF4 then 0x80 ≤ second && second ≤ 0x8F
  else isContinuation second

/-- One character, or none for an invalid run, and how many of the bytes after `lead` it takes. -/
def readChar (lead : UInt8) (rest : Bytes) : Option Char × Nat :=
  let n := lead.toNat
  if n < 0x80 then (some (Char.ofNat n), 0)
  else if 0xC2 ≤ n && n ≤ 0xDF then
    match rest with
    | b :: _ => if isContinuation b then (some (Char.ofNat (n % 32 * 64 + low b)), 1) else (none, 0)
    | [] => (none, 0)
  else if 0xE0 ≤ n && n ≤ 0xEF then
    match rest with
    | b :: rest =>
      if !secondFits lead b then (none, 0) else
      match rest with
      | c :: _ =>
        if isContinuation c then (some (Char.ofNat (n % 16 * 4096 + low b * 64 + low c)), 2)
        else (none, 1)
      | [] => (none, 1)
    | [] => (none, 0)
  else if 0xF0 ≤ n && n ≤ 0xF4 then
    match rest with
    | b :: rest =>
      if !secondFits lead b then (none, 0) else
      match rest with
      | c :: rest =>
        if !isContinuation c then (none, 1) else
        match rest with
        | d :: _ =>
          if isContinuation d then
            (some (Char.ofNat (n % 8 * 262144 + low b * 4096 + low c * 64 + low d)), 3)
          else (none, 2)
        | [] => (none, 2)
      | [] => (none, 1)
    | [] => (none, 0)
  else (none, 0)

/-- The characters of a byte string in order, none standing for an invalid run. -/
def readChars : Bytes → List (Option Char)
  | [] => []
  | lead :: rest =>
    let (c, n) := readChar lead rest
    c :: readChars (rest.drop n)
termination_by bytes => bytes.length
decreasing_by simp only [List.length_drop, List.length_cons]; omega

/-- Strict reading. -/
def toText? (bytes : Bytes) : Option Text := (readChars bytes).mapM id

/-- Lossy reading. -/
def toText (bytes : Bytes) : Text := (readChars bytes).map (·.getD '\uFFFD')

end Bytes

end CrashTriage
