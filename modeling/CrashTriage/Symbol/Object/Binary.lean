import CrashTriage.Symbol.Table
import CrashTriage.Text.Bytes

/-
Numbers and names in binary files. Reading outside the file fails, and so does reading a name that is
no UTF-8.
-/
namespace CrashTriage

/-- The bytes of a file with the order of bytes in its numbers. -/
structure Binary where
  bytes : Array UInt8
  littleEndian : Bool

namespace Binary

def size (b : Binary) : Nat := b.bytes.size

/-- Are there `count` bytes from `offset` on, which lies inside the file? -/
def holds (b : Binary) (offset count : Nat) : Bool := offset < b.size && offset + count ≤ b.size

def require (b : Binary) (offset count : Nat) : Option Unit :=
  if b.holds offset count then some () else none

/-- The number in `width` bytes. -/
def number? (b : Binary) (width offset : Nat) : Option Nat :=
  if b.holds offset width then
    let digits := (b.bytes.extract offset (offset + width)).toList
    let ordered := if b.littleEndian then digits.reverse else digits
    some (ordered.foldl (fun n byte => n * 256 + byte.toNat) 0)
  else none

/-- The bytes from `offset` up to a zero byte or the end of the file; `fuel` bounds their number. -/
def untilZero (b : Binary) : (fuel offset : Nat) → Bytes
  | 0, _ => []
  | fuel + 1, offset =>
    match b.bytes[offset]? with
    | none => []
    | some byte => if byte = 0 then [] else byte :: b.untilZero fuel (offset + 1)

/-- The name that a zero byte ends. -/
def name? (b : Binary) (offset : Nat) : Option Text :=
  if offset < b.size then Bytes.toText? (b.untilZero b.size offset) else none

/-- A part of the file as a file of its own; an empty one when it is not all there. -/
def part (b : Binary) (offset count : Nat) : Binary :=
  if offset + count ≤ b.size then { b with bytes := b.bytes.extract offset (offset + count) }
  else { b with bytes := #[] }

/-- The distance from `base`, zero for what lies below it. -/
def above (base address : Nat) : UInt64 := UInt64.ofNat (address - base)

end Binary

end CrashTriage
