import CrashTriage.Plist.Value

/-
The binary form of property lists: objects, a table of their offsets, and a trailer of 32 bytes that
tells where the table lies and which object is the root. An object may not contain itself.
-/
namespace CrashTriage

namespace Plist

/-- A binary document with its trailer and table read. -/
structure Archive where
  bytes : Array UInt8
  /-- Where the trailer starts, past its padding. -/
  trailer : Nat
  /-- The width of references in bytes. -/
  width : Nat
  offsets : Array Nat

def binaryMark : Bytes := Text.toBytes "bplist00".toList

/-- The number in `width` bytes, the highest first. -/
def bigEndian? (bytes : Array UInt8) (offset width : Nat) : Option Nat :=
  if offset + width ≤ bytes.size then
    some ((bytes.extract offset (offset + width)).foldl (fun n b => n * 256 + b.toNat) 0)
  else none

/-- Numbers of one width, one after the other. -/
def numbers? (bytes : Array UInt8) (limit offset width count : Nat) : Option (List Nat) :=
  if count * width > limit then none
  else (List.range count).mapM fun i => bigEndian? bytes (offset + i * width) width

def isWidth (n : Nat) : Bool := n == 1 || n == 2 || n == 3 || n == 4 || n == 8

/-- The document with the number of its root object. -/
def readArchive? (bytes : Array UInt8) : Option (Archive × Nat) := do
  if bytes.size < 32 then none
  let trailer := bytes.size - 26
  let offsetWidth ← bigEndian? bytes trailer 1
  let width ← bigEndian? bytes (trailer + 1) 1
  if !isWidth offsetWidth || !isWidth width then none
  let count ← bigEndian? bytes (trailer + 2) 8
  let root ← bigEndian? bytes (trailer + 10) 8
  let table ← bigEndian? bytes (trailer + 18) 8
  if table + count * offsetWidth > bytes.size - 32 then none
  let offsets ← numbers? bytes trailer table offsetWidth count
  pure (⟨bytes, trailer, width, offsets.toArray⟩, root)

namespace Archive

/-- The length of an object, from the low half of its first byte or from the bytes after it. -/
def length? (a : Archive) (low offset : Nat) : Option (Nat × Nat) := do
  if low = 15 then
    let width := Nat.pow 2 ((← bigEndian? a.bytes offset 1) % 4)
    pure (← bigEndian? a.bytes (offset + 1) width, offset + 1 + width)
  else pure (low, offset)

def data? (a : Archive) (offset length : Nat) : Option Bytes :=
  if length ≤ a.trailer ∧ offset + length ≤ a.bytes.size then
    some (a.bytes.extract offset (offset + length)).toList
  else none

/-- The characters of UTF-16 units; surrogates must come in pairs. -/
def ofUnits? : List Nat → Option Text
  | [] => some []
  | high :: rest =>
    if 0xD800 ≤ high && high < 0xDC00 then
      match rest with
      | low :: rest =>
        if 0xDC00 ≤ low && low < 0xE000 then
          (ofUnits? rest).map
            (Char.ofNat (0x10000 + (high - 0xD800) * 0x400 + (low - 0xDC00)) :: ·)
        else none
      | [] => none
    else if 0xDC00 ≤ high && high < 0xE000 then none
    else (ofUnits? rest).map (Char.ofNat high :: ·)

/-- Seconds of a first of January 2001 from the start of year 1. -/
def epoch : Int := Date.daysBeforeYear 2001 * 86400

/-- The quotient rounded to the nearest number, a half to the even one. -/
def roundedQuotient (n d : Nat) : Nat :=
  let q := n / d
  let twice := 2 * (n % d)
  if twice > d || (twice = d && q % 2 = 1) then q + 1 else q

/-- The moment a number of seconds from the epoch, rounded to nanoseconds. -/
def date? : Double → Option Moment
  | .finite negative mantissa exponent =>
    let (n, d) := Double.scale mantissa 1 exponent
    let nanos := roundedQuotient (n * 1000000000) d
    let seconds := nanos / 1000000000
    let nano := nanos % 1000000000
    if seconds ≥ Nat.pow 2 62 then none
    else if !negative then momentAt? (epoch + seconds) nano
    else if nano = 0 then momentAt? (epoch - seconds) 0
    else momentAt? (epoch - seconds - 1) (1000000000 - nano)
  | _ => none

/-- An object that holds no others, from the halves of its first byte. -/
def scalar? (a : Archive) (high low offset : Nat) : Option Plist := do
  let number := fun width => bigEndian? a.bytes offset width
  match high, low with
  | 0, 8 => pure (.boolean false)
  | 0, 9 => pure (.boolean true)
  | 1, 3 =>
    let n ← number 8
    pure (.integer (if n ≥ Nat.pow 2 63 then (n : Int) - Nat.pow 2 64 else n))
  | 1, 4 =>
    let n ← number 16
    if n < Nat.pow 2 64 then pure (.integer n) else none
  | 1, low => if low ≤ 2 then (number (Nat.pow 2 low)).map fun n => .integer n else none
  | 2, 2 => (number 4).map fun n => .real (Double.ofBits32 n)
  | 2, 3 => (number 8).map fun n => .real (Double.ofBits64 n)
  | 3, 3 => do
    let m ← date? (Double.ofBits64 (← number 8))
    pure (.date m)
  | 4, low =>
    let (length, offset) ← a.length? low offset
    (a.data? offset length).map .data
  | 5, low =>
    let (length, offset) ← a.length? low offset
    let bytes ← a.data? offset length
    (Bytes.toText? bytes).map .string
  | 6, low =>
    let (length, offset) ← a.length? low offset
    let units ← numbers? a.bytes a.trailer offset 2 length
    (ofUnits? units).map .string
  | 8, low => if low < 8 then (number (low + 1)).map .uid else none
  | _, _ => none

mutual

/-- Reads an object that is inside the objects `within`; `fuel` bounds the objects read. -/
def object? (a : Archive) : (fuel : Nat) → (within : List Nat) → (reference : Nat) → Option Plist
  | 0, _, _ => none
  | fuel + 1, within, reference => do
    let offset ← a.offsets[reference]?
    if offset ≥ a.trailer || within.contains reference then none
    let first ← bigEndian? a.bytes offset 1
    let low := first % 16
    match first / 16 with
    | 10 =>
      let (length, offset) ← a.length? low (offset + 1)
      let references ← numbers? a.bytes a.trailer offset a.width length
      (a.elements? fuel (reference :: within) references).map .array
    | 13 =>
      let (length, offset) ← a.length? low (offset + 1)
      let keys ← numbers? a.bytes a.trailer offset a.width length
      let values ← numbers? a.bytes a.trailer (offset + length * a.width) a.width length
      (a.members? fuel (reference :: within) [] (keys.zip values)).map .dictionary
    | high => a.scalar? high low (offset + 1)

def elements? (a : Archive) : (fuel : Nat) → List Nat → List Nat → Option (List Plist)
  | _, _, [] => some []
  | 0, _, _ => none
  | fuel + 1, within, reference :: rest => do
    let value ← a.object? fuel within reference
    let others ← a.elements? fuel within rest
    pure (value :: others)

def members? (a : Archive) :
    (fuel : Nat) → List Nat → List (Text × Plist) → List (Nat × Nat) → Option (List (Text × Plist))
  | _, _, members, [] => some members
  | 0, _, _, _ => none
  | fuel + 1, within, members, (key, value) :: rest => do
    match ← a.object? fuel within key with
    | .string name =>
      let value ← a.object? fuel within value
      a.members? fuel within (putMember members name value) rest
    | _ => none

end

end Archive

/-- The value of a binary document. -/
def readBinary? (bytes : Bytes) : Option Plist := do
  let (a, root) ← readArchive? bytes.toArray
  a.object? (2 * bytes.length + 2) [] root

end Plist

end CrashTriage
