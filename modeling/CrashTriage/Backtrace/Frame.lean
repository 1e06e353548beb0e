import CrashTriage.Text.Numeral

/-
One line of a backtrace: `INDEX IMAGE 0xADDRESS DETAIL`. The address is the first word that starts
with `0x`, so image names may hold blanks. A detail of the form `0xBASE + DECIMAL` means that the
frame has no symbol yet.
-/
namespace CrashTriage

/-- Load address of an image and the offset into it. -/
structure RawLocation where
  loadAddress : UInt64
  offset : UInt64
deriving DecidableEq, Repr

structure Frame where
  index : Nat
  imageName : Text
  address : UInt64
  /-- The line after the address word, without the blanks around it. -/
  detail : Text
  raw : Option RawLocation
  /-- The line's number in the report, from zero. -/
  line : Nat
  /-- Bytes of the line up to the end of the address word. -/
  addressEnd : Nat
deriving DecidableEq, Repr

namespace RawLocation

open Text

/-- Reads `0xBASE + DECIMAL`, the decimal within 64 bits. -/
def read? (detail : Text) : Option RawLocation :=
  match words detail with
  | [base, ['+'], digits] =>
    if startsWith base ['0', 'x'] && digits.all isDigit then
      match readNat? digits with
      | some n => if n < Nat.pow 2 64 then some ⟨readHex base, UInt64.ofNat n⟩ else none
      | none => none
    else none
  | _ => none

end RawLocation

namespace Frame

open Text

def isSymbolicated (f : Frame) : Bool := f.raw.isNone

/-- Splits at the first `0x` that follows a blank; the blank stays on the left. -/
def splitAddress? : Text → Option (Text × Text)
  | [] => none
  | c :: t =>
    if isBlank c && startsWith t ['0', 'x'] then some ([c], t)
    else (splitAddress? t).map fun (a, b) => (c :: a, b)

/-- Reads a frame line; `number` is the line's place in the report. -/
def read? (text : Text) (number : Nat) : Option Frame := do
  let body := trimStart text
  let digits := body.takeWhile isDigit
  if digits.isEmpty then none
  let index ← readIndex? digits
  let (before, rest) ← splitAddress? (body.drop digits.length)
  let word := rest.takeWhile fun c => !isBlank c
  let imageName := trim before
  if imageName.isEmpty then none
  let detail := trim (rest.drop word.length)
  pure {
    index, imageName, detail
    address := readHex word
    raw := RawLocation.read? detail
    line := number
    addressEnd := byteSize (text.takeWhile isBlank ++ digits ++ before ++ word) }

end Frame

end CrashTriage
