import CrashTriage.Symbol.Table

/-
Symbol files. A plain file has lines `OFFSET NAME`. A Breakpad file starts with a MODULE record; of
its records only `FUNC [m] ADDRESS SIZE PARAMETERS NAME` and `PUBLIC [m] ADDRESS PARAMETERS NAME`
carry names. Offsets are hexadecimal. Lines that fit neither form are passed over.
-/
namespace CrashTriage

namespace SymbolFile

open Text

def isHexWord (word : Text) : Bool :=
  let digits := (strip? ['0', 'x'] word).getD word
  !digits.isEmpty && digits.all isHexDigit

/-- The text after `count` fields that each end in a blank, with the first field. -/
def splitFields? : (count : Nat) → Text → Option (Text × Text)
  | 0, _ => none
  | 1, t => splitOnce? ' ' t
  | count + 2, t => do
    let (first, t) ← splitOnce? ' ' t
    let (_, rest) ← splitFields? (count + 1) t
    pure (first, rest)

/-- A record whose name follows `count` numbers, the address first. -/
def readRecord? (record : Text) (count : Nat) : Option Symbol := do
  let (address, name) ← splitFields? count ((strip? ['m', ' '] record).getD record)
  let name := trim name
  if isHexWord address && !name.isEmpty then pure (readHex address, name) else none

def readPlain? (line : Text) : Option Symbol := do
  let (offset, name) ← splitFirst? isBlank line
  if isHexWord offset then pure (readHex offset, trim name) else none

/-- The symbol on one line, without the blanks around the line. -/
def readLine? (breakpad : Bool) (line : Text) : Option Symbol :=
  if line.isEmpty || startsWith line ['#'] then none
  else match strip? "FUNC ".toList line with
    | some record => readRecord? record 3
    | none => match strip? "PUBLIC ".toList line with
      | some record => readRecord? record 2
      | none => if breakpad then none else readPlain? line

def isBreakpad (body : Text) : Bool := startsWith (trimStart body) "MODULE ".toList

def read (body : Text) : SymbolTable :=
  SymbolTable.ofList (((lines body).map trim).filterMap (readLine? (isBreakpad body)))

end SymbolFile

end CrashTriage
