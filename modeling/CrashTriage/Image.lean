import CrashTriage.Text.Numeral
import CrashTriage.Path

/-
Rows of the image table: `0xBASE - 0xLAST [+]NAME [ARCH] [(VERSION)] [<UUID>] PATH`. The last
address belongs to the image, and a plus sign marks an image that is not part of the system. An
image covers the addresses from its base up to, and not including, its end.
-/
namespace CrashTriage

structure Image where
  base : UInt64
  size : UInt64
  name : Text
  path : Path
  arch : Option Text
  version : Option Text
  uuid : Option Text
  fromUnofficialSource : Bool
  newerThanOsBuild : Bool
deriving DecidableEq, Repr

namespace Image

open Text

/-- The address after the last one, or the largest address when that cannot be held. -/
def stop (i : Image) : UInt64 :=
  if i.base.toNat + i.size.toNat < Nat.pow 2 64 then i.base + i.size else 0xFFFFFFFFFFFFFFFF

def contains (i : Image) (address : UInt64) : Bool := i.base ≤ address && address < i.stop

/-- A build identifier without dashes, in lower case. -/
def normalizeUuid (uuid : Text) : Text := toLowerAscii (uuid.filter (· != '-'))

def uuidKey (i : Image) : Option Text := i.uuid.map normalizeUuid

def isArchWord (word : Text) : Bool :=
  ["arm", "x86", "i386", "ppc"].any fun family => startsWith word family.toList

/-- The part of a row between the first `opening` and the last `closing`, with what stands before
it. Without such a pair the row is left whole. -/
def takeBracketed (opening closing : Char) (row : Text) : Text × Option Text :=
  match splitOnce? opening row, splitLast? closing row with
  | some (before, _), some (upToClosing, _) =>
    if before.length < upToClosing.length then
      let inner := trim (upToClosing.drop (before.length + 1))
      (before, if inner.isEmpty then none else some inner)
    else (row, none)
  | _, _ => (row, none)

/-- The word of the last address and the words after it; the dash may be a word of its own. -/
def takeLastWord? : List Text → Option (Text × List Text)
  | ['-'] :: last :: rest => some (last, rest)
  | [['-']] => none
  | ('-' :: last) :: rest => some (last, rest)
  | last :: rest => some (last, rest)
  | [] => none

/-- Name words up to the first architecture word after one of them; later words are dropped. -/
def splitArch : List Text → List Text × Option Text
  | [] => ([], none)
  | word :: rest =>
    match rest.span fun w => !isArchWord w with
    | (names, arch :: _) => (word :: names, some arch)
    | (names, []) => (word :: names, none)

/-- Reads a row; none for a line that is not one. -/
def readRow? (line : Text) : Option Image := do
  let line := trim line
  if !startsWith line ['0', 'x'] then none
  let (head, path) ← splitOnce? '/' line
  let path := trim ('/' :: path)
  let (rest, uuid) := takeBracketed '<' '>' head
  let (rest, version) := takeBracketed '(' ')' rest
  match words rest with
  | [] => none
  | first :: more =>
    let (last, more) ← takeLastWord? more
    if !startsWith last ['0', 'x'] then none
    let base := readHex first
    let final := readHex last
    if final < base || (base = 0 && final = 0xFFFFFFFFFFFFFFFF) then none
    let (names, arch) := splitArch more
    let printed := joinWith [' '] names
    let marked := startsWith printed ['+']
    let name := if marked then printed.drop 1 else printed
    pure {
      base, path, arch, version, uuid
      size := final - base + 1
      name := if name.isEmpty then (Path.fileName? path).getD [] else name
      fromUnofficialSource := marked
      newerThanOsBuild := false }

/-- Order by base, then by path. -/
def before (a b : Image) : Bool :=
  a.base < b.base || (a.base = b.base && Text.compare a.path b.path == .lt)

/-- The first least image by base and path. -/
def least? : List Image → Option Image
  | [] => none
  | image :: rest =>
    match least? rest with
    | some other => if before other image then some other else some image
    | none => some image

/-- The image that owns an address: of several, the one with the lowest base, then path. -/
def owner? (images : List Image) (address : UInt64) : Option Image :=
  least? (images.filter (·.contains address))

end Image

end CrashTriage
