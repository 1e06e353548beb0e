import CrashTriage.Symbol.Object.Binary

/-
Symbols of Mach-O files, and of universal files, which hold one such file for each architecture. The
underscore that compilers put before names is left off; offsets are counted from the text segment. A
file with a broken structure yields nothing.
-/
namespace CrashTriage

namespace MachO

/-- What symbols need of the load commands read so far. -/
structure Commands where
  /-- The address of the first text segment. -/
  textBase : Option Nat
  /-- Offset and number of symbols, and the offset of their names from the symbols. -/
  symbols : Option (Nat × Nat × Nat)
  /-- Is there a segment whose name, cut at seven bytes, is that of the text segment? -/
  holdsText : Bool
  /-- Does a command say where the program starts within its text segment? -/
  startsInText : Bool
deriving Repr

/-- The width of addresses in bytes and the order of bytes, from the first four bytes. -/
def form? (b : Binary) : Option (Nat × Bool) := do
  match ← { b with littleEndian := false }.number? 4 0 with
  | 0xfeedface => pure (4, false)
  | 0xcefaedfe => pure (4, true)
  | 0xfeedfacf => pure (8, false)
  | 0xcffaedfe => pure (8, true)
  | _ => none

/-- The text up to a zero byte in a field of 16 bytes. -/
def segmentName? (b : Binary) (offset : Nat) : Option Text := Bytes.toText? (b.untilZero 16 offset)

/-- The sizes of commands with a fixed part; of all others only the first eight bytes are read. -/
def commandSizes : List (Nat × Nat) :=
  [(0x1, 56), (0x2, 24), (0x3, 16), (0x4, 16), (0x5, 16), (0x6, 20), (0x7, 20), (0x9, 16),
    (0xb, 80), (0xc, 24), (0xd, 24), (0xe, 12), (0xf, 12), (0x10, 20), (0x11, 40), (0x12, 12),
    (0x13, 12), (0x14, 12), (0x15, 12), (0x16, 16), (0x17, 12), (0x80000018, 24), (0x19, 72),
    (0x1a, 72), (0x1b, 24), (0x8000001c, 12), (0x1d, 16), (0x1e, 16), (0x8000001f, 24),
    (0x20, 24), (0x21, 20), (0x22, 48), (0x80000022, 48), (0x80000023, 24), (0x24, 16),
    (0x25, 16), (0x26, 16), (0x27, 12), (0x80000028, 24), (0x29, 16), (0x2a, 16), (0x2b, 16),
    (0x2c, 24), (0x2d, 16), (0x2e, 16), (0x2f, 16), (0x30, 16), (0x31, 40), (0x32, 24),
    (0x80000033, 16), (0x80000034, 16), (0x80000035, 32)]

/-- Reads a segment, whose content must be in the file. -/
def readSegment? (b : Binary) (width offset : Nat) (c : Commands) : Option Commands := do
  let address ← b.number? width (offset + 24)
  let fileOffset ← b.number? width (offset + 24 + 2 * width)
  let fileSize ← b.number? width (offset + 24 + 3 * width)
  if fileSize > 0 then b.require fileOffset fileSize
  let named := segmentName? b (offset + 8) = some "__TEXT".toList
  let holdsText := b.untilZero 7 (offset + 8) = Text.toBytes "__TEXT".toList
  pure { c with
    textBase := c.textBase.or (if named then some address else none)
    holdsText := c.holdsText || holdsText }

def readSymbolTable? (b : Binary) (offset : Nat) : Option (Nat × Nat × Nat) := do
  let symbols ← b.number? 4 (offset + 8)
  let count ← b.number? 4 (offset + 12)
  let names ← b.number? 4 (offset + 16)
  if names < symbols then none
  b.require symbols 0
  pure (symbols, count, names - symbols)

/-- Commands that name a library or a place of libraries. -/
def namingCommands : List Nat :=
  [0xc, 0xd, 0x80000018, 0x8000001c, 0x8000001f, 0x20, 0x80000023]

/-- Reads the name that a command tells. -/
def readNaming? (b : Binary) (offset : Nat) : Option Unit := do
  let _ ← b.name? (offset + (← b.number? 4 (offset + 8)))
  pure ()

/-- Reads the registers of a thread, at most 70 words. -/
def readThread? (b : Binary) (offset : Nat) : Option Unit := do
  let count ← b.number? 4 (offset + 12)
  if count > 70 then none
  b.require offset (16 + 4 * count)

/-- Types of processors whose registers tell where a thread starts. -/
def threadProcessors : List Nat := [7, 12, 18, 0x1000007, 0x100000c, 0x1000012, 0x200000c]

def readCommand? (b : Binary) (processor offset : Nat) (c : Commands) : Option Commands := do
  let kind ← b.number? 4 offset
  b.require offset ((commandSizes.lookup kind).getD 8)
  if kind = 0x1 then readSegment? b 4 offset c
  else if kind = 0x19 then readSegment? b 8 offset c
  else if kind = 0x2 then pure { c with symbols := some (← readSymbolTable? b offset) }
  else if namingCommands.contains kind then do
    readNaming? b offset
    pure c
  else if kind = 0x4 || kind = 0x5 then do
    readThread? b offset
    if kind = 0x5 && !threadProcessors.contains processor then none
    pure c
  else if kind = 0x80000028 then pure { c with startsInText := true }
  else pure c

/-- Reads `count` load commands, each telling where the next one starts, inside the file or at its
end. -/
def readCommands? (b : Binary) (processor : Nat) : (count offset : Nat) → Commands → Option Commands
  | 0, _, c => some c
  | count + 1, offset, c => do
    let size ← b.number? 4 (offset + 4)
    if offset + size > b.size then none
    readCommands? b processor count (offset + size) (← readCommand? b processor offset c)

/-- The symbol at an offset, unless it is undefined, made for debuggers or nameless. -/
def readSymbol? (b : Binary) (width base names offset : Nat) : Option Symbol := do
  b.require offset (8 + width)
  let nameOffset ← b.number? 4 offset
  let kind ← b.number? 1 (offset + 4)
  let part ← b.number? 1 (offset + 5)
  let value ← b.number? width (offset + 8)
  let name ← b.name? (names + nameOffset)
  let name := (Text.strip? ['_'] name).getD name
  if kind / 32 ≠ 0 || (part = 0 && kind / 2 % 8 = 0) || value = 0 || name.isEmpty then none
  else pure (Binary.above base value, name)

/-- The symbols of one file. -/
def symbols? (b : Binary) : Option (List Symbol) := do
  let (width, littleEndian) ← form? b
  let b := { b with littleEndian }
  let headerSize := if width = 8 then 32 else 28
  b.require 0 headerSize
  let count ← b.number? 4 16
  let size ← b.number? 4 20
  if count > size / 8 || size > b.size then none
  let c ← readCommands? b (← b.number? 4 4) count headerSize ⟨none, none, false, false⟩
  if c.startsInText && !c.holdsText then none
  match c.symbols with
  | none => pure []
  | some (offset, count, names) =>
    let fitting := min count ((b.size - offset) / (8 + width))
    pure <| (List.range fitting).filterMap fun i =>
      readSymbol? b width (c.textBase.getD 0) (offset + names) (offset + i * (8 + width))

/-- One part of a universal file. -/
structure Slice where
  type : Nat
  subtype : Nat
  offset : Nat
  size : Nat
deriving Repr

/-- Names of architectures with their types and subtypes. -/
def architectures : List (String × Nat × Nat) :=
  [("ppc64", 0x1000012, 0), ("x86_64", 0x1000007, 3), ("x86_64h", 0x1000007, 8),
    ("arm64", 0x100000c, 0), ("arm64v8", 0x100000c, 1), ("arm64e", 0x100000c, 2),
    ("arm64_32", 0x200000c, 0), ("arm64_32_v8", 0x200000c, 1), ("ppc970-64", 0x1000012, 100),
    ("ppc", 18, 0), ("i386", 7, 3), ("arm", 12, 0), ("ppc601", 18, 1), ("ppc603", 18, 3),
    ("ppc603e", 18, 4), ("ppc603ev", 18, 5), ("ppc604", 18, 6), ("ppc604e", 18, 7),
    ("ppc750", 18, 9), ("ppc7400", 18, 10), ("ppc7450", 18, 11), ("ppc970", 18, 100),
    ("i486", 7, 4), ("i486SX", 7, 132), ("pentium", 7, 5), ("pentpro", 7, 22),
    ("pentIIm3", 7, 54), ("pentIIm5", 7, 86), ("pentium4", 7, 10), ("armv4t", 12, 5),
    ("armv5", 12, 7), ("xscale", 12, 8), ("armv6", 12, 6), ("armv6m", 12, 14), ("armv7", 12, 9),
    ("armv7f", 12, 10), ("armv7s", 12, 11), ("armv7k", 12, 12), ("armv7m", 12, 15),
    ("armv7em", 12, 16), ("any", 0xffffffff, 0xffffffff), ("little", 0xffffffff, 0),
    ("big", 0xffffffff, 1), ("m68k", 6, 1), ("m68040", 6, 2), ("m68030", 6, 3), ("hppa", 11, 0),
    ("hppa7100LC", 11, 1), ("m88k", 13, 0), ("sparc", 14, 0), ("i860", 15, 0)]

def Slice.hasName (s : Slice) (name : Text) : Bool :=
  architectures.any fun (known, type, subtype) =>
    known.toList == name && type == s.type && subtype == s.subtype

def readSlice? (b : Binary) (offset : Nat) : Option Slice := do
  b.require offset 20
  pure ⟨← b.number? 4 offset, ← b.number? 4 (offset + 4), ← b.number? 4 (offset + 8),
    ← b.number? 4 (offset + 12)⟩

/-- The symbols of a universal file: of the part with the wanted architecture, else of the first. -/
def universalSymbols? (bytes : Array UInt8) (architecture : Option Text) : Option (List Symbol) := do
  let b : Binary := ⟨bytes, false⟩
  let count ← b.number? 4 4
  let slices := (List.range (min count (b.size / 20 + 1))).filterMap fun i => readSlice? b (8 + i * 20)
  let wanted := architecture.bind fun name => slices.find? fun s => s.hasName name
  let slice ← wanted.or slices.head?
  symbols? (b.part slice.offset slice.size)

end MachO

end CrashTriage
