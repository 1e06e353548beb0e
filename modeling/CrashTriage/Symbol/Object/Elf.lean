import CrashTriage.Symbol.Object.Binary

/-
Function symbols of ELF files: those of the last symbol table section, then those of the dynamic
symbol table. The size of the latter follows from its hash tables and from the relocations that
name its symbols. Offsets are counted from the lowest loadable segment. A file with a broken
structure yields nothing.
-/
namespace CrashTriage

namespace Elf

structure Segment where
  type : Nat
  offset : Nat
  address : Nat
  fileSize : Nat
  memorySize : Nat
deriving Repr

structure Section where
  type : Nat
  address : Nat
  offset : Nat
  size : Nat
  link : Nat
  entrySize : Nat
deriving Repr

/-- A file with the width of its addresses in bytes: 4 or 8. -/
structure File where
  binary : Binary
  width : Nat
  machine : Nat
  segments : List Segment
  sections : List Section

namespace File

def is64 (f : File) : Bool := f.width == 8

end File

def loadable : Nat := 1

def dynamicSegment : Nat := 2

/-- Numbers of the given widths, one after the other. -/
def fields? (b : Binary) : (offset : Nat) → (widths : List Nat) → Option (List Nat)
  | _, [] => some []
  | offset, w :: rest => do
    let n ← b.number? w offset
    let others ← fields? b (offset + w) rest
    pure (n :: others)

def readSegment? (b : Binary) (width offset : Nat) : Option Segment := do
  if width = 8 then
    match ← fields? b offset [4, 4, 8, 8, 8, 8, 8, 8] with
    | [type, _, fileOffset, address, _, fileSize, memorySize, _] =>
      pure ⟨type, fileOffset, address, fileSize, memorySize⟩
    | _ => none
  else
    match ← fields? b offset [4, 4, 4, 4, 4, 4, 4, 4] with
    | [type, fileOffset, address, _, fileSize, memorySize, _, _] =>
      pure ⟨type, fileOffset, address, fileSize, memorySize⟩
    | _ => none

def readSection? (b : Binary) (width offset : Nat) : Option Section := do
  match ← fields? b offset [4, 4, width, width, width, width, 4, 4, width, width] with
  | [_, type, _, address, fileOffset, size, link, _, _, entrySize] =>
    pure ⟨type, address, fileOffset, size, link, entrySize⟩
  | _ => none

def segmentSize (width : Nat) : Nat := if width = 8 then 56 else 32

def sectionSize (width : Nat) : Nat := if width = 8 then 64 else 40

def symbolSize (width : Nat) : Nat := if width = 8 then 24 else 16

def readSegments? (b : Binary) (width offset count : Nat) : Option (List Segment) := do
  if count > b.size / segmentSize width then none
  (List.range count).mapM fun i => readSegment? b width (offset + i * segmentSize width)

/-- The section headers. A count of zero stands for the size that the first header gives. -/
def readSections? (b : Binary) (width offset count : Nat) : Option (List Section) := do
  if offset = 0 then return []
  let first ← readSection? b width offset
  let count := if count = 0 then first.size else count
  if count > b.size / sectionSize width then none
  let others ← (List.range (count - 1)).mapM fun i =>
    readSection? b width (offset + (i + 1) * sectionSize width)
  pure (first :: others)

/-- A table of names: the bytes between two offsets. -/
structure Names where
  start : Nat
  stop : Nat

/-- A table of names, all of which must be UTF-8. -/
def readNames? (b : Binary) (offset size : Nat) : Option Names := do
  if offset + size > b.size then none
  let _ ← Bytes.toText? (b.bytes.extract offset (offset + size)).toList
  pure ⟨offset, offset + size⟩

def Names.empty : Names := ⟨0, 0⟩

/-- The name at an offset into a table. -/
def Names.get? (names : Names) (b : Binary) (offset : Nat) : Option Text :=
  if names.start + offset < names.stop then
    Bytes.toText? (b.untilZero (names.stop - (names.start + offset)) (names.start + offset))
  else none

/-- Does the file hold all of a section, and the address space too? -/
def Section.isWhole (s : Section) (b : Binary) : Bool :=
  s.type == 8 || s.size == 0 || (s.offset + s.size ≤ b.size && s.address + s.size < Nat.pow 2 64)

/-- The name table in the section with an index; 0xffff refers to the link of the first section. -/
def sectionNames? (f : File) (index : Nat) : Option Names := do
  let index ←
    if index = 0xffff then
      match f.sections with
      | [] => return .empty
      | first :: _ => pure first.link
    else pure index
  match f.sections[index]? with
  | none => pure .empty
  | some s => if s.isWhole f.binary then readNames? f.binary s.offset s.size else none

/-- A function's address and the offset of its name. -/
def readFunction? (f : File) (offset : Nat) : Option (Nat × Nat) := do
  let (name, info, index, value) ←
    if f.is64 then
      match ← fields? f.binary offset [4, 1, 1, 2, 8, 8] with
      | [name, info, _, index, value, _] => pure (name, info, index, value)
      | _ => none
    else
      match ← fields? f.binary offset [4, 4, 4, 1, 1, 2] with
      | [name, value, _, info, _, index] => pure (name, info, index, value)
      | _ => none
  if info % 16 = 2 && value ≠ 0 && index ≠ 0 then pure (value, name) else none

/-- The named functions of a symbol table, their addresses rebased. -/
def readTable? (f : File) (base offset count : Nat) (names : Names) : Option (List Symbol) := do
  f.binary.require offset (count * symbolSize f.width)
  pure <| (List.range count).filterMap fun i => do
    let (value, name) ← readFunction? f (offset + i * symbolSize f.width)
    let text ← names.get? f.binary name
    if text.isEmpty then none else pure (Binary.above base value, text)

/-- The offset in the file of an address in memory. -/
def fileOffset? (f : File) (address : Nat) : Option Nat :=
  (f.segments.find? fun s =>
    s.type == loadable && s.address ≤ address && address - s.address < s.memorySize).bind fun s =>
      let offset := s.offset + (address - s.address)
      if offset < Nat.pow 2 64 then some offset else none

/-- The entries of the dynamic section up to the closing one. -/
def readDynamic? (f : File) (s : Segment) : Option (List (Nat × Nat)) := do
  if s.fileSize > 0 then f.binary.require s.offset s.fileSize
  let entries ← (List.range (s.fileSize / (2 * f.width))).mapM fun i => do
    let offset := s.offset + i * (2 * f.width)
    pure (← f.binary.number? f.width offset, ← f.binary.number? f.width (offset + f.width))
  pure (entries.takeWhile fun e => e.1 ≠ 0)

/-- The last entry with a tag. -/
def dynamicValue? (entries : List (Nat × Nat)) (tag : Nat) : Option Nat :=
  (entries.reverse.find? fun e => e.1 == tag).map (·.2)

/-- The highest symbol that a relocation table names. -/
def lastRelocated? (f : File) (offset size : Nat) (withAddend : Bool) : Option Nat := do
  if size = 0 then return 0
  f.binary.require offset size
  let step := if withAddend then 3 * f.width else 2 * f.width
  let symbols ← (List.range (size / step)).mapM fun i => do
    let info ← f.binary.number? f.width (offset + i * step + f.width)
    pure (if f.is64 then info / Nat.pow 2 32 else info / Nat.pow 2 8)
  pure (symbols.foldl max 0)

/-- Follows a chain of hashes to its end; `fuel` bounds its length. -/
def chainEnd? (f : File) : (fuel index offset : Nat) → Option Nat
  | 0, _, _ => none
  | fuel + 1, index, offset => do
    let hash ← f.binary.number? 4 offset
    if hash % 2 = 1 then pure (index + 1) else chainEnd? f fuel (index + 1) (offset + 4)

/-- The number of symbols that a GNU hash table covers. -/
def gnuHashCount? (f : File) (offset : Nat) : Option Nat := do
  let buckets ← f.binary.number? 4 offset
  let first ← f.binary.number? 4 (offset + 4)
  let bloom ← f.binary.number? 4 (offset + 8)
  if buckets = 0 || first = 0 || bloom = 0 then none
  let start := offset + 16 + bloom * f.width
  f.binary.require start (buckets * 4)
  let chains ← (List.range buckets).mapM fun i => f.binary.number? 4 (start + i * 4)
  let last := chains.foldl max 0
  if last < first then pure 0
  else chainEnd? f f.binary.size last (start + buckets * 4 + (last - first) * 4)

/-- The number of symbols that a hash table covers. Two machines use wide words in it. -/
def hashCount? (f : File) (offset : Nat) : Option Nat :=
  if f.is64 && (f.machine == 0x9026 || f.machine == 22) then f.binary.number? 8 (offset + 4)
  else f.binary.number? 4 (offset + 4)

/-- The functions of the dynamic symbol table. -/
def dynamicSymbols? (f : File) (base : Nat) : Option (List Symbol) := do
  match f.segments.find? fun s => s.type == dynamicSegment with
  | none => pure []
  | some s =>
    let entries ← readDynamic? f s
    let offsetOf := fun tag => ((dynamicValue? entries tag).bind (fileOffset? f)).getD 0
    let sizeOf := fun tag => (dynamicValue? entries tag).getD 0
    let names ← readNames? f.binary (offsetOf 5) (sizeOf 10)
    let rela ← lastRelocated? f (offsetOf 7) (sizeOf 8) true
    let rel ← lastRelocated? f (offsetOf 17) (sizeOf 18) false
    let plt ← lastRelocated? f (offsetOf 23) (sizeOf 2) (sizeOf 20 == 7)
    let hashed ←
      match (dynamicValue? entries 0x6ffffef5).bind (fileOffset? f),
          (dynamicValue? entries 4).bind (fileOffset? f) with
      | some offset, _ => gnuHashCount? f offset
      | none, some offset => hashCount? f offset
      | none, none => pure 0
    let relocated := max rela (max rel plt)
    let count := if relocated = 0 then hashed else max hashed (relocated + 1)
    readTable? f base (offsetOf 6) count names

/-- The functions of the last symbol table section. -/
def sectionSymbols? (f : File) (base : Nat) : Option (List Symbol) := do
  match f.sections.reverse.find? fun s => s.type == 2 with
  | none => pure []
  | some s =>
    let count := if s.entrySize = 0 then 0 else s.size / s.entrySize
    let names ← sectionNames? f s.link
    readTable? f base s.offset count names

/-- Reads the headers of a file; class and byte order stand in its first bytes. -/
def readFile? (bytes : Array UInt8) : Option File := do
  let width ← match (bytes[4]?).getD (0 : UInt8) with
    | 1 => some 4
    | 2 => some 8
    | _ => none
  let littleEndian ← match (bytes[5]?).getD (0 : UInt8) with
    | 1 => some true
    | 2 => some false
    | _ => none
  let b : Binary := ⟨bytes, littleEndian⟩
  match ← fields? b 16 [2, 2, 4, width, width, width, 4, 2, 2, 2, 2, 2, 2] with
  | [_, machine, _, _, segmentOffset, sectionOffset, _, _, _, segmentCount, _, sectionCount, names] =>
    let segments ← readSegments? b width segmentOffset segmentCount
    let sections ← readSections? b width sectionOffset sectionCount
    let f : File := ⟨b, width, machine, segments, sections⟩
    let _ ← sectionNames? f names
    pure f
  | _ => none

/-- Are all relocation sections inside the file? -/
def relocationsWhole (f : File) : Bool :=
  f.sections.all fun s =>
    !(s.type == 4 || s.type == 9) || (s.isWhole f.binary && (s.size == 0 || f.binary.holds s.offset s.size))

/-- Types of sections that tell the versions of symbols. -/
def versionTypes : List Nat := [0x6ffffffd, 0x6ffffffe, 0x6fffffff]

/-- Is the first section of each type that tells versions inside the file? -/
def versionsWhole (f : File) : Bool :=
  versionTypes.all fun type =>
    (f.sections.find? fun s => s.type == type).all fun s => f.binary.holds s.offset s.size

/-- The functions of an ELF file. -/
def symbols? (bytes : Array UInt8) : Option (List Symbol) := do
  let f ← readFile? bytes
  let base := ((f.segments.filter fun s => s.type == loadable).map (·.address)).min?.getD 0
  let fromSections ← sectionSymbols? f base
  let fromDynamic ← dynamicSymbols? f base
  if relocationsWhole f && versionsWhole f then pure (fromSections ++ fromDynamic) else none

end Elf

end CrashTriage
