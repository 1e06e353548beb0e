import CrashTriage.Config.Basic
import CrashTriage.Disk.Basic
import CrashTriage.Symbol.File
import CrashTriage.Symbol.Memory
import CrashTriage.Symbol.Object.Elf
import CrashTriage.Symbol.Object.MachO

/-
Where symbol tables come from: tables registered ahead, directories of symbol files named after build
identifiers, and the images' own files. What was read from a file, or found missing, is kept.
-/
namespace CrashTriage

namespace ObjectFile

/-- The symbols in the bytes of an image's file, whatever its format. -/
def symbols? (bytes : Array UInt8) (architecture : Option Text) : Option (List Symbol) :=
  if bytes.size < 16 then none
  else if bytes[0]? = some 0x7f && bytes[1]? = some 0x45 && bytes[2]? = some 0x4c &&
      bytes[3]? = some 0x46 then Elf.symbols? bytes
  else if (Binary.mk bytes false).number? 4 0 = some 0xcafebabe then
    MachO.universalSymbols? bytes architecture
  else MachO.symbols? ⟨bytes, false⟩

/-- The symbol table of the file at a path; none when it has no symbols. -/
def read? (d : Disk) (path : Path) (architecture : Option Text) : Option SymbolTable := do
  let bytes ← (d.read path).toOption
  let found ← symbols? bytes.toArray architecture
  if found.isEmpty then none else pure (SymbolTable.ofList found)

end ObjectFile

/-- A directory of files `IDENTIFIER.sym`. -/
structure SymbolDirectory where
  directory : Path
  /-- What was read, by identifier. -/
  known : List (Text × Option SymbolTable)
deriving DecidableEq

namespace SymbolDirectory

def ofPath (directory : Path) : SymbolDirectory := ⟨directory, []⟩

/-- The file for an identifier. -/
def file (s : SymbolDirectory) (key : Text) : Path := Path.join s.directory (key ++ ".sym".toList)

def read? (d : Disk) (s : SymbolDirectory) (key : Text) : Option SymbolTable :=
  let path := s.file key
  if d.isFile path then (d.readText path).toOption.map SymbolFile.read else none

def symbolsFor (d : Disk) (image : Image) : StateM SymbolDirectory (Option SymbolTable) := do
  match image.uuidKey with
  | none => pure none
  | some key =>
    let s ← get
    match s.known.lookup key with
    | some table => pure table
    | none =>
      let table := s.read? d key
      set { s with known := (key, table) :: s.known }
      pure table

end SymbolDirectory

/-- The images' own files, perhaps below a root. -/
structure ObjectFiles where
  root : Option Path
  /-- What was read, by the components of the file's path. -/
  known : List (List Component × Option SymbolTable)
deriving DecidableEq

namespace ObjectFiles

def ofRoot (root : Option Path) : ObjectFiles := ⟨root, []⟩

/-- The file of an image. -/
def file (o : ObjectFiles) (image : Image) : Path :=
  match o.root with
  | some root => Path.join root (image.path.dropWhile (· == '/'))
  | none => image.path

def symbolsFor (d : Disk) (image : Image) : StateM ObjectFiles (Option SymbolTable) := do
  let o ← get
  let path := o.file image
  let key := Path.components path
  match o.known.lookup key with
  | some table => pure table
  | none =>
    let table := ObjectFile.read? d path image.arch
    set { o with known := (key, table) :: o.known }
    pure table

end ObjectFiles

inductive SymbolSource where
  | memory (symbols : MemorySymbols)
  | directory (source : SymbolDirectory)
  | objects (source : ObjectFiles)
deriving DecidableEq

namespace SymbolSource

/-- The table of an image, with the source as it is afterwards. -/
def symbolsFor (d : Disk) (image : Image) : SymbolSource → Option SymbolTable × SymbolSource
  | .memory m => (m.symbolsFor image, .memory m)
  | .directory s =>
    let (table, s) := (SymbolDirectory.symbolsFor d image).run s
    (table, .directory s)
  | .objects o =>
    let (table, o) := (ObjectFiles.symbolsFor d image).run o
    (table, .objects o)

end SymbolSource

/-- Sources that are asked in order until one answers. -/
abbrev SymbolChain := List SymbolSource

namespace SymbolChain

def ask (d : Disk) (image : Image) : SymbolChain → Option SymbolTable × SymbolChain
  | [] => (none, [])
  | s :: rest =>
    match s.symbolsFor d image with
    | (some table, s) => (some table, s :: rest)
    | (none, s) =>
      let (table, rest) := ask d image rest
      (table, s :: rest)

/-- The table of an image from the first source that has one. -/
def symbolsFor (d : Disk) (image : Image) : StateM SymbolChain (Option SymbolTable) :=
  modifyGet (ask d image)

/-- The directory that is asked for, else the configured one, then the images' files. -/
def ofConfig (c : Config) (directory root : Option Path) : SymbolChain :=
  ((directory.or c.symbolsDir).map fun d => .directory (SymbolDirectory.ofPath d)).toList ++
    [.objects (ObjectFiles.ofRoot root)]

end SymbolChain

end CrashTriage
