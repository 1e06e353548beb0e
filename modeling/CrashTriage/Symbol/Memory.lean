import CrashTriage.Image
import CrashTriage.Symbol.Table

/-
Symbol tables registered ahead, by build identifier or by path. A table found by identifier goes
before one found by path, and of two tables under one key the later one counts.
-/
namespace CrashTriage

structure MemorySymbols where
  byUuid : List (Text × SymbolTable)
  byPath : List (Path × SymbolTable)
deriving DecidableEq

namespace MemorySymbols

def empty : MemorySymbols := ⟨[], []⟩

def insertUuid (m : MemorySymbols) (uuid : Text) (table : SymbolTable) : MemorySymbols :=
  { m with byUuid := (Image.normalizeUuid uuid, table) :: m.byUuid }

def insertPath (m : MemorySymbols) (path : Path) (table : SymbolTable) : MemorySymbols :=
  { m with byPath := (path, table) :: m.byPath }

def symbolsFor (m : MemorySymbols) (image : Image) : Option SymbolTable :=
  (image.uuidKey.bind fun key => m.byUuid.lookup key).or (m.byPath.lookup image.path)

end MemorySymbols

end CrashTriage
