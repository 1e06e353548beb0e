import CrashTriage.Json.Reader
import CrashTriage.Package.Index.Tables
import CrashTriage.Text.Bytes

/-
The file of a package index: a mark and the tables as JSON after it. Any other file is no index.
-/
namespace CrashTriage

open Json

namespace PackageRow

def toJson (r : PackageRow) : Json :=
  .array [.string r.identifier, optional .string r.storeIdentifier, .string r.name,
    optional .string r.author, .bool r.isAppStore]

def optionalText? : Json → Option (Option Text)
  | .null => some none
  | .string t => some (some t)
  | _ => none

def ofJson? : Json → Option PackageRow
  | .array [.string identifier, store, .string name, author, .bool isAppStore] => do
    pure ⟨identifier, ← optionalText? store, name, ← optionalText? author, isAppStore⟩
  | _ => none

end PackageRow

namespace FileRow

def toJson (r : FileRow) : Json := .array [.string r.path, .string r.identifier]

def ofJson? : Json → Option FileRow
  | .array [.string path, .string identifier] => some ⟨path, identifier⟩
  | _ => none

end FileRow

namespace LineRow

def toJson (r : LineRow) : Json := .array [.string r.identifier, nat r.number, .string r.line]

def ofJson? : Json → Option LineRow
  | .array [.string identifier, .integer number, .string line] =>
    some ⟨identifier, number.toNat, line⟩
  | _ => none

end LineRow

namespace IndexTables

/-- The rows of a table that may be missing. -/
def rows? (row? : Json → Option α) : Json → Option (Option (List α))
  | .null => some none
  | .array rows => (rows.mapM row?).map some
  | _ => none

def toJson (t : IndexTables) : Json :=
  .array [.integer t.version, optional (list PackageRow.toJson) t.packages,
    optional (list FileRow.toJson) t.files, optional (list LineRow.toJson) t.lines]

def ofJson? : Json → Option IndexTables
  | .array [.integer version, packages, files, lines] => do
    pure ⟨version, ← rows? PackageRow.ofJson? packages, ← rows? FileRow.ofJson? files,
      ← rows? LineRow.ofJson? lines⟩
  | _ => none

/-- What the file of an index begins with. -/
def fileMark : Text := "package index\n".toList

def toBytes (t : IndexTables) : Bytes := Text.toBytes (fileMark ++ t.toJson.compact)

/-- The tables in the file of an index; none for any other file. -/
def ofBytes? (bytes : Bytes) : Option IndexTables := do
  ofJson? (← Json.read? (← Text.strip? fileMark (← Bytes.toText? bytes)))

end IndexTables

end CrashTriage
