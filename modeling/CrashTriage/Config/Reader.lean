import CrashTriage.Config.YamlForm
import CrashTriage.Disk.Basic
import CrashTriage.Json.Reader

/-
Configuration files: JSON, or YAML when the name ends in `.yaml` or `.yml`. In JSON a list gives the
fields by position.
-/
namespace CrashTriage

namespace Config

def jsonText? : Json → Option Text
  | .string t => some t
  | _ => none

def jsonForm : FieldForm Json where
  text? := jsonText?
  optionalText?
    | .null => some none
    | v => (jsonText? v).map some
  texts?
    | .array elements => elements.mapM jsonText?
    | _ => none
  integer?
    | .integer n => if fits64 n then some n else none
    | _ => none
  policy?
    | .string t => ClaimPolicy.ofCode? t
    | .object [(name, .null)] => ClaimPolicy.ofCode? name
    | _ => none

def ofJson? : Json → Option Config
  | .object members => readMembers? jsonForm [] {} members
  | .array elements => readPositions? jsonForm (ConfigField.names.map (·.1)) {} elements
  | _ => none

end Config

inductive ConfigError where
  /-- The cause is missing when the file is no text. -/
  | unreadable (path : Path) (cause : Option OsError)
  | malformed (path : Path) (format : Text)
deriving DecidableEq, Repr

namespace ConfigError

def message : ConfigError → Text
  | .unreadable path _ => "Failed to read config at ".toList ++ path
  | .malformed path format =>
    "Failed to parse config ".toList ++ format ++ " at ".toList ++ path

/-- The messages of what lies behind an error. -/
def causes : ConfigError → List Text
  | .unreadable _ (some cause) => [cause.message]
  | .unreadable _ none => ["stream did not contain valid UTF-8".toList]
  | .malformed _ _ => ["invalid configuration".toList]

end ConfigError

namespace Config

def isYaml (path : Path) : Bool :=
  match Path.extension? path with
  | some e => e = "yaml".toList || e = "yml".toList
  | none => false

/-- Reads a configuration file. -/
def load (d : Disk) (path : Path) : Except ConfigError Config := do
  let bytes ← (d.read path).mapError fun e => .unreadable path (some e)
  let some body := Bytes.toText? bytes | throw (.unreadable path none)
  if isYaml path then
    let some c := (Yaml.Document.ofText? body).bind ofYaml? | throw (.malformed path "YAML".toList)
    pure c
  else
    let isKnown := fun name => (ConfigField.ofName? name).isSome
    let some c := (Json.readKnown? isKnown body).bind ofJson? | throw (.malformed path "JSON".toList)
    pure c

open Json in
def toJson (c : Config) : Json :=
  .object <|
    [("mobile_log_dir".toList, .string c.mobileLogDir), ("root_log_dir".toList, .string c.rootLogDir),
      ("temp_dir".toList, .string c.tempDir), ("dpkg_dir".toList, .string c.dpkgDir)] ++
    optionalMember "package_index" .string c.packageIndex ++
    optionalMember "default_script" .string c.defaultScript ++
    optionalMember "symbols_dir" .string c.symbolsDir ++
    optionalMember "helper" .string c.helper ++
    [("apple_path_prefixes".toList, strings c.applePathPrefixes),
      ("app_container_prefixes".toList, strings c.appContainerPrefixes),
      ("syslog_path".toList, .string c.syslogPath),
      ("syslog_window_secs".toList, .integer c.syslogWindow),
      ("claim_policy".toList, .string c.claimPolicy.code)] ++
    optionalMember "os_build_marker" .string c.osBuildMarker

end Config

end CrashTriage
