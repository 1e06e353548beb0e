import CrashTriage.Config.Basic

/-
The fields of a configuration under their written names. Fields that are not given keep their defaults,
unknown fields are passed over, and a known field may stand once.
-/
namespace CrashTriage

/-- How one format writes the values of fields. -/
structure FieldForm (V : Type) where
  text? : V → Option Text
  optionalText? : V → Option (Option Text)
  texts? : V → Option (List Text)
  integer? : V → Option Int
  policy? : V → Option ClaimPolicy

inductive ConfigField where
  | mobileLogDir
  | rootLogDir
  | tempDir
  | dpkgDir
  | packageIndex
  | defaultScript
  | symbolsDir
  | helper
  | applePathPrefixes
  | appContainerPrefixes
  | syslogPath
  | syslogWindow
  | claimPolicy
  | osBuildMarker
deriving DecidableEq, Repr

namespace ConfigField

/-- The fields with their written names, in the order in which a list gives them. -/
def names : List (ConfigField × String) :=
  [(.mobileLogDir, "mobile_log_dir"), (.rootLogDir, "root_log_dir"), (.tempDir, "temp_dir"),
    (.dpkgDir, "dpkg_dir"), (.packageIndex, "package_index"), (.defaultScript, "default_script"),
    (.symbolsDir, "symbols_dir"), (.helper, "helper"),
    (.applePathPrefixes, "apple_path_prefixes"),
    (.appContainerPrefixes, "app_container_prefixes"), (.syslogPath, "syslog_path"),
    (.syslogWindow, "syslog_window_secs"), (.claimPolicy, "claim_policy"),
    (.osBuildMarker, "os_build_marker")]

def ofName? (name : Text) : Option ConfigField :=
  (names.find? fun f => f.2.toList == name).map (·.1)

/-- The configuration with one field read. -/
def assign? (form : FieldForm V) (c : Config) (v : V) : ConfigField → Option Config
  | .mobileLogDir => (form.text? v).map fun x => { c with mobileLogDir := x }
  | .rootLogDir => (form.text? v).map fun x => { c with rootLogDir := x }
  | .tempDir => (form.text? v).map fun x => { c with tempDir := x }
  | .dpkgDir => (form.text? v).map fun x => { c with dpkgDir := x }
  | .packageIndex => (form.optionalText? v).map fun x => { c with packageIndex := x }
  | .defaultScript => (form.optionalText? v).map fun x => { c with defaultScript := x }
  | .symbolsDir => (form.optionalText? v).map fun x => { c with symbolsDir := x }
  | .helper => (form.optionalText? v).map fun x => { c with helper := x }
  | .applePathPrefixes => (form.texts? v).map fun x => { c with applePathPrefixes := x }
  | .appContainerPrefixes => (form.texts? v).map fun x => { c with appContainerPrefixes := x }
  | .syslogPath => (form.text? v).map fun x => { c with syslogPath := x }
  | .syslogWindow => (form.integer? v).map fun x => { c with syslogWindow := x }
  | .claimPolicy => (form.policy? v).map fun x => { c with claimPolicy := x }
  | .osBuildMarker => (form.optionalText? v).map fun x => { c with osBuildMarker := x }

end ConfigField

namespace ClaimPolicy

def code : ClaimPolicy → Text
  | .union => "union".toList
  | .firstClaim => "first-claim".toList

def ofCode? (t : Text) : Option ClaimPolicy := [ClaimPolicy.union, .firstClaim].find? (·.code == t)

end ClaimPolicy

namespace Config

/-- Reads named fields over a configuration, no known one twice. -/
def readMembers? (form : FieldForm V) :
    (seen : List ConfigField) → Config → List (Text × V) → Option Config
  | _, c, [] => some c
  | seen, c, (name, v) :: rest =>
    match ConfigField.ofName? name with
    | none => readMembers? form seen c rest
    | some f =>
      if seen.contains f then none
      else (f.assign? form c v).bind fun c => readMembers? form (f :: seen) c rest

/-- Reads fields by position. -/
def readPositions? (form : FieldForm V) :
    (fields : List ConfigField) → Config → List V → Option Config
  | _, c, [] => some c
  | [], _, _ :: _ => none
  | f :: fields, c, v :: rest =>
    (f.assign? form c v).bind fun c => readPositions? form fields c rest

def fits64 (n : Int) : Bool := -(Nat.pow 2 63 : Int) ≤ n && n < Nat.pow 2 63

end Config

end CrashTriage
