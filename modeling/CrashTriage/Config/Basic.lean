import CrashTriage.Path

/-
The configuration of a reporter. Each field has the value of the usual device layout as its default.
-/
namespace CrashTriage

/-- How far down the list of suspects scripts are evaluated. -/
inductive ClaimPolicy where
  /-- Every suspect's package contributes. -/
  | union
  /-- The first package that ships a script is the last one to contribute. -/
  | firstClaim
deriving DecidableEq, Repr

structure Config where
  mobileLogDir : Path := "/var/mobile/Library/Logs/CrashReporter".toList
  rootLogDir : Path := "/Library/Logs/CrashReporter".toList
  /-- Where a helper may find files that it is to move into place. -/
  tempDir : Path := "/tmp".toList
  dpkgDir : Path := "/var/lib/dpkg".toList
  packageIndex : Option Path := none
  /-- The script evaluated after those of all packages. -/
  defaultScript : Option Path := none
  symbolsDir : Option Path := none
  helper : Option Path := none
  /-- Where a file that no package owns belongs to the system. -/
  applePathPrefixes : List Path :=
    ["/System/", "/usr/lib/", "/Developer/", "/Applications/"].map String.toList
  appContainerPrefixes : List Path :=
    ["/var/mobile/Applications/", "/var/mobile/Containers/Bundle/Application/",
      "/private/var/mobile/Containers/Bundle/Application/"].map String.toList
  syslogPath : Path := "/var/log/syslog".toList
  /-- Seconds before a crash that the system log is narrowed to. -/
  syslogWindow : Int := 60
  claimPolicy : ClaimPolicy := .union
  /-- The file whose time of change is that of the system's installation. -/
  osBuildMarker : Option Path := some "/System/Library/CoreServices/SystemVersion.plist".toList
deriving DecidableEq, Repr

namespace Config

def isApplePath (c : Config) (path : Path) : Bool :=
  c.applePathPrefixes.any fun start => Text.startsWith path start

def dpkgInfoDir (c : Config) : Path := Path.join c.dpkgDir "info".toList

end Config

end CrashTriage
