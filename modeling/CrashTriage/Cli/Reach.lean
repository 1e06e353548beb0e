import CrashTriage.Cli.Run

/-
What an invocation may look at. A program that holds only a part of a disk can ask again after it
has read what was named: a configuration names directories, a log names images, scripts name files.
-/
namespace CrashTriage

namespace Config

def paths (c : Config) : List Path :=
  [c.mobileLogDir, c.rootLogDir, c.tempDir, c.dpkgDir, c.dpkgInfoDir, c.syslogPath] ++
    [c.packageIndex, c.defaultScript, c.symbolsDir, c.helper, c.osBuildMarker].filterMap id

end Config

namespace Include

/-- The file that an include reads. -/
def path? (e : Include) : Option Path :=
  match e.kind with
  | .command => none
  | _ => some e.target

end Include

namespace Command

/-- The paths that a command was given. -/
def paths : Command → List Path
  | .list directory _ => directory.toList
  | .describe log _ => [log]
  | .symbolicate log symbols systemRoot _ => [log] ++ symbols.toList ++ systemRoot.toList
  | .report log _ symbols _ => [log] ++ symbols.toList
  | .delete log => [log]
  | .indexPackages dpkgDir output =>
    (dpkgDir.map fun d => [d, (DpkgDatabase.ofDir d).infoDir]).getD [] ++ output.toList
  | .checkScript script _ => [script]

/-- The log that a command reads, with the root of the images' files. -/
def log? : Command → Option (Path × Option Path)
  | .describe log _ => some (log, none)
  | .symbolicate log _ systemRoot _ => some (log, systemRoot)
  | .report log _ _ _ => some (log, none)
  | _ => none

/-- The files of the images of a log, and the files that its report includes. -/
def logPaths (h : Host) (c : Config) (log : CrashLog) (systemRoot : Option Path) : List Path :=
  let objects := ObjectFiles.ofRoot systemRoot
  let included := match PackageSource.ofConfig c h with
    | (.ok source, h) =>
      let built := source.freshly c (Report.build h.disk c (PackageSource.resolve h.disk) log)
      built.1.includes.filterMap fun e => e.instruction.include?.bind Include.path?
    | (.error _, _) => []
  log.images.map (·.path) ++ log.images.map objects.file ++ included

end Command

namespace Invocation

/-- Paths that a run may look at, as far as the disk at hand tells. -/
def paths (s : Surroundings) (i : Invocation) (h : Host) : List Path :=
  let config := i.config.or (s.environment.lookup "CRASHREPORT_CONFIG".toList)
  let c := ((config.map (Config.load h.disk)).getD (.ok {})).toOption.getD {}
  let further := match i.command.log? with
    | some (path, systemRoot) =>
      match (CrashLog.ofPath path).load h.disk c.osBuildMarker s.thisYear with
      | .ok log => Command.logPaths h c log systemRoot
      | .error _ => []
    | none => []
  config.toList ++ c.paths ++ i.command.paths ++ further

end Invocation

end CrashTriage
