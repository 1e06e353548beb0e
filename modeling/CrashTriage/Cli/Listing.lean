import CrashTriage.Config.Reader
import CrashTriage.Log.Directory
import CrashTriage.Package.Index.Stored
import CrashTriage.Report.Encoding

/-
What commands print, for people to read and as JSON.
-/
namespace CrashTriage

open Text

namespace Listing

/-- A placeholder for an empty list. -/
def nothing : Text := "(none)".toList

/-- A heading with its lines, or with a placeholder. -/
def titled (title : String) (lines : List Text) : List Text :=
  title.toList :: if lines.isEmpty then [nothing] else lines

/-- A name and value on a line of their own. -/
def entry (name : String) (value : Text) : Text :=
  "  ".toList ++ name.toList ++ ": ".toList ++ value

def optionalEntry (name : String) (value : Option Text) : List Text := (value.map (entry name)).toList

def listedDate (date : Option Moment) : Text := (date.map Moment.listed).getD ['-']

end Listing

open Listing

namespace LogGroup

def listed (g : LogGroup) : List Text :=
  ("- ".toList ++ g.name ++ " (".toList ++ ofNat g.logs.length ++ " in ".toList ++ g.directory ++ [')'])
    :: g.logs.map fun log => "    ".toList ++ listedDate log.date ++ "  ".toList ++ log.path

def toJson (g : LogGroup) : Json :=
  .record [("name", .string g.name), ("directory", .string g.directory),
    ("logs", .list (fun log : CrashLog =>
      .record [("path", .string log.path), ("date", .optional Moment.toJson log.date)]) g.logs)]

end LogGroup

namespace Suspect

/-- The name of an image with its owner. -/
def listed (s : Suspect) : Text :=
  s.image.name ++ " (".toList ++ s.resolution.label ++ [')']

def listedWithPath (s : Suspect) : Text :=
  s.image.name ++ " [".toList ++ s.image.path ++ "] (".toList ++ s.resolution.label ++ [')']

def victimLine (victim : Option Suspect) : Text :=
  "Victim: ".toList ++ match victim with
    | some s => s.listed
    | none => "(unknown)".toList

/-- Suspects with their ranks. -/
def ranked (form : Suspect → Text) (suspects : List Suspect) : List Text :=
  titled "Suspects:" (suspects.zipIdx.map fun (s, n) =>
    "  ".toList ++ ofNat (n + 1) ++ ". ".toList ++ form s)

end Suspect

namespace Header

def listed (h : Header) : List Text :=
  [entry "Process" h.processName] ++ optionalEntry "Path" h.processPath ++
  [entry "Date" (h.date.written ' ')] ++ optionalEntry "OS Version" h.osVersion ++
  optionalEntry "Exception" h.exceptionType ++ [entry "Crashed thread" (ofNat h.crashedThread)]

end Header

/-- A log with the owners of its images. -/
structure LogDescription where
  log : CrashLog
  victim : Option Suspect
  suspects : List Suspect
  potential : List Suspect
deriving DecidableEq, Repr

namespace LogDescription

def listed (x : LogDescription) : List Text :=
  ["Crash log: ".toList ++ x.log.path] ++
  ((x.log.loaded.map (·.header.listed)).getD []) ++
  [entry "Type" x.log.logType.label,
    entry "Symbolicated" (if x.log.symbolicated then "yes".toList else "no".toList),
    Suspect.victimLine x.victim] ++
  Suspect.ranked Suspect.listedWithPath x.suspects

def toJson (x : LogDescription) : Json :=
  .record [("log", x.log.toJson),
    ("header", .optional Header.toJson (x.log.loaded.map (·.header))),
    ("victim", .optional Suspect.toJson x.victim), ("suspects", .list Suspect.toJson x.suspects),
    ("potential_suspects", .list Suspect.toJson x.potential)]

end LogDescription

namespace SymbolicationSummary

def listed (s : SymbolicationSummary) (path : Path) : List Text :=
  ["Symbolicated ".toList ++ path, entry "Resolved frames" (ofNat s.resolved),
    entry "Unresolved frames" (ofNat s.errors.length)] ++
  s.errors.map fun e => "    - ".toList ++ e.message

end SymbolicationSummary

namespace LinkTarget

def listed : LinkTarget → Text
  | .url u => u
  | .email recipients => "mailto:".toList ++ joinWith [','] recipients

end LinkTarget

namespace Report

/-- A bullet with a title. -/
def bullet (title rest : Text) : Text := "  - ".toList ++ title ++ rest

def linkLine? (i : Instruction) : Option Text :=
  i.link?.map fun l => bullet i.title (": ".toList ++ l.target.listed)

def evidenceLine (e : Evidence) : Text :=
  bullet e.instruction.title (" (".toList ++ ofNat (byteSize e.content) ++ " bytes)".toList)

def failureLine (f : IncludeFailure) : Text := bullet f.title (": ".toList ++ f.error.message)

def listed (r : Report) : List Text :=
  ["Report for ".toList ++ r.log.name ++ " (".toList ++ r.log.path ++ [')']] ++
  optionalEntry "SHA-256" r.log.fingerprint ++ [Suspect.victimLine r.victim] ++
  Suspect.ranked Suspect.listed r.suspects ++
  titled "Links:" (r.links.filterMap linkLine?) ++
  titled "Includes:" (r.includes.map evidenceLine) ++
  (if r.failures.isEmpty then [] else titled "Failures:" (r.failures.map failureLine))

end Report

namespace ImportCounts

def listed (n : ImportCounts) (index : Path) : List Text :=
  ["Indexed packages:".toList, entry "Packages" (ofNat n.packages), entry "Files" (ofNat n.files),
    entry "Script lines" (ofNat n.scriptLines), entry "Index" index]

end ImportCounts

namespace EvaluatedScripts

def listedCounts (e : EvaluatedScripts) : Text :=
  "# ".toList ++ ofNat e.links.length ++ " link(s) after deny, ".toList ++
    ofNat e.includes.length ++ " include(s)".toList

end EvaluatedScripts

end CrashTriage
