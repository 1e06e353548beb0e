import CrashTriage.Json.Value
import CrashTriage.Report.Assembly

/-
The JSON forms of crash reports, images, instructions and summaries. Members without a value are
left out where a reader may take their absence for it.
-/
namespace CrashTriage

open Json

def Moment.toJson (m : Moment) : Json := .string (m.written 'T')

def Image.members (i : Image) : List (Text × Json) :=
  [("base".toList, word i.base), ("size".toList, word i.size), ("name".toList, .string i.name),
    ("path".toList, .string i.path)] ++
  optionalMember "arch" .string i.arch ++ optionalMember "version" .string i.version ++
  optionalMember "uuid" .string i.uuid ++
  [("from_unofficial_source".toList, .bool i.fromUnofficialSource),
    ("newer_than_os_build".toList, .bool i.newerThanOsBuild)]

def Image.toJson (i : Image) : Json := .object i.members

def Header.toJson (h : Header) : Json :=
  .object <|
    [("process_name".toList, .string h.processName)] ++
    optionalMember "pid" .integer h.pid ++
    optionalMember "process_path" .string h.processPath ++
    optionalMember "identifier" .string h.identifier ++
    optionalMember "version" .string h.version ++
    optionalMember "os_version" .string h.osVersion ++
    optionalMember "exception_type" .string h.exceptionType ++
    [("date".toList, h.date.toJson), ("crashed_thread".toList, nat h.crashedThread)]

def LinkTarget.toJson : LinkTarget → Json
  | .url u => record [("url", .string u)]
  | .email recipients => record [("email", strings recipients)]

def Directive.members : Directive → List (Text × Json)
  | .attach e =>
    [("type".toList, text "include"), ("kind".toList, .string e.kind.keyword),
      ("target".toList, .string e.target)]
  | .contact l =>
    [("type".toList, text "link"), ("target".toList, l.target.toJson),
      ("is_support".toList, .bool l.isSupport),
      ("unlocalized_title".toList, .string l.unlocalizedTitle)]
  | .deny title => [("type".toList, text "deny"), ("target".toList, .string title)]

def Instruction.members (i : Instruction) : List (Text × Json) :=
  [("title".toList, .string i.title), ("tokens".toList, strings i.tokens),
    ("order".toList, nat i.order)] ++
  optionalMember "origin" .string i.origin ++ i.directive.members

def Instruction.toJson (i : Instruction) : Json := .object i.members

def EvaluatedScripts.toJson (e : EvaluatedScripts) : Json :=
  record [("links", list Instruction.toJson e.links), ("includes", list Instruction.toJson e.includes)]

def SymbolicationError.toJson : SymbolicationError → Json
  | .noImage address => record [("kind", text "no_image"), ("address", word address)]
  | .noSymbols address image =>
    record [("kind", text "no_symbols"), ("address", word address), ("image", .string image)]
  | .noSymbol address image =>
    record [("kind", text "no_symbol"), ("address", word address), ("image", .string image)]

def SymbolicationSummary.toJson (s : SymbolicationSummary) : Json :=
  record [("resolved", nat s.resolved), ("errors", list SymbolicationError.toJson s.errors)]

def Resolution.toJson : Resolution → Json
  | .package p =>
    .object <|
      [("kind".toList, text "package"), ("identifier".toList, .string p.identifier),
        ("name".toList, .string p.name)] ++
      optionalMember "author" .string p.author ++
      [("has_script".toList, .bool p.hasScript), ("is_app_store".toList, .bool p.isAppStore)]
  | .apple => record [("kind", text "apple")]
  | .unknown => record [("kind", text "unknown")]

def Suspect.members (s : Suspect) : List (Text × Json) :=
  s.image.members ++ [("owner".toList, s.resolution.toJson)]

def Suspect.toJson (s : Suspect) : Json := .object s.members

def CrashLog.members (log : CrashLog) : List (Text × Json) :=
  [("path".toList, .string log.path), ("name".toList, .string log.name)] ++
  optionalMember "process" (fun l : LoadedLog => .string l.header.processName) log.loaded ++
  optionalMember "date" Moment.toJson log.date ++
  [("log_type".toList, .string log.logType.code), ("symbolicated".toList, .bool log.symbolicated),
    ("viewed".toList, .bool log.viewed)] ++
  optionalMember "fingerprint" .string log.fingerprint

def CrashLog.toJson (log : CrashLog) : Json := .object log.members

def Evidence.toJson (e : Evidence) : Json :=
  .object (e.instruction.members ++ [("content".toList, .string e.content)])

def IncludeFailure.toJson (f : IncludeFailure) : Json :=
  record [("title", .string f.title), ("target", .string f.target),
    ("error", .string f.error.message)]

def Report.toJson (r : Report) : Json :=
  record [("log", r.log.toJson), ("victim", optional Suspect.toJson r.victim),
    ("suspects", list Suspect.toJson r.suspects), ("links", list Instruction.toJson r.links),
    ("includes", list Evidence.toJson r.includes),
    ("failures", list IncludeFailure.toJson r.failures)]

/-- What a listing calls the owner of an image. -/
def Resolution.label : Resolution → Text
  | .package p => if p.name = p.identifier then p.identifier else p.name ++ ", ".toList ++ p.identifier
  | .apple => "system".toList
  | .unknown => "unknown".toList

end CrashTriage
