import CrashTriage.Digest
import CrashTriage.FileUpdate
import CrashTriage.Log.Name
import CrashTriage.Package.Resolver
import CrashTriage.Report.Header
import CrashTriage.Symbol.Symbolication

/-
A crash log: first known by its path alone, then loaded, perhaps viewed, symbolicated or deleted. The
victim of a crash is the image at the top of the crashed stack; suspects are the other images on that
stack, the nearest first, which are not the system's.
-/
namespace CrashTriage

structure LoadedLog where
  text : Text
  header : Header
  threads : List Thread
  images : List Image
deriving DecidableEq, Repr

structure CrashLog where
  path : Path
  name : Text
  /-- The date that the name of the file tells. -/
  nameDate : Option Moment
  logType : LogType
  symbolicated : Bool
  viewed : Bool
  loaded : Option LoadedLog
deriving DecidableEq, Repr

inductive LogError where
  | unreadable (path : Path) (cause : OsError)
  | malformed (path : Path) (problem : HeaderProblem)
  | notLoaded (path : Path)
  | file (problem : FileError)
deriving DecidableEq, Repr

namespace LogError

def message : LogError → Text
  | .unreadable path cause =>
    "Failed to read crash log ".toList ++ path ++ ": ".toList ++ cause.message
  | .malformed path problem =>
    "Malformed crash log ".toList ++ path ++ ": ".toList ++ problem.message
  | .notLoaded path => "crash log ".toList ++ path ++ " has not been loaded".toList
  | .file problem => problem.message

/-- The messages of what lies behind an error. -/
def causes : LogError → List Text
  | .unreadable _ cause => [cause.message]
  | .file problem => problem.causes
  | _ => []

end LogError

/-- A log, and the machine that its file is on. -/
structure LogState where
  log : CrashLog
  host : Host

/-- Calls on a log. What a call changed before it fails remains changed. -/
abbrev LogM (ε α : Type) := ExceptT ε (StateM LogState) α

namespace LogM

def change (f : CrashLog → CrashLog) : LogM ε Unit := modify fun s => { s with log := f s.log }

def onHost (failure : ε → ε') (run : HostM ε α) : LogM ε' α := fun s =>
  let (answer, host) := run.run s.host
  (answer.mapError failure, { s with host })

def given (failure : ε → ε') (result : Except ε α) : LogM ε' α := onHost failure (Host.given result)

end LogM

/-- An image on the crashed stack with its owner. -/
structure Suspect where
  image : Image
  resolution : Resolution
deriving DecidableEq, Repr

namespace Suspect

/-- Is the image the system's, and known as such? -/
def isSystem (s : Suspect) : Bool := s.resolution = .apple && !s.image.fromUnofficialSource

end Suspect

namespace CrashLog

/-- A log that has not been loaded. -/
def ofPath (path : Path) : CrashLog :=
  let (name, nameDate) := LogName.read path
  ⟨path, name, nameDate, .service, false, false, none⟩

def markViewed (log : CrashLog) : CrashLog := { log with viewed := true }

/-- The date in the header once loaded, the one in the file's name before. -/
def date (log : CrashLog) : Option Moment := (log.loaded.map (·.header.date)).or log.nameDate

def images (log : CrashLog) : List Image := (log.loaded.map (·.images)).getD []

def threads (log : CrashLog) : List Thread := (log.loaded.map (·.threads)).getD []

def fingerprint (log : CrashLog) : Option Text := log.loaded.map fun l => Digest.fingerprint l.text

/-- Marks the images whose files changed after the marker file did. -/
def markNewer (d : Disk) (marker : Option Path) (images : List Image) : List Image :=
  match marker.bind fun path => (d.stat path).toOption with
  | none => images
  | some build => images.map fun image =>
    { image with newerThanOsBuild :=
        match d.stat image.path with
        | .ok node => build.modified < node.modified
        | .error _ => false }

def isSymbolicatedText (threads : List Thread) : Bool :=
  threads.all fun t => t.frames.all (·.isSymbolicated)

/-- Reads the file of a log into the log, which changes when all of the file was understood. -/
def readIn (marker : Option Path) (thisYear : Int) : LogM LogError Unit := do
  let ⟨log, host⟩ ← get
  let text ← LogM.given (.unreadable log.path) (host.disk.readText log.path)
  let s := Sections.read text
  let header ← LogM.given (.malformed log.path) (Header.build s thisYear)
  if !s.threads.any fun t => t.index == header.crashedThread then
    throw (.malformed log.path .noCrashedThread)
  LogM.change fun log => { log with
    logType := (header.processPath.map LogType.ofProcessPath).getD .service }
  LogM.change fun log => { log with symbolicated := isSymbolicatedText s.threads }
  LogM.change fun log => { log with
    loaded := some ⟨text, header, s.threads, markNewer host.disk marker s.images⟩ }

/-- The log that is left when its file was read. -/
def load (d : Disk) (marker : Option Path) (thisYear : Int) (log : CrashLog) :
    Except LogError CrashLog :=
  let (answer, left) := (readIn marker thisYear).run ⟨log, .ofDisk d⟩
  answer.map fun () => left.log

def crashedThread? (log : CrashLog) : Option Thread :=
  log.loaded.bind fun l => l.threads.find? fun t => t.index == l.header.crashedThread

/-- The image that holds the top frame of the crashed stack. -/
def victim? (log : CrashLog) : Option Image := do
  let frame ← (← log.crashedThread?).frames.head?
  Image.owner? log.images frame.address

variable {m : Type → Type} [Monad m]

/-- Images with their owners, but for those of the system. -/
def resolveAll (owner : Path → m Resolution) : List Image → m (List Suspect)
  | [] => pure []
  | image :: rest => do
    let suspect : Suspect := ⟨image, ← owner image.path⟩
    let others ← resolveAll owner rest
    pure (if suspect.isSystem then others else suspect :: others)

/-- Images whose path is none of `seen` and no earlier image's path. -/
def firstByPath (seen : List Path) (images : List Image) : List Image :=
  Evaluation.firstBy Image.path seen images

/-- The images that own the frames of the crashed stack, each path once, the victim's left out. -/
def stackImages (log : CrashLog) : List Image :=
  match log.crashedThread? with
  | none => []
  | some thread =>
    firstByPath (log.victim?.map (·.path)).toList
      (thread.frames.filterMap fun frame => Image.owner? log.images frame.address)

/-- The suspects, the nearest to the top of the stack first. -/
def suspects (owner : Path → m Resolution) (log : CrashLog) : m (List Suspect) :=
  resolveAll owner log.stackImages

/-- The suspects, then the victim, then every other image from an unofficial source. -/
def potentialSuspects (owner : Path → m Resolution) (log : CrashLog) : m (List Suspect) := do
  let found ← log.suspects owner
  let others := log.victim?.toList ++ log.images.filter (·.fromUnofficialSource)
  let more ← resolveAll owner (firstByPath (found.map (·.image.path)) others)
  pure (found ++ more)

/-- Writes a text with symbols to the file of a log, and then into the log. -/
def keepText (text : Text) (temporary : Path) (helper : Option Helper) : LogM LogError Unit := do
  let path := (← get).log.path
  LogM.onHost .file (FileUpdate.replace path text.toBytes temporary helper)
  let change (parts : LoadedLog → LoadedLog) : LogM LogError Unit :=
    LogM.change fun log => { log with loaded := log.loaded.map parts }
  change fun l => { l with threads := Thread.readAll text }
  change fun l => { l with text }
  LogM.change fun log => { log with symbolicated := true }

/-- Finds symbols for a loaded log and tells what is to be done with the log and its file then. A log
that has all symbols is left alone, and so is a file that no symbol was found for. -/
def findSymbols (source : Image → m (Option SymbolTable)) (temporary : Path)
    (helper : Option Helper) (log : CrashLog) : m (LogM LogError SymbolicationSummary) :=
  match log.loaded with
  | none => pure (throw (.notLoaded log.path))
  | some loaded =>
    if log.symbolicated then pure (pure .none)
    else do
      let (text, summary) ← Symbolication.run loaded.text loaded.images source
      if summary.resolved = 0 then pure (pure summary)
      else
        pure do
          keepText text temporary helper
          pure summary

/-- Writes symbols into a loaded log and its file. -/
def symbolicate (source : Image → m (Option SymbolTable)) (temporary : Path)
    (helper : Option Helper) (log : CrashLog) :
    m (HostM LogError (SymbolicationSummary × CrashLog)) := do
  let call ← log.findSymbols source temporary helper
  pure fun h =>
    let (answer, left) := call.run ⟨log, h⟩
    (answer.map fun summary => (summary, left.log), left.host)

/-- Deletes the file of a log. -/
def delete (helper : Option Helper) (log : CrashLog) : HostM FileError Unit :=
  FileUpdate.delete log.path helper

end CrashLog

end CrashTriage
