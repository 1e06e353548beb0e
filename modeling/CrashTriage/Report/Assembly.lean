import CrashTriage.Log.CrashLog
import CrashTriage.Report.Evidence

/-
The report on a crash: its victim and suspects with their owners, and what the scripts of the owning
packages ask for. The victim's package comes first, then those of the suspects in their order, then the
default script. A package contributes once, however many images it owns: its script, or the contact
in its author field when it ships none.
-/
namespace CrashTriage

/-- An include with its content, which is empty when it could not be read. -/
structure Evidence where
  instruction : Instruction
  content : Text
deriving DecidableEq, Repr

structure IncludeFailure where
  title : Text
  target : Text
  error : IncludeError
deriving DecidableEq, Repr

structure Report where
  log : CrashLog
  victim : Option Suspect
  suspects : List Suspect
  links : List Instruction
  includes : List Evidence
  failures : List IncludeFailure
deriving DecidableEq, Repr

namespace Report

/-- The packages that contribute, each once. Under the first claim the list ends with the first
package that ships a script. -/
def contributors (policy : ClaimPolicy) : (seen : List Text) → List Package → List Package
  | _, [] => []
  | seen, p :: rest =>
    if seen.contains p.identifier then contributors policy seen rest
    else if p.hasScript && policy = .firstClaim then [p]
    else p :: contributors policy (p.identifier :: seen) rest

/-- Adds what a package asks for. -/
def addPackage (e : Evaluation) (p : Package) : Evaluation :=
  if p.hasScript then e.addScript (Script.ofLines p.config) (some p.identifier)
  else match p.authorLink? with
    | some link => e.add link (some p.identifier)
    | none => e

/-- The packages of the victim and of the suspects, in their order. -/
def packages (victim : Option Suspect) (suspects : List Suspect) : List Package :=
  (victim.toList ++ suspects).filterMap (·.resolution.package?)

def evaluated (policy : ClaimPolicy) (victim : Option Suspect) (suspects : List Suspect)
    (defaultScript : Option Script) : EvaluatedScripts :=
  let e := (contributors policy [] (packages victim suspects)).foldl addPackage .empty
  (defaultScript.toList.foldl (fun e s => e.addScript s none) e).finish

variable {m : Type → Type} [Monad m]

/-- The content of an instruction's include, and the failure if there is one. -/
def gather (content : Include → m (Except IncludeError Text)) (i : Instruction) :
    m (Evidence × Option IncludeFailure) :=
  match i.include? with
  | none => pure (⟨i, []⟩, none)
  | some e => do
    match ← content e with
    | .ok text => pure (⟨i, text⟩, none)
    | .error problem => pure (⟨i, []⟩, some ⟨i.title, e.target, problem⟩)

/-- Puts a report together; `content` reads includes, in their order. -/
def assemble (log : CrashLog) (victim : Option Suspect) (suspects : List Suspect)
    (defaultScript : Option Script) (policy : ClaimPolicy)
    (content : Include → m (Except IncludeError Text)) : m Report := do
  let e := evaluated policy victim suspects defaultScript
  let gathered ← e.includes.mapM (gather content)
  return {
    log, victim, suspects
    links := e.links
    includes := gathered.map (·.1)
    failures := gathered.filterMap (·.2) }

/-- The script in a file. -/
def readScript (d : Disk) (path : Path) : Except OsError Script := (d.readText path).map Script.read

/-- The report on a log, and the disk as the commands in it leave it; `owner` resolves paths. A default
script that cannot be read is left out. -/
def build (d : Disk) (c : Config) (owner : Path → m Resolution) (log : CrashLog) :
    m (Report × Disk) := do
  let victim ← match log.victim? with
    | some image => do
      let resolution ← owner image.path
      pure (some ⟨image, resolution⟩)
    | none => pure none
  let suspects ← log.suspects owner
  let defaultScript := c.defaultScript.bind fun path => (readScript d path).toOption
  let assembled : StateM Disk Report :=
    assemble log victim suspects defaultScript c.claimPolicy (Include.content (.ofConfig c log.date))
  pure (assembled.run d)

end Report

end CrashTriage
