import CrashTriage.Path

/-
The command line. A word `--NAME` is an option, whose value follows after `=` or as the next word;
the word `--` ends the options. Options for all commands may stand before or after the command's
name; the later place wins. A word that is not understood makes the whole invocation a misuse.
-/
namespace CrashTriage

inductive Command where
  /-- Lists the logs of a directory, or of the configured ones. -/
  | list (directory : Option Path) (json : Bool)
  /-- Describes a log, its victim and its suspects. -/
  | describe (log : Path) (json : Bool)
  /-- Writes symbols into a log. -/
  | symbolicate (log : Path) (symbols systemRoot : Option Path) (json : Bool)
  /-- Reports on a log, after symbols were written into it if asked. -/
  | report (log : Path) (symbolicated : Bool) (symbols : Option Path) (json : Bool)
  | delete (log : Path)
  /-- Copies a dpkg database to a package index. -/
  | indexPackages (dpkgDir output : Option Path)
  /-- Reads a script and tells its bad lines. -/
  | checkScript (script : Path) (json : Bool)
deriving DecidableEq, Repr

structure Invocation where
  config : Option Path
  logLevel : Text
  command : Command
deriving DecidableEq, Repr

/-- Why an invocation runs no command. -/
inductive Refusal where
  | help
  | version
  | misuse
deriving DecidableEq, Repr

/-- An option: whether it takes a value, and whether the value may be empty. -/
structure OptionForm where
  name : Text
  takesValue : Bool
  emptyValue : Bool
deriving DecidableEq, Repr

namespace OptionForm

def path (name : String) : OptionForm := ⟨name.toList, true, false⟩

def word (name : String) : OptionForm := ⟨name.toList, true, true⟩

def flag (name : String) : OptionForm := ⟨name.toList, false, false⟩

end OptionForm

/-- What a command understands. -/
structure CommandForm where
  name : Text
  options : List OptionForm
  /-- How many words besides options it takes. -/
  operands : Nat
deriving DecidableEq, Repr

/-- What was given to a command. -/
structure Given where
  options : List (Text × Text)
  operands : List Text
deriving DecidableEq, Repr

namespace Given

def empty : Given := ⟨[], []⟩

def option? (g : Given) (name : String) : Option Text := g.options.lookup name.toList

def isSet (g : Given) (name : String) : Bool := (g.option? name).isSome

/-- Adds an option that was not given before. -/
def addOption (g : Given) (form : OptionForm) (value : Text) : Except Refusal Given :=
  if g.options.any (·.1 == form.name) then throw .misuse
  else if form.takesValue && !form.emptyValue && value.isEmpty then throw .misuse
  else pure { g with options := g.options ++ [(form.name, value)] }

/-- Adds words that are no options, none of them empty. -/
def addOperands (g : Given) (form : CommandForm) (words : List Text) : Except Refusal Given :=
  let operands := g.operands ++ words
  if form.operands < operands.length || words.any (·.isEmpty) then throw .misuse
  else pure { g with operands }

end Given

namespace CommandForm

open Text

/-- Options for all commands. -/
def shared : List OptionForm := [.path "config", .word "log-level"]

/-- The words before a command. -/
def leading : CommandForm := ⟨[], shared, 0⟩

def commands : List CommandForm :=
  [⟨"list".toList, [.path "dir", .flag "json"], 0⟩,
    ⟨"show".toList, [.flag "json"], 1⟩,
    ⟨"symbolicate".toList, [.path "symbols", .path "sysroot", .flag "json"], 1⟩,
    ⟨"report".toList, [.flag "symbolicate", .path "symbols", .flag "json"], 1⟩,
    ⟨"delete".toList, [], 1⟩,
    ⟨"index-packages".toList, [.path "dpkg-dir", .path "output"], 0⟩,
    ⟨"check-script".toList, [.flag "json"], 1⟩]

def named? (name : Text) : Option CommandForm := commands.find? (·.name == name)

def helpName : Text := "help".toList

/-- Does the form stand before a command? -/
def isLeading (form : CommandForm) : Bool := form.name.isEmpty

/-- Do the words up to a command end here? -/
def endsAt (form : CommandForm) (word : Text) : Bool :=
  form.isLeading && ((named? word).isSome || word == helpName)

def option? (form : CommandForm) (name : Text) : Option OptionForm :=
  (form.options ++ shared).find? (·.name == name)

/-- The refusal that a word of single letters asks for. -/
def refusalOf (form : CommandForm) : Text → Refusal
  | 'h' :: _ => .help
  | 'V' :: _ => if form.isLeading then .version else .misuse
  | _ => .misuse

/-- An option without its dashes, and its value if it is attached. -/
def splitOption (t : Text) : Text × Option Text :=
  match splitOnce? '=' t with
  | some (name, value) => (name, some value)
  | none => (t, none)

/-- Does a word look like an option? -/
def isOption (word : Text) : Bool := startsWith word ['-'] && word != ['-']

/-- Reads words up to a command's name, or all of them. -/
def read (form : CommandForm) : Given → List Text → Except Refusal (Given × List Text)
  | g, [] => pure (g, [])
  | g, word :: rest =>
    if form.endsAt word then pure (g, word :: rest)
    else match word with
      | ['-', '-'] => do pure (← g.addOperands form rest, [])
      | '-' :: '-' :: long =>
        let (name, attached) := splitOption long
        match form.option? name, attached, rest with
        | none, none, _ =>
          throw (if name = helpName then .help
            else if name = "version".toList && form.isLeading then .version else .misuse)
        | none, some _, _ => throw .misuse
        | some o, some value, rest =>
          if o.takesValue then do form.read (← g.addOption o value) rest else throw .misuse
        | some o, none, rest =>
          if !o.takesValue then do form.read (← g.addOption o []) rest
          else match rest with
            | value :: rest =>
              if isOption value then throw .misuse
              else do form.read (← g.addOption o value) rest
            | [] => throw .misuse
      | '-' :: letter :: letters => throw (form.refusalOf (letter :: letters))
      | word => do form.read (← g.addOperands form [word]) rest

end CommandForm

namespace Command

/-- The command with a name, once its words are there. -/
def ofGiven? (name : Text) (g : Given) : Option Command :=
  let json := g.isSet "json"
  match String.ofList name, g.operands with
  | "list", [] => some (.list (g.option? "dir") json)
  | "show", [log] => some (.describe log json)
  | "symbolicate", [log] =>
    some (.symbolicate log (g.option? "symbols") (g.option? "sysroot") json)
  | "report", [log] => some (.report log (g.isSet "symbolicate") (g.option? "symbols") json)
  | "delete", [log] => some (.delete log)
  | "index-packages", [] => some (.indexPackages (g.option? "dpkg-dir") (g.option? "output"))
  | "check-script", [script] => some (.checkScript script json)
  | _, _ => none

end Command

namespace Invocation

open CommandForm

def defaultLogLevel : Text := "warn".toList

/-- Help on a command is asked for by its name. -/
def helpOn : List Text → Refusal
  | [] => .help
  | [name] => if (named? name).isSome || name = helpName then .help else .misuse
  | _ => .misuse

/-- Reads the words after the program's name. -/
def read (words : List Text) : Except Refusal Invocation := do
  let (leading, rest) ← leading.read .empty words
  match rest with
  | [] => throw .misuse
  | name :: rest =>
    match named? name with
    | none => throw (helpOn rest)
    | some form =>
      let (given, _) ← form.read .empty rest
      match Command.ofGiven? name given with
      | none => throw .misuse
      | some command =>
        pure {
          config := (given.option? "config").or (leading.option? "config")
          logLevel := ((given.option? "log-level").or (leading.option? "log-level")).getD
            defaultLogLevel
          command }

end Invocation

end CrashTriage
