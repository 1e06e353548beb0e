import CrashTriage.Script.Instruction
import CrashTriage.Text.Numeral

/-
Reading blame scripts, one instruction a line:

    include [as TITLE] file NAME
    include [as TITLE] plist NAME
    include [as TITLE] command WORDS
    link [as TITLE] url URL
    link [as TITLE] email ADDRESS,ADDRESS
    deny TITLE

Blank lines and lines that start with a hash say nothing. A line that cannot be read is reported and
passed over.
-/
namespace CrashTriage

/-- What is wrong with the words of a line. -/
inductive ScriptFault where
  | titleMissing
  | includeKindMissing
  | unknownIncludeKind (word : Text)
  | includeTargetMissing (kind : IncludeKind)
  | linkKindMissing
  | unknownLinkKind (word : Text)
  | notOneUrl
  | addressMissing
  | denyTitleMissing
deriving DecidableEq, Repr

namespace ScriptFault

def message : ScriptFault → Text
  | .titleMissing => "'as' without a title".toList
  | .includeKindMissing => "include needs 'file', 'plist' or 'command'".toList
  | .unknownIncludeKind word => "unknown include kind '".toList ++ word ++ ['\'']
  | .includeTargetMissing kind => "include ".toList ++ kind.keyword ++ " needs a target".toList
  | .linkKindMissing => "link needs 'url' or 'email'".toList
  | .unknownLinkKind word => "unknown link kind '".toList ++ word ++ ['\'']
  | .notOneUrl => "link url needs exactly one URL".toList
  | .addressMissing => "link email needs at least one address".toList
  | .denyTitleMissing => "deny needs a link title".toList

end ScriptFault

/-- Why a line, counted from one, could not be read. -/
inductive ScriptError where
  | unterminatedQuote (line : Nat)
  | unknownKeyword (line : Nat) (keyword : Text)
  | malformed (line : Nat) (fault : ScriptFault)
deriving DecidableEq, Repr

namespace ScriptError

def onLine (line : Nat) (what : Text) : Text := "line ".toList ++ Text.ofNat line ++ ": ".toList ++ what

def message : ScriptError → Text
  | .unterminatedQuote line => ScriptError.onLine line "unterminated quote".toList
  | .unknownKeyword line keyword =>
    ScriptError.onLine line ("unknown keyword '".toList ++ keyword ++ ['\''])
  | .malformed line fault => ScriptError.onLine line fault.message

end ScriptError

namespace Directive

open Text

/-- Splits off a leading `as TITLE`. -/
def takeTitle : List Text → Except ScriptFault (Option Text × List Text)
  | [] => .ok (none, [])
  | first :: rest =>
    if first = ['a', 's'] then
      match rest with
      | title :: rest => .ok (some title, rest)
      | [] => .error .titleMissing
    else .ok (none, first :: rest)

def readInclude (words : List Text) : Except ScriptFault (Option Text × Directive) := do
  let (title, rest) ← takeTitle words
  match rest with
  | [] => .error .includeKindMissing
  | word :: target =>
    match IncludeKind.ofKeyword? word with
    | none => .error (.unknownIncludeKind word)
    | some kind =>
      if target.all (·.isEmpty) then .error (.includeTargetMissing kind)
      else
        let target := if kind = .command then Words.join target else joinWith [' '] target
        .ok (title, .attach ⟨kind, target⟩)

/-- The addresses of a list separated by commas. -/
def readAddresses (list : Text) : List Text :=
  ((split ',' list).map trim).filter fun address => !address.isEmpty

def readLinkTarget (word : Text) (target : List Text) : Except ScriptFault LinkTarget :=
  if word = "url".toList then
    match target with
    | [url] => if url.isEmpty then .error .notOneUrl else .ok (.url url)
    | _ => .error .notOneUrl
  else if word = "email".toList then
    let recipients := readAddresses (joinWith [' '] target)
    if recipients.isEmpty then .error .addressMissing else .ok (.email recipients)
  else .error (.unknownLinkKind word)

def readLink (words : List Text) : Except ScriptFault (Option Text × Directive) := do
  let (title, rest) ← takeTitle words
  match rest with
  | [] => .error .linkKindMissing
  | word :: target =>
    let target ← readLinkTarget word target
    let link : Link := ⟨target, false, []⟩
    .ok (title, .contact { link with isSupport := title.isNone && link.isEmail })

def readDeny (words : List Text) : Except ScriptFault (Option Text × Directive) :=
  let title := joinWith [' '] words
  if allBlank title then .error .denyTitleMissing else .ok (none, .deny title)

/-- The reader for the words after a keyword. -/
def reader? (keyword : Text) :
    Option (List Text → Except ScriptFault (Option Text × Directive)) :=
  if keyword = "include".toList then some readInclude
  else if keyword = "link".toList then some readLink
  else if keyword = "deny".toList then some readDeny
  else none

/-- Links are matched with denials by the title they are first shown under. -/
def withTitle (title : Text) : Directive → Directive
  | .contact l => .contact { l with unlocalizedTitle := title }
  | d => d

end Directive

namespace Instruction

open Text

/-- Reads the line with the given number; none for a blank line or a comment. -/
def read? (line : Text) (number : Nat) : Except ScriptError (Option Instruction) :=
  let line := trim line
  if line.isEmpty || startsWith line ['#'] then .ok none
  else match Words.read? line with
    | none => .error (.unterminatedQuote number)
    | some [] => .ok none
    | some (keyword :: words) =>
      match Directive.reader? keyword with
      | none => .error (.unknownKeyword number keyword)
      | some reader =>
        match reader words with
        | .error fault => .error (.malformed number fault)
        | .ok (stated, directive) =>
          let title := stated.getD directive.defaultTitle
          .ok (some {
            title
            tokens := keyword :: words
            order := number
            origin := none
            directive := directive.withTitle title })

end Instruction

structure Script where
  instructions : List Instruction
  errors : List ScriptError
deriving DecidableEq, Repr

namespace Script

def empty : Script := ⟨[], []⟩

/-- Reads lines numbered from `number` on. -/
def readLines : (number : Nat) → List Text → Script
  | _, [] => empty
  | number, line :: rest =>
    let later := readLines (number + 1) rest
    match Instruction.read? line number with
    | .ok (some i) => { later with instructions := i :: later.instructions }
    | .ok none => later
    | .error e => { later with errors := e :: later.errors }

def ofLines (lines : List Text) : Script := readLines 1 lines

def read (text : Text) : Script := ofLines (Text.lines text)

def isEmpty (s : Script) : Bool := s.instructions.isEmpty

/-- One line for each instruction. -/
def write (s : Script) : Text := s.instructions.flatMap fun i => i.write ++ ['\n']

end Script

end CrashTriage
