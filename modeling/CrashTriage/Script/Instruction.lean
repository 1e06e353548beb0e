import CrashTriage.Path
import CrashTriage.Script.Words

/-
Instructions of blame scripts. A package's script says what evidence to include in a report, whom to
contact, and which contacts of other packages to leave out.
-/
namespace CrashTriage

inductive IncludeKind where
  | file
  | plist
  | command
deriving DecidableEq, Repr

namespace IncludeKind

def keyword : IncludeKind → Text
  | .file => "file".toList
  | .plist => "plist".toList
  | .command => "command".toList

def ofKeyword? (word : Text) : Option IncludeKind :=
  [IncludeKind.file, .plist, .command].find? (·.keyword == word)

end IncludeKind

/-- A file, a property list or the output of a command line. -/
structure Include where
  kind : IncludeKind
  target : Text
deriving DecidableEq, Repr

inductive LinkTarget where
  | url (url : Text)
  | email (recipients : List Text)
deriving DecidableEq, Repr

structure Link where
  target : LinkTarget
  /-- The contact of a package as such: an address without a title. -/
  isSupport : Bool
  /-- The title that denials are matched with. -/
  unlocalizedTitle : Text
deriving DecidableEq, Repr

namespace Link

def isEmail (l : Link) : Bool :=
  match l.target with
  | .email _ => true
  | .url _ => false

def recipients (l : Link) : List Text :=
  match l.target with
  | .email r => r
  | .url _ => []

def url? (l : Link) : Option Text :=
  match l.target with
  | .email _ => none
  | .url u => some u

end Link

inductive Directive where
  | attach (evidence : Include)
  | contact (link : Link)
  | deny (title : Text)
deriving DecidableEq, Repr

namespace Directive

def rank : Directive → Nat
  | .contact _ => 0
  | .attach _ => 1
  | .deny _ => 2

end Directive

structure Instruction where
  title : Text
  /-- The words of the line it was read from. -/
  tokens : List Text
  /-- Its place in the script, or in the chain of scripts once evaluated. -/
  order : Nat
  /-- The package whose script it comes from. -/
  origin : Option Text
  directive : Directive
deriving DecidableEq, Repr

namespace Instruction

def include? (i : Instruction) : Option Include :=
  match i.directive with
  | .attach e => some e
  | _ => none

def link? (i : Instruction) : Option Link :=
  match i.directive with
  | .contact l => some l
  | _ => none

/-- Order of declaration, then title, then links before includes before denials. -/
def compare (a b : Instruction) : Ordering :=
  ((Ord.compare a.order b.order).then (Text.compare a.title b.title)).then
    (Ord.compare a.directive.rank b.directive.rank)

end Instruction

/-- The host of a URL; the whole text when it has none. User names and ports are left out. -/
def urlHost (url : Text) : Text :=
  match Text.splitAt? "://".toList url with
  | none => url
  | some (_, rest) =>
    let authority := rest.takeWhile fun c => !(c == '/' || c == '?' || c == '#')
    let host := match Text.splitLast? '@' authority with
      | some (_, host) => host
      | none => authority
    let host := match Text.splitLast? ':' host with
      | some (name, _) => if Text.endsWith host [']'] then host else name
      | none => host
    if host.isEmpty then url else host

namespace Directive

/-- The title of an instruction that states none. -/
def defaultTitle : Directive → Text
  | .attach ⟨.command, target⟩ => ((Words.read? target).bind (·.head?)).getD target
  | .attach ⟨_, target⟩ => (Path.fileName? target).getD target
  | .contact ⟨.url u, _, _⟩ => urlHost u
  | .contact ⟨.email _, _, _⟩ => "Support".toList
  | .deny title => title

end Directive

namespace Instruction

open Text

/-- A keyword, with the title when it is not the default one. -/
def writeHead (i : Instruction) (keyword : Text) : Text :=
  if i.title = i.directive.defaultTitle then keyword
  else keyword ++ " as ".toList ++ Words.quote i.title

/-- The script line of an instruction. Only the support link goes without its title: an address
without one is always read as the support link. -/
def write (i : Instruction) : Text :=
  match i.directive with
  | .attach e =>
    let target := if e.kind = .command then e.target else Words.quote e.target
    i.writeHead "include".toList ++ ' ' :: e.kind.keyword ++ ' ' :: target
  | .contact l =>
    let keyword := "link".toList
    let head :=
      if l.isSupport then keyword
      else if l.isEmail then keyword ++ " as ".toList ++ Words.quote i.title
      else i.writeHead keyword
    match l.target with
    | .url u => head ++ " url ".toList ++ Words.quote u
    | .email recipients => head ++ " email ".toList ++ Words.quote (joinWith [','] recipients)
  | .deny title => "deny ".toList ++ Words.quote title

end Instruction

end CrashTriage
