import CrashTriage.Script.Evaluation

/-
Packages: what is installed, by whom it was written, and the lines of the script it ships.
-/
namespace CrashTriage

structure Package where
  identifier : Text
  /-- The container of an App Store application. -/
  storeIdentifier : Option Text
  name : Text
  author : Option Text
  /-- The lines of the package's script. -/
  config : List Text
  isAppStore : Bool
deriving DecidableEq, Repr

namespace Package

open Text

def named (identifier : Text) : Package := ⟨identifier, none, identifier, none, [], false⟩

/-- Does the package's script say anything? -/
def hasScript (p : Package) : Bool :=
  p.config.any fun line =>
    let line := trim line
    !line.isEmpty && !startsWith line ['#']

/-- The address in an author field `NAME <ADDRESS>`. -/
def authorEmail? (p : Package) : Option Text := do
  let (_, rest) ← splitOnce? '<' (← p.author)
  let (inner, _) ← splitOnce? '>' rest
  let email := trim inner
  if email.isEmpty then none else pure email

/-- The name in an author field `NAME <ADDRESS>`. -/
def authorName? (p : Package) : Option Text := do
  let name := trim ((← p.author).takeWhile (· != '<'))
  if name.isEmpty then none else pure name

/-- The contact of a package without a script. -/
def authorLink? (p : Package) : Option Instruction := do
  let email ← p.authorEmail?
  let title := p.authorName?.getD p.name
  pure {
    title
    tokens := ["link".toList, "as".toList, title, "email".toList, email]
    order := 0
    origin := some p.identifier
    directive := .contact ⟨.email [email], false, title⟩ }

end Package

end CrashTriage
