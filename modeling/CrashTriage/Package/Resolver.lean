import CrashTriage.Config.Basic
import CrashTriage.Package.Database

/-
Who owns a path: a package of the database asked, an application in a container, the system, or nobody
known. Answers are kept by the components of the path they were given for. An answer that the
database failed to give is not kept, and the path counts as nobody's for that one time.
-/
namespace CrashTriage

inductive Resolution where
  | package (package : Package)
  | apple
  | unknown
deriving DecidableEq, Repr

namespace Resolution

def package? : Resolution → Option Package
  | .package p => some p
  | _ => none

end Resolution

/-- The answer of a package database to the question of who owns a path. -/
abbrev OwnerAnswer := Except PackageDbError (Option Package)

/-- What decides about a path that no package of the database owns. -/
structure OwnerRules where
  applePrefixes : List Path
  containerPrefixes : List Path
deriving DecidableEq, Repr

namespace OwnerRules

def ofConfig (c : Config) : OwnerRules := ⟨c.applePathPrefixes, c.appContainerPrefixes⟩

/-- What a path is when no package of the database owns it. -/
def withoutPackage (rules : OwnerRules) (path : Path) : Resolution :=
  match Owner.appStorePackage? path rules.containerPrefixes with
  | some package => .package package
  | none =>
    if rules.applePrefixes.any fun start => Text.startsWith path start then .apple else .unknown

/-- The resolution that follows from an answer of the database. -/
def resolutionOf (rules : OwnerRules) (path : Path) : OwnerAnswer → Except PackageDbError Resolution
  | .ok (some package) => .ok (.package package)
  | .ok none => .ok (rules.withoutPackage path)
  | .error e => .error e

end OwnerRules

structure Resolver where
  rules : OwnerRules
  /-- Answers kept, by the components of paths. -/
  settled : List (List Component × Resolution)
deriving DecidableEq, Repr

namespace Resolver

def ofConfig (c : Config) : Resolver := ⟨.ofConfig c, []⟩

def kept? (r : Resolver) (path : Path) : Option Resolution :=
  r.settled.lookup (Path.components path)

def keep (r : Resolver) (path : Path) (resolution : Resolution) : Resolver :=
  { r with settled := (Path.components path, resolution) :: r.settled }

variable {m : Type → Type} [Monad m]

/-- Resolves a path; `owner` asks the database. -/
def resolve (owner : Path → m OwnerAnswer) (path : Path) : StateT Resolver m Resolution := do
  let r ← get
  match r.kept? path with
  | some resolution => pure resolution
  | none =>
    match r.rules.resolutionOf path (← owner path) with
    | .ok resolution =>
      set (r.keep path resolution)
      pure resolution
    | .error _ => pure .unknown

/-- How many answers are kept. -/
def size (r : Resolver) : Nat := r.settled.length

/-- Forgets every answer. -/
def clear (r : Resolver) : Resolver := { r with settled := [] }

/-- A line that tells the database asked and the number of answers kept. -/
def describe (r : Resolver) (database : Text) : Text :=
  "PackageResolver \x7b db: \"".toList ++ database ++ "\", cached: ".toList ++
    Text.ofNat r.size ++ " \x7d".toList

end Resolver

end CrashTriage
