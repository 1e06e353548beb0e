import CrashTriage.Package.Basic

/-
Which package a path belongs to. A package owns the paths it lists. A path that no package lists
belongs to the package that lists its closest listed ancestor, if only one does: a directory that
several packages list says nothing. Trailing slashes do not count.
-/
namespace CrashTriage

namespace Owner

open Text

def trimSlashes (path : Path) : Path := dropEndWhile (· == '/') path

/-- Is `path` below the directory `entry`? -/
def isBelow (path entry : Path) : Bool :=
  !entry.isEmpty &&
    match strip? entry path with
    | some ('/' :: _) => true
    | _ => false

/-- The closest ancestor so far, with the distinct packages that list it. -/
abbrev Closest := Option (Path × List Text)

def Closest.add (best : Closest) (entry : Path) (id : Text) : Closest :=
  match best with
  | none => some (entry, [id])
  | some (closest, ids) =>
    if byteSize closest < byteSize entry then some (entry, [id])
    else if byteSize closest = byteSize entry && !ids.contains id then some (closest, ids ++ [id])
    else some (closest, ids)

def Closest.owner? : Closest → Option Text
  | some (_, [id]) => some id
  | _ => none

def selectFrom (path : Path) : Closest → List (Path × Text) → Option Text
  | best, [] => best.owner?
  | best, (entry, id) :: rest =>
    let entry := trimSlashes entry
    if entry = path then some id
    else if isBelow path entry then selectFrom path (best.add entry id) rest
    else selectFrom path best rest

/-- The owner of a path among listed paths with their packages. -/
def select? (path : Path) (entries : List (Path × Text)) : Option Text :=
  selectFrom (trimSlashes path) none entries

/-- Removes every `.app` from the front of a reversed name. -/
def dropApp : Text → Text
  | 'p' :: 'p' :: 'a' :: '.' :: rest => dropApp rest
  | reversed => reversed

/-- The name of a bundle without any `.app` at its end. -/
def bundleName (bundle : Text) : Text := (dropApp bundle.reverse).reverse

/-- The application that a path below a container belongs to: `PREFIX ID / ... / NAME.app / ...`. -/
def appStorePackage? (path : Path) (containers : List Path) : Option Package := do
  let rest ← containers.findSome? fun container => strip? container path
  match split '/' rest with
  | [] => none
  | id :: parts =>
    if id.isEmpty then none
    let bundle ← parts.find? fun part => endsWith part ".app".toList
    let name := bundleName bundle
    pure { Package.named name with storeIdentifier := some id, isAppStore := true }

end Owner

end CrashTriage
