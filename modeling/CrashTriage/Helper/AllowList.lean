import CrashTriage.Config.Basic

/-
The directories a privileged helper may work in. A path is allowed when it lies directly in one of
them and has no `..` component; paths are compared by components.
-/
namespace CrashTriage

structure AllowList where
  roots : List Path
deriving DecidableEq, Repr

namespace AllowList

def ofConfig (c : Config) : AllowList := ⟨[c.rootLogDir, c.tempDir]⟩

def permits (a : AllowList) (path : Path) : Bool :=
  !(Path.components path).contains .parent &&
    match Path.parent? path with
    | some parent => a.roots.any fun root => Path.same parent root
    | none => false

/-- The first path that is not permitted. -/
def firstRefused? (a : AllowList) (paths : List Path) : Option Path :=
  paths.find? fun path => !a.permits path

end AllowList

end CrashTriage
