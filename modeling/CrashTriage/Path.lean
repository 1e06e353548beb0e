import CrashTriage.Text.Basic

/-
File paths. A path is kept as it was written; its components leave out repeated and trailing slashes
and every `.` but one at the head of a relative path. Two paths name the same place for allow lists
and caches when their components are equal, although they may be written differently.
-/
namespace CrashTriage

inductive Component where
  | root
  | current
  | parent
  | name (text : Text)
deriving DecidableEq, Repr

abbrev Path := Text

namespace Path

def isAbsolute (p : Path) : Bool :=
  match p with
  | '/' :: _ => true
  | _ => false

/-- A component with the length of the path up to its end. -/
structure Span where
  component : Component
  stop : Nat
deriving DecidableEq, Repr

/-- The spans of segments written from position `start` on, a slash between any two. -/
def segmentSpans : Nat → List Text → List Span
  | _, [] => []
  | start, segment :: rest =>
    let stop := start + segment.length
    let later := segmentSpans (stop + 1) rest
    if segment = [] then later
    else if segment = ['.'] then (if start = 0 then ⟨.current, stop⟩ :: later else later)
    else if segment = ['.', '.'] then ⟨.parent, stop⟩ :: later
    else ⟨.name segment, stop⟩ :: later

def spans (p : Path) : List Span :=
  (if isAbsolute p then [⟨.root, 1⟩] else []) ++ segmentSpans 0 (Text.split '/' p)

def components (p : Path) : List Component := (spans p).map (·.component)

/-- Equality by components. -/
def same (p q : Path) : Bool := components p == components q

/-- The path without its last component; none for the root and for an empty path. -/
def parent? (p : Path) : Option Path :=
  match (spans p).reverse with
  | [] => none
  | ⟨.root, _⟩ :: _ => none
  | _ :: [] => some []
  | _ :: before :: _ => some (p.take before.stop)

/-- The last component, when it is a name. -/
def fileName? (p : Path) : Option Text :=
  match (components p).getLast? with
  | some (.name n) => some n
  | _ => none

/-- The file name before and after its last dot. A name that starts with its only dot has no
extension. -/
def splitExtension? (p : Path) : Option (Text × Option Text) :=
  (fileName? p).map fun n =>
    match Text.splitLast? '.' n with
    | some (stem, extension) => if stem.isEmpty then (n, none) else (stem, some extension)
    | none => (n, none)

def stem? (p : Path) : Option Text := (splitExtension? p).map (·.1)

def extension? (p : Path) : Option Text := (splitExtension? p).bind (·.2)

/-- `p` below `base`; an absolute `p` stands for itself. -/
def join (base p : Path) : Path :=
  if isAbsolute p || base.isEmpty then p
  else if Text.endsWith base ['/'] then base ++ p
  else base ++ '/' :: p

def rank : Component → Nat
  | .root => 0
  | .current => 1
  | .parent => 2
  | .name _ => 3

def compareComponents : List Component → List Component → Ordering
  | [], [] => .eq
  | [], _ :: _ => .lt
  | _ :: _, [] => .gt
  | .name m :: p, .name n :: q => (Text.compare m n).then (compareComponents p q)
  | a :: p, b :: q => (Ord.compare (rank a) (rank b)).then (compareComponents p q)

/-- The order of paths, component by component. -/
def compare (p q : Path) : Ordering := compareComponents (components p) (components q)

end Path

end CrashTriage
