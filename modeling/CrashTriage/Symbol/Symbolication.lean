import CrashTriage.Backtrace.Thread
import CrashTriage.Image
import CrashTriage.Symbol.Table

/-
Symbolication: each frame without a symbol is looked up in the table of the image that owns its
address, and its detail is written anew as `NAME + OFFSET`. Every other byte of the report stays.
Where tables come from is left to the caller, who may keep state while answering; a table is asked
for once for each base and path.
-/
namespace CrashTriage

inductive SymbolicationError where
  | noImage (address : UInt64)
  | noSymbols (address : UInt64) (image : Path)
  | noSymbol (address : UInt64) (image : Path)
deriving DecidableEq, Repr

namespace SymbolicationError

def message : SymbolicationError → Text
  | .noImage address =>
    Text.ofAddress address ++ ": no binary image contains this address".toList
  | .noSymbols address image =>
    Text.ofAddress address ++ ": no symbols available for ".toList ++ image
  | .noSymbol address image =>
    Text.ofAddress address ++ ": address precedes every symbol in ".toList ++ image

end SymbolicationError

structure SymbolicationSummary where
  /-- Frames written anew. -/
  resolved : Nat
  /-- Why the other frames were left, in their order. -/
  errors : List SymbolicationError
deriving DecidableEq, Repr

namespace SymbolicationSummary

def none : SymbolicationSummary := ⟨0, []⟩

def isComplete (s : SymbolicationSummary) : Bool := s.errors.isEmpty

end SymbolicationSummary

/-- What is written after the first `keep` bytes of line `line`, up to the line's end. -/
structure LineEdit where
  line : Nat
  keep : Nat
  written : Text
deriving DecidableEq, Repr

namespace Symbolication

open Text

/-- Answers so far: tables by base and path, edited lines, and errors, the latest first. -/
structure Progress where
  tables : List ((UInt64 × Path) × Option SymbolTable)
  edits : List LineEdit
  errors : List SymbolicationError

def Progress.start : Progress := ⟨[], [], []⟩

def Progress.fail (p : Progress) (e : SymbolicationError) : Progress :=
  { p with errors := e :: p.errors }

/-- Looks one frame up in the table of its image. -/
def Progress.use (p : Progress) (frame : Frame) (image : Image) :
    Option SymbolTable → Progress
  | none => p.fail (.noSymbols frame.address image.path)
  | some table =>
    let offset := frame.address - image.base
    match table.lookup? offset with
    | none => p.fail (.noSymbol frame.address image.path)
    | some (start, name) =>
      let written := ' ' :: name ++ " + ".toList ++ ofNat (offset - start).toNat
      { p with edits := ⟨frame.line, frame.addressEnd, written⟩ :: p.edits }

variable {m : Type → Type} [Monad m]

def Progress.step (images : List Image) (source : Image → m (Option SymbolTable))
    (p : Progress) (frame : Frame) : m Progress :=
  match Image.owner? images frame.address with
  | none => pure (p.fail (.noImage frame.address))
  | some image =>
    let key := (image.base, image.path)
    match p.tables.lookup key with
    | some table => pure (p.use frame image table)
    | none => do
      let table ← source image
      pure ({ p with tables := (key, table) :: p.tables }.use frame image table)

/-- The frames that have no symbol yet, in the order of the report. -/
def rawFrames (text : Text) : List Frame :=
  ((Thread.readAll text).flatMap (·.frames)).filter fun f => !f.isSymbolicated

def editLine (edits : List LineEdit) (line : Text.Line × Nat) : Text :=
  match edits.find? (·.line == line.2) with
  | some r => (takeBytes? r.keep line.1.body).getD line.1.body ++ r.written ++ line.1.ending
  | none => line.1.text

def editText (edits : List LineEdit) (text : Text) : Text :=
  (fullLines text).zipIdx.flatMap (editLine edits)

/-- The report with symbols, and what became of its raw frames. -/
def run (text : Text) (images : List Image) (source : Image → m (Option SymbolTable)) :
    m (Text × SymbolicationSummary) := do
  let p ← (rawFrames text).foldlM (Progress.step images source) Progress.start
  pure (editText p.edits text, ⟨p.edits.length, p.errors.reverse⟩)

end Symbolication

end CrashTriage
