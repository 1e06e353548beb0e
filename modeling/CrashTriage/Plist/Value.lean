import CrashTriage.Calendar.Written
import CrashTriage.Text.Bytes
import CrashTriage.Text.Double

/-
Property lists: values, and the flat sequence of events that the text formats are read into. Members
of a dictionary keep the order in which their keys first came; a repeated key takes the last value.
-/
namespace CrashTriage

inductive Plist where
  | boolean (value : Bool)
  | integer (value : Int)
  | real (value : Double)
  /-- A moment in universal time. -/
  | date (value : Moment)
  | data (bytes : Bytes)
  | string (value : Text)
  /-- A reference between objects of an archive. -/
  | uid (value : Nat)
  | array (elements : List Plist)
  | dictionary (members : List (Text × Plist))

namespace Plist

inductive Event where
  | startArray
  | startDictionary
  | stop
  | value (value : Plist)

/-- Puts a member in, in place of one with its key. -/
def putMember (members : List (Text × Plist)) (key : Text) (value : Plist) : List (Text × Plist) :=
  if members.any (·.1 == key) then
    members.map fun m => if m.1 = key then (key, value) else m
  else members ++ [(key, value)]

mutual

/-- Takes one value off a sequence of events; `fuel` bounds their number. -/
def build? : Nat → List Event → Option (Plist × List Event)
  | 0, _ => none
  | fuel + 1, .startArray :: rest =>
    (buildElements? fuel rest).map fun (elements, rest) => (.array elements, rest)
  | fuel + 1, .startDictionary :: rest =>
    (buildMembers? fuel [] rest).map fun (members, rest) => (.dictionary members, rest)
  | _ + 1, .value v :: rest => some (v, rest)
  | _ + 1, _ => none

def buildElements? : Nat → List Event → Option (List Plist × List Event)
  | 0, _ => none
  | _ + 1, .stop :: rest => some ([], rest)
  | fuel + 1, events => do
    let (value, rest) ← build? fuel events
    let (others, rest) ← buildElements? fuel rest
    pure (value :: others, rest)

def buildMembers? : Nat → List (Text × Plist) → List Event → Option (List (Text × Plist) × List Event)
  | 0, _, _ => none
  | _ + 1, members, .stop :: rest => some (members, rest)
  | fuel + 1, members, .value (.string key) :: rest => do
    let (value, rest) ← build? fuel rest
    buildMembers? fuel (putMember members key value) rest
  | _ + 1, _, _ => none

end

/-- The one value that a sequence of events makes up. -/
def ofEvents? (events : List Event) : Option Plist := do
  let (value, rest) ← build? (2 * events.length + 2) events
  if rest.isEmpty then pure value else none

/-- Reads an integer: signed or unsigned within 64 bits, hexadecimal after `0x`. -/
def readInteger? (t : Text) : Option Int :=
  match Text.strip? ['0', 'x'] t with
  | some _ =>
    let digits := dropPairs t.length t
    let digits := match digits with
      | '+' :: rest => rest
      | _ => digits
    let value := digits.foldl (fun n c => n * 16 + (Text.hexDigit? c).getD 0) 0
    if digits.isEmpty || !digits.all Text.isHexDigit || value ≥ Nat.pow 2 64 then none else some value
  | none =>
    let (negative, digits) := match t with
      | '-' :: rest => (true, rest)
      | '+' :: rest => (false, rest)
      | _ => (false, t)
    if digits.isEmpty || !digits.all Text.isDigit then none
    else
      let n : Nat := digits.foldl (fun n c => n * 10 + (c.toNat - 48)) 0
      if negative then (if n ≤ Nat.pow 2 63 then some (-(n : Int)) else none)
      else if n < Nat.pow 2 64 then some n else none
where
  /-- The text after every `0x` at its head. -/
  dropPairs : Nat → Text → Text
    | fuel + 1, '0' :: 'x' :: rest => dropPairs fuel rest
    | _, t => t

/-- The moment a number of seconds and nanoseconds after the start of year 1. -/
def momentAt? (seconds : Int) (nano : Nat) : Option Moment := do
  let days := seconds / 86400
  let second := (seconds % 86400).toNat
  let year ← (List.range 4).findSome? fun (k : Nat) =>
    let year := days * 400 / 146097 + 2 - (k : Int)
    if Date.daysBeforeYear year ≤ days then some year else none
  let dayOfYear := (days - Date.daysBeforeYear year).toNat
  let month ← (List.range 12).reverse.findSome? fun m =>
    if Date.daysBeforeMonth year (m + 1) ≤ dayOfYear then some (m + 1) else none
  let date ← Date.of? year month (dayOfYear - Date.daysBeforeMonth year month + 1)
  pure ⟨date, ⟨second, nano⟩⟩

/-- Years that written dates can show. -/
def isWritable (m : Moment) : Bool := 0 ≤ m.date.year && m.date.year ≤ 9999

/-- Fraction digits after the point, as few as are exact. -/
def writtenFraction (nano : Nat) : Text :=
  if nano = 0 then [] else '.' :: Text.dropEndWhile (· == '0') (Text.padded 9 nano)

def writtenDate (m : Moment) : Text :=
  Moment.writtenDate m.date ++ 'T' :: Moment.clock m.time ++ writtenFraction m.time.fraction ++ ['Z']

end Plist

end CrashTriage
