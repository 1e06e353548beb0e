import CrashTriage.Plist.Base64
import CrashTriage.Plist.Markup
import CrashTriage.Plist.Value

/-
The XML form of property lists: tags make events, and close in turn as far as the document goes.
-/
namespace CrashTriage

namespace Plist

open Text

/-- The name of a tag without what stands before a colon. -/
def localName (name : Text) : Text :=
  match splitOnce? ':' name with
  | some (_, name) => name
  | none => name

/-- Blanks that encoded data may hold. -/
def isDataSpace (c : Char) : Bool := Markup.isBlank c || c == '\x0c'

/-- A leap second, which is taken as the last nanosecond before it, ends a month. -/
def endsMonth (m : Moment) : Bool :=
  m.time.second = 86399 && m.date.day = Date.daysInMonth m.date.year m.date.month

/-- Reads `YYYY-MM-DDTHH:MM:SS`, a fraction, and an offset from universal time. Any character of one
byte may stand between date and time. -/
def readDate? (t : Text) : Option Moment := do
  let number := fun (n : Nat) (t : Text) =>
    let digits := t.take n
    if digits.length = n && digits.all isDigit then
      some ((readNat? digits).getD 0, t.drop n) else none
  let (year, t) ← number 4 t
  let t ← strip? ['-'] t
  let (month, t) ← number 2 t
  let t ← strip? ['-'] t
  let (day, t) ← number 2 t
  if t.head?.all (·.utf8Size > 1) then none
  let (hour, t) ← number 2 (t.drop 1)
  let t ← strip? [':'] t
  let (minute, t) ← number 2 t
  let t ← strip? [':'] t
  let (second, t) ← number 2 t
  let (nano, t) ← Moment.readFraction? t
  let offset ←
    if t = ['Z'] || t = ['z'] then some (0 : Int)
    else do
      let (sign, t) ← match t with
        | '+' :: t => some ((1 : Int), t)
        | '-' :: t => some (-1, t)
        | _ => none
      let (hours, t) ← number 2 t
      let t ← strip? [':'] t
      let (minutes, t) ← number 2 t
      if !t.isEmpty || hours > 23 || minutes > 59 then none
      else some (sign * (hours * 3600 + minutes * 60))
  let leap := second = 60
  if second > 60 then none
  let date ← Date.of? year month day
  let time ← if leap then TimeOfDay.of? hour minute 59 999999999 else TimeOfDay.of? hour minute second nano
  let m ← momentAt? ((Moment.mk date time).instant.second - offset) time.nano
  if leap && !endsMonth m then none else pure m

/-- The value of an element with plain content. -/
def leaf? (name content : Text) : Option Plist :=
  if name = "key".toList || name = "string".toList then some (.string content)
  else if name = "integer".toList then (readInteger? content).map .integer
  else if name = "real".toList then (Double.read? content).map .real
  else if name = "date".toList then (readDate? content).map .date
  else if name = "data".toList then
    (Base64.decode? (content.filter fun c => !isDataSpace c)).map .data
  else none

/-- What comes out of a document in turn. -/
inductive XmlItem where
  | declaration
  | event (event : Event)
  /-- The document is broken here; nothing follows. -/
  | broken

/-- The text up to the tag that closes an element, and what follows from that tag on. -/
def readContent? : List (Option Markup) → Option (Text × List (Option Markup))
  | some (.text t) :: rest => (readContent? rest).map fun (more, rest) => (t ++ more, rest)
  | some (.reference name) :: rest => do
    let t ← Markup.referenced? name
    let (more, rest) ← readContent? rest
    pure (t ++ more, rest)
  | some .declaration :: rest => readContent? rest
  | some (.closing name) :: rest => some ([], some (.closing name) :: rest)
  | _ => none

/-- Reads on through a document; `opened` holds the names of open elements, the innermost first.
Between elements only blanks may stand. -/
def readItems : (fuel : Nat) → (opened : List Text) → List (Option Markup) → List XmlItem
  | 0, _, _ => [.broken]
  | _ + 1, _, [] => []
  | _ + 1, _, none :: _ => [.broken]
  | fuel + 1, opened, some .declaration :: rest => .declaration :: readItems fuel opened rest
  | fuel + 1, opened, some (.text t) :: rest =>
    if t.all isBlank then readItems fuel opened rest else [.broken]
  | fuel + 1, opened, some (.reference name) :: rest =>
    if (Markup.numbered? name).join.any isBlank then readItems fuel opened rest else [.broken]
  | fuel + 1, opened, some (.closing name) :: rest =>
    if opened.head? = some name then
      let later := readItems fuel opened.tail rest
      if localName name = "array".toList || localName name = "dict".toList then .event .stop :: later
      else later
    else [.broken]
  | fuel + 1, opened, some (.opening name) :: rest =>
    let element := localName name
    let inside := name :: opened
    if element = "plist".toList then readItems fuel inside rest
    else if element = "array".toList then .event .startArray :: readItems fuel inside rest
    else if element = "dict".toList then .event .startDictionary :: readItems fuel inside rest
    else if element = "true".toList then
      .event (.value (.boolean true)) :: readItems fuel inside rest
    else if element = "false".toList then
      .event (.value (.boolean false)) :: readItems fuel inside rest
    else
      match readContent? rest with
      | none => [.broken]
      | some (content, rest) =>
        match leaf? element content with
        | none => [.broken]
        | some value => .event (.value value) :: readItems fuel inside rest

/-- Reads an XML document, up to the first byte that belongs to no character. -/
def readXml (bytes : Bytes) : List XmlItem :=
  let chars := Bytes.readChars bytes
  let markup := Markup.ofText ((chars.takeWhile Option.isSome).filterMap id)
  let markup := if chars.all Option.isSome then markup else markup ++ [none]
  readItems (markup.length + 1) [] markup

namespace XmlItem

/-- The events of a document that is not broken. -/
def events? : List XmlItem → Option (List Event)
  | [] => some []
  | declaration :: rest => events? rest
  | event e :: rest => (events? rest).map (e :: ·)
  | broken :: _ => none

end XmlItem

end Plist

end CrashTriage
