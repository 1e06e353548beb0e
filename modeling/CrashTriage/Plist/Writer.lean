import CrashTriage.Plist.Base64
import CrashTriage.Plist.Value

/-
Writing property lists as XML, indented by tabs. A carriage return is written as a reference, since
readers of XML may take it for a line end.
-/
namespace CrashTriage

namespace Plist

open Text


def escaped (t : Text) : Text :=
  t.flatMap fun c =>
    if c = '&' then "&amp;".toList
    else if c = '<' then "&lt;".toList
    else if c = '>' then "&gt;".toList
    else if c = '"' then "&quot;".toList
    else if c = '\'' then "&apos;".toList
    else if c = '\r' then "&#13;".toList
    else [c]

def indent (depth : Nat) : Text := List.replicate depth '\t'

def element (name : String) (content : Text) : Text :=
  '<' :: name.toList ++ '>' :: content ++ "</".toList ++ name.toList ++ ['>']

/-- Characters of encoded data on one line. -/
def dataWidth : Nat := 68

/-- Cuts a text into parts of `width` characters; `fuel` bounds their number. -/
def chunks (width : Nat) : (fuel : Nat) → Text → List Text
  | 0, _ => []
  | fuel + 1, t => if t.isEmpty then [] else t.take width :: chunks width fuel (t.drop width)

def writeData (depth : Nat) (bytes : Bytes) : Text :=
  let encoded := Base64.encode bytes
  let lines := (chunks dataWidth encoded.length encoded).map fun line => '\n' :: indent depth ++ line
  element "data" (lines.flatten ++ '\n' :: indent depth)

mutual

/-- Writes a value at a depth; its first line is not indented. References of archives cannot be
written. -/
def writeAt? (depth : Nat) : Plist → Option Text
  | .boolean true => some "<true/>".toList
  | .boolean false => some "<false/>".toList
  | .integer n => some (element "integer" (ofInt n))
  | .real r => some (element "real" r.write)
  | .date m => if isWritable m then some (element "date" (writtenDate m)) else none
  | .data bytes => some (writeData depth bytes)
  | .string s => some (element "string" (escaped s))
  | .uid _ => none
  | .array [] => some "<array/>".toList
  | .array elements => do
    let inner ← writeElements? (depth + 1) elements
    pure ("<array>".toList ++ inner ++ '\n' :: indent depth ++ "</array>".toList)
  | .dictionary [] => some "<dict/>".toList
  | .dictionary members => do
    let inner ← writeMembers? (depth + 1) members
    pure ("<dict>".toList ++ inner ++ '\n' :: indent depth ++ "</dict>".toList)

def writeElements? (depth : Nat) : List Plist → Option Text
  | [] => some []
  | v :: rest => do
    let first ← writeAt? depth v
    let others ← writeElements? depth rest
    pure ('\n' :: indent depth ++ first ++ others)

def writeMembers? (depth : Nat) : List (Text × Plist) → Option Text
  | [] => some []
  | (key, v) :: rest => do
    let first ← writeAt? depth v
    let others ← writeMembers? depth rest
    pure ('\n' :: indent depth ++ element "key" (escaped key) ++ '\n' :: indent depth ++ first ++
      others)

end

def xmlHead : Text :=
  ("<?xml version=\"1.0\" encoding=\"UTF-8\"?>\n" ++
    "<!DOCTYPE plist PUBLIC \"-//Apple//DTD PLIST 1.0//EN\" " ++
    "\"http://www.apple.com/DTDs/PropertyList-1.0.dtd\">\n" ++
    "<plist version=\"1.0\">\n").toList

/-- The XML document of a value. -/
def writeXml? (v : Plist) : Option Text :=
  (writeAt? 0 v).map fun body => xmlHead ++ body ++ "\n</plist>".toList

end Plist

end CrashTriage
