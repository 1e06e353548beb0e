import CrashTriage.Text.Numeral

/-
JSON values and their two written forms: on one line, and indented by two blanks for people to
read. Objects keep their members in order, and a name may occur twice.
-/
namespace CrashTriage

inductive Json where
  | null
  | bool (value : Bool)
  | integer (value : Int)
  /-- A number with a fraction or an exponent, as it was written. -/
  | decimal (literal : Text)
  | string (value : Text)
  | array (elements : List Json)
  | object (members : List (Text × Json))

namespace Json

open Text

def text (s : String) : Json := .string s.toList

def nat (n : Nat) : Json := .integer n

def word (n : UInt64) : Json := .integer n.toNat

def optional (f : α → Json) : Option α → Json
  | some a => f a
  | none => .null

/-- A member that is left out when there is no value. -/
def optionalMember (name : String) (f : α → Json) : Option α → List (Text × Json)
  | some a => [(name.toList, f a)]
  | none => []

def list (f : α → Json) (xs : List α) : Json := .array (xs.map f)

def strings (xs : List Text) : Json := list .string xs

/-- An object from members named by literals. -/
def record (members : List (String × Json)) : Json :=
  .object (members.map fun (name, value) => (name.toList, value))

/-- The members of two objects together. -/
def merge : Json → Json → Json
  | .object a, .object b => .object (a ++ b)
  | a, _ => a

def escape (c : Char) : Text :=
  if c = '"' then ['\\', '"']
  else if c = '\\' then ['\\', '\\']
  else if c = '\n' then ['\\', 'n']
  else if c = '\r' then ['\\', 'r']
  else if c = '\t' then ['\\', 't']
  else if c = '\x08' then ['\\', 'b']
  else if c = '\x0c' then ['\\', 'f']
  else if c.toNat < 32 then
    ['\\', 'u', '0', '0', Nat.digitChar (c.toNat / 16), Nat.digitChar (c.toNat % 16)]
  else [c]

def quoted (t : Text) : Text := '"' :: t.flatMap escape ++ ['"']

mutual

/-- The form on one line, without blanks. -/
def compact : Json → Text
  | .null => "null".toList
  | .bool true => "true".toList
  | .bool false => "false".toList
  | .integer n => ofInt n
  | .decimal literal => literal
  | .string t => quoted t
  | .array elements => '[' :: joinWith [','] (compactElements elements) ++ [']']
  | .object members => '\x7b' :: joinWith [','] (compactMembers members) ++ ['\x7d']

def compactElements : List Json → List Text
  | [] => []
  | e :: rest => compact e :: compactElements rest

def compactMembers : List (Text × Json) → List Text
  | [] => []
  | (name, value) :: rest => (quoted name ++ ':' :: compact value) :: compactMembers rest

end

def newline (depth : Nat) : Text := '\n' :: List.replicate (2 * depth) ' '

def block (opening closing : Char) (depth : Nat) (items : List Text) : Text :=
  if items.isEmpty then [opening, closing]
  else opening :: newline (depth + 1) ++ joinWith (',' :: newline (depth + 1)) items ++
    newline depth ++ [closing]

mutual

/-- The indented form at a depth of nesting. -/
def indented (depth : Nat) : Json → Text
  | .null => "null".toList
  | .bool true => "true".toList
  | .bool false => "false".toList
  | .integer n => ofInt n
  | .decimal literal => literal
  | .string t => quoted t
  | .array elements => block '[' ']' depth (indentedElements (depth + 1) elements)
  | .object members => block '\x7b' '\x7d' depth (indentedMembers (depth + 1) members)

def indentedElements (depth : Nat) : List Json → List Text
  | [] => []
  | e :: rest => indented depth e :: indentedElements depth rest

def indentedMembers (depth : Nat) : List (Text × Json) → List Text
  | [] => []
  | (name, value) :: rest =>
    (quoted name ++ ": ".toList ++ indented depth value) :: indentedMembers depth rest

end

def pretty (j : Json) : Text := indented 0 j

/-- The first member with this name. -/
def get? (name : String) : Json → Option Json
  | .object members => (members.find? (·.1 == name.toList)).map (·.2)
  | _ => none

end Json

end CrashTriage
