import CrashTriage.Config.Fields
import CrashTriage.Config.Yaml.Document

/-
Configurations in YAML. Any scalar is a text; only plain ones are integers or stand for nothing.
-/
namespace CrashTriage

namespace Config

open Yaml

/-- A reference may stand for any value. -/
def yamlScalar? (d : Document) (n : Node) : Option (Option Bytes × Text × ScalarStyle) :=
  match d.resolve? n with
  | some (.scalar tag t style) => some (tag, t, style)
  | _ => none

def yamlText? (d : Document) (n : Node) : Option Text := (yamlScalar? d n).map (·.2.1)

def isNullWord (t : Text) : Bool := ["~", "null", "Null", "NULL"].any fun n => n.toList == t

def standardTag (name : String) : Bytes := Text.toBytes ("tag:yaml.org,2002:".toList ++ name.toList)

/-- An optional text: plain nulls stand for none, unless a tag says that they are something else. -/
def yamlOptionalText? (d : Document) (n : Node) : Option (Option Text) :=
  match yamlScalar? d n with
  | some (tag, t, .plain) =>
    match tag with
    | none => some (if t.isEmpty || isNullWord t then none else some t)
    | some tag =>
      if tag ≠ standardTag "null" then some (some t)
      else if isNullWord t then some none
      else none
  | some (_, t, _) => some (some t)
  | none => none

/-- The name in a tag that starts with a mark of its own. -/
def tagName? (tag : Bytes) : Option Text :=
  match tag with
  | 0x21 :: name => Bytes.toText? (if name.isEmpty then tag else name)
  | _ => none

/-- A policy, named by a text or by a tag on nothing. -/
def yamlPolicy? (d : Document) (n : Node) : Option ClaimPolicy :=
  match yamlScalar? d n with
  | some (tag, t, style) =>
    match tag.bind tagName? with
    | some name =>
      if style = .plain && (t.isEmpty || isNullWord t) then ClaimPolicy.ofCode? name else none
    | none => ClaimPolicy.ofCode? t
  | none => none

/-- Digits of a radix within 64 bits and a sign. -/
def readRadix? (radix : Nat) (negative : Bool) (digits : Text) : Option Int :=
  let fits := digits.all fun c => (Text.hexDigit? c).any (· < radix)
  let n := digits.foldl (fun n c => n * radix + (Text.hexDigit? c).getD 0) 0
  let value : Int := if negative then -n else n
  if !digits.isEmpty && fits && fits64 value then some value else none

/-- The integer of a scalar; zeros before other digits make it a string. -/
def readYamlInteger? (t : Text) : Option Int :=
  let (negative, digits) := match t with
    | '-' :: rest => (true, rest)
    | '+' :: rest => (false, rest)
    | _ => (false, t)
  match digits with
  | '0' :: 'x' :: rest => readRadix? 16 negative rest
  | '0' :: 'o' :: rest => readRadix? 8 negative rest
  | '0' :: 'b' :: rest => readRadix? 2 negative rest
  | '0' :: _ :: _ => none
  | _ => readRadix? 10 negative digits

/-- An integer is written plainly, or as a literal block with a tag that says so. -/
def yamlInteger? (d : Document) (n : Node) : Option Int :=
  match yamlScalar? d n with
  | some (tag, t, style) =>
    if style = .plain || (style = .literal && tag = some (standardTag "int")) then
      readYamlInteger? t
    else none
  | none => none

def yamlTexts? (d : Document) (n : Node) : Option (List Text) :=
  match d.resolve? n with
  | some (.sequence elements) => elements.mapM (yamlText? d)
  | some (.scalar _ [] .plain) => some []
  | _ => none

def yamlForm (d : Document) : FieldForm Node where
  text? := yamlText? d
  optionalText? := yamlOptionalText? d
  texts? := yamlTexts? d
  integer? := yamlInteger? d
  policy? := yamlPolicy? d

def ofYaml? (d : Document) : Option Config :=
  match d.root with
  | .mapping members => do
    let named ← members.mapM fun (key, v) => (yamlText? d key).map fun name => (name, v)
    readMembers? (yamlForm d) [] {} named
  | .scalar _ [] .plain => some {}
  | _ => none

end Config

end CrashTriage
