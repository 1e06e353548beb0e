import CrashTriage.Config.Yaml.Token

/-
What a YAML document holds. References stay in the tree and are looked up in the document, which keeps
the node of every anchor; of several nodes under one number the last one counts.
-/
namespace CrashTriage

namespace Yaml

inductive Node where
  | reference (anchor : Nat)
  /-- The tag is written out, as bytes. -/
  | scalar (tag : Option Bytes) (text : Text) (style : ScalarStyle)
  | sequence (elements : List Node)
  | mapping (members : List (Node × Node))
deriving Repr

namespace Node

/-- What stands where nothing is written. -/
def empty : Node := .scalar none [] .plain

end Node

structure Document where
  root : Node
  /-- The numbers of anchors in the order of the text, with their nodes. -/
  anchored : Array (Nat × Option Node)

namespace Document

def find? (d : Document) (anchor : Nat) : Option Node :=
  (d.anchored.toList.reverse.lookup anchor).join

/-- The node that a reference stands for; anchors never belong to references. -/
def resolve? (d : Document) : Node → Option Node
  | .reference n => d.find? n
  | n => some n

end Document

end Yaml

end CrashTriage
