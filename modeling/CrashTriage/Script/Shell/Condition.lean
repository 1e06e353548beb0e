import CrashTriage.Script.Shell.Machine

/-
The conditions of `test` and `[`. Up to four words are read by their number: three with an operator in
the middle compare, `!` before fewer words negates them, and one word holds unless it is empty. All else
is an expression of `-o`, `-a`, `!` and parentheses, all of whose operands are evaluated.
-/
namespace CrashTriage

namespace Shell

open Text

namespace Condition

/-- What a word of a condition may be. -/
inductive Role where
  | operand
  | finish
  | unary
  | binary
  | negation
  | conjunction
  | disjunction
  | opening
  | closing
deriving DecidableEq, Repr

def roles : List (Role × List String) :=
  [(.unary, ["-r", "-w", "-x", "-e", "-f", "-d", "-c", "-b", "-p", "-u", "-g", "-k", "-s", "-t", "-z", "-n",
      "-h", "-O", "-G", "-L", "-S"]),
    (.binary, ["=", "!=", "<", ">", "-eq", "-ne", "-ge", "-gt", "-le", "-lt", "-nt", "-ot", "-ef"]),
    (.negation, ["!"]), (.conjunction, ["-a"]), (.disjunction, ["-o"]), (.opening, ["("]),
    (.closing, [")"])]

def roleOf (word : Text) : Role :=
  ((roles.find? fun entry => entry.2.any fun w => w.toList == word).map (·.1)).getD .operand

/-- What the first of some words is, seen with the words after it. -/
def roleIn : List Text → Role
  | [] => .finish
  | word :: rest =>
    let role := roleOf word
    let isOperand : Bool := match role, rest with
      | .unary, [] => true
      | .unary, next :: _ :: _ => roleOf next == .binary
      | .opening, [] => true
      | _, _ => false
    if isOperand then .operand else role

abbrev Evaluation := StateT (List Text) (Except Text)

def complain (parts : List Text) : Evaluation α := throw parts.flatten

def number (t : Text) : Evaluation Int :=
  match wholeNumeral? (some 10) t with
  | some n => pure n
  | none => complain ["Illegal number: ".toList, t]

/-! Files -/

def isNullDevice (path : Text) : Bool := path == "/dev/null".toList

def node? (d : Disk) (path : Text) : Option Node := (d.stat (toChars path)).toOption

/-- May the user do something with a file? Without permissions being enforced, only running a file that
nobody may run is refused. -/
def permits (d : Disk) (n : Node) (access : Access) : Bool :=
  if d.enforced then d.allows n access
  else access != .search || n.isDirectory || n.mode % 2 == 1 || n.mode / 8 % 2 == 1 || n.mode / 64 % 2 == 1

def isEmptyFile (n : Node) : Bool :=
  match n.entry with
  | .file content => content.toBytes.isEmpty
  | .directory => false

def fileTest (d : Disk) (operator path : Text) : Bool :=
  if isNullDevice path then ["-e", "-r", "-w", "-c"].any fun o => o.toList == operator
  else
    match node? d path with
    | none => false
    | some n =>
      match String.ofList operator with
      | "-e" | "-O" | "-G" => true
      | "-f" => !n.isDirectory
      | "-d" => n.isDirectory
      | "-s" => !isEmptyFile n
      | "-r" => permits d n .read
      | "-w" => permits d n .write
      | "-x" => permits d n .search
      | "-u" => n.mode / 0o4000 % 2 == 1
      | "-g" => n.mode / 0o2000 % 2 == 1
      | "-k" => n.mode / 0o1000 % 2 == 1
      | _ => false

def unaryTest (d : Disk) (operator operand : Text) : Evaluation Bool :=
  match String.ofList operator with
  | "-z" => pure operand.isEmpty
  | "-n" => pure !operand.isEmpty
  | "-t" => do
    let _ ← number operand
    pure false
  | _ => pure (fileTest d operator operand)

def binaryTest (d : Disk) (a operator b : Text) : Evaluation Bool := do
  let numbers := fun (holds : Int → Int → Bool) => do
    let x ← number a
    let y ← number b
    pure (holds x y)
  let times := fun (holds : Int → Int → Bool) =>
    match node? d a, node? d b with
    | some x, some y => holds x.modified y.modified
    | _, _ => false
  match String.ofList operator with
  | "=" => pure (a == b)
  | "!=" => pure (a != b)
  | "<" => pure (Text.compare a b == .lt)
  | ">" => pure (Text.compare a b == .gt)
  | "-eq" => numbers (· == ·)
  | "-ne" => numbers (· != ·)
  | "-ge" => numbers (· ≥ ·)
  | "-gt" => numbers (· > ·)
  | "-le" => numbers (· ≤ ·)
  | "-lt" => numbers (· < ·)
  | "-nt" => pure (times (· > ·))
  | "-ot" => pure (times (· < ·))
  | _ =>
    match (d.locate (toChars a)).toOption, (d.locate (toChars b)).toOption with
    | some p, some q => pure (p == q && (d.find? p).isSome)
    | _, _ => pure false

/-! Expressions -/

mutual

def disjunction (d : Disk) : (fuel : Nat) → Role → Evaluation Bool
  | 0, _ => pure false
  | fuel + 1, role => do
    let a ← conjunction d fuel role
    let words ← get
    if roleIn (words.drop 1) = .disjunction then
      set (words.drop 2)
      let b ← disjunction d fuel (roleIn (words.drop 2))
      pure (a || b)
    else pure a

def conjunction (d : Disk) : (fuel : Nat) → Role → Evaluation Bool
  | 0, _ => pure false
  | fuel + 1, role => do
    let a ← negation d fuel role
    let words ← get
    if roleIn (words.drop 1) = .conjunction then
      set (words.drop 2)
      let b ← conjunction d fuel (roleIn (words.drop 2))
      pure (a && b)
    else pure a

def negation (d : Disk) : (fuel : Nat) → Role → Evaluation Bool
  | 0, _ => pure false
  | fuel + 1, role => do
    if role = .negation then
      let words ← get
      let next := roleIn (words.drop 1)
      if next != .finish then set (words.drop 1)
      return !(← negation d fuel next)
    else primary d fuel role

/-- One operand, which is the current word with those that belong to it; its last word becomes the
current one. -/
def primary (d : Disk) : (fuel : Nat) → Role → Evaluation Bool
  | 0, _ => pure false
  | fuel + 1, role => do
    let words ← get
    let word := words.headD []
    if role = .finish then return false
    else if role = .opening then
      set (words.drop 1)
      if roleIn (words.drop 1) = .closing then return false
      let a ← disjunction d fuel (roleIn (words.drop 1))
      modify (·.drop 1)
      if roleIn (← get) != .closing then complain ["closing paren expected".toList]
      return a
    else if role = .unary then
      set (words.drop 1)
      match words.drop 1 with
      | [] => complain [word, ": argument expected".toList]
      | operand :: _ => unaryTest d word operand
    else if roleIn (words.drop 1) = .binary then
      let operator := (words.drop 1).headD []
      set (words.drop 2)
      match words.drop 2 with
      | [] => complain [operator, ": argument expected".toList]
      | b :: _ => binaryTest d word operator b
    else return !word.isEmpty

end

def expression (d : Disk) (role : Role) (words : List Text) : Except Text Bool := do
  let (a, left) ← (disjunction d (4 * words.length + 8) role).run words
  match left with
  | word :: _ :: _ => throw (word ++ ": unexpected operator".toList)
  | _ => pure a

/-- Does a condition hold? Fails with a complaint about its words. -/
def holds (d : Disk) : (fuel : Nat) → List Text → Except Text Bool
  | 0, _ => .ok false
  | fuel + 1, words =>
    match words with
    | [] => .ok false
    | first :: rest =>
      let few := words.length = 3 || words.length = 4
      if words.length = 3 && (rest.head?.any fun w => roleOf w == .binary) then
        expression d .operand words
      else if few && first = ['('] && words.getLast? = some [')'] then
        expression d (roleIn rest.dropLast) rest.dropLast
      else if few && first = ['!'] then (holds d fuel rest).map (!·)
      else expression d (roleIn words) words

end Condition

end Shell

end CrashTriage
