import CrashTriage.Script.Shell.Tools

/-
Lines that fit a regular expression. In the basic form a backslash gives `+`, `?`, `|`, braces and
parentheses their meaning, in the extended form it takes it away. A repetition with nothing to repeat
stands for itself, as do anchors that are not at an end.
-/
namespace CrashTriage

namespace Shell

open Text ShellM

inductive Expr where
  | empty
  | char (c : Char)
  | any
  | set (negated : Bool) (members : List SetMember)
  | sequence (a b : Expr)
  | choice (a b : Expr)
  | star (e : Expr)
  | start
  | finish

namespace Expr

/-- Fits the head of a text in some way of which the rest satisfies `next`; `first` tells whether the
text is at the start of its line. -/
def fitsHead : (fuel : Nat) → Expr → (first : Bool) → Text → (next : Bool → Text → Bool) → Bool
  | 0, _, _, _, _ => false
  | fuel + 1, e, first, t, next =>
    match e, t with
    | .empty, _ => next first t
    | .char d, c :: t => c == d && next false t
    | .any, _ :: t => next false t
    | .set negated members, c :: t => (members.any (·.holds c) != negated) && next false t
    | .sequence a b, _ => fitsHead fuel a first t fun first t => fitsHead fuel b first t next
    | .choice a b, _ => fitsHead fuel a first t next || fitsHead fuel b first t next
    | .star e, _ =>
      next first t ||
        fitsHead fuel e first t fun later rest =>
          rest.length < t.length && fitsHead fuel (.star e) later rest next
    | .start, _ => first && next first t
    | .finish, _ => t.isEmpty && next first t
    | _, [] => false

/-- Fits some part of a line, or the whole of it. -/
def isFound (e : Expr) (whole : Bool) (line : Text) : Bool :=
  let fuel := 64 + 8 * line.length
  let ends := fun _ rest => !whole || rest.isEmpty
  let starts := if whole then [0] else List.range (line.length + 1)
  starts.any fun n => fitsHead fuel e (n = 0) (line.drop n) ends

def literal (t : Text) : Expr := t.foldr (fun c e => .sequence (.char c) e) .empty

/-- A number of repetitions, up to a bound or any number more. -/
def repeated (e : Expr) (least : Nat) (most : Option Nat) : Expr :=
  let more := match most with
    | none => .star e
    | some n => (List.range (n - least)).foldl (fun rest _ => .choice (.sequence e rest) .empty) .empty
  (List.range least).foldl (fun rest _ => .sequence e rest) more

/-- A mark that has a meaning where it is written bare in the extended form, and after a backslash in
the basic one. -/
def mark? (extended : Bool) (t : Text) : Option (Char × Text) :=
  let isMark := fun c => "+?|()\x7b\x7d".toList.contains c
  match extended, t with
  | true, c :: rest => if isMark c then some (c, rest) else none
  | false, '\\' :: c :: rest => if isMark c then some (c, rest) else none
  | _, _ => none

/-- The bounds of repetitions between braces. -/
def readBounds? (extended : Bool) (t : Text) : Option (Nat × Option Nat × Text) := do
  let inner := t.takeWhile fun c => isDigit c || c == ','
  let (_, rest) ← (mark? extended (t.drop inner.length)).filter (·.1 = '\x7d')
  match splitOnce? ',' inner with
  | some (least, most) => pure ((readNat? least).getD 0, readNat? most, rest)
  | none => do
    let n ← readNat? inner
    pure (n, some n, rest)

mutual

/-- Alternatives up to a closing parenthesis or the end. -/
def readChoice (extended : Bool) : (fuel : Nat) → Text → Expr × Text
  | 0, t => (.empty, t)
  | fuel + 1, t =>
    let (a, rest) := readSequence extended fuel true .empty t
    match mark? extended rest with
    | some ('|', rest) =>
      let (b, rest) := readChoice extended fuel rest
      (.choice a b, rest)
    | _ => (a, rest)

/-- Single expressions with their repetitions, one after the other, after those read so far. -/
def readSequence (extended : Bool) : (fuel : Nat) → (first : Bool) → Expr → Text → Expr × Text
  | 0, _, before, t => (before, t)
  | fuel + 1, first, before, t =>
    match mark? extended t with
    | some ('|', _) | some (')', _) => (before, t)
    | mark =>
      if t.isEmpty then (before, t)
      else
        let (one, rest) := readOne extended fuel first mark t
        let (one, rest) := readRepetitions extended fuel one rest
        readSequence extended fuel false (.sequence before one) rest

def readOne (extended : Bool) : (fuel : Nat) → (first : Bool) → Option (Char × Text) → Text → Expr × Text
  | 0, _, _, t => (.empty, t)
  | fuel + 1, first, mark, t =>
    match mark, t with
    | some ('(', inner), _ =>
      let (e, rest) := readChoice extended fuel inner
      match mark? extended rest with
      | some (')', rest) => (e, rest)
      | _ => (e, rest)
    | _, '.' :: rest => (.any, rest)
    | _, '^' :: rest => if first || extended then (.start, rest) else (.char '^', rest)
    | _, '$' :: rest =>
      let ends := rest.isEmpty || ((mark? extended rest).map (·.1)).any fun c => c == ')' || c == '|'
      if ends || extended then (.finish, rest) else (.char '$', rest)
    | _, '[' :: inner =>
      let pattern := Pattern.ofText inner
      let (negated, pattern) := match pattern with
        | ⟨'^', _⟩ :: p => (true, p)
        | p => (false, p)
      match readSet? (pattern.length + 1) true pattern with
      | some (members, rest) => (.set negated members, Pattern.text rest)
      | none => (.char '[', inner)
    | _, '\\' :: c :: rest => (.char c, rest)
    | _, c :: rest => (.char c, rest)
    | _, [] => (.empty, [])

def readRepetitions (extended : Bool) : (fuel : Nat) → Expr → Text → Expr × Text
  | 0, e, t => (e, t)
  | fuel + 1, e, t =>
    match t, mark? extended t with
    | '*' :: rest, _ => readRepetitions extended fuel (.star e) rest
    | _, some ('+', rest) => readRepetitions extended fuel (repeated e 1 none) rest
    | _, some ('?', rest) => readRepetitions extended fuel (repeated e 0 (some 1)) rest
    | _, some ('\x7b', inner) =>
      match readBounds? extended inner with
      | some (least, most, rest) => readRepetitions extended fuel (repeated e least most) rest
      | none => (e, t)
    | _, _ => (e, t)

end

def read (extended : Bool) (t : Text) : Expr := (readChoice extended (4 * t.length + 8) t).1

end Expr

namespace Tool

/-- The lines of a text that are asked for, with their numbers. -/
def selected (a : Arguments) (patterns : List Expr) (t : Text) : List (Nat × Text) :=
  let lower := fun line => if a.has 'i' then toLowerAscii line else line
  ((lines t).zipIdx 1).filterMap fun (line, n) =>
    if (patterns.any fun e => e.isFound (a.has 'x') (lower line)) != a.has 'v' then some (n, line) else none

/-- What is printed for the lines selected in an input. -/
def shownLines (a : Arguments) (named : Bool) (input : Text) (found : List (Nat × Text)) : Text :=
  let input := if input = ['-'] then "(standard input)".toList else input
  let start := if named then input ++ [':'] else []
  if a.has 'q' then []
  else if a.has 'l' then (if found.isEmpty then [] else withFeed input)
  else if a.has 'c' then withFeed (start ++ ofNat found.length)
  else found.flatMap fun (n, line) =>
    withFeed (start ++ (if a.has 'n' then ofNat n ++ [':'] else []) ++ line)

/-- Prints the lines of its inputs that fit one of the patterns, which are the lines of a word. -/
def grep : Tool := withArguments "grep".toList "cvinqlxFEGshHa" "e" 2 fun a => do
  let (pattern?, files) := match a.value? 'e', a.operands with
    | some pattern, files => (some pattern, files)
    | none, pattern :: files => (some pattern, files)
    | none, [] => (none, [])
  match pattern? with
  | none =>
    complain ["Usage: grep [OPTION]... PATTERNS [FILE]...".toList]
    complain ["Try 'grep --help' for more information.".toList]
    return 2
  | some pattern =>
    let given := if pattern.isEmpty then [[]] else lines (if a.has 'i' then toLowerAscii pattern else pattern)
    let patterns := given.map fun p => if a.has 'F' then Expr.literal p else Expr.read (a.has 'E') p
    let named := (files.length > 1 || a.has 'H') && !a.has 'h'
    let any ← newChannel (.sink [])
    let failed ← forInputs "grep".toList (fun input t => do
      let found := selected a patterns t
      if !found.isEmpty then setChannel any (.sink [['x']])
      print (shownLines a named input found)) (inputs files)
    let isFound := !(← collected any).isEmpty
    return if failed != 0 && !(isFound && a.has 'q') then 2 else if isFound then 0 else 1

end Tool

end Shell

end CrashTriage
