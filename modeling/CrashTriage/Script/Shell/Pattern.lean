import CrashTriage.Text.Numeral

/-
Patterns of file names and of `case`. A star stands for any text, a question mark for one character, and
brackets for one character of a set, or of none of it after `!`. A bracket that is not closed stands for
itself, as does every quoted character and every character after a backslash.
-/
namespace CrashTriage

namespace Shell

open Text

/-- A character of a pattern, and whether it stands for itself. -/
structure PatternChar where
  char : Char
  literal : Bool
deriving DecidableEq, Repr

namespace PatternChar

def isMark (p : PatternChar) (c : Char) : Bool := !p.literal && p.char == c

end PatternChar

inductive SetMember where
  | range (first last : Char)
  | named (name : Text)
deriving DecidableEq, Repr

inductive PatternItem where
  | char (c : Char)
  | one
  | many
  | set (negated : Bool) (members : List SetMember)
deriving DecidableEq, Repr

/-- Sets of characters by name. -/
def namedSets : List (String × (Char → Bool)) :=
  let isLower := fun c : Char => 'a' ≤ c && c ≤ 'z'
  let isUpper := fun c : Char => 'A' ≤ c && c ≤ 'Z'
  let isGraph := fun c : Char => '!' ≤ c && c ≤ '~'
  [("alpha", Char.isAlpha), ("digit", isDigit), ("alnum", fun c => c.isAlpha || isDigit c),
    ("lower", isLower), ("upper", isUpper), ("space", fun c => c == ' ' || ('\t' ≤ c && c ≤ '\x0d')),
    ("blank", fun c => c == ' ' || c == '\t'), ("xdigit", isHexDigit),
    ("punct", fun c => isGraph c && !c.isAlpha && !isDigit c), ("graph", isGraph),
    ("print", fun c => isGraph c || c == ' '), ("cntrl", fun c => c < ' ' || c == '\x7f')]

def namedSet? (name : Text) : Option (Char → Bool) :=
  (namedSets.find? fun entry => entry.1.toList == name).map (·.2)

def SetMember.holds (c : Char) : SetMember → Bool
  | .range first last => first ≤ c && c ≤ last
  | .named name => ((namedSet? name).map (· c)).getD false

abbrev Pattern := List PatternChar

/-- The named set at the head of a pattern, after its bracket, and what follows it. -/
def readNamedSet? (p : Pattern) : Option (Text × Pattern) :=
  match p with
  | ⟨':', _⟩ :: rest =>
    let name := (rest.takeWhile fun c => c.char != ':').map (·.char)
    match rest.drop name.length with
    | ⟨':', _⟩ :: ⟨']', _⟩ :: rest => if (namedSet? name).isSome then some (name, rest) else none
    | _ => none
  | _ => none

/-- The members of a set up to its bracket, which is a member where it stands first. -/
def readSet? : (fuel : Nat) → (first : Bool) → Pattern → Option (List SetMember × Pattern)
  | 0, _, _ => none
  | _ + 1, _, [] => none
  | fuel + 1, first, c :: rest =>
    if c.isMark ']' && !first then some ([], rest)
    else
      match (if c.isMark '[' then readNamedSet? rest else none), rest with
      | some (name, rest), _ =>
        (readSet? fuel false rest).map fun (ms, rest) => (.named name :: ms, rest)
      | none, ⟨'-', false⟩ :: last :: later =>
        if last.isMark ']' then
          (readSet? fuel false rest).map fun (ms, rest) => (.range c.char c.char :: ms, rest)
        else (readSet? fuel false later).map fun (ms, rest) => (.range c.char last.char :: ms, rest)
      | none, _ => (readSet? fuel false rest).map fun (ms, rest) => (.range c.char c.char :: ms, rest)

/-- A set after its opening bracket. -/
def readBracket? (p : Pattern) : Option (PatternItem × Pattern) :=
  let (negated, inner) := match p with
    | c :: rest => if c.isMark '!' then (true, rest) else (false, p)
    | [] => (false, p)
  (readSet? (p.length + 1) true inner).map fun (ms, rest) => (.set negated ms, rest)

namespace Pattern

def items : (fuel : Nat) → Pattern → List PatternItem
  | 0, _ => []
  | _ + 1, [] => []
  | fuel + 1, c :: rest =>
    if c.isMark '*' then .many :: items fuel rest
    else if c.isMark '?' then .one :: items fuel rest
    else
      match if c.isMark '[' then readBracket? rest else none with
      | some (set, rest) => set :: items fuel rest
      | none => .char c.char :: items fuel rest

def text (p : Pattern) : Text := p.map (·.char)

/-- The pattern with the characters after its backslashes standing for themselves. -/
def unescaped : Pattern → Pattern
  | [] => []
  | c :: d :: rest =>
    if c.isMark '\\' then ⟨d.char, true⟩ :: unescaped rest else c :: unescaped (d :: rest)
  | [c] => [c]

def itemsOf (p : Pattern) : List PatternItem := items (p.length + 1) p.unescaped

def ofText (t : Text) : Pattern := t.map fun c => ⟨c, false⟩

/-- Does anything in it stand for more than itself? -/
def isActive (p : Pattern) : Bool :=
  p.itemsOf.any fun item =>
    match item with
    | .char _ => false
    | _ => true

end Pattern

/-- Fits a whole text to a pattern. -/
def fits : List PatternItem → Text → Bool
  | [], t => t.isEmpty
  | .many :: items, t => anyEnd items t
  | .char d :: items, c :: t => c == d && fits items t
  | .one :: items, _ :: t => fits items t
  | .set negated members :: items, c :: t => (members.any (·.holds c) != negated) && fits items t
  | _ :: _, [] => false
where
  /-- Fits some end of a text. -/
  anyEnd (items : List PatternItem) : Text → Bool
    | [] => fits items []
    | c :: t => fits items (c :: t) || anyEnd items t

namespace Pattern

def isMatch (p : Pattern) (t : Text) : Bool := fits p.itemsOf t

/-- The text without its longest or shortest end, or start, that fits. -/
def strip (p : Pattern) (atEnd longest : Bool) (t : Text) : Text :=
  let items := p.itemsOf
  let sizes := List.range (t.length + 1)
  -- how much remains, most wanted first
  let kept := if longest then sizes else sizes.reverse
  if atEnd then
    match kept.find? fun n => fits items (t.drop n) with
    | some n => t.take n
    | none => t
  else
    match kept.find? fun n => fits items (t.take (t.length - n)) with
    | some n => t.drop (t.length - n)
    | none => t

end Pattern

end Shell

end CrashTriage
