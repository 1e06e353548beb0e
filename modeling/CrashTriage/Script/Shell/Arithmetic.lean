import CrashTriage.Script.Shell.Syntax

/-
Arithmetic of a shell on signed words of 64 bits. Numerals are decimal, octal after a zero and
hexadecimal after `0x`. Operands that do not decide the value of `&&`, `||` and `? :` are not evaluated.
-/
namespace CrashTriage

namespace Shell

open Text

/-! Numerals -/

def isSpaceByte (c : Char) : Bool := c == ' ' || ('\t' ≤ c && c ≤ '\x0d')

/-- The base that the head of a numeral tells, with the text of the digits. -/
def numeralBase (t : Text) : Nat × Text :=
  match t with
  | '0' :: x :: d :: rest =>
    if (x = 'x' || x = 'X') && isHexDigit d then (16, d :: rest) else (8, t)
  | '0' :: _ => (8, t)
  | _ => (10, t)

/-- The numeral at the head of a text, if any, and what follows it. Blanks and a sign may precede it. -/
def readNumeral? (base? : Option Nat) (t : Text) : Option (Int × Text) :=
  let t := t.dropWhile isSpaceByte
  let (negative, t) := match t with
    | '-' :: t => (true, t)
    | '+' :: t => (false, t)
    | _ => (false, t)
  let (base, t) := match base? with
    | some base => (base, t)
    | none => numeralBase t
  let digits := t.takeWhile fun c => (hexDigit? c).any (· < base)
  let n := digits.foldl (fun n c => n * base + (hexDigit? c).getD 0) 0
  if digits.isEmpty then none
  else some (if negative then -(n : Int) else n, t.drop digits.length)

def wordMax : Int := Nat.pow 2 63 - 1

def wordMin : Int := -Nat.pow 2 63

/-- The nearest number in the signed range. -/
def clamp (n : Int) : Int := max wordMin (min wordMax n)

def inRange (n : Int) : Bool := clamp n == n

/-- The value of a whole text, blanks around it aside; a blank text is zero where `base?` is open. -/
def wholeNumeral? (base? : Option Nat) (t : Text) : Option Int :=
  match readNumeral? base? t with
  | some (n, rest) => if rest.all isSpaceByte && inRange n then some n else none
  | none => if base?.isNone && t.all isSpaceByte then some 0 else none

/-! Expressions -/

inductive BinaryOp where
  | multiply | divide | remainder | add | subtract | shiftLeft | shiftRight
  | less | lessEqual | greater | greaterEqual | equal | notEqual
  | bitAnd | bitXor | bitOr
deriving DecidableEq, Repr

inductive Expression where
  | number (n : Int64)
  | parameter (name : Text)
  | negated (e : Expression)
  | isZero (e : Expression)
  | complement (e : Expression)
  | binary (op : BinaryOp) (a b : Expression)
  | both (a b : Expression)
  | either (a b : Expression)
  | conditional (test a b : Expression)
  /-- Assigns a value, or what an operation makes of the old value and it. -/
  | assign (name : Text) (op : Option BinaryOp) (e : Expression)

inductive ArithmeticProblem where
  | noOperand
  | openParenthesis
  | noColon
  | leftOver
  | divisionByZero
deriving DecidableEq, Repr

def ArithmeticProblem.message : ArithmeticProblem → Text
  | .noOperand => "expecting primary".toList
  | .openParenthesis => "expecting ')'".toList
  | .noColon => "expecting ':'".toList
  | .leftOver => "expecting EOF".toList
  | .divisionByZero => "division by zero".toList

inductive ArithmeticToken where
  | number (n : Int64)
  | name (name : Text)
  | mark (mark : Text)
deriving DecidableEq

/-- Marks of more than one character, the longer ones first. -/
def longMarks : List Text :=
  ["<<=", ">>=", "==", "<=", ">=", "<<", ">>", "||", "|=", "&&", "&=", "!=", "*=", "/=", "%=", "+=",
    "-=", "^="].map String.toList

def arithmeticTokens : (fuel : Nat) → Text → List ArithmeticToken
  | 0, _ => []
  | _ + 1, [] => []
  | fuel + 1, c :: t =>
    if c = ' ' || c = '\t' || c = '\n' then arithmeticTokens fuel t
    else if isDigit c then
      match readNumeral? none (c :: t) with
      | some (n, rest) => .number (Int64.ofInt (clamp n)) :: arithmeticTokens fuel rest
      | none => []
    else if isNameStart c then
      .name (c :: t.takeWhile isNameChar) :: arithmeticTokens fuel (t.dropWhile isNameChar)
    else
      let mark := (longMarks.find? fun m => startsWith (c :: t) m).getD [c]
      .mark mark :: arithmeticTokens fuel (t.drop (mark.length - 1))

/-- Operators by how closely they bind, the closest first. -/
def binaryLevels : List (List (String × BinaryOp)) :=
  [[("*", .multiply), ("/", .divide), ("%", .remainder)], [("+", .add), ("-", .subtract)],
    [("<<", .shiftLeft), (">>", .shiftRight)],
    [("<", .less), ("<=", .lessEqual), (">", .greater), (">=", .greaterEqual)],
    [("==", .equal), ("!=", .notEqual)], [("&", .bitAnd)], [("^", .bitXor)], [("|", .bitOr)]]

def operatorIn? (level : List (String × BinaryOp)) (mark : Text) : Option BinaryOp :=
  (level.find? fun entry => entry.1.toList == mark).map (·.2)

/-- The operation of an assignment's mark. -/
def assigning? (mark : Text) : Option (Option BinaryOp) :=
  if mark = ['='] then some none
  else if mark.getLast? = some '=' then
    let level := (binaryLevels.flatten).filter fun entry =>
      ["*", "/", "%", "+", "-", "<<", ">>", "&", "^", "|"].contains entry.1
    (operatorIn? level mark.dropLast).map some
  else none

abbrev ExpressionReader :=
  List ArithmeticToken → Except ArithmeticProblem (Expression × List ArithmeticToken)

/-- Operations of one level, from left to right; `operand` reads what binds closer. -/
def readOperations (operand : ExpressionReader) (level : List (String × BinaryOp)) :
    (fuel : Nat) → Expression → ExpressionReader
  | 0, a, ts => .ok (a, ts)
  | fuel + 1, a, ts =>
    match ts with
    | .mark m :: rest =>
      match operatorIn? level m with
      | some op => do
        let (b, rest) ← operand rest
        readOperations operand level fuel (.binary op a b) rest
      | none => .ok (a, ts)
    | _ => .ok (a, ts)

/-- Reads operations of any of the levels, which stand with the loosest first. -/
def readBinary (operand : ExpressionReader) : List (List (String × BinaryOp)) → ExpressionReader
  | [] => operand
  | level :: closer => fun ts => do
    let (a, rest) ← readBinary operand closer ts
    readOperations (readBinary operand closer) level (ts.length + 1) a rest

mutual

def readOperand : (fuel : Nat) → ExpressionReader
  | 0, _ => .error .noOperand
  | fuel + 1, ts =>
    match ts with
    | .number n :: rest => .ok (.number n, rest)
    | .name x :: rest => .ok (.parameter x, rest)
    | .mark ['('] :: rest => do
      let (e, rest) ← readAssignment fuel rest
      match rest with
      | .mark [')'] :: rest => pure (e, rest)
      | _ => throw .openParenthesis
    | .mark ['+'] :: rest => readOperand fuel rest
    | .mark ['-'] :: rest => do
      let (e, rest) ← readOperand fuel rest
      pure (.negated e, rest)
    | .mark ['!'] :: rest => do
      let (e, rest) ← readOperand fuel rest
      pure (.isZero e, rest)
    | .mark ['~'] :: rest => do
      let (e, rest) ← readOperand fuel rest
      pure (.complement e, rest)
    | _ => .error .noOperand

def readBoth : (fuel : Nat) → ExpressionReader
  | 0, _ => .error .noOperand
  | fuel + 1, ts => do
    let (a, rest) ← readBinary (readOperand fuel) binaryLevels.reverse ts
    match rest with
    | .mark ['&', '&'] :: rest => do
      let (b, rest) ← readBoth fuel rest
      pure (.both a b, rest)
    | _ => pure (a, rest)

def readEither : (fuel : Nat) → ExpressionReader
  | 0, _ => .error .noOperand
  | fuel + 1, ts => do
    let (a, rest) ← readBoth fuel ts
    match rest with
    | .mark ['|', '|'] :: rest => do
      let (b, rest) ← readEither fuel rest
      pure (.either a b, rest)
    | _ => pure (a, rest)

def readConditional : (fuel : Nat) → ExpressionReader
  | 0, _ => .error .noOperand
  | fuel + 1, ts => do
    let (test, rest) ← readEither fuel ts
    match rest with
    | .mark ['?'] :: rest => do
      let (a, rest) ← readAssignment fuel rest
      match rest with
      | .mark [':'] :: rest => do
        let (b, rest) ← readConditional fuel rest
        pure (.conditional test a b, rest)
      | _ => throw .noColon
    | _ => pure (test, rest)

def readAssignment : (fuel : Nat) → ExpressionReader
  | 0, _ => .error .noOperand
  | fuel + 1, ts =>
    match ts with
    | .name x :: .mark m :: rest =>
      match assigning? m with
      | some op => do
        let (e, rest) ← readAssignment fuel rest
        pure (.assign x op e, rest)
      | none => readConditional fuel ts
    | _ => readConditional fuel ts

end

def Expression.read (t : Text) : Except ArithmeticProblem Expression := do
  let ts := arithmeticTokens (t.length + 1) t
  let (e, rest) ← readAssignment (8 * ts.length + 8) ts
  if rest.isEmpty then pure e else throw .leftOver

def ofBool (b : Bool) : Int64 := if b then 1 else 0

def BinaryOp.apply (op : BinaryOp) (a b : Int64) : Except ArithmeticProblem Int64 :=
  match op with
  | .multiply => .ok (a * b)
  | .divide => if b = 0 then .error .divisionByZero else .ok (a / b)
  | .remainder => if b = 0 then .error .divisionByZero else .ok (a % b)
  | .add => .ok (a + b)
  | .subtract => .ok (a - b)
  | .shiftLeft => .ok (a <<< b)
  | .shiftRight => .ok (a >>> b)
  | .less => .ok (ofBool (a < b))
  | .lessEqual => .ok (ofBool (a ≤ b))
  | .greater => .ok (ofBool (b < a))
  | .greaterEqual => .ok (ofBool (b ≤ a))
  | .equal => .ok (ofBool (a = b))
  | .notEqual => .ok (ofBool (a ≠ b))
  | .bitAnd => .ok (a &&& b)
  | .bitXor => .ok (a ^^^ b)
  | .bitOr => .ok (a ||| b)

/-- What an evaluation asks of its surroundings. -/
structure ParameterAccess (m : Type → Type) where
  read : Text → m Int64
  write : Text → Int64 → m Unit
  fail : ArithmeticProblem → m Int64

variable {m : Type → Type} [Monad m]

def ParameterAccess.given (access : ParameterAccess m) (result : Except ArithmeticProblem Int64) :
    m Int64 :=
  match result with
  | .ok n => pure n
  | .error problem => access.fail problem

def Expression.value (access : ParameterAccess m) : Expression → m Int64
  | .number n => pure n
  | .parameter name => access.read name
  | .negated e => do return -(← e.value access)
  | .isZero e => do return ofBool ((← e.value access) = 0)
  | .complement e => do return ~~~(← e.value access)
  | .binary op a b => do
    let x ← a.value access
    let y ← b.value access
    access.given (op.apply x y)
  | .both a b => do
    let x ← a.value access
    if x = 0 then return 0
    return ofBool ((← b.value access) ≠ 0)
  | .either a b => do
    let x ← a.value access
    if x ≠ 0 then return 1
    return ofBool ((← b.value access) ≠ 0)
  | .conditional test a b => do
    let x ← test.value access
    if x ≠ 0 then a.value access else b.value access
  | .assign name op e => do
    let y ← e.value access
    let result ← match op with
      | none => pure y
      | some op => do
        let x ← access.read name
        access.given (op.apply x y)
    access.write name result
    return result

end Shell

end CrashTriage
