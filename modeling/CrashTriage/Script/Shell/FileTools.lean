import CrashTriage.Script.Shell.Tools

/-
The programs of a system that change and list directories. Each goes through its operands in order and
complains about those that fail.
-/
namespace CrashTriage

namespace Shell

open Text ShellM

namespace Tool

/-- Applies a change to each operand; the status is 1 when one is refused. -/
def eachOperand (complaint : (operand : Text) → OsError → List Text)
    (change : Text → Disk → Except OsError (Unit × Disk)) : List Text → ShellM Nat
  | [] => return 0
  | operand :: rest => do
    let failed ← match ← tryDisk (change operand) with
      | .ok () => pure false
      | .error e => do
        complain (complaint operand e)
        pure true
    let later ← eachOperand complaint change rest
    return if failed then 1 else later

/-- A complaint that says what could not be done to an operand. -/
def cannot (name action : String) (operand : Text) (e : OsError) : List Text :=
  [name.toList, ": ".toList, action.toList, " '".toList, operand, "': ".toList, plainReason e]

def withOperands (name : String) (operands : List Text) (run : ShellM Nat) : ShellM Nat := do
  if operands.isEmpty then
    complain [name.toList, ": missing operand".toList]
    complain ["Try '".toList, name.toList, " --help' for more information.".toList]
    return 1
  run

def mkdir : Tool := withArguments "mkdir".toList "p" "m" 1 fun a =>
  withOperands "mkdir" a.operands do
    eachOperand (cannot "mkdir" "cannot create directory") (fun path d =>
      let path := toChars path
      if a.has 'p' then d.makeDirectories (path.length + 1) path else d.makeDirectory path) a.operands

/-- Removes an empty directory. -/
def removeDirectory (path : Text) (d : Disk) : Except OsError (Unit × Disk) := do
  let place ← d.locate (toChars path)
  match d.find? place with
  | none => throw .notFound
  | some node =>
    if !node.isDirectory then throw .notDirectory
    d.require place.dropLast .write
    if !(d.namesIn place).isEmpty then throw .notEmpty
    pure ((), d.erase place)

def rmdir : Tool := withArguments "rmdir".toList "" "" 1 fun a =>
  withOperands "rmdir" a.operands do
    eachOperand (fun path e =>
      ["rmdir: failed to remove '".toList, path, "': ".toList, plainReason e]) removeDirectory a.operands

/-- Removes a file, or with all below it a directory when that is asked for. -/
def removeAll (recursive : Bool) (path : Text) (d : Disk) : Except OsError (Unit × Disk) := do
  let place ← d.locate (toChars path)
  match d.find? place with
  | none => throw .notFound
  | some node =>
    d.require place.dropLast .write
    if node.isDirectory && !recursive then throw .isDirectory
    pure ((), d.eraseTree place)

def rm : Tool := withArguments "rm".toList "rRfd" "" 1 fun a => do
  let forced := a.has 'f'
  let removal := fun path d =>
    match removeAll (a.has 'r' || a.has 'R') path d with
    | .error .notFound => if forced then .ok ((), d) else .error .notFound
    | result => result
  let each := eachOperand (cannot "rm" "cannot remove") removal a.operands
  if forced then each else withOperands "rm" a.operands each

/-- The permission bits that a clause such as `u+x` makes of others. Without users it is bound by the
mask. -/
def clauseMode? (mask old : Nat) (clause : Text) : Option Nat :=
  let users := clause.takeWhile fun c => "ugoa".toList.contains c
  let all := users.isEmpty || users.elem 'a'
  let weight := (if all || users.elem 'u' then 64 else 0) + (if all || users.elem 'g' then 8 else 0) +
    (if all || users.elem 'o' then 1 else 0)
  let hidden := if users.isEmpty then mask else 0
  let anyRun := old &&& 0o111 != 0
  let valued := [('r', 4), ('w', 2), ('x', 1), ('X', if anyRun then 1 else 0)]
  match clause.drop users.length with
  | sign :: letters =>
    let bits := valued.foldl (fun n (c, bit) => if letters.elem c then n ||| bit else n) 0
    let bits := bits * weight - ((bits * weight) &&& hidden)
    if !letters.all fun c => "rwxX".toList.contains c then none
    else if sign = '+' then some (old ||| bits)
    else if sign = '-' then some (old - (old &&& bits))
    else if sign = '=' then some ((old - (old &&& (7 * weight))) ||| bits)
    else none
  | [] => none

/-- The permission bits that a mode, octal or a list of clauses, makes of others. -/
def newMode? (mask : Nat) (mode : Text) (old : Nat) : Option Nat :=
  if !mode.isEmpty && mode.all isOctal then
    some (mode.foldl (fun n c => n * 8 + (c.toNat - 48)) 0)
  else (split ',' mode).foldlM (clauseMode? mask) old

def chmod : Tool := fun words => do
  let mask := (← environment).mask
  match words with
  | mode :: files =>
    if files.isEmpty || (newMode? mask mode 0).isNone then
      complain ["chmod: invalid mode: '".toList, mode, ['\'']]
      return 1
    eachOperand (cannot "chmod" "cannot access") (fun path d => do
      let place ← d.locate (toChars path)
      match d.find? place with
      | none => throw .notFound
      | some node => d.setModeAt place ((newMode? mask mode node.mode).getD node.mode)) files
  | [] =>
    complain ["chmod: missing operand".toList]
    return 1

/-- Makes an empty file, or gives a file the present time. -/
def touchFile (make : Bool) (mask : Nat) (path : Text) (d : Disk) : Except OsError (Unit × Disk) := do
  let place ← d.locate (toChars path)
  match d.find? place with
  | some node => pure ((), (d.put place { node with modified := d.now }).tick)
  | none =>
    if !make then return ((), d)
    d.require place.dropLast .write
    pure ((), (d.put place (d.newFile (.bytes []) (0o666 &&& (0o777 ^^^ mask)))).tick)

def touch : Tool := withArguments "touch".toList "camf" "" 1 fun a =>
  withOperands "touch" a.operands do
    let mask := (← environment).mask
    eachOperand (cannot "touch" "cannot touch") (touchFile (!a.has 'c') mask) a.operands

/-- Where something goes that is moved or copied to a path: into it if it is a directory. -/
def destination (d : Disk) (source target : Text) : Text :=
  if d.isDirectory (toChars target) then toChars (dropEndWhile (· == '/') target ++ '/' :: baseOf source)
  else toChars target

/-- Everything at and below a place, put below another one. -/
def transplant (place target : Place) (d : Disk) : List (Place × Node) :=
  d.nodes.filterMap fun (here, node) =>
    if place.isPrefixOf here then some (target ++ here.drop place.length, node) else none

def moveTo (target source : Text) (d : Disk) : Except OsError (Unit × Disk) := do
  let place ← d.locate (toChars source)
  let goal ← d.locate (destination d source target)
  match d.find? place with
  | none => throw .notFound
  | some node =>
    d.require place.dropLast .write
    d.require goal.dropLast .write
    if place = goal then return ((), d)
    match d.find? goal with
    | some old =>
      if old.isDirectory && !node.isDirectory then throw .isDirectory
      if !old.isDirectory && node.isDirectory then throw .notDirectory
      if old.isDirectory && !(d.namesIn goal).isEmpty then throw .notEmpty
    | none => pure ()
    let moved := transplant place goal d
    let rest := (d.eraseTree place).eraseTree goal
    pure ((), { rest with nodes := moved ++ rest.nodes })

def copyTo (mask : Nat) (target source : Text) (d : Disk) : Except OsError (Unit × Disk) := do
  let place ← d.locate (toChars source)
  let goal ← d.locate (destination d source target)
  match d.find? place with
  | none => throw .notFound
  | some node =>
    if !d.allows node .read then throw .denied
    match node.entry, d.find? goal with
    | .directory, _ => throw .isDirectory
    | .file content, some old =>
      if old.isDirectory then throw .isDirectory
      if !d.allows old .write then throw .denied
      d.writeAt goal content
    | .file content, none =>
      d.require goal.dropLast .write
      pure ((), (d.put goal (d.newFile content (node.mode &&& (0o777 ^^^ mask)))).tick)

/-- Moves or copies all operands but the last to the last one. -/
def toLast (name : String) (change : (target source : Text) → Disk → Except OsError (Unit × Disk))
    (operands : List Text) : ShellM Nat := do
  match operands.reverse with
  | [] | [_] =>
    complain [name.toList, ": missing file operand".toList]
    return 1
  | target :: sources =>
    let d ← disk
    if sources.length > 1 && !d.isDirectory (toChars target) then
      complain [name.toList, ": target '".toList, target, "': Not a directory".toList]
      return 1
    let complaint := fun source e =>
      if name = "cp" && e = .isDirectory && d.isDirectory (toChars source) then
        ["cp: -r not specified; omitting directory '".toList, source, ['\'']]
      else cannot name "cannot stat" source e
    eachOperand complaint (change target) sources.reverse

def mv : Tool := withArguments "mv".toList "fnv" "" 1 fun a => toLast "mv" moveTo a.operands

def cp : Tool := withArguments "cp".toList "fprRa" "" 1 fun a => do
  toLast "cp" (copyTo (← environment).mask) a.operands

/-- Lists files, then directories, the latter under their names when there is more than one operand. -/
def ls : Tool := withArguments "ls".toList "1aAdr" "" 2 fun a => do
  let d ← disk
  let operands := sortTexts (if a.operands.isEmpty then [['.']] else a.operands)
  let ordered := fun names : List Text => if a.has 'r' then (sortTexts names).reverse else sortTexts names
  let missing := operands.filter fun path => !(d.stat (toChars path)).isOk
  for path in missing do
    let cause := match d.stat (toChars path) with
      | .error e => plainReason e
      | .ok _ => []
    complain ["ls: cannot access '".toList, path, "': ".toList, cause]
  let isListed := fun path => d.isDirectory (toChars path) && !a.has 'd'
  let found := operands.filter fun path => !missing.contains path
  let files := found.filter fun path => !isListed path
  print ((ordered files).flatMap withFeed)
  let directories := found.filter isListed
  let mut first := files.isEmpty
  for path in ordered directories do
    if operands.length > 1 then print ((if first then [] else ['\n']) ++ path ++ ":\n".toList)
    first := false
    match d.list (toChars path) with
    | .ok names =>
      let hidden := if a.has 'a' then [['.'], ['.', '.']] else []
      let names := (names.map ofChars).filter fun name =>
        a.has 'a' || a.has 'A' || name.head? != some '.'
      print ((ordered (hidden ++ names)).flatMap withFeed)
    | .error e => complain ["ls: cannot open directory '".toList, path, "': ".toList, plainReason e]
  return if missing.isEmpty then 0 else 2

end Tool

end Shell

end CrashTriage
