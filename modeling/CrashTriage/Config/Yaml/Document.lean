import CrashTriage.Config.Yaml.Node

/-
Reading a YAML document from its tokens. A text holds at most one document; blocks may hold anything,
brackets hold no blocks. A missing key or value is an empty plain scalar.
-/
namespace CrashTriage

namespace Yaml

open Text

/-- A document that is being read. -/
structure Draft where
  tokens : List Token
  /-- The beginnings of tags under their handles. -/
  beginnings : List (Text × Bytes)
  /-- The names of anchors; the last number of a name counts. -/
  names : List (Text × Nat)
  anchored : Array (Nat × Option Node)

/-- A reader of tokens, which may refuse them. -/
abbrev Building := StateT Draft Option

namespace Building

def next : Building (Option Token) := do pure (← get).tokens.head?

def skip : Building Unit := modify fun d => { d with tokens := d.tokens.tail }

/-- Passes over a token if it is the next one. -/
def skips (t : Token) : Building Bool := do
  if (← next) = some t then
    skip
    pure true
  else pure false

/-- Is one of these tokens the next one? -/
def isNext (ts : List Token) : Building Bool := do pure ((← next).any ts.contains)

def expect (t : Token) : Building Unit := do
  if !(← skips t) then failure

/-- A name gets the count of names as its number; the name is known from here on. -/
def anchor (name : Text) : Building Nat := do
  let d ← get
  let known := (d.names.map (·.1)).eraseDups.length
  set { d with
    names := (name, known) :: d.names
    anchored := d.anchored.push (known, none) }
  pure d.anchored.size

def finishAnchor (place : Option Nat) (n : Node) : Building Node := do
  if let some i := place then
    modify fun d => { d with
      anchored := d.anchored.modify i fun (number, _) => (number, some n) }
  pure n

def writtenTag (t : Tag) : Building Bytes := do
  if t.handle.isEmpty then pure t.suffix
  else
    match (← get).beginnings.lookup t.handle with
    | some beginning => pure (beginning ++ t.suffix)
    | none => failure

/-- An anchor and a tag in front of a node, in any order: the place of the anchor, and the tag. -/
def properties : Building (Option Nat × Option Bytes) := do
  match ← next with
  | some (.anchor name) =>
    skip
    let place ← anchor name
    match ← next with
    | some (.tag t) =>
      skip
      pure (some place, some (← writtenTag t))
    | _ => pure (some place, none)
  | some (.tag t) =>
    skip
    match ← next with
    | some (.anchor name) =>
      skip
      let place ← anchor name
      pure (some place, some (← writtenTag t))
    | _ => pure (none, some (← writtenTag t))
  | _ => pure (none, none)

/-- A lone mark of a tag says nothing about a scalar. -/
def isLoneMark (tag : Option Bytes) : Bool := tag = some (toBytes ['!'])

mutual

/-- A node; `block` allows blocks, `indentless` also a block sequence that is not indented. -/
def node (block indentless : Bool) : (fuel : Nat) → Building Node
  | 0 => failure
  | fuel + 1 => do
    if let some (.reference name) := ← next then
      skip
      let some number := (← get).names.lookup name | failure
      pure (.reference number)
    else
      let (place, tag) ← properties
      match ← next with
      | some (.scalar text style) =>
        skip
        finishAnchor place (.scalar (if isLoneMark tag then none else tag) text style)
      | some .flowSequenceStart =>
        skip
        finishAnchor place (.sequence (← flowElements true fuel))
      | some .flowMappingStart =>
        skip
        finishAnchor place (.mapping (← flowMembers true fuel))
      | some .blockEntry =>
        if indentless then finishAnchor place (.sequence (← indentlessElements fuel))
        else bare place tag
      | some .blockSequenceStart =>
        if block then
          skip
          finishAnchor place (.sequence (← blockElements fuel))
        else bare place tag
      | some .blockMappingStart =>
        if block then
          skip
          finishAnchor place (.mapping (← blockMembers fuel))
        else bare place tag
      | _ => bare place tag
where
  /-- A node that is nothing but its anchor and its tag. -/
  bare (place : Option Nat) (tag : Option Bytes) : Building Node :=
    if place.isSome || tag.isSome then finishAnchor place (.scalar tag [] .plain) else failure

/-- A node, or nothing where one of these tokens comes next. -/
def nodeUnless (ends : List Token) (block indentless : Bool) : (fuel : Nat) → Building Node
  | 0 => failure
  | fuel + 1 => do
    if ← isNext ends then pure .empty else node block indentless fuel

def blockElements : (fuel : Nat) → Building (List Node)
  | 0 => failure
  | fuel + 1 => do
    if ← skips .blockEntry then
      let element ← nodeUnless [.blockEntry, .blockEnd] true false fuel
      pure (element :: (← blockElements fuel))
    else
      expect .blockEnd
      pure []

def indentlessElements : (fuel : Nat) → Building (List Node)
  | 0 => failure
  | fuel + 1 => do
    if ← skips .blockEntry then
      let element ← nodeUnless [.blockEntry, .key, .value, .blockEnd] true false fuel
      pure (element :: (← indentlessElements fuel))
    else pure []

def blockMembers : (fuel : Nat) → Building (List (Node × Node))
  | 0 => failure
  | fuel + 1 => do
    if ← skips .key then
      let key ← nodeUnless [.key, .value, .blockEnd] true true fuel
      let value ←
        if ← skips .value then nodeUnless [.key, .value, .blockEnd] true true fuel
        else pure .empty
      pure ((key, value) :: (← blockMembers fuel))
    else
      expect .blockEnd
      pure []

/-- The elements up to the closing bracket; a key makes an element a mapping of one member. When a key
is missing, what stands in its place is passed over. -/
def flowElements (first : Bool) : (fuel : Nat) → Building (List Node)
  | 0 => failure
  | fuel + 1 => do
    if ← skips .flowSequenceEnd then pure []
    else
      if !first then expect .flowEntry
      if ← skips .key then
        let key ←
          if ← isNext [.value, .flowEntry, .flowSequenceEnd] then
            skip
            pure .empty
          else node false false fuel
        let value ←
          if ← skips .value then nodeUnless [.flowEntry, .flowSequenceEnd] false false fuel
          else pure .empty
        pure (.mapping [(key, value)] :: (← flowElements false fuel))
      else if ← skips .flowSequenceEnd then pure []
      else
        let element ← node false false fuel
        pure (element :: (← flowElements false fuel))

def flowMembers (first : Bool) : (fuel : Nat) → Building (List (Node × Node))
  | 0 => failure
  | fuel + 1 => do
    if ← skips .flowMappingEnd then pure []
    else
      if !first then expect .flowEntry
      if ← skips .key then
        let key ← nodeUnless [.value, .flowEntry, .flowMappingEnd] false false fuel
        let value ←
          if ← skips .value then nodeUnless [.flowEntry, .flowMappingEnd] false false fuel
          else pure .empty
        pure ((key, value) :: (← flowMembers false fuel))
      else if ← skips .flowMappingEnd then pure []
      else
        let key ← node false false fuel
        pure ((key, .empty) :: (← flowMembers false fuel))

end

/-! Documents -/

def standardBeginnings : List (Text × Bytes) :=
  [(['!'], toBytes ['!']), (['!', '!'], toBytes "tag:yaml.org,2002:".toList)]

/-- Reads directives: one version, and one beginning for each handle. -/
def directives (versioned : Bool) (given : List (Text × Bytes)) : (fuel : Nat) → Building Unit
  | 0 => failure
  | fuel + 1 => do
    match ← next with
    | some (.versionDirective major minor) =>
      if versioned || major ≠ 1 || (minor ≠ 1 && minor ≠ 2) then failure
      skip
      directives true given fuel
    | some (.tagDirective handle beginning) =>
      if (given.lookup handle).isSome then failure
      skip
      directives versioned ((handle, beginning) :: given) fuel
    | _ => modify fun d => { d with beginnings := given ++ standardBeginnings }

def isDirective : Token → Bool
  | .versionDirective .. | .tagDirective .. => true
  | _ => false

/-- The content of the only document. -/
def document (fuel : Nat) : Building Node := do
  let explicit := (← next).any fun t => isDirective t || t = .documentStart
  directives false [] fuel
  let root ←
    if explicit then do
      expect .documentStart
      match ← next with
      | none => pure .empty
      | some t =>
        if isDirective t || t = .documentStart || t = .documentEnd then pure .empty
        else node true false fuel
    else node true false fuel
  let rest := (← get).tokens
  if rest.all (· = .documentEnd) then pure root else failure

end Building

/-- The document of a text; a text without any document holds nothing. -/
def Document.ofText? (t : Text) : Option Document := do
  let tokens ← Token.ofText? t
  if tokens.isEmpty then pure ⟨.empty, #[]⟩
  else
    let (root, draft) ← (Building.document (2 * tokens.length + 2)).run ⟨tokens, [], [], #[]⟩
    pure ⟨root, draft.anchored⟩

end Yaml

end CrashTriage
