import SurveyTables.Yaml.Token

/-! The value that the tokens of a text stand for: a text holds at most one document. -/
namespace SurveyTables.Yaml

structure Input where
  tokens : List Token
  handles : Keyed String
  /-- The anchors so far with the values they mark, a cycle as long as these are being read. -/
  anchors : Array (String × Yaml)

abbrev Parser := StateT Input Option

namespace Parser

def peek : Parser (Option Token) := return (← get).tokens.head?

def advance : Parser Unit := modify fun input => { input with tokens := input.tokens.tail }

def isNext (tokens : List Token) : Parser Bool :=
  return (← peek).any (tokens.contains ·)

def expect (token : Token) : Parser Unit := do
  if ← isNext [token] then advance else failure

/-- The value that an anchor marks, of equal ones the last. -/
def lookup (name : String) : Parser Yaml := do
  let anchors := (← get).anchors
  match anchors.toList.reverse.lookup name with
  | some value => return value
  | none => failure

/-- Marks what is read next, and answers it when it has been read. -/
def marking (anchor : Option String) (read : Parser Yaml) : Parser Yaml := do
  match anchor with
  | none => read
  | some name =>
    let place := (← get).anchors.size
    modify fun input => { input with anchors := input.anchors.push (name, .cycle) }
    let value ← read
    modify fun input => { input with anchors := input.anchors.setIfInBounds place (name, value) }
    return value

def anchor? : Parser (Option String) := do
  match ← peek with
  | some (.anchor name) => do advance; return some name
  | _ => return none

def tag? : Parser (Option String) := do
  match ← peek with
  | some (.tag t) => do
    advance
    if t.handle = "" then return some t.suffix
    else
      match (← get).handles.get? t.handle with
      | some expansion => return some (expansion ++ t.suffix)
      | none => failure
  | _ => return none

def properties : Parser (Option String × Option String) := do
  match ← anchor? with
  | some name => return (some name, ← tag?)
  | none =>
    match ← tag? with
    | some tag => return (← anchor?, some tag)
    | none => return (none, none)

/-- Where a value stands: in a block mapping, where the dashes of a sequence may stand at the
indent of the mapping, or anywhere else. -/
inductive Position where
  | entry
  | other
deriving DecidableEq, Repr

mutual

/-- A value. Each step into a part of it and each step to the next part uses up fuel. -/
def node : Nat → Position → Parser Yaml
  | 0, _ => failure
  | fuel + 1, position => do
    match ← peek with
    | some (.reference name) => do advance; lookup name
    | _ =>
      let (anchor, tag) ← properties
      marking anchor (content fuel position (anchor.isSome || tag.isSome) tag)

def content : Nat → Position → Bool → Option String → Parser Yaml
  | 0, _, _, _ => failure
  | fuel + 1, position, hasProperties, tag => do
    match ← peek with
    | some (.scalar text style) => do advance; return .scalar ⟨text, style, tag⟩
    | some .flowSequenceStart => do advance; flowItems fuel []
    | some .flowMappingStart => do advance; flowEntries fuel []
    | some .blockSequenceStart => do advance; blockItems fuel []
    | some .blockMappingStart => do advance; blockEntries fuel []
    | next =>
      if position = .entry && next = some .blockEntry then entryItems fuel []
      else if hasProperties then return .scalar ⟨"", .plain, tag⟩
      else failure

/-- A value unless one of the given tokens is next, in front of which nothing was written. -/
def nodeUnless : Nat → Position → List Token → Parser Yaml
  | 0, _, _ => failure
  | fuel + 1, position, ends => do
    if ← isNext ends then return absent else node fuel position

def value : Nat → Position → List Token → Parser Yaml
  | 0, _, _ => failure
  | fuel + 1, position, ends => do
    if ← isNext [.value] then do advance; nodeUnless fuel position ends
    else return absent

def blockItems : Nat → List Yaml → Parser Yaml
  | 0, _ => failure
  | fuel + 1, items => do
    if ← isNext [.blockEntry] then do
      advance
      let item ← nodeUnless fuel .other [.blockEntry, .blockEnd]
      blockItems fuel (item :: items)
    else do
      expect .blockEnd
      return sequence items.reverse

/-- A sequence whose dashes stand at the indent of the mapping that it belongs to. -/
def entryItems : Nat → List Yaml → Parser Yaml
  | 0, _ => failure
  | fuel + 1, items => do
    if ← isNext [.blockEntry] then do
      advance
      let item ← nodeUnless fuel .other [.blockEntry, .key, .value, .blockEnd]
      entryItems fuel (item :: items)
    else return sequence items.reverse

def blockEntries : Nat → List (Yaml × Yaml) → Parser Yaml
  | 0, _ => failure
  | fuel + 1, entries => do
    if ← isNext [.key] then do
      advance
      let key ← nodeUnless fuel .entry [.key, .value, .blockEnd]
      let value ← value fuel .entry [.key, .value, .blockEnd]
      blockEntries fuel ((key, value) :: entries)
    else do
      expect .blockEnd
      return mapping entries.reverse

/-- A sequence in flow style. A key in it begins a mapping of a single entry; what stands in the
place of a key that is left out is passed over. -/
def flowItems : Nat → List Yaml → Parser Yaml
  | 0, _ => failure
  | fuel + 1, items => do
    if !items.isEmpty && !(← isNext [.flowSequenceEnd]) then expect .flowEntry
    if ← isNext [.flowSequenceEnd] then do
      advance
      return sequence items.reverse
    else if ← isNext [.key] then do
      advance
      let key ←
        if ← isNext [.value, .flowEntry, .flowSequenceEnd] then do advance; pure absent
        else node fuel .other
      let value ← value fuel .other [.flowEntry, .flowSequenceEnd]
      flowItems fuel (mapping [(key, value)] :: items)
    else do
      let item ← node fuel .other
      flowItems fuel (item :: items)

def flowEntries : Nat → List (Yaml × Yaml) → Parser Yaml
  | 0, _ => failure
  | fuel + 1, entries => do
    if !entries.isEmpty && !(← isNext [.flowMappingEnd]) then expect .flowEntry
    if ← isNext [.flowMappingEnd] then do
      advance
      return mapping entries.reverse
    else if ← isNext [.key] then do
      advance
      let key ← nodeUnless fuel .other [.value, .flowEntry, .flowMappingEnd]
      let value ← value fuel .other [.flowEntry, .flowMappingEnd]
      flowEntries fuel ((key, value) :: entries)
    else do
      let key ← node fuel .other
      flowEntries fuel ((key, absent) :: entries)

end

def commonHandles : Keyed String := [("!", "!"), ("!!", "tag:yaml.org,2002:")]

/-- The handles that a document declares. It may name a version of YAML once, and each handle
once. -/
def declared (hasVersion : Bool) (handles : Keyed String) : List Directive → Option (Keyed String)
  | [] => some handles
  | .version major minor :: rest =>
    if !hasVersion && major = 1 && (minor = 1 || minor = 2) then declared true handles rest
    else none
  | .handle name expansion :: rest =>
    if (handles.get? name).isSome then none
    else declared hasVersion (handles ++ [(name, expansion)]) rest

def directives : List Token → List Directive × List Token
  | .directive d :: tokens => let (later, rest) := directives tokens; (d :: later, rest)
  | tokens => ([], tokens)

/-- A whole text. Marks of its end may follow a document, and nothing else. -/
def document (fuel : Nat) : Parser Yaml := do
  let (before, rest) := directives (← get).tokens
  match declared false [] before with
  | none => failure
  | some handles =>
    modify fun input =>
      { input with tokens := rest, handles := handles ++ commonHandles }
    if rest.isEmpty && before.isEmpty then return absent
    let marked ← isNext [.documentStart]
    if marked then advance else if !before.isEmpty then failure
    let isEmpty := marked && ((← peek).isNone || (← isNext [.documentStart, .documentEnd]))
    let value ← if isEmpty then pure absent else node fuel .other
    if (← get).tokens.all (· = .documentEnd) then return value else failure

end Parser

def parse? (s : String) : Option Yaml := do
  let tokens ← Token.scan (← Placed.ofText? s)
  let (value, _) ← (Parser.document (4 * tokens.length + 4)).run ⟨tokens, [], #[]⟩
  return value

example : (parse? "a: \"b # c\" # d\nz: [1, \x7b2: 3\x7d]\n").bind
    (·.fields? ["a"] >>= required "a" text?) = some "b # c" := by decide +kernel
example : (parse? "z:\n- 1\n- y: 2\na: b\n  c\n").bind
    (·.fields? ["a"] >>= required "a" text?) = some "b c" := by decide +kernel
example : (parse? "a: b: c").isNone ∧ (parse? "a: b\n\tc: d").isNone := by decide +kernel
example : (parse? "a\n---\nb").isNone ∧ (parse? "[a").isNone := by decide +kernel

end SurveyTables.Yaml
