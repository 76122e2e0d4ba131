import SurveyTables.Yaml.Basic
import SurveyTables.Yaml.BlockScalar
import SurveyTables.Yaml.FlowScalar
import SurveyTables.Yaml.Tag

/-! The tokens of YAML text. Indentation shows where block collections begin and end, and a
colon shows that what stands before it on its line was a key. -/
namespace SurveyTables.Yaml

inductive Token where
  | directive (d : Directive)
  | documentStart
  | documentEnd
  | blockSequenceStart
  | blockMappingStart
  | blockEnd
  | blockEntry
  | flowSequenceStart
  | flowSequenceEnd
  | flowMappingStart
  | flowMappingEnd
  | flowEntry
  | key
  | value
  | reference (name : String)
  | anchor (name : String)
  | tag (t : Tag)
  | scalar (text : String) (style : ScalarStyle)
deriving DecidableEq, Repr

/-- The place where a key may have begun that no question mark announces. -/
structure KeyStart where
  line : Nat
  column : Nat
  position : Nat
  /-- Whether nothing but a key may stand there, as in a block mapping under other keys. -/
  required : Bool
deriving DecidableEq, Repr

namespace KeyStart

/-- The greatest distance between the beginning of a key and its colon. -/
def reach : Nat := 1024

/-- Whether a colon at a place would come too late: on another line or too far away. -/
def isPast (start : KeyStart) (place : Placed) : Bool :=
  start.line < place.line || start.column + reach < place.column

end KeyStart

structure Scan where
  tokens : List Token
  count : Nat
  /-- The columns of the block collections that are open, the innermost first. -/
  indents : List Nat
  /-- The beginning of a key in the innermost collection, if it may still turn out to be one. -/
  start : Option KeyStart
  /-- The same in each collection around a flow collection that is open, the innermost first. -/
  outer : List (Option KeyStart)
  keyAllowed : Bool

namespace Scan

def initial : Scan := ⟨[], 0, [], none, [], true⟩

def inFlow (s : Scan) : Bool := !s.outer.isEmpty

def margin (s : Scan) : Nat := (s.indents.head?.map (· + 1)).getD 0

def emit (s : Scan) (token : Token) : Scan :=
  { s with tokens := token :: s.tokens, count := s.count + 1 }

def insert (s : Scan) (position : Nat) (token : Token) : Scan :=
  let later := s.tokens.take (s.count - position)
  { s with
    tokens := later ++ token :: s.tokens.drop (s.count - position)
    count := s.count + 1 }

/-- Opens a block collection at a column, unless the innermost one is there or further right. -/
def openBlock (s : Scan) (column position : Nat) (token : Token) : Scan :=
  if s.inFlow || column < s.margin then s
  else { s.insert position token with indents := column :: s.indents }

/-- Closes the innermost block collections, unless a flow collection is open. -/
def closeBlocks (s : Scan) (number : Nat) : Scan :=
  if s.inFlow then s
  else
    { s with
      tokens := List.replicate number Token.blockEnd ++ s.tokens
      count := s.count + number
      indents := s.indents.drop number }

def closeTo (s : Scan) (column : Nat) : Scan :=
  s.closeBlocks (s.indents.takeWhile (column < ·)).length

/-- Gives up the beginning of a key; none if a key was required there. -/
def dropKey? (s : Scan) : Option Scan :=
  if s.start.any (·.required) then none else some { s with start := none }

def beginKey? (s : Scan) (place : Placed) : Option Scan :=
  if s.keyAllowed then do
    let s ← s.dropKey?
    let required := !s.inFlow && s.indents.head? = some place.column
    return { s with start := some ⟨place.line, place.column, s.count, required⟩ }
  else some s

/-- Gives up the beginning of a key that a colon at the place would be too late for. Keys around
a flow collection are looked at when it has ended. -/
def expireKey? (s : Scan) (place : Placed) : Option Scan :=
  if s.start.any (·.isPast place) then s.dropKey? else some s

/-- Passes over blanks, comments, line breaks and byte order marks between tokens. Where a key
may begin in block style, tabs are not passed over. A new line in block style allows keys. -/
def pass (flow comment keyAllowed : Bool) : List Placed → Bool × List Placed
  | [] => (keyAllowed, [])
  | c :: cs =>
    if isBreak c.char then pass flow false (keyAllowed || !flow) cs
    else if comment || c.char = '#' then pass flow true keyAllowed cs
    else if c.char = ' ' || (c.char = '\t' && (flow || !keyAllowed)) ||
        (c.char = '\ufeff' && c.column = 0) then
      pass flow false keyAllowed cs
    else (keyAllowed, c :: cs)

def between? (s : Scan) (token : Token) : Option Scan := do
  let s ← (s.closeBlocks s.indents.length).dropKey?
  return { s with keyAllowed := false }.emit token

def beginFlow? (s : Scan) (place : Placed) (token : Token) : Option Scan := do
  let s ← s.beginKey? place
  return { s with start := none, outer := s.start :: s.outer, keyAllowed := true }.emit token

def endFlow? (s : Scan) (token : Token) : Option Scan := do
  let s ← s.dropKey?
  match s.outer with
  | [] => none
  | start :: outer => return { s with start, outer, keyAllowed := false }.emit token

def flowEntry? (s : Scan) : Option Scan := do
  let s ← s.dropKey?
  return { s with keyAllowed := true }.emit .flowEntry

/-- Reads a dash, which in block style stands only where a key may begin. -/
def blockEntry? (s : Scan) (place : Placed) : Option Scan := do
  if !s.inFlow && !s.keyAllowed then none
  else
    let s ← (s.openBlock place.column s.count .blockSequenceStart).dropKey?
    return { s with keyAllowed := true }.emit .blockEntry

def key? (s : Scan) (place : Placed) : Option Scan := do
  if !s.inFlow && !s.keyAllowed then none
  else
    let s ← (s.openBlock place.column s.count .blockMappingStart).dropKey?
    return { s with keyAllowed := !s.inFlow }.emit .key

/-- Reads the colon in front of a value. If a key may have begun before it, one has. -/
def value? (s : Scan) (place : Placed) : Option Scan :=
  match s.start with
  | some k =>
    let s := (s.insert k.position .key).openBlock k.column k.position .blockMappingStart
    some ({ s with start := none, keyAllowed := false }.emit .value)
  | none =>
    if !s.inFlow && !s.keyAllowed then none
    else
      let s := s.openBlock place.column s.count .blockMappingStart
      some ({ s with keyAllowed := !s.inFlow }.emit .value)

/-- Reads a part of a node, with which a key may begin and after which none may. -/
def part? (s : Scan) (place : Placed) (read : Option (Token × List Placed)) :
    Option (Scan × List Placed) := do
  let s ← s.beginKey? place
  let (token, rest) ← read
  return ({ s with keyAllowed := false }.emit token, rest)

/-- The name of an anchor or alias, after which a word or a part of a flow collection ends. -/
def name? (cs : List Placed) : Option (String × List Placed) :=
  let (name, rest) := word cs
  if name.isEmpty then none
  else if wordEnds rest || rest.head?.any (fun c => "?:,]\x7d%@\x60".toList.contains c.char) then
    some (String.ofList name, rest)
  else none

/-- The characters that no plain scalar begins with. A dash, question mark or colon that is no
token of its own may begin one. -/
def isIndicator (c : Char) : Bool := "&*!|>%@\x60\"',[]#\x7b\x7d".toList.contains c

def plain? (s : Scan) (place : Placed) (cs : List Placed) : Option (Scan × List Placed) := do
  let s ← s.beginKey? place
  let (read, gap, rest) ← plainScalar s.inFlow s.margin [] .empty (place :: cs)
  return ({ s with keyAllowed := gap.isBroken }.emit (.scalar (String.ofList read.reverse) .plain),
    rest)

def block? (s : Scan) (folded : Bool) (cs : List Placed) : Option (Scan × List Placed) := do
  let s ← s.dropKey?
  let (read, rest) ← blockScalar? folded s.margin cs
  let style := if folded then ScalarStyle.folded else .literal
  return ({ s with keyAllowed := true }.emit (.scalar (String.ofList read.reverse) style), rest)

def token? (s : Scan) (c : Placed) (cs : List Placed) : Option (Scan × List Placed) :=
  let quoted (read : Option (List Char × List Placed)) : Option (Token × List Placed) :=
    read.map fun (read, rest) => (.scalar (String.ofList read.reverse) .quoted, rest)
  if c.column = 0 && c.char = '%' then do
    let (d, rest) ← directive? cs
    return (← s.between? (.directive d), rest)
  else if isMarkOf '-' (c :: cs) then (s.between? .documentStart).map (·, cs.drop 2)
  else if isMarkOf '.' (c :: cs) then (s.between? .documentEnd).map (·, cs.drop 2)
  else
    match c.char with
    | '[' => (s.beginFlow? c .flowSequenceStart).map (·, cs)
    | '\x7b' => (s.beginFlow? c .flowMappingStart).map (·, cs)
    | ']' => (s.endFlow? .flowSequenceEnd).map (·, cs)
    | '\x7d' => (s.endFlow? .flowMappingEnd).map (·, cs)
    | ',' => if s.inFlow then s.flowEntry?.map (·, cs) else none
    | '-' => if wordEnds cs then (s.blockEntry? c).map (·, cs) else s.plain? c cs
    | '?' => if s.inFlow || wordEnds cs then (s.key? c).map (·, cs) else s.plain? c cs
    | ':' => if s.inFlow || wordEnds cs then (s.value? c).map (·, cs) else s.plain? c cs
    | '*' => s.part? c ((name? cs).map fun (name, rest) => (.reference name, rest))
    | '&' => s.part? c ((name? cs).map fun (name, rest) => (.anchor name, rest))
    | '!' => s.part? c ((tag? s.inFlow cs).map fun (t, rest) => (.tag t, rest))
    | '"' => s.part? c (quoted (doubleQuoted .chars [] .empty cs))
    | '\'' => s.part? c (quoted (singleQuoted false [] .empty cs))
    | '|' => if s.inFlow then none else s.block? false cs
    | '>' => if s.inFlow then none else s.block? true cs
    | x => if isSpace x || isIndicator x then none else s.plain? c cs

def run : Nat → Scan → List Placed → Option (List Token)
  | 0, _, _ => none
  | fuel + 1, s, cs =>
    let (keyAllowed, rest) := pass s.inFlow false s.keyAllowed cs
    let s := { s with keyAllowed }
    match rest with
    | [] => do
      let s ← (s.closeBlocks s.indents.length).dropKey?
      return s.tokens.reverse
    | c :: cs => do
      let s ← s.expireKey? c
      let (s, rest) ← (s.closeTo c.column).token? c cs
      run fuel s rest

end Scan

def Token.scan (cs : List Placed) : Option (List Token) := Scan.initial.run (cs.length + 1) cs

end SurveyTables.Yaml
