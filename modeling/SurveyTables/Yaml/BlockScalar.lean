import SurveyTables.Yaml.Source

/-! Block scalars: lines at a common indent, kept as they are or folded. The indicator before
them may say what happens to line breaks at their end, and how far they are indented. -/
namespace SurveyTables.Yaml

/-- What is kept of the line breaks at the end of a block scalar: none, the first, or all. -/
inductive Chomping where
  | strip
  | clip
  | keep
deriving DecidableEq, Repr

structure BlockHeader where
  chomping : Option Chomping
  /-- By how much the lines are indented more than what they belong to. -/
  increment : Option Nat
deriving DecidableEq, Repr

/-- Reads on in a header; either indicator may come first, and each comes at most once. -/
def blockHeader (header : BlockHeader) : List Placed → Option (BlockHeader × List Placed)
  | [] => some (header, [])
  | c :: cs =>
    if header.chomping.isNone && (c.char = '+' || c.char = '-') then
      blockHeader { header with chomping := some (if c.char = '+' then .keep else .strip) } cs
    else if header.increment.isNone && c.char.isDigit then
      if c.char = '0' then none
      else blockHeader { header with increment := some (c.char.toNat - '0'.toNat) } cs
    else some (header, c :: cs)

/-- Passes over the empty lines at the beginning. Answers their line breaks, newest first, the
column of the widest indentation, and the rest. -/
def emptyLines (breaks : List Char) (widest : Nat) :
    List Placed → Option (List Char × Nat × List Placed)
  | [] => some (breaks, widest, [])
  | c :: cs =>
    if c.char = ' ' then emptyLines breaks widest cs
    else if c.char = '\t' then none
    else if isBreak c.char then emptyLines (c.char :: breaks) (max widest c.column) cs
    else some (breaks, max widest c.column, c :: cs)

structure BlockText where
  read : List Char
  lineBreak : Option Char
  breaks : List Char
  /-- Whether the last line began with a blank; such lines are not folded. -/
  indented : Bool
deriving DecidableEq, Repr

namespace BlockText

def beginLine (folded : Bool) (text : BlockText) (c : Char) : BlockText :=
  let folds := folded && text.lineBreak = some '\n' && !text.indented && !isBlank c
  let before :=
    if folds then if text.breaks.isEmpty then [' '] else text.breaks
    else text.breaks ++ text.lineBreak.toList
  ⟨c :: (before ++ text.read), none, [], isBlank c⟩

def readLines (folded : Bool) (indent : Nat) (inLine : Bool) (text : BlockText) :
    List Placed → Option (BlockText × List Placed)
  | [] => some (text, [])
  | c :: cs =>
    if inLine then
      if isBreak c.char then
        readLines folded indent false { text with lineBreak := some c.char } cs
      else readLines folded indent true { text with read := c.char :: text.read } cs
    else if c.column < indent && c.char = ' ' then readLines folded indent false text cs
    else if c.column < indent && c.char = '\t' then none
    else if isBreak c.char then
      readLines folded indent false { text with breaks := c.char :: text.breaks } cs
    else if c.column < indent then some (text, c :: cs)
    else readLines folded indent true (text.beginLine folded c.char) cs

def chomped (text : BlockText) : Chomping → List Char
  | .strip => text.read
  | .clip => text.lineBreak.toList ++ text.read
  | .keep => text.breaks ++ text.lineBreak.toList ++ text.read

end BlockText

/-- Reads the block scalar after its indicator: its characters, newest first, and the rest. The
margin is the first column to the right of what the scalar belongs to. -/
def blockScalar? (folded : Bool) (margin : Nat) (cs : List Placed) :
    Option (List Char × List Placed) := do
  let (header, cs) ← blockHeader ⟨none, none⟩ cs
  let cs ← nextLine? cs
  let (breaks, indent, cs) ← match header.increment with
    | some increment => some ([], margin - 1 + increment, cs)
    | none =>
      (emptyLines [] 0 cs).map fun (breaks, widest, cs) => (breaks, max widest (max margin 1), cs)
  let (text, rest) ← BlockText.readLines folded indent false ⟨[], none, breaks, false⟩ cs
  return (text.chomped (header.chomping.getD .clip), rest)

end SurveyTables.Yaml
