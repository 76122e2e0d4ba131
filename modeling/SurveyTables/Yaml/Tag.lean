import SurveyTables.Text.Hex
import SurveyTables.Yaml.Source

/-! Tags as they are written, and the directives that stand before a document: the version of
YAML and the handles that abbreviate tags. -/
namespace SurveyTables.Yaml

open SurveyTables.Text (hexDigit?)

/-- A tag in two parts: a handle that stands for the beginning of the tag, empty if the tag is
given in full, and the rest. -/
structure Tag where
  handle : String
  suffix : String
deriving DecidableEq, Repr

inductive Directive where
  | version (major minor : Nat)
  | handle (name expansion : String)
deriving DecidableEq, Repr

/-- The characters that tags consist of, apart from percent escapes. Only in full tags may
punctuation of flow style be among them. -/
def isTagChar (full : Bool) (c : Char) : Bool :=
  c.isAlphanum || "-_;/?:@&=+$.!~*'()".toList.contains c || (full && ",[]".toList.contains c)

/-- Reads on in a tag and answers its characters, newest first, and the rest. The octets of an
escaped character are escaped one by one: `missing` tells how many are still to come. -/
def tagText (full : Bool) (read : List Char) (missing code : Nat) :
    List Placed → Option (List Char × List Placed)
  | [] => if missing = 0 then some (read, []) else none
  | c :: d :: e :: cs =>
    if c.char = '%' then do
      let octet := 16 * (← hexDigit? d.char) + (← hexDigit? e.char)
      if missing = 0 then
        if octet < 0x80 then tagText full (Char.ofNat octet :: read) 0 0 cs
        else if octet < 0xC0 then none
        else if octet < 0xE0 then tagText full read 1 (octet % 0x20) cs
        else if octet < 0xF0 then tagText full read 2 (octet % 0x10) cs
        else if octet < 0xF8 then tagText full read 3 (octet % 0x08) cs
        else none
      else if octet / 0x40 ≠ 2 then none
      else if missing = 1 then
        tagText full (Char.ofNat (0x40 * code + octet % 0x40) :: read) 0 0 cs
      else tagText full read (missing - 1) (0x40 * code + octet % 0x40) cs
    else if missing ≠ 0 then none
    else if isTagChar full c.char then tagText full (c.char :: read) 0 0 (d :: e :: cs)
    else some (read, c :: d :: e :: cs)
  | c :: cs =>
    if missing ≠ 0 then none
    else if isTagChar full c.char then tagText full (c.char :: read) 0 0 cs
    else some (read, c :: cs)

def tagText? (full : Bool) (cs : List Placed) : Option (String × List Placed) := do
  let (read, rest) ← tagText full [] 0 0 cs
  if read.isEmpty then none else return (String.ofList read.reverse, rest)

/-- A handle: the text between two exclamation marks, of which the first has been read. -/
def handle? (cs : List Placed) : Option (String × List Placed) :=
  match word cs with
  | (name, c :: rest) =>
    if c.char = '!' then some (String.ofList ('!' :: name ++ ['!']), rest) else none
  | (_, []) => none

/-- Reads a tag after its exclamation mark: `!<tag>`, `!handle!rest`, `!rest` or `!`. -/
def tag? (flow : Bool) (cs : List Placed) : Option (Tag × List Placed) := do
  let (tag, rest) ←
    if cs.head?.any (·.char = '<') then do
      let (full, rest) ← tagText? true cs.tail
      if rest.head?.any (·.char = '>') then some (⟨"", full⟩, rest.tail) else none
    else
      match handle? cs with
      | some (handle, rest) =>
        (tagText? false rest).map fun (suffix, rest) => (⟨handle, suffix⟩, rest)
      | none => do
        let (read, rest) ← tagText false [] 0 0 cs
        return (if read.isEmpty then ⟨"", "!"⟩ else ⟨"!", String.ofList read.reverse⟩, rest)
  if wordEnds rest || (flow && rest.head?.any (·.char = ',')) then return (tag, rest) else none

def versionNumber? (cs : List Placed) : Option (Nat × List Placed) :=
  let digits := (cs.takeWhile (·.char.isDigit)).map (·.char)
  if digits.isEmpty || 9 < digits.length then none
  else some (digits.foldl (fun n c => 10 * n + (c.toNat - '0'.toNat)) 0,
    cs.dropWhile (·.char.isDigit))

def directive? (cs : List Placed) : Option (Directive × List Placed) := do
  let (name, rest) := word cs
  let values := rest.dropWhile (isBlank ·.char)
  if !wordEnds rest then none
  else if name = "YAML".toList then
    let (major, rest) ← versionNumber? values
    if !rest.head?.any (·.char = '.') then none
    else
      let (minor, rest) ← versionNumber? rest.tail
      return (.version major minor, ← nextLine? rest)
  else if name = "TAG".toList then
    if !values.head?.any (·.char = '!') then none
    else
      let (handle, rest) := (handle? values.tail).getD ("!", values.tail)
      if !rest.head?.any (isBlank ·.char) then none
      else
        let (expansion, rest) ← tagText? true (rest.dropWhile (isBlank ·.char))
        if wordEnds rest then return (.handle handle expansion, ← nextLine? rest) else none
  else none

end SurveyTables.Yaml
