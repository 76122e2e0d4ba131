/-! The characters of YAML text, each with its place. Line breaks are made equal here: a line
feed, a carriage return, both in a row and the next-line control all become a line feed.
Separators of lines and of paragraphs break lines too, and stay what they are. -/
namespace SurveyTables.Yaml

def isBlank (c : Char) : Bool := c = ' ' || c = '\t'

def isBreak (c : Char) : Bool := c = '\n' || c = '\u2028' || c = '\u2029'

def isSpace (c : Char) : Bool := isBlank c || isBreak c

/-- The characters that YAML text may consist of: no control characters other than tabs and
line breaks, and none of the last two of the basic plane. -/
def isAllowed (c : Char) : Bool :=
  c = '\t' || c = '\n' || c = '\r' || (' ' ≤ c && c ≤ '~') || c = '\u0085' ||
    ('\u00a0' ≤ c && c ≤ '\ufffd') || 0xFFFF < c.toNat

/-- A character with the number of its line and of its column, both from nought. -/
structure Placed where
  char : Char
  line : Nat
  column : Nat
deriving DecidableEq, Repr

namespace Placed

/-- Places characters from a line and column on; those before them are given newest first. -/
def ofChars (line column : Nat) (before : List Placed) : List Char → List Placed
  | [] => before.reverse
  | '\r' :: '\n' :: cs => ofChars (line + 1) 0 (⟨'\n', line, column⟩ :: before) cs
  | c :: cs =>
    let read := if c = '\r' || c = '\u0085' then '\n' else c
    if isBreak read then ofChars (line + 1) 0 (⟨read, line, column⟩ :: before) cs
    else ofChars line (column + 1) (⟨read, line, column⟩ :: before) cs

def ofText? (s : String) : Option (List Placed) :=
  if s.toList.all isAllowed then some (ofChars 0 0 [] s.toList) else none

end Placed

def wordEnds : List Placed → Bool
  | [] => true
  | c :: _ => isSpace c.char

def isMarkOf (mark : Char) : List Placed → Bool
  | a :: b :: c :: cs =>
    a.column = 0 && a.char = mark && b.char = mark && c.char = mark && wordEnds cs
  | _ => false

def atMark (cs : List Placed) : Bool := isMarkOf '-' cs || isMarkOf '.' cs

def word (cs : List Placed) : List Char × List Placed :=
  let isLetter (c : Placed) : Bool := c.char.isAlphanum || c.char = '-' || c.char = '_'
  ((cs.takeWhile isLetter).map (·.char), cs.dropWhile isLetter)

/-- What follows the line, of which only blanks and a comment may be left. -/
def nextLine? (cs : List Placed) : Option (List Placed) :=
  let cs := cs.dropWhile (isBlank ·.char)
  let cs := if cs.head?.any (·.char = '#') then cs.dropWhile (!isBreak ·.char) else cs
  match cs with
  | [] => some []
  | c :: cs => if isBreak c.char then some cs else none

example : (Placed.ofText? "a\r\nb\u0085").map (·.map fun c => (c.char, c.line, c.column)) =
    some [('a', 0, 0), ('\n', 0, 1), ('b', 1, 0), ('\n', 1, 1)] := by decide +kernel

end SurveyTables.Yaml
