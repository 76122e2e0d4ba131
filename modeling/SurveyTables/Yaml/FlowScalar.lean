import SurveyTables.Text.Hex
import SurveyTables.Yaml.Source

/-! Scalars that flow over line breaks: plain ones and those in quotation marks. Blanks around
a line break do not count; a single line break stands for a space, and of several the first
is dropped. -/
namespace SurveyTables.Yaml

open SurveyTables.Text (hexDigit?)

/-- What stands between two words of a scalar: the blanks before the first line break, and the
line breaks, both newest first. An escaped gap begins with a line break that does not count. -/
structure Gap where
  escaped : Bool
  blanks : List Char
  breaks : List Char
deriving DecidableEq, Repr

namespace Gap

def empty : Gap := ⟨false, [], []⟩

def isEmpty (gap : Gap) : Bool := gap = empty

def isBroken (gap : Gap) : Bool := gap.escaped || !gap.breaks.isEmpty

def add (gap : Gap) (c : Char) : Gap :=
  if isBreak c then { gap with breaks := c :: gap.breaks }
  else if gap.isBroken then gap
  else { gap with blanks := c :: gap.blanks }

def text (gap : Gap) : List Char :=
  if gap.escaped then gap.breaks
  else if gap.breaks.isEmpty then gap.blanks
  else if gap.breaks = ['\n'] then [' ']
  else if gap.breaks.getLast? = some '\n' then gap.breaks.dropLast
  else gap.breaks

example : (Gap.mk false [] ['\n']).text = [' '] := by decide +kernel
example : (Gap.mk false [] ['\n', '\n']).text = ['\n'] := by decide +kernel
example : (Gap.mk false [] ['\n', '\u2028']).text = ['\n', '\u2028'] := by decide +kernel
example : (Gap.mk true [' '] ['\n']).text = ['\n'] := by decide +kernel

end Gap

def isFlowPunctuation (c : Char) : Bool := ",[]\x7b\x7d".toList.contains c

def endsPlain (flow : Bool) (c : Char) (cs : List Placed) : Bool :=
  (c = ':' && wordEnds cs) || (flow && isFlowPunctuation c)

/-- Reads on in a plain scalar and answers its characters, newest first, the gap after it, and
the rest. In block style each of its lines after the first begins at the margin or later. -/
def plainScalar (flow : Bool) (margin : Nat) (read : List Char) (gap : Gap) :
    List Placed → Option (List Char × Gap × List Placed)
  | [] => some (read, gap, [])
  | c :: cs =>
    if isSpace c.char then
      if gap.isBroken && c.char = '\t' && c.column < margin then none
      else plainScalar flow margin read (gap.add c.char) cs
    else if atMark (c :: cs) || endsPlain flow c.char cs ||
        (!gap.isEmpty && (c.char = '#' || (!flow && c.column < margin))) then
      some (read, gap, c :: cs)
    else if flow && c.char = ':' && cs.head?.any (fun d => isFlowPunctuation d.char || d.char = '?')
    then none
    else plainScalar flow margin (c.char :: (gap.text ++ read)) .empty cs

def escaped? : Char → Option Char
  | '0' => some '\x00'
  | 'a' => some '\x07'
  | 'b' => some '\x08'
  | 't' | '\t' => some '\t'
  | 'n' => some '\n'
  | 'v' => some '\x0b'
  | 'f' => some '\x0c'
  | 'r' => some '\r'
  | 'e' => some '\x1b'
  | ' ' => some ' '
  | '"' => some '"'
  | '/' => some '/'
  | '\\' => some '\\'
  | 'N' => some '\u0085'
  | '_' => some '\u00a0'
  | 'L' => some '\u2028'
  | 'P' => some '\u2029'
  | _ => none

def escapeWidth? : Char → Option Nat
  | 'x' => some 2
  | 'u' => some 4
  | 'U' => some 8
  | _ => none

def charOfCode? (code : Nat) : Option Char :=
  if code < 0xD800 ∨ (0xDFFF < code ∧ code < 0x110000) then some (Char.ofNat code) else none

/-- What is being read inside quotation marks: characters, the letter of an escape, or digits
of an escape that are still missing. -/
inductive Quoting where
  | chars
  | escape
  | digits (missing code : Nat)

/-- Reads on to the closing quotation mark and answers the characters before it, newest first,
and the rest. -/
def doubleQuoted (mode : Quoting) (read : List Char) (gap : Gap) :
    List Placed → Option (List Char × List Placed)
  | [] => none
  | c :: cs =>
    match mode with
    | .chars =>
      if atMark (c :: cs) then none
      else if isSpace c.char then doubleQuoted .chars read (gap.add c.char) cs
      else if c.char = '"' then some (gap.text ++ read, cs)
      else if c.char = '\\' then doubleQuoted .escape (gap.text ++ read) .empty cs
      else doubleQuoted .chars (c.char :: (gap.text ++ read)) .empty cs
    | .escape =>
      if isBreak c.char then doubleQuoted .chars read { Gap.empty with escaped := true } cs
      else
        match escapeWidth? c.char, escaped? c.char with
        | some width, _ => doubleQuoted (.digits width 0) read .empty cs
        | none, some e => doubleQuoted .chars (e :: read) .empty cs
        | none, none => none
    | .digits missing code =>
      match hexDigit? c.char with
      | none => none
      | some digit =>
        if 1 < missing then doubleQuoted (.digits (missing - 1) (16 * code + digit)) read .empty cs
        else
          match charOfCode? (16 * code + digit) with
          | some e => doubleQuoted .chars (e :: read) .empty cs
          | none => none

/-- Reads on to the closing apostrophe and answers the characters before it, newest first, and
the rest. Two apostrophes are one character; `closing` says that one has just been read. -/
def singleQuoted (closing : Bool) (read : List Char) (gap : Gap) :
    List Placed → Option (List Char × List Placed)
  | [] => if closing then some (read, []) else none
  | c :: cs =>
    if closing then
      if c.char = '\'' then singleQuoted false ('\'' :: read) .empty cs
      else some (read, c :: cs)
    else if atMark (c :: cs) then none
    else if isSpace c.char then singleQuoted false read (gap.add c.char) cs
    else if c.char = '\'' then singleQuoted true (gap.text ++ read) .empty cs
    else singleQuoted false (c.char :: (gap.text ++ read)) .empty cs

end SurveyTables.Yaml
