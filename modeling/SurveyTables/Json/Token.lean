import SurveyTables.Json.Number
import SurveyTables.Text.Hex

/-! The tokens of JSON text. `Token.scan` reads a whole text, character by character, and
answers its tokens in order; white space is space, tab, line feed and carriage return. -/
namespace SurveyTables.Json

open SurveyTables.Text

/-- What one character or escape of a string literal stands for: a character, or one half of
a surrogate pair. -/
inductive Piece where
  | scalar (c : Char)
  | half (code : Nat)
deriving DecidableEq, Repr

abbrev Literal := List Piece

namespace Literal

def pair? (lead trail : Nat) : Option Char :=
  if 0xD800 ≤ lead ∧ lead < 0xDC00 ∧ 0xDC00 ≤ trail ∧ trail < 0xE000 then
    some (Char.ofNat (0x10000 + (lead - 0xD800) * 0x400 + (trail - 0xDC00)))
  else none

/-- The characters of a literal in which every half is part of a pair. -/
def chars? : Literal → Option (List Char)
  | [] => some []
  | .scalar c :: rest => (chars? rest).map (c :: ·)
  | .half lead :: .half trail :: rest => do
    let c ← pair? lead trail
    return c :: (← chars? rest)
  | .half _ :: _ => none

def text? (l : Literal) : Option String := l.chars?.map String.ofList

def ofText (s : String) : Literal := s.toList.map Piece.scalar

end Literal

inductive Token where
  | beginArray
  | endArray
  | beginObject
  | endObject
  | colon
  | comma
  | null
  | bool (b : Bool)
  | number (n : Number)
  | literal (l : Literal)
deriving DecidableEq, Repr

/-- What the scanner is inside of. Lists hold the newest character or piece first. -/
inductive Scan where
  | between
  | word (letters : List Char)
  | number (chars : List Char)
  | literal (pieces : List Piece)
  | escape (pieces : List Piece)
  | hex (pieces : List Piece) (missing : Nat) (code : Nat)
deriving DecidableEq, Repr

namespace Scan

def isNumeric (c : Char) : Bool :=
  c.isDigit || c = '-' || c = '+' || c = '.' || c = 'e' || c = 'E'

def isSpace (c : Char) : Bool := c = ' ' || c = '\t' || c = '\n' || c = '\r'

def wordToken? (letters : List Char) : Option Token :=
  if letters = ['n', 'u', 'l', 'l'] then some .null
  else if letters = ['t', 'r', 'u', 'e'] then some (.bool true)
  else if letters = ['f', 'a', 'l', 's', 'e'] then some (.bool false)
  else none

def punctuation? (c : Char) : Option Token :=
  if c = '[' then some .beginArray
  else if c = ']' then some .endArray
  else if c = '\x7b' then some .beginObject
  else if c = '\x7d' then some .endObject
  else if c = ':' then some .colon
  else if c = ',' then some .comma
  else none

def escaped? (c : Char) : Option Char :=
  if c = '"' ∨ c = '\\' ∨ c = '/' then some c
  else if c = 'b' then some '\x08'
  else if c = 'f' then some '\x0c'
  else if c = 'n' then some '\n'
  else if c = 'r' then some '\r'
  else if c = 't' then some '\t'
  else none

def pieceOfUnit (code : Nat) : Piece :=
  if 0xD800 ≤ code ∧ code < 0xE000 then .half code else .scalar (Char.ofNat code)

def start (c : Char) : Option (Scan × List Token) :=
  if isSpace c then some (.between, [])
  else if c = '"' then some (.literal [], [])
  else if c = '-' ∨ c.isDigit then some (.number [c], [])
  else if c.isLower then some (.word [c], [])
  else (punctuation? c).map fun token => (.between, [token])

def finish : Scan → Option (List Token)
  | .between => some []
  | .word letters => (wordToken? letters.reverse).map ([·])
  | .number chars => (Number.read? chars.reverse).map fun n => [.number n]
  | _ => none

/-- Reads one character and answers the tokens that it ends, the newest first. -/
def step (scan : Scan) (c : Char) : Option (Scan × List Token) :=
  match scan with
  | .between => start c
  | .word letters =>
    if c.isLower then some (.word (c :: letters), [])
    else do
      let done ← finish (.word letters)
      let (next, tokens) ← start c
      return (next, tokens ++ done)
  | .number chars =>
    if isNumeric c then some (.number (c :: chars), [])
    else do
      let done ← finish (.number chars)
      let (next, tokens) ← start c
      return (next, tokens ++ done)
  | .literal pieces =>
    if c = '"' then some (.between, [.literal pieces.reverse])
    else if c = '\\' then some (.escape pieces, [])
    else if c.toNat < 0x20 then none
    else some (.literal (.scalar c :: pieces), [])
  | .escape pieces =>
    if c = 'u' then some (.hex pieces 3 0, [])
    else (escaped? c).map fun e => (.literal (.scalar e :: pieces), [])
  | .hex pieces missing code => do
    let code := code * 16 + (← hexDigit? c)
    match missing with
    | 0 => return (.literal (pieceOfUnit code :: pieces), [])
    | missing + 1 => return (.hex pieces missing code, [])

def advance (state : Scan × List Token) (c : Char) : Option (Scan × List Token) :=
  (step state.1 c).map fun (next, tokens) => (next, tokens ++ state.2)

end Scan

def Token.scan (cs : List Char) : Option (List Token) := do
  let (last, tokens) ← cs.foldlM Scan.advance (.between, [])
  return ((← last.finish) ++ tokens).reverse

example : Token.scan "[1, true]".toList =
    some [.beginArray, .number (.ofNat 1), .comma, .bool true, .endArray] := by decide +kernel
example : (Token.scan "\"\\ud83d\\ude00\"".toList) =
    some [.literal [.half 0xD83D, .half 0xDE00]] := by decide +kernel
example : Token.scan "01".toList = none ∧ Token.scan "nul".toList = none := by decide +kernel

end SurveyTables.Json
