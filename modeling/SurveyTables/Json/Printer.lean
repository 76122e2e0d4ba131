import SurveyTables.Json.Basic
import SurveyTables.Text.Hex

/-! Writing JSON values: `compact` without any space, `pretty` with one item or member a
line, two spaces a level. Both write a string's quotation mark, backslash and control
characters as escapes and every other character as it is. -/
namespace SurveyTables.Json

open SurveyTables.Text

def escape (c : Char) : List Char :=
  if c = '"' then ['\\', '"']
  else if c = '\\' then ['\\', '\\']
  else if c = '\x08' then ['\\', 'b']
  else if c = '\x0c' then ['\\', 'f']
  else if c = '\n' then ['\\', 'n']
  else if c = '\r' then ['\\', 'r']
  else if c = '\t' then ['\\', 't']
  else if c.toNat < 0x20 then
    '\\' :: 'u' :: hexNumeral 4 c.toNat
  else [c]

def quoted (s : String) : List Char := '"' :: s.toList.flatMap escape ++ ['"']

mutual

def chars : Json → List Char
  | .null => ['n', 'u', 'l', 'l']
  | .bool true => ['t', 'r', 'u', 'e']
  | .bool false => ['f', 'a', 'l', 's', 'e']
  | .number n => n.chars
  | .string s => quoted s
  | .array items => '[' :: [','].intercalate (itemChars items) ++ [']']
  | .object members => '\x7b' :: [','].intercalate (memberChars members) ++ ['\x7d']

def itemChars : List Json → List (List Char)
  | [] => []
  | item :: items => chars item :: itemChars items

def memberChars : List (String × Json) → List (List Char)
  | [] => []
  | (name, value) :: members => (quoted name ++ ':' :: chars value) :: memberChars members

end

def compact (j : Json) : String := String.ofList j.chars

/-- Lines between an opening and a closing bracket; nothing stands between the brackets of
an empty array or object. -/
def block (opening closing : Char) (indent : Nat) (lines : List (List Char)) : List Char :=
  if lines.isEmpty then [opening, closing]
  else
    let margin := List.replicate (indent + 2) ' '
    opening :: '\n' :: [',', '\n'].intercalate (lines.map (margin ++ ·)) ++
      '\n' :: List.replicate indent ' ' ++ [closing]

mutual

def prettyChars (indent : Nat) : Json → List Char
  | .array items => block '[' ']' indent (prettyItems (indent + 2) items)
  | .object members => block '\x7b' '\x7d' indent (prettyMembers (indent + 2) members)
  | .null => chars .null
  | .bool b => chars (.bool b)
  | .number n => chars (.number n)
  | .string s => chars (.string s)

def prettyItems (indent : Nat) : List Json → List (List Char)
  | [] => []
  | item :: items => prettyChars indent item :: prettyItems indent items

def prettyMembers (indent : Nat) : List (String × Json) → List (List Char)
  | [] => []
  | (name, value) :: members =>
    (quoted name ++ ':' :: ' ' :: prettyChars indent value) :: prettyMembers indent members

end

def pretty (j : Json) : String := String.ofList (prettyChars 0 j)

example : compact (.object [("a\n\x01", .array [.null, .ofInt (-7)])]) =
    "\x7b\"a\\n\\u0001\":[null,-7]\x7d" := by decide +kernel
example : pretty (.array [.array [], .object [("k", .bool true)]]) =
    "[\n  [],\n  \x7b\n    \"k\": true\n  \x7d\n]" := by decide +kernel

end SurveyTables.Json
