import SurveyTables.Text.Hex

/-! Universally unique identifiers. They are read in four spellings, their hexadecimal digits
in either case, and written in one: lower case, in groups of 8, 4, 4, 4 and 12 digits. -/
namespace SurveyTables

/-- A number of 128 bits. -/
structure Uuid where
  value : BitVec 128
deriving DecidableEq, Repr

namespace Uuid

def groupLengths : List Nat := [8, 4, 4, 4, 12]

/-- The digits of a text that has hyphens exactly between the groups. -/
def ungroup? : List Nat → List Char → Option (List Char)
  | [], cs => if cs.isEmpty then some [] else none
  | [last], cs => if cs.length = last then some cs else none
  | length :: lengths, cs =>
    match cs.drop length with
    | '-' :: rest =>
      if (cs.take length).length = length then (ungroup? lengths rest).map (cs.take length ++ ·)
      else none
    | _ => none

/-- The part of a text inside the spelling's dressing: braces or a `urn:uuid:` in front of
the hyphened digits. -/
def undress (cs : List Char) : Option (List Char) :=
  if cs.length = 38 ∧ cs.head? = some '\x7b' ∧ cs.getLast? = some '\x7d' then
    some (cs.drop 1).dropLast
  else if cs.length = 45 ∧ (cs.take 9).map Char.toLower = "urn:uuid:".toList then
    some (cs.drop 9)
  else if cs.length = 36 then some cs
  else none

def digits? (cs : List Char) : Option (List Char) :=
  if cs.length = 32 then some cs else (undress cs).bind (ungroup? groupLengths)

def read? (s : String) : Option Uuid := do
  let n ← Text.readHex? (← digits? s.toList)
  return ⟨BitVec.ofNat 128 n⟩

def group : List Nat → List Char → List (List Char)
  | [], _ => []
  | length :: lengths, cs => cs.take length :: group lengths (cs.drop length)

def text (u : Uuid) : String :=
  String.ofList (['-'].intercalate (group groupLengths (Text.hexNumeral 32 u.value.toNat)))

example : (read? "\x7b67E55044-10b1-426f-9247-bb680e5fe0c8\x7d").map text =
    some "67e55044-10b1-426f-9247-bb680e5fe0c8" := by decide +kernel
example : (read? "URN:UUID:67e55044-10b1-426f-9247-bb680e5fe0c8").isSome := by decide +kernel
example : read? "67e5504410b1426f9247bb680e5fe0c8" =
    read? "67e55044-10b1-426f-9247-bb680e5fe0c8" := by decide +kernel
example : read? "67e55044-10b1-426f-9247bb680e5fe0c8-" = none := by decide +kernel

end Uuid

end SurveyTables
