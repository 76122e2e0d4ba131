import SurveyTables.Keyed

/-! YAML values as configuration files use them, and the reading of records from them. What a
scalar means is up to the reader. -/
namespace SurveyTables

namespace Yaml

inductive ScalarStyle where
  | plain
  | quoted
  | literal
  | folded
deriving DecidableEq, Repr

structure Scalar where
  text : String
  style : ScalarStyle
  /-- The tag in full, if there is one. -/
  tag : Option String
deriving DecidableEq, Repr

end Yaml

inductive Yaml where
  | scalar (s : Yaml.Scalar)
  | sequence (items : List Yaml)
  | mapping (entries : List (Yaml × Yaml))
  /-- A collection inside of itself, as an alias can put it there. -/
  | cycle

namespace Yaml

def absent : Yaml := scalar ⟨"", .plain, none⟩

def isAbsent : Yaml → Bool
  | scalar s => s.text = "" && s.style = .plain
  | _ => false

def text? : Yaml → Option String
  | scalar s => some s.text
  | _ => none

def boolTag : String := "tag:yaml.org,2002:bool"

/-- A truth value is a plain scalar, or a literal one with the tag of truth values. -/
def bool? : Yaml → Option Bool
  | scalar s =>
    if s.style = .plain || (s.style = .literal && s.tag = some boolTag) then
      if s.text ∈ ["true", "True", "TRUE"] then some true
      else if s.text ∈ ["false", "False", "FALSE"] then some false
      else none
    else none
  | _ => none

/-- The items of a sequence; nothing at all counts as a sequence without items. -/
def items? : Yaml → Option (List Yaml)
  | sequence items => some items
  | value => if value.isAbsent then some [] else none

/-- The entries with known names; none if a known name comes twice or a key is no scalar. -/
def knownEntries (names : List String) : List (Yaml × Yaml) → Option (Keyed Yaml)
  | [] => some []
  | (key, value) :: entries => do
    let name ← key.text?
    let later ← knownEntries names entries
    if name ∈ names then
      if (later.get? name).isSome then none else return (name, value) :: later
    else return later

/-- The fields of a record by name; nothing at all counts as a record without fields. -/
def fields? (names : List String) : Yaml → Option (Keyed Yaml)
  | mapping entries => knownEntries names entries
  | value => if value.isAbsent then some [] else none

def required {α : Type} (name : String) (read : Yaml → Option α) (found : Keyed Yaml) : Option α :=
  (found.get? name).bind read

def optional {α : Type} (name : String) (standard : α) (read : Yaml → Option α)
    (found : Keyed Yaml) : Option α :=
  match found.get? name with
  | some value => read value
  | none => some standard

end Yaml

end SurveyTables
