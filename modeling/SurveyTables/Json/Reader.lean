import SurveyTables.Json.Raw

/-! Reading records from JSON text. A record is an object whose members are looked up by
name, or an array of its fields in their order. Members that the record does not know may
hold anything. -/
namespace SurveyTables.Json

/-- A way to read a tree that may nest as deep as the first argument says. -/
abbrev Reader (α : Type) := Nat → Raw → Option α

namespace Reader

variable {α : Type}

def string : Reader String
  | _, .literal l => l.text?
  | _, _ => none

def bool : Reader Bool
  | _, .bool b => some b
  | _, _ => none

/-- An integer of 64 bits, spelled without a point, an exponent and a sign before nought. -/
def int64 : Reader Int
  | _, .number n => if n.negative && n.whole = 0 then none else n.int64?
  | _, _ => none

def nullable (read : Reader α) : Reader (Option α)
  | _, .null => some none
  | room, raw => (read room raw).map some

def list (read : Reader α) : Reader (List α)
  | room + 1, .array items => items.mapM (read room)
  | _, _ => none

/-- A choice among names, written as the name or as an object whose only member has that
name and the value null. -/
def named (ofName? : String → Option α) : Reader α
  | _, .literal l => l.text?.bind ofName?
  | _ + 1, .object [(l, .null)] => l.text?.bind ofName?
  | _, _ => none

/-- The members with known names; none if a name does not read or a known one comes twice. -/
def knownMembers (names : List String) : List (Literal × Raw) → Option (Keyed Raw)
  | [] => some []
  | (name, raw) :: members => do
    let name ← name.text?
    let later ← knownMembers names members
    if name ∈ names then
      if (later.get? name).isSome then none else return (name, raw) :: later
    else return later

/-- The fields of a record by name. An array may leave out fields at its end. -/
def fields (names : List String) : Raw → Option (Keyed Raw)
  | .object members => knownMembers names members
  | .array items => if items.length ≤ names.length then some (names.zip items) else none
  | _ => none

def record (names : List String) (build : Nat → Keyed Raw → Option α) : Reader α
  | 0, _ => none
  | room + 1, raw => (fields names raw).bind (build room)

def required (name : String) (read : Reader α) (room : Nat) (found : Keyed Raw) : Option α :=
  (found.get? name).bind (read room)

def optional (name : String) (absent : α) (read : Reader α) (room : Nat) (found : Keyed Raw) :
    Option α :=
  match found.get? name with
  | some raw => read room raw
  | none => some absent

def text? (read : Reader α) (s : String) : Option α := (Raw.parse? s).bind (read nestingLimit)

end Reader

end SurveyTables.Json
