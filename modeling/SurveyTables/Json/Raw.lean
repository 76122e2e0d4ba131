import SurveyTables.Json.Basic
import SurveyTables.Json.Token

/-! JSON text as written: the tree of a text before anything is decided about repeated names
and lone halves of surrogate pairs. `Raw.parse?` accepts exactly one value, of any nesting
depth; `Raw.toJson?` turns a tree into a value if it nests no deeper than allowed. -/
namespace SurveyTables.Json

inductive Raw where
  | null
  | bool (b : Bool)
  | number (n : Number)
  | literal (l : Literal)
  | array (items : List Raw)
  | object (members : List (Literal × Raw))

namespace Raw

/-- An array or object that has begun; its complete parts, the newest first. An object also
holds the name whose value is being read. -/
inductive Enclosing where
  | array (done : List Raw)
  | object (done : List (Literal × Raw)) (name : Literal)

/-- What a parser that has read some tokens waits for, inside what. The innermost enclosing
array or object comes first. -/
inductive Parser where
  | expectValue (outer : List Enclosing)
  | expectItem (outer : List Enclosing)
  | expectFirstName (outer : List Enclosing)
  | expectName (done : List (Literal × Raw)) (outer : List Enclosing)
  | expectColon (done : List (Literal × Raw)) (name : Literal) (outer : List Enclosing)
  | complete (value : Raw) (outer : List Enclosing)

def beginValue (outer : List Enclosing) : Token → Option Parser
  | .null => some (.complete .null outer)
  | .bool b => some (.complete (.bool b) outer)
  | .number n => some (.complete (.number n) outer)
  | .literal l => some (.complete (.literal l) outer)
  | .beginArray => some (.expectItem outer)
  | .beginObject => some (.expectFirstName outer)
  | _ => none

def afterValue (value : Raw) : List Enclosing → Token → Option Parser
  | .array done :: outer, .comma => some (.expectValue (.array (value :: done) :: outer))
  | .array done :: outer, .endArray => some (.complete (.array (value :: done).reverse) outer)
  | .object done name :: outer, .comma => some (.expectName ((name, value) :: done) outer)
  | .object done name :: outer, .endObject =>
    some (.complete (.object ((name, value) :: done).reverse) outer)
  | _, _ => none

def Parser.step : Parser → Token → Option Parser
  | .expectValue outer, token => beginValue outer token
  | .expectItem outer, .endArray => some (.complete (.array []) outer)
  | .expectItem outer, token => beginValue (.array [] :: outer) token
  | .expectFirstName outer, .endObject => some (.complete (.object []) outer)
  | .expectFirstName outer, .literal name => some (.expectColon [] name outer)
  | .expectFirstName _, _ => none
  | .expectName done outer, .literal name => some (.expectColon done name outer)
  | .expectName _ _, _ => none
  | .expectColon done name outer, .colon => some (.expectValue (.object done name :: outer))
  | .expectColon _ _ _, _ => none
  | .complete value outer, token => afterValue value outer token

def parse? (s : String) : Option Raw := do
  let tokens ← Token.scan s.toList
  match ← tokens.foldlM Parser.step (.expectValue []) with
  | .complete value [] => some value
  | _ => none

mutual

/-- The value of a tree that nests at most `room` deep. A name given again keeps its first
place and takes its last value. -/
def toJson? (room : Nat) : Raw → Option Json
  | .null => some .null
  | .bool b => some (.bool b)
  | .number n => some (.number n)
  | .literal l => l.text?.map .string
  | .array items =>
    match room with
    | 0 => none
    | room + 1 => (itemsToJson? room items).map .array
  | .object members =>
    match room with
    | 0 => none
    | room + 1 => (membersToJson? room members).map fun ms => .object (Keyed.ofList ms)

def itemsToJson? (room : Nat) : List Raw → Option (List Json)
  | [] => some []
  | item :: items => do
    let value ← toJson? room item
    return value :: (← itemsToJson? room items)

def membersToJson? (room : Nat) : List (Literal × Raw) → Option (List (String × Json))
  | [] => some []
  | (name, value) :: members => do
    let name ← name.text?
    let value ← toJson? room value
    return (name, value) :: (← membersToJson? room members)

end

mutual

def ofJson : Json → Raw
  | .null => .null
  | .bool b => .bool b
  | .number n => .number n
  | .string s => .literal (.ofText s)
  | .array items => .array (ofItems items)
  | .object members => .object (ofMembers members)

def ofItems : List Json → List Raw
  | [] => []
  | item :: items => ofJson item :: ofItems items

def ofMembers : List (String × Json) → List (Literal × Raw)
  | [] => []
  | (name, value) :: members => (.ofText name, ofJson value) :: ofMembers members

end

end Raw

def nestingLimit : Nat := 127

/-- Reads a text as a value. An object is read as one whatever its keys are: the key that a reader
may reserve for numbers of its own has no meaning here, and texts that use it are left out. -/
def read? (s : String) : Option Json := (Raw.parse? s).bind (Raw.toJson? nestingLimit)

end SurveyTables.Json
