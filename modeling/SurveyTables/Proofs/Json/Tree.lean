import SurveyTables.Json.Printer
import SurveyTables.Json.Raw

/-! Values as trees: an induction over them, their decidable equality, and the tokens and the tree in
which a value is written. -/
namespace SurveyTables.Json

mutual

/-- What holds of an array whenever it holds of its items, and likewise of an object, holds of
every value. -/
@[elab_as_elim]
theorem induction {P : Json → Prop} (null : P .null) (bool : ∀ b, P (.bool b))
    (number : ∀ n, P (.number n)) (string : ∀ s, P (.string s))
    (array : ∀ items, (∀ item ∈ items, P item) → P (.array items))
    (object : ∀ members, (∀ member ∈ members, P member.2) → P (.object members)) : ∀ j, P j
  | .null => null
  | .bool b => bool b
  | .number n => number n
  | .string s => string s
  | .array items => array items (forall_mem_items null bool number string array object items)
  | .object members =>
    object members (forall_mem_members null bool number string array object members)

theorem forall_mem_items {P : Json → Prop} (null : P .null) (bool : ∀ b, P (.bool b))
    (number : ∀ n, P (.number n)) (string : ∀ s, P (.string s))
    (array : ∀ items, (∀ item ∈ items, P item) → P (.array items))
    (object : ∀ members, (∀ member ∈ members, P member.2) → P (.object members)) :
    ∀ items : List Json, ∀ item ∈ items, P item
  | [], _, member => absurd member List.not_mem_nil
  | first :: rest, item, member => by
    rcases List.mem_cons.1 member with equal | member
    · exact equal ▸ induction null bool number string array object first
    · exact forall_mem_items null bool number string array object rest item member

theorem forall_mem_members {P : Json → Prop} (null : P .null) (bool : ∀ b, P (.bool b))
    (number : ∀ n, P (.number n)) (string : ∀ s, P (.string s))
    (array : ∀ items, (∀ item ∈ items, P item) → P (.array items))
    (object : ∀ members, (∀ member ∈ members, P member.2) → P (.object members)) :
    ∀ members : List (String × Json), ∀ member ∈ members, P member.2
  | [], _, member => absurd member List.not_mem_nil
  | (name, value) :: rest, found, member => by
    rcases List.mem_cons.1 member with equal | member
    · exact equal ▸ induction null bool number string array object value
    · exact forall_mem_members null bool number string array object rest found member

end

mutual

def decEq : (j other : Json) → Decidable (j = other)
  | .null, .null => .isTrue rfl
  | .bool b, .bool b' => decidable_of_iff (b = b') (by simp)
  | .number n, .number n' => decidable_of_iff (n = n') (by simp)
  | .string s, .string s' => decidable_of_iff (s = s') (by simp)
  | .array items, .array items' =>
    have := decEqItems items items'
    decidable_of_iff (items = items') (by simp)
  | .object members, .object members' =>
    have := decEqMembers members members'
    decidable_of_iff (members = members') (by simp)
  | .null, .bool _ | .null, .number _ | .null, .string _ | .null, .array _ | .null, .object _
  | .bool _, .null | .bool _, .number _ | .bool _, .string _ | .bool _, .array _
  | .bool _, .object _ | .number _, .null | .number _, .bool _ | .number _, .string _
  | .number _, .array _ | .number _, .object _ | .string _, .null | .string _, .bool _
  | .string _, .number _ | .string _, .array _ | .string _, .object _ | .array _, .null
  | .array _, .bool _ | .array _, .number _ | .array _, .string _ | .array _, .object _
  | .object _, .null | .object _, .bool _ | .object _, .number _ | .object _, .string _
  | .object _, .array _ => .isFalse nofun

def decEqItems : (items others : List Json) → Decidable (items = others)
  | [], [] => .isTrue rfl
  | item :: items, other :: others =>
    have := decEq item other
    have := decEqItems items others
    decidable_of_iff (item = other ∧ items = others) (by simp)
  | [], _ :: _ | _ :: _, [] => .isFalse nofun

def decEqMembers : (members others : List (String × Json)) → Decidable (members = others)
  | [], [] => .isTrue rfl
  | (name, value) :: members, (name', value') :: others =>
    have := decEq value value'
    have := decEqMembers members others
    decidable_of_iff ((name = name' ∧ value = value') ∧ members = others) (by simp)
  | [], _ :: _ | _ :: _, [] => .isFalse nofun

end

instance : DecidableEq Json := decEq

theorem itemChars_eq (items : List Json) : itemChars items = items.map chars := by
  induction items with
  | nil => rfl
  | cons item items ih => rw [itemChars, ih, List.map_cons]

theorem memberChars_eq (members : List (String × Json)) :
    memberChars members = members.map fun member => quoted member.1 ++ ':' :: chars member.2 := by
  induction members with
  | nil => rfl
  | cons member members ih => rw [memberChars, ih, List.map_cons]

mutual

def tokens : Json → List Token
  | .null => [.null]
  | .bool b => [.bool b]
  | .number n => [.number n]
  | .string s => [.literal (.ofText s)]
  | .array items => .beginArray :: [.comma].intercalate (itemTokens items) ++ [.endArray]
  | .object members => .beginObject :: [.comma].intercalate (memberTokens members) ++ [.endObject]

def itemTokens : List Json → List (List Token)
  | [] => []
  | item :: items => tokens item :: itemTokens items

def memberTokens : List (String × Json) → List (List Token)
  | [] => []
  | (name, value) :: members =>
    (.literal (.ofText name) :: .colon :: tokens value) :: memberTokens members

end

theorem itemTokens_eq (items : List Json) : itemTokens items = items.map tokens := by
  induction items with
  | nil => rfl
  | cons item items ih => rw [itemTokens, ih, List.map_cons]

theorem memberTokens_eq (members : List (String × Json)) :
    memberTokens members =
      members.map fun member => .literal (.ofText member.1) :: .colon :: tokens member.2 := by
  induction members with
  | nil => rfl
  | cons member members ih => rw [memberTokens, ih, List.map_cons]

theorem ofItems_eq (items : List Json) : Raw.ofItems items = items.map Raw.ofJson := by
  induction items with
  | nil => rfl
  | cons item items ih => rw [Raw.ofItems, ih, List.map_cons]

theorem ofMembers_eq (members : List (String × Json)) :
    Raw.ofMembers members = members.map fun member => (.ofText member.1, .ofJson member.2) := by
  induction members with
  | nil => rfl
  | cons member members ih => rw [Raw.ofMembers, ih, List.map_cons]

/-- No object in the value gives a name twice. -/
inductive Distinct : Json → Prop
  | null : Distinct .null
  | bool (b : Bool) : Distinct (.bool b)
  | number (n : Number) : Distinct (.number n)
  | string (s : String) : Distinct (.string s)
  | array {items : List Json} (inside : ∀ item ∈ items, Distinct item) : Distinct (.array items)
  | object {members : List (String × Json)} (names : (members.map Prod.fst).Nodup)
      (inside : ∀ member ∈ members, Distinct member.2) : Distinct (.object members)

end SurveyTables.Json
