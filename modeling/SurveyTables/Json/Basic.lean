import SurveyTables.Json.Number
import SurveyTables.Keyed

/-! JSON values. The members of an object stand in order; a value that was read has no name
twice, a value that is only written may. -/
namespace SurveyTables

inductive Json where
  | null
  | bool (b : Bool)
  | number (n : Json.Number)
  | string (s : String)
  | array (items : List Json)
  | object (members : List (String × Json))

namespace Json

def ofInt (n : Int) : Json := .number (.ofInt n)

def ofNat (n : Nat) : Json := .number (.ofNat n)

mutual

def depth : Json → Nat
  | .array items => depthOfItems items + 1
  | .object members => depthOfMembers members + 1
  | _ => 0

def depthOfItems : List Json → Nat
  | [] => 0
  | item :: items => max (depth item) (depthOfItems items)

def depthOfMembers : List (String × Json) → Nat
  | [] => 0
  | (_, value) :: members => max (depth value) (depthOfMembers members)

end

theorem depth_le_of_mem_items {item : Json} {items : List Json} (h : item ∈ items) :
    item.depth ≤ depthOfItems items := by
  induction items with
  | nil => simp at h
  | cons first rest ih =>
    rw [depthOfItems]
    rcases List.mem_cons.1 h with rfl | h
    · omega
    · have := ih h; omega

theorem depth_le_of_get? {members : List (String × Json)} {key : String} {value : Json}
    (h : Keyed.get? members key = some value) : value.depth ≤ depthOfMembers members := by
  induction members with
  | nil => simp at h
  | cons first rest ih =>
    obtain ⟨k, v⟩ := first
    rw [Keyed.get?_cons] at h
    rw [depthOfMembers]
    split at h
    · simp only [Option.some.injEq] at h; subst h; omega
    · have := ih h; omega

end Json

end SurveyTables
