import SurveyTables.Proofs.Json.Scan

/-! The tree and the value of written tokens. A value reads back from its text, whatever it
holds and however deep it nests, if none of its objects gives a name twice. -/
namespace SurveyTables.Json

namespace Raw

open Raw.Parser

def inArray (outer : List Enclosing) : List Raw → Parser
  | [] => .expectItem outer
  | item :: done => .complete item (.array done :: outer)

def inObject (outer : List Enclosing) : List (Literal × Raw) → Parser
  | [] => .expectFirstName outer
  | (name, value) :: done => .complete value (.object done name :: outer)

/-- The tokens make up the tree wherever a value is expected. -/
def Parses (tokens : List Token) (tree : Raw) : Prop :=
  ∀ outer, tokens.foldlM step (.expectValue outer) = some (.complete tree outer)

inductive ParsesMember : List Token → Literal × Raw → Prop
  | mk {tokens : List Token} {name : Literal} {value : Raw} (parses : Parses tokens value) :
      ParsesMember (.literal name :: .colon :: tokens) (name, value)

theorem parses_singleton {token : Token} {tree : Raw}
    (whole : ∀ outer, beginValue outer token = some (.complete tree outer)) :
    Parses [token] tree := by
  intro outer
  simp [step, whole]

theorem Parses.expectItem {tokens : List Token} {tree : Raw} (parses : Parses tokens tree)
    (outer : List Enclosing) :
    tokens.foldlM step (.expectItem outer) = some (inArray outer [tree]) := by
  have begun := parses (.array [] :: outer)
  cases tokens with
  | nil => cases begun
  | cons token tokens =>
    cases token with
    | endArray => cases begun
    | _ => exact begun

theorem Parses.comma {tokens : List Token} {tree : Raw} (parses : Parses tokens tree)
    (outer : List Enclosing) (item : Raw) (done : List Raw) :
    (.comma :: tokens).foldlM step (inArray outer (item :: done)) =
      some (inArray outer (tree :: item :: done)) :=
  parses (.array (item :: done) :: outer)

theorem foldlM_later {parts : List (List Token)} {trees : List Raw}
    (each : List.Forall₂ Parses parts trees) (outer : List Enclosing) (item : Raw)
    (done : List Raw) :
    (parts.flatMap (.comma :: ·)).foldlM step (inArray outer (item :: done)) =
      some (inArray outer (trees.reverse ++ item :: done)) := by
  induction each generalizing item done with
  | nil => rfl
  | cons first each ih =>
    rw [List.flatMap_cons, List.foldlM_append, first.comma]
    simpa using ih _ (item :: done)

theorem foldlM_items {parts : List (List Token)} {trees : List Raw}
    (each : List.Forall₂ Parses parts trees) (outer : List Enclosing) :
    ([.comma].intercalate parts).foldlM step (.expectItem outer) =
      some (inArray outer trees.reverse) := by
  cases each with
  | nil => rfl
  | cons first each =>
    rw [Sequence.intercalate_cons, List.foldlM_append, first.expectItem]
    simpa using foldlM_later each outer _ []

theorem step_endArray (outer : List Enclosing) (done : List Raw) :
    step (inArray outer done) .endArray = some (.complete (.array done.reverse) outer) := by
  cases done <;> rfl

theorem parses_array {parts : List (List Token)} {trees : List Raw}
    (each : List.Forall₂ Parses parts trees) :
    Parses (.beginArray :: [.comma].intercalate parts ++ [.endArray]) (.array trees) := by
  intro outer
  have opens : step (.expectValue outer) .beginArray = some (.expectItem outer) := rfl
  simp [opens, foldlM_items each, step_endArray]

theorem ParsesMember.first {tokens : List Token} {member : Literal × Raw}
    (parses : ParsesMember tokens member) (outer : List Enclosing) :
    tokens.foldlM step (.expectFirstName outer) = some (inObject outer [member]) := by
  cases parses with
  | @mk _ name _ parses => exact parses (.object [] name :: outer)

theorem ParsesMember.comma {tokens : List Token} {member : Literal × Raw}
    (parses : ParsesMember tokens member) (outer : List Enclosing) (last : Literal × Raw)
    (done : List (Literal × Raw)) :
    (.comma :: tokens).foldlM step (inObject outer (last :: done)) =
      some (inObject outer (member :: last :: done)) := by
  cases parses with
  | @mk _ name _ parses => exact parses (.object (last :: done) name :: outer)

theorem foldlM_laterMembers {parts : List (List Token)} {members : List (Literal × Raw)}
    (each : List.Forall₂ ParsesMember parts members) (outer : List Enclosing)
    (last : Literal × Raw) (done : List (Literal × Raw)) :
    (parts.flatMap (.comma :: ·)).foldlM step (inObject outer (last :: done)) =
      some (inObject outer (members.reverse ++ last :: done)) := by
  induction each generalizing last done with
  | nil => rfl
  | cons first each ih =>
    rw [List.flatMap_cons, List.foldlM_append, first.comma]
    simpa using ih _ (last :: done)

theorem foldlM_members {parts : List (List Token)} {members : List (Literal × Raw)}
    (each : List.Forall₂ ParsesMember parts members) (outer : List Enclosing) :
    ([.comma].intercalate parts).foldlM step (.expectFirstName outer) =
      some (inObject outer members.reverse) := by
  cases each with
  | nil => rfl
  | cons first each =>
    rw [Sequence.intercalate_cons, List.foldlM_append, first.first]
    simpa using foldlM_laterMembers each outer _ []

theorem step_endObject (outer : List Enclosing) (done : List (Literal × Raw)) :
    step (inObject outer done) .endObject = some (.complete (.object done.reverse) outer) := by
  cases done <;> rfl

theorem parses_object {parts : List (List Token)} {members : List (Literal × Raw)}
    (each : List.Forall₂ ParsesMember parts members) :
    Parses (.beginObject :: [.comma].intercalate parts ++ [.endObject]) (.object members) := by
  intro outer
  have opens : step (.expectValue outer) .beginObject = some (.expectFirstName outer) := rfl
  simp [opens, foldlM_members each, step_endObject]

end Raw

open Raw in
theorem parses_tokens (j : Json) : Parses j.tokens (.ofJson j) := by
  induction j using induction with
  | null => exact parses_singleton fun _ => rfl
  | bool b => exact parses_singleton fun _ => rfl
  | number n => exact parses_singleton fun _ => rfl
  | string s => exact parses_singleton fun _ => rfl
  | array items ih =>
    rw [tokens, itemTokens_eq, ofJson, ofItems_eq]
    exact parses_array (Sequence.forall₂_map_map ih)
  | object members ih =>
    rw [tokens, memberTokens_eq, ofJson, ofMembers_eq]
    refine parses_object (Sequence.forall₂_map_map ?_)
    exact fun member inside => .mk (ih member inside)

theorem Raw.parse?_of_parses {s : String} {tokens : List Token} {tree : Raw}
    (scanned : Token.scan s.toList = some tokens) (parses : Parses tokens tree) :
    parse? s = some tree := by
  simp [parse?, scanned, parses []]

/-- An array that is not closed after its last item is no value. -/
theorem Raw.parse?_of_unclosed {s : String} {items : List Json}
    (scanned : Token.scan s.toList = some (.beginArray :: [.comma].intercalate (items.map tokens))) :
    parse? s = none := by
  have each : List.Forall₂ Parses (items.map tokens) (items.map ofJson) :=
    Sequence.forall₂_map_map fun item _ => parses_tokens item
  have opens : Parser.step (.expectValue []) .beginArray = some (.expectItem []) := rfl
  simp only [parse?, scanned, List.foldlM_cons, opens, foldlM_items each [], Option.bind_eq_bind,
    Option.bind_some]
  cases (items.map ofJson).reverse <;> rfl

theorem parse?_compact (j : Json) : Raw.parse? j.compact = some (.ofJson j) := by
  refine Raw.parse?_of_parses ?_ (parses_tokens j)
  rw [compact, String.toList_ofList, scan_chars]

theorem Literal.text?_ofText (s : String) : (Literal.ofText s).text? = some s := by
  have scalars (cs : List Char) : Literal.chars? (cs.map .scalar) = some cs := by
    induction cs with
    | nil => rfl
    | cons c cs ih => simp [chars?, ih]
  simp [text?, ofText, scalars]

namespace Raw

theorem itemsToJson?_map {room : Nat} {items : List Json}
    (each : ∀ item ∈ items, toJson? room (.ofJson item) = some item) :
    itemsToJson? room (items.map ofJson) = some items := by
  induction items with
  | nil => rfl
  | cons item items ih =>
    simp only [List.forall_mem_cons] at each
    simp [itemsToJson?, each.1, ih each.2]

theorem membersToJson?_map {room : Nat} {members : List (String × Json)}
    (each : ∀ member ∈ members, toJson? room (.ofJson member.2) = some member.2) :
    membersToJson? room (members.map fun member => (.ofText member.1, .ofJson member.2)) =
      some members := by
  induction members with
  | nil => rfl
  | cons member members ih =>
    simp only [List.forall_mem_cons] at each
    simp [membersToJson?, each.1, ih each.2, Literal.text?_ofText]

end Raw

theorem depth_le_of_mem_members {member : String × Json} {members : List (String × Json)}
    (h : member ∈ members) : member.2.depth ≤ depthOfMembers members := by
  induction members with
  | nil => simp at h
  | cons first rest ih =>
    rw [depthOfMembers]
    rcases List.mem_cons.1 h with rfl | h
    · omega
    · have := ih h; omega

theorem toJson?_ofJson {j : Json} (distinct : j.Distinct) {room : Nat} (deep : j.depth ≤ room) :
    Raw.toJson? room (.ofJson j) = some j := by
  induction distinct generalizing room with
  | null => rfl
  | bool b => rfl
  | number n => rfl
  | string s => simp [Raw.ofJson, Raw.toJson?, Literal.text?_ofText]
  | @array items inside ih =>
    obtain ⟨room, rfl⟩ : ∃ below, room = below + 1 := ⟨room - 1, by rw [depth] at deep; omega⟩
    rw [depth, Nat.add_le_add_iff_right] at deep
    have each : Raw.itemsToJson? room (items.map Raw.ofJson) = some items :=
      Raw.itemsToJson?_map fun item member =>
        ih item member (Nat.le_trans (depth_le_of_mem_items member) deep)
    simp [Raw.ofJson, ofItems_eq, Raw.toJson?, each]
  | @object members names inside ih =>
    obtain ⟨room, rfl⟩ : ∃ below, room = below + 1 := ⟨room - 1, by rw [depth] at deep; omega⟩
    rw [depth, Nat.add_le_add_iff_right] at deep
    have each := Raw.membersToJson?_map fun member inside =>
      ih member inside (Nat.le_trans (depth_le_of_mem_members inside) deep)
    simp [Raw.ofJson, ofMembers_eq, Raw.toJson?, each, Keyed.ofList_of_nodup names]

theorem read?_compact {j : Json} (distinct : j.Distinct) (deep : j.depth ≤ nestingLimit) :
    read? j.compact = some j := by
  rw [read?, parse?_compact]
  exact toJson?_ofJson distinct deep

end SurveyTables.Json
