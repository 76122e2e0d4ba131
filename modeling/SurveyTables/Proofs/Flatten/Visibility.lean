import SurveyTables.Proofs.Flatten.Provenance
import SurveyTables.Proofs.Layout.Kept

/-! What an export shows of a submission. Two submissions that the layout of a form cannot tell
apart have the same row or the same error, whatever else they hold: answers are looked up by the
paths at which tables read, at the root and in every element of a repeat group. -/
namespace SurveyTables

namespace Json

def members? : Json → Option (Keyed Json)
  | .object members => some members
  | _ => none

def isObject (value : Json) : Bool := value.members?.isSome

end Json

/-- What shows of a repeat group before anything inside its elements is read: if it was answered,
the number of its elements and which of them are objects. -/
inductive Outline where
  | unanswered
  | list (objects : List Bool)
  | notAList
deriving DecidableEq

namespace Keyed

def outline (answers : Keyed Json) (path : String) : Outline :=
  match answers.get? path with
  | none | some .null => .unanswered
  | some (.array items) => .list (items.map Json.isObject)
  | some _ => .notAList

def elementAt? (answers : Keyed Json) (path : String) (i : Nat) : Option (Keyed Json) :=
  match answers.get? path with
  | some (.array items) => items[i]?.bind Json.members?
  | _ => none

theorem elementAt?_of_list {answers : Keyed Json} {path : String} {items : List Json}
    (stored : answers.get? path = some (.array items)) (i : Nat) :
    answers.elementAt? path i = items[i]?.bind Json.members? := by
  rw [elementAt?, stored]

theorem depth_lt_of_elementAt? {answers members : Keyed Json} {path : String} {i : Nat}
    (found : answers.elementAt? path i = some members) :
    Json.depthOfMembers members < Json.depthOfMembers answers := by
  unfold elementAt? at found
  split at found
  · next items stored =>
    obtain ⟨item, listed, object⟩ := Option.bind_eq_some_iff.1 found
    cases item <;> cases object
    have inside := Json.depth_le_of_mem_items (List.mem_of_getElem? listed)
    have below := Json.depth_le_of_get? stored
    simp only [Json.depth] at inside below
    omega
  · contradiction

end Keyed

/-- Answers that a table and the tables below it cannot tell apart: equal at the path of every
field, with repeat groups of one outline whose elements are alike in turn. -/
inductive Layout.Alike (layout : Layout) : Table → Keyed Json → Keyed Json → Prop
  | intro {table : Table} {answers other : Keyed Json}
      (fields : ∀ binding ∈ table.bindings, binding.rows? = none →
        answers.get? binding.path = other.get? binding.path)
      (groups : ∀ path place, .rows path place ∈ table.bindings →
        answers.outline path = other.outline path)
      (elements : ∀ path place child, .rows path place ∈ table.bindings →
        layout.table? place = some child → ∀ i members members',
          answers.elementAt? path i = some members → other.elementAt? path i = some members' →
          Alike layout child members members') :
      Alike layout table answers other

/-- Answers that agree about every field of a table, in some sense of the word, and that hold repeat
groups of one outline whose elements agree in turn. -/
inductive Layout.Agree (layout : Layout) (same : Binding → Keyed Json → Keyed Json → Prop) :
    Table → Keyed Json → Keyed Json → Prop
  | intro {table : Table} {answers other : Keyed Json}
      (fields : ∀ binding ∈ table.bindings, binding.rows? = none → same binding answers other)
      (groups : ∀ path place, .rows path place ∈ table.bindings →
        answers.outline path = other.outline path)
      (elements : ∀ path place child, .rows path place ∈ table.bindings →
        layout.table? place = some child → ∀ i members members',
          answers.elementAt? path i = some members → other.elementAt? path i = some members' →
          Agree layout same child members members') :
      Agree layout same table answers other

namespace Layout.Alike

variable {layout : Layout} {table : Table} {answers other : Keyed Json}

theorem agree (alike : layout.Alike table answers other) :
    layout.Agree (fun binding answers other =>
      answers.get? binding.path = other.get? binding.path) table answers other := by
  induction alike with
  | intro fields groups _ ih => exact .intro fields groups ih

/-- Nothing but the values at the paths of its bindings counts for a table. -/
theorem of_get? (same : ∀ binding ∈ table.bindings,
    answers.get? binding.path = other.get? binding.path) : layout.Alike table answers other := by
  induction h : Json.depthOfMembers answers using Nat.strongRecOn generalizing table answers other
  next depth ih =>
  subst h
  refine .intro (fun binding bound _ => same binding bound) ?groups ?elements
  case groups =>
    intro path place bound
    have stored := same _ bound
    simp only [Binding.path] at stored
    rw [Keyed.outline, Keyed.outline, stored]
  case elements =>
    intro path place child bound _ i members members' found found'
    have stored := same _ bound
    simp only [Binding.path] at stored
    have equal : answers.elementAt? path i = other.elementAt? path i := by
      rw [Keyed.elementAt?, Keyed.elementAt?, stored]
    obtain rfl : members = members' := Option.some.inj (found.symm.trans (equal.trans found'))
    exact ih _ (Keyed.depth_lt_of_elementAt? found) (fun _ _ => rfl) rfl

end Layout.Alike

namespace Element

/-- Elements that go to one table and of which, where both are objects, the members are
related. -/
inductive Match (R : Nat → Keyed Json → Keyed Json → Prop) : Element → Element → Prop
  | objects {path : String} {place : Nat} {members members' : Keyed Json}
      (related : R place members members') :
      Match R (.item path place (.object members)) (.item path place (.object members'))
  | others {path : String} {place : Nat} {value value' : Json} (left : value.isObject = false)
      (right : value'.isObject = false) :
      Match R (.item path place value) (.item path place value')
  | notAList (path : String) : Match R (.notAList path) (.notAList path)

theorem forall₂_match_items {R : Nat → Keyed Json → Keyed Json → Prop} {path : String}
    {place : Nat} {items items' : List Json}
    (same : items.map Json.isObject = items'.map Json.isObject)
    (related : ∀ (i : Nat) (members members' : Keyed Json),
      items[i]?.bind Json.members? = some members → items'[i]?.bind Json.members? = some members' →
      R place members members') :
    List.Forall₂ (Match R) (items.map (.item path place)) (items'.map (.item path place)) := by
  induction items generalizing items' with
  | nil =>
    obtain rfl : items' = [] := List.map_eq_nil_iff.1 same.symm
    exact .nil
  | cons item items ih =>
    cases items' with
    | nil => contradiction
    | cons item' items' =>
      obtain ⟨head, tail⟩ := List.cons.inj same
      refine .cons ?_ (ih tail fun i => related (i + 1))
      cases left : item.isObject with
      | false => exact .others left (head.symm.trans left)
      | true =>
        obtain ⟨members, object⟩ := Option.isSome_iff_exists.1 left
        obtain ⟨members', object'⟩ := Option.isSome_iff_exists.1 (head.symm.trans left)
        have here := related 0 members members' object object'
        cases item <;> cases object
        cases item' <;> cases object'
        exact .objects here

end Element

namespace Binding

theorem cells_congr {answers other : Keyed Json} (origin : Origin) {binding : Binding}
    (same : answers.get? binding.path = other.get? binding.path) :
    binding.cells origin answers = binding.cells origin other := by
  cases binding with
  | rows path place => rfl
  | _ =>
    simp only [path] at same
    simp only [cells, same]

/-- What a repeat group holds, by its outline. -/
theorem elements_cases (answers : Keyed Json) (path : String) (place : Nat) :
    (answers.outline path = .unanswered ∧ elements answers (.rows path place) = []) ∨
    (answers.outline path = .notAList ∧
      elements answers (.rows path place) = [.notAList path]) ∨
    ∃ items, answers.get? path = some (.array items) ∧
      answers.outline path = .list (items.map Json.isObject) ∧
      elements answers (.rows path place) = items.map (.item path place) := by
  simp only [Keyed.outline, elements]
  cases answers.get? path with
  | none => exact .inl ⟨rfl, rfl⟩
  | some value =>
    cases value with
    | null => exact .inl ⟨rfl, rfl⟩
    | array items => exact .inr (.inr ⟨items, rfl, rfl, rfl⟩)
    | _ => exact .inr (.inl ⟨rfl, rfl⟩)

theorem forall₂_match_elements {R : Nat → Keyed Json → Keyed Json → Prop}
    {answers other : Keyed Json} {path : String} {place : Nat}
    (same : answers.outline path = other.outline path)
    (related : ∀ i members members', answers.elementAt? path i = some members →
      other.elementAt? path i = some members' → R place members members') :
    List.Forall₂ (Element.Match R) (elements answers (.rows path place))
      (elements other (.rows path place)) := by
  obtain ⟨left, holds⟩ | ⟨left, holds⟩ | ⟨items, stored, left, holds⟩ :=
      elements_cases answers path place <;>
    obtain ⟨right, holds'⟩ | ⟨right, holds'⟩ | ⟨items', stored', right, holds'⟩ :=
      elements_cases other path place <;>
    rw [left, right] at same <;> try contradiction
  all_goals rw [holds, holds']
  case inl.inl => exact .nil
  case inr.inl.inr.inl => exact .cons (.notAList path) .nil
  case inr.inr.inr.inr =>
    refine Element.forall₂_match_items (Outline.list.inj same) fun i members members' => ?_
    rw [← Keyed.elementAt?_of_list stored, ← Keyed.elementAt?_of_list stored']
    exact related i members members'

end Binding

namespace Flatten

variable {origin : Origin}

theorem childRows_of_not_object {parent : ParentLink} {ordinal : Nat} {path : String}
    {place : Nat} {value : Json} (plain : value.isObject = false) (rest : List Element) :
    childRows origin parent ordinal (.item path place value :: rest) =
      .error (.malformedElement origin.instanceId path ordinal) := by
  cases value with
  | object members => contradiction
  | _ => simp only [childRows]

/-- Elements make the same rows when their objects do. -/
theorem childRows_congr {parent : ParentLink} {ordinal : Nat} {elements others : List Element}
    (same : List.Forall₂ (Element.Match fun place members members' =>
      ∀ child, origin.exporter.layout.table? place = some child → ∀ id parent,
        row origin child members id parent = row origin child members' id parent) elements others) :
    childRows origin parent ordinal elements = childRows origin parent ordinal others := by
  induction same generalizing ordinal with
  | nil => rfl
  | cons first _ ih =>
    cases first with
    | @objects path place members members' related =>
      cases found : origin.exporter.layout.table? place with
      | none => simp only [childRows, found, ih]
      | some child => simp only [childRows, found, ih, related child found]
    | others left right => rw [childRows_of_not_object left, childRows_of_not_object right]
    | notAList path => simp only [childRows]

/-- A table makes the same row of answers that agree in what fills its columns. -/
theorem row_congr {same : Binding → Keyed Json → Keyed Json → Prop} {table : Table}
    {answers other : Keyed Json}
    (cells : ∀ binding answers other, same binding answers other →
      binding.cells origin answers = binding.cells origin other)
    (agree : origin.exporter.layout.Agree same table answers other) (id : Nat)
    (parent : Option ParentLink) :
    row origin table answers id parent = row origin table other id parent := by
  induction agree generalizing id parent with
  | @intro table answers other fields groups elements ih =>
    have filled : table.cells origin answers = table.cells origin other := by
      rw [Table.cells, Table.cells]
      refine congrArg Keyed.ofList (List.flatMap_congr fun binding bound => ?_)
      cases rows : binding.rows? with
      | none => exact cells binding answers other (fields binding bound rows)
      | some => cases binding <;> first | rfl | contradiction
    have held : List.Forall₂ (Element.Match fun place members members' =>
        ∀ child, origin.exporter.layout.table? place = some child → ∀ id parent,
          row origin child members id parent = row origin child members' id parent)
        (table.elements answers) (table.elements other) := by
      rw [Table.elements_eq, Table.elements_eq]
      refine Sequence.forall₂_flatMap fun bound member => ?_
      have binding := Table.mem_repeats.1 member
      refine Binding.forall₂_match_elements (groups _ _ binding) ?_
      intro i members members' left right child found
      exact ih _ _ child binding found i members members' left right
    rw [row, row, filled, childRows_congr held]

end Flatten

namespace Exporter

/-- An export shows of a submission its number, its files, and what the form declares. -/
structure Discreet (form : Form) (exporter : Exporter) : Prop where
  /-- two submissions that agree in what is read have one result, be it a row or an error -/
  congr : ∀ first second : Submission,
    first.answers.get? Submission.idKey = second.answers.get? Submission.idKey →
    first.answers.get? Submission.attachmentsKey = second.answers.get? Submission.attachmentsKey →
    exporter.layout.Alike exporter.layout.root first.answers second.answers →
    exporter.flatten first = exporter.flatten second
  /-- only the keys of repeat groups and of fields that a table keeps are read, in the
  submission as in every element -/
  unread : ∀ table ∈ exporter.layout.tables, ∀ answers other : Keyed Json,
    (∀ path, form.Reads table path → answers.get? path = other.get? path) →
    exporter.layout.Alike table answers other
  /-- the order of keys is not read, in the submission as in every element -/
  unordered : ∀ table ∈ exporter.layout.tables, ∀ answers other : Keyed Json,
    answers.keys.Nodup → answers.Perm other → exporter.layout.Alike table answers other

theorem flatten_congr {exporter : Exporter} {same : Binding → Keyed Json → Keyed Json → Prop}
    {first second : Submission} (numbers : first.instanceId? = second.instanceId?)
    (files : first.attachments = second.attachments)
    (cells : ∀ origin binding answers other, same binding answers other →
      binding.cells origin answers = binding.cells origin other)
    (agree : exporter.layout.Agree same exporter.layout.root first.answers second.answers) :
    exporter.flatten first = exporter.flatten second := by
  simp only [flatten, numbers, files]
  split
  · rfl
  · rfl
  · exact Flatten.row_congr (cells _) agree _ _

theorem discreet_ofForm (form : Form) (baseUrl : String) : Discreet form (ofForm form baseUrl) where
  congr first second numbers files alike := by
    have id : first.instanceId? = second.instanceId? := by
      rw [Submission.instanceId?, numbers, Submission.instanceId?]
    have attachments : first.attachments = second.attachments := by
      rw [Submission.attachments, files, Submission.attachments]
    exact flatten_congr id attachments
      (fun origin _ _ _ stored => Binding.cells_congr origin stored) alike.agree
  unread _ member _ _ same :=
    .of_get? fun binding bound =>
      same binding.path ((Layout.reads_iff form member).2 ⟨binding, bound, rfl⟩)
  unordered _ _ _ _ distinct same := .of_get? fun _ _ => Keyed.get?_perm distinct same _

/-- A note, a field that is left out for the name of another, and a repeat group. -/
def visits : Form where
  idString := "visits"
  projectId := 1
  title := "Visits"
  fields := [⟨"hello", .note, [], []⟩, ⟨"head_name", .text, [], []⟩,
    ⟨"head/name", .text, [], []⟩, ⟨"kid", .repeatGroup, [], [⟨"kid/age", .integer, [], []⟩]⟩]

def visitsAnswers : Submission :=
  ⟨[("_id", .ofNat 5), ("hello", .string "seen"), ("head/name", .string "Ann"),
    ("head_name", .string "Bo"),
    ("kid", .array [.object [("kid/age", .string "3"), ("secret", .bool true)]])]⟩

def visitsOtherAnswers : Submission :=
  ⟨[("kid", .array [.object [("note", .null), ("kid/age", .string "3")]]), ("phone", .ofNat 7),
    ("head_name", .string "Bo"), ("_id", .ofNat 5)]⟩

def visitsRow : Row :=
  ⟨"data", 5, none, [("head_name", .text "Bo")], ["kid"],
    [⟨"kid", 22, some ⟨5, "data"⟩, [("age", .int 3)], [], []⟩]⟩

theorem alike_visits : (Layout.infer visits).Alike (Layout.infer visits).root
    visitsAnswers.answers visitsOtherAnswers.answers := by
  have root : (Layout.infer visits).root.bindings =
      [.scalar "head_name" "head_name" .string, .rows "kid" 1] := by decide +kernel
  have kid : ((Layout.infer visits).table? 1).map Table.bindings =
      some [.scalar "kid/age" "age" .int] := by decide +kernel
  refine .intro ?fields ?groups ?elements <;> rw [root]
  case fields =>
    intro binding bound plain
    simp only [List.mem_cons, List.not_mem_nil, or_false] at bound
    rcases bound with rfl | rfl
    · rfl
    · contradiction
  case groups =>
    intro path place bound
    simp only [List.mem_cons, List.not_mem_nil, or_false, reduceCtorEq, false_or] at bound
    cases bound
    rfl
  case elements =>
    intro path place child bound found i members members' left right
    simp only [List.mem_cons, List.not_mem_nil, or_false, reduceCtorEq, false_or] at bound
    cases bound
    rw [found] at kid
    cases i with
    | succ i => contradiction
    | zero =>
      cases left
      cases right
      refine .of_get? fun binding bound => ?_
      rw [Option.some.inj kid, List.mem_singleton] at bound
      rw [bound]
      rfl

theorem discreet_visits :
    visitsAnswers.answers.keys ≠ visitsOtherAnswers.answers.keys ∧
      (ofForm visits "").flatten visitsAnswers = .ok visitsRow ∧
      (ofForm visits "").flatten visitsOtherAnswers = .ok visitsRow := by
  have numbers : visitsAnswers.answers.get? Submission.idKey =
      visitsOtherAnswers.answers.get? Submission.idKey := rfl
  have files : visitsAnswers.answers.get? Submission.attachmentsKey =
      visitsOtherAnswers.answers.get? Submission.attachmentsKey := rfl
  have same := (discreet_ofForm visits "").congr visitsAnswers visitsOtherAnswers numbers files
  rw [layout_ofForm] at same
  have same := same alike_visits
  have made : (ofForm visits "").flatten visitsAnswers = .ok visitsRow := by
    rw [← flattenTo_eq_flatten 2]
    decide +kernel
  exact ⟨by decide, made, same.symm.trans made⟩

end Exporter

end SurveyTables
