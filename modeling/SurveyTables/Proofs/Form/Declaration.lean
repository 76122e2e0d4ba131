import SurveyTables.Proofs.Form.Walk
import SurveyTables.Proofs.Sequence

/-! Where the fields of a form stand. The address of a field is its place among the top-level
fields and then its place in each group around it. In the lexicographic order of addresses a field
comes before what it holds and after what was declared before it; this is the order of the walk. -/
namespace SurveyTables

/-- A field at its address, and the repeat path of the table that it belongs to. -/
structure Declaration where
  inside : Option String
  address : List Nat
  field : Field

/-- What a form declares: its top-level fields, and what groups and repeat groups hold that it
declares. What is below other fields is not declared. -/
inductive Form.Declares (form : Form) : Declaration → Prop
  | top {n : Nat} {field : Field} (listed : form.fields[n]? = some field) :
      Declares form ⟨none, [n], field⟩
  | group {outer : Declaration} {n : Nat} {field : Field} (declared : Declares form outer)
      (kind : outer.field.kind = .group) (listed : outer.field.children[n]? = some field) :
      Declares form ⟨outer.inside, outer.address ++ [n], field⟩
  | repeatGroup {outer : Declaration} {n : Nat} {field : Field} (declared : Declares form outer)
      (kind : outer.field.kind = .repeatGroup)
      (listed : outer.field.children[n]? = some field) :
      Declares form ⟨some outer.field.path, outer.address ++ [n], field⟩

namespace Field

mutual

/-- A field at an address and what it declares, each field before what it holds. -/
def declarations (inside : Option String) (address : List Nat) : Field → List Declaration
  | ⟨path, kind, choices, children⟩ =>
    ⟨inside, address, ⟨path, kind, choices, children⟩⟩ ::
      match kind with
      | .group => listDeclarations inside address 0 children
      | .repeatGroup => listDeclarations (some path) address 0 children
      | _ => []

def listDeclarations (inside : Option String) (above : List Nat) (n : Nat) :
    List Field → List Declaration
  | [] => []
  | field :: fields =>
    declarations inside (above ++ [n]) field ++ listDeclarations inside above (n + 1) fields

end

end Field

def Form.declarations (form : Form) : List Declaration :=
  Field.listDeclarations none [] 0 form.fields

namespace Field

def inner (inside : Option String) (address : List Nat) (field : Field) : List Declaration :=
  match field.kind with
  | .group => listDeclarations inside address 0 field.children
  | .repeatGroup => listDeclarations (some field.path) address 0 field.children
  | _ => []

theorem declarations_eq (inside : Option String) (address : List Nat) (field : Field) :
    declarations inside address field =
      ⟨inside, address, field⟩ :: inner inside address field := by
  obtain ⟨path, kind, choices, children⟩ := field
  cases kind <;> rfl

theorem mem_listDeclarations {inside : Option String} {above : List Nat} {start : Nat}
    {fields : List Field} {declaration : Declaration} :
    declaration ∈ listDeclarations inside above start fields ↔
      ∃ (n : Nat) (field : Field), fields[n]? = some field ∧
        declaration ∈ declarations inside (above ++ [start + n]) field := by
  induction fields generalizing start with
  | nil => simp [listDeclarations]
  | cons first rest ih =>
    rw [listDeclarations, List.mem_append, ih]
    constructor
    · rintro (here | ⟨n, field, listed, later⟩)
      · exact ⟨0, first, rfl, here⟩
      · exact ⟨n + 1, field, listed, by rwa [Nat.add_right_comm, Nat.add_assoc] at later⟩
    · rintro ⟨_ | n, field, listed, member⟩
      · obtain rfl := Option.some.inj listed
        exact .inl member
      · exact .inr ⟨n, field, listed, by rwa [Nat.add_right_comm, Nat.add_assoc]⟩

mutual

theorem declares_of_mem (form : Form) (inside : Option String) (address : List Nat) :
    ∀ field : Field, form.Declares ⟨inside, address, field⟩ →
      ∀ declaration ∈ declarations inside address field, form.Declares declaration
  | ⟨path, kind, choices, children⟩, declared, declaration, member => by
    rw [declarations_eq, List.mem_cons] at member
    rcases member with rfl | member
    · exact declared
    cases kind with
    | group =>
      refine declares_of_mem_list form inside address 0 children ?_ declaration member
      intro n field listed
      rw [Nat.zero_add]
      exact .group declared rfl listed
    | repeatGroup =>
      refine declares_of_mem_list form (some path) address 0 children ?_ declaration member
      intro n field listed
      rw [Nat.zero_add]
      exact .repeatGroup declared rfl listed
    | _ => exact absurd member List.not_mem_nil

theorem declares_of_mem_list (form : Form) (inside : Option String) (above : List Nat)
    (start : Nat) : ∀ fields : List Field,
      (∀ (n : Nat) (field : Field), fields[n]? = some field →
        form.Declares ⟨inside, above ++ [start + n], field⟩) →
      ∀ declaration ∈ listDeclarations inside above start fields, form.Declares declaration
  | [], _, _, member => absurd member List.not_mem_nil
  | field :: fields, declared, declaration, member => by
    rw [listDeclarations, List.mem_append] at member
    rcases member with here | later
    · exact declares_of_mem form inside _ field (declared 0 field rfl) declaration here
    · refine declares_of_mem_list form inside above (start + 1) fields ?_ declaration later
      intro n other listed
      rw [Nat.add_right_comm, Nat.add_assoc]
      exact declared (n + 1) other listed

end

mutual

theorem inner_subset_declarations (inside : Option String) (address : List Nat) :
    ∀ field : Field, ∀ outer ∈ declarations inside address field,
      inner outer.inside outer.address outer.field ⊆ declarations inside address field
  | ⟨path, kind, choices, children⟩, outer, member => by
    rw [declarations_eq, List.mem_cons] at member
    rcases member with rfl | member
    · rw [declarations_eq]
      exact List.subset_cons_self ..
    rw [declarations_eq]
    refine List.subset_cons_of_subset _ ?_
    cases kind with
    | group => exact inner_subset_listDeclarations inside address 0 children outer member
    | repeatGroup => exact inner_subset_listDeclarations (some path) address 0 children outer member
    | _ => exact absurd member List.not_mem_nil

theorem inner_subset_listDeclarations (inside : Option String) (above : List Nat) (start : Nat) :
    ∀ fields : List Field, ∀ outer ∈ listDeclarations inside above start fields,
      inner outer.inside outer.address outer.field ⊆ listDeclarations inside above start fields
  | [], _, member => absurd member List.not_mem_nil
  | field :: fields, outer, member => by
    rw [listDeclarations, List.mem_append] at member
    rw [listDeclarations]
    rcases member with here | later
    · have first := inner_subset_declarations inside (above ++ [start]) field outer here
      exact fun _ below => List.mem_append_left _ (first below)
    · have others := inner_subset_listDeclarations inside above (start + 1) fields outer later
      exact fun _ below => List.mem_append_right _ (others below)

end

/-! ### Order -/

mutual

/-- A field's declaration comes before those of what it holds. -/
theorem pairwise_declarations (inside : Option String) (address : List Nat) :
    ∀ field : Field,
      (declarations inside address field).Pairwise (fun d e => d.address < e.address) ∧
        ∀ declaration ∈ declarations inside address field, address <+: declaration.address
  | ⟨path, kind, choices, children⟩ => by
    have below (within : Option String) :
        (⟨inside, address, ⟨path, kind, choices, children⟩⟩ ::
            listDeclarations within address 0 children).Pairwise
            (fun d e => d.address < e.address) ∧
          ∀ declaration ∈ (⟨inside, address, ⟨path, kind, choices, children⟩⟩ ::
            listDeclarations within address 0 children), address <+: declaration.address := by
      obtain ⟨ordered, placed⟩ := pairwise_listDeclarations within address 0 children
      constructor
      · refine List.pairwise_cons.2 ⟨fun declaration member => ?_, ordered⟩
        obtain ⟨n, rest, -, same⟩ := placed declaration member
        rw [same]
        have behind : address ++ [] < address ++ n :: rest :=
          List.append_left_lt (List.nil_lt_cons n rest)
        rwa [List.append_nil] at behind
      · intro declaration member
        rcases List.mem_cons.1 member with rfl | member
        · exact List.prefix_rfl
        · obtain ⟨n, rest, -, same⟩ := placed declaration member
          exact same ▸ List.prefix_append ..
    cases kind with
    | group => exact below inside
    | repeatGroup => exact below (some path)
    | _ => simp [declarations]

theorem pairwise_listDeclarations (inside : Option String) (above : List Nat) (start : Nat) :
    ∀ fields : List Field,
      (listDeclarations inside above start fields).Pairwise (fun d e => d.address < e.address) ∧
        ∀ declaration ∈ listDeclarations inside above start fields,
          ∃ n rest, start ≤ n ∧ declaration.address = above ++ n :: rest
  | [] => ⟨.nil, fun _ member => absurd member List.not_mem_nil⟩
  | field :: fields => by
    obtain ⟨ordered, under⟩ := pairwise_declarations inside (above ++ [start]) field
    obtain ⟨ordered', placed⟩ := pairwise_listDeclarations inside above (start + 1) fields
    have here : ∀ declaration ∈ declarations inside (above ++ [start]) field,
        ∃ rest, declaration.address = above ++ start :: rest := by
      intro declaration member
      obtain ⟨rest, same⟩ := under declaration member
      exact ⟨rest, by rw [← same, List.append_assoc]; rfl⟩
    rw [listDeclarations]
    constructor
    · refine List.pairwise_append.2 ⟨ordered, ordered', fun d member e later => ?_⟩
      obtain ⟨rest, same⟩ := here d member
      obtain ⟨n, rest', behind, same'⟩ := placed e later
      rw [same, same']
      exact List.append_left_lt (List.cons_lt_cons_iff.2 (.inl behind))
    · intro declaration member
      rcases List.mem_append.1 member with member | later
      · obtain ⟨rest, same⟩ := here declaration member
        exact ⟨start, rest, Nat.le_refl start, same⟩
      · obtain ⟨n, rest, behind, same⟩ := placed declaration later
        exact ⟨n, rest, Nat.le_of_succ_le behind, same⟩

end

end Field

namespace Form

theorem mem_declarations {form : Form} {declaration : Declaration} :
    declaration ∈ form.declarations ↔ form.Declares declaration := by
  constructor
  · refine Field.declares_of_mem_list form none [] 0 form.fields ?_ declaration
    intro n field listed
    rw [Nat.zero_add]
    exact .top listed
  · have inner {outer : Declaration} {within : Option String} {n : Nat} {field : Field}
        (known : outer ∈ form.declarations)
        (holds : Field.inner outer.inside outer.address outer.field =
          Field.listDeclarations within outer.address 0 outer.field.children)
        (listed : outer.field.children[n]? = some field) :
        ⟨within, outer.address ++ [n], field⟩ ∈ form.declarations := by
      refine Field.inner_subset_listDeclarations none [] 0 form.fields outer known ?_
      rw [holds, Field.mem_listDeclarations]
      refine ⟨n, field, listed, ?_⟩
      rw [Nat.zero_add, Field.declarations_eq]
      exact List.mem_cons_self
    intro declared
    induction declared with
    | @top n field listed =>
      refine Field.mem_listDeclarations.2 ⟨n, field, listed, ?_⟩
      rw [Nat.zero_add, Field.declarations_eq]
      exact List.mem_cons_self
    | group _ kind listed known => exact inner known (by rw [Field.inner, kind]) listed
    | repeatGroup _ kind listed known => exact inner known (by rw [Field.inner, kind]) listed

theorem pairwise_declarations (form : Form) :
    form.declarations.Pairwise fun d e => d.address < e.address :=
  (Field.pairwise_listDeclarations none [] 0 form.fields).1

end Form

/-! ### The walk -/

/-- The entry that a declaration has in the walk through a form. -/
def Declaration.met? (declaration : Declaration) : Option Entry :=
  if declaration.field.kind = .note ∨ declaration.field.kind = .group then none
  else some ⟨declaration.inside, { declaration.field with children := [] }⟩

namespace Field

mutual

theorem entries_eq_filterMap (inside : Option String) (address : List Nat) : ∀ field : Field,
    entries inside field = (declarations inside address field).filterMap Declaration.met?
  | ⟨path, kind, choices, children⟩ => by
    cases kind with
    | group => exact listEntries_eq_filterMap inside address 0 children
    | repeatGroup =>
      have below := listEntries_eq_filterMap (some path) address 0 children
      rw [entries_repeatGroup, below]
      rfl
    | _ => rfl

theorem listEntries_eq_filterMap (inside : Option String) (above : List Nat) (start : Nat) :
    ∀ fields : List Field, listEntries inside fields =
      (listDeclarations inside above start fields).filterMap Declaration.met?
  | [] => rfl
  | field :: fields => by
    rw [listEntries, listDeclarations, List.filterMap_append,
      ← entries_eq_filterMap inside _ field, ← listEntries_eq_filterMap inside above _ fields]

end

end Field

theorem Form.entries_eq_filterMap (form : Form) :
    form.entries = form.declarations.filterMap Declaration.met? :=
  Field.listEntries_eq_filterMap none [] 0 form.fields

def FieldKind.hasColumns (kind : FieldKind) : Bool :=
  kind ≠ .note && kind ≠ .group && kind ≠ .repeatGroup

namespace Declaration

theorem of_met?_eq_some {declaration : Declaration} {entry : Entry}
    (has : declaration.met? = some entry) :
    declaration.inside = entry.inside ∧ declaration.field.path = entry.field.path ∧
      declaration.field.kind = entry.field.kind ∧
      declaration.field.choices = entry.field.choices ∧
      (declaration.field.kind ≠ .repeatGroup → declaration.field.kind.hasColumns = true) := by
  unfold met? at has
  split at has
  · contradiction
  · next silent =>
    obtain rfl := Option.some.inj has
    rw [not_or] at silent
    refine ⟨rfl, rfl, rfl, rfl, fun plain => ?_⟩
    simp [FieldKind.hasColumns, silent, plain]

/-- The declarations of a walk's entries, one by one. -/
def Matches (declared : List Declaration) (entries : List Entry) : Prop :=
  List.Forall₂ (fun declaration entry => declaration.met? = some entry) declared entries

theorem Matches.exists_snoc {declared : List Declaration} {before : List Entry} {entry : Entry}
    (matched : Matches declared (before ++ [entry])) :
    ∃ earlier last, declared = earlier ++ [last] ∧ Matches earlier before ∧
      last.met? = some entry := by
  obtain ⟨earlier, rest, rfl, front, back⟩ := Sequence.exists_append_of_forall₂ matched.flip
  obtain ⟨last, rest, holds, none, rfl⟩ := List.forall₂_cons_left_iff.1 back
  obtain rfl := List.forall₂_nil_left_iff.1 none
  exact ⟨earlier, last, rfl, front.flip, holds⟩

theorem Matches.mem_paths {declared : List Declaration} {before : List Entry}
    (matched : Matches declared before) {e : Declaration} (member : e ∈ declared)
    (kind : e.field.kind = .repeatGroup) : e.field.path ∈ Entry.paths before := by
  obtain ⟨entry, met, has⟩ := Sequence.exists_of_mem_left matched member
  obtain ⟨inside, path, kind', -⟩ := of_met?_eq_some has
  refine Entry.mem_paths.2 ⟨entry.inside, List.mem_filterMap.2 ⟨entry, met, ?_⟩⟩
  rw [Entry.repeat?, if_pos (kind' ▸ kind), path]

theorem Matches.exists_of_mem_paths {declared : List Declaration} {before : List Entry}
    (matched : Matches declared before) {path : String} (known : path ∈ Entry.paths before) :
    ∃ e ∈ declared, e.field.kind = .repeatGroup ∧ e.field.path = path := by
  obtain ⟨inside, declares⟩ := Entry.mem_paths.1 known
  obtain ⟨entry, met, -, rfl, kind⟩ := Entry.exists_of_mem_repeats declares
  obtain ⟨e, member, has⟩ := Sequence.exists_of_mem_right matched met
  obtain ⟨-, path, kind', -⟩ := of_met?_eq_some has
  exact ⟨e, member, kind'.trans kind, path⟩

theorem matches_filter (declared : List Declaration) :
    Matches (declared.filter (·.met?.isSome)) (declared.filterMap met?) := by
  induction declared with
  | nil => exact .nil
  | cons first rest ih =>
    cases has : first.met? with
    | none =>
      rw [List.filter_cons_of_neg (by simp [has]), List.filterMap_cons_none has]
      exact ih
    | some entry =>
      rw [List.filter_cons_of_pos (by simp [has]), List.filterMap_cons_some has]
      exact .cons has ih

end Declaration

end SurveyTables
