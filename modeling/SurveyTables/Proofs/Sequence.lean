import Mathlib.Data.List.Forall2
import Mathlib.Data.List.Nodup

/-! Facts about lists of which layouts and rows make use. -/
namespace SurveyTables.Sequence

theorem nodup_eraseDups {α : Type} [BEq α] [LawfulBEq α] (xs : List α) : xs.eraseDups.Nodup := by
  induction h : xs.length using Nat.strongRecOn generalizing xs with
  | ind n ih =>
    cases xs with
    | nil => simp
    | cons x xs =>
      rw [List.eraseDups_cons, List.nodup_cons]
      constructor
      · simp [List.mem_eraseDups]
      · have shorter := List.length_filter_le (fun y => !y == x) xs
        refine ih _ ?_ _ rfl
        rw [← h, List.length_cons]
        omega

theorem eraseDups_snoc_of_mem {α : Type} [BEq α] [LawfulBEq α] {xs : List α} {x : α}
    (known : x ∈ xs) : (xs ++ [x]).eraseDups = xs.eraseDups := by
  simp [List.eraseDups_append, List.removeAll, known]

theorem eraseDups_snoc_of_not_mem {α : Type} [BEq α] [LawfulBEq α] {xs : List α} {x : α}
    (unknown : x ∉ xs) : (xs ++ [x]).eraseDups = xs.eraseDups ++ [x] := by
  simp [List.eraseDups_append, List.removeAll, unknown, List.eraseDups_cons]

theorem eraseDups_of_nodup {α : Type} [BEq α] [LawfulBEq α] {xs : List α} (distinct : xs.Nodup) :
    xs.eraseDups = xs := by
  induction xs with
  | nil => rfl
  | cons x xs ih =>
    obtain ⟨new, distinct⟩ := List.nodup_cons.1 distinct
    have others : xs.filter (fun y => !y == x) = xs := by
      rw [List.filter_eq_self]
      intro y member
      have different : y ≠ x := fun same => new (same ▸ member)
      simpa using different
    rw [List.eraseDups_cons, others, ih distinct]

theorem exists_of_mem_right {α β : Type} {R : α → β → Prop} {xs : List α} {ys : List β}
    (related : List.Forall₂ R xs ys) {y : β} (member : y ∈ ys) : ∃ x ∈ xs, R x y := by
  induction related with
  | nil => simp at member
  | cons first _ ih =>
    rcases List.mem_cons.1 member with rfl | member
    · exact ⟨_, List.mem_cons_self, first⟩
    · obtain ⟨x, listed, holds⟩ := ih member
      exact ⟨x, List.mem_cons_of_mem _ listed, holds⟩

theorem exists_of_mem_left {α β : Type} {R : α → β → Prop} {xs : List α} {ys : List β}
    (related : List.Forall₂ R xs ys) {x : α} (member : x ∈ xs) : ∃ y ∈ ys, R x y :=
  exists_of_mem_right (R := flip R) related.flip member

theorem exists_getElem?_of_forall₂ {α β : Type} {R : α → β → Prop} {xs : List α} {ys : List β}
    (related : List.Forall₂ R xs ys) {i : Nat} {x : α} (found : xs[i]? = some x) :
    ∃ y, ys[i]? = some y ∧ R x y := by
  obtain ⟨inside, rfl⟩ := List.getElem?_eq_some_iff.1 found
  have inside' : i < ys.length := related.length_eq ▸ inside
  exact ⟨ys[i], List.getElem?_eq_getElem inside', related.get inside inside'⟩

theorem forall₂_map_map {α β γ : Type} {R : β → γ → Prop} {xs : List α} {f : α → β} {g : α → γ}
    (each : ∀ x ∈ xs, R (f x) (g x)) : List.Forall₂ R (xs.map f) (xs.map g) := by
  rw [List.forall₂_map_left_iff, List.forall₂_map_right_iff, List.forall₂_same]
  exact each

theorem map_eq_of_forall₂ {α β γ : Type} {R : α → β → Prop} {xs : List α} {ys : List β}
    {f : α → γ} {g : β → γ} (related : List.Forall₂ R xs ys) (same : ∀ x y, R x y → f x = g y) :
    xs.map f = ys.map g := by
  induction related with
  | nil => rfl
  | cons first _ ih => rw [List.map_cons, List.map_cons, same _ _ first, ih]

theorem forall₂_flatMap {α β γ : Type} {R : β → γ → Prop} {xs : List α} {f : α → List β}
    {g : α → List γ} (each : ∀ x ∈ xs, List.Forall₂ R (f x) (g x)) :
    List.Forall₂ R (xs.flatMap f) (xs.flatMap g) := by
  induction xs with
  | nil => exact .nil
  | cons x xs ih =>
    rw [List.flatMap_cons, List.flatMap_cons]
    have later := ih fun y member => each y (List.mem_cons_of_mem _ member)
    exact List.rel_append (each x List.mem_cons_self) later

/-- One copy for each time that a value stands in a list. -/
theorem flatMap_if_eq {α β : Type} [BEq α] [LawfulBEq α] [DecidableEq α] (xs : List α) (a : α)
    (ys : List β) :
    (xs.flatMap fun x => if x = a then ys else []) = (List.replicate (xs.count a) ys).flatten := by
  induction xs with
  | nil => rfl
  | cons x xs ih =>
    rw [List.flatMap_cons, ih]
    by_cases same : x = a
    · rw [if_pos same, same, List.count_cons_self, List.replicate_succ, List.flatten_cons]
    · rw [if_neg same, List.count_cons_of_ne same, List.nil_append]

/-- Copies of a list are related to what the list is related to only if there is one, or nothing
to copy. -/
theorem forall₂_iff_of_replicate {α β : Type} {R : α → β → Prop} {count : Nat} {xs : List α}
    {ys : List β} (copies : List.Forall₂ R (List.replicate count xs).flatten ys) :
    List.Forall₂ R xs ys ↔ count = 1 ∨ xs = [] := by
  constructor
  · intro once
    have length := once.length_eq.trans copies.length_eq.symm
    rw [List.length_flatten, List.map_replicate, List.sum_replicate_nat] at length
    cases xs with
    | nil => exact .inr rfl
    | cons x xs =>
      refine .inl (Nat.eq_of_mul_eq_mul_right (Nat.succ_pos xs.length) ?_)
      rw [Nat.one_mul]
      exact length.symm
  · rintro (single | rfl)
    · rw [single] at copies
      simpa using copies
    · simpa using copies

/-- A part of a list without repetitions is what a test finds, if the test finds its members. -/
theorem filter_eq_of_sublist {α : Type} {xs ys : List α} {p : α → Bool} (part : xs.Sublist ys)
    (distinct : ys.Nodup) (found : ∀ y ∈ ys, p y = true ↔ y ∈ xs) : ys.filter p = xs := by
  have same : (ys.filter p).Perm xs := by
    rw [List.perm_ext_iff_of_nodup (distinct.filter p) (distinct.sublist part)]
    intro y
    rw [List.mem_filter]
    constructor
    · rintro ⟨member, holds⟩
      exact (found y member).1 holds
    · exact fun member => ⟨part.subset member, (found y (part.subset member)).2 member⟩
  have inside : xs.Sublist (ys.filter p) := by
    have kept : xs.filter p = xs :=
      List.filter_eq_self.2 fun x member => (found x (part.subset member)).2 member
    rw [← kept]
    exact part.filter p
  exact (inside.eq_of_length same.length_eq.symm).symm

/-- Labels under which nothing stands can be left out. -/
theorem flatMap_eq_of_sublist {α β : Type} {part all : List α} {f : α → List β}
    (inside : part.Sublist all) (distinct : all.Nodup)
    (empty : ∀ a ∈ all, a ∉ part → f a = []) : all.flatMap f = part.flatMap f := by
  induction inside with
  | slnil => rfl
  | @cons part all a inside ih =>
    obtain ⟨new, distinct⟩ := List.nodup_cons.1 distinct
    have missing : a ∉ part := fun member => new (inside.subset member)
    rw [List.flatMap_cons, empty a List.mem_cons_self missing, List.nil_append]
    exact ih distinct fun b member => empty b (List.mem_cons_of_mem _ member)
  | @cons_cons part all a inside ih =>
    obtain ⟨new, distinct⟩ := List.nodup_cons.1 distinct
    rw [List.flatMap_cons, List.flatMap_cons, ih distinct]
    intro b member missing
    refine empty b (List.mem_cons_of_mem _ member) ?_
    rw [List.mem_cons, not_or]
    exact ⟨fun same => new (same ▸ member), missing⟩

theorem exists_append_of_forall₂ {α β : Type} {R : α → β → Prop} {first later : List α}
    {ys : List β} (related : List.Forall₂ R (first ++ later) ys) :
    ∃ front back, ys = front ++ back ∧ List.Forall₂ R first front ∧ List.Forall₂ R later back := by
  have front := List.forall₂_take first.length related
  have back := List.forall₂_drop first.length related
  rw [List.take_left] at front
  rw [List.drop_left] at back
  exact ⟨_, _, (List.take_append_drop first.length ys).symm, front, back⟩

/-- A list whose parts carry different labels is put together again by collecting the members of
each label in turn. -/
theorem flatMap_filter_of_forall₂ {ι α β γ : Type} [DecidableEq γ] {R : α → β → Prop}
    {parts : List ι} {f : ι → List α} {label : ι → γ} (key : β → γ) {ys : List β}
    (distinct : (parts.map label).Nodup) (related : List.Forall₂ R (parts.flatMap f) ys)
    (keyed : ∀ i ∈ parts, ∀ a ∈ f i, ∀ y, R a y → key y = label i) :
    (parts.map label).flatMap (fun l => ys.filter (key · = l)) = ys := by
  induction parts generalizing ys with
  | nil =>
    cases related
    rfl
  | cons i parts ih =>
    rw [List.map_cons, List.nodup_cons] at distinct
    rw [List.flatMap_cons] at related
    obtain ⟨front, back, rfl, first, later⟩ := exists_append_of_forall₂ related
    have inFront : ∀ y ∈ front, key y = label i := by
      intro y member
      obtain ⟨a, listed, holds⟩ := exists_of_mem_right first member
      exact keyed i List.mem_cons_self a listed y holds
    have inBack : ∀ y ∈ back, key y ≠ label i := by
      intro y member same
      obtain ⟨a, listed, holds⟩ := exists_of_mem_right later member
      obtain ⟨j, part, listed⟩ := List.mem_flatMap.1 listed
      rw [keyed j (List.mem_cons_of_mem _ part) a listed y holds] at same
      exact distinct.1 (same ▸ List.mem_map_of_mem part)
    have here : (front ++ back).filter (key · = label i) = front := by
      rw [List.filter_append, List.filter_eq_self.2 (by simpa using inFront),
        List.filter_eq_nil_iff.2 (by simpa using inBack), List.append_nil]
    have rest : ∀ l ∈ parts.map label,
        (front ++ back).filter (key · = l) = back.filter (key · = l) := by
      intro l listed
      have none : front.filter (key · = l) = [] := by
        rw [List.filter_eq_nil_iff]
        intro y member same
        rw [decide_eq_true_eq, inFront y member] at same
        exact distinct.1 (same ▸ listed)
      rw [List.filter_append, none, List.nil_append]
    rw [List.map_cons, List.flatMap_cons, here, List.flatMap_congr rest,
      ih distinct.2 later fun j part => keyed j (List.mem_cons_of_mem _ part)]

/-- Collecting the members of each label in turn keeps every member once. -/
theorem flatMap_filter_perm {α γ : Type} [DecidableEq γ] {labels : List γ} {xs : List α}
    {key : α → γ} (distinct : labels.Nodup) (covered : ∀ x ∈ xs, key x ∈ labels) :
    (labels.flatMap fun label => xs.filter (key · = label)).Perm xs := by
  induction labels generalizing xs with
  | nil =>
    have none : xs = [] := List.eq_nil_iff_forall_not_mem.2 fun x member => by
      simpa using covered x member
    simp [none]
  | cons label labels ih =>
    obtain ⟨new, distinct⟩ := List.nodup_cons.1 distinct
    let others := xs.filter (fun x => !decide (key x = label))
    have kept : ∀ other ∈ labels,
        others.filter (key · = other) = xs.filter (key · = other) := by
      intro other member
      have different : other ≠ label := fun same => new (same ▸ member)
      rw [List.filter_filter]
      refine List.filter_congr fun x _ => ?_
      by_cases same : key x = other
      · simp [same, different]
      · simp [same]
    have later : (labels.flatMap fun other => xs.filter (key · = other)).Perm others := by
      rw [← List.flatMap_congr kept]
      refine ih distinct fun x member => ?_
      obtain ⟨listed, different⟩ := List.mem_filter.1 member
      rcases List.mem_cons.1 (covered x listed) with same | inside
      · simp [same] at different
      · exact inside
    rw [List.flatMap_cons]
    exact (later.append_left _).trans (List.filter_append_perm _ xs)

/-- What stands at a place of a list that was put together stands in one of the parts. -/
theorem exists_of_flatMap_eq_append_cons {α β : Type} {f : α → List β} {xs : List α}
    {front back : List β} {y : β} (split : xs.flatMap f = front ++ y :: back) :
    ∃ before x after first last, xs = before ++ x :: after ∧ f x = first ++ y :: last ∧
      front = before.flatMap f ++ first := by
  induction xs generalizing front with
  | nil => simp at split
  | cons x xs ih =>
    rw [List.flatMap_cons] at split
    rcases List.append_eq_append_iff.1 split with ⟨rest, rfl, later⟩ | ⟨rest, here, later⟩
    · obtain ⟨before, x', after, first, last, rfl, inside, rfl⟩ := ih later
      exact ⟨x :: before, x', after, first, last, rfl, inside, by simp⟩
    · cases rest with
      | nil =>
        have there : xs.flatMap f = [] ++ y :: back := later.symm
        obtain ⟨before, x', after, first, last, rfl, inside, empty⟩ := ih there
        refine ⟨x :: before, x', after, first, last, rfl, inside, ?_⟩
        rw [List.flatMap_cons, List.append_assoc, ← empty, here, List.append_nil, List.append_nil]
      | cons z rest =>
        obtain ⟨rfl, -⟩ := List.cons.inj later
        exact ⟨[], x, xs, front, rest, rfl, here, rfl⟩

theorem intercalate_cons {α : Type} (separator : α) (first : List α) (later : List (List α)) :
    [separator].intercalate (first :: later) = first ++ later.flatMap (separator :: ·) := by
  induction later generalizing first with
  | nil => simp [List.intercalate]
  | cons second later ih =>
    rw [List.intercalate_cons_cons, ih]
    simp

theorem mapM_eq_some_iff {α β : Type} {f : α → Option β} {xs : List α} {ys : List β} :
    xs.mapM f = some ys ↔ List.Forall₂ (fun x y => f x = some y) xs ys := by
  induction xs generalizing ys with
  | nil => simp [eq_comm]
  | cons x xs ih =>
    simp only [List.mapM_cons, Option.bind_eq_bind, Option.bind_eq_some_iff, ih,
      List.forall₂_cons_left_iff, Option.pure_def, Option.some.injEq]
    constructor
    · rintro ⟨y, first, later, rest, rfl⟩
      exact ⟨y, later, first, rest, rfl⟩
    · rintro ⟨y, later, first, rest, rfl⟩
      exact ⟨y, first, later, rest, rfl⟩

end SurveyTables.Sequence
