import Mathlib.Data.List.Induction
import SurveyTables.RowId

/-! Pairing tells rows apart. A pair of a row's number and an ordinal can be read back from
its number, and so can a whole descent: rows reached by as many steps have the same number
only if the descents begin at the same number and take the same ordinals. -/
namespace SurveyTables.RowId

/-- The place of a diagonal: how many pairs have a smaller sum. -/
def triangle (n : Nat) : Nat := n * (n + 1) / 2

theorem triangle_succ (n : Nat) : triangle (n + 1) = triangle n + (n + 1) := by
  have product : (n + 1) * (n + 1 + 1) = n * (n + 1) + (n + 1) * 2 := by
    rw [Nat.mul_comm n, ← Nat.mul_add]
  rw [triangle, triangle, product, Nat.add_mul_div_right _ _ (by decide)]

/-- Of two neighbours one is even, so nothing is left over in halving. -/
theorem two_mul_triangle (n : Nat) : 2 * triangle n = n * (n + 1) := by
  induction n with
  | zero => rfl
  | succ n ih => rw [triangle_succ, Nat.mul_add, ih, ← Nat.add_mul, Nat.mul_comm]

theorem triangle_mono {m n : Nat} (h : m ≤ n) : triangle m ≤ triangle n :=
  Nat.div_le_div_right (Nat.mul_le_mul h (Nat.add_le_add_right h 1))

theorem le_triangle (n : Nat) : n ≤ triangle n := by
  cases n with
  | zero => exact Nat.zero_le _
  | succ n => rw [triangle_succ]; exact Nat.le_add_left _ _

theorem pair_eq (parent ordinal : Nat) :
    pair parent ordinal = triangle (parent + ordinal) + ordinal := rfl

/-- A number lies on the diagonal of its own sum, before the next one begins. -/
theorem pair_lt_triangle_succ (parent ordinal : Nat) :
    pair parent ordinal < triangle (parent + ordinal + 1) := by
  rw [pair_eq, triangle_succ]
  omega

theorem lt_pair {parent ordinal : Nat} (positive : 1 ≤ ordinal) : parent < pair parent ordinal := by
  have := le_triangle (parent + ordinal)
  rw [pair_eq]
  omega

theorem add_le_of_pair_le {a b c d : Nat} (h : pair a b ≤ pair c d) : a + b ≤ c + d := by
  rcases Nat.lt_or_ge (c + d) (a + b) with larger | le
  · have next : triangle (c + d + 1) ≤ triangle (a + b) := triangle_mono larger
    have below := pair_lt_triangle_succ c d
    rw [pair_eq a b] at h
    omega
  · exact le

theorem pair_injective {a b c d : Nat} (h : pair a b = pair c d) : a = c ∧ b = d := by
  have sum : a + b = c + d :=
    Nat.le_antisymm (add_le_of_pair_le (Nat.le_of_eq h)) (add_le_of_pair_le (Nat.le_of_eq h.symm))
  rw [pair_eq, pair_eq, sum] at h
  omega

def reach (id : Nat) (ordinals : List Nat) : Nat := ordinals.foldl pair id

theorem reach_cons (id ordinal : Nat) (ordinals : List Nat) :
    reach id (ordinal :: ordinals) = reach (pair id ordinal) ordinals := rfl

/-- Descents of one length are told apart by where they end. -/
theorem reach_injective {a b : Nat} {ks ls : List Nat} (steps : ks.length = ls.length)
    (h : reach a ks = reach b ls) : a = b ∧ ks = ls := by
  induction ks generalizing a b ls with
  | nil =>
    cases ls with
    | nil => exact ⟨h, rfl⟩
    | cons l ls => simp at steps
  | cons k ks ih =>
    cases ls with
    | nil => simp at steps
    | cons l ls =>
      obtain ⟨first, rest⟩ := ih (Nat.succ.inj steps) h
      obtain ⟨rfl, rfl⟩ := pair_injective first
      exact ⟨rfl, by rw [rest]⟩

theorem reach_concat (id : Nat) (ordinals : List Nat) (ordinal : Nat) :
    reach id (ordinals ++ [ordinal]) = pair (reach id ordinals) ordinal := by
  simp [reach]

theorem le_reach {id : Nat} {ordinals : List Nat} (positive : ∀ k ∈ ordinals, 1 ≤ k) :
    id ≤ reach id ordinals := by
  induction ordinals generalizing id with
  | nil => exact Nat.le_refl id
  | cons ordinal ordinals ih =>
    simp only [List.mem_cons, forall_eq_or_imp] at positive
    exact Nat.le_trans (Nat.le_of_lt (lt_pair positive.1)) (ih positive.2)

theorem lt_reach {id ordinal : Nat} {ordinals : List Nat}
    (positive : ∀ k ∈ ordinal :: ordinals, 1 ≤ k) : id < reach id (ordinal :: ordinals) := by
  simp only [List.mem_cons, forall_eq_or_imp] at positive
  exact Nat.lt_of_lt_of_le (lt_pair positive.1) (le_reach positive.2)

/-- Descents from one number are told apart by where they end, however long they are. -/
theorem reach_injective_of_positive {id : Nat} {ks ls : List Nat} (left : ∀ k ∈ ks, 1 ≤ k)
    (right : ∀ l ∈ ls, 1 ≤ l) (h : reach id ks = reach id ls) : ks = ls := by
  induction ks using List.reverseRecOn generalizing ls with
  | nil =>
    cases ls with
    | nil => rfl
    | cons l ls => exact absurd h (Nat.ne_of_lt (lt_reach right))
  | append_singleton ks k ih =>
    induction ls using List.reverseRecOn with
    | nil =>
      have longer : id < reach id (ks ++ [k]) := by
        cases ks with
        | nil => exact lt_reach left
        | cons first ks => exact lt_reach left
      exact absurd h.symm (Nat.ne_of_lt longer)
    | append_singleton ls l _ =>
      rw [reach_concat, reach_concat] at h
      obtain ⟨inner, rfl⟩ := pair_injective h
      rw [ih (fun k member => left k (by simp [member]))
        (fun l member => right l (by simp [member])) inner]

end SurveyTables.RowId
