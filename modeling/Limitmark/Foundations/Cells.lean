import Mathlib.Data.List.Basic

/-!
# Cells updated in place

Machines that keep the state of their processes, requests or calls in a list, each named by its
place: what an update at one place does to a lookup, to a property of every cell, and to the number
of cells that pass a test.
-/

namespace Limitmark.Foundations.Cells

variable {α : Type*} {l : List α} {i j : ℕ} {a b : α}

/-- What is found in a list after an update at one place. -/
theorem getElem?_set_eq_some (h : (l.set i b)[j]? = some a) :
    (j = i ∧ a = b) ∨ (j ≠ i ∧ l[j]? = some a) := by
  rw [List.getElem?_set] at h
  split_ifs at h with heq hlt
  · exact Or.inl ⟨heq.symm, (Option.some.inj h).symm⟩
  · exact Or.inr ⟨Ne.symm heq, h⟩

/-- What is found in a list that was extended by one cell. -/
theorem getElem?_concat_eq_some (h : (l ++ [b])[j]? = some a) :
    (j = l.length ∧ a = b) ∨ (j ≠ l.length ∧ l[j]? = some a) := by
  rw [List.getElem?_append] at h
  split_ifs at h with hlt
  · exact Or.inr ⟨Nat.ne_of_lt hlt, h⟩
  · rw [List.getElem?_singleton] at h
    split_ifs at h with heq
    exact Or.inl ⟨by omega, (Option.some.inj h).symm⟩

theorem getElem?_set_self_of_eq_some (h : l[i]? = some a) (b : α) : (l.set i b)[i]? = some b := by
  obtain ⟨hlt, -⟩ := List.getElem?_eq_some_iff.1 h
  exact List.getElem?_set_self hlt

theorem forall_mem_set {P : α → Prop} (h : ∀ a ∈ l, P a) (hb : P b) : ∀ a ∈ l.set i b, P a := by
  intro a ha
  rcases List.mem_or_eq_of_mem_set ha with ha | rfl
  · exact h a ha
  · exact hb

/-- An update moves a count by what the two cells count for. -/
theorem countP_set (p : α → Bool) (h : l[i]? = some a) (b : α) :
    (l.set i b).countP p + (if p a then 1 else 0) = l.countP p + if p b then 1 else 0 := by
  induction l generalizing i with
  | nil => cases h
  | cons first l ih =>
    cases i with
    | zero =>
      obtain rfl := Option.some.inj h
      rw [List.set_cons_zero, List.countP_cons, List.countP_cons]
      omega
    | succ i =>
      have := ih h
      rw [List.set_cons_succ, List.countP_cons, List.countP_cons]
      omega

/-- A cell that passes a test is counted. -/
theorem countP_pos (p : α → Bool) (h : l[i]? = some a) (ha : p a = true) : 0 < l.countP p :=
  List.countP_pos_iff.2 ⟨a, List.mem_of_getElem? h, ha⟩

/-- A test that one place at most passes counts one at most. -/
theorem countP_le_one {p : α → Bool} (h : ∀ (i j : ℕ) (a b : α), l[i]? = some a → l[j]? = some b →
    p a = true → p b = true → i = j) : l.countP p ≤ 1 := by
  induction l with
  | nil => exact Nat.zero_le 1
  | cons first l ih =>
    have hrest : l.countP p ≤ 1 := ih fun i j a b hi hj ha hb =>
      Nat.succ.inj (h (i + 1) (j + 1) a b hi hj ha hb)
    rw [List.countP_cons]
    split_ifs with hfirst
    · have hnone : l.countP p = 0 := by
        rw [List.countP_eq_zero]
        intro a ha hpa
        obtain ⟨i, hi⟩ := List.getElem?_of_mem ha
        exact absurd (h 0 (i + 1) first a rfl hi hfirst hpa) (by omega)
      omega
    · exact hrest

end Limitmark.Foundations.Cells
