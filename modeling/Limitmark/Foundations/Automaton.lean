import Mathlib.Data.List.Chain

/-!
# Successor automata

An automaton given by the kinds that may follow each kind, with `none` for the state before any. A
stream is accepted when each of its kinds may follow the one before it (`Accepts`), so that a
machine that emits a stream keeps it accepted by looking at its last kind alone (`accepts_append`).
-/

namespace Limitmark.Foundations

variable {κ : Type*} (next : Option κ → List κ)

/-- Every kind of the stream may follow the one before it. -/
def Accepts (previous : Option κ) : List κ → Prop
  | [] => True
  | k :: ks => k ∈ next previous ∧ Accepts (some k) ks

/-- The state a stream leads to. -/
def stateAfter (previous : Option κ) (ks : List κ) : Option κ := ks.foldl (fun _ k => some k) previous

@[simp] theorem accepts_nil (previous : Option κ) : Accepts next previous [] := trivial

@[simp] theorem accepts_cons (previous : Option κ) (k : κ) (ks : List κ) :
    Accepts next previous (k :: ks) ↔ k ∈ next previous ∧ Accepts next (some k) ks := Iff.rfl

@[simp] theorem stateAfter_nil (previous : Option κ) : stateAfter previous ([] : List κ) = previous :=
  rfl

@[simp] theorem stateAfter_cons (previous : Option κ) (k : κ) (ks : List κ) :
    stateAfter previous (k :: ks) = stateAfter (some k) ks := rfl

@[simp] theorem stateAfter_concat (previous : Option κ) (ks : List κ) (k : κ) :
    stateAfter previous (ks ++ [k]) = some k := by
  simp [stateAfter]

/-- A stream goes on from the state its beginning leads to. -/
theorem accepts_append (previous : Option κ) (ks ls : List κ) :
    Accepts next previous (ks ++ ls) ↔
      Accepts next previous ks ∧ Accepts next (stateAfter previous ks) ls := by
  induction ks generalizing previous with
  | nil => simp
  | cons k ks ih => simp [ih, and_assoc]

/-- A kind with one possible predecessor comes right after it. -/
theorem exists_eq_concat_of_accepts {α : Type*} {kind : α → κ} {pre post : List α} {event : α}
    (h : Accepts next none ((pre ++ event :: post).map kind)) {k : κ}
    (hpred : ∀ state, kind event ∈ next state → state = some k) :
    ∃ pre' previous, pre = pre' ++ [previous] ∧ kind previous = k := by
  rw [List.map_append, accepts_append, List.map_cons, accepts_cons] at h
  have hstate := hpred _ h.2.1
  rcases List.eq_nil_or_concat pre with rfl | ⟨pre', previous, rfl⟩
  · cases hstate
  · rw [List.concat_eq_append, List.map_append, List.map_singleton, stateAfter_concat,
      Option.some_inj] at hstate
    exact ⟨pre', previous, List.concat_eq_append, hstate⟩

/-- A kind that may only come first does. -/
theorem eq_nil_of_accepts {α : Type*} {kind : α → κ} {pre post : List α} {event : α}
    (h : Accepts next none ((pre ++ event :: post).map kind))
    (hpred : ∀ state, kind event ∈ next state → state = none) : pre = [] := by
  rw [List.map_append, accepts_append, List.map_cons, accepts_cons] at h
  have hstate := hpred _ h.2.1
  rcases List.eq_nil_or_concat pre with rfl | ⟨pre', previous, rfl⟩
  · rfl
  · rw [List.concat_eq_append, List.map_append, List.map_singleton, stateAfter_concat] at hstate
    cases hstate

/-- Nothing comes after a kind that nothing may follow. -/
theorem eq_nil_of_accepts_final {α : Type*} {kind : α → κ} {previous : Option κ}
    {pre post : List α} (h : Accepts next previous ((pre ++ post).map kind)) {event : α}
    (hmem : event ∈ pre) (hfinal : next (some (kind event)) = []) : post = [] := by
  induction pre generalizing previous with
  | nil => cases hmem
  | cons first pre ih =>
    rw [List.cons_append, List.map_cons, accepts_cons] at h
    rcases List.mem_cons.1 hmem with rfl | hmem
    · rcases hrest : pre ++ post with _ | ⟨second, rest⟩
      · exact (List.append_eq_nil_iff.1 hrest).2
      · rw [hrest, List.map_cons, accepts_cons, hfinal] at h
        cases h.2.1
    · exact ih h.2 hmem

/-- A kind that comes after some kind only is in a stream with one of these. -/
theorem exists_mem_of_accepts {ks : List κ} (h : Accepts next none ks) {k : κ} (hmem : k ∈ ks)
    (js : List κ) (hpred : ∀ state, k ∈ next state → ∃ j ∈ js, state = some j) :
    ∃ j ∈ js, j ∈ ks := by
  obtain ⟨pre, post, rfl⟩ := List.append_of_mem hmem
  rw [accepts_append, accepts_cons] at h
  obtain ⟨j, hj, hstate⟩ := hpred _ h.2.1
  rcases List.eq_nil_or_concat pre with rfl | ⟨pre, previous, rfl⟩
  · cases hstate
  · rw [List.concat_eq_append, stateAfter_concat, Option.some_inj] at hstate
    exact ⟨j, hj, by simp [hstate]⟩

/-- A kind that comes after one kind only is in a stream with it. -/
theorem mem_of_accepts {ks : List κ} (h : Accepts next none ks) {j k : κ} (hmem : k ∈ ks)
    (hpred : ∀ state, k ∈ next state → state = some j) : j ∈ ks := by
  obtain ⟨i, hi, hmem⟩ := exists_mem_of_accepts next h hmem [j]
    fun state hk => ⟨j, by simp, hpred state hk⟩
  rwa [List.mem_singleton.1 hi] at hmem

/-- A stream whose steps go up in rank has one kind of each rank. -/
theorem eq_of_rank_eq {R : Type*} [Preorder R] {rank : κ → R}
    (hrank : ∀ j, ∀ k ∈ next (some j), rank j < rank k) {previous : Option κ} {ks : List κ}
    (h : Accepts next previous ks) {j k : κ} (hj : j ∈ ks) (hk : k ∈ ks) (heq : rank j = rank k) :
    j = k := by
  induction ks generalizing previous with
  | nil => cases hj
  | cons first ks ih =>
    have hlater : ∀ {previous : κ} {ks : List κ}, Accepts next (some previous) ks →
        ∀ l ∈ ks, rank previous < rank l := fun {previous ks} h => by
      induction ks generalizing previous with
      | nil => simp
      | cons second ks ih =>
        have hlt := hrank _ _ h.1
        intro l hl
        rcases List.mem_cons.1 hl with rfl | hl
        · exact hlt
        · exact hlt.trans (ih h.2 l hl)
    rcases List.mem_cons.1 hj with hj | hj <;> rcases List.mem_cons.1 hk with hk | hk
    · exact hj.trans hk.symm
    · exact absurd (hj ▸ heq) (hlater h.2 _ hk).ne
    · exact absurd (hk ▸ heq).symm (hlater h.2 _ hj).ne
    · exact ih h.2 hj hk

instance Accepts.instDecidable [DecidableEq κ] (previous : Option κ) (ks : List κ) :
    Decidable (Accepts next previous ks) :=
  match ks with
  | [] => inferInstanceAs (Decidable True)
  | k :: ks => @instDecidableAnd _ _ _ (Accepts.instDecidable (some k) ks)

end Limitmark.Foundations
