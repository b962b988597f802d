import Mathlib.Logic.Basic

/-!
# Procedures that stop at the first refusal

A procedure of the programs that refuses or throws is an `Except`. `ensure` is one check of it;
`ensure_eq_ok` and `bind_eq_ok` read what held where it came to its end. A transaction undoes the
writes of a body that throws (`transaction_cases`).
-/

namespace Limitmark.Foundations

/-- One check of an ordered procedure. -/
def ensure {ε : Type} (p : Prop) [Decidable p] (refusal : ε) : Except ε Unit :=
  if p then .ok () else .error refusal

@[simp] theorem ensure_eq_ok {ε : Type} (p : Prop) [Decidable p] (refusal : ε) (u : Unit) :
    ensure p refusal = .ok u ↔ p := by
  by_cases h : p <;> simp [ensure, h]

theorem bind_eq_ok {ε α β : Type} {x : Except ε α} {f : α → Except ε β} {b : β} :
    (x >>= f) = .ok b ↔ ∃ a, x = .ok a ∧ f a = .ok b := by
  cases x <;> simp [bind, Except.bind]

theorem map_eq_ok {ε α β : Type} {x : Except ε α} {f : α → β} {b : β} :
    x.map f = .ok b ↔ ∃ a, x = .ok a ∧ f a = b := by
  cases x <;> simp [Except.map]

/-- A check, and what follows it. -/
theorem check_bind_eq_ok {ε α : Type} {check : Except ε Unit} {x : Except ε α} {a : α} :
    (check >>= fun _ => x) = .ok a ↔ check = .ok () ∧ x = .ok a := by
  rw [bind_eq_ok]
  exact ⟨fun ⟨(), h⟩ => h, fun h => ⟨(), h⟩⟩

/-- A check of every element of a list. -/
theorem forM_eq_ok {ε α : Type} {check : α → Except ε Unit} {l : List α} {u : Unit} :
    l.forM check = .ok u ↔ ∀ a ∈ l, check a = .ok () := by
  induction l with
  | nil => simp [List.forM, pure, Except.pure]
  | cons a l ih =>
    rw [List.forall_mem_cons, ← ih]
    exact check_bind_eq_ok

section Transactions

variable {σ ε α : Type}

/-- The body's writes are kept if it returns and undone if it throws. -/
def transaction (s : σ) (body : σ → Except ε (α × σ)) : Except ε α × σ :=
  match body s with
  | .ok (a, s') => (.ok a, s')
  | .error e => (.error e, s)

theorem transaction_cases (s : σ) (body : σ → Except ε (α × σ)) :
    (∃ a s', body s = .ok (a, s') ∧ transaction s body = (.ok a, s')) ∨
      ∃ e, body s = .error e ∧ transaction s body = (.error e, s) := by
  cases h : body s with
  | ok r => exact .inl ⟨r.1, r.2, rfl, by rw [transaction, h]⟩
  | error e => exact .inr ⟨e, rfl, by rw [transaction, h]⟩

/-- What is left of a transaction that returned. -/
theorem transaction_eq_ok {s s' : σ} {body : σ → Except ε (α × σ)} {a : α}
    (h : transaction s body = (.ok a, s')) : body s = .ok (a, s') := by
  obtain ⟨b, t, hbody, htx⟩ | ⟨e, -, htx⟩ := transaction_cases s body
  · rw [htx] at h
    simpa [hbody] using h
  · rw [htx] at h
    cases h

/-- A transaction that threw left everything as it was. -/
theorem transaction_eq_error {s s' : σ} {body : σ → Except ε (α × σ)} {e : ε}
    (h : transaction s body = (.error e, s')) : s' = s := by
  obtain ⟨b, t, -, htx⟩ | ⟨e, -, htx⟩ := transaction_cases s body
  · rw [htx] at h
    cases h
  · rw [htx] at h
    exact (Prod.mk.inj h).2.symm

end Transactions

end Limitmark.Foundations
