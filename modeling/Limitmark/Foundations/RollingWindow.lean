import Mathlib.Algebra.Order.Group.Defs
import Mathlib.Data.List.Basic

/-!
# Rolling windows

A limit on every rolling window: of the times at which something happened, no window `(T - W, T]`
holds more than `n`. The times are in any linearly ordered group.

A limiter sees only the windows that end at the present. `Limited.concat` says that this is enough:
if the times come in order, and each is added while the window that ends there holds fewer than `n`,
then every window is within the limit.
-/

namespace Limitmark.Foundations

section Between

variable {τ : Type*} [LinearOrder τ]

/-- The number of times in `(lower, upper]`. -/
def countBetween (lower upper : τ) (times : List τ) : ℕ :=
  times.countP fun t => decide (lower < t) && decide (t ≤ upper)

@[simp] theorem countBetween_nil (lower upper : τ) : countBetween lower upper [] = 0 := rfl

theorem countBetween_concat (lower upper r : τ) (times : List τ) :
    countBetween lower upper (times ++ [r]) =
      countBetween lower upper times + if lower < r ∧ r ≤ upper then 1 else 0 := by
  simp only [countBetween, List.countP_append, List.countP_singleton, Bool.and_eq_true,
    decide_eq_true_eq]

/-- Of times up to `r`, an interval that starts later and ends anywhere holds no more than the one
that ends at `r`. -/
theorem countBetween_le_of_le {lower lower' upper r : τ} {times : List τ}
    (hle : ∀ t ∈ times, t ≤ r) (hlower : lower ≤ lower') :
    countBetween lower' upper times ≤ countBetween lower r times := by
  apply List.countP_mono_left
  intro t ht h
  simp only [Bool.and_eq_true, decide_eq_true_eq] at h ⊢
  exact ⟨hlower.trans_lt h.1, hle t ht⟩

end Between

section Windows

variable {τ : Type*} [AddCommGroup τ] [LinearOrder τ]

/-- No window of length `W` holds more than `n` of the times. -/
def Limited (n : ℕ) (W : τ) (times : List τ) : Prop :=
  ∀ T, countBetween (T - W) T times ≤ n

@[simp] theorem Limited.nil (n : ℕ) (W : τ) : Limited n W [] := fun _ => Nat.zero_le n

/-- **A limiter keeps its limit** if it lets a new time in only while the window that ends there has
room. -/
theorem Limited.concat [IsOrderedAddMonoid τ] {n : ℕ} {W r : τ} {times : List τ}
    (h : Limited n W times) (hle : ∀ t ∈ times, t ≤ r)
    (hroom : countBetween (r - W) r times < n) : Limited n W (times ++ [r]) := by
  intro T
  rw [countBetween_concat]
  split
  · next hin =>
    -- The window reaches back no further than the one that ends at `r`.
    have hsub : countBetween (T - W) T times ≤ countBetween (r - W) r times :=
      countBetween_le_of_le hle (sub_le_sub_right hin.2 W)
    omega
  · exact h T

end Windows

end Limitmark.Foundations
