import Limitmark.Foundations.Run
import Mathlib.Algebra.Order.Ring.Defs
import Mathlib.Tactic.Linarith
import Mathlib.Tactic.Ring

/-!
# Clamped filling and the window law

The arithmetic of a leaky or token bucket, over any ordered ring. `fill cap l a` adds `a` to the
level `l` and clamps it at the capacity. Filling twice is filling once by the sum
(`fill_fill`), which is why a bucket that looks at its clock more often than it decides computes
the same levels as one that looks only when it decides.

The bound on what a bucket lets through in a window of time is a potential argument, stated for
any machine with a level, an amount spent and a clock (`spent_window`): if no step raises
`level + spent - rate * clock`, then what is spent between two states of a run is at most the
capacity plus the rate times the time between them.
-/

namespace Limitmark.Foundations

variable {R : Type*} [CommRing R] [LinearOrder R]

/-- The level `l` raised by `a`, clamped at the capacity. -/
def fill (cap l a : R) : R := min cap (l + a)

theorem fill_le_cap (cap l a : R) : fill cap l a ≤ cap := min_le_left _ _

theorem fill_le_add (cap l a : R) : fill cap l a ≤ l + a := min_le_right _ _

theorem fill_zero {cap l : R} (hl : l ≤ cap) : fill cap l 0 = l := by
  rw [fill, add_zero, min_eq_right hl]

variable [IsStrictOrderedRing R]

theorem le_fill {cap l a : R} (hl : l ≤ cap) (ha : 0 ≤ a) : l ≤ fill cap l a :=
  le_min hl (le_add_of_nonneg_right ha)

/-- A full bucket stays full. -/
theorem fill_full {cap a : R} (ha : 0 ≤ a) : fill cap cap a = cap :=
  min_eq_left (le_add_of_nonneg_right ha)

/-- Filling twice is filling once by the sum. -/
theorem fill_fill (cap l a : R) {b : R} (hb : 0 ≤ b) :
    fill cap (fill cap l a) b = fill cap l (a + b) := by
  simp only [fill]
  rcases le_total cap (l + a) with h | h
  · have hab : cap ≤ l + (a + b) := by linarith
    rw [min_eq_left h, min_eq_left (le_add_of_nonneg_right hb), min_eq_left hab]
  · rw [min_eq_right h, add_assoc]

section Window

variable {σ ι ο : Type*} (step : σ → ι → σ × ο) (level spent clock : σ → R) (rate : R)

/-- What a bucket holds and has spent, less what its clock has brought in. -/
def potential (s : σ) : R := level s + spent s - rate * clock s

/-- **The window law.** If no step that starts in the invariant raises the potential, then what a
run spends is at most the capacity plus the rate times the time it takes. -/
theorem spent_window {I : σ → Prop} (hI : ∀ s i, I s → I (step s i).1)
    (hstep : ∀ s i, I s → potential level spent clock rate (step s i).1 ≤
      potential level spent clock rate s)
    {s : σ} (hs : I s) {cap : R} (hcap : level s ≤ cap) (is : List ι)
    (he : 0 ≤ level (exec step s is)) :
    spent (exec step s is) - spent s ≤ cap + rate * (clock (exec step s is) - clock s) := by
  have h := (exec_invariant step
    (I := fun t => I t ∧ potential level spent clock rate t ≤ potential level spent clock rate s)
    ⟨hs, le_rfl⟩ (fun t i ht => ⟨hI t i ht.1, (hstep t i ht.1).trans ht.2⟩) is).2
  simp only [potential] at h
  rw [mul_sub]
  linarith

end Window

end Limitmark.Foundations
