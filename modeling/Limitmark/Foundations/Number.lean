import Limitmark.Foundations.Rounding

/-!
# Numbers with infinities

The values of a number type in double precision: a double, an infinity, or no number at all. A sum that
overflows is infinite, the difference of two infinities of one sign is no number, and no comparison with
no number comes out. The two zeros are one value, since no operation here tells them apart.

The comparisons are functions to `Bool`, as a program branches on them: of two numbers neither need be
at least the other. What a test for zero has to do with the two signs is `equals_zero_iff`.
-/

namespace Limitmark.Foundations

inductive Number
  | finite (value : ℚ)
  | infinite (positive : Bool)
  | nan
  deriving DecidableEq, Repr

namespace Number

/-- The number nearest to a rational. -/
def ofRat (q : ℚ) : Number :=
  if |double q| < DOUBLE_LIMIT then .finite (double q) else .infinite (0 < q)

instance : Zero Number := ⟨.finite 0⟩

def neg : Number → Number
  | .finite q => .finite (-q)
  | .infinite positive => .infinite !positive
  | .nan => .nan

def add : Number → Number → Number
  | .finite a, .finite b => ofRat (a + b)
  | .finite _, .infinite positive | .infinite positive, .finite _ => .infinite positive
  | .infinite a, .infinite b => if a = b then .infinite a else .nan
  | .nan, _ | _, .nan => .nan

instance : Add Number := ⟨add⟩

instance : Sub Number := ⟨fun a b => a + b.neg⟩

/-- `a < b` -/
def lt : Number → Number → Bool
  | .finite a, .finite b => a < b
  | .finite _, .infinite positive => positive
  | .infinite positive, .finite _ => !positive
  | .infinite a, .infinite b => !a && b
  | .nan, _ | _, .nan => false

/-- `a <= b` -/
def le : Number → Number → Bool
  | .finite a, .finite b => a ≤ b
  | .finite _, .infinite positive => positive
  | .infinite positive, .finite _ => !positive
  | .infinite a, .infinite b => !a || b
  | .nan, _ | _, .nan => false

/-- `a === b` -/
def equals (a b : Number) : Bool := a = b && a ≠ .nan

/-- `Math.min(a, b)` -/
def min (a b : Number) : Number :=
  if a = .nan ∨ b = .nan then .nan else if b.lt a then b else a

@[simp] theorem finite_lt (a b : ℚ) : (Number.finite a).lt (.finite b) = decide (a < b) := rfl

@[simp] theorem finite_le (a b : ℚ) : (Number.finite a).le (.finite b) = decide (a ≤ b) := rfl

@[simp] theorem finite_equals (a b : ℚ) :
    (Number.finite a).equals (.finite b) = decide (a = b) := by
  simp [equals]

/-- One number is at most another when both are numbers and it is not greater. -/
theorem le_iff {a b : Number} : a.le b = true ↔ b.lt a = false ∧ a ≠ .nan ∧ b ≠ .nan := by
  cases a <;> cases b <;> simp [le, lt]
  case infinite.infinite a b => cases a <;> cases b <;> decide

theorem le_of_lt {a b : Number} (h : a.lt b = true) : a.le b = true := by
  cases a <;> cases b <;> simp only [lt, le, decide_eq_true_eq, Bool.and_eq_true, Bool.or_eq_true] at h ⊢
  case finite.finite a b => exact h.le
  case infinite.infinite a b => exact .inl h.1
  all_goals exact h

/-- A number is zero when it is neither positive nor short of zero. -/
theorem equals_zero_iff {a : Number} : a.equals 0 = true ↔ lt 0 a = false ∧ le 0 a = true := by
  cases a with
  | finite q =>
    have hzero : (Number.finite q).equals 0 = decide (q = 0) := finite_equals q 0
    rw [hzero, decide_eq_true_eq, show lt 0 (.finite q) = decide (0 < q) from rfl,
      show le 0 (.finite q) = decide (0 ≤ q) from rfl, decide_eq_false_iff_not, decide_eq_true_eq,
      not_lt, le_antisymm_iff]
  | infinite positive => cases positive <;> decide
  | nan => decide

/-- A number between two finite numbers is finite. -/
theorem finite_of_between {a b : ℚ} {x : Number} (ha : le (.finite a) x = true)
    (hb : le x (.finite b) = true) : ∃ q, x = .finite q ∧ a ≤ q ∧ q ≤ b := by
  cases x with
  | finite q => exact ⟨q, rfl, of_decide_eq_true ha, of_decide_eq_true hb⟩
  | infinite positive => cases positive <;> simp [le] at ha hb
  | nan => cases ha

end Number

end Limitmark.Foundations
