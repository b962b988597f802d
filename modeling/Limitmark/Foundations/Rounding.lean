import Mathlib.Algebra.Order.Floor.Ring
import Mathlib.Algebra.Order.Archimedean.Basic
import Mathlib.Data.Int.Log
import Mathlib.Data.Rat.Floor
import Mathlib.Tactic.Linarith
import Mathlib.Tactic.Positivity
import Mathlib.Tactic.Ring

/-!
# Rounding to a binary significand

Arithmetic with numbers of the form `m * 2 ^ k`, for `m` of at most `p` bits and `k` at least `emin`:
every result is rounded to the nearest such number, a tie to the even one (`roundTo`). The exponent has
no upper bound; a format with one says where it overflows.

Rounding is monotone (`roundTo_mono`) and leaves what fits alone (`roundTo_eq_self`), natural numbers
of `p` bits in particular (`roundTo_natCast`). An invariant that compares rounded values with numbers
that fit needs nothing else.
-/

namespace Limitmark.Foundations

/-! ## To an integer -/

/-- The nearest integer, a tie to the even one. -/
def roundEven (q : ℚ) : ℤ :=
  if q - ⌊q⌋ < 1 / 2 then ⌊q⌋
  else if 1 / 2 < q - ⌊q⌋ then ⌊q⌋ + 1
  else if ⌊q⌋ % 2 = 0 then ⌊q⌋
  else ⌊q⌋ + 1

theorem floor_le_roundEven (q : ℚ) : ⌊q⌋ ≤ roundEven q := by
  unfold roundEven
  split_ifs <;> omega

theorem roundEven_le (q : ℚ) : roundEven q ≤ ⌊q⌋ + 1 := by
  unfold roundEven
  split_ifs <;> omega

@[simp] theorem roundEven_intCast (n : ℤ) : roundEven n = n := by
  rw [roundEven, Int.floor_intCast, sub_self, if_pos (by norm_num)]

theorem roundEven_mono {a b : ℚ} (h : a ≤ b) : roundEven a ≤ roundEven b := by
  rcases (Int.floor_mono h).lt_or_eq with hlt | heq
  · exact (roundEven_le a).trans (le_trans hlt (floor_le_roundEven b))
  · -- in one unit interval the larger of two is not rounded down where the smaller is rounded up
    unfold roundEven
    rw [← heq]
    split_ifs <;> first | omega | linarith

/-! ## To a significand -/

variable (p : ℕ) (emin : ℤ)

/-- The exponent of the last bit a number near `q` has. -/
def ulp (q : ℚ) : ℤ := max emin (Int.log 2 |q| + 1 - p)

/-- The nearest number with a significand of `p` bits, a tie to the even one. -/
def roundTo (q : ℚ) : ℚ := roundEven (q / 2 ^ ulp p emin q) * 2 ^ ulp p emin q

variable {p emin}

theorem two_zpow_pos (k : ℤ) : (0 : ℚ) < 2 ^ k := zpow_pos (by norm_num) k

/-- A multiple of a power of two is one of every smaller power. -/
theorem div_two_zpow {k e : ℤ} (h : e ≤ k) (m : ℤ) :
    (m * 2 ^ k / 2 ^ e : ℚ) = (m * 2 ^ (k - e).toNat : ℤ) := by
  have hk : ((k - e).toNat : ℤ) = k - e := Int.toNat_of_nonneg (by omega)
  have hpow : (2 : ℚ) ^ (k - e).toNat = 2 ^ k / 2 ^ e := by
    rw [← zpow_natCast, hk, zpow_sub₀ (by norm_num)]
  push_cast
  rw [hpow, mul_div_assoc]

theorem roundTo_of_ulp_le {m k : ℤ} (h : ulp p emin (m * 2 ^ k) ≤ k) :
    roundTo p emin (m * 2 ^ k) = m * 2 ^ k := by
  rw [roundTo, div_two_zpow h, roundEven_intCast, ← div_two_zpow h,
    div_mul_cancel₀ _ (two_zpow_pos _).ne']

theorem ulp_mono {a b : ℚ} (ha : 0 < a) (h : a ≤ b) : ulp p emin a ≤ ulp p emin b := by
  have hlog := Int.log_mono_right (b := 2) ha h
  rw [ulp, ulp, abs_of_pos ha, abs_of_pos (ha.trans_le h)]
  omega

@[simp] theorem roundTo_zero : roundTo p emin 0 = 0 := by
  have h := roundEven_intCast 0
  rw [Int.cast_zero] at h
  rw [roundTo, zero_div, h, Int.cast_zero, zero_mul]

theorem roundTo_nonneg {q : ℚ} (h : 0 ≤ q) : 0 ≤ roundTo p emin q := by
  have hdiv : 0 ≤ q / 2 ^ ulp p emin q := div_nonneg h (two_zpow_pos _).le
  have hround := roundEven_mono hdiv
  have hzero := roundEven_intCast 0
  rw [Int.cast_zero] at hzero
  rw [hzero] at hround
  exact mul_nonneg (by exact_mod_cast hround) (two_zpow_pos _).le

/-- Rounding does not cross a power of two from below. -/
theorem roundTo_le_zpow {q : ℚ} {k : ℤ} (h : q ≤ 2 ^ k) (hk : ulp p emin q ≤ k) :
    roundTo p emin q ≤ 2 ^ k := by
  have hdiv := roundEven_mono ((div_le_div_iff_of_pos_right (two_zpow_pos (ulp p emin q))).2 h)
  have hpow := div_two_zpow hk 1
  rw [Int.cast_one, one_mul, one_mul] at hpow
  rw [hpow, roundEven_intCast] at hdiv
  rw [roundTo, ← le_div_iff₀ (two_zpow_pos _), hpow]
  exact_mod_cast hdiv

/-- Rounding does not cross a power of two from above. -/
theorem zpow_le_roundTo {q : ℚ} {k : ℤ} (h : 2 ^ k ≤ q) (hk : ulp p emin q ≤ k) :
    2 ^ k ≤ roundTo p emin q := by
  have hdiv := roundEven_mono ((div_le_div_iff_of_pos_right (two_zpow_pos (ulp p emin q))).2 h)
  have hpow := div_two_zpow hk 1
  rw [Int.cast_one, one_mul, one_mul] at hpow
  rw [hpow, roundEven_intCast] at hdiv
  rw [roundTo, ← div_le_iff₀ (two_zpow_pos _), hpow]
  exact_mod_cast hdiv

variable [NeZero p]

/-- **Rounding is monotone.** -/
theorem roundTo_mono {a b : ℚ} (ha : 0 ≤ a) (h : a ≤ b) : roundTo p emin a ≤ roundTo p emin b := by
  have hp := NeZero.pos p
  rcases ha.eq_or_lt with rfl | ha
  · rw [roundTo_zero]
    exact roundTo_nonneg h
  · have hb := ha.trans_le h
    rcases (@ulp_mono p emin a b ha h).eq_or_lt with heq | hlt
    · rw [roundTo, roundTo, ← heq]
      have hdiv := roundEven_mono ((div_le_div_iff_of_pos_right (two_zpow_pos (ulp p emin a))).2 h)
      exact mul_le_mul_of_nonneg_right (by exact_mod_cast hdiv) (two_zpow_pos _).le
    · -- a power of two lies between them
      have hulpa : ulp p emin a = max emin (Int.log 2 a + 1 - p) := by rw [ulp, abs_of_pos ha]
      have hulpb : ulp p emin b = max emin (Int.log 2 b + 1 - p) := by rw [ulp, abs_of_pos hb]
      have hlog : Int.log 2 a + 1 ≤ Int.log 2 b := by omega
      have hbelow : a ≤ 2 ^ Int.log 2 b :=
        (Int.lt_zpow_succ_log_self (by norm_num) a).le.trans
          (zpow_le_zpow_right₀ (by norm_num) hlog)
      have habove : (2 : ℚ) ^ Int.log 2 b ≤ b := Int.zpow_log_le_self (by norm_num) hb
      exact (roundTo_le_zpow hbelow (by omega)).trans (zpow_le_roundTo habove (by omega))

/-- **What fits is left alone.** -/
theorem roundTo_eq_self {m : ℕ} {k : ℤ} (hm : m ≤ 2 ^ p) (hk : emin ≤ k) :
    roundTo p emin (m * 2 ^ k) = m * 2 ^ k := by
  have hp := NeZero.pos p
  rcases Nat.eq_zero_or_pos m with rfl | hpos
  · simp
  have hq : (0 : ℚ) < m * 2 ^ k := mul_pos (by exact_mod_cast hpos) (two_zpow_pos k)
  rcases hm.lt_or_eq with hlt | rfl
  · have hlog : Int.log 2 ((m : ℚ) * 2 ^ k) < p + k := by
      rw [← Int.lt_zpow_iff_log_lt (by norm_num) hq, zpow_add₀ (by norm_num), zpow_natCast]
      exact mul_lt_mul_of_pos_right (by exact_mod_cast hlt) (two_zpow_pos k)
    have hulp : ulp p emin (((m : ℤ) : ℚ) * 2 ^ k) ≤ k := by
      rw [Int.cast_natCast, ulp, abs_of_pos hq]
      omega
    simpa using roundTo_of_ulp_le hulp
  · have hpow : (((2 ^ p : ℕ) : ℚ)) * 2 ^ k = ((1 : ℤ) : ℚ) * 2 ^ ((p : ℤ) + k) := by
      rw [zpow_add₀ (by norm_num), zpow_natCast]
      push_cast
      ring
    have hlog : Int.log 2 ((2 : ℚ) ^ ((p : ℤ) + k)) = p + k := Int.log_zpow (by norm_num) _
    rw [hpow]
    refine roundTo_of_ulp_le ?_
    rw [Int.cast_one, one_mul, ulp, abs_of_pos (two_zpow_pos _), hlog]
    omega

theorem roundTo_natCast {n : ℕ} (hn : n ≤ 2 ^ p) (hemin : emin ≤ 0) : roundTo p emin n = n := by
  simpa using roundTo_eq_self hn hemin

/-- A rounded number fits. -/
theorem exists_roundTo {q : ℚ} (hq : 0 ≤ q) :
    ∃ (m : ℕ) (k : ℤ), m ≤ 2 ^ p ∧ emin ≤ k ∧ roundTo p emin q = m * 2 ^ k := by
  have hp := NeZero.pos p
  rcases hq.eq_or_lt with rfl | hpos
  · exact ⟨0, emin, Nat.zero_le _, le_rfl, by simp⟩
  have hulp : ulp p emin q = max emin (Int.log 2 q + 1 - p) := by rw [ulp, abs_of_pos hpos]
  have hle : q / 2 ^ ulp p emin q ≤ ((2 ^ p : ℤ) : ℚ) := by
    rw [div_le_iff₀ (two_zpow_pos _)]
    refine (Int.lt_zpow_succ_log_self (b := 2) (by norm_num) q).le.trans ?_
    rw [Int.cast_pow, ← zpow_natCast, Int.cast_ofNat, Nat.cast_ofNat, ← zpow_add₀ (by norm_num)]
    exact zpow_le_zpow_right₀ (by norm_num) (by omega)
  have hround := roundEven_mono hle
  rw [roundEven_intCast] at hround
  have hnonneg : 0 ≤ roundEven (q / 2 ^ ulp p emin q) := by
    have hdiv := roundEven_mono (div_nonneg hq (two_zpow_pos (ulp p emin q)).le)
    have hzero := roundEven_intCast 0
    rw [Int.cast_zero] at hzero
    rwa [hzero] at hdiv
  obtain ⟨m, hm⟩ := Int.eq_ofNat_of_zero_le hnonneg
  refine ⟨m, ulp p emin q, ?_, by omega, ?_⟩
  · rw [hm] at hround
    exact_mod_cast hround
  · rw [roundTo, hm]
    rfl

@[simp] theorem roundTo_roundTo {q : ℚ} (hq : 0 ≤ q) :
    roundTo p emin (roundTo p emin q) = roundTo p emin q := by
  obtain ⟨m, k, hm, hk, heq⟩ := @exists_roundTo p emin _ q hq
  rw [heq, roundTo_eq_self hm hk]

/-! ## Double precision -/

/-- The double nearest to a number, up to the overflow. -/
def double (q : ℚ) : ℚ := roundTo 53 (-1074) q

/-- The numbers that are doubles. -/
abbrev Double := { q : ℚ // double q = q }

/-- Magnitudes from here on are infinite. -/
def DOUBLE_LIMIT : ℚ := 2 ^ 1024

/-- Natural numbers up to here are doubles. -/
def EXACT_LIMIT : ℕ := 2 ^ 53

theorem double_natCast {n : ℕ} (hn : n ≤ EXACT_LIMIT) : double n = n :=
  roundTo_natCast hn (by norm_num)

theorem double_mono {a b : ℚ} (ha : 0 ≤ a) (h : a ≤ b) : double a ≤ double b := roundTo_mono ha h

theorem double_nonneg {q : ℚ} (h : 0 ≤ q) : 0 ≤ double q := roundTo_nonneg h

/-- Rounding does not cross a natural number that is a double. -/
theorem le_double {n : ℕ} (hn : n ≤ EXACT_LIMIT) {q : ℚ} (h : n ≤ q) : (n : ℚ) ≤ double q := by
  have hle := double_mono (Nat.cast_nonneg n) h
  rwa [double_natCast hn] at hle

@[simp] theorem double_double {q : ℚ} (h : 0 ≤ q) : double (double q) = double q := roundTo_roundTo h

/-- The double a decimal literal stands for. -/
def Double.ofRat (q : ℚ) (h : 0 ≤ q) : Double := ⟨double q, double_double h⟩

end Limitmark.Foundations
