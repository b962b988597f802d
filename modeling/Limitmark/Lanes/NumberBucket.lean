import Mathlib
import Limitmark.Foundations.Rounding
import Limitmark.Lanes.TokenBucket

/-!
# The token bucket in doubles

`TokenBucket` of `defense/core/lanes.ts` with the numbers it computes with: every product, sum and
difference is rounded to a double, and a counter stops at the first integer whose successor is none.

As long as a full bucket is an exact number of micro-tokens the rounding changes nothing: the bucket
decides as the one in exact arithmetic does (`admitted_eq`), at the rate the constructor scales to whole
micro-tokens. From this follows the window law (`number_window_law`). Readings between two milliseconds,
rates that are no exact thousandths and larger buckets break the law as it reads off the parameters
(`not_readLaw`).
-/

namespace Limitmark.Lanes.Number

open Limitmark.Defense Limitmark.Foundations
open Limitmark.Lanes.TokenBucket (Op readingMax)

/-- The parameters the constructor accepts: the product it takes for the refill a millisecond is an
integer. -/
structure BucketParams where
  capacity : ℕ
  refillPerSecond : Double
  refillPerMs : ℕ
  one_le_capacity : 1 ≤ capacity
  refill_pos : 0 < refillPerSecond.1
  refillPerMs_eq : double (refillPerSecond * 1000) = refillPerMs

instance : DecidableEq BucketParams := fun a b =>
  decidable_of_iff (a.capacity = b.capacity ∧ a.refillPerSecond = b.refillPerSecond ∧
    a.refillPerMs = b.refillPerMs) (by cases a; cases b; simp)

namespace BucketParams

/-- The checks of the constructor. A product that overflows is no integer. -/
def make (capacity : ℚ) (refillPerSecond : Double) : Except String BucketParams :=
  match h : positiveInteger? capacity with
  | none => .error "bucket capacity must be a positive integer"
  | some c =>
    let product := double (refillPerSecond * 1000)
    if hr : 0 < refillPerSecond.1 ∧ product = product.num.toNat ∧ product < DOUBLE_LIMIT then
      .ok ⟨c, refillPerSecond, product.num.toNat, one_le_of_positiveInteger? h, hr.1, hr.2.1⟩
    else .error "refill must be positive with at most three decimals per second"

variable (p : BucketParams)

def capacityUnits : ℚ := double (p.capacity * UNIT)

/-- The rate a bucket refills at. -/
def rate : ℚ := p.refillPerMs / 1000

theorem capacityUnits_nonneg : 0 ≤ p.capacityUnits := by
  have hunit : (0 : ℚ) ≤ UNIT := by exact_mod_cast UNIT_pos.le
  exact double_nonneg (mul_nonneg (Nat.cast_nonneg _) hunit)

/-- A positive rate is not rounded to nothing. -/
theorem one_le_refillPerMs : 1 ≤ p.refillPerMs := by
  have hpos := p.refill_pos
  have hle := double_mono hpos.le (le_mul_of_one_le_right hpos.le (by norm_num : (1 : ℚ) ≤ 1000))
  rw [p.refillPerSecond.2, p.refillPerMs_eq] at hle
  exact_mod_cast hpos.trans_le hle

/-- The constructor keeps what it was given. -/
theorem make_eq_ok {capacity : ℚ} {refillPerSecond : Double} {p : BucketParams}
    (h : make capacity refillPerSecond = .ok p) :
    capacity = p.capacity ∧ refillPerSecond = p.refillPerSecond := by
  unfold make at h
  split at h
  · cases h
  · next c hc =>
    dsimp only at h
    split at h
    · cases h
      exact ⟨(positiveInteger?_eq_some hc).1, rfl⟩
    · cases h

end BucketParams

structure TokenBucket where
  params : BucketParams
  level : ℚ
  lastMs : ℤ
  takes : ℕ := 0
  admittedCount : ℕ := 0
  shedCount : ℕ := 0
deriving DecidableEq

/-- What `take` returns. -/
structure Taken where
  ok : Bool
  dt : ℤ
  lvl : ℚ
  lseq : ℕ

/-- `n++`. -/
def increment (n : ℕ) : ℕ := if n < EXACT_LIMIT then n + 1 else n

namespace TokenBucket

def init (p : BucketParams) (now : ℚ) : TokenBucket :=
  { params := p, level := p.capacityUnits, lastMs := ⌊now⌋ }

/-- `new TokenBucket(capacity, refillPerSecond, mono)`, where `mono()` answers `now`. -/
def create (capacity : ℚ) (refillPerSecond : Double) (now : ℚ) : Except String TokenBucket :=
  (BucketParams.make capacity refillPerSecond).map fun p => init p now

def refill (now : ℚ) (b : TokenBucket) : TokenBucket :=
  if ⌊now⌋ > b.lastMs then
    { b with
      level := min b.params.capacityUnits
        (double (b.level + double (double (⌊now⌋ - b.lastMs : ℤ) * b.params.refillPerMs)))
      lastMs := ⌊now⌋ }
  else b

def take (now : ℚ) (b : TokenBucket) : TokenBucket × Taken :=
  let b := b.refill now
  let b := { b with takes := increment b.takes }
  if (UNIT : ℚ) ≤ b.level then
    let b := { b with
      level := double (b.level - (UNIT : ℚ)), admittedCount := increment b.admittedCount }
    (b, ⟨true, b.lastMs, b.level, b.takes⟩)
  else
    let b := { b with shedCount := increment b.shedCount }
    (b, ⟨false, b.lastMs, b.level, b.takes⟩)

def levelUnits (now : ℚ) (b : TokenBucket) : TokenBucket × ℚ :=
  let b := b.refill now
  (b, b.level)

/-- One operation at a clock reading. -/
def step (b : TokenBucket) (op : Op × ℚ) : TokenBucket × Option Taken :=
  match op.1 with
  | .take => ((b.take op.2).1, some (b.take op.2).2)
  | .levelUnits => ((b.levelUnits op.2).1, none)

/-- The takes a run admits. -/
def admitted (b : TokenBucket) (ops : List (Op × ℚ)) : ℕ :=
  (trace step b ops).countP fun e => e.out.any Taken.ok

/-! ## The level and the counters -/

/-- What every reachable bucket satisfies, whatever its size. -/
structure WF (b : TokenBucket) : Prop where
  level_nonneg : 0 ≤ b.level
  level_le : b.level ≤ b.params.capacityUnits

/-- After at most `n` operations the counters are exact. -/
structure Counted (n : ℕ) (b : TokenBucket) : Prop where
  takes_eq : b.takes = b.admittedCount + b.shedCount
  takes_le : b.takes ≤ n

theorem wf_init (p : BucketParams) (now : ℚ) : (init p now).WF := ⟨p.capacityUnits_nonneg, le_rfl⟩

theorem counted_init (p : BucketParams) (now : ℚ) : (init p now).Counted 0 := ⟨rfl, le_rfl⟩

theorem params_refill (now : ℚ) (b : TokenBucket) : (b.refill now).params = b.params := by
  unfold refill; split <;> rfl

theorem WF.refill {b : TokenBucket} (hb : b.WF) (now : ℚ) : (b.refill now).WF := by
  unfold TokenBucket.refill
  split
  · next h =>
    have hclock : (0 : ℚ) ≤ (⌊now⌋ - b.lastMs : ℤ) := by exact_mod_cast (sub_nonneg.2 h.le)
    have hbrought := double_nonneg (mul_nonneg (double_nonneg hclock)
      (Nat.cast_nonneg b.params.refillPerMs))
    exact ⟨le_min b.params.capacityUnits_nonneg (double_nonneg (add_nonneg hb.level_nonneg hbrought)),
      min_le_left _ _⟩
  · exact hb

theorem WF.step {b : TokenBucket} (hb : b.WF) (op : Op × ℚ) :
    (b.step op).1.WF ∧ (b.step op).1.params = b.params := by
  obtain ⟨_ | _, now⟩ := op
  · have hr := hb.refill now
    simp only [TokenBucket.step, take]
    split
    · next hunit =>
      refine ⟨⟨double_nonneg (sub_nonneg.2 hunit), ?_⟩, params_refill now b⟩
      -- a full bucket is a double, which the rounded difference does not pass
      have hunits : double (b.refill now).params.capacityUnits = (b.refill now).params.capacityUnits := by
        have hunit : (0 : ℚ) ≤ UNIT := by exact_mod_cast UNIT_pos.le
        exact double_double (mul_nonneg (Nat.cast_nonneg _) hunit)
      have hpos : (0 : ℚ) ≤ UNIT := by exact_mod_cast UNIT_pos.le
      have hle := double_mono (sub_nonneg.2 hunit) ((sub_le_self _ hpos).trans hr.level_le)
      rwa [hunits] at hle
    · exact ⟨⟨hr.level_nonneg, hr.level_le⟩, params_refill now b⟩
  · exact ⟨hb.refill now, params_refill now b⟩

theorem wf_exec {b : TokenBucket} (hb : b.WF) (ops : List (Op × ℚ)) :
    (exec step b ops).WF ∧ (exec step b ops).params = b.params :=
  exec_invariant step (I := fun c => c.WF ∧ c.params = b.params) ⟨hb, rfl⟩
    (fun _ op h => ⟨(h.1.step op).1, (h.1.step op).2.trans h.2⟩) ops

theorem counts_refill (now : ℚ) (b : TokenBucket) :
    (b.refill now).takes = b.takes ∧ (b.refill now).admittedCount = b.admittedCount ∧
      (b.refill now).shedCount = b.shedCount := by
  unfold refill
  split <;> exact ⟨rfl, rfl, rfl⟩

theorem Counted.step {n : ℕ} {b : TokenBucket} (hb : b.Counted n) (hn : n < EXACT_LIMIT)
    (op : Op × ℚ) : (b.step op).1.Counted (n + 1) := by
  obtain ⟨heq, hle⟩ := hb
  obtain ⟨_ | _, now⟩ := op
  · obtain ⟨htakes, hadmitted, hshed⟩ := counts_refill now b
    simp only [TokenBucket.step, take]
    split <;> constructor <;> simp only [htakes, hadmitted, hshed, increment] <;> split_ifs <;> omega
  · obtain ⟨htakes, hadmitted, hshed⟩ := counts_refill now b
    constructor <;> simp only [TokenBucket.step, levelUnits, htakes, hadmitted, hshed] <;> omega

theorem counted_exec {n : ℕ} {b : TokenBucket} (hb : b.Counted n) {ops : List (Op × ℚ)}
    (hn : n + ops.length ≤ EXACT_LIMIT) : (exec step b ops).Counted (n + ops.length) := by
  induction ops generalizing n b with
  | nil => exact hb
  | cons op ops ih =>
    rw [List.length_cons] at hn ⊢
    have hrest := ih (hb.step (by omega) op) (by omega)
    rwa [Nat.add_right_comm, Nat.add_assoc] at hrest

/-! ## The bucket in exact arithmetic -/

/-- The bucket `e` of exact numbers is where `b` is, and a full one is an exact double. -/
structure Tracks (b : TokenBucket) (e : Lanes.TokenBucket) : Prop where
  units : b.params.capacityUnits = e.params.capacityUnits
  perMs : (b.params.refillPerMs : ℤ) = e.params.refillPerMs
  exact : e.params.capacityUnits ≤ EXACT_LIMIT
  wf : e.WF
  level : b.level = e.level
  lastMs : b.lastMs = e.lastMs

/-- An integer between nothing and a full bucket is a double. -/
theorem double_intCast {z : ℤ} (h : 0 ≤ z) (hz : z ≤ EXACT_LIMIT) : double z = z := by
  obtain ⟨n, rfl⟩ := Int.eq_ofNat_of_zero_le h
  have hn : n ≤ EXACT_LIMIT := by exact_mod_cast hz
  exact_mod_cast double_natCast hn

theorem le_double_intCast {z : ℤ} (h : 0 ≤ z) (hz : z ≤ EXACT_LIMIT) {q : ℚ} (hq : z ≤ q) :
    (z : ℚ) ≤ double q := by
  obtain ⟨n, rfl⟩ := Int.eq_ofNat_of_zero_le h
  have hn : n ≤ EXACT_LIMIT := by exact_mod_cast hz
  exact_mod_cast le_double hn (by exact_mod_cast hq)

/-- **A refill rounds nothing** that is less than a full bucket, and a full bucket stays full. -/
theorem fill_double {cap l d r : ℤ} (hl : 0 ≤ l) (hcap : l ≤ cap) (hexact : cap ≤ EXACT_LIMIT)
    (hd : 0 ≤ d) (hr : 1 ≤ r) :
    min (cap : ℚ) (double (l + double (double d * r))) = (min cap (l + d * r) : ℤ) := by
  have hdr : d ≤ d * r := le_mul_of_one_le_right hd hr
  rcases lt_or_ge (l + d * r) cap with hlt | hge
  · have hone : double d = d := double_intCast hd (by omega)
    have htwo : double (d * r : ℚ) = (d * r : ℤ) := by
      have hz := @double_intCast (d * r) (hd.trans hdr) (by omega)
      rw [← hz]
      push_cast
      rfl
    have hthree : double (l + (d * r : ℤ) : ℚ) = (l + d * r : ℤ) := by
      have hz := @double_intCast (l + d * r) (by omega) (by omega)
      rw [← hz]
      push_cast
      rfl
    rw [hone, htwo, hthree]
    push_cast
    rfl
  · have hfull : (cap - l : ℤ) ≤ double d * r := by
      rcases le_or_gt d EXACT_LIMIT with hsmall | hlarge
      · rw [double_intCast hd hsmall]
        exact_mod_cast (by omega : cap - l ≤ d * r)
      · have hlimit : ((EXACT_LIMIT : ℤ) : ℚ) ≤ double d :=
          le_double_intCast (by positivity) le_rfl (by exact_mod_cast hlarge.le)
        have hle : ((cap - l : ℤ) : ℚ) ≤ ((EXACT_LIMIT : ℤ) : ℚ) := by
          exact_mod_cast (by omega : cap - l ≤ (EXACT_LIMIT : ℤ))
        have hrq : (1 : ℚ) ≤ r := by exact_mod_cast hr
        exact hle.trans (hlimit.trans
          (le_mul_of_one_le_right (le_trans (by positivity) hlimit) hrq))
    have hbrought := le_double_intCast (by omega) (by omega) hfull
    have hsum : (cap : ℚ) ≤ l + double (double d * r) := by
      push_cast at hbrought
      linarith
    rw [min_eq_left (le_double_intCast (hl.trans hcap) hexact hsum), min_eq_left hge]

variable {b : TokenBucket} {e : Lanes.TokenBucket}

theorem Tracks.refill (h : Tracks b e) (now : ℚ) : Tracks (b.refill now) (e.refill now) := by
  have hwf := h.wf.refill now
  by_cases hclock : ⌊now⌋ > e.lastMs
  · have hclock' : ⌊now⌋ > b.lastMs := h.lastMs ▸ hclock
    have hb : b.refill now = { b with
        level := min b.params.capacityUnits
          (double (b.level + double (double (⌊now⌋ - b.lastMs : ℤ) * b.params.refillPerMs)))
        lastMs := ⌊now⌋ } := if_pos hclock'
    have he : e.refill now = { e with
        level := min e.params.capacityUnits (e.level + (⌊now⌋ - e.lastMs) * e.params.refillPerMs)
        lastMs := ⌊now⌋ } := if_pos hclock
    have hperMs : (b.params.refillPerMs : ℚ) = (e.params.refillPerMs : ℤ) := by
      rw [← h.perMs, Int.cast_natCast]
    rw [he] at hwf
    rw [hb, he]
    refine ⟨h.units, h.perMs, h.exact, hwf, ?_, rfl⟩
    dsimp only
    rw [h.units, h.level, h.lastMs, hperMs]
    exact fill_double h.wf.level_nonneg h.wf.level_le h.exact (by omega) e.params.refillPerMs_pos
  · have hclock' : ¬ ⌊now⌋ > b.lastMs := h.lastMs ▸ hclock
    have hb : b.refill now = b := if_neg hclock'
    have he : e.refill now = e := if_neg hclock
    rwa [hb, he]

/-- **A step of the two buckets** decides alike and leaves them alike. -/
theorem Tracks.step (h : Tracks b e) (op : Op × ℚ) :
    Tracks (b.step op).1 (e.step op).1 ∧
      (b.step op).2.any Taken.ok = (e.step op).2.any Lanes.Taken.ok := by
  have hwf := h.wf.step op
  obtain ⟨_ | _, now⟩ := op
  · obtain ⟨hunits, hperMs, hexact, hrwf, hlevel, hlast⟩ := h.refill now
    have hunit : (UNIT : ℚ) ≤ (b.refill now).level ↔ UNIT ≤ (e.refill now).level := by
      rw [hlevel]
      exact_mod_cast Iff.rfl
    simp only [Lanes.TokenBucket.step, Lanes.TokenBucket.take] at hwf ⊢
    simp only [TokenBucket.step, take]
    by_cases hone : UNIT ≤ (e.refill now).level
    · rw [if_pos hone] at hwf ⊢
      rw [if_pos (hunit.2 hone)]
      refine ⟨⟨hunits, hperMs, hexact, hwf, ?_, hlast⟩, rfl⟩
      have hpos := UNIT_pos
      have hle := hrwf.level_le
      dsimp only
      rw [hlevel, ← Int.cast_sub, double_intCast (by omega) (by omega)]
    · rw [if_neg hone] at hwf ⊢
      rw [if_neg fun hb => hone (hunit.1 hb)]
      exact ⟨⟨hunits, hperMs, hexact, hwf, hlevel, hlast⟩, rfl⟩
  · exact ⟨h.refill now, rfl⟩

theorem tracks_exec (h : Tracks b e) (ops : List (Op × ℚ)) :
    Tracks (exec step b ops) (exec Lanes.TokenBucket.step e ops) := by
  induction ops generalizing b e with
  | nil => exact h
  | cons op ops ih => exact ih (h.step op).1

/-- **The two buckets admit the same takes.** -/
theorem admitted_eq (h : Tracks b e) (ops : List (Op × ℚ)) :
    b.admitted ops = e.admitted ops := by
  induction ops generalizing b e with
  | nil => rfl
  | cons op ops ih =>
    obtain ⟨hstep, hok⟩ := h.step op
    have hrest := ih hstep
    rw [admitted, Lanes.TokenBucket.admitted] at hrest ⊢
    rw [trace_cons, trace_cons, List.countP_cons, List.countP_cons, hrest, entry_out, entry_out, hok]

/-! ## The window law -/

/-- The parameters of the exact bucket that refills at the same rate. -/
def exactParams (p : BucketParams) : Lanes.BucketParams where
  capacity := p.capacity
  refillPerSecond := p.rate
  one_le_capacity := by exact_mod_cast p.one_le_capacity
  refill_pos := by
    have hpos : (0 : ℚ) < p.refillPerMs := by exact_mod_cast p.one_le_refillPerMs
    exact div_pos hpos (by norm_num)
  refill_milli := by
    rw [BucketParams.rate, div_mul_cancel₀ _ (by norm_num)]
    rfl

theorem refillPerMs_exactParams (p : BucketParams) :
    (exactParams p).refillPerMs = p.refillPerMs := by
  have h : ((exactParams p).refillPerMs : ℚ) = p.rate * 1000 := (exactParams p).refillPerMs_cast
  rw [BucketParams.rate, div_mul_cancel₀ _ (by norm_num)] at h
  exact_mod_cast h

theorem tracks_init {p : BucketParams} (hexact : p.capacity * UNIT ≤ EXACT_LIMIT) (now : ℚ) :
    Tracks (init p now) (Lanes.TokenBucket.init (exactParams p) now) := by
  have hnonneg : 0 ≤ p.capacity * UNIT := mul_nonneg (Int.natCast_nonneg _) UNIT_pos.le
  have hunits : p.capacityUnits = (exactParams p).capacityUnits := by
    have h := double_intCast hnonneg hexact
    rw [BucketParams.capacityUnits, Lanes.BucketParams.capacityUnits]
    exact_mod_cast h
  exact ⟨hunits, (refillPerMs_exactParams p).symm, hexact, Lanes.TokenBucket.wf_init _ _, hunits, rfl⟩

/-- **Window law.** In every run of a bucket the level stays within its capacity; over as many takes as
a number counts, every take is admitted or shed; and if a full bucket is an exact number of
micro-tokens, then between two readings of the clock at most the capacity and what the clock brought in
are admitted: the constructor's reading and any later one, or the readings of any two operations, both
included. The clock is the running maximum of the readings, in whole milliseconds, and the rate the one
the constructor scaled to whole micro-tokens a millisecond. -/
theorem number_window_law {capacity t₀ : ℚ} {refillPerSecond : Double} {b : TokenBucket}
    (hb : create capacity refillPerSecond t₀ = .ok b) (ops : List (Op × ℚ)) :
    (0 ≤ (exec step b ops).level ∧ (exec step b ops).level ≤ double (capacity * UNIT)) ∧
    (ops.length ≤ EXACT_LIMIT →
      (exec step b ops).takes = (exec step b ops).admittedCount + (exec step b ops).shedCount) ∧
    (capacity * UNIT ≤ EXACT_LIMIT →
      (b.admitted ops : ℚ) ≤ capacity +
        ⌊double (refillPerSecond * 1000) / 1000 *
          (⌊readingMax t₀ ops⌋ - ⌊t₀⌋ : ℤ) / 1000⌋ ∧
      ∀ pre op win, ops = pre ++ op :: win →
        ((exec step b pre).admitted (op :: win) : ℚ) ≤ capacity +
          ⌊double (refillPerSecond * 1000) / 1000 *
            (⌊readingMax t₀ ops⌋ - ⌊readingMax t₀ (pre ++ [op])⌋ : ℤ) / 1000⌋) := by
  obtain ⟨p, rfl, hp⟩ : ∃ p, init p t₀ = b ∧ BucketParams.make capacity refillPerSecond = .ok p := by
    unfold create at hb
    cases h : BucketParams.make capacity refillPerSecond with
    | error e => rw [h] at hb; cases hb
    | ok p => rw [h] at hb; exact ⟨p, Except.ok.inj hb, rfl⟩
  obtain ⟨rfl, rfl⟩ := BucketParams.make_eq_ok hp
  obtain ⟨hwf, hparams⟩ := wf_exec (wf_init p t₀) ops
  refine ⟨⟨hwf.level_nonneg, ?_⟩, fun hlength => ?_, fun hexact => ?_⟩
  · have hle := hwf.level_le
    rwa [hparams] at hle
  · rw [← Nat.zero_add ops.length] at hlength
    exact (counted_exec (counted_init p t₀) hlength).takes_eq
  · have htracks := tracks_init (p := p) (by exact_mod_cast hexact) t₀
    have hwhole {n : ℕ} {Δ : ℤ} (h : UNIT * n ≤ (exactParams p).capacityUnits +
        (exactParams p).refillPerMs * Δ) :
        (n : ℚ) ≤ p.capacity + ⌊double (p.refillPerSecond * 1000) / 1000 * Δ / 1000⌋ := by
      rw [p.refillPerMs_eq]
      exact_mod_cast Lanes.TokenBucket.admitted_le_of_units h
    have hwfe := Lanes.TokenBucket.wf_init (exactParams p) t₀
    have hlast (l : List (Op × ℚ)) : (exec Lanes.TokenBucket.step
        (Lanes.TokenBucket.init (exactParams p) t₀) l).lastMs = ⌊readingMax t₀ l⌋ :=
      Lanes.TokenBucket.lastMs_exec rfl l
    constructor
    · have h := Lanes.TokenBucket.admitted_units_le hwfe ops
      rw [hlast] at h
      rw [admitted_eq htracks]
      exact hwhole h
    · rintro pre op win rfl
      obtain ⟨hpre, hpreparams⟩ := Lanes.TokenBucket.wf_exec hwfe pre
      have h := Lanes.TokenBucket.admitted_from_le hpre op win
      have hop : (Lanes.TokenBucket.step (exec Lanes.TokenBucket.step
          (Lanes.TokenBucket.init (exactParams p) t₀) pre) op).1 =
            exec Lanes.TokenBucket.step (Lanes.TokenBucket.init (exactParams p) t₀) (pre ++ [op]) := by
        rw [exec_append]; rfl
      rw [hpreparams, ← exec_append, hlast, hop, hlast] at h
      rw [admitted_eq (tracks_exec htracks pre)]
      exact hwhole h

/-- A bucket of one token that comes back in a millisecond. -/
def fractional : BucketParams :=
  ⟨1, Double.ofRat 1000 (by norm_num), 1000000, le_rfl, by decide +kernel, by decide +kernel⟩

theorem create_fractional :
    create 1 (Double.ofRat 1000 (by norm_num)) (7 / 8) = .ok (init fractional (7 / 8)) := by
  decide +kernel

/-- One token an eighth of a millisecond before the first tick, one by a clock that stepped back, and one
at the tick. -/
def sampleOps : List (Op × ℚ) := [(.take, 7 / 8), (.take, 1 / 2), (.take, 1)]

theorem number_window_law_sample :
    (exec step (init fractional (7 / 8)) sampleOps).takes =
      (exec step (init fractional (7 / 8)) sampleOps).admittedCount +
        (exec step (init fractional (7 / 8)) sampleOps).shedCount ∧
    ((init fractional (7 / 8)).admitted sampleOps : ℚ) ≤ 1 +
      ⌊double ((Double.ofRat 1000 (by norm_num)).1 * 1000) / 1000 *
        (⌊readingMax (7 / 8) sampleOps⌋ - ⌊(7 / 8 : ℚ)⌋ : ℤ) / 1000⌋ :=
  have hlaw := number_window_law create_fractional sampleOps
  ⟨hlaw.2.1 (by decide +kernel), (hlaw.2.2 (by decide +kernel)).1⟩

/-! ### What the law leaves out -/

theorem floor_le_lastMs_refill (now : ℚ) (b : TokenBucket) : ⌊now⌋ ≤ (b.refill now).lastMs := by
  unfold refill
  split
  · exact le_rfl
  · next h => exact not_lt.1 h

/-- At one reading of the clock a bucket whose levels are exact admits as long as its level lasts. -/
theorem admitted_replicate {b : TokenBucket} {m n unit : ℕ} {now : ℚ} (hunit : (UNIT : ℚ) = unit)
    (hlevel : (b.refill now).level = m) (hm : m ≤ EXACT_LIMIT + unit) (hn : n * unit ≤ m) :
    b.admitted (List.replicate n (.take, now)) = n := by
  induction n generalizing b m with
  | zero => rfl
  | succ n ih =>
    rw [Nat.succ_mul] at hn
    have hle : unit ≤ m := (Nat.le_add_left _ _).trans hn
    have hone : (UNIT : ℚ) ≤ (b.refill now).level := by
      rw [hlevel, hunit]
      exact_mod_cast hle
    have hleft : double ((b.refill now).level - UNIT) = (m - unit : ℕ) := by
      rw [hlevel, hunit, ← Nat.cast_sub hle]
      exact double_natCast (Nat.sub_le_of_le_add hm)
    have hok : ((b.step (.take, now)).2.any Taken.ok) = true := by
      simp only [TokenBucket.step, take, if_pos hone, Option.any_some]
    have hclock : ⌊now⌋ ≤ (b.step (.take, now)).1.lastMs := by
      simp only [TokenBucket.step, take, if_pos hone]
      exact floor_le_lastMs_refill now b
    have hnext : ((b.step (.take, now)).1.refill now).level = (m - unit : ℕ) := by
      rw [refill, if_neg (not_lt.2 hclock)]
      simp only [TokenBucket.step, take, if_pos hone, hleft]
    have hrest := ih hnext ((Nat.sub_le _ _).trans hm) (Nat.le_sub_of_add_le hn)
    rw [admitted] at hrest
    rw [List.replicate_succ, admitted, trace_cons, List.countP_cons, entry_out, hrest, if_pos hok]

/-- The law as it reads off the parameters, over the windows of one run. -/
def ReadLaw (capacity : ℚ) (refillPerSecond : Double) (t₀ : ℚ) (ops : List (Op × ℚ)) : Prop :=
  ∀ b, create capacity refillPerSecond t₀ = .ok b → ∀ pre op win, ops = pre ++ op :: win →
    ((exec step b pre).admitted (op :: win) : ℚ) ≤ capacity +
      ⌊refillPerSecond * (readingMax t₀ ops - readingMax t₀ (pre ++ [op])) / 1000⌋

/-- A rate that is no double: the constructor scales it to 290 micro-tokens a millisecond. -/
def scaled : BucketParams :=
  ⟨29, Double.ofRat (29 / 100) (by norm_num), 290, by norm_num, by decide +kernel, by decide +kernel⟩

/-- The smallest capacity that is no exact number of micro-tokens throughout. -/
def large : BucketParams :=
  ⟨9007199255, Double.ofRat (999999 / 1000) (by norm_num), 999999, by norm_num, by decide +kernel,
    by decide +kernel⟩

/-- The millisecond after the first take fills a bucket that lacks a micro-token. -/
theorem admitted_large {n : ℕ} (hn : n ≤ 9007199255) :
    (init large 0).admitted ((.take, 0) :: List.replicate n (.take, 1)) = n + 1 := by
  have hlevel : (((init large 0).step (.take, 0)).1.refill 1).level = (9007199255000000 : ℕ) := by
    decide +kernel
  have hok : ((init large 0).step (.take, 0)).2.any Taken.ok = true := by decide +kernel
  have hlimit : 9007199255000000 ≤ EXACT_LIMIT + 1000000 := by decide +kernel
  have hrest := @admitted_replicate _ _ n 1000000 1 (by decide +kernel) hlevel hlimit (by omega)
  rw [admitted] at hrest
  rw [admitted, trace_cons, List.countP_cons, entry_out, hrest, if_pos hok]

theorem readingMax_replicate {c q : ℚ} (h : c ≤ q) (op : Op) (n : ℕ) :
    readingMax c (List.replicate n (op, q)) ≤ q := by
  induction n generalizing c with
  | zero => exact h
  | succ n ih => exact ih (max_le h le_rfl)

/-- The law does not hold between two readings in one millisecond, nor at the rate as it is given, nor
where a level rounds up: the millisecond after the first take refills a bucket it should not fill. -/
theorem not_readLaw :
    ¬ ReadLaw 1 (Double.ofRat 1000 (by norm_num)) (7 / 8) [(.take, 7 / 8), (.take, 1)] ∧
    ¬ ReadLaw 29 (Double.ofRat (29 / 100) (by norm_num)) 0
      (List.replicate 29 (.take, 0) ++ List.replicate 29 (.take, 100000)) ∧
    ¬ ReadLaw 9007199255 (Double.ofRat (999999 / 1000) (by norm_num)) 0
      ((.take, 0) :: List.replicate 9007199255 (.take, 1)) := by
  refine ⟨fun h => ?_, fun h => ?_, fun h => ?_⟩
  · have h := h _ create_fractional [] (.take, 7 / 8) [(.take, 1)] rfl
    revert h
    decide +kernel
  · have h := h (init scaled 0) (by decide +kernel) [] (.take, 0)
      (List.replicate 28 (.take, 0) ++ List.replicate 29 (.take, 100000)) rfl
    revert h
    decide +kernel
  · obtain ⟨n, hn⟩ : ∃ n, n = 9007199255 := ⟨_, rfl⟩
    rw [← hn] at h
    have h := h (init large 0) (by decide +kernel) [] (.take, 0) _ rfl
    have hclock : readingMax 0 ((Op.take, 0) :: List.replicate n (Op.take, 1)) ≤ 1 :=
      readingMax_replicate (by norm_num) .take n
    have hstart : readingMax 0 [(Op.take, 0)] = 0 := by decide +kernel
    have hrate : large.refillPerSecond.1 < 1000 := by decide +kernel
    have hpos := large.refill_pos
    have hbrought : large.refillPerSecond.1 *
        (readingMax 0 ((Op.take, 0) :: List.replicate n (Op.take, 1)) - 0) / 1000 < (1 : ℤ) := by
      rw [sub_zero, div_lt_iff₀ (by norm_num)]
      have hle := mul_le_mul_of_nonneg_left hclock hpos.le
      push_cast
      linarith
    rw [exec_nil, List.nil_append, hstart, admitted_large hn.le] at h
    have hfloor := Int.floor_lt.2 hbrought
    have hwhole : ((n + 1 : ℕ) : ℚ) ≤ 9007199255 + (0 : ℤ) :=
      h.trans (add_le_add_right (by exact_mod_cast Int.lt_add_one_iff.1 hfloor) _)
    rw [hn] at hwhole
    norm_num at hwhole

end TokenBucket

end Limitmark.Lanes.Number
