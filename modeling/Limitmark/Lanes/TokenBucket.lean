import Limitmark.Foundations.Bucket
import Limitmark.Defense.Vocabulary

/-!
# The token bucket of a lane

`TokenBucket` of `defense/core/lanes.ts` in exact arithmetic: integer micro-tokens, a refill on every
look at the clock, no refund. The clock is read as whole milliseconds and a reading that does not
advance it is ignored, so the bucket's own clock `lastMs` is the running maximum of the floored readings
(`lastMs_exec`). What the rounding of numbers does to it is the matter of `NumberBucket`.

Each operation has one lemma that says what it does to the level and the clock
(`level_refill`, `lastMs_refill`, `take_spec`); everything else is derived from those. The bounds on
what a window of a run admits are `admitted_units_le` and `admitted_from_le`: no step raises the level
plus what was admitted less what the clock has brought in, which is the hypothesis of
`Foundations.spent_window`.
-/

namespace Limitmark.Lanes

open Limitmark.Defense Limitmark.Foundations

/-- One token is `UNIT` micro-tokens. -/
def UNIT : ℤ := 1000000

theorem UNIT_pos : 0 < UNIT := by decide

/-- The parameters the constructor accepts. -/
structure BucketParams where
  capacity : ℤ
  refillPerSecond : ℚ
  one_le_capacity : 1 ≤ capacity
  refill_pos : 0 < refillPerSecond
  refill_milli : (refillPerSecond * 1000).den = 1
  deriving DecidableEq, Repr

namespace BucketParams

/-- The checks of the constructor, in exact arithmetic. -/
def make (capacity refillPerSecond : ℚ) : Except String BucketParams :=
  match safeInteger? capacity with
  | none => .error "bucket capacity must be a positive integer"
  | some c =>
    if hc : 1 ≤ c then
      if hr : 0 < refillPerSecond ∧ (refillPerSecond * 1000).den = 1 then
        .ok ⟨c, refillPerSecond, hc, hr.1, hr.2⟩
      else .error "refill must be positive with at most three decimals per second"
    else .error "bucket capacity must be a positive integer"

variable (p : BucketParams)

def capacityUnits : ℤ := p.capacity * UNIT

/-- A refill of `r` tokens a second adds `1000 r` micro-tokens a millisecond, an integer. -/
def refillPerMs : ℤ := (p.refillPerSecond * 1000).num

theorem UNIT_le_capacityUnits : UNIT ≤ p.capacityUnits := by
  have := p.one_le_capacity
  simp only [capacityUnits, UNIT]
  omega

theorem capacityUnits_pos : 0 < p.capacityUnits := UNIT_pos.trans_le p.UNIT_le_capacityUnits

theorem refillPerMs_cast : (p.refillPerMs : ℚ) = p.refillPerSecond * 1000 :=
  Rat.coe_int_num_of_den_eq_one p.refill_milli

theorem refillPerMs_pos : 0 < p.refillPerMs := by
  have h : (0 : ℚ) < p.refillPerMs := by
    rw [p.refillPerMs_cast]
    exact mul_pos p.refill_pos (by norm_num)
  exact_mod_cast h

/-- The constructor keeps the capacity and the refill it was given. -/
theorem make_eq_ok {capacity refillPerSecond : ℚ} {p : BucketParams}
    (h : make capacity refillPerSecond = .ok p) :
    capacity = p.capacity ∧ refillPerSecond = p.refillPerSecond := by
  unfold make at h
  split at h
  · cases h
  · next c hc =>
    split at h
    · split at h
      · cases h
        exact ⟨(safeInteger?_eq_some hc).1, rfl⟩
      · cases h
    · cases h

end BucketParams

structure TokenBucket where
  params : BucketParams
  level : ℤ
  lastMs : ℤ
  takes : ℕ := 0
  admittedCount : ℕ := 0
  shedCount : ℕ := 0
  deriving DecidableEq, Repr

/-- What `take` returns. -/
structure Taken where
  ok : Bool
  dt : ℤ
  lvl : ℤ
  lseq : ℤ
  deriving DecidableEq, Repr

structure BucketSnapshot where
  capacity : ℤ
  levelUnits : ℤ
  takes : ℕ
  admitted : ℕ
  shed : ℕ
  deriving DecidableEq, Repr

namespace TokenBucket

/-- A bucket starts full, at the clock reading `now`. -/
def init (p : BucketParams) (now : ℚ) : TokenBucket :=
  { params := p, level := p.capacityUnits, lastMs := ⌊now⌋ }

/-- `new TokenBucket(capacity, refillPerSecond, mono)`, where `mono()` answers `now`. -/
def create (capacity refillPerSecond now : ℚ) : Except String TokenBucket :=
  (BucketParams.make capacity refillPerSecond).map fun p => init p now

/-- Brings the level up to the clock reading `now`; a reading that does not advance is ignored. -/
def refill (now : ℚ) (b : TokenBucket) : TokenBucket :=
  if ⌊now⌋ > b.lastMs then
    { b with
      level := min b.params.capacityUnits (b.level + (⌊now⌋ - b.lastMs) * b.params.refillPerMs)
      lastMs := ⌊now⌋ }
  else b

/-- Takes one token if there is one. The only way a level goes down. -/
def take (now : ℚ) (b : TokenBucket) : TokenBucket × Taken :=
  let b := b.refill now
  let b := { b with takes := b.takes + 1 }
  if UNIT ≤ b.level then
    let b := { b with level := b.level - UNIT, admittedCount := b.admittedCount + 1 }
    (b, ⟨true, b.lastMs, b.level, b.takes⟩)
  else
    let b := { b with shedCount := b.shedCount + 1 }
    (b, ⟨false, b.lastMs, b.level, b.takes⟩)

def levelUnits (now : ℚ) (b : TokenBucket) : TokenBucket × ℤ :=
  let b := b.refill now
  (b, b.level)

def snapshot (now : ℚ) (b : TokenBucket) : TokenBucket × BucketSnapshot :=
  let r := b.levelUnits now
  (r.1, ⟨r.1.params.capacity, r.2, r.1.takes, r.1.admittedCount, r.1.shedCount⟩)

/-! ## What a refill does -/

/-- What every reachable bucket satisfies. -/
structure WF (b : TokenBucket) : Prop where
  level_nonneg : 0 ≤ b.level
  level_le : b.level ≤ b.params.capacityUnits
  takes_eq : b.takes = b.admittedCount + b.shedCount

theorem wf_init (p : BucketParams) (now : ℚ) : (init p now).WF :=
  ⟨p.capacityUnits_pos.le, le_rfl, rfl⟩

variable (now : ℚ) (b : TokenBucket)

@[simp] theorem params_refill : (b.refill now).params = b.params := by
  unfold refill; split <;> rfl

@[simp] theorem takes_refill : (b.refill now).takes = b.takes := by
  unfold refill; split <;> rfl

@[simp] theorem admittedCount_refill : (b.refill now).admittedCount = b.admittedCount := by
  unfold refill; split <;> rfl

@[simp] theorem shedCount_refill : (b.refill now).shedCount = b.shedCount := by
  unfold refill; split <;> rfl

/-- The bucket's clock is the larger of its last value and the floored reading. -/
theorem lastMs_refill : (b.refill now).lastMs = max b.lastMs ⌊now⌋ := by
  unfold refill
  split
  · next h => exact (max_eq_right h.le).symm
  · next h => exact (max_eq_left (not_lt.1 h)).symm

/-- The level is filled by what the clock brings in. -/
theorem level_refill (hb : b.level ≤ b.params.capacityUnits) :
    (b.refill now).level = fill b.params.capacityUnits b.level
      ((max b.lastMs ⌊now⌋ - b.lastMs) * b.params.refillPerMs) := by
  unfold refill
  split
  · next h => rw [max_eq_right h.le]; rfl
  · next h => rw [max_eq_left (not_lt.1 h), sub_self, zero_mul, fill_zero hb]

/-- A second look at the same reading does nothing. -/
@[simp] theorem refill_refill : (b.refill now).refill now = b.refill now := by
  rw [refill, if_neg]
  rw [lastMs_refill]
  exact not_lt.2 (le_max_right _ _)

theorem elapsed_nonneg : 0 ≤ (max b.lastMs ⌊now⌋ - b.lastMs) * b.params.refillPerMs :=
  mul_nonneg (sub_nonneg.2 (le_max_left _ _)) b.params.refillPerMs_pos.le

variable {b}

theorem WF.refill (hb : b.WF) : (b.refill now).WF where
  level_nonneg := by
    rw [level_refill now b hb.level_le]
    exact hb.level_nonneg.trans (le_fill hb.level_le (elapsed_nonneg now b))
  level_le := by
    rw [level_refill now b hb.level_le, params_refill]
    exact fill_le_cap _ _ _
  takes_eq := by simpa using hb.takes_eq

/-! ## What a take does -/

variable (b)

/-- A take refills, counts, and lowers the level by one token exactly when there is one. -/
theorem take_spec :
    (UNIT ≤ (b.refill now).level ∧
      b.take now = ({ b.refill now with
        level := (b.refill now).level - UNIT, takes := b.takes + 1,
        admittedCount := b.admittedCount + 1 },
        ⟨true, max b.lastMs ⌊now⌋, (b.refill now).level - UNIT, b.takes + 1⟩)) ∨
    ((b.refill now).level < UNIT ∧
      b.take now = ({ b.refill now with
        takes := b.takes + 1, shedCount := b.shedCount + 1 },
        ⟨false, max b.lastMs ⌊now⌋, (b.refill now).level, b.takes + 1⟩)) := by
  simp only [take, takes_refill, admittedCount_refill, shedCount_refill, lastMs_refill]
  split
  · next h => exact Or.inl ⟨h, by simp⟩
  · next h => exact Or.inr ⟨not_le.1 h, by simp⟩

@[simp] theorem params_take : (b.take now).1.params = b.params := by
  rcases take_spec now b with ⟨-, h⟩ | ⟨-, h⟩ <;> simp [h]

@[simp] theorem takes_take : (b.take now).1.takes = b.takes + 1 := by
  rcases take_spec now b with ⟨-, h⟩ | ⟨-, h⟩ <;> simp [h]

@[simp] theorem lastMs_take : (b.take now).1.lastMs = max b.lastMs ⌊now⌋ := by
  rcases take_spec now b with ⟨-, h⟩ | ⟨-, h⟩ <;> simp [h, lastMs_refill]

/-- A take admits exactly when it says so. -/
theorem admittedCount_take :
    (b.take now).1.admittedCount = b.admittedCount + if (b.take now).2.ok then 1 else 0 := by
  rcases take_spec now b with ⟨-, h⟩ | ⟨-, h⟩ <;> simp [h]

theorem shedCount_take :
    (b.take now).1.shedCount = b.shedCount + if (b.take now).2.ok then 0 else 1 := by
  rcases take_spec now b with ⟨-, h⟩ | ⟨-, h⟩ <;> simp [h]

variable {b}

theorem WF.take (hb : b.WF) : (b.take now).1.WF := by
  have hr := hb.refill now
  have htakes := hb.takes_eq
  rcases take_spec now b with ⟨hl, h⟩ | ⟨-, h⟩ <;> rw [h]
  · refine ⟨sub_nonneg.2 hl, (sub_le_self _ UNIT_pos.le).trans hr.level_le, ?_⟩
    simp only [shedCount_refill]
    omega
  · refine ⟨hr.level_nonneg, hr.level_le, ?_⟩
    simp only [admittedCount_refill]
    omega

/-! ## Runs -/

/-- What can be asked of a bucket: a take, or a look at the level that takes nothing. -/
inductive Op
  | take
  | levelUnits
  deriving DecidableEq, Repr

/-- One operation at a clock reading. A look at the level returns nothing that was taken. -/
def step (b : TokenBucket) (op : Op × ℚ) : TokenBucket × Option Taken :=
  match op.1 with
  | .take => ((b.take op.2).1, some (b.take op.2).2)
  | .levelUnits => ((b.levelUnits op.2).1, none)

@[simp] theorem params_step (b : TokenBucket) (op : Op × ℚ) : (step b op).1.params = b.params := by
  obtain ⟨_ | _, now⟩ := op <;> simp [step, levelUnits]

@[simp] theorem lastMs_step (b : TokenBucket) (op : Op × ℚ) :
    (step b op).1.lastMs = max b.lastMs ⌊op.2⌋ := by
  obtain ⟨_ | _, now⟩ := op <;> simp [step, levelUnits, lastMs_refill]

theorem WF.step (hb : b.WF) (op : Op × ℚ) : (step b op).1.WF := by
  obtain ⟨_ | _, now⟩ := op
  · exact hb.take now
  · exact hb.refill now

/-- A run keeps the parameters and the invariant. -/
theorem wf_exec (hb : b.WF) (ops : List (Op × ℚ)) :
    (exec TokenBucket.step b ops).WF ∧
      (exec TokenBucket.step b ops).params = b.params :=
  exec_invariant TokenBucket.step (I := fun c => c.WF ∧ c.params = b.params) ⟨hb, rfl⟩
    (fun _ op h => ⟨h.1.step op, (params_step _ op).trans h.2⟩) ops

/-- The running maximum of a clock that read `c` first. -/
def readingMax (c : ℚ) (ops : List (Op × ℚ)) : ℚ := (ops.map Prod.snd).foldl max c

/-- The bucket's clock is the running maximum of the readings, floored. -/
theorem lastMs_exec {b : TokenBucket} {c : ℚ} (hc : b.lastMs = ⌊c⌋) (ops : List (Op × ℚ)) :
    (exec TokenBucket.step b ops).lastMs = ⌊readingMax c ops⌋ := by
  induction ops generalizing b c with
  | nil => exact hc
  | cons op ops ih =>
    refine ih (c := max c op.2) ?_
    rw [lastMs_step, hc]
    exact (Int.floor_mono.map_max).symm

/-- The takes a run admits. -/
def admitted (b : TokenBucket) (ops : List (Op × ℚ)) : ℕ :=
  (trace TokenBucket.step b ops).countP fun e => e.out.any Taken.ok

/-- The counter of a bucket moves by the takes a step admits. -/
theorem admittedCount_step (b : TokenBucket) (op : Op × ℚ) :
    (step b op).1.admittedCount =
      b.admittedCount + if (step b op).2.any Taken.ok = true then 1 else 0 := by
  obtain ⟨_ | _, now⟩ := op
  · by_cases h : (b.take now).2.ok = true <;> simp [step, admittedCount_take, h]
  · simp [step, levelUnits]

/-- The counter of a bucket counts the takes it admitted. -/
theorem admittedCount_exec (b : TokenBucket) (ops : List (Op × ℚ)) :
    (exec TokenBucket.step b ops).admittedCount = b.admittedCount + admitted b ops := by
  induction ops generalizing b with
  | nil => rfl
  | cons op ops ih =>
    rw [exec_cons, ih, admittedCount_step, admitted, admitted, trace_cons, List.countP_cons,
      entry_out]
    by_cases h : (TokenBucket.step b op).2.any Taken.ok = true <;> simp only [h] <;> omega

/-! ## The window law -/

/-- No step raises the level plus what was admitted less what the clock brought in. -/
theorem potential_step_le (op : Op × ℚ) (hb : b.level ≤ b.params.capacityUnits) :
    potential level (fun c => UNIT * c.admittedCount) lastMs b.params.refillPerMs
        (TokenBucket.step b op).1 ≤
      potential level (fun c => UNIT * c.admittedCount) lastMs b.params.refillPerMs b := by
  have hfill : (b.refill op.2).level ≤
      b.level + (max b.lastMs ⌊op.2⌋ - b.lastMs) * b.params.refillPerMs := by
    rw [level_refill op.2 b hb]
    exact fill_le_add _ _ _
  simp only [potential]
  rw [lastMs_step]
  obtain ⟨_ | _, now⟩ := op
  · rcases take_spec now b with ⟨-, h⟩ | ⟨-, h⟩
    · simp only [TokenBucket.step, h]
      push_cast
      linarith
    · simp only [TokenBucket.step, h, admittedCount_refill]
      linarith
  · simp only [TokenBucket.step, levelUnits, admittedCount_refill]
    linarith

/-- What a run admits, in micro-tokens: at most its capacity and what its clock brought in. -/
theorem admitted_units_le (hb : b.WF) (ops : List (Op × ℚ)) :
    UNIT * admitted b ops ≤ b.params.capacityUnits +
      b.params.refillPerMs * ((exec TokenBucket.step b ops).lastMs - b.lastMs) := by
  have h := spent_window TokenBucket.step level (fun c => UNIT * (c.admittedCount : ℤ)) lastMs
    b.params.refillPerMs
    (I := fun c => c.WF ∧ c.params = b.params)
    (fun c op hc => ⟨hc.1.step op, (params_step c op).trans hc.2⟩)
    (fun c op hc => hc.2 ▸ potential_step_le op hc.1.level_le)
    ⟨hb, rfl⟩ hb.level_le ops (wf_exec hb ops).1.level_nonneg
  rw [admittedCount_exec] at h
  push_cast at h
  linarith

/-- In whole tokens: the refill of a window is rounded down. -/
theorem admitted_le_of_units {p : BucketParams} {n : ℕ} {Δ : ℤ}
    (h : UNIT * n ≤ p.capacityUnits + p.refillPerMs * Δ) :
    (n : ℤ) ≤ p.capacity + ⌊p.refillPerSecond * Δ / 1000⌋ := by
  rw [← sub_le_iff_le_add', Int.le_floor]
  have hq : (UNIT : ℚ) * n ≤ p.capacity * UNIT + p.refillPerMs * Δ := by
    exact_mod_cast h
  rw [p.refillPerMs_cast, UNIT] at hq
  push_cast at hq ⊢
  linarith

/-- A step looks at the clock first, so a look at the same reading before it changes nothing. -/
theorem step_refill (b : TokenBucket) (op : Op × ℚ) :
    TokenBucket.step (b.refill op.2) op = TokenBucket.step b op := by
  obtain ⟨_ | _, now⟩ := op <;> simp [TokenBucket.step, take, levelUnits]

/-- A window that opens with the reading of a step has the same bound, that step included: the
bucket holds at most its capacity when the reading is made. -/
theorem admitted_from_le (hb : b.WF) (op : Op × ℚ) (ops : List (Op × ℚ)) :
    UNIT * admitted b (op :: ops) ≤ b.params.capacityUnits +
      b.params.refillPerMs *
        ((exec TokenBucket.step b (op :: ops)).lastMs - (TokenBucket.step b op).1.lastMs) := by
  have h := admitted_units_le (hb.refill op.2) (op :: ops)
  simp only [admitted, trace_cons, exec_cons, entry, step_refill, params_refill] at h ⊢
  rwa [lastMs_step, ← lastMs_refill]

/-- A bucket of one token that fills by one token a millisecond. -/
def millisecondBucket : BucketParams :=
  ⟨1, 1000, by norm_num, by norm_num, by decide +kernel⟩

end TokenBucket

end Limitmark.Lanes
