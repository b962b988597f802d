import Limitmark.Defense.Bytes
import Limitmark.Defense.Vocabulary
import Mathlib.Logic.Function.Basic
import Mathlib.Data.Fintype.Basic

/-!
# The credit filter

`CreditFilter` of `defense/core/credit-filter.ts`: a keyed Bloom filter of two generations. The
generation of epoch `e` lives in the slot `e & 1`; every operation first advances to the epoch of
its own clock reading and zeroes the slots of the generations that have aged out.

Over it stands what the filter is for: for every generation, the list of digests that went in.
`Holds` says that the two slots are the Bloom arrays of the last two such lists. Advancing keeps
the lists (`Holds.advance`), an insertion extends the active one (`Holds.insert`), and a lookup is
positive exactly when one of the two arrays is (`Holds.has_iff`).
-/

namespace Limitmark.Lanes

open Limitmark.Defense

/-- The parameters the constructor accepts. -/
structure FilterParams where
  bits : ℕ
  hashes : ℕ
  epochMs : ℕ
  bits_range : 64 ≤ bits ∧ bits ≤ 2 ^ 30
  bits_pow : bits &&& (bits - 1) = 0
  hashes_range : 1 ≤ hashes ∧ hashes ≤ 16
  one_le_epochMs : 1 ≤ epochMs
  deriving DecidableEq, Repr

/-- The checks of the constructor. -/
def FilterParams.make (bits hashes epochMs : ℚ) : Except String FilterParams :=
  match positiveInteger? bits with
  | none => .error "bits must be a power of two between 64 and 2^30"
  | some b =>
    if hb : (64 ≤ b ∧ b ≤ 2 ^ 30) ∧ b &&& (b - 1) = 0 then
      match positiveInteger? hashes with
      | none => .error "hashes must be an integer between 1 and 16"
      | some k =>
        if hk : 1 ≤ k ∧ k ≤ 16 then
          match he : positiveInteger? epochMs with
          | none => .error "epochMs must be a positive integer"
          | some ms => .ok ⟨b, k, ms, hb.1, hb.2, hk, (positiveInteger?_eq_some he).2⟩
        else .error "hashes must be an integer between 1 and 16"
    else .error "bits must be a power of two between 64 and 2^30"

/-- The constructor keeps the epoch length it was given. -/
theorem FilterParams.make_epochMs {bits hashes epochMs : ℚ} {p : FilterParams}
    (h : make bits hashes epochMs = .ok p) : epochMs = p.epochMs := by
  unfold make at h
  split at h
  · cases h
  · split at h
    · split at h
      · cases h
      · split at h
        · split at h
          · cases h
          · next ms he =>
            cases h
            exact (positiveInteger?_eq_some he).1
        · cases h
    · cases h

structure FilterCounters where
  inserts : ℕ := 0
  lookups : ℕ := 0
  hits : ℕ := 0
  rotations : ℕ := 0
  deriving DecidableEq, Repr

structure CreditFilter where
  params : FilterParams
  key : List UInt8
  t0 : ℚ
  arrays : Fin 2 → List Bool
  counts : Fin 2 → ℕ := fun _ => 0
  currentEpoch : ℕ := 0
  counters : FilterCounters := {}

structure FilterStats where
  epoch : ℕ
  bitsPerGeneration : ℕ
  hashes : ℕ
  popcount : ℕ × ℕ
  fillRatio : ℚ × ℚ
  fprEstimate : ℚ
  counters : FilterCounters
  deriving DecidableEq, Repr

/-- The estimate above which the filter is reported as poisoned. -/
def FPR_POISON_THRESHOLD : ℚ := 1 / 100

/-- The slot of a generation, `epoch & 1`. -/
def slotOf (epoch : ℕ) : Fin 2 := Fin.ofNat 2 epoch

theorem slotOf_add_two (epoch : ℕ) : slotOf (epoch + 2) = slotOf epoch := by
  simp [slotOf, Fin.ext_iff]

theorem slotOf_succ_ne (epoch : ℕ) : slotOf (epoch + 1) ≠ slotOf epoch := by
  simp only [slotOf, Fin.ofNat, ne_eq, Fin.mk.injEq]
  omega

theorem eq_slotOf_or (s : Fin 2) (epoch : ℕ) : s = slotOf epoch ∨ s = slotOf (epoch + 1) := by
  have hs := s.isLt
  simp only [slotOf, Fin.ofNat, Fin.ext_iff]
  omega

/-- Writing the slots of two successive generations writes both. -/
theorem update_slots {α : Type*} (g : Fin 2 → α) (epoch : ℕ) (x : α) :
    Function.update (Function.update g (slotOf (epoch + 1)) x) (slotOf (epoch + 2)) x =
      fun _ => x := by
  funext s
  rw [slotOf_add_two, Function.update_apply, Function.update_apply]
  rcases eq_slotOf_or s epoch with rfl | rfl <;> simp

namespace CreditFilter

/-- An empty generation. -/
def blank (p : FilterParams) : List Bool := List.replicate p.bits false

/-- `new CreditFilter(...)`, where the clock reads `now` and the key is given or drawn. -/
def init (p : FilterParams) (key : List UInt8) (now : ℚ) : CreditFilter :=
  { params := p, key, t0 := now, arrays := fun _ => blank p }

/-- The epoch of a clock reading. -/
def epochNow (now : ℚ) (f : CreditFilter) : ℕ := (⌊(now - f.t0) / f.params.epochMs⌋).toNat

/-- Zeroes the slot of the generation that is being entered. -/
def enter (f : CreditFilter) (entering : ℕ) : CreditFilter :=
  { f with
    arrays := Function.update f.arrays (slotOf entering) (blank f.params)
    counts := Function.update f.counts (slotOf entering) 0
    counters := { f.counters with rotations := f.counters.rotations + 1 } }

/-- Moves to an epoch, if it is ahead, zeroing every generation that has aged out. -/
def advanceTo (target : ℕ) (f : CreditFilter) : CreditFilter :=
  if target > f.currentEpoch then
    let steps := min (target - f.currentEpoch) 2
    { (List.range steps).foldl (fun f step => f.enter (target - steps + (step + 1))) f with
      currentEpoch := target }
  else f

/-- Moves to the epoch of the clock reading. Called first by every operation. -/
def advance (now : ℚ) (f : CreditFilter) : CreditFilter × ℕ :=
  let f := f.advanceTo (f.epochNow now)
  (f, f.currentEpoch)

def digest (C : Crypto) (f : CreditFilter) (token : List UInt8) : Digest :=
  C.hmacSha256 f.key token

/-- Enhanced double hashing in 32-bit unsigned arithmetic. -/
def index (p : FilterParams) (d : Digest) (i : ℕ) : ℕ :=
  let h1 := readUInt32LE d 0 (by decide)
  let h2 := readUInt32LE d 4 (by decide) ||| 1
  ((h1 + i.toUInt32 * h2 + i.toUInt32 * i.toUInt32) &&& (p.bits - 1).toUInt32).toNat

/-- Whether every bit of the digest is set in an array. -/
def testArray (p : FilterParams) (array : List Bool) (d : Digest) : Bool :=
  (List.range p.hashes).all fun i => array.getD (index p d i) false

def test (f : CreditFilter) (slot : Fin 2) (d : Digest) : Bool :=
  testArray f.params (f.arrays slot) d

/-- Whether the digest is in the current or the previous generation. -/
def has (now : ℚ) (d : Digest) (f : CreditFilter) : CreditFilter × Bool :=
  let (f, epoch) := f.advance now
  let hit := f.test (slotOf epoch) d || (1 ≤ epoch && f.test (slotOf (epoch - 1)) d)
  ({ f with counters := { f.counters with
      lookups := f.counters.lookups + 1
      hits := if hit then f.counters.hits + 1 else f.counters.hits } }, hit)

/-- Whether the digest is in the active generation. -/
def hasInActive (now : ℚ) (d : Digest) (f : CreditFilter) : CreditFilter × Bool :=
  let (f, epoch) := f.advance now
  (f, f.test (slotOf epoch) d)

/-- Sets the bits of the digest, counting those that were not set. -/
def setBits (p : FilterParams) (d : Digest) (array : List Bool) (count : ℕ) : List Bool × ℕ :=
  (List.range p.hashes).foldl (fun (array, count) i =>
    if array.getD (index p d i) false then (array, count)
    else (array.set (index p d i) true, count + 1)) (array, count)

/-- Enrolls into the active generation. -/
def insert (now : ℚ) (d : Digest) (f : CreditFilter) : CreditFilter :=
  let (f, epoch) := f.advance now
  let slot := slotOf epoch
  let r := setBits f.params d (f.arrays slot) (f.counts slot)
  { f with
    arrays := Function.update f.arrays slot r.1
    counts := Function.update f.counts slot r.2
    counters := { f.counters with inserts := f.counters.inserts + 1 } }

def stats (now : ℚ) (f : CreditFilter) : CreditFilter × FilterStats :=
  let (f, epoch) := f.advance now
  let active := f.counts (slotOf epoch)
  let previous := if 1 ≤ epoch then f.counts (slotOf (epoch - 1)) else 0
  let fill (count : ℕ) : ℚ := count / f.params.bits
  let fpr (count : ℕ) : ℚ := fill count ^ f.params.hashes
  (f, { epoch, bitsPerGeneration := f.params.bits, hashes := f.params.hashes,
        popcount := (active, previous), fillRatio := (fill active, fill previous),
        fprEstimate := 1 - (1 - fpr active) * (1 - fpr previous), counters := f.counters })

/-! ## Advancing -/

/-- Moving from epoch `c` to epoch `t` ages a slot out: it held a generation before `t - 1`. -/
def Aged (c t : ℕ) (s : Fin 2) : Prop := c < t ∧ (c + 2 ≤ t ∨ s = slotOf t)

instance (c t : ℕ) (s : Fin 2) : Decidable (Aged c t s) :=
  inferInstanceAs (Decidable (_ ∧ (_ ∨ _)))

/-- What ages out on the way to a later epoch ages out on the way there directly. -/
theorem aged_max (c a b : ℕ) (s : Fin 2) :
    Aged c (max a b) s ↔ Aged (max c a) b s ∨ Aged c a s := by
  rcases Nat.lt_or_ge c a with hca | hca
  · rcases Nat.lt_or_ge a b with hab | hab
    · rw [max_eq_right hab.le, max_eq_right hca.le]
      refine ⟨fun _ => ?_, fun _ => ⟨by omega, Or.inl (by omega)⟩⟩
      rcases Nat.lt_or_ge (a + 1) b with h2 | h2
      · exact Or.inl ⟨hab, Or.inl h2⟩
      · obtain rfl : b = a + 1 := by omega
        rcases eq_slotOf_or s a with h | h
        · exact Or.inr ⟨hca, Or.inr h⟩
        · exact Or.inl ⟨hab, Or.inr h⟩
    · have hb : ¬Aged (max c a) b s := fun h => by have := h.1; omega
      rw [max_eq_left hab, or_iff_right hb]
  · have ha : ¬Aged c a s := fun h => by have := h.1; omega
    rw [max_eq_left hca, or_iff_left ha]
    rcases Nat.lt_or_ge c b with hcb | hcb
    · rw [max_eq_right (by omega)]
    · exact iff_of_false (fun h => by have := h.1; omega) (fun h => by have := h.1; omega)

/-- What advancing does to every field. -/
theorem advanceTo_eq (f : CreditFilter) (t : ℕ) : f.advanceTo t = { f with
    arrays := fun s => if Aged f.currentEpoch t s then blank f.params else f.arrays s
    counts := fun s => if Aged f.currentEpoch t s then 0 else f.counts s
    currentEpoch := max f.currentEpoch t
    counters := { f.counters with
      rotations := f.counters.rotations + min (t - f.currentEpoch) 2 } } := by
  unfold advanceTo
  split
  · next h =>
    rcases Nat.lt_or_ge t (f.currentEpoch + 2) with h2 | h2
    · obtain rfl : t = f.currentEpoch + 1 := by omega
      simp [enter, Aged, Function.update_apply, funext_iff]
    · obtain ⟨u, rfl⟩ : ∃ u, t = u + 2 := ⟨t - 2, by omega⟩
      have hs : min (u + 2 - f.currentEpoch) 2 = 2 := by omega
      have hmax : max f.currentEpoch (u + 2) = u + 2 := by omega
      simp only [hs, hmax, List.range_succ, List.range_zero, List.nil_append, List.foldl_append,
        List.foldl_cons, List.foldl_nil, enter, Nat.add_sub_cancel, Aged, h2, true_or, and_true,
        if_pos h, update_slots]
  · next h =>
    have hmax : max f.currentEpoch t = f.currentEpoch := by omega
    have hsub : t - f.currentEpoch = 0 := by omega
    have hlt : ¬f.currentEpoch < t := by omega
    simp [Aged, hmax, hsub, hlt]

variable (f : CreditFilter) (now : ℚ) (d : Digest) {t : ℕ}

theorem advanceTo_of_le (h : t ≤ f.currentEpoch) : f.advanceTo t = f := if_neg (not_lt.2 h)

@[simp] theorem params_advanceTo : (f.advanceTo t).params = f.params := by rw [advanceTo_eq]

@[simp] theorem t0_advanceTo : (f.advanceTo t).t0 = f.t0 := by rw [advanceTo_eq]

@[simp] theorem key_advanceTo : (f.advanceTo t).key = f.key := by rw [advanceTo_eq]

@[simp] theorem currentEpoch_advanceTo :
    (f.advanceTo t).currentEpoch = max f.currentEpoch t := by
  rw [advanceTo_eq]

theorem arrays_advanceTo (s : Fin 2) : (f.advanceTo t).arrays s =
    if Aged f.currentEpoch t s then blank f.params else f.arrays s := by
  rw [advanceTo_eq]

@[simp] theorem digest_advance (C : Crypto) (token : List UInt8) :
    (f.advance now).1.digest C token = f.digest C token := by
  simp [digest, advance]

/-- The epoch follows the clock. -/
theorem epochNow_mono {now now' : ℚ} (h : now ≤ now') : f.epochNow now ≤ f.epochNow now' := by
  apply Int.toNat_le_toNat
  apply Int.floor_mono
  gcongr

/-! ## What the answers depend on -/

/-- The filter without its counters. -/
def core : CreditFilter := { f with counters := {} }

@[simp] theorem core_core : f.core.core = f.core := rfl

theorem core_advanceTo : (f.advanceTo t).core = (f.core.advanceTo t).core := by
  rw [advanceTo_eq, advanceTo_eq]; rfl

/-- Advancing twice is advancing once to the later epoch, the counters apart. -/
theorem core_advanceTo_advanceTo (f : CreditFilter) (a b : ℕ) :
    ((f.advanceTo a).advanceTo b).core = (f.advanceTo (max a b)).core := by
  rw [advanceTo_eq, advanceTo_eq, advanceTo_eq]
  simp only [core, CreditFilter.mk.injEq, true_and, and_true]
  refine ⟨?_, ?_, by omega⟩ <;> funext s <;>
    simp only [aged_max, ← ite_or]

theorem core_insert : (f.insert now d).core = (f.core.insert now d).core := by
  simp only [insert, advance, advanceTo_eq]; rfl

/-- A lookup only counts, the advance apart. -/
theorem core_has : (f.has now d).1.core = (f.advance now).1.core := rfl

theorem has_snd_core : (f.has now d).2 = (f.core.has now d).2 := by
  simp only [has, advance, advanceTo_eq]; rfl

theorem hasInActive_snd_core : (f.hasInActive now d).2 = (f.core.hasInActive now d).2 := by
  simp only [hasInActive, advance, advanceTo_eq]; rfl

theorem core_advance : (f.advance now).1.core = (f.core.advance now).1.core := by
  simp only [advance, advanceTo_eq]; rfl

theorem fields_of_core_eq {f f' : CreditFilter} (h : f'.core = f.core) :
    f'.currentEpoch = f.currentEpoch ∧ f'.arrays = f.arrays ∧ f'.params = f.params := by
  simp only [core, CreditFilter.mk.injEq] at h
  exact ⟨h.2.2.2.2.2.1, h.2.2.2.1, h.1⟩

section Congr

variable {f f' : CreditFilter} (h : f'.core = f.core)
include h

theorem core_advance_congr (now : ℚ) : (f'.advance now).1.core = (f.advance now).1.core := by
  rw [core_advance, h, ← core_advance]

theorem has_snd_congr (now : ℚ) (d : Digest) : (f'.has now d).2 = (f.has now d).2 := by
  rw [has_snd_core, h, ← has_snd_core]

theorem hasInActive_snd_congr (now : ℚ) (d : Digest) :
    (f'.hasInActive now d).2 = (f.hasInActive now d).2 := by
  rw [hasInActive_snd_core, h, ← hasInActive_snd_core]

theorem core_insert_congr (now : ℚ) (d : Digest) :
    (f'.insert now d).core = (f.insert now d).core := by
  rw [core_insert, h, ← core_insert]

theorem digest_congr (C : Crypto) : f'.digest C = f.digest C := by
  simp only [core, CreditFilter.mk.injEq] at h
  funext token
  rw [digest, h.2.1]
  rfl

end Congr

/-- `f'` is `f` after it has advanced, and perhaps counted. -/
def Moved (f f' : CreditFilter) : Prop := ∃ m, f'.core = (f.advanceTo m).core

theorem Moved.refl (f : CreditFilter) : Moved f f :=
  ⟨0, by rw [advanceTo_of_le f (Nat.zero_le _)]⟩

theorem Moved.trans {f g h : CreditFilter} (hfg : Moved f g) (hgh : Moved g h) : Moved f h := by
  obtain ⟨a, ha⟩ := hfg
  obtain ⟨b, hb⟩ := hgh
  exact ⟨max a b, by rw [hb, core_advanceTo, ha, ← core_advanceTo, core_advanceTo_advanceTo]⟩

theorem moved_advance : Moved f (f.advance now).1 := ⟨_, rfl⟩

theorem moved_has : Moved f (f.has now d).1 := ⟨_, rfl⟩

theorem moved_hasInActive : Moved f (f.hasInActive now d).1 := ⟨_, rfl⟩

theorem moved_stats : Moved f (f.stats now).1 := ⟨_, rfl⟩

variable {f now d}

theorem Moved.currentEpoch_le {f f' : CreditFilter} (h : Moved f f') :
    f.currentEpoch ≤ f'.currentEpoch := by
  obtain ⟨m, hm⟩ := h
  rw [(fields_of_core_eq hm).1, currentEpoch_advanceTo]
  exact le_max_left _ _

theorem Moved.constants {f f' : CreditFilter} (h : Moved f f') :
    f'.params = f.params ∧ f'.key = f.key ∧ f'.t0 = f.t0 := by
  obtain ⟨m, hm⟩ := h
  simp only [advanceTo_eq, core, CreditFilter.mk.injEq] at hm
  exact ⟨hm.1, hm.2.1, hm.2.2.1⟩

theorem insert_constants : (f.insert now d).params = f.params ∧ (f.insert now d).key = f.key ∧
    (f.insert now d).t0 = f.t0 := by
  simp [insert, advance]

@[simp] theorem currentEpoch_advance : (f.advance now).1.currentEpoch = (f.advance now).2 := rfl

@[simp] theorem currentEpoch_has : (f.has now d).1.currentEpoch = (f.advance now).2 := rfl

@[simp] theorem epochNow_advance (r : ℚ) :
    (f.advance now).1.epochNow r = f.epochNow r := by
  simp [advance, epochNow]

theorem advance_snd : (f.advance now).2 = max f.currentEpoch (f.epochNow now) := by
  simp [advance]

/-- A filter that was just asked has reached the epoch of the clock. -/
theorem epochNow_has_le : (f.has now d).1.epochNow now ≤ (f.has now d).1.currentEpoch := by
  simp [has, advance, epochNow]

@[simp] theorem currentEpoch_insert : (f.insert now d).currentEpoch = (f.advance now).2 := rfl

/-- `f'` is `f`, except that it may not have advanced as far yet. -/
def Lags (f' f : CreditFilter) : Prop := (f'.advanceTo f.currentEpoch).core = f.core

variable {f' : CreditFilter}

theorem Lags.of_core_eq (h : f'.core = f.core) : Lags f' f := by
  rw [Lags, ← (fields_of_core_eq h).1, advanceTo_of_le f' le_rfl, h]

theorem Lags.params_eq (h : Lags f' f) : f'.params = f.params := by
  have := congrArg CreditFilter.params h
  simpa [core] using this

theorem Lags.t0_eq (h : Lags f' f) : f'.t0 = f.t0 := by
  have := congrArg CreditFilter.t0 h
  simpa [core] using this

/-- Moving the one ahead leaves the other behind. -/
theorem Lags.moved {g : CreditFilter} (h : Lags f' f) (hg : Moved f g) : Lags f' g := by
  obtain ⟨m, hm⟩ := hg
  rw [Lags, hm, (fields_of_core_eq hm).1, currentEpoch_advanceTo, ← core_advanceTo_advanceTo,
    core_advanceTo, h, ← core_advanceTo]

/-- A reading that has reached the epoch of the one ahead brings the two together. -/
theorem Lags.core_advance (h : Lags f' f) (hnow : f.currentEpoch ≤ f.epochNow now) :
    (f'.advance now).1.core = (f.advance now).1.core := by
  have he : f'.epochNow now = f.epochNow now := by
    simp only [epochNow, h.params_eq, h.t0_eq]
  simp only [advance, he]
  rw [core_advanceTo f, ← h, ← core_advanceTo, core_advanceTo_advanceTo, max_eq_right hnow]

theorem Lags.advance_snd (h : Lags f' f) (hnow : f.currentEpoch ≤ f.epochNow now) :
    (f'.advance now).2 = (f.advance now).2 :=
  (fields_of_core_eq (h.core_advance hnow)).1

/-! ## What the filter is for -/

/-- The Bloom array of a list of digests. -/
def bloom (p : FilterParams) (ds : List Digest) : List Bool :=
  ds.foldl (fun array d => (setBits p d array 0).1) (blank p)

theorem setBits_fst (p : FilterParams) (d : Digest) (array : List Bool) (count count' : ℕ) :
    (setBits p d array count).1 = (setBits p d array count').1 := by
  unfold setBits
  generalize List.range p.hashes = is
  induction is generalizing array count count' with
  | nil => rfl
  | cons i is ih =>
    simp only [List.foldl_cons]
    split
    · exact ih _ _ _
    · exact ih _ _ _

/-- The slots are the Bloom arrays of the last two generations, `G x` being the digests that went
into generation `x`. -/
structure Holds (f : CreditFilter) (G : ℕ → List Digest) : Prop where
  future : ∀ x, f.currentEpoch < x → G x = []
  array : ∀ x, x ≤ f.currentEpoch → f.currentEpoch ≤ x + 1 →
    f.arrays (slotOf x) = bloom f.params (G x)

theorem holds_init (p : FilterParams) (key : List UInt8) (now : ℚ) :
    Holds (init p key now) fun _ => [] :=
  ⟨fun _ _ => rfl, fun _ _ _ => rfl⟩

theorem Holds.of_core_eq {G : ℕ → List Digest} (h : Holds f G) (he : f'.core = f.core) :
    Holds f' G := by
  obtain ⟨hE, hA, hP⟩ := fields_of_core_eq he
  refine ⟨fun x hx => h.future x (hE ▸ hx), fun x h1 h2 => ?_⟩
  rw [hA, hP]
  exact h.array x (hE ▸ h1) (hE ▸ h2)

/-- Advancing forgets the generations that can no longer be asked for, and nothing else. -/
theorem Holds.advanceTo {G : ℕ → List Digest} (h : Holds f G) (t : ℕ) :
    Holds (f.advanceTo t) G := by
  constructor
  · intro x hx
    rw [currentEpoch_advanceTo] at hx
    exact h.future x (by omega)
  · intro x h1 h2
    rw [currentEpoch_advanceTo] at h1 h2
    rw [arrays_advanceTo, params_advanceTo]
    split
    · next hc =>
      -- the slot was aged out: its generation is ahead of the old epoch, so nothing went in
      have hx : f.currentEpoch < x := by
        obtain ⟨hlt, h3 | h3⟩ := hc
        · omega
        · rcases Nat.lt_or_ge x t with hxt | hxt
          · have := slotOf_succ_ne x
            rw [show x + 1 = t by omega] at this
            exact absurd h3.symm this
          · omega
      rw [h.future x hx]
      rfl
    · next hc =>
      refine h.array x ?_ (by omega)
      by_contra hlt
      refine hc ⟨by omega, ?_⟩
      rcases Nat.lt_or_ge x t with hxt | hxt
      · exact Or.inl (by omega)
      · exact Or.inr (by rw [show x = t by omega])

theorem Holds.moved {G : ℕ → List Digest} (h : Holds f G) (hm : Moved f f') : Holds f' G :=
  let ⟨m, hm⟩ := hm
  (h.advanceTo m).of_core_eq hm

/-- An insertion goes into the active generation. -/
theorem Holds.insert {G : ℕ → List Digest} (h : Holds f G) (now : ℚ) (d : Digest) :
    Holds (f.insert now d) (Function.update G (f.insert now d).currentEpoch
      (G (f.insert now d).currentEpoch ++ [d])) := by
  have h := h.advanceTo (f.epochNow now)
  have hins : f.insert now d = { f.advanceTo (f.epochNow now) with
      arrays := Function.update (f.advanceTo (f.epochNow now)).arrays
        (slotOf (f.advanceTo (f.epochNow now)).currentEpoch)
        (setBits (f.advanceTo (f.epochNow now)).params d ((f.advanceTo (f.epochNow now)).arrays
          (slotOf (f.advanceTo (f.epochNow now)).currentEpoch)) 0).1
      counts := (f.insert now d).counts
      counters := (f.insert now d).counters } := by
    rw [← setBits_fst]; rfl
  rw [hins]
  generalize f.advanceTo (f.epochNow now) = g at h
  constructor
  · intro x hx
    rw [Function.update_apply, if_neg (Nat.ne_of_gt hx)]
    exact h.future x hx
  · intro x h1 h2
    dsimp only at h1 h2 ⊢
    rw [Function.update_apply, Function.update_apply]
    rcases Nat.lt_or_ge x g.currentEpoch with hx | hx
    · have hslot : slotOf x ≠ slotOf g.currentEpoch := by
        rw [show g.currentEpoch = x + 1 by omega]
        exact (slotOf_succ_ne x).symm
      rw [if_neg hslot, if_neg (by omega)]
      exact h.array x h1 h2
    · obtain rfl : x = g.currentEpoch := by omega
      rw [if_pos rfl, if_pos rfl, h.array _ le_rfl (by omega), bloom, bloom, List.foldl_append]
      rfl

/-- The two slots an advanced filter is asked about are the arrays of the last two lists. -/
theorem Holds.hit_iff {G : ℕ → List Digest} (h : Holds f G) :
    (f.test (slotOf f.currentEpoch) d ||
        (1 ≤ f.currentEpoch && f.test (slotOf (f.currentEpoch - 1)) d)) = true ↔
      ∃ x, x ≤ f.currentEpoch ∧ f.currentEpoch ≤ x + 1 ∧
        testArray f.params (bloom f.params (G x)) d = true := by
  simp only [Bool.or_eq_true, Bool.and_eq_true, decide_eq_true_eq, test]
  constructor
  · rintro (hit | ⟨h1, hit⟩)
    · exact ⟨f.currentEpoch, le_rfl, by omega, by rwa [← h.array _ le_rfl (by omega)]⟩
    · exact ⟨f.currentEpoch - 1, by omega, by omega,
        by rwa [← h.array _ (by omega) (by omega)]⟩
  · rintro ⟨x, h1, h2, hit⟩
    rw [← h.array x h1 h2] at hit
    rcases Nat.lt_or_ge x f.currentEpoch with hx | hx
    · obtain rfl : x = f.currentEpoch - 1 := by omega
      exact Or.inr ⟨by omega, hit⟩
    · obtain rfl : x = f.currentEpoch := by omega
      exact Or.inl hit

/-- A lookup is positive exactly when the Bloom array of the current or of the previous
generation is. -/
theorem Holds.has_iff {G : ℕ → List Digest} (h : Holds f G) :
    (f.has now d).2 = true ↔ ∃ x, x ≤ (f.advance now).2 ∧ (f.advance now).2 ≤ x + 1 ∧
      testArray f.params (bloom f.params (G x)) d = true := by
  have h := (h.advanceTo (f.epochNow now)).hit_iff (d := d)
  rw [params_advanceTo] at h
  exact h

end CreditFilter

end Limitmark.Lanes
