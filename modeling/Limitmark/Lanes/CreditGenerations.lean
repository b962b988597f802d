import Limitmark.Foundations.Run
import Limitmark.Lanes.CreditFilter

/-!
# The two generations of the credit filter

The specification of `CreditFilter` over whole runs: a lookup at epoch `e` is positive exactly when
all positions of the digest were set by insertions of epoch `e`, or all by insertions of epoch
`e - 1`, and the recorded counts are the numbers of set bits (`has_iff_generations`). It does not
matter at which calls the filter noticed that an epoch was over.
-/

namespace Limitmark.Lanes

open Limitmark.Defense Limitmark.Foundations

namespace CreditFilter

/-! ## Calls -/

inductive FilterOp
  | insert (d : Digest)
  | has (d : Digest)
  | hasInActive (d : Digest)
  | advance
  | stats

/-- A call, with the reading of its clock. -/
structure FilterCall where
  now : ℚ
  op : FilterOp

/-- One call, and the answer of a lookup. -/
def step (f : CreditFilter) (c : FilterCall) : CreditFilter × Option Bool :=
  match c.op with
  | .insert d => (f.insert c.now d, none)
  | .has d => ((f.has c.now d).1, some (f.has c.now d).2)
  | .hasInActive d => ((f.hasInActive c.now d).1, some (f.hasInActive c.now d).2)
  | .advance => ((f.advance c.now).1, none)
  | .stats => ((f.stats c.now).1, none)

/-- The clock never steps back. -/
def Clocked (t0 : ℚ) (calls : List FilterCall) : Prop :=
  Paced (fun t c => t ≤ c.now) (fun _ c => c.now) t0 calls

/-- The epoch of a reading, on a filter that was made at `t0`. -/
def epochAt (p : FilterParams) (t0 now : ℚ) : ℕ := (⌊(now - t0) / p.epochMs⌋).toNat

/-- What a call inserts in an epoch. -/
def insertion (p : FilterParams) (t0 : ℚ) (x : ℕ) (c : FilterCall) : Option Digest :=
  match c.op with
  | .insert d => if epochAt p t0 c.now = x then some d else none
  | _ => none

/-- The digests that calls insert in an epoch. -/
def insertedIn (p : FilterParams) (t0 : ℚ) (calls : List FilterCall) (x : ℕ) : List Digest :=
  calls.filterMap (insertion p t0 x)

/-- The bit positions of a digest. -/
def positions (p : FilterParams) (d : Digest) : List ℕ := (List.range p.hashes).map (index p d)

/-- Every position of the digest is a position of one of those inserted. -/
def Covered (p : FilterParams) (ds : List Digest) (d : Digest) : Prop :=
  ∀ k ∈ positions p d, ∃ d' ∈ ds, k ∈ positions p d'

/-! ## Bits -/

theorem index_lt (p : FilterParams) (d : Digest) (i : ℕ) : index p d i < p.bits := by
  have hrange := p.bits_range
  have hmask : ((p.bits - 1).toUInt32).toNat = p.bits - 1 := by
    rw [Nat.toUInt32_eq, UInt32.toNat_ofNat']
    exact Nat.mod_eq_of_lt (by omega)
  rw [index, UInt32.toNat_and, hmask]
  exact lt_of_le_of_lt Nat.and_le_right (by omega)

/-- One bit that is set, unless it is. -/
def setBit (r : List Bool × ℕ) (k : ℕ) : List Bool × ℕ :=
  if r.1.getD k false then r else (r.1.set k true, r.2 + 1)

theorem setBits_eq (p : FilterParams) (d : Digest) (array : List Bool) (count : ℕ) :
    setBits p d array count = (positions p d).foldl setBit (array, count) := by
  rw [setBits, positions, List.foldl_map]
  rfl

/-- A generation of the right size, with the number of its set bits. -/
structure Counted (p : FilterParams) (r : List Bool × ℕ) : Prop where
  length : r.1.length = p.bits
  count : r.2 = r.1.count true

theorem Counted.setBit {p : FilterParams} {r : List Bool × ℕ} (h : Counted p r) {k : ℕ}
    (hk : k < p.bits) : Counted p (setBit r k) := by
  have hk' : k < r.1.length := h.length ▸ hk
  unfold CreditFilter.setBit
  split
  · exact h
  · next hclear =>
    rw [List.getD_eq_getElem?_getD, List.getElem?_eq_getElem hk', Option.getD_some,
      Bool.not_eq_true] at hclear
    refine ⟨by simpa using h.length, ?_⟩
    rw [List.count_set hk', hclear, h.count]
    simp

theorem getD_setBit {p : FilterParams} {r : List Bool × ℕ} (h : Counted p r) {k j : ℕ}
    (hk : k < p.bits) : (setBit r k).1.getD j false = true ↔ r.1.getD j false = true ∨ j = k := by
  have hk' : k < r.1.length := h.length ▸ hk
  unfold CreditFilter.setBit
  split
  · next hset =>
    refine ⟨.inl, ?_⟩
    rintro (hj | rfl)
    · exact hj
    · exact hset
  · rw [List.getD_eq_getElem?_getD, List.getD_eq_getElem?_getD, List.getElem?_set]
    by_cases hj : k = j
    · subst hj
      simp [hk']
    · simp [hj, Ne.symm hj]

theorem lt_of_mem_positions {p : FilterParams} {d : Digest} {k : ℕ} (h : k ∈ positions p d) :
    k < p.bits := by
  obtain ⟨i, -, rfl⟩ := List.mem_map.1 h
  exact index_lt p d i

theorem Counted.foldl_setBit {p : FilterParams} {r : List Bool × ℕ} (h : Counted p r) {ks : List ℕ}
    (hks : ∀ k ∈ ks, k < p.bits) : Counted p (ks.foldl CreditFilter.setBit r) ∧
      ∀ j, (ks.foldl CreditFilter.setBit r).1.getD j false = true ↔
        r.1.getD j false = true ∨ j ∈ ks := by
  induction ks generalizing r with
  | nil => exact ⟨h, fun j => by simp⟩
  | cons k ks ih =>
    obtain ⟨hk, hks⟩ := List.forall_mem_cons.1 hks
    obtain ⟨hcounted, hbits⟩ := ih (h.setBit hk) hks
    refine ⟨hcounted, fun j => ?_⟩
    rw [List.foldl_cons, hbits, getD_setBit h hk, List.mem_cons, or_assoc]

theorem Counted.setBits {p : FilterParams} {array : List Bool} {count : ℕ}
    (h : Counted p (array, count)) (d : Digest) : Counted p (setBits p d array count) := by
  rw [setBits_eq]
  exact (h.foldl_setBit fun k hk => lt_of_mem_positions hk).1

/-- The positions of a digest are set, and the others are as they were. -/
theorem getD_setBits {p : FilterParams} {array : List Bool} {count : ℕ}
    (h : Counted p (array, count)) (d : Digest) (j : ℕ) :
    (setBits p d array count).1.getD j false = true ↔
      array.getD j false = true ∨ j ∈ positions p d := by
  rw [setBits_eq]
  exact (h.foldl_setBit fun k hk => lt_of_mem_positions hk).2 j

theorem counted_blank (p : FilterParams) : Counted p (blank p, 0) := by
  refine ⟨List.length_replicate, ?_⟩
  rw [blank, List.count_replicate]
  rfl

/-- The bits of a Bloom array are the positions of what went in. -/
theorem getD_bloom (p : FilterParams) (ds : List Digest) (j : ℕ) :
    (bloom p ds).getD j false = true ↔ ∃ d ∈ ds, j ∈ positions p d := by
  have hfold (array : List Bool) (h : array.length = p.bits) :
      (ds.foldl (fun array d => (setBits p d array 0).1) array).getD j false = true ↔
        array.getD j false = true ∨ ∃ d ∈ ds, j ∈ positions p d := by
    induction ds generalizing array with
    | nil => simp
    | cons d ds ih =>
      have hcounted : Counted p (array, array.count true) := ⟨h, rfl⟩
      have hset := setBits_fst p d array 0 (array.count true)
      rw [List.foldl_cons, hset, ih _ (hcounted.setBits d).length, getD_setBits hcounted d]
      simp [or_assoc]
  have hblank : ¬ (blank p).getD j false = true := by
    rw [blank, List.getD_eq_getElem?_getD, List.getElem?_replicate]
    split <;> simp
  rw [bloom, hfold (blank p) List.length_replicate, or_iff_right hblank]

/-- **A lookup in a Bloom array is positive exactly when the digest is covered.** -/
theorem testArray_bloom (p : FilterParams) (ds : List Digest) (d : Digest) :
    testArray p (bloom p ds) d = true ↔ Covered p ds d := by
  rw [testArray, List.all_eq_true, Covered, positions, List.forall_mem_map]
  exact forall₂_congr fun i _ => getD_bloom p ds _

/-! ## Runs -/

/-- The recorded counts are the numbers of set bits. -/
def PopCounted (f : CreditFilter) : Prop :=
  ∀ slot, Counted f.params (f.arrays slot, f.counts slot)

theorem PopCounted.advanceTo {f : CreditFilter} (h : PopCounted f) (t : ℕ) :
    PopCounted (f.advanceTo t) := by
  intro slot
  rw [advanceTo_eq]
  dsimp only
  split
  · exact counted_blank f.params
  · exact h slot

theorem PopCounted.insert {f : CreditFilter} (h : PopCounted f) (now : ℚ) (d : Digest) :
    PopCounted (f.insert now d) := by
  have hadvanced := h.advanceTo (f.epochNow now)
  intro slot
  simp only [CreditFilter.insert, advance, Function.update_apply]
  split
  · exact (hadvanced _).setBits d
  · exact hadvanced slot

/-- What a run of calls has made of a filter. -/
structure Ran (p : FilterParams) (key : List UInt8) (t0 last : ℚ) (calls : List FilterCall)
    (f : CreditFilter) : Prop where
  constants : f.params = p ∧ f.key = key ∧ f.t0 = t0
  reached : f.currentEpoch ≤ epochAt p t0 last
  generations : Holds f (insertedIn p t0 calls)
  counts : PopCounted f

variable {p : FilterParams} {key : List UInt8} {t0 last : ℚ} {calls : List FilterCall}
  {f : CreditFilter}

theorem Ran.epochNow (h : Ran p key t0 last calls f) (now : ℚ) : f.epochNow now = epochAt p t0 now := by
  obtain ⟨rfl, -, rfl⟩ := h.constants
  rfl

/-- A call whose reading is no earlier than the last brings the filter to its epoch. -/
theorem Ran.advance_snd (h : Ran p key t0 last calls f) {now : ℚ} (hnow : last ≤ now) :
    (f.advance now).2 = epochAt p t0 now := by
  have hmono := f.epochNow_mono hnow
  rw [h.epochNow, h.epochNow] at hmono
  rw [CreditFilter.advance_snd, h.epochNow]
  exact max_eq_right (h.reached.trans hmono)

/-- A call that inserts nothing. -/
theorem Ran.moved (h : Ran p key t0 last calls f) {c : FilterCall} (hlast : last ≤ c.now)
    {f' : CreditFilter} (hmoved : Moved f f') (hepoch : f'.currentEpoch = (f.advance c.now).2)
    (hcounts : PopCounted f') (hnone : ∀ x, insertion p t0 x c = none) :
    Ran p key t0 c.now (calls ++ [c]) f' := by
  obtain ⟨hparams, hkey, ht0⟩ := hmoved.constants
  refine ⟨by rw [hparams, hkey, ht0]; exact h.constants, ?_, ?_, hcounts⟩
  · rw [hepoch, h.advance_snd hlast]
  · have hsame : insertedIn p t0 (calls ++ [c]) = insertedIn p t0 calls := by
      funext x
      simp [insertedIn, List.filterMap_append, hnone]
    rw [hsame]
    exact h.generations.moved hmoved

theorem Ran.step (h : Ran p key t0 last calls f) {c : FilterCall} (hlast : last ≤ c.now) :
    Ran p key t0 c.now (calls ++ [c]) (f.step c).1 := by
  have hadvanced := h.counts.advanceTo (f.epochNow c.now)
  rcases c with ⟨now, op⟩
  cases op with
  | has d => exact h.moved hlast (moved_has f now d) rfl hadvanced fun _ => rfl
  | hasInActive d => exact h.moved hlast (moved_hasInActive f now d) rfl hadvanced fun _ => rfl
  | advance => exact h.moved hlast (moved_advance f now) rfl hadvanced fun _ => rfl
  | stats => exact h.moved hlast (moved_stats f now) rfl hadvanced fun _ => rfl
  | insert d =>
    have hepoch : (f.insert now d).currentEpoch = epochAt p t0 now :=
      currentEpoch_insert.trans (h.advance_snd hlast)
    obtain ⟨hparams, hkey, ht0⟩ := @insert_constants f now d
    refine ⟨by rw [CreditFilter.step, hparams, hkey, ht0]; exact h.constants, hepoch.le, ?_,
      h.counts.insert now d⟩
    have hgenerations := h.generations.insert now d
    rw [hepoch] at hgenerations
    have hsame : insertedIn p t0 (calls ++ [⟨now, .insert d⟩]) =
        Function.update (insertedIn p t0 calls) (epochAt p t0 now)
          (insertedIn p t0 calls (epochAt p t0 now) ++ [d]) := by
      funext x
      rw [Function.update_apply, insertedIn, List.filterMap_append]
      by_cases hx : x = epochAt p t0 now
      · subst hx
        simp [insertion, insertedIn]
      · simp [insertion, insertedIn, hx, Ne.symm hx]
    rw [hsame]
    exact hgenerations

theorem ran_init : Ran p key t0 t0 [] (init p key t0) where
  constants := ⟨rfl, rfl, rfl⟩
  reached := Nat.zero_le _
  generations := holds_init p key t0
  counts := fun _ => counted_blank p

theorem Ran.exec {is : List FilterCall} (h : Clocked t0 is) :
    Ran p key t0 (is.foldl (fun _ c => c.now) t0) is (exec CreditFilter.step (init p key t0) is) := by
  induction is using List.reverseRecOn with
  | nil => exact ran_init
  | append_singleton is c ih =>
    obtain ⟨his, hc⟩ := (paced_append _ _ _).1 h
    rw [exec_append, List.foldl_append]
    exact (ih his).step hc.1

/-- **The filter is that of two generations.** A lookup at epoch `e` is positive exactly when the
digest is covered by the insertions of epoch `e`, or by those of epoch `e - 1`; and the recorded
counts are the numbers of set bits. -/
theorem has_iff_generations (p : FilterParams) (key : List UInt8) (t0 : ℚ)
    (calls : List FilterCall) (hcalls : Clocked t0 calls) :
    (∀ now d, calls.foldl (fun _ c => c.now) t0 ≤ now →
      (((exec CreditFilter.step (init p key t0) calls).has now d).2 = true ↔
        Covered p (insertedIn p t0 calls (epochAt p t0 now)) d ∨
          1 ≤ epochAt p t0 now ∧ Covered p (insertedIn p t0 calls (epochAt p t0 now - 1)) d)) ∧
      ∀ slot, (exec CreditFilter.step (init p key t0) calls).counts slot =
        ((exec CreditFilter.step (init p key t0) calls).arrays slot).count true := by
  have hran : Ran p key t0 _ calls _ := Ran.exec hcalls
  refine ⟨fun now d hnow => ?_, fun slot => (hran.counts slot).count⟩
  rw [hran.generations.has_iff, hran.advance_snd hnow, hran.constants.1]
  simp only [testArray_bloom]
  constructor
  · rintro ⟨x, hle, hrecent, hcovered⟩
    rcases Nat.lt_or_ge x (epochAt p t0 now) with hx | hx
    · obtain rfl : x = epochAt p t0 now - 1 := by omega
      exact .inr ⟨by omega, hcovered⟩
    · obtain rfl : x = epochAt p t0 now := by omega
      exact .inl hcovered
  · rintro (hcovered | ⟨hone, hcovered⟩)
    · exact ⟨_, le_rfl, Nat.le_succ _, hcovered⟩
    · exact ⟨_, Nat.sub_le _ _, by omega, hcovered⟩

def sampleParams : FilterParams :=
  ⟨64, 1, 1000, by decide, by decide, by decide, by decide⟩

def sampleDigest : Digest := Vector.replicate 32 7

/-- A digest goes in at epoch 0, and the filter is asked at epoch 1. -/
def sampleCalls : List FilterCall := [⟨500, .insert sampleDigest⟩, ⟨1200, .advance⟩]

theorem has_iff_generations_sample :
    ((exec CreditFilter.step (init sampleParams [] 0) sampleCalls).has 1999 sampleDigest).2 = true := by
  have hclocked : Clocked 0 sampleCalls := ⟨by decide, by decide, trivial⟩
  refine ((has_iff_generations sampleParams [] 0 sampleCalls hclocked).1 1999 sampleDigest
    (by decide)).2 (.inr ⟨by decide +kernel, ?_⟩)
  have hin : sampleDigest ∈
      insertedIn sampleParams 0 sampleCalls (epochAt sampleParams 0 1999 - 1) := by
    have hepoch : epochAt sampleParams 0 1999 - 1 = epochAt sampleParams 0 500 := by decide +kernel
    simp [insertedIn, sampleCalls, insertion, hepoch]
  exact fun k hk => ⟨sampleDigest, hin, hk⟩

end CreditFilter

end Limitmark.Lanes
