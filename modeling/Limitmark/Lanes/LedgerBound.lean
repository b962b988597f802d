import Limitmark.Lanes.JourneyLanes

/-!
# The use ledger never fills

Every record of the use ledger is the trace of a token taken from the credited bucket, and a
record lives for two epochs. So the number of records made since an epoch began is bounded by what
the bucket can have let through since then (`Funded`), the records that survive the purge at the
start of a decision are at most two epochs old, and the capacity the constructor asks for is one
more than that.

The purge, the take and the commit of one decision happen at different readings. `Funded` is
therefore kept for every epoch at once, and the bucket's own clock stands for the time of the
commits.
-/

namespace Limitmark.Lanes.JourneyLanes

open Limitmark.Defense Limitmark.Foundations

/-- The number of records whose first use was in epoch `w` or later. -/
def recordsSince (w : ℕ) (l : UseLedger) : ℕ := l.entries.tally fun r => w ≤ r.firstEpoch

/-- The start of an epoch, in whole milliseconds. -/
def epochStart (s : JourneyLanes) (w : ℕ) : ℤ := ⌊s.filter.t0⌋ + w * s.filter.params.epochMs

/-- Every record made since epoch `w` began was paid for by the credited bucket: from its capacity
at the start of the epoch, or from what its clock has brought in since. -/
def Funded (b : TokenBucket) (n : ℕ) (start : ℤ) : Prop :=
  (0 < n → start ≤ b.lastMs) ∧
    n * UNIT + b.level ≤ b.params.capacityUnits + b.params.refillPerMs * max 0 (b.lastMs - start)

section Funded

variable {b : TokenBucket} {n : ℕ} {start : ℤ} (now : ℚ)

/-- Nothing has to be paid for as long as there is no record. -/
theorem funded_zero (hb : b.level ≤ b.params.capacityUnits) (start : ℤ) : Funded b 0 start := by
  refine ⟨fun h => absurd h (lt_irrefl 0), ?_⟩
  have := mul_nonneg b.params.refillPerMs_pos.le (le_max_left 0 (b.lastMs - start))
  rw [Nat.cast_zero, zero_mul, zero_add]
  omega

theorem Funded.mono {m : ℕ} (hm : m ≤ n) (h : Funded b n start) : Funded b m start := by
  refine ⟨fun hpos => h.1 (hpos.trans_le hm), le_trans ?_ h.2⟩
  have : (m : ℤ) * UNIT ≤ n * UNIT := by
    have := UNIT_pos
    gcongr
  omega

/-- A refill brings in what the clock allows for. -/
theorem Funded.refill (hb : b.level ≤ b.params.capacityUnits) (h : Funded b n start) :
    Funded (b.refill now) n start := by
  rcases Nat.eq_zero_or_pos n with rfl | hn
  · refine funded_zero ?_ start
    rw [TokenBucket.level_refill now b hb, TokenBucket.params_refill]
    exact fill_le_cap _ _ _
  · have hstart := h.1 hn
    have hlast : start ≤ (b.refill now).lastMs := by
      rw [TokenBucket.lastMs_refill]
      exact hstart.trans (le_max_left _ _)
    refine ⟨fun _ => hlast, ?_⟩
    have hsum := h.2
    rw [max_eq_right (sub_nonneg.2 hstart)] at hsum
    rw [max_eq_right (sub_nonneg.2 hlast), TokenBucket.level_refill now b hb,
      TokenBucket.params_refill, TokenBucket.lastMs_refill]
    have hfill := fill_le_add b.params.capacityUnits b.level
      ((max b.lastMs ⌊now⌋ - b.lastMs) * b.params.refillPerMs)
    linarith

/-- A take that sheds only refills. -/
theorem Funded.shed (hb : b.level ≤ b.params.capacityUnits) (hok : (b.take now).2.ok = false)
    (h : Funded b n start) : Funded (b.take now).1 n start := by
  have h := h.refill now hb
  rcases b.take_spec now with ⟨-, htake⟩ | ⟨-, htake⟩
  · rw [htake] at hok; cases hok
  · rw [htake]; exact h

/-- A take that admits pays for one more record, once the epoch has begun. -/
theorem Funded.pay (hb : b.level ≤ b.params.capacityUnits) (hok : (b.take now).2.ok = true)
    (hstart : start ≤ ⌊now⌋) (h : Funded b n start) : Funded (b.take now).1 (n + 1) start := by
  have h := h.refill now hb
  rcases b.take_spec now with ⟨-, htake⟩ | ⟨-, htake⟩
  · rw [htake]
    refine ⟨fun _ => ?_, ?_⟩
    · dsimp only
      rw [TokenBucket.lastMs_refill]
      exact hstart.trans (le_max_right _ _)
    · have hsum := h.2
      dsimp only at hsum ⊢
      push_cast
      linarith
  · rw [htake] at hok; cases hok

/-- An admission that leaves no new record only lowers the level. -/
theorem Funded.spend (hb : b.level ≤ b.params.capacityUnits) (hok : (b.take now).2.ok = true)
    (h : Funded b n start) : Funded (b.take now).1 n start := by
  have h := h.refill now hb
  rcases b.take_spec now with ⟨-, htake⟩ | ⟨-, htake⟩
  · rw [htake]
    have := UNIT_pos
    exact ⟨h.1, le_trans (by dsimp only; omega) h.2⟩
  · rw [htake] at hok; cases hok

end Funded

/-! ## Epochs and readings -/

variable {s : JourneyLanes} {now : ℚ} {w : ℕ}

theorem epochMs_pos (s : JourneyLanes) : (0 : ℚ) < s.filter.params.epochMs := by
  exact_mod_cast s.filter.params.one_le_epochMs

/-- A reading in epoch `w` or later is not before its start. -/
theorem epochStart_le (h0 : s.filter.t0 ≤ now) (hw : w ≤ s.filter.epochNow now) :
    epochStart s w ≤ ⌊now⌋ := by
  have hle : s.filter.t0 + w * s.filter.params.epochMs ≤ now := by
    rcases Nat.eq_zero_or_pos w with rfl | hpos
    · simpa using h0
    · have hfloor : (w : ℤ) ≤ ⌊(now - s.filter.t0) / s.filter.params.epochMs⌋ := by
        unfold CreditFilter.epochNow at hw
        omega
      have h := Int.le_floor.1 hfloor
      rw [le_div_iff₀ (epochMs_pos s)] at h
      push_cast at h
      linarith
  have h := Int.floor_mono hle
  rwa [show s.filter.t0 + (w : ℚ) * s.filter.params.epochMs =
    s.filter.t0 + ((w * s.filter.params.epochMs : ℤ) : ℚ) by push_cast; ring,
    Int.floor_add_intCast] at h

/-- A reading is before the start of the epoch after its own. -/
theorem floor_le_epochStart (s : JourneyLanes) (now : ℚ) :
    ⌊now⌋ ≤ epochStart s (s.filter.epochNow now + 1) := by
  have hlt := Int.lt_floor_add_one ((now - s.filter.t0) / s.filter.params.epochMs)
  have hle : (⌊(now - s.filter.t0) / s.filter.params.epochMs⌋ : ℚ) ≤ s.filter.epochNow now := by
    exact_mod_cast Int.self_le_toNat _
  rw [div_lt_iff₀ (epochMs_pos s)] at hlt
  have hnow : now ≤ s.filter.t0 + (s.filter.epochNow now + 1) * s.filter.params.epochMs := by
    have := mul_le_mul_of_nonneg_right hle (epochMs_pos s).le
    linarith
  have h := Int.floor_mono hnow
  rwa [show s.filter.t0 + ((s.filter.epochNow now : ℚ) + 1) * s.filter.params.epochMs =
    s.filter.t0 + (((s.filter.epochNow now + 1) * s.filter.params.epochMs : ℤ) : ℚ) by
      push_cast; ring, Int.floor_add_intCast] at h

/-! ## The records that survive a purge -/

/-- What the credited bucket can have paid for over two epochs is less than the capacity the
constructor asks for. -/
theorem funded_lt_capacity {config : LanesConfig} {cp : BucketParams} {lp : LedgerParams}
    (hcap : requiredLedgerCapacity config.credited.capacity config.credited.refillPerSecond
      config.epochMs ≤ config.ledgerCapacity)
    (hc : config.credited.capacity = cp.capacity ∧
      config.credited.refillPerSecond = cp.refillPerSecond)
    (hl : config.ledgerCapacity = lp.capacity) {b : TokenBucket} (hb : b.params = cp)
    (hlevel : 0 ≤ b.level) {n L : ℕ} (hL : config.epochMs = L) {start : ℤ}
    (hwindow : b.lastMs - start ≤ 2 * L) (h : Funded b n start) : n < lp.capacity := by
  have hsum := h.2
  rw [hb] at hsum
  have hmax : max 0 (b.lastMs - start) ≤ 2 * L := max_le (by positivity) hwindow
  have hunits : (n : ℤ) * UNIT ≤ cp.capacityUnits + cp.refillPerMs * (2 * L) := by
    have := mul_le_mul_of_nonneg_left hmax cp.refillPerMs_pos.le
    linarith
  have hq : (n : ℚ) * UNIT ≤ cp.capacity * UNIT + cp.refillPerMs * (2 * L) := by
    have := hunits
    rw [BucketParams.capacityUnits] at this
    exact_mod_cast this
  rw [cp.refillPerMs_cast, UNIT] at hq
  push_cast at hq
  have hceil := Int.le_ceil (cp.refillPerSecond * 2 * L / 1000)
  rw [requiredLedgerCapacity, hc.1, hc.2, hL, hl] at hcap
  have hlt : (n : ℚ) < lp.capacity := by linarith
  exact_mod_cast hlt

/-! ## The invariant -/

/-- What every reachable state of the lanes satisfies, when `p` was the last reading. -/
structure LedgerInv (s₀ s : JourneyLanes) (p : ℚ) : Prop where
  constants_eq : s.constants = s₀.constants
  bucket : s.credited.WF
  lastMs_le : s.credited.lastMs ≤ ⌊p⌋
  t0_le : s₀.filter.t0 ≤ p
  epoch_le : s.filter.currentEpoch ≤ s.filter.epochNow p
  purged : s.ledger.Purged
  funded : ∀ w, Funded s.credited (recordsSince w s.ledger) (epochStart s₀ w)
  size_le : s.ledger.entries.size ≤ s.ledger.params.capacity
  refusals : s.ledger.fullRefusals = 0

/-- What the constructor's checks give the invariant to work with. -/
structure Sized (s₀ : JourneyLanes) : Prop where
  required : requiredLedgerCapacity s₀.config.credited.capacity
    s₀.config.credited.refillPerSecond s₀.config.epochMs ≤ s₀.config.ledgerCapacity
  credited : s₀.config.credited.capacity = s₀.credited.params.capacity ∧
    s₀.config.credited.refillPerSecond = s₀.credited.params.refillPerSecond
  ledger : s₀.config.ledgerCapacity = s₀.ledger.params.capacity
  epochMs : s₀.config.epochMs = s₀.filter.params.epochMs

variable {C : Crypto} {s₀ : JourneyLanes} {p : ℚ} {t : Readings}

/-- After the purge at the start of a decision a slot is free. -/
theorem LedgerInv.size_lt (hs : Sized s₀) (h : LedgerInv s₀ s p) (hp : p ≤ now) :
    (s.ledger.maybePurge (s.filter.epochNow now)).entries.size <
      (s.ledger.maybePurge (s.filter.epochNow now)).params.capacity := by
  have hconst := h.constants_eq
  simp only [constants, Prod.mk.injEq] at hconst
  obtain ⟨-, hfilter, -, ht0, hcredited, hledger⟩ := hconst
  have hstart (w : ℕ) : epochStart s w = epochStart s₀ w := by
    simp only [epochStart, ht0, hfilter]
  have hpurged : (s.ledger.maybePurge (s.filter.epochNow now)).Purged := h.purged.maybePurge
  have hsize := hpurged.size_eq
  rw [UseLedger.lastPurgeEpoch_maybePurge] at hsize
  rw [← hsize, UseLedger.params_maybePurge, hledger]
  refine (UseLedger.tally_maybePurge_le _).trans_lt ?_
  refine funded_lt_capacity hs.required hs.credited hs.ledger hcredited h.bucket.level_nonneg
    hs.epochMs ?_ (h.funded (s.filter.epochNow now - 1))
  have hfloor := floor_le_epochStart s now
  rw [hstart] at hfloor
  have hlast := h.lastMs_le.trans (Int.floor_mono hp)
  have hL : (0 : ℤ) ≤ s₀.filter.params.epochMs := Int.natCast_nonneg _
  simp only [epochStart] at hfloor ⊢
  cases hE : s.filter.epochNow now with
  | zero =>
    rw [hE] at hfloor
    rw [Nat.zero_sub]
    push_cast at hfloor ⊢
    linarith
  | succ e =>
    rw [hE] at hfloor
    rw [Nat.add_sub_cancel]
    push_cast at hfloor ⊢
    linarith

/-! ## One step -/

/-- The parts of the invariant that do not look at the credited bucket or the records. -/
theorem LedgerInv.clock (h : LedgerInv s₀ s p) (op : Op × Readings) (hop : Ordered p op) :
    (step C s op).1.constants = s₀.constants ∧ s₀.filter.t0 ≤ op.2.third ∧
      (step C s op).1.filter.currentEpoch ≤ (step C s op).1.filter.epochNow op.2.third := by
  obtain ⟨h1, h2, h3⟩ := hop
  have hconst := constants_step (C := C) (s := s) op
  have hfilter : (step C s op).1.filter.params = s.filter.params ∧
      (step C s op).1.filter.t0 = s.filter.t0 := by
    simp only [constants, Prod.mk.injEq] at hconst
    exact ⟨hconst.2.1, hconst.2.2.2.1⟩
  have hepoch : (step C s op).1.filter.epochNow op.2.third = s.filter.epochNow op.2.third := by
    simp only [CreditFilter.epochNow, hfilter]
  refine ⟨hconst.trans h.constants_eq, h.t0_le.trans (h1.trans (h2.trans h3)), ?_⟩
  rw [hepoch]
  exact currentEpoch_step_le op
    (h.epoch_le.trans (s.filter.epochNow_mono (h1.trans (h2.trans h3))))
    (s.filter.epochNow_mono (h2.trans h3)) (s.filter.epochNow_mono h3) le_rfl

/-- A step that leaves the credited bucket alone and at most purges the ledger. -/
theorem LedgerInv.of_purge (h : LedgerInv s₀ s p) {op : Op × Readings} (hop : Ordered p op)
    (hcredited : (step C s op).1.credited = s.credited)
    (hledger : (step C s op).1.ledger = s.ledger ∨
      ∃ epoch, (step C s op).1.ledger = s.ledger.maybePurge epoch) :
    LedgerInv s₀ (step C s op).1 op.2.third := by
  obtain ⟨hconst, ht0, hepoch⟩ := h.clock (C := C) op hop
  have hp : p ≤ op.2.third := hop.1.trans (hop.2.1.trans hop.2.2)
  refine ⟨hconst, hcredited ▸ h.bucket, ?_, ht0, hepoch, ?_, fun w => ?_, ?_, ?_⟩
  · rw [hcredited]
    exact h.lastMs_le.trans (Int.floor_mono hp)
  all_goals rcases hledger with hl | ⟨epoch, hl⟩ <;> rw [hl]
  · exact h.purged
  · exact h.purged.maybePurge
  · rw [hcredited]
    exact h.funded w
  · rw [hcredited]
    exact (h.funded w).mono (UseLedger.tally_maybePurge_le _)
  · exact h.size_le
  · rw [UseLedger.params_maybePurge, Table.size_eq_tally]
    refine (UseLedger.tally_maybePurge_le _).trans ?_
    rw [← Table.size_eq_tally]
    exact h.size_le
  · exact h.refusals
  · rw [UseLedger.fullRefusals_maybePurge]
    exact h.refusals

/-- A decision keeps the invariant and finds a free slot for its record. -/
theorem LedgerInv.decide (hs : Sized s₀) (h : LedgerInv s₀ s p) (request : LayerRequest)
    (hop : Ordered p (Op.decide request, t)) :
    LedgerInv s₀ (s.decide C t request).1 t.third ∧
      (s.decide C t request).2.errorKind ≠ some .ledgerFull := by
  rcases decide_cases C t request s with ⟨-, hd⟩ | ⟨cls, c, epoch, member, -, -, hc, hd⟩
  · exact ⟨h.of_purge (C := C) hop (by simp [step, hd]) (Or.inl (by simp [step, hd])),
      by simp [hd]⟩
  have hcredited : c.credited = s.credited := by rw [hc.lanes]
  have hledger : c.ledger = s.ledger.maybePurge epoch := by rw [hc.lanes]
  rcases hd with ⟨-, hd⟩ | ⟨d, used, -, hd⟩
  · refine ⟨h.of_purge (C := C) hop ?_ (Or.inr ⟨epoch, ?_⟩), ?_⟩
    · simp [step, hd, decideUnverified_fst, hcredited]
    · simp [step, hd, decideUnverified_fst, hledger]
    · rw [hd, decideUnverified_errorKind]
      simp
  -- the credited tail: the decision works in the epoch of its first reading
  have horder : p ≤ t.first ∧ t.first ≤ t.second ∧ t.second ≤ t.third := hop
  obtain ⟨h1, h2, h3⟩ := horder
  have hepoch : epoch = s.filter.epochNow t.first := by
    rw [hc.epoch_eq, CreditFilter.advance_snd]
    exact max_eq_right (h.epoch_le.trans (s.filter.epochNow_mono h1))
  have hsize : c.ledger.entries.size < c.ledger.params.capacity := by
    rw [hledger, hepoch]
    exact h.size_lt hs h1
  obtain ⟨hconst, ht0, hcur⟩ := h.clock (C := C) (Op.decide request, t) hop
  have hlast : ⌊p⌋ ≤ ⌊t.third⌋ := Int.floor_mono (h1.trans (h2.trans h3))
  have hfunded (w : ℕ) : Funded c.credited (recordsSince w c.ledger) (epochStart s₀ w) := by
    rw [hcredited, hledger]
    exact (h.funded w).mono (UseLedger.tally_maybePurge_le _)
  have hpurged : c.ledger.Purged := hledger ▸ h.purged.maybePurge
  have hrefusals : c.ledger.fullRefusals = 0 := by
    rw [hledger, UseLedger.fullRefusals_maybePurge]
    exact h.refusals
  have hwf : c.credited.WF := hcredited ▸ h.bucket
  have hlevel := hwf.level_le
  have hlastMs : (c.credited.take t.third).1.lastMs ≤ ⌊t.third⌋ := by
    rw [TokenBucket.lastMs_take, hcredited]
    exact max_le (h.lastMs_le.trans hlast) le_rfl
  have hpost : (step C s (Op.decide request, t)).1 = (s.decide C t request).1 := rfl
  rw [hpost] at hconst hcur
  rcases decideCredited_cases C cls c t.third epoch d used
    (UseLedger.roomFor_of_lt used hsize) rfl with ⟨hroom, -⟩ | ⟨-, hok, hdec⟩ | ⟨-, hok, hdec⟩
  · cases hroom
  · rw [hdec] at hd
    rw [hd] at hconst hcur ⊢
    exact ⟨⟨hconst, hwf.take t.third, hlastMs, ht0, hcur, hpurged,
      fun w => (hfunded w).shed t.third hlevel hok, hsize.le, hrefusals⟩, by simp⟩
  · rw [hdec] at hd
    rw [hd] at hconst hcur ⊢
    refine ⟨⟨hconst, hwf.take t.third, hlastMs, ht0, hcur, hpurged.commit ?_, fun w => ?_, ?_, ?_⟩,
      by simp⟩
    · rw [hledger, UseLedger.lastPurgeEpoch_maybePurge]
    · -- a new record counts for the epochs that have begun
      have htally := UseLedger.tally_commit_le c.ledger epoch (digestBase64url d) w
      split at htally
      · next hw =>
        refine ((hfunded w).pay t.third hlevel hok ?_).mono htally
        have hs0 : epochStart s₀ w = epochStart s w := by
          have := h.constants_eq
          simp only [constants, Prod.mk.injEq] at this
          simp only [epochStart, this.2.1, this.2.2.2.1]
        have ht0' : s.filter.t0 ≤ t.first := by
          have := h.constants_eq
          simp only [constants, Prod.mk.injEq] at this
          rw [this.2.2.2.1]
          exact h.t0_le.trans h1
        rw [hs0]
        exact (epochStart_le ht0' (hepoch ▸ hw)).trans (Int.floor_mono (h2.trans h3))
      · exact ((hfunded w).spend t.third hlevel hok).mono htally
    · rw [UseLedger.params_commit]
      exact UseLedger.size_commit_le.trans hsize
    · rw [UseLedger.fullRefusals_commit]
      exact hrefusals

/-- An observation refills the credited bucket and purges. -/
theorem LedgerInv.snapshot (h : LedgerInv s₀ s p) (hop : Ordered p (Op.snapshot, t)) :
    LedgerInv s₀ (s.snapshot C t).1 t.third := by
  obtain ⟨hconst, ht0, hcur⟩ := h.clock (C := C) (Op.snapshot, t) hop
  obtain ⟨h1, h2, h3⟩ : p ≤ t.first ∧ t.first ≤ t.second ∧ t.second ≤ t.third := hop
  refine ⟨hconst, h.bucket.refill t.second, ?_, ht0, hcur, h.purged.maybePurge, fun w => ?_, ?_, ?_⟩
  · change (s.credited.refill t.second).lastMs ≤ _
    rw [TokenBucket.lastMs_refill]
    exact max_le (h.lastMs_le.trans (Int.floor_mono (h1.trans (h2.trans h3))))
      (Int.floor_mono h3)
  · exact ((h.funded w).refill t.second h.bucket.level_le).mono
      (UseLedger.tally_maybePurge_le _)
  · change (s.ledger.maybePurge _).entries.size ≤ (s.ledger.maybePurge _).params.capacity
    rw [UseLedger.params_maybePurge, Table.size_eq_tally]
    refine (UseLedger.tally_maybePurge_le _).trans ?_
    rw [← Table.size_eq_tally]
    exact h.size_le
  · exact UseLedger.fullRefusals_maybePurge.trans h.refusals

/-- **Every step keeps the invariant, and no decision is refused for want of room.** -/
theorem LedgerInv.step (hs : Sized s₀) (h : LedgerInv s₀ s p) (op : Op × Readings)
    (hop : Ordered p op) : LedgerInv s₀ (step C s op).1 op.2.third ∧
      ∀ decision, (JourneyLanes.step C s op).2 = .decided decision →
        decision.errorKind ≠ some .ledgerFull := by
  obtain ⟨request | token | _, t⟩ := op
  · obtain ⟨hinv, hkind⟩ := h.decide (C := C) hs request hop
    refine ⟨hinv, ?_⟩
    rintro decision hd
    cases hd
    exact hkind
  · refine ⟨h.of_purge hop ?_ (Or.inl ?_), by rintro decision hd; cases hd⟩
    all_goals
      rcases enroll_cases C t s token with ⟨f, -, he⟩ | ⟨f, -, -, -, he⟩ <;>
        simp [JourneyLanes.step, he]
  · exact ⟨h.snapshot (C := C) hop, by rintro decision hd; cases hd⟩

/-! ## Every run -/

/-- What is built satisfies the invariant at the last reading of its constructor. -/
theorem ledgerInv_create {config : LanesConfig} (h : create config t = .ok s₀)
    (ht : t.first ≤ t.second ∧ t.second ≤ t.third) : Sized s₀ ∧ LedgerInv s₀ s₀ t.third := by
  obtain ⟨hcap, fp, cp, up, lp, hf, hc, -, hl, rfl⟩ := create_eq_ok h
  refine ⟨⟨hcap, BucketParams.make_eq_ok hc, (LedgerParams.make_eq_ok hl).1,
    FilterParams.make_epochMs hf⟩, rfl, TokenBucket.wf_init cp t.second, Int.floor_mono ht.2,
    ht.1.trans ht.2, Nat.zero_le _, ?_, fun w => funded_zero le_rfl _, Nat.zero_le _, rfl⟩
  intro k r hr
  simp at hr

/-- **The use ledger never fills.** In every run of freshly built lanes under a clock that does not
step back, whatever tokens are presented and whatever the filter answers, the ledger holds at most
its capacity, it has never refused an allocation, and no decision failed for want of a slot. -/
theorem ledger_never_full (C : Crypto) {config : LanesConfig} (h : create config t = .ok s₀)
    (ht : t.first ≤ t.second ∧ t.second ≤ t.third) {ops : List (Op × Readings)}
    (hops : Nondecreasing t.third ops) :
    ((exec (JourneyLanes.step C) s₀ ops).ledger.entries.size : ℚ) ≤ config.ledgerCapacity ∧
    (exec (JourneyLanes.step C) s₀ ops).ledger.fullRefusals = 0 ∧
    ∀ e ∈ trace (JourneyLanes.step C) s₀ ops, ∀ decision, e.out = .decided decision →
      decision.errorKind ≠ some .ledgerFull := by
  obtain ⟨hs, hinit⟩ := ledgerInv_create h ht
  have hrun := Paced.run_induction (JourneyLanes.step C)
    (P := fun tr s p => LedgerInv s₀ s p ∧ ∀ e ∈ tr, ∀ decision, e.out = .decided decision →
      decision.errorKind ≠ some .ledgerFull)
    ⟨hinit, by simp⟩
    (fun tr s p op hP hop => by
      obtain ⟨hinv, hout⟩ := hP.1.step (C := C) hs op hop
      refine ⟨hinv, fun e he => ?_⟩
      rcases List.mem_append.1 he with he | he
      · exact hP.2 e he
      · rw [List.mem_singleton.1 he]
        exact hout)
    hops
  refine ⟨?_, hrun.1.refusals, hrun.2⟩
  have hparams : (exec (JourneyLanes.step C) s₀ ops).ledger.params = s₀.ledger.params := by
    have := hrun.1.constants_eq
    simp only [constants, Prod.mk.injEq] at this
    exact this.2.2.2.2.2
  have hconfig : config = s₀.config := by
    obtain ⟨-, fp, cp, up, lp, -, -, -, -, rfl⟩ := create_eq_ok h
    rfl
  have hsize := hrun.1.size_le
  rw [hparams] at hsize
  rw [hconfig, hs.ledger]
  exact_mod_cast hsize

/-- The lanes with a capacity of one more than eight tokens and two epochs of refill. -/
theorem ledger_never_full_sampleUse :
    (exec (JourneyLanes.step sampleCrypto) sampleLanes
      [(.enroll sampleToken, ⟨1, 1, 1⟩), (.decide (samplePost sampleToken), ⟨2, 2, 3⟩),
        (.snapshot, ⟨2500, 2500, 2500⟩)]).ledger.fullRefusals = 0 :=
  (ledger_never_full sampleCrypto create_sampleConfig (by decide)
    (by unfold Nondecreasing Ordered; decide)).2.1

end Limitmark.Lanes.JourneyLanes
