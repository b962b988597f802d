import Limitmark.Lanes.JourneyLanes

/-!
# The unverified lane does not interfere with the credited lane

Decisions of every lane go through the same classification: they advance the filter, purge the
ledger and look tokens up. So a decision that ends in the unverified lane does change the state of
the lanes, and it is not enough that it takes from its own bucket.

What makes the lanes independent is that these changes are all brought about again by the next
operation that reads them. `Agree` relates the lanes of a run to those of the run without some
unverified or open decisions: the filter of the second lags behind, its ledger may still hold
records whose window is over, and the credited buckets are equal.
-/

namespace Limitmark.Lanes.JourneyLanes

open Limitmark.Defense Limitmark.Foundations

/-- A decision that fell in the unverified or in the open lane. -/
def Deletable (e : Entry JourneyLanes (Op × Readings) Result) : Prop :=
  ∃ request decision, e.input.1 = .decide request ∧ e.out = .decided decision ∧
    (decision.lane = some .unverified ∨ decision.lane = some .open)

/-- What a result says about the credited lane and the enrolments: all of a decision of any other
lane than the unverified, with its bucket level and decision number, and all of an enrolment. -/
inductive View
  | decision (decision : LaneDecision)
  | unverified
  | enrolled (result : EnrollResult)
  | observed
  deriving DecidableEq, Repr

def view : Result → View
  | .decided decision =>
    if decision.lane = some .unverified then .unverified else .decision decision
  | .enrolled result => .enrolled result
  | .observed _ => .observed

/-- The lanes `s'` of a run without some unverified and open decisions, against the lanes `s` of the
full run after the reading `p`. -/
structure Agree (s s' : JourneyLanes) (p : ℚ) : Prop where
  constants_eq : s'.constants = s.constants
  credited_eq : s'.credited = s.credited
  filter_lags : CreditFilter.Lags s'.filter s.filter
  epoch_le : s.filter.currentEpoch ≤ s.filter.epochNow p
  live_eq : ∀ epoch k, s.filter.currentEpoch ≤ epoch →
    s'.ledger.live epoch k = s.ledger.live epoch k

/-- The lanes of the two runs right after a common reading has brought the filters together. -/
structure InStep (c c' : JourneyLanes) (epoch : ℕ) : Prop where
  constants_eq : c'.constants = c.constants
  credited_eq : c'.credited = c.credited
  core_eq : c'.filter.core = c.filter.core
  live_eq : ∀ ep k, epoch ≤ ep → c'.ledger.live ep k = c.ledger.live ep k

variable {C : Crypto} {s s' c c' : JourneyLanes} {p : ℚ} {t : Readings} {epoch : ℕ}

theorem InStep.agree (h : InStep c c' epoch) {q : ℚ}
    (hq : c.filter.currentEpoch ≤ c.filter.epochNow q) (he : epoch ≤ c.filter.currentEpoch) :
    Agree c c' q :=
  ⟨h.constants_eq, h.credited_eq, CreditFilter.Lags.of_core_eq h.core_eq, hq,
    fun ep k hep => h.live_eq ep k (he.trans hep)⟩

/-- The first reading of an operation brings the two filters together. -/
theorem Agree.advance (h : Agree s s' p) {now : ℚ} (hp : p ≤ now) :
    (s'.filter.advance now).1.core = (s.filter.advance now).1.core ∧
      (s'.filter.advance now).2 = (s.filter.advance now).2 := by
  have hnow := h.epoch_le.trans (s.filter.epochNow_mono hp)
  exact ⟨h.filter_lags.core_advance hnow, h.filter_lags.advance_snd hnow⟩

theorem Agree.epoch_le_of_step (h : Agree s s' p) (op : Op × Readings) (hop : Ordered p op) :
    (step C s op).1.filter.currentEpoch ≤ (step C s op).1.filter.epochNow op.2.third := by
  obtain ⟨h1, h2, h3⟩ := hop
  have hconst := constants_step (C := C) (s := s) op
  simp only [constants, Prod.mk.injEq] at hconst
  have hepoch : (step C s op).1.filter.epochNow op.2.third = s.filter.epochNow op.2.third := by
    simp only [CreditFilter.epochNow, hconst.2.1, hconst.2.2.2.1]
  rw [hepoch]
  exact currentEpoch_step_le op
    (h.epoch_le.trans (s.filter.epochNow_mono (h1.trans (h2.trans h3))))
    (s.filter.epochNow_mono (h2.trans h3)) (s.filter.epochNow_mono h3) le_rfl

/-! ## A deleted decision -/

/-- A decision that fell in the unverified or the open lane changes nothing that the next operation
does not change as well. -/
theorem Agree.drop (h : Agree s s' p) {op : Op × Readings} (hop : Ordered p op)
    (hdel : Deletable (entry (step C) s op)) : Agree (step C s op).1 s' op.2.third := by
  have hepoch := h.epoch_le_of_step (C := C) op hop
  have hconst := h.constants_eq.trans (constants_step (C := C) op).symm
  obtain ⟨request, decision, hin, hout, hlane⟩ := hdel
  obtain ⟨_, t⟩ := op
  obtain rfl : _ = Op.decide request := hin
  obtain rfl : (s.decide C t request).2 = decision := Result.decided.inj hout
  have hpost : (step C s (.decide request, t)).1 = (s.decide C t request).1 := rfl
  rw [hpost] at hepoch hconst ⊢
  rcases decide_cases C t request s with ⟨-, hd⟩ | ⟨cls, c, epoch, member, -, -, hc, hd⟩
  · rw [hd] at hepoch hconst ⊢
    exact ⟨hconst, h.credited_eq, h.filter_lags, hepoch, h.live_eq⟩
  · have hlive (ep : ℕ) (k : String) (hep : c.filter.currentEpoch ≤ ep) :
        s'.ledger.live ep k = c.ledger.live ep k := by
      have hledger : c.ledger = s.ledger.maybePurge epoch := by rw [hc.lanes]
      rw [hledger, UseLedger.live_maybePurge (hc.epoch_le.trans hep)]
      exact h.live_eq ep k (hc.moved.currentEpoch_le.trans hep)
    have hcredited : s'.credited = c.credited := by rw [hc.lanes]; exact h.credited_eq
    rcases hd with ⟨-, hd⟩ | ⟨d, used, -, hd⟩
    · rw [hd, decideUnverified_fst] at hepoch hconst ⊢
      exact ⟨hconst, hcredited, h.filter_lags.moved hc.moved, hepoch, hlive⟩
    · -- the credited tail does not end in a deletable lane
      rcases decideCredited_cases C cls c t.third epoch d used rfl rfl with
        ⟨-, hdec⟩ | ⟨-, -, hdec⟩ | ⟨-, -, hdec⟩ <;> simp [hd, hdec] at hlane

/-! ## A kept operation -/

/-- Both classifications come to the same epoch and the same member. -/
theorem Agree.classify (h : Agree s s' p) (hp : p ≤ t.first) (request : LayerRequest)
    (cls : OperationClass) :
    (s'.classify C t request cls).2 = (s.classify C t request cls).2 ∧
      InStep (s.classify C t request cls).1 (s'.classify C t request cls).1
        (s.classify C t request cls).2.1 := by
  obtain ⟨hcore, hsnd⟩ := h.advance hp
  have hdigest (token : List UInt8) := congrFun (CreditFilter.digest_congr hcore C) token
  have hconst := h.constants_eq
  have hlive (ep : ℕ) (k : String) (hep : (s.filter.advance t.first).2 ≤ ep) :
      (s'.ledger.maybePurge (s.filter.advance t.first).2).live ep k =
        (s.ledger.maybePurge (s.filter.advance t.first).2).live ep k := by
    rw [UseLedger.live_maybePurge hep, UseLedger.live_maybePurge hep]
    have hle := (CreditFilter.moved_advance s.filter t.first).currentEpoch_le
    exact h.live_eq ep k (hle.trans hep)
  have hbase (f f' : CreditFilter) (hf : f'.core = f.core) (hmoved : CreditFilter.Moved s.filter f)
      (hmoved' : CreditFilter.Moved s'.filter f') : InStep
        { s with filter := f, ledger := s.ledger.maybePurge (s.filter.advance t.first).2 }
        { s' with filter := f', ledger := s'.ledger.maybePurge (s.filter.advance t.first).2 }
        (s.filter.advance t.first).2 := by
    refine ⟨?_, h.credited_eq, hf, hlive⟩
    simp only [constants, Prod.mk.injEq] at hconst ⊢
    rw [hmoved.constants.1, hmoved'.constants.1, hmoved.constants.2.1, hmoved'.constants.2.1,
      hmoved.constants.2.2, hmoved'.constants.2.2, UseLedger.params_maybePurge,
      UseLedger.params_maybePurge]
    exact hconst
  have hmoved := CreditFilter.moved_advance s.filter t.first
  have hmoved' := CreditFilter.moved_advance s'.filter t.first
  unfold JourneyLanes.classify
  dsimp only
  rw [hsnd]
  split
  · split
    · exact ⟨rfl, hbase _ _ hcore hmoved hmoved'⟩
    · next token _ =>
      rw [hdigest]
      set d := (s.filter.advance t.first).1.digest C token
      rw [CreditFilter.has_snd_congr hcore t.second d]
      refine ⟨rfl, hbase _ _ ?_ (hmoved.trans (CreditFilter.moved_has _ t.second d))
        (hmoved'.trans (CreditFilter.moved_has _ t.second d))⟩
      rw [CreditFilter.core_has, CreditFilter.core_has]
      exact CreditFilter.core_advance_congr hcore t.second
  · exact ⟨rfl, hbase _ _ hcore hmoved hmoved'⟩

theorem InStep.candidate (h : InStep c c' epoch) (member : Option Digest) :
    c'.candidate epoch member = c.candidate epoch member := by
  have hconfig : c'.config = c.config := (Prod.mk.inj h.constants_eq).1
  unfold JourneyLanes.candidate
  cases member with
  | none => rfl
  | some d => simp only [Option.bind_some, UseLedger.committed_eq, h.live_eq _ _ le_rfl, hconfig]

/-- There is room in both ledgers or in none: only live records take up room. -/
theorem InStep.roomFor (h : InStep c c' epoch) (used : Option ℕ) :
    (c'.ledger.roomFor used epoch).2 = (c.ledger.roomFor used epoch).2 := by
  have hparams : c'.ledger.params = c.ledger.params := by
    have := h.constants_eq
    simp only [constants, Prod.mk.injEq] at this
    exact this.2.2.2.2.2
  unfold UseLedger.roomFor
  split
  · rw [UseLedger.canAllocate_snd, UseLedger.canAllocate_snd, hparams,
      Table.tally_congr _ fun k => h.live_eq epoch k le_rfl]
  · rfl

/-- The credited tail decides the same on both sides. -/
theorem InStep.decideCredited (h : InStep c c' epoch) (now : ℚ) (cls : OperationClass) (d : Digest)
    (used : Option ℕ) :
    (c'.decideCredited C now cls epoch d used).2 = (c.decideCredited C now cls epoch d used).2 ∧
      InStep (c.decideCredited C now cls epoch d used).1
        (c'.decideCredited C now cls epoch d used).1 epoch := by
  have hroom := h.roomFor used
  have hconst := h.constants_eq
  have hcredited := h.credited_eq
  simp only [constants, Prod.mk.injEq] at hconst
  have hlive (ep : ℕ) (k : String) (hep : epoch ≤ ep) :
      (c'.ledger.roomFor used epoch).1.live ep k = (c.ledger.roomFor used epoch).1.live ep k := by
    rw [UseLedger.live_roomFor used hep, UseLedger.live_roomFor used hep, h.live_eq ep k hep]
  rcases decideCredited_cases C cls c now epoch d used rfl rfl with
    ⟨hr, hd⟩ | ⟨hr, hk, hd⟩ | ⟨hr, hk, hd⟩ <;>
  rcases decideCredited_cases C cls c' now epoch d used rfl rfl with
    ⟨hr', hd'⟩ | ⟨hr', hk', hd'⟩ | ⟨hr', hk', hd'⟩ <;>
  rw [hroom, hr] at hr' <;> try cases hr'
  · rw [hd, hd']
    exact ⟨rfl, by simpa [constants] using hconst, hcredited, h.core_eq, hlive⟩
  · rw [hd, hd', hcredited]
    exact ⟨rfl, by simpa [constants, hcredited] using hconst, rfl, h.core_eq, hlive⟩
  · rw [hcredited, hk] at hk'; cases hk'
  · rw [hcredited, hk] at hk'; cases hk'
  · rw [hd, hd', hcredited]
    refine ⟨rfl, by simpa [constants, hcredited] using hconst, rfl, h.core_eq, fun ep k hep => ?_⟩
    dsimp only
    rw [UseLedger.live_commit, UseLedger.live_commit, UseLedger.params_roomFor,
      UseLedger.params_roomFor, hconst.2.2.2.2.2, hlive ep k hep, hlive epoch _ le_rfl]

/-- A kept decision is seen the same on both sides. -/
theorem Agree.decide (h : Agree s s' p) (request : LayerRequest)
    (hop : Ordered p (Op.decide request, t)) :
    Agree (s.decide C t request).1 (s'.decide C t request).1 t.third ∧
      view (.decided (s.decide C t request).2) = view (.decided (s'.decide C t request).2) := by
  have hepoch := h.epoch_le_of_step (C := C) (Op.decide request, t) hop
  change (s.decide C t request).1.filter.currentEpoch ≤
    (s.decide C t request).1.filter.epochNow t.third at hepoch
  unfold JourneyLanes.decide at hepoch ⊢
  dsimp only at hepoch ⊢
  by_cases hcls : operationClassOf request.method request.target = .open
  · simp only [hcls, if_true] at hepoch ⊢
    exact ⟨⟨h.constants_eq, h.credited_eq, h.filter_lags, hepoch, h.live_eq⟩, trivial⟩
  · obtain ⟨hsame, hin⟩ := h.classify (C := C) hop.1 request
      (operationClassOf request.method request.target)
    have hle := (classify_filter C t request (operationClassOf request.method request.target) s).2
    simp only [if_neg hcls] at hepoch ⊢
    generalize s.classify C t request _ = r at hsame hin hle hepoch ⊢
    generalize s'.classify C t request _ = r' at hsame hin ⊢
    obtain ⟨c, epoch, member⟩ := r
    obtain ⟨c', rest⟩ := r'
    obtain rfl : rest = (epoch, member) := hsame
    dsimp only at hin hle hepoch ⊢
    rw [hin.candidate]
    cases hcand : c.candidate epoch member with
    | none =>
      simp only [hcand] at hepoch ⊢
      rw [decideUnverified_fst] at hepoch ⊢
      rw [decideUnverified_fst]
      have hin' : InStep { c with unverified := (c.unverified.take t.third).1 }
          { c' with unverified := (c'.unverified.take t.third).1 } epoch :=
        ⟨hin.constants_eq, hin.credited_eq, hin.core_eq, hin.live_eq⟩
      refine ⟨hin'.agree hepoch hle, ?_⟩
      simp only [view, decideUnverified_lane, if_true]
    | some r =>
      simp only [hcand] at hepoch ⊢
      obtain ⟨hdec, hin'⟩ := hin.decideCredited (C := C) t.third
        (operationClassOf request.method request.target) r.1 r.2
      have hfilter : (c.decideCredited C t.third (operationClassOf request.method request.target)
          epoch r.1 r.2).1.filter = c.filter := by
        rcases decideCredited_cases C (operationClassOf request.method request.target) c t.third
          epoch r.1 r.2 rfl rfl with ⟨-, hd⟩ | ⟨-, -, hd⟩ | ⟨-, -, hd⟩ <;> rw [hd]
      refine ⟨hin'.agree hepoch ?_, by rw [hdec]⟩
      rw [hfilter]
      exact hle

/-- The filters of an enrolment come together, the ledgers stay as they are, and the result is the
same. -/
theorem Agree.enroll_parts (h : Agree s s' p) (token : List UInt8) (hp : p ≤ t.first) :
    (s'.enroll C t token).1.filter.core = (s.enroll C t token).1.filter.core ∧
      (s'.enroll C t token).2 = (s.enroll C t token).2 := by
  obtain ⟨hcore, hsnd⟩ := h.advance hp
  have hdigest : s'.filter.digest C token = s.filter.digest C token := by
    have := h.constants_eq
    simp only [constants, Prod.mk.injEq] at this
    simp only [CreditFilter.digest, this.2.2.1]
  have hle : s.filter.currentEpoch ≤ (s.filter.advance t.first).2 :=
    (CreditFilter.moved_advance s.filter t.first).currentEpoch_le
  have hactcore : ((s'.filter.advance t.first).1.hasInActive t.second
      (s.filter.digest C token)).1.core = ((s.filter.advance t.first).1.hasInActive t.second
        (s.filter.digest C token)).1.core :=
    CreditFilter.core_advance_congr hcore t.second
  unfold JourneyLanes.enroll
  dsimp only
  rw [hdigest, hsnd, CreditFilter.hasInActive_snd_congr hcore, UseLedger.committed_eq,
    UseLedger.committed_eq, h.live_eq _ _ hle]
  split
  · exact ⟨hcore, rfl⟩
  · split
    · exact ⟨hactcore, rfl⟩
    · exact ⟨CreditFilter.core_insert_congr hactcore _ _, rfl⟩

/-- An enrolment touches the filter alone. -/
theorem enroll_fst (token : List UInt8) : (s.enroll C t token).1 =
    { s with filter := (s.enroll C t token).1.filter } := by
  rcases enroll_cases C t s token with ⟨f, -, he⟩ | ⟨f, -, -, -, he⟩ <;> rw [he]

/-- An enrolment has the same result on both sides. -/
theorem Agree.enroll (h : Agree s s' p) (token : List UInt8)
    (hop : Ordered p (Op.enroll token, t)) :
    Agree (s.enroll C t token).1 (s'.enroll C t token).1 t.third ∧
      (s'.enroll C t token).2 = (s.enroll C t token).2 := by
  obtain ⟨hcore, hresult⟩ := h.enroll_parts (C := C) token (t := t) hop.1
  refine ⟨⟨?_, ?_, .of_core_eq hcore, h.epoch_le_of_step (C := C) (Op.enroll token, t) hop,
    fun ep k hep => ?_⟩, hresult⟩
  · exact (constants_enroll token).trans (h.constants_eq.trans (constants_enroll token).symm)
  · rw [enroll_fst, enroll_fst (s := s)]
    exact h.credited_eq
  · have hle : s.filter.currentEpoch ≤ ep := by
      refine le_trans ?_ hep
      rcases enroll_cases C t s token with ⟨f, hf, he⟩ | ⟨f, hf, -, -, he⟩ <;> rw [he]
      · exact hf.currentEpoch_le
      · exact hf.currentEpoch_le.trans (CreditFilter.moved_advance f t.third).currentEpoch_le
    rw [enroll_fst, enroll_fst (s := s)]
    exact h.live_eq ep k hle

/-- An observation refills both credited buckets alike. -/
theorem Agree.snapshot (h : Agree s s' p) (hop : Ordered p (Op.snapshot, t)) :
    Agree (s.snapshot C t).1 (s'.snapshot C t).1 t.third := by
  obtain ⟨hcore, hsnd⟩ := h.advance (show p ≤ t.first from hop.1)
  have hle : s.filter.currentEpoch ≤ (s.filter.advance t.first).2 :=
    (CreditFilter.moved_advance s.filter t.first).currentEpoch_le
  refine ⟨?_, ?_, .of_core_eq hcore, h.epoch_le_of_step (C := C) (Op.snapshot, t) hop,
    fun ep k hep => ?_⟩
  · exact constants_snapshot.trans (h.constants_eq.trans constants_snapshot.symm)
  · exact congrArg (TokenBucket.refill t.second) h.credited_eq
  · have hep : (s.filter.advance t.first).2 ≤ ep := hep
    change (s'.ledger.maybePurge (s'.filter.advance t.first).2).live ep k =
      (s.ledger.maybePurge (s.filter.advance t.first).2).live ep k
    rw [hsnd, UseLedger.live_maybePurge hep, UseLedger.live_maybePurge hep]
    exact h.live_eq ep k (hle.trans hep)

/-- A kept operation is seen the same on both sides. -/
theorem Agree.keep (h : Agree s s' p) (op : Op × Readings) (hop : Ordered p op) :
    Agree (step C s op).1 (step C s' op).1 op.2.third ∧
      view (step C s op).2 = view (step C s' op).2 := by
  obtain ⟨request | token | _, t⟩ := op
  · exact h.decide request hop
  · obtain ⟨hagree, hresult⟩ := h.enroll (C := C) token hop
    exact ⟨hagree, congrArg View.enrolled hresult.symm⟩
  · exact ⟨h.snapshot (C := C) hop, rfl⟩

/-! ## Every run -/

/-- **Isolation.** In every run of freshly built lanes under a clock that does not step back,
deleting any decisions that fell in the unverified or the open lane leaves every other decision as
it was, with the level and the decision number of its bucket, and every enrolment. -/
theorem credited_isolated (C : Crypto) {config : LanesConfig} {s₀ : JourneyLanes}
    (h : create config t = .ok s₀) {ops ops' : List (Op × Readings)}
    (hops : Nondecreasing t.third ops)
    {kept : List (Entry JourneyLanes (Op × Readings) Result)}
    (hdel : Deletes (step C) Deletable s₀ ops ops' kept) :
    List.Forall₂ (fun e e' => e.input = e'.input ∧ view e.out = view e'.out) kept
      (trace (step C) s₀ ops') := by
  refine hdel.views_eq Agree view (fun s s' p op hs hop => hs.keep op hop)
    (fun s s' p op hs hop hd => hs.drop hop hd) ?_ hops
  obtain ⟨-, fp, cp, up, lp, -, -, -, -, rfl⟩ := create_eq_ok h
  exact ⟨rfl, rfl, .of_core_eq rfl, Nat.zero_le _, fun _ _ _ => rfl⟩

/-- An unverified submission before the enrolment of its token. -/
def sampleEarly : Op × Readings := (.decide (samplePost sampleToken), ⟨1, 1, 1⟩)

def sampleLate : List (Op × Readings) :=
  [(.enroll sampleToken, ⟨2, 2, 2⟩), (.decide (samplePost sampleToken), ⟨3, 3, 4⟩)]

theorem nondecreasing_sampleEarly : Nondecreasing 0 (sampleEarly :: sampleLate) := by
  unfold Nondecreasing Ordered
  decide

theorem credited_isolated_sampleLate :
    List.Forall₂ (fun e e' => e.input = e'.input ∧ view e.out = view e'.out)
      (trace (step sampleCrypto) (step sampleCrypto sampleLanes sampleEarly).1 sampleLate)
      (trace (step sampleCrypto) sampleLanes sampleLate) :=
  credited_isolated sampleCrypto create_sampleConfig nondecreasing_sampleEarly
    (.drop ⟨_, _, rfl, rfl, Or.inl (by decide +kernel)⟩ (.refl _ _))

end Limitmark.Lanes.JourneyLanes
