import Limitmark.Lanes.JourneyLanes

/-!
# The use bound of the credited lane

How often a token is admitted through the credited lane, over any run of the lanes under a clock
that does not step back. Three parts with separate lifetimes take part: the two-generation filter,
the use ledger with its purge, and the enrolments that refill the filter.

A step either leaves the live records alone, or commits one use of a token the filter answered
positively for, or enrols a token that has no live record (`step_effect`). `Accounted` is what these
three keep: while a record is live every enrolment lies at or before its first use, so the uses
before it belong to enrolments that are two epochs old.
-/

namespace Limitmark.Lanes.JourneyLanes

open Limitmark.Defense Limitmark.Foundations

/-! ## What a run admits and enrols -/

/-- One operation of a run, with the lanes before and after it. -/
abbrev Event := Entry JourneyLanes (Op × Readings) Result

/-- The token of a credited admission. -/
def admittedToken (e : Event) : Option (List UInt8) :=
  match e.input.1, e.out with
  | .decide request, .decided decision =>
    if decision.lane = some .credited ∧ decision.outcome = .admitted then
      extractSubmissionToken request
    else none
  | _, _ => none

/-- The token of a successful enrolment, with the generation it went into. -/
def enrolledToken (e : Event) : Option (List UInt8 × ℕ) :=
  match e.input.1, e.out with
  | .enroll token, .enrolled (.ok _) => some (token, e.post.filter.currentEpoch)
  | _, _ => none

/-- The number of times the token is admitted through the credited lane. -/
def admissions (token : List UInt8) (tr : List Event) : ℕ :=
  tr.countP fun e => admittedToken e = some token

/-- The generations of the successful enrolments of the token. -/
def enrolments (token : List UInt8) (tr : List Event) : List ℕ :=
  tr.filterMap fun e => ((enrolledToken e).filter fun p => p.1 = token).map Prod.snd

/-- The tokens that were enrolled into a generation. -/
def generation (x : ℕ) (tr : List Event) : List (List UInt8) :=
  tr.filterMap fun e => ((enrolledToken e).filter fun p => p.2 = x).map Prod.fst

/-- The ledger key of a token. -/
def keyOf (C : Crypto) (s : JourneyLanes) (token : List UInt8) : String :=
  digestBase64url (s.filter.digest C token)

/-- The Bloom array of what was enrolled into a generation answers positively for the token. -/
def TestsPositive (C : Crypto) (s : JourneyLanes) (token : List UInt8) (x : ℕ)
    (tr : List Event) : Prop :=
  CreditFilter.testArray s.filter.params
    (CreditFilter.bloom s.filter.params ((generation x tr).map (s.filter.digest C)))
    (s.filter.digest C token) = true

/-- No false positive for the token: whenever a decision asks for it, the current and the previous
generation answer positively only if the token itself was enrolled into them. -/
def NoFalsePositive (C : Crypto) (token : List UInt8) (tr : List Event) : Prop :=
  ∀ pre e post, tr = pre ++ e :: post → ∀ request, e.input.1 = .decide request →
    extractSubmissionToken request = some token →
    ∀ x, x ≤ e.post.filter.currentEpoch → e.post.filter.currentEpoch ≤ x + 1 →
      TestsPositive C e.post token x pre → token ∈ generation x pre

/-! ## What a step does to the credits -/

/-- A step that commits nothing and enrols nothing. -/
def Quiet (e : Event) (epoch : ℕ) : Prop :=
  admittedToken e = none ∧ enrolledToken e = none ∧
    CreditFilter.Moved e.pre.filter e.post.filter ∧
    ∀ ep k, epoch ≤ ep → e.post.ledger.live ep k = e.pre.ledger.live ep k

/-- A step that commits one use of a token the filter answered positively for. -/
def Commits (C : Crypto) (e : Event) (epoch : ℕ) (token : List UInt8) : Prop :=
  admittedToken e = some token ∧ enrolledToken e = none ∧
    CreditFilter.Moved e.pre.filter e.post.filter ∧
    e.post.filter.epochNow e.input.2.second ≤ e.post.filter.currentEpoch ∧
    (∃ request, e.input.1 = .decide request ∧ extractSubmissionToken request = some token) ∧
    (∀ G, e.pre.filter.Holds G → ∃ x, x ≤ e.post.filter.currentEpoch ∧
      e.post.filter.currentEpoch ≤ x + 1 ∧ CreditFilter.testArray e.pre.filter.params
        (CreditFilter.bloom e.pre.filter.params (G x)) (e.pre.filter.digest C token) = true) ∧
    (∀ r, e.pre.ledger.live epoch (keyOf C e.pre token) = some r →
      r.committed < e.pre.ledger.params.maxUses) ∧
    ∀ ep k, epoch ≤ ep → e.post.ledger.live ep k =
      if k = keyOf C e.pre token then
        (some (UseLedger.bump e.pre.ledger.params.maxUses epoch
          (e.pre.ledger.live epoch k))).filter fun r => !r.expired ep
      else e.pre.ledger.live ep k

/-- A step that enrols a token without a live record. -/
def Enrols (C : Crypto) (e : Event) (epoch : ℕ) (token : List UInt8) : Prop :=
  admittedToken e = none ∧ enrolledToken e = some (token, e.post.filter.currentEpoch) ∧
    e.pre.ledger.live epoch (keyOf C e.pre token) = none ∧ e.post.ledger = e.pre.ledger ∧
    ∃ f now, CreditFilter.Moved e.pre.filter f ∧
      e.post.filter = f.insert now (e.pre.filter.digest C token)

variable {C : Crypto} {s : JourneyLanes}

/-- The unverified tail commits nothing. -/
theorem quiet_of_lane {e : Event} {epoch : ℕ} {request : LayerRequest} {decision : LaneDecision}
    (hin : e.input.1 = .decide request) (hout : e.out = .decided decision)
    (hdec : ¬(decision.lane = some .credited ∧ decision.outcome = .admitted))
    (hmoved : CreditFilter.Moved e.pre.filter e.post.filter)
    (hlive : ∀ ep k, epoch ≤ ep → e.post.ledger.live ep k = e.pre.ledger.live ep k) :
    Quiet e epoch := by
  refine ⟨?_, ?_, hmoved, hlive⟩
  · simp only [admittedToken, hin, hout, if_neg hdec]
  · simp only [enrolledToken, hin, hout]

/-- What a decision does to the credits. -/
theorem decide_effect (hK : s.config.maxUses = s.ledger.params.maxUses) (request : LayerRequest)
    (t : Readings) :
    ∃ epoch, s.filter.currentEpoch ≤ epoch ∧
      epoch ≤ (entry (step C) s (.decide request, t)).post.filter.currentEpoch ∧
      (Quiet (entry (step C) s (.decide request, t)) epoch ∨
        ∃ token, Commits C (entry (step C) s (.decide request, t)) epoch token) := by
  rcases decide_cases C t request s with ⟨-, h⟩ | ⟨cls, c, epoch, member, -, -, hc, h⟩
  · refine ⟨s.filter.currentEpoch, le_rfl, ?_, Or.inl (quiet_of_lane rfl rfl ?_ ?_ ?_)⟩ <;>
      simp [step, h, CreditFilter.Moved.refl]
  · have hledger : c.ledger = s.ledger.maybePurge epoch := by rw [hc.lanes]
    have hlive (ep : ℕ) (k : String) (hep : epoch ≤ ep) : c.ledger.live ep k = s.ledger.live ep k := by
      rw [hledger, UseLedger.live_maybePurge hep]
    refine ⟨epoch, hc.currentEpoch_le, ?_⟩
    rcases h with ⟨-, h⟩ | ⟨d, used, hcand, h⟩
    · have hpost : (s.decide C t request).1 = { c with unverified := (c.unverified.take t.third).1 } := by
        rw [h, decideUnverified_fst]
      have hlane : (s.decide C t request).2.lane = some .unverified := by
        rw [h, decideUnverified_lane]
      refine ⟨by simpa [step, hpost] using hc.epoch_le, Or.inl (quiet_of_lane rfl rfl ?_ ?_ ?_)⟩
      · simp [hlane]
      · simpa [step, hpost] using hc.moved
      · simpa [step, hpost] using hlive
    · obtain ⟨hmember, hused, hall⟩ := candidate_eq_some.1 hcand
      obtain ⟨-, token, htoken, hd, hit, hfilter⟩ := hc.member d hmember
      have hroom (ep : ℕ) (k : String) (hep : epoch ≤ ep) :
          (c.ledger.roomFor used epoch).1.live ep k = s.ledger.live ep k := by
        rw [UseLedger.live_roomFor used hep, hlive ep k hep]
      rcases decideCredited_cases C cls c t.third epoch d used rfl rfl with
        ⟨-, hdec⟩ | ⟨-, -, hdec⟩ | ⟨-, -, hdec⟩ <;> rw [hdec] at h
      · refine ⟨by simpa [step, h] using hc.epoch_le, Or.inl (quiet_of_lane rfl rfl ?_ ?_ ?_)⟩
        · simp [h]
        · simpa [step, h] using hc.moved
        · simpa [step, h] using hroom
      · refine ⟨by simpa [step, h] using hc.epoch_le, Or.inl (quiet_of_lane rfl rfl ?_ ?_ ?_)⟩
        · simp [h]
        · simpa [step, h] using hc.moved
        · simpa [step, h] using hroom
      · refine ⟨by simpa [step, h] using hc.epoch_le, Or.inr ⟨token, ?_, ?_, ?_, ?_, ?_, ?_, ?_, ?_⟩⟩
        · simp [admittedToken, step, h, htoken]
        · simp [enrolledToken, step]
        · simpa [step, h] using hc.moved
        · have hpost : (entry (step C) s (.decide request, t)).post.filter = c.filter := by
            simp [step, h]
          rw [hpost, hfilter]
          exact CreditFilter.epochNow_has_le
        · exact ⟨request, rfl, htoken⟩
        · intro G hG
          have hadv := hG.moved (CreditFilter.moved_advance s.filter t.first)
          have hp := (CreditFilter.moved_advance s.filter t.first).constants.1
          have hx := hadv.has_iff.1 hit
          rw [hp] at hx
          simpa [step, h, hfilter, ← hd] using hx
        · intro r hr
          have hr : s.ledger.live epoch (digestBase64url d) = some r := by rw [hd]; exact hr
          rw [UseLedger.committed_eq, hlive epoch _ le_rfl, hr] at hused
          have hconfig : c.config = s.config := by rw [hc.lanes]
          rw [hused, hconfig, hK] at hall
          simpa using hall
        · intro ep k hep
          have hparams : (c.ledger.roomFor used epoch).1.params = s.ledger.params := by
            rw [UseLedger.params_roomFor, hledger, UseLedger.params_maybePurge]
          simp only [step, h, entry]
          rw [UseLedger.live_commit, hroom ep k hep, hroom epoch _ le_rfl, hparams, keyOf, ← hd]
          split
          · next hk => rw [hk]
          · rfl

/-- What an enrolment does to the credits. -/
theorem enroll_effect (token : List UInt8) (t : Readings) :
    ∃ epoch, s.filter.currentEpoch ≤ epoch ∧
      (Quiet (entry (step C) s (.enroll token, t)) s.filter.currentEpoch ∨
        epoch ≤ (entry (step C) s (.enroll token, t)).post.filter.currentEpoch ∧
          Enrols C (entry (step C) s (.enroll token, t)) epoch token) := by
  have hadv := (CreditFilter.moved_advance s.filter t.first).currentEpoch_le
  refine ⟨(s.filter.advance t.first).2, hadv, ?_⟩
  rcases enroll_cases C t s token with ⟨f, hf, h⟩ | ⟨f, hf, hle, hlive, h⟩
  · refine Or.inl ⟨rfl, ?_, ?_, ?_⟩
    · simp [enrolledToken, step, h]
    · simpa [step, h] using hf
    · simp [step, h]
  · refine Or.inr ⟨?_, rfl, ?_, hlive, ?_, f, t.third, hf, ?_⟩
    · have := (CreditFilter.moved_advance f t.third).currentEpoch_le
      simpa [step, h] using hle.trans this
    · simp [enrolledToken, step, h]
    · simp [step, h]
    · simp [step, h]

/-- What a step does to the credits. -/
theorem step_effect (hK : s.config.maxUses = s.ledger.params.maxUses) (op : Op × Readings) :
    ∃ epoch, s.filter.currentEpoch ≤ epoch ∧
      epoch ≤ (entry (step C) s op).post.filter.currentEpoch ∧
      (Quiet (entry (step C) s op) epoch ∨
        (∃ token, Commits C (entry (step C) s op) epoch token) ∨
        ∃ token, Enrols C (entry (step C) s op) epoch token) := by
  obtain ⟨request | token | _, t⟩ := op
  · obtain ⟨epoch, h1, h2, h | h⟩ := decide_effect (C := C) hK request t
    · exact ⟨epoch, h1, h2, Or.inl h⟩
    · exact ⟨epoch, h1, h2, Or.inr (Or.inl h)⟩
  · obtain ⟨epoch, h1, h | ⟨h2, h⟩⟩ := enroll_effect (C := C) (s := s) token t
    · exact ⟨s.filter.currentEpoch, le_rfl, h.2.2.1.currentEpoch_le, Or.inl h⟩
    · exact ⟨epoch, h1, h2, Or.inr (Or.inr ⟨token, h⟩)⟩
  · have hmoved := CreditFilter.moved_stats s.filter t.first
    refine ⟨(s.filter.advance t.first).2, hmoved.currentEpoch_le, le_rfl, Or.inl ⟨rfl, rfl, hmoved, ?_⟩⟩
    intro ep k hep
    exact UseLedger.live_maybePurge hep

/-! ## One more step of a run -/

section Snoc

variable {token : List UInt8} {tr : List Event} {e : Event}

theorem admissions_snoc : admissions token (tr ++ [e]) =
    admissions token tr + if admittedToken e = some token then 1 else 0 := by
  simp [admissions, List.countP_append, List.countP_singleton]

theorem enrolments_snoc_of_none (h : enrolledToken e = none) :
    enrolments token (tr ++ [e]) = enrolments token tr := by
  simp [enrolments, List.filterMap_append, h]

theorem enrolments_snoc_of_some {other : List UInt8} {g : ℕ}
    (h : enrolledToken e = some (other, g)) : enrolments token (tr ++ [e]) =
      enrolments token tr ++ if other = token then [g] else [] := by
  by_cases hother : other = token <;>
    simp [enrolments, List.filterMap_append, h, hother, Option.filter]

theorem generation_snoc_of_none (h : enrolledToken e = none) (x : ℕ) :
    generation x (tr ++ [e]) = generation x tr := by
  simp [generation, List.filterMap_append, h]

theorem generation_snoc_of_some {other : List UInt8} {g : ℕ}
    (h : enrolledToken e = some (other, g)) (x : ℕ) : generation x (tr ++ [e]) =
      generation x tr ++ if g = x then [other] else [] := by
  by_cases hg : g = x <;> simp [generation, List.filterMap_append, h, hg, Option.filter]

/-- A token was enrolled into a generation exactly when the generation is among its enrolments. -/
theorem mem_generation {x : ℕ} : token ∈ generation x tr ↔ x ∈ enrolments token tr := by
  simp only [generation, enrolments, List.mem_filterMap, Option.map_eq_some_iff,
    Option.filter_eq_some_iff, decide_eq_true_eq]
  constructor
  · rintro ⟨e, he, p, ⟨hp, hx⟩, htok⟩
    exact ⟨e, he, p, ⟨hp, htok⟩, hx⟩
  · rintro ⟨e, he, p, ⟨hp, htok⟩, hx⟩
    exact ⟨e, he, p, ⟨hp, hx⟩, htok⟩

theorem NoFalsePositive.of_snoc (h : NoFalsePositive C token (tr ++ [e])) :
    NoFalsePositive C token tr := by
  rintro pre f post rfl
  exact h pre f (post ++ [e]) (by simp)

end Snoc

/-! ## The account of a token -/

/-- The account of a token with `n` uses and enrolments into the generations `gens`, given its live
record. What was used before the record was made belongs to enrolments two epochs older. -/
def Accounted (K : ℕ) (gens : List ℕ) (n epoch : ℕ) : Option LedgerEntry → Prop
  | none => n ≤ K * gens.countP (· + 2 ≤ epoch)
  | some r => r.firstEpoch ≤ epoch ∧ (∀ g ∈ gens, g ≤ r.firstEpoch) ∧ n ≤ K * gens.length ∧
      n ≤ K * gens.countP (· + 2 ≤ r.firstEpoch) + r.committed

section Account

variable {K n epoch ep : ℕ} {gens : List ℕ} {o : Option LedgerEntry} {l : UseLedger}
  {key : String}

theorem Accounted.le (h : Accounted K gens n epoch o) : n ≤ K * gens.length := by
  cases o with
  | none => exact h.trans (Nat.mul_le_mul_left K List.countP_le_length)
  | some r => exact h.2.2.1

/-- An account stays right as the epochs go by, whether its record stays live or not. -/
theorem Accounted.later (hep : epoch ≤ ep) (h : Accounted K gens n epoch (l.live epoch key)) :
    Accounted K gens n ep (l.live ep key) := by
  cases hlive : l.live ep key with
  | some r =>
    rw [UseLedger.live_of_le hep hlive] at h
    exact ⟨h.1.trans hep, h.2⟩
  | none =>
    cases hnow : l.live epoch key with
    | none =>
      rw [hnow] at h
      refine h.trans (Nat.mul_le_mul_left K (List.countP_mono_left ?_))
      intro g _ hg
      simp only [decide_eq_true_eq] at hg ⊢
      omega
    | some r =>
      -- the record has aged out: every enrolment lies at or before its first use
      rw [hnow] at h
      have hexp : r.firstEpoch + 2 ≤ ep := by
        by_contra hlt
        have := UseLedger.live_eq_some.2 ⟨(UseLedger.live_eq_some.1 hnow).1, not_le.1 hlt⟩
        rw [this] at hlive
        cases hlive
      have hall : gens.countP (· + 2 ≤ ep) = gens.length := by
        rw [List.countP_eq_length]
        intro g hg
        have := h.2.1 g hg
        simp only [decide_eq_true_eq]
        omega
      rw [Accounted, hall]
      exact h.2.2.1

/-- Another token's use under the same key only adds to the record. -/
theorem Accounted.bump (hgens : ∀ g ∈ gens, g ≤ epoch) (h : Accounted K gens n epoch o) :
    Accounted K gens n epoch (some (UseLedger.bump K epoch o)) := by
  cases o with
  | none => exact ⟨le_rfl, hgens, h.le, h.trans (Nat.le_add_right _ _)⟩
  | some r =>
    rw [UseLedger.bump]
    split
    · exact h
    · exact ⟨h.1, h.2.1, h.2.2.1, h.2.2.2.trans (by simp)⟩

/-- A use of the token itself: a record with room for it, and an enrolment that is not two epochs
old. -/
theorem Accounted.use (hgens : ∀ g ∈ gens, g ≤ epoch) {g : ℕ} (hg : g ∈ gens) (hrecent : epoch ≤ g + 1)
    (hK : 1 ≤ K) (hroom : ∀ r, o = some r → r.committed < K) (h : Accounted K gens n epoch o) :
    Accounted K gens (n + 1) epoch (some (UseLedger.bump K epoch o)) := by
  have hcount (f : ℕ) (hf : f ≤ epoch) : gens.countP (· + 2 ≤ f) + 1 ≤ gens.length := by
    refine Nat.succ_le_of_lt (lt_of_le_of_ne List.countP_le_length fun heq => ?_)
    have := List.countP_eq_length.1 heq g hg
    simp only [decide_eq_true_eq] at this
    omega
  cases o with
  | none =>
    have hc := Nat.mul_le_mul_left K (hcount epoch le_rfl)
    have hn : n ≤ K * gens.countP (· + 2 ≤ epoch) := h
    rw [Nat.mul_add] at hc
    exact ⟨le_rfl, hgens, by omega, Nat.add_le_add_right hn 1⟩
  | some r =>
    have hlt := hroom r rfl
    have hc := Nat.mul_le_mul_left K (hcount r.firstEpoch h.1)
    have hn := h.2.2.2
    rw [Nat.mul_add] at hc
    rw [UseLedger.bump, if_neg (not_le.2 hlt)]
    exact ⟨h.1, h.2.1, by omega, by dsimp only; omega⟩

/-- An enrolment into the active generation, with no live record. -/
theorem Accounted.enrol (h : Accounted K gens n epoch none) :
    Accounted K (gens ++ [epoch]) n epoch none := by
  have h : n ≤ K * gens.countP (· + 2 ≤ epoch) := h
  simpa [Accounted, List.countP_append] using h

end Account

/-! ## The account along a run -/

/-- What the account of a token needs of a run so far. -/
structure CreditInv (C : Crypto) (token : List UInt8) (s₀ : JourneyLanes) (tr : List Event)
    (s : JourneyLanes) : Prop where
  constants_eq : s.constants = s₀.constants
  holds : s.filter.Holds fun x => (generation x tr).map (s₀.filter.digest C)
  enrolled_le : ∀ g ∈ enrolments token tr, g ≤ s.filter.currentEpoch
  sorted : (enrolments token tr).Pairwise (· ≤ ·)
  account : NoFalsePositive C token tr →
    Accounted s₀.ledger.params.maxUses (enrolments token tr) (admissions token tr)
      s.filter.currentEpoch (s.ledger.live s.filter.currentEpoch (keyOf C s₀ token))

theorem digest_of_constants {s s₀ : JourneyLanes} (h : s.constants = s₀.constants) :
    s.filter.digest C = s₀.filter.digest C := by
  simp only [constants, Prod.mk.injEq] at h
  funext token
  simp only [CreditFilter.digest, h.2.2.1]

theorem ledger_params_of_constants {s s₀ : JourneyLanes} (h : s.constants = s₀.constants) :
    s.ledger.params = s₀.ledger.params := by
  simp only [constants, Prod.mk.injEq] at h
  exact h.2.2.2.2.2

theorem filter_params_of_constants {s s₀ : JourneyLanes} (h : s.constants = s₀.constants) :
    s.filter.params = s₀.filter.params := by
  simp only [constants, Prod.mk.injEq] at h
  exact h.2.1

variable {token : List UInt8} {s₀ : JourneyLanes} {tr : List Event}

theorem CreditInv.maxUses_eq (hK : s₀.config.maxUses = s₀.ledger.params.maxUses)
    (h : CreditInv C token s₀ tr s) : s.config.maxUses = s.ledger.params.maxUses := by
  have := h.constants_eq
  simp only [constants, Prod.mk.injEq] at this
  rw [this.1, hK, this.2.2.2.2.2]

/-- A use of the token finds an enrolment of it in the current or the previous generation. -/
theorem CreditInv.exists_enrolment {e : Event} {epoch : ℕ} (h : CreditInv C token s₀ tr e.pre)
    (hpost : e.post.constants = s₀.constants) (hN : NoFalsePositive C token (tr ++ [e]))
    (hc : Commits C e epoch token) :
    ∃ g ∈ enrolments token tr, e.post.filter.currentEpoch ≤ g + 1 := by
  obtain ⟨-, -, -, -, ⟨request, hreq, htok⟩, hhit, -, -⟩ := hc
  obtain ⟨x, hx, hx', htest⟩ := hhit _ h.holds
  have hmem : token ∈ generation x tr := by
    refine hN tr e [] rfl request hreq htok x hx hx' ?_
    rw [digest_of_constants h.constants_eq, filter_params_of_constants h.constants_eq] at htest
    rwa [TestsPositive, digest_of_constants hpost, filter_params_of_constants hpost]
  exact ⟨x, mem_generation.1 hmem, hx'⟩

theorem CreditInv.snoc (hK : s₀.config.maxUses = s₀.ledger.params.maxUses)
    (h : CreditInv C token s₀ tr s) (op : Op × Readings) :
    CreditInv C token s₀ (tr ++ [entry (step C) s op]) (step C s op).1 := by
  have hdigest := digest_of_constants (C := C) h.constants_eq
  have hledger := ledger_params_of_constants h.constants_eq
  have hkey (tok : List UInt8) : keyOf C s tok = keyOf C s₀ tok := by rw [keyOf, keyOf, hdigest]
  obtain ⟨epoch, hle, hle', heff⟩ := step_effect (C := C) (h.maxUses_eq hK) op
  have hconst : (step C s op).1.constants = s₀.constants :=
    (constants_step op).trans h.constants_eq
  generalize he : entry (step C) s op = e at hle' heff
  have hpre : e.pre = s := by rw [← he]; rfl
  have hpost : e.post = (step C s op).1 := by rw [← he]; rfl
  rw [← hpost] at hconst ⊢
  rcases heff with ⟨hadm, henr, hmoved, hlive⟩ | ⟨tok, hc⟩ |
    ⟨tok, hadm, henr, hnone, hsame, f, now, hmoved, hins⟩
  · -- nothing is committed or enrolled: the epoch may have moved on
    rw [hpre] at hmoved hlive
    refine ⟨hconst, ?_, ?_, ?_, fun hN => ?_⟩
    · simp only [generation_snoc_of_none henr]
      exact h.holds.moved hmoved
    · rw [enrolments_snoc_of_none henr]
      exact fun g hg => (h.enrolled_le g hg).trans hmoved.currentEpoch_le
    · rw [enrolments_snoc_of_none henr]
      exact h.sorted
    · rw [enrolments_snoc_of_none henr, admissions_snoc, hadm, if_neg (by simp), add_zero,
        hlive _ _ hle']
      exact (h.account hN.of_snoc).later hmoved.currentEpoch_le
  · -- one use is committed, of this token or of another one
    have ⟨hadm, henr, hmoved, _, _, _, hroom, hlive⟩ := hc
    rw [hpre] at hmoved hroom hlive
    have hgens : ∀ g ∈ enrolments token tr, g ≤ epoch := fun g hg =>
      (h.enrolled_le g hg).trans hle
    refine ⟨hconst, ?_, ?_, ?_, fun hN => ?_⟩
    · simp only [generation_snoc_of_none henr]
      exact h.holds.moved hmoved
    · rw [enrolments_snoc_of_none henr]
      exact fun g hg => (h.enrolled_le g hg).trans hmoved.currentEpoch_le
    · rw [enrolments_snoc_of_none henr]
      exact h.sorted
    · have hacc := (h.account hN.of_snoc).later hle
      refine Accounted.later (l := e.post.ledger) hle' ?_
      rw [enrolments_snoc_of_none henr, admissions_snoc, hadm, hlive _ _ le_rfl]
      by_cases hk : keyOf C s₀ token = keyOf C s tok
      · rw [if_pos hk, UseLedger.bump_live, hledger]
        by_cases htoken : tok = token
        · subst htoken
          obtain ⟨g, hg, hg'⟩ := CreditInv.exists_enrolment (hpre ▸ h) hconst hN hc
          rw [if_pos rfl]
          refine hacc.use hgens hg (hle'.trans hg') s₀.ledger.params.one_le_maxUses ?_
          rwa [← hk, hledger] at hroom
        · rw [if_neg (by simpa using htoken), add_zero]
          exact hacc.bump hgens
      · have htoken : tok ≠ token := by rintro rfl; exact hk (hkey tok).symm
        rw [if_neg hk, if_neg (by simpa using htoken), add_zero]
        exact hacc
  · -- a token without a live record is enrolled into the active generation
    rw [hpre] at hnone hsame hmoved hins
    have hE : s.filter.currentEpoch ≤ e.post.filter.currentEpoch := by
      rw [hins]
      exact hmoved.currentEpoch_le.trans (CreditFilter.moved_advance f now).currentEpoch_le
    refine ⟨hconst, ?_, ?_, ?_, fun hN => ?_⟩
    · have hholds := (h.holds.moved hmoved).insert now (s₀.filter.digest C tok)
      rw [hins, hdigest]
      convert hholds using 1
      funext x
      rw [generation_snoc_of_some henr, Function.update_apply, List.map_append, hins, hdigest]
      by_cases hx : x = (f.insert now (s₀.filter.digest C tok)).currentEpoch
      · rw [if_pos hx, if_pos hx.symm, hx]
        rfl
      · rw [if_neg hx, if_neg (Ne.symm hx), List.map_nil, List.append_nil]
    · rw [enrolments_snoc_of_some henr]
      intro g hg
      rcases List.mem_append.1 hg with hg | hg
      · exact (h.enrolled_le g hg).trans hE
      · split at hg
        · exact (List.mem_singleton.1 hg).le
        · cases hg
    · rw [enrolments_snoc_of_some henr, List.pairwise_append]
      refine ⟨h.sorted, by split <;> simp, fun g hg g' hg' => ?_⟩
      split at hg'
      · rw [List.mem_singleton.1 hg']
        exact (h.enrolled_le g hg).trans hE
      · cases hg'
    · have hacc := (h.account hN.of_snoc).later hE
      have hcount : admissions token (tr ++ [e]) = admissions token tr := by
        simp [admissions_snoc, hadm]
      rw [enrolments_snoc_of_some henr, hcount, hsame]
      by_cases htoken : tok = token
      · subst htoken
        rw [if_pos rfl]
        rw [hkey] at hnone
        have hnone' : s.ledger.live e.post.filter.currentEpoch (keyOf C s₀ tok) = none := by
          cases hl : s.ledger.live e.post.filter.currentEpoch (keyOf C s₀ tok) with
          | none => rfl
          | some r => rw [UseLedger.live_of_le hle' hl] at hnone; cases hnone
        rw [hnone'] at hacc ⊢
        exact hacc.enrol
      · rw [if_neg htoken, List.append_nil]
        exact hacc

variable (token) in
/-- The account of a token holds along every run of freshly built lanes. -/
theorem creditInv_trace {config : LanesConfig} {t : Readings} (h : create config t = .ok s₀)
    (ops : List (Op × Readings)) :
    CreditInv C token s₀ (trace (step C) s₀ ops) (exec (step C) s₀ ops) := by
  obtain ⟨-, fp, cp, up, lp, -, -, -, hl, rfl⟩ := create_eq_ok h
  refine run_induction (step C) ⟨rfl, CreditFilter.holds_init _ _ _, ?_, List.Pairwise.nil, ?_⟩
    (fun tr t op ht => ht.snoc (LedgerParams.make_eq_ok hl).2 op) ops
  · simp [enrolments]
  · intro _
    simp [Accounted, admissions, UseLedger.live, Option.filter]

/-- In a sorted list everything is at most the last element. -/
theorem le_getLast_of_sorted {l : List ℕ} (h : l.Pairwise (· ≤ ·)) {g : ℕ} (hg : g ∈ l) :
    ∃ m, l.getLast? = some m ∧ g ≤ m := by
  induction l using List.reverseRecOn with
  | nil => cases hg
  | append_singleton l m =>
    refine ⟨m, by simp, ?_⟩
    rcases List.mem_append.1 hg with hg | hg
    · exact (List.pairwise_append.1 h).2.2 g hg m (by simp)
    · exact (List.mem_singleton.1 hg).le

/-- A credited admission finds an enrolment of its token in the current or the previous
generation, and the filter has reached the epoch of the clock. -/
theorem CreditInv.exists_enrolment_of_admitted (h : CreditInv C token s₀ tr s)
    (hK : s₀.config.maxUses = s₀.ledger.params.maxUses) {op : Op × Readings}
    (hN : NoFalsePositive C token (tr ++ [entry (step C) s op]))
    (hadm : admittedToken (entry (step C) s op) = some token) :
    ∃ g ∈ enrolments token tr, (step C s op).1.filter.epochNow op.2.second ≤ g + 1 := by
  obtain ⟨epoch, -, -, heff⟩ := step_effect (C := C) (h.maxUses_eq hK) op
  rcases heff with hq | ⟨tok, hc⟩ | ⟨tok, he⟩
  · rw [hq.1] at hadm; cases hadm
  · obtain rfl : tok = token := Option.some.inj (hc.1.symm.trans hadm)
    obtain ⟨g, hg, hle⟩ := CreditInv.exists_enrolment (e := entry (step C) s op) h
      ((constants_step op).trans h.constants_eq) hN hc
    exact ⟨g, hg, hc.2.2.2.1.trans hle⟩
  · rw [he.1] at hadm; cases hadm

/-! ## The record outlives the enrolment -/

/-- A count of `n` uses since an enrolment into generation `g`, given the live record. -/
def Retained (g n : ℕ) : Option LedgerEntry → Prop
  | none => n = 0
  | some r => g ≤ r.firstEpoch ∧ n ≤ r.committed

theorem Retained.later {g n epoch ep : ℕ} {l : UseLedger} {key : String} (hep : epoch ≤ ep)
    (hg : ep < g + 2) (h : Retained g n (l.live epoch key)) : Retained g n (l.live ep key) := by
  cases hnow : l.live epoch key with
  | none =>
    rw [hnow] at h
    cases hlive : l.live ep key with
    | none => exact h
    | some r => rw [UseLedger.live_of_le hep hlive] at hnow; cases hnow
  | some r =>
    rw [hnow] at h
    have hlive : l.live ep key = some r :=
      UseLedger.live_eq_some.2 ⟨(UseLedger.live_eq_some.1 hnow).1, by have := h.1; omega⟩
    rw [hlive]
    exact h

/-- What the record of a token needs of the run after an enrolment into generation `g`. -/
def RetainedInv (C : Crypto) (token : List UInt8) (s₀ : JourneyLanes) (g : ℕ) (tr : List Event)
    (s : JourneyLanes) : Prop :=
  s.constants = s₀.constants ∧ g ≤ s.filter.currentEpoch ∧
    (s.filter.currentEpoch < g + 2 → Retained g (admissions token tr)
      (s.ledger.live s.filter.currentEpoch (keyOf C s₀ token)))

theorem RetainedInv.snoc (hK : s₀.config.maxUses = s₀.ledger.params.maxUses) {g : ℕ}
    (h : RetainedInv C token s₀ g tr s) (op : Op × Readings) :
    RetainedInv C token s₀ g (tr ++ [entry (step C) s op]) (step C s op).1 := by
  obtain ⟨hconst, hg, hret⟩ := h
  have hKs : s.config.maxUses = s.ledger.params.maxUses := by
    simp only [constants, Prod.mk.injEq] at hconst
    rw [hconst.1, hK, hconst.2.2.2.2.2]
  have hkey (tok : List UInt8) : keyOf C s tok = keyOf C s₀ tok := by
    rw [keyOf, keyOf, digest_of_constants hconst]
  obtain ⟨epoch, hle, hle', heff⟩ := step_effect (C := C) hKs op
  have hconst' := (constants_step (C := C) op).trans hconst
  generalize he : entry (step C) s op = e at hle' heff
  have hpre : e.pre = s := by rw [← he]; rfl
  have hpost : e.post = (step C s op).1 := by rw [← he]; rfl
  rw [← hpost] at hconst' ⊢
  refine ⟨hconst', hg.trans (hle.trans hle'), fun hlt => ?_⟩
  have hret := hret ((hle.trans hle').trans_lt hlt)
  rcases heff with ⟨hadm, -, -, hlive⟩ | ⟨tok, hadm, -, -, -, -, -, hroom, hlive⟩ |
    ⟨tok, hadm, -, -, hsame, -⟩
  · have hcount : admissions token (tr ++ [e]) = admissions token tr := by
      simp [admissions_snoc, hadm]
    rw [hcount, hlive _ _ hle', hpre]
    exact hret.later (hle.trans hle') hlt
  · rw [hpre] at hroom hlive
    have hret := hret.later hle (hle'.trans_lt hlt)
    refine Retained.later (l := e.post.ledger) hle' hlt ?_
    rw [hlive _ _ le_rfl, admissions_snoc, hadm]
    by_cases hk : keyOf C s₀ token = keyOf C s tok
    · rw [if_pos hk, UseLedger.bump_live]
      cases hl : s.ledger.live epoch (keyOf C s₀ token) with
      | none =>
        rw [hl] at hret
        have hret : admissions token tr = 0 := hret
        refine ⟨hg.trans hle, ?_⟩
        rw [hret]
        dsimp only [UseLedger.bump]
        split <;> omega
      | some r =>
        rw [hl] at hret
        have hlt := hroom r (hk ▸ hl)
        have hused := hret.2
        rw [UseLedger.bump, if_neg (not_le.2 hlt)]
        refine ⟨hret.1, ?_⟩
        dsimp only
        split <;> omega
    · have htoken : tok ≠ token := by rintro rfl; exact hk (hkey tok).symm
      rw [if_neg hk, if_neg (by simpa using htoken), add_zero]
      exact hret
  · have hcount : admissions token (tr ++ [e]) = admissions token tr := by
      simp [admissions_snoc, hadm]
    rw [hcount, hsame, hpre]
    exact hret.later (hle.trans hle') hlt

/-- After an enrolment, the ledger counts every use made since for as long as the filter can answer
positively for it. -/
theorem admissions_le_committed (hK : s₀.config.maxUses = s₀.ledger.params.maxUses)
    (hconst : s.constants = s₀.constants) {op : Op × Readings} {g : ℕ}
    (henr : enrolledToken (entry (step C) s op) = some (token, g)) (ops : List (Op × Readings))
    (hlt : (exec (step C) (step C s op).1 ops).filter.currentEpoch < g + 2) :
    admissions token (trace (step C) (step C s op).1 ops) ≤
      ((exec (step C) (step C s op).1 ops).ledger.committed (keyOf C s₀ token)
        (exec (step C) (step C s op).1 ops).filter.currentEpoch).getD 0 := by
  have hKs : s.config.maxUses = s.ledger.params.maxUses := by
    simp only [constants, Prod.mk.injEq] at hconst
    rw [hconst.1, hK, hconst.2.2.2.2.2]
  obtain ⟨epoch, -, hle', heff⟩ := step_effect (C := C) hKs op
  obtain ⟨hg, hnone, hsame⟩ : g = (step C s op).1.filter.currentEpoch ∧
      s.ledger.live epoch (keyOf C s token) = none ∧ (step C s op).1.ledger = s.ledger := by
    rcases heff with hq | ⟨tok, hc⟩ | ⟨tok, -, he, hnone, hsame, -⟩
    · rw [hq.2.1] at henr; cases henr
    · rw [hc.2.1] at henr; cases henr
    · rw [he] at henr
      cases henr
      exact ⟨rfl, hnone, hsame⟩
  have hstart : RetainedInv C token s₀ g [] (step C s op).1 := by
    refine ⟨(constants_step op).trans hconst, hg.le, fun _ => ?_⟩
    have hnow : s.ledger.live (step C s op).1.filter.currentEpoch (keyOf C s token) = none := by
      cases hl : s.ledger.live (step C s op).1.filter.currentEpoch (keyOf C s token) with
      | none => rfl
      | some r => rw [UseLedger.live_of_le hle' hl] at hnone; cases hnone
    rw [keyOf, digest_of_constants hconst] at hnow
    rw [hsame, keyOf, hnow]
    rfl
  have hend := run_induction (step C) hstart (fun _ _ op h => h.snoc hK op) ops
  have hret := hend.2.2 hlt
  rw [UseLedger.committed_eq]
  cases hl : (exec (step C) (step C s op).1 ops).ledger.live
      (exec (step C) (step C s op).1 ops).filter.currentEpoch (keyOf C s₀ token) with
  | none =>
    rw [hl] at hret
    exact (show admissions token _ = 0 from hret).le
  | some r =>
    rw [hl] at hret
    exact hret.2

/-- **The use bound.** In every run of freshly built lanes, whatever the clock reads, and for every
token the filter gives no false positive for: its credited admissions are at most `maxUses` times
its enrolments; each of them follows an enrolment, and the epoch of the clock when the filter is
asked is less than two past the last one; and while the filter can still answer positively for an
enrolment, the ledger counts every credited admission made since. -/
theorem credit_use_bound {config : LanesConfig} {t₀ : Readings} (h : create config t₀ = .ok s₀)
    (ops : List (Op × Readings)) (hN : NoFalsePositive C token (trace (step C) s₀ ops)) :
    (admissions token (trace (step C) s₀ ops) : ℚ) ≤
      config.maxUses * (enrolments token (trace (step C) s₀ ops)).length ∧
    (∀ pre e post, trace (step C) s₀ ops = pre ++ e :: post → admittedToken e = some token →
      ∃ g, (enrolments token pre).getLast? = some g ∧
        e.post.filter.epochNow e.input.2.second < g + 2) ∧
    ∀ pre e post g, trace (step C) s₀ ops = pre ++ e :: post →
      enrolledToken e = some (token, g) → (exec (step C) s₀ ops).filter.currentEpoch < g + 2 →
      admissions token post ≤ ((exec (step C) s₀ ops).ledger.committed (keyOf C s₀ token)
        (exec (step C) s₀ ops).filter.currentEpoch).getD 0 := by
  obtain ⟨hK, hmax⟩ : s₀.config.maxUses = s₀.ledger.params.maxUses ∧
      config.maxUses = s₀.ledger.params.maxUses := by
    obtain ⟨-, fp, cp, up, lp, -, -, -, hl, rfl⟩ := create_eq_ok h
    exact ⟨(LedgerParams.make_eq_ok hl).2, (LedgerParams.make_eq_ok hl).2⟩
  refine ⟨?_, ?_, ?_⟩
  · have hle := ((creditInv_trace (C := C) token h ops).account hN).le
    rw [hmax]
    exact_mod_cast hle
  · intro pre e post htr hadm
    obtain ⟨js, i, ks, rfl, rfl, rfl, rfl⟩ := trace_eq_append_cons (step C) htr
    have hinv := creditInv_trace (C := C) token h js
    have hN' : NoFalsePositive C token
        (trace (step C) s₀ js ++ [entry (step C) (exec (step C) s₀ js) i]) := by
      rintro pre e post heq
      refine hN pre e (post ++ trace (step C) (exec (step C) s₀ (js ++ [i])) ks) ?_
      rw [htr, ← List.cons_append, ← List.append_assoc, ← heq, List.append_assoc,
        List.singleton_append]
    obtain ⟨g, hg, hle⟩ := hinv.exists_enrolment_of_admitted hK hN' hadm
    obtain ⟨last, hlast, hlast'⟩ := le_getLast_of_sorted hinv.sorted hg
    exact ⟨last, hlast, by rw [entry_post, entry_input]; omega⟩
  · intro pre e post g htr henr hlt
    obtain ⟨js, i, ks, rfl, rfl, rfl, rfl⟩ := trace_eq_append_cons (step C) htr
    have hend : exec (step C) s₀ (js ++ i :: ks) =
        exec (step C) (step C (exec (step C) s₀ js) i).1 ks := by
      rw [exec_append]; rfl
    have hpost : exec (step C) s₀ (js ++ [i]) = (step C (exec (step C) s₀ js) i).1 := by
      rw [exec_append]; rfl
    rw [hend] at hlt ⊢
    rw [hpost]
    exact admissions_le_committed hK
      (creditInv_trace (C := C) token h js).constants_eq henr ks hlt

/-- The sample token is enrolled and then used once. -/
def sampleUse : List (Op × Readings) :=
  [(.enroll sampleToken, ⟨1, 1, 1⟩), (.decide (samplePost sampleToken), ⟨2, 2, 3⟩)]

theorem credit_use_bound_sampleUse :
    admissions sampleToken (trace (step sampleCrypto) sampleLanes sampleUse) = 1 ∧
    (admissions sampleToken (trace (step sampleCrypto) sampleLanes sampleUse) : ℚ) ≤
      2 * (enrolments sampleToken (trace (step sampleCrypto) sampleLanes sampleUse)).length := by
  refine ⟨by decide +kernel, (credit_use_bound create_sampleConfig sampleUse ?_).1⟩
  rintro (_ | ⟨e₁, _ | ⟨e₂, pre⟩⟩) e post htr request hreq - x hx - -
  · obtain ⟨rfl, -⟩ := List.cons.inj htr
    cases hreq
  · obtain ⟨rfl, htail⟩ := List.cons.inj htr
    obtain ⟨rfl, -⟩ := List.cons.inj htail
    have hzero : (step sampleCrypto (step sampleCrypto sampleLanes
        (.enroll sampleToken, ⟨1, 1, 1⟩)).1
        (.decide (samplePost sampleToken), ⟨2, 2, 3⟩)).1.filter.currentEpoch = 0 := by
      decide +kernel
    obtain rfl : x = 0 := Nat.le_zero.1 (hx.trans_eq hzero)
    decide +kernel
  · have := congrArg List.length htr
    simp [sampleUse] at this

end Limitmark.Lanes.JourneyLanes
