import Limitmark.Lanes.CreditFilter
import Limitmark.Lanes.Decision
import Limitmark.Lanes.TokenBucket
import Limitmark.Lanes.UseLedger

/-!
# Journey lanes

`JourneyLanes` of `defense/core/lanes.ts`: one synchronous decision classifies a request from the
filter and the ledger and then takes from exactly one bucket. The clock is read several times
within one operation, by the filter on every access and by the bucket; each operation therefore
comes with the readings it makes, in the order it makes them.

A decision is a classification (`classify`), which leaves the buckets alone, and one of two tails,
`decideUnverified` and `decideCredited`. Only the second reads or writes the credited bucket or
commits to the ledger.
-/

namespace Limitmark.Lanes

open Limitmark.Defense Limitmark.Foundations

/-! ## Token extraction -/

def TOKEN_FIELD : List UInt8 := asciiBytes "submissionToken="

/-- `/^[A-Za-z0-9_-]{43}$/`. -/
def isTokenValue (value : List UInt8) : Bool :=
  value.length = 43 && value.all fun b => isBase64url (Char.ofNat b.toNat)

/-- Scans the fields of a body; a second or a malformed token field leaves nothing. -/
def scanFields (found : Option (List UInt8)) : List (List UInt8) → Option (List UInt8)
  | [] => found
  | field :: rest =>
    match field.dropPrefix? TOKEN_FIELD with
    | none => scanFields found rest
    | some value =>
      if found.isSome then none
      else if isTokenValue value then scanFields (some value) rest
      else none

/-- The one submission token of a complete urlencoded body. No decoding. -/
def extractSubmissionToken (request : LayerRequest) : Option (List UInt8) :=
  if request.method = "POST" ∧ request.bodyStatus = .complete then
    request.body.bind fun body => scanFields none (body.splitOn 38)
  else none

/-! ## The mechanism -/

structure BucketConfig where
  capacity : ℚ
  refillPerSecond : ℚ
  deriving DecidableEq, Repr

/-- The configuration. The filter key is given, or drawn when the lanes are built. -/
structure LanesConfig where
  filterBits : ℚ
  filterHashes : ℚ
  epochMs : ℚ
  credited : BucketConfig
  unverified : BucketConfig
  maxUses : ℚ
  ledgerCapacity : ℚ
  key : List UInt8
  deriving DecidableEq, Repr

/-- The readings of the clock within one operation, in the order they are made. An operation that
stops early makes the first ones only. -/
structure Readings where
  first : ℚ
  second : ℚ
  third : ℚ
  deriving DecidableEq, Repr

/-- The ledger capacity the credited-admission bound requires. -/
def requiredLedgerCapacity (creditedCapacity creditedRefillPerSecond epochMs : ℚ) : ℚ :=
  creditedCapacity + ⌈creditedRefillPerSecond * 2 * epochMs / 1000⌉ + 1

/-- The key of the aggregate counters: class, lane and outcome. -/
abbrev DecisionKey := OperationClass × Option Lane2 × L2Outcome

structure SpentCounts where
  credited : ℕ := 0
  unverified : ℕ := 0
  deriving DecidableEq, Repr

structure JourneyLanes where
  config : LanesConfig
  filter : CreditFilter
  credited : TokenBucket
  unverified : TokenBucket
  ledger : UseLedger
  decisionCounts : Table DecisionKey ℕ := ∅
  spent : SpentCounts := {}

structure LanesSnapshot where
  epoch : ℕ
  credited : BucketSnapshot
  unverified : BucketSnapshot
  filter : FilterStats
  poisoned : Bool
  ledger : LedgerSnapshot
  decisions : Table DecisionKey ℕ
  spentOnDiscard : SpentCounts
  digest : String

inductive EnrollResult
  | ok (creditTag : String)
  | alreadyEnrolled
  deriving DecidableEq, Repr

/-- The tag a credit is reported under. -/
def creditTagOf (C : Crypto) (digest : Digest) : String :=
  String.ofList ((base64urlChars
    (C.sha256 (asciiBytes ("cr:" ++ digestBase64url digest))).toList).take 16)

def hexDigits (bytes : List UInt8) : List Char :=
  bytes.flatMap fun b => [Nat.digitChar (b.toNat / 16), Nat.digitChar (b.toNat % 16)]

/-- The text whose hash tells two quiescent states apart. -/
def quiescenceText (credited unverified : BucketSnapshot) (popcount : ℕ × ℕ) (size : ℕ) : String :=
  "\x7b\"c\":[" ++ toString credited.capacity ++ "," ++ toString credited.levelUnits ++
    "],\"u\":[" ++ toString unverified.capacity ++ "," ++ toString unverified.levelUnits ++
    "],\"f\":[" ++ toString popcount.1 ++ "," ++ toString popcount.2 ++
    "],\"l\":" ++ toString size ++ "\x7d"

namespace JourneyLanes

/-- `new JourneyLanes(config)`. -/
def create (config : LanesConfig) (t : Readings) : Except String JourneyLanes :=
  if config.ledgerCapacity < requiredLedgerCapacity config.credited.capacity
      config.credited.refillPerSecond config.epochMs then
    .error ("ledger capacity " ++ toString config.ledgerCapacity ++
      " is below the credited-admission bound " ++ toString (requiredLedgerCapacity
        config.credited.capacity config.credited.refillPerSecond config.epochMs))
  else do
    let filter ← FilterParams.make config.filterBits config.filterHashes config.epochMs
    let credited ← TokenBucket.create config.credited.capacity config.credited.refillPerSecond
      t.second
    let unverified ← TokenBucket.create config.unverified.capacity
      config.unverified.refillPerSecond t.third
    let ledger ← LedgerParams.make config.ledgerCapacity config.maxUses
    return { config, filter := .init filter config.key t.first, credited, unverified,
             ledger := { params := ledger } }

/-- Advances the filter, purges the ledger, and looks the token of a mutation up. The digest it
returns is that of a token the filter answered positively for. -/
def classify (C : Crypto) (t : Readings) (request : LayerRequest) (cls : OperationClass)
    (s : JourneyLanes) : JourneyLanes × ℕ × Option Digest :=
  let (filter, epoch) := s.filter.advance t.first
  let s := { s with filter, ledger := s.ledger.maybePurge epoch }
  if cls = .mutation then
    match extractSubmissionToken request with
    | none => (s, epoch, none)
    | some token =>
      let digest := s.filter.digest C token
      let (filter, hit) := s.filter.has t.second digest
      let s := { s with filter }
      (s, epoch, if hit then some digest else none)
  else (s, epoch, none)

def decideUnverified (now : ℚ) (cls : OperationClass) (s : JourneyLanes) :
    JourneyLanes × LaneDecision :=
  let (unverified, taken) := s.unverified.take now
  let s := { s with unverified }
  if taken.ok then
    (s, { cls, lane := some .unverified, outcome := .admitted,
          dt := some taken.dt, lvl := some taken.lvl, lseq := some taken.lseq })
  else
    (s, { cls, lane := some .unverified, outcome := .shed, shedReason := some .laneBudget,
          dt := some taken.dt, lvl := some taken.lvl, lseq := some taken.lseq })

/-- The credited tail: a new record needs a free slot before anything is consumed. -/
def decideCredited (C : Crypto) (now : ℚ) (cls : OperationClass) (epoch : ℕ) (digest : Digest)
    (used : Option ℕ) (s : JourneyLanes) : JourneyLanes × LaneDecision :=
  let (ledger, room) := s.ledger.roomFor used epoch
  let s := { s with ledger }
  if room then
    let (credited, taken) := s.credited.take now
    let s := { s with credited }
    if taken.ok then
      ({ s with ledger := s.ledger.commit (digestBase64url digest) epoch },
       { cls, lane := some .credited, outcome := .admitted,
         creditTag := some (creditTagOf C digest),
         dt := some taken.dt, lvl := some taken.lvl, lseq := some taken.lseq })
    else
      (s, { cls, lane := some .credited, outcome := .shed, shedReason := some .laneBudget,
            dt := some taken.dt, lvl := some taken.lvl, lseq := some taken.lseq })
  else (s, { cls, lane := none, outcome := .error, errorKind := some .ledgerFull })

/-- The member, with the uses it has committed, if there are uses left. -/
def candidate (s : JourneyLanes) (epoch : ℕ) (member : Option Digest) :
    Option (Digest × Option ℕ) :=
  member.bind fun digest =>
    let used := s.ledger.committed (digestBase64url digest) epoch
    if used.all fun n : ℕ => (n : ℚ) < s.config.maxUses then some (digest, used) else none

/-- One synchronous decision. -/
def decide (C : Crypto) (t : Readings) (request : LayerRequest) (s : JourneyLanes) :
    JourneyLanes × LaneDecision :=
  let cls := operationClassOf request.method request.target
  if cls = .open then (s, { cls := .open, lane := some .open, outcome := .admitted })
  else
    let (s, epoch, member) := s.classify C t request cls
    match s.candidate epoch member with
    | none => s.decideUnverified t.third cls
    | some (digest, used) => s.decideCredited C t.third cls epoch digest used

/-- Enrollment, after the response was delivered. -/
def enroll (C : Crypto) (t : Readings) (token : List UInt8) (s : JourneyLanes) :
    JourneyLanes × EnrollResult :=
  let digest := s.filter.digest C token
  let (filter, epoch) := s.filter.advance t.first
  let s := { s with filter }
  if (s.ledger.committed (digestBase64url digest) epoch).isSome then (s, .alreadyEnrolled)
  else
    let (filter, active) := s.filter.hasInActive t.second digest
    let s := { s with filter }
    if active then (s, .alreadyEnrolled)
    else ({ s with filter := s.filter.insert t.third digest }, .ok (creditTagOf C digest))

/-- Counts a final decision. -/
def record (decision : LaneDecision) (s : JourneyLanes) : JourneyLanes :=
  let key : DecisionKey := (decision.cls, decision.lane, decision.outcome)
  let s := { s with
    decisionCounts := s.decisionCounts.insert key ((s.decisionCounts.lookup key).getD 0 + 1) }
  match decision.spent with
  | none => s
  | some .credited => { s with spent := { s.spent with credited := s.spent.credited + 1 } }
  | some _ => { s with spent := { s.spent with unverified := s.spent.unverified + 1 } }

/-- An observation applies the same purge a decision would. -/
def snapshot (C : Crypto) (t : Readings) (s : JourneyLanes) : JourneyLanes × LanesSnapshot :=
  let (filter, stats) := s.filter.stats t.first
  let ledger := s.ledger.maybePurge stats.epoch
  let (credited, c) := s.credited.snapshot t.second
  let (unverified, u) := s.unverified.snapshot t.third
  let l := ledger.snapshot
  ({ s with filter, ledger, credited, unverified },
   { epoch := stats.epoch, credited := c, unverified := u, filter := stats
     poisoned := FPR_POISON_THRESHOLD < stats.fprEstimate, ledger := l
     decisions := s.decisionCounts, spentOnDiscard := s.spent
     digest := String.ofList ((hexDigits
       (C.sha256 (asciiBytes (quiescenceText c u stats.popcount l.size))).toList).take 16) })

/-! ## Runs -/

inductive Op
  | decide (request : LayerRequest)
  | enroll (token : List UInt8)
  | snapshot
  deriving DecidableEq, Repr

inductive Result
  | decided (decision : LaneDecision)
  | enrolled (result : EnrollResult)
  | observed (snapshot : LanesSnapshot)

/-- One operation with the readings it makes. -/
def step (C : Crypto) (s : JourneyLanes) (op : Op × Readings) : JourneyLanes × Result :=
  match op.1 with
  | .decide request => let r := s.decide C op.2 request; (r.1, .decided r.2)
  | .enroll token => let r := s.enroll C op.2 token; (r.1, .enrolled r.2)
  | .snapshot => let r := s.snapshot C op.2; (r.1, .observed r.2)

/-- The readings of an operation that follows a reading `p` do not step back. -/
def Ordered (p : ℚ) (op : Op × Readings) : Prop :=
  p ≤ op.2.first ∧ op.2.first ≤ op.2.second ∧ op.2.second ≤ op.2.third

/-- A run under a nondecreasing clock, from the reading `p` on. -/
def Nondecreasing (p : ℚ) (ops : List (Op × Readings)) : Prop :=
  Paced Ordered (fun _ op => op.2.third) p ops

/-! ## What a classification does -/

variable (C : Crypto) (t : Readings) (request : LayerRequest) (cls : OperationClass)
  (s : JourneyLanes)

/-- The epoch a decision works in: that of its first reading. -/
theorem classify_epoch :
    (s.classify C t request cls).2.1 = (s.filter.advance t.first).2 := by
  unfold classify
  dsimp only
  split
  · split <;> rfl
  · rfl

/-- Only the filter and the ledger are touched, and the ledger only by a purge. -/
theorem classify_lanes : (s.classify C t request cls).1 = { s with
    filter := (s.classify C t request cls).1.filter
    ledger := s.ledger.maybePurge (s.filter.advance t.first).2 } := by
  unfold classify
  dsimp only
  split
  · split <;> rfl
  · rfl

/-- The filter has only moved, at least to the epoch of the decision. -/
theorem classify_filter :
    CreditFilter.Moved s.filter (s.classify C t request cls).1.filter ∧
      (s.classify C t request cls).2.1 ≤ (s.classify C t request cls).1.filter.currentEpoch := by
  have hadv := CreditFilter.moved_advance s.filter t.first
  rw [classify_epoch]
  unfold classify
  dsimp only
  split
  · split
    · exact ⟨hadv, le_rfl⟩
    · next token _ =>
      have hhas := CreditFilter.moved_has (s.filter.advance t.first).1 t.second
        ((s.filter.advance t.first).1.digest C token)
      exact ⟨hadv.trans hhas, hhas.currentEpoch_le⟩
  · exact ⟨hadv, le_rfl⟩

/-- A member is the digest of the token of a mutation that the filter answered positively for. -/
theorem classify_member {d : Digest} (h : (s.classify C t request cls).2.2 = some d) :
    cls = .mutation ∧ ∃ token, extractSubmissionToken request = some token ∧
      d = s.filter.digest C token ∧
      ((s.filter.advance t.first).1.has t.second d).2 = true ∧
      (s.classify C t request cls).1.filter =
        ((s.filter.advance t.first).1.has t.second d).1 := by
  unfold classify at h ⊢
  dsimp only at h ⊢
  split at h
  · next hcls =>
    subst hcls
    split at h
    · cases h
    · next token htoken =>
      simp only [htoken, if_true]
      split at h
      · next hit =>
        cases h
        exact ⟨trivial, token, rfl, CreditFilter.digest_advance _ _ C token, hit, rfl⟩
      · cases h
  · cases h

/-- What is known of the lanes `c`, the epoch and the member that a classification returns. -/
structure Classified (C : Crypto) (t : Readings) (request : LayerRequest) (cls : OperationClass)
    (s c : JourneyLanes) (epoch : ℕ) (member : Option Digest) : Prop where
  lanes : c = { s with filter := c.filter, ledger := s.ledger.maybePurge epoch }
  epoch_eq : epoch = (s.filter.advance t.first).2
  moved : CreditFilter.Moved s.filter c.filter
  epoch_le : epoch ≤ c.filter.currentEpoch
  member : ∀ d, member = some d → cls = .mutation ∧
    ∃ token, extractSubmissionToken request = some token ∧ d = s.filter.digest C token ∧
      ((s.filter.advance t.first).1.has t.second d).2 = true ∧
      c.filter = ((s.filter.advance t.first).1.has t.second d).1

theorem classified {c : JourneyLanes} {epoch : ℕ} {member : Option Digest}
    (h : s.classify C t request cls = (c, epoch, member)) :
    Classified C t request cls s c epoch member where
  lanes := by
    have hl := classify_lanes C t request cls s
    rw [← classify_epoch C t request cls s, h] at hl
    exact hl
  epoch_eq := by rw [← classify_epoch C t request cls s, h]
  moved := by simpa [h] using (classify_filter C t request cls s).1
  epoch_le := by simpa [h] using (classify_filter C t request cls s).2
  member := by
    intro d hd
    have hm := classify_member C t request cls s (d := d)
    rw [h] at hm
    exact hm hd

theorem Classified.currentEpoch_le {c : JourneyLanes} {epoch : ℕ} {member : Option Digest}
    (h : Classified C t request cls s c epoch member) : s.filter.currentEpoch ≤ epoch := by
  rw [h.epoch_eq]
  exact (CreditFilter.moved_advance s.filter t.first).currentEpoch_le

/-! ## What a decision does -/

variable {C t request cls s} {now : ℚ} {epoch : ℕ} {d : Digest} {used : Option ℕ}

/-- A candidate is a member whose committed uses, if it has a live record, are below the limit. -/
theorem candidate_eq_some {member : Option Digest} :
    s.candidate epoch member = some (d, used) ↔ member = some d ∧
      used = s.ledger.committed (digestBase64url d) epoch ∧
      used.all (fun n : ℕ => (n : ℚ) < s.config.maxUses) = true := by
  cases member with
  | none => simp [candidate]
  | some d' =>
    simp only [candidate, Option.bind_some, Option.some.injEq]
    constructor
    · intro h
      split at h
      · next hall =>
        obtain ⟨rfl, rfl⟩ := Prod.mk.inj (Option.some.inj h)
        exact ⟨rfl, rfl, hall⟩
      · cases h
    · rintro ⟨rfl, rfl, hall⟩
      exact if_pos hall

variable (C t request s) in
/-- A decision is open, or its classification goes on to one of the two tails. -/
theorem decide_cases :
    (operationClassOf request.method request.target = .open ∧
      s.decide C t request = (s, { cls := .open, lane := some .open, outcome := .admitted })) ∨
    ∃ cls c epoch member, cls = operationClassOf request.method request.target ∧ cls ≠ .open ∧
      Classified C t request cls s c epoch member ∧
      ((c.candidate epoch member = none ∧ s.decide C t request = c.decideUnverified t.third cls) ∨
        ∃ d used, c.candidate epoch member = some (d, used) ∧
          s.decide C t request = c.decideCredited C t.third cls epoch d used) := by
  by_cases hcls : operationClassOf request.method request.target = .open
  · exact Or.inl ⟨hcls, by rw [decide, if_pos hcls]⟩
  · obtain ⟨c, epoch, member, h⟩ : ∃ c epoch member, s.classify C t request
        (operationClassOf request.method request.target) = (c, epoch, member) := ⟨_, _, _, rfl⟩
    refine Or.inr ⟨_, c, epoch, member, rfl, hcls, classified C t request _ s h, ?_⟩
    rw [decide, if_neg hcls, h]
    dsimp only
    cases hc : c.candidate epoch member with
    | none => exact Or.inl ⟨rfl, rfl⟩
    | some r => exact Or.inr ⟨r.1, r.2, rfl, rfl⟩

/-- The unverified tail touches the unverified bucket alone. -/
theorem decideUnverified_fst : (s.decideUnverified now cls).1 =
    { s with unverified := (s.unverified.take now).1 } := by
  unfold decideUnverified
  dsimp only
  split <;> rfl

theorem decideUnverified_lane : (s.decideUnverified now cls).2.lane = some .unverified := by
  unfold decideUnverified
  dsimp only
  split <;> rfl

theorem decideUnverified_errorKind : (s.decideUnverified now cls).2.errorKind = none := by
  unfold decideUnverified
  dsimp only
  split <;> rfl

variable (C cls s now epoch d used) in
/-- The credited tail refuses for want of room, sheds, or admits and commits. -/
theorem decideCredited_cases {r : UseLedger × Bool} {k : TokenBucket × Taken}
    (hr : s.ledger.roomFor used epoch = r) (hk : s.credited.take now = k) :
    (r.2 = false ∧ s.decideCredited C now cls epoch d used =
      ({ s with ledger := r.1 },
       { cls, lane := none, outcome := .error, errorKind := some .ledgerFull })) ∨
    (r.2 = true ∧ k.2.ok = false ∧ s.decideCredited C now cls epoch d used =
      ({ s with ledger := r.1, credited := k.1 },
       { cls, lane := some .credited, outcome := .shed, shedReason := some .laneBudget,
         dt := some k.2.dt, lvl := some k.2.lvl, lseq := some k.2.lseq })) ∨
    (r.2 = true ∧ k.2.ok = true ∧ s.decideCredited C now cls epoch d used =
      ({ s with ledger := r.1.commit (digestBase64url d) epoch, credited := k.1 },
       { cls, lane := some .credited, outcome := .admitted,
         creditTag := some (creditTagOf C d),
         dt := some k.2.dt, lvl := some k.2.lvl, lseq := some k.2.lseq })) := by
  subst hr hk
  unfold decideCredited
  dsimp only
  split
  · next hroom =>
    split
    · next hok => exact Or.inr (Or.inr ⟨hroom, hok, rfl⟩)
    · next hok => exact Or.inr (Or.inl ⟨hroom, by simpa using hok, rfl⟩)
  · next hroom => exact Or.inl ⟨by simpa using hroom, rfl⟩

/-! ## What an enrolment does -/

variable (C t s) in
/-- An enrolment moves the filter and does nothing else, or it finds no live record and no active
credit, and inserts. -/
theorem enroll_cases (token : List UInt8) :
    (∃ f, CreditFilter.Moved s.filter f ∧
      s.enroll C t token = ({ s with filter := f }, .alreadyEnrolled)) ∨
    ∃ f, CreditFilter.Moved s.filter f ∧ (s.filter.advance t.first).2 ≤ f.currentEpoch ∧
      s.ledger.live (s.filter.advance t.first).2 (digestBase64url (s.filter.digest C token)) =
        none ∧
      s.enroll C t token = ({ s with filter := f.insert t.third (s.filter.digest C token) },
        .ok (creditTagOf C (s.filter.digest C token))) := by
  have hadv := CreditFilter.moved_advance s.filter t.first
  have hact := CreditFilter.moved_hasInActive (s.filter.advance t.first).1 t.second
    (s.filter.digest C token)
  unfold enroll
  dsimp only
  split
  · exact Or.inl ⟨_, hadv, rfl⟩
  · next hnone =>
    split
    · exact Or.inl ⟨_, hadv.trans hact, rfl⟩
    · refine Or.inr ⟨_, hadv.trans hact, hact.currentEpoch_le, ?_, rfl⟩
      simpa [UseLedger.committed_eq] using hnone

/-! ## What never changes -/

/-- The configuration, the keys and the parameters the parts were built with. -/
def constants (s : JourneyLanes) :
    LanesConfig × FilterParams × List UInt8 × ℚ × BucketParams × LedgerParams :=
  (s.config, s.filter.params, s.filter.key, s.filter.t0, s.credited.params, s.ledger.params)

theorem constants_decide : (s.decide C t request).1.constants = s.constants := by
  rcases decide_cases C t request s with ⟨-, h⟩ | ⟨cls, c, epoch, member, -, -, hc, h⟩
  · rw [h]
  · have hconst : c.constants = s.constants := by
      rw [hc.lanes]
      simp [constants, hc.moved.constants]
    rcases h with ⟨-, h⟩ | ⟨d, used, -, h⟩
    · rw [h, decideUnverified_fst]
      exact hconst
    · rw [h, ← hconst]
      rcases decideCredited_cases C cls c t.third epoch d used rfl rfl with
        ⟨-, h⟩ | ⟨-, -, h⟩ | ⟨-, -, h⟩ <;> rw [h] <;> simp [constants]

theorem constants_enroll (token : List UInt8) :
    (s.enroll C t token).1.constants = s.constants := by
  rcases enroll_cases C t s token with ⟨f, hf, h⟩ | ⟨f, hf, -, -, h⟩
  · rw [h]
    simp [constants, hf.constants]
  · rw [h]
    simp [constants, CreditFilter.insert_constants, hf.constants]

theorem constants_snapshot : (s.snapshot C t).1.constants = s.constants := by
  have hf := (CreditFilter.moved_stats s.filter t.first).constants
  simp [snapshot, constants, hf, TokenBucket.snapshot, TokenBucket.levelUnits]

@[simp] theorem constants_step (op : Op × Readings) :
    (step C s op).1.constants = s.constants := by
  obtain ⟨request | token | _, t⟩ := op
  · exact constants_decide
  · exact constants_enroll token
  · exact constants_snapshot (C := C)

/-! ## The epochs of an operation -/

/-- A classification moves the filter no further than its readings. -/
theorem classify_currentEpoch_le {b : ℕ} (h : s.filter.currentEpoch ≤ b)
    (h1 : s.filter.epochNow t.first ≤ b) (h2 : s.filter.epochNow t.second ≤ b) :
    (s.classify C t request cls).1.filter.currentEpoch ≤ b := by
  have hadv : (s.filter.advance t.first).2 ≤ b := by
    rw [CreditFilter.advance_snd]
    exact max_le h h1
  unfold classify
  dsimp only
  split
  · split
    · exact hadv
    · rw [CreditFilter.currentEpoch_has, CreditFilter.advance_snd,
        CreditFilter.currentEpoch_advance, CreditFilter.epochNow_advance]
      exact max_le hadv h2
  · exact hadv

variable (C t request s) in
/-- The tails leave the filter where the classification moved it. -/
theorem decide_filter : (s.decide C t request).1.filter = s.filter ∨
    (s.decide C t request).1.filter =
      (s.classify C t request (operationClassOf request.method request.target)).1.filter := by
  rw [decide]
  by_cases hcls : operationClassOf request.method request.target = .open
  · exact Or.inl (by rw [if_pos hcls])
  · rw [if_neg hcls]
    generalize s.classify C t request _ = r
    obtain ⟨c, epoch, member⟩ := r
    right
    dsimp only
    cases hc : c.candidate epoch member with
    | none => rw [decideUnverified_fst]
    | some r =>
      rcases decideCredited_cases C (operationClassOf request.method request.target) c t.third
        epoch r.1 r.2 rfl rfl with ⟨-, h⟩ | ⟨-, -, h⟩ | ⟨-, -, h⟩ <;> simp only [h]

/-- An operation moves the filter no further than its readings. -/
theorem currentEpoch_step_le {b : ℕ} (op : Op × Readings) (h : s.filter.currentEpoch ≤ b)
    (h1 : s.filter.epochNow op.2.first ≤ b) (h2 : s.filter.epochNow op.2.second ≤ b)
    (h3 : s.filter.epochNow op.2.third ≤ b) :
    (step C s op).1.filter.currentEpoch ≤ b := by
  obtain ⟨request | token | _, t⟩ := op
  · rcases decide_filter C t request s with hf | hf
    · exact hf ▸ h
    · exact hf ▸ classify_currentEpoch_le h h1 h2
  · have hadv : (s.filter.advance t.first).2 ≤ b := by
      rw [CreditFilter.advance_snd]
      exact max_le h h1
    have hact : ((s.filter.advance t.first).1.advance t.second).2 ≤ b := by
      rw [CreditFilter.advance_snd, CreditFilter.epochNow_advance]
      exact max_le hadv h2
    simp only [step, enroll]
    split
    · exact hadv
    · split
      · exact hact
      · rw [CreditFilter.currentEpoch_insert, CreditFilter.advance_snd]
        refine max_le hact ?_
        simpa [CreditFilter.hasInActive] using h3
  · refine le_of_eq_of_le (?_ : _ = (s.filter.advance t.first).2) ?_
    · rfl
    · rw [CreditFilter.advance_snd]
      exact max_le h h1

/-! ## What is built -/

/-- What the constructor checked, and what it starts from. -/
theorem create_eq_ok {config : LanesConfig} (h : create config t = .ok s) :
    requiredLedgerCapacity config.credited.capacity config.credited.refillPerSecond
        config.epochMs ≤ config.ledgerCapacity ∧
      ∃ (fp : FilterParams) (cp up : BucketParams) (lp : LedgerParams),
        FilterParams.make config.filterBits config.filterHashes config.epochMs = .ok fp ∧
        BucketParams.make config.credited.capacity config.credited.refillPerSecond = .ok cp ∧
        BucketParams.make config.unverified.capacity config.unverified.refillPerSecond = .ok up ∧
        LedgerParams.make config.ledgerCapacity config.maxUses = .ok lp ∧
        s = { config, filter := .init fp config.key t.first, credited := .init cp t.second,
              unverified := .init up t.third, ledger := { params := lp } } := by
  unfold create at h
  split at h
  · cases h
  · next hcap =>
    refine ⟨not_lt.1 hcap, ?_⟩
    simp only [TokenBucket.create] at h
    cases hf : FilterParams.make config.filterBits config.filterHashes config.epochMs with
    | error e => rw [hf] at h; cases h
    | ok fp =>
    cases hc : BucketParams.make config.credited.capacity config.credited.refillPerSecond with
    | error e => rw [hf, hc] at h; cases h
    | ok cp =>
    cases hu : BucketParams.make config.unverified.capacity
        config.unverified.refillPerSecond with
    | error e => rw [hf, hc, hu] at h; cases h
    | ok up =>
    cases hl : LedgerParams.make config.ledgerCapacity config.maxUses with
    | error e => rw [hf, hc, hu, hl] at h; cases h
    | ok lp =>
      rw [hf, hc, hu, hl] at h
      exact ⟨fp, cp, up, lp, rfl, rfl, rfl, rfl, (Except.ok.inj h).symm⟩

/-! ## A small instance -/

/-- A configuration to run the lanes with: 64 bits a generation, epochs of a second, two uses. -/
def sampleConfig : LanesConfig where
  filterBits := 64
  filterHashes := 2
  epochMs := 1000
  credited := ⟨8, 4⟩
  unverified := ⟨3, 1⟩
  maxUses := 2
  ledgerCapacity := 17
  key := List.replicate 32 0

def sampleToken : List UInt8 := List.replicate 43 65

/-- The values of the hash functions on the sample token under the sample key. -/
def sampleCrypto : Crypto where
  hmacSha256 _ _ := #v[88, 169, 137, 148, 193, 0, 79, 199, 0, 173, 0, 9, 128, 94, 168, 9, 189, 83,
    68, 181, 159, 254, 135, 84, 68, 227, 194, 137, 183, 131, 136, 136]
  sha256 _ := #v[19, 189, 32, 162, 182, 79, 160, 238, 181, 1, 55, 200, 85, 79, 32, 140, 197, 7,
    130, 106, 169, 179, 135, 102, 95, 33, 137, 162, 15, 231, 86, 70]

theorem sampleFilter_bits : 64 ≤ 64 ∧ 64 ≤ 2 ^ 30 := by decide

theorem sampleFilter_pow : 64 &&& (64 - 1) = 0 := by decide

theorem sampleFilter_hashes : 1 ≤ 2 ∧ 2 ≤ 16 := by decide

theorem sampleFilter_epoch : 1 ≤ 1000 := by decide

def sampleFilter : FilterParams :=
  ⟨64, 2, 1000, sampleFilter_bits, sampleFilter_pow, sampleFilter_hashes, sampleFilter_epoch⟩

def sampleCredited : BucketParams := ⟨8, 4, by norm_num, by norm_num, by decide +kernel⟩

def sampleUnverified : BucketParams := ⟨3, 1, by norm_num, by norm_num, by decide +kernel⟩

def sampleLedger : LedgerParams := ⟨17, 2, by decide, by decide⟩

def sampleLanes : JourneyLanes where
  config := sampleConfig
  filter := .init sampleFilter sampleConfig.key 0
  credited := .init sampleCredited 0
  unverified := .init sampleUnverified 0
  ledger := { params := sampleLedger }

/-- The submission of a token. -/
def samplePost (token : List UInt8) : LayerRequest where
  method := "POST"
  target := MUTATION_TARGET
  headers := []
  bodyStatus := .complete
  body := some (TOKEN_FIELD ++ token)

theorem create_sampleConfig : create sampleConfig ⟨0, 0, 0⟩ = .ok sampleLanes := by
  have hf : FilterParams.make 64 2 1000 = .ok sampleFilter := by decide
  have hc : TokenBucket.create 8 4 0 = .ok (.init sampleCredited 0) := by decide +kernel
  have hu : TokenBucket.create 3 1 0 = .ok (.init sampleUnverified 0) := by decide +kernel
  have hl : LedgerParams.make 17 2 = .ok sampleLedger := by decide
  rw [create, if_neg (by decide +kernel)]
  simp only [sampleConfig, hf, hc, hu, hl]
  rfl

end JourneyLanes

end Limitmark.Lanes
