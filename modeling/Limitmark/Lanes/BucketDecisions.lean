import Limitmark.Lanes.JourneyLanes

/-!
# The decisions of the lanes and their buckets

Every decision of the lanes is one of three: an open operation is admitted and touches no bucket, a
full ledger refuses and touches no bucket, and everything else is one take of one lane's bucket,
reported with the clock, the level and the number the bucket gave it (`decide_shape`). What a
decision does to the counters of the buckets can therefore be read off the decision
(`admittedCount_decide`, `takes_decide`).
-/

namespace Limitmark.Lanes

open Limitmark.Defense Limitmark.Foundations

/-- The decision that reports a take of a lane's bucket. Only an admission carries a tag. -/
def takenDecision (cls : OperationClass) (lane : Lane2) (creditTag : Option String) (k : Taken) :
    LaneDecision where
  cls := cls
  lane := some lane
  outcome := if k.ok then .admitted else .shed
  shedReason := if k.ok then none else some .laneBudget
  creditTag := if k.ok then creditTag else none
  dt := some k.dt
  lvl := some k.lvl
  lseq := some k.lseq

/-- The decision admitted in a lane. -/
def admittedIn (lane : Lane2) (d : LaneDecision) : Bool :=
  d.lane = some lane && d.outcome = .admitted

/-- The decision shed in a lane. -/
def shedIn (lane : Lane2) (d : LaneDecision) : Bool := d.lane = some lane && d.outcome = .shed

theorem admittedIn_takenDecision (cls : OperationClass) (lane lane' : Lane2)
    (creditTag : Option String) (k : Taken) :
    admittedIn lane' (takenDecision cls lane creditTag k) = (decide (lane = lane') && k.ok) := by
  cases h : k.ok <;> simp [admittedIn, takenDecision, h]

theorem shedIn_takenDecision (cls : OperationClass) (lane lane' : Lane2)
    (creditTag : Option String) (k : Taken) :
    shedIn lane' (takenDecision cls lane creditTag k) = (decide (lane = lane') && !k.ok) := by
  cases h : k.ok <;> simp [shedIn, takenDecision, h]

/-- A reported take is known by its report. -/
theorem takenDecision_inj {cls cls' : OperationClass} {lane lane' : Lane2}
    {creditTag creditTag' : Option String} {k k' : Taken}
    (h : takenDecision cls lane creditTag k = takenDecision cls' lane' creditTag' k') :
    lane = lane' ∧ k = k' := by
  simp only [takenDecision, LaneDecision.mk.injEq, Option.some.injEq] at h
  obtain ⟨-, hlane, hok, -, -, -, -, -, hdt, hlvl, hlseq, -⟩ := h
  refine ⟨hlane, ?_⟩
  cases k with
  | mk ok dt lvl lseq =>
    cases k' with
    | mk ok' dt' lvl' lseq' =>
      cases ok <;> cases ok' <;> simp_all

namespace JourneyLanes

/-- The bucket of a lane that has one. -/
def bucket (lane : Lane2) (s : JourneyLanes) : TokenBucket :=
  if lane = .credited then s.credited else s.unverified

/-- The discarded admissions of a lane that has a bucket. -/
def spentOn (lane : Lane2) (s : JourneyLanes) : ℕ :=
  if lane = .credited then s.spent.credited else s.spent.unverified

/-- The tag a lane's admissions carry: the credited ones do, the others do not. -/
def TagFor (lane : Lane2) (creditTag : Option String) : Prop :=
  creditTag.isSome ↔ lane = .credited

/-- One take of the bucket of `lane` leads from the buckets of `s` to those of `s'`. -/
structure Took (lane : Lane2) (k : Taken) (s s' : JourneyLanes) : Prop where
  take : ∃ now, (s.bucket lane).take now = (s'.bucket lane, k)
  other : ∀ lane' : Lane2, lane' ≠ .open → lane' ≠ lane → s'.bucket lane' = s.bucket lane'

variable {C : Crypto} {t : Readings} {request : LayerRequest} {s : JourneyLanes}

/-- What a decision is, and what it does to the buckets. -/
inductive Shape (cls : OperationClass) (s s' : JourneyLanes) : LaneDecision → Prop
  | opened : cls = .open → s' = s →
      Shape cls s s' { cls := .open, lane := some .open, outcome := .admitted }
  | ledgerFull : cls ≠ .open → (∀ lane, s'.bucket lane = s.bucket lane) →
      Shape cls s s' { cls, lane := none, outcome := .error, errorKind := some .ledgerFull }
  | taken {lane : Lane2} {creditTag : Option String} {k : Taken} : cls ≠ .open → lane ≠ .open →
      TagFor lane creditTag → Took lane k s s' → Shape cls s s' (takenDecision cls lane creditTag k)

/-- **The shape of a decision.** -/
theorem decide_shape (C : Crypto) (t : Readings) (request : LayerRequest) (s : JourneyLanes) :
    Shape (operationClassOf request.method request.target) s (s.decide C t request).1
      (s.decide C t request).2 := by
  rcases decide_cases C t request s with ⟨hcls, h⟩ | ⟨cls, c, epoch, member, rfl, hcls, hc, h⟩
  · rw [h]
    exact .opened hcls rfl
  · have hbucket (lane : Lane2) : c.bucket lane = s.bucket lane := by
      rw [hc.lanes]
      rfl
    rcases h with ⟨-, h⟩ | ⟨d, used, -, h⟩
    · have hd : (c.decideUnverified t.third
          (operationClassOf request.method request.target)).2 =
          takenDecision (operationClassOf request.method request.target) .unverified none
            (c.unverified.take t.third).2 := by
        unfold decideUnverified takenDecision
        cases hk : (c.unverified.take t.third).2.ok <;> simp [hk]
      rw [h, hd]
      refine .taken hcls (by decide) (by simp [TagFor]) ⟨⟨t.third, ?_⟩, ?_⟩
      · rw [← hbucket, decideUnverified_fst]
        rfl
      · intro lane' _ hne
        rw [← hbucket, decideUnverified_fst]
        cases lane' <;> first | rfl | contradiction
    · have htook (ledger : UseLedger) : Took .credited (c.credited.take t.third).2 s
          { c with ledger, credited := (c.credited.take t.third).1 } := by
        refine ⟨⟨t.third, ?_⟩, fun lane' hopen hne => ?_⟩
        · rw [← hbucket]
          rfl
        · rw [← hbucket]
          cases lane' <;> first | rfl | contradiction
      rcases decideCredited_cases C (operationClassOf request.method request.target) c t.third
        epoch d used rfl rfl with ⟨-, hd⟩ | ⟨-, hok, hd⟩ | ⟨-, hok, hd⟩ <;> rw [h, hd]
      · exact .ledgerFull hcls hbucket
      · have htaken := @Shape.taken _ _ _ _ (some (creditTagOf C d)) _ hcls (by decide)
          (by simp [TagFor]) (htook (c.ledger.roomFor used epoch).1)
        simpa [takenDecision, hok] using htaken
      · have htaken := @Shape.taken _ _ _ _ (some (creditTagOf C d)) _ hcls (by decide)
          (by simp [TagFor]) (htook ((c.ledger.roomFor used epoch).1.commit (digestBase64url d)
            epoch))
        simpa [takenDecision, hok] using htaken

/-! ## What a decision does to the counters -/

variable {cls : OperationClass} {s' : JourneyLanes} {d : LaneDecision} {lane : Lane2}

theorem Took.counters {k : Taken} {l : Lane2} (h : Took l k s s') (hlane : lane ≠ .open) :
    (s'.bucket lane).admittedCount =
        (s.bucket lane).admittedCount + (if l = lane ∧ k.ok then 1 else 0) ∧
      (s'.bucket lane).shedCount =
        (s.bucket lane).shedCount + (if l = lane ∧ ¬ k.ok then 1 else 0) ∧
      (s'.bucket lane).takes = (s.bucket lane).takes + (if l = lane then 1 else 0) := by
  obtain ⟨now, htake⟩ := h.take
  by_cases hl : l = lane
  · subst hl
    have hadmitted := TokenBucket.admittedCount_take now (s.bucket l)
    have hshed := TokenBucket.shedCount_take now (s.bucket l)
    have htakes := TokenBucket.takes_take now (s.bucket l)
    rw [htake] at hadmitted hshed htakes
    refine ⟨by simpa using hadmitted, ?_, by simpa using htakes⟩
    rw [hshed]
    cases k.ok <;> simp
  · rw [h.other lane hlane (Ne.symm hl)]
    simp [hl]

/-- The admissions of a bucket are the decisions admitted in its lane. -/
theorem Shape.admittedCount (h : Shape cls s s' d) (hlane : lane ≠ .open) :
    (s'.bucket lane).admittedCount =
      (s.bucket lane).admittedCount + if admittedIn lane d then 1 else 0 := by
  cases h with
  | opened hcls hs => simp [hs, admittedIn, hlane.symm]
  | ledgerFull hcls hb => simp [hb, admittedIn]
  | taken hcls hl htag htook =>
    rw [(htook.counters hlane).1, admittedIn_takenDecision]
    simp

/-- The takes of a bucket are the decisions of its lane. -/
theorem Shape.takes (h : Shape cls s s' d) (hlane : lane ≠ .open) :
    (s'.bucket lane).takes = (s.bucket lane).takes +
      ((if admittedIn lane d then 1 else 0) + if shedIn lane d then 1 else 0) := by
  cases h with
  | opened hcls hs => simp [hs, admittedIn, shedIn, hlane.symm]
  | ledgerFull hcls hb => simp [hb, admittedIn, shedIn]
  | @taken l creditTag k hcls hl htag htook =>
    rw [(htook.counters hlane).2.2, admittedIn_takenDecision, shedIn_takenDecision]
    by_cases h : l = lane <;> cases k.ok <;> simp [h]

/-- A reported take was made. -/
theorem Shape.took (h : Shape cls s s' d) {cls' : OperationClass} {creditTag : Option String}
    {k : Taken} (hd : d = takenDecision cls' lane creditTag k) : Took lane k s s' := by
  cases h with
  | opened => simp [takenDecision] at hd
  | ledgerFull => simp [takenDecision] at hd
  | taken _ _ _ htook =>
    obtain ⟨rfl, rfl⟩ := takenDecision_inj hd
    exact htook

/-! ## What the other operations do to the buckets -/

/-- No operation but a decision takes from a bucket. -/
theorem counters_step (C : Crypto) (s : JourneyLanes) (op : Op × Readings)
    (hop : ∀ request, op.1 ≠ .decide request) (lane : Lane2) :
    ((step C s op).1.bucket lane).admittedCount = (s.bucket lane).admittedCount ∧
      ((step C s op).1.bucket lane).takes = (s.bucket lane).takes := by
  obtain ⟨request | token | _, t⟩ := op
  · exact absurd rfl (hop request)
  · rcases enroll_cases C t s token with ⟨f, -, h⟩ | ⟨f, -, -, -, h⟩ <;> simp [step, h, bucket]
  · cases lane <;> simp [step, snapshot, bucket, TokenBucket.snapshot, TokenBucket.levelUnits]

/-- The counters of recorded decisions are moved by records alone. -/
theorem records_step (C : Crypto) (s : JourneyLanes) (op : Op × Readings) :
    (step C s op).1.decisionCounts = s.decisionCounts ∧ (step C s op).1.spent = s.spent := by
  obtain ⟨request | token | _, t⟩ := op
  · rcases decide_cases C t request s with ⟨-, h⟩ | ⟨cls, c, epoch, member, -, -, hc, h⟩
    · simp [step, h]
    · have hcounts : c.decisionCounts = s.decisionCounts ∧ c.spent = s.spent := by
        rw [hc.lanes]
        exact ⟨rfl, rfl⟩
      rcases h with ⟨-, h⟩ | ⟨d, used, -, h⟩
      · simp only [step, h, decideUnverified_fst]
        exact hcounts
      · rcases decideCredited_cases C cls c t.third epoch d used rfl rfl with
          ⟨-, hd⟩ | ⟨-, -, hd⟩ | ⟨-, -, hd⟩ <;> simp only [step, h, hd] <;> exact hcounts
  · rcases enroll_cases C t s token with ⟨f, -, h⟩ | ⟨f, -, -, -, h⟩ <;> simp [step, h]
  · exact ⟨rfl, rfl⟩

/-! ## What a record does -/

@[simp] theorem bucket_record (d : LaneDecision) (lane : Lane2) :
    (s.record d).bucket lane = s.bucket lane := by
  unfold record
  split <;> rfl

/-- A record counts the lane a decision was discarded in, where that lane has a bucket. -/
theorem spentOn_record (d : LaneDecision) (hopen : d.spent ≠ some .open) (hlane : lane ≠ .open) :
    (s.record d).spentOn lane = s.spentOn lane + if d.spent = some lane then 1 else 0 := by
  unfold record
  cases hspent : d.spent with
  | none => simp [spentOn]
  | some l => cases l <;> cases lane <;> simp_all [spentOn]

theorem decisionCounts_record (d : LaneDecision) (key : DecisionKey) :
    ((s.record d).decisionCounts.lookup key).getD 0 =
      (s.decisionCounts.lookup key).getD 0 + if (d.cls, d.lane, d.outcome) = key then 1 else 0 := by
  have hcounts : (s.record d).decisionCounts = s.decisionCounts.insert (d.cls, d.lane, d.outcome)
      ((s.decisionCounts.lookup (d.cls, d.lane, d.outcome)).getD 0 + 1) := by
    unfold record
    split <;> rfl
  rw [hcounts, Table.lookup_insert_eq]
  by_cases h : (d.cls, d.lane, d.outcome) = key
  · subst h
    simp
  · simp [h, Ne.symm h]

end JourneyLanes

end Limitmark.Lanes
