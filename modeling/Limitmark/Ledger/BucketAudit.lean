import Limitmark.Lanes.JourneyLanes
import Limitmark.Ledger.Events
import Mathlib.Data.List.Sort

/-!
# The bucket audit

`auditBucket` of `lab/defense/lane-accounting.ts` replays one lane's bucket from the events that
report its decisions, sorted by their number. The audit is clean exactly when the decisions are
those of some run of the bucket (`audit_clean_iff`).

Between the two stands the relation `Replays`: a chain of decisions each of which follows from the
level and the clock the one before it left. The loop of the audit is clean exactly on such chains
(`auditLoop_clean_iff`), the decisions of a run form one (`replays_made`), and every chain is made by
the run that looks at the clock once for each decision (`made_takes`).
-/

namespace Limitmark.Ledger

open Limitmark.Defense Limitmark.Lanes Limitmark.Foundations

/-! ## The audit -/

/-- The texts of the outcome and the lane of a decision. -/
structure RealDecision where
  outcome : String
  lane : String
  deriving DecidableEq, Repr

/-- A simulated decision's real verdict is its shadow. -/
def realDecision (event : PlaneEvent) : RealDecision :=
  match event.basis, event.shadow with
  | some .simulated, some shadow =>
    if shadow = "" then delivered
    else
      let parts := (shadow.toList.splitOn ':').map String.ofList
      ⟨parts.getD 0 "", parts.getD 1 "none"⟩
  | _, _ => delivered
where
  delivered : RealDecision :=
    ⟨(event.outcome.map L2Outcome.text).getD "none", (event.lane.join.map Lane2.text).getD "none"⟩

/-- Whether a decision event consumed a token. -/
def consumed (event : PlaneEvent) : Bool :=
  event.spent.isSome || (event.touched.isNone && (realDecision event).outcome = "admitted")

structure BucketAudit where
  decisions : ℕ
  admitted : ℕ := 0
  shed : ℕ := 0
  gaps : ℕ := 0
  mismatches : ℕ := 0
  firstMismatch : Option String := none
  deriving DecidableEq, Repr

def BucketAudit.flag (audit : BucketAudit) (detail : String) : BucketAudit :=
  { audit with
    mismatches := audit.mismatches + 1
    firstMismatch := some (audit.firstMismatch.getD detail) }

def BucketAudit.flagIf (audit : BucketAudit) (fault : Prop) [Decidable fault] (detail : String) :
    BucketAudit :=
  if fault then audit.flag detail else audit

/-- What the loop of the audit carries. -/
structure AuditState where
  audit : BucketAudit
  previousLevel : ℚ
  previousDt : ℤ
  expectedSeq : ℤ
  deriving DecidableEq, Repr

/-- An optional number as text. -/
def numberText : Option ℤ → String
  | none => "undefined"
  | some n => toString n

/-- The number of a decision against the one expected: a gap is counted, and the numbering goes on
from the decision's own. -/
def countGap (s : AuditState) (event : PlaneEvent) : AuditState :=
  if event.lseq = some s.expectedSeq then { s with expectedSeq := s.expectedSeq + 1 }
  else
    { s with
      audit := { s.audit with gaps := s.audit.gaps + 1 }
      expectedSeq := event.lseq.getD s.expectedSeq + 1 }

/-- A decision against the level before it: the refill, the consumption and the level after. -/
def replayDecision (capacityUnits perMs : ℚ) (s : AuditState) (event : PlaneEvent) : AuditState :=
  let dt := event.dt.getD 0
  if dt < s.previousDt then
    { s with audit := s.audit.flag ("clock went back at " ++ numberText event.lseq) }
  else
    let before := min capacityUnits (s.previousLevel + (dt - s.previousDt) * perMs)
    let audit :=
      if consumed event then
        { s.audit with admitted := s.audit.admitted + 1 }.flagIf (before < UNIT)
          ("consumed with " ++ toString before ++ " units at " ++ numberText event.lseq)
      else
        { s.audit with shed := s.audit.shed + 1 }.flagIf (UNIT ≤ before)
          ("shed with " ++ toString before ++ " units at " ++ numberText event.lseq)
    let expectedAfter := if consumed event then before - UNIT else before
    let audit := audit.flagIf (event.lvl.map (Int.cast : ℤ → ℚ) ≠ some expectedAfter)
      ("level " ++ numberText event.lvl ++ " expected " ++ toString expectedAfter ++ " at " ++
        numberText event.lseq)
    { s with
      audit
      previousLevel := (event.lvl.map (Int.cast : ℤ → ℚ)).getD expectedAfter
      previousDt := dt }

def auditStep (capacityUnits perMs : ℚ) (s : AuditState) (event : PlaneEvent) : AuditState :=
  replayDecision capacityUnits perMs (countGap s event) event

/-- The order of the numbers of two decisions. -/
def ByNumber (a b : PlaneEvent) : Prop := a.lseq.getD 0 ≤ b.lseq.getD 0

instance : DecidableRel ByNumber := fun a b =>
  inferInstanceAs (Decidable (a.lseq.getD 0 ≤ b.lseq.getD 0))

instance : Std.Total ByNumber := ⟨fun _ _ => le_total _ _⟩

instance : IsTrans PlaneEvent ByNumber := ⟨fun _ _ _ => le_trans⟩

/-- The events of one lane, in the order of their numbers. -/
def mine (decisions : List (PlaneEvent × String)) (lane : Lane2) : List PlaneEvent :=
  ((decisions.filter fun entry => entry.2 = lane.text).map Prod.fst).insertionSort ByNumber

/-- Replays one lane's bucket from its events. -/
def auditBucket (decisions : List (PlaneEvent × String)) (lane : Lane2) (bucket : BucketConfig) :
    BucketAudit :=
  let events := mine decisions lane
  let capacityUnits := bucket.capacity * UNIT
  let perMs := bucket.refillPerSecond * 1000
  let start : AuditState :=
    { audit := { decisions := events.length }
      previousLevel := capacityUnits
      previousDt := (events.head?.bind PlaneEvent.dt).getD 0
      expectedSeq := 1 }
  (events.foldl (auditStep capacityUnits perMs) start).audit

/-! ## Chains of decisions -/

/-- The decision an event reports, as the bucket itself returns it. -/
def takenOf (event : PlaneEvent) : Taken :=
  ⟨consumed event, event.dt.getD 0, event.lvl.getD 0, event.lseq.getD 0⟩

/-- The level before a decision made at `dt`, where the one before it left `level` at `clock`. -/
def levelBefore (p : BucketParams) (level clock dt : ℤ) : ℤ :=
  fill p.capacityUnits level ((dt - clock) * p.refillPerMs)

/-- A decision that follows, under the number `seq`, from the level and the clock before it. -/
structure Follows (p : BucketParams) (level clock seq : ℤ) (t : Taken) : Prop where
  lseq_eq : t.lseq = seq
  clock_le : clock ≤ t.dt
  ok_iff : t.ok = true ↔ UNIT ≤ levelBefore p level clock t.dt
  lvl_eq : t.lvl = levelBefore p level clock t.dt - if t.ok then UNIT else 0

/-- A chain of decisions, each of which follows from the one before it. -/
def Replays (p : BucketParams) (level clock seq : ℤ) : List Taken → Prop
  | [] => True
  | t :: ts => Follows p level clock seq t ∧ Replays p t.lvl t.dt (seq + 1) ts

/-! ## The loop of the audit is clean on chains, and only there -/

/-- An event that carries the clock, the level and the number of its decision. -/
structure Complete (event : PlaneEvent) : Prop where
  dt : event.dt.isSome
  lvl : event.lvl.isSome
  lseq : event.lseq.isSome

/-- The gaps and the mismatches together. -/
def BucketAudit.faults (audit : BucketAudit) : ℕ := audit.gaps + audit.mismatches

theorem BucketAudit.faults_flagIf (audit : BucketAudit) (fault : Prop) [Decidable fault]
    (detail : String) :
    (audit.flagIf fault detail).faults = audit.faults + if fault then 1 else 0 := by
  by_cases h : fault
  · simp only [flagIf, if_pos h]
    rfl
  · simp only [flagIf, if_neg h]
    rfl

variable {p : BucketParams} {s : AuditState} {event : PlaneEvent} {level clock seq : ℤ}

/-- The number of a decision is a fault exactly when it is not the one expected. -/
theorem countGap_of_complete (he : Complete event) :
    (countGap s event).audit.faults =
        s.audit.faults + (if (takenOf event).lseq = s.expectedSeq then 0 else 1) ∧
      (countGap s event).previousLevel = s.previousLevel ∧
      (countGap s event).previousDt = s.previousDt ∧
      (countGap s event).expectedSeq = (takenOf event).lseq + 1 := by
  obtain ⟨lseq, hl⟩ := Option.isSome_iff_exists.1 he.lseq
  simp only [countGap, takenOf, hl, Option.getD_some, Option.some.injEq]
  by_cases h : lseq = s.expectedSeq
  · simp [h]
  · simp only [if_neg h, BucketAudit.faults]
    refine ⟨by omega, trivial, trivial, trivial⟩

/-- A decision before the clock is a fault, and is passed over. -/
theorem replayDecision_of_lt (capacityUnits perMs : ℚ) (hdt : (takenOf event).dt < s.previousDt) :
    (replayDecision capacityUnits perMs s event).audit.faults = s.audit.faults + 1 ∧
      (replayDecision capacityUnits perMs s event).previousLevel = s.previousLevel := by
  simp only [takenOf] at hdt
  simp only [replayDecision, if_pos hdt]
  exact ⟨rfl, trivial⟩

/-- A decision is a fault for each of its outcome and its level that is not the one replayed. -/
theorem replayDecision_of_le (he : Complete event) (hlevel : s.previousLevel = level)
    (hdt : s.previousDt ≤ (takenOf event).dt) :
    (replayDecision p.capacityUnits p.refillPerMs s event).audit.faults = s.audit.faults +
        (if (takenOf event).ok = true ↔
          UNIT ≤ levelBefore p level s.previousDt (takenOf event).dt then 0 else 1) +
        (if (takenOf event).lvl = levelBefore p level s.previousDt (takenOf event).dt -
          (if (takenOf event).ok then UNIT else 0) then 0 else 1) ∧
      (replayDecision p.capacityUnits p.refillPerMs s event).previousLevel = (takenOf event).lvl ∧
      (replayDecision p.capacityUnits p.refillPerMs s event).previousDt = (takenOf event).dt ∧
      (replayDecision p.capacityUnits p.refillPerMs s event).expectedSeq = s.expectedSeq := by
  obtain ⟨dt, hd⟩ := Option.isSome_iff_exists.1 he.dt
  obtain ⟨lvl, hl⟩ := Option.isSome_iff_exists.1 he.lvl
  simp only [takenOf, hd, hl, Option.getD_some] at hdt ⊢
  have hbefore : min (p.capacityUnits : ℚ) (s.previousLevel + (dt - s.previousDt) * p.refillPerMs) =
      (levelBefore p level s.previousDt dt : ℤ) := by
    rw [hlevel, levelBefore, fill]
    push_cast
    rfl
  simp only [replayDecision, hd, hl, Option.getD_some, Option.map_some, hbefore, not_lt.2 hdt,
    if_false]
  refine ⟨?_, trivial, trivial, trivial⟩
  rw [BucketAudit.faults_flagIf]
  generalize levelBefore p level s.previousDt dt = before
  have hlt : ((before : ℚ) < UNIT) ↔ ¬ UNIT ≤ before := by
    rw [Int.cast_lt, not_le]
  have hle : ((UNIT : ℚ) ≤ before) ↔ UNIT ≤ before := Int.cast_le
  have hlvl (x : ℤ) : some (lvl : ℚ) ≠ some (x : ℚ) ↔ ¬ lvl = x := by
    rw [ne_eq, Option.some.injEq, Int.cast_inj]
  by_cases hc : consumed event = true
  · have hafter : (before : ℚ) - UNIT = ((before - UNIT : ℤ) : ℚ) := by push_cast; rfl
    simp only [hc, if_true, BucketAudit.faults_flagIf, true_iff, hafter, hlt, hlvl, ite_not]
    rfl
  · simp only [hc, if_false, BucketAudit.faults_flagIf, false_iff, hle, hlvl, ite_not, sub_zero,
      Bool.false_eq_true]
    rfl

/-- A step of the audit finds no fault exactly on a decision that follows, and then goes on from
it. -/
theorem auditStep_spec (he : Complete event) (hlevel : s.previousLevel = level) :
    (Follows p level s.previousDt s.expectedSeq (takenOf event) ∧
      (auditStep p.capacityUnits p.refillPerMs s event).audit.faults = s.audit.faults ∧
      (auditStep p.capacityUnits p.refillPerMs s event).previousLevel = (takenOf event).lvl ∧
      (auditStep p.capacityUnits p.refillPerMs s event).previousDt = (takenOf event).dt ∧
      (auditStep p.capacityUnits p.refillPerMs s event).expectedSeq = s.expectedSeq + 1) ∨
    (¬ Follows p level s.previousDt s.expectedSeq (takenOf event) ∧
      s.audit.faults < (auditStep p.capacityUnits p.refillPerMs s event).audit.faults ∧
      ∃ l : ℤ, (auditStep p.capacityUnits p.refillPerMs s event).previousLevel = l) := by
  obtain ⟨hgap, hgapLevel, hgapDt, hgapSeq⟩ := countGap_of_complete (s := s) he
  unfold auditStep
  by_cases hdt : (takenOf event).dt < s.previousDt
  · obtain ⟨hfaults, hl⟩ := replayDecision_of_lt (s := countGap s event) p.capacityUnits
      p.refillPerMs (by rwa [hgapDt])
    refine Or.inr ⟨fun h => absurd h.clock_le (not_le.2 hdt), ?_, level, ?_⟩
    · rw [hfaults, hgap]
      omega
    · rw [hl, hgapLevel, hlevel]
  · obtain ⟨hfaults, hl, hd, hs⟩ := replayDecision_of_le (p := p) (s := countGap s event) he
      (hgapLevel.trans hlevel) (by rw [hgapDt]; exact not_lt.1 hdt)
    rw [hgapDt, hgap] at hfaults
    by_cases hf : Follows p level s.previousDt s.expectedSeq (takenOf event)
    · refine Or.inl ⟨hf, ?_, hl, hd, ?_⟩
      · rw [hfaults, if_pos hf.lseq_eq, if_pos hf.ok_iff, if_pos hf.lvl_eq]
        rfl
      · rw [hs, hgapSeq, hf.lseq_eq]
    · refine Or.inr ⟨hf, ?_, _, hl⟩
      rw [hfaults]
      by_contra hle
      refine hf ⟨?_, not_lt.1 hdt, ?_, ?_⟩ <;> by_contra h <;> rw [if_neg h] at hle <;> omega

/-- The loop of the audit never takes a fault back. -/
theorem faults_le_auditLoop {events : List PlaneEvent} (he : ∀ event ∈ events, Complete event)
    (hlevel : s.previousLevel = level) :
    s.audit.faults ≤ (events.foldl (auditStep p.capacityUnits p.refillPerMs) s).audit.faults := by
  induction events generalizing s level with
  | nil => exact le_rfl
  | cons event events ih =>
    have htail := fun e h => he e (List.mem_cons_of_mem _ h)
    rcases auditStep_spec (p := p) (he event List.mem_cons_self) hlevel with
      ⟨-, hfaults, hl, -⟩ | ⟨-, hfaults, l, hl⟩
    · exact hfaults.symm.le.trans (ih htail hl)
    · exact hfaults.le.trans (ih htail hl)

/-- **The loop of the audit** finds no fault exactly on the chains. -/
theorem auditLoop_clean_iff {events : List PlaneEvent} (he : ∀ event ∈ events, Complete event)
    (hlevel : s.previousLevel = level) :
    (events.foldl (auditStep p.capacityUnits p.refillPerMs) s).audit.faults = s.audit.faults ↔
      Replays p level s.previousDt s.expectedSeq (events.map takenOf) := by
  induction events generalizing s level with
  | nil => simp [Replays]
  | cons event events ih =>
    have htail := fun e h => he e (List.mem_cons_of_mem _ h)
    simp only [List.foldl_cons, List.map_cons, Replays]
    rcases auditStep_spec (p := p) (he event List.mem_cons_self) hlevel with
      ⟨hf, hfaults, hl, hd, hs⟩ | ⟨hf, hfaults, l, hl⟩
    · have h := ih htail hl
      rw [hfaults, hd, hs] at h
      exact h.trans ⟨fun hr => ⟨hf, hr⟩, And.right⟩
    · have hle := faults_le_auditLoop (p := p) htail hl
      exact iff_of_false (by omega) fun h => hf h.1

/-! ## The decisions of a run are a chain -/

/-- The decisions a run makes, in order. -/
def made (b : TokenBucket) (ops : List (TokenBucket.Op × ℚ)) : List Taken :=
  (trace TokenBucket.step b ops).filterMap Entry.out

@[simp] theorem made_nil (b : TokenBucket) : made b [] = [] := rfl

@[simp] theorem made_cons (b : TokenBucket) (op : TokenBucket.Op × ℚ)
    (ops : List (TokenBucket.Op × ℚ)) : made b (op :: ops) =
      (TokenBucket.step b op).2.toList ++ made (TokenBucket.step b op).1 ops := by
  cases h : (TokenBucket.step b op).2 <;> simp [made, h]

variable {b : TokenBucket} {ops : List (TokenBucket.Op × ℚ)}

/-- The bucket has done nothing but look at its clock since it was left with `level` at `clock`. -/
structure Since (b : TokenBucket) (level clock : ℤ) : Prop where
  wf : b.WF
  clock_le : clock ≤ b.lastMs
  level_eq : b.level = levelBefore b.params level clock b.lastMs

theorem since_self (hb : b.WF) : Since b b.level b.lastMs where
  wf := hb
  clock_le := le_rfl
  level_eq := by rw [levelBefore, sub_self, zero_mul, fill_zero hb.level_le]

/-- Looking at the clock again is looking at it once, later. -/
theorem Since.refill (h : Since b level clock) (now : ℚ) : Since (b.refill now) level clock where
  wf := h.wf.refill now
  clock_le := by
    rw [TokenBucket.lastMs_refill]
    exact h.clock_le.trans (le_max_left _ _)
  level_eq := by
    rw [TokenBucket.level_refill now b h.wf.level_le, h.level_eq, levelBefore, levelBefore,
      fill_fill _ _ _ (TokenBucket.elapsed_nonneg now b), TokenBucket.params_refill,
      TokenBucket.lastMs_refill]
    congr 1
    ring

/-- A take reports the clock, the level and the number it leaves. -/
theorem take_reports (b : TokenBucket) (now : ℚ) :
    (b.take now).2.dt = (b.take now).1.lastMs ∧ (b.take now).2.lvl = (b.take now).1.level ∧
      (b.take now).2.lseq = (b.take now).1.takes := by
  rw [TokenBucket.lastMs_take, TokenBucket.takes_take]
  rcases TokenBucket.take_spec now b with ⟨-, ht⟩ | ⟨-, ht⟩ <;> rw [ht] <;> simp

/-- A take follows from where the bucket was left. -/
theorem Since.follows (h : Since b level clock) (now : ℚ) :
    Follows b.params level clock (b.takes + 1) (b.take now).2 := by
  have hr := h.refill now
  have hclock := hr.clock_le
  have hlevel := hr.level_eq
  rw [TokenBucket.lastMs_refill] at hclock
  rw [TokenBucket.lastMs_refill, TokenBucket.params_refill] at hlevel
  rcases TokenBucket.take_spec now b with ⟨hunit, ht⟩ | ⟨hunit, ht⟩ <;>
    rw [hlevel] at hunit ht <;> rw [ht]
  · exact ⟨rfl, hclock, iff_of_true rfl hunit, rfl⟩
  · exact ⟨rfl, hclock, iff_of_false Bool.false_ne_true (not_le.2 hunit), (sub_zero _).symm⟩

/-- A take leaves the bucket at the level and the clock it reports. -/
theorem Since.take (h : Since b level clock) (now : ℚ) :
    Since (b.take now).1 (b.take now).2.lvl (b.take now).2.dt := by
  obtain ⟨hdt, hlvl, -⟩ := take_reports b now
  rw [hdt, hlvl]
  exact since_self (h.wf.take now)

/-- **The decisions of a run** are a chain from where the bucket was left. -/
theorem replays_made (h : Since b level clock) :
    Replays b.params level clock (b.takes + 1) (made b ops) := by
  induction ops generalizing b level clock with
  | nil => trivial
  | cons op ops ih =>
    obtain ⟨_ | _, now⟩ := op
    · have hrest := ih (h.take now)
      rw [TokenBucket.params_take, TokenBucket.takes_take] at hrest
      rw [made_cons]
      exact ⟨h.follows now, by exact_mod_cast hrest⟩
    · have hrest := ih (h.refill now)
      rw [TokenBucket.params_refill, TokenBucket.takes_refill] at hrest
      rw [made_cons]
      exact hrest

/-! ## Every chain is made by a run -/

/-- The run that looks at the clock once for each decision of a chain. -/
def takes (ts : List Taken) : List (TokenBucket.Op × ℚ) :=
  ts.map fun t => (.take, (t.dt : ℚ))

/-- What follows is determined by its clock. -/
theorem Follows.eq {t t' : Taken} (h : Follows p level clock seq t)
    (h' : Follows p level clock seq t') (hdt : t.dt = t'.dt) : t = t' := by
  have hok : t.ok = t'.ok := by
    rw [Bool.eq_iff_iff, h.ok_iff, h'.ok_iff, hdt]
  have hlvl : t.lvl = t'.lvl := by
    rw [h.lvl_eq, h'.lvl_eq, hdt, hok]
  have hlseq : t.lseq = t'.lseq := h.lseq_eq.trans h'.lseq_eq.symm
  cases t
  cases t'
  simp only [Taken.mk.injEq]
  exact ⟨hok, hdt, hlvl, hlseq⟩

/-- A decision that follows from a bucket is the one the bucket makes at its time. -/
theorem take_of_follows (hb : b.WF) {t : Taken}
    (h : Follows b.params b.level b.lastMs (b.takes + 1) t) : (b.take t.dt).2 = t := by
  apply ((since_self hb).follows t.dt).eq h
  rw [(take_reports b t.dt).1, TokenBucket.lastMs_take, Int.floor_intCast,
    max_eq_right h.clock_le]

/-- **Every chain is made** by the run that takes once for each of its decisions. -/
theorem made_takes (hb : b.WF) {ts : List Taken}
    (h : Replays b.params b.level b.lastMs (b.takes + 1) ts) : made b (takes ts) = ts := by
  induction ts generalizing b with
  | nil => rfl
  | cons t ts ih =>
    obtain ⟨hfollows, hrest⟩ := h
    have ht := take_of_follows hb hfollows
    obtain ⟨hdt, hlvl, hlseq⟩ := take_reports b t.dt
    rw [ht] at hdt hlvl hlseq
    have htail : made (b.take t.dt).1 (takes ts) = ts := by
      apply ih (hb.take t.dt)
      rw [TokenBucket.params_take, ← hdt, ← hlvl, ← hlseq, hfollows.lseq_eq]
      exact hrest
    calc made b (takes (t :: ts))
        = [(b.take t.dt).2] ++ made (b.take t.dt).1 (takes ts) := made_cons b _ _
      _ = t :: ts := by rw [ht, htail, List.singleton_append]

/-! ## The order of the records -/

/-- The decisions of a chain are numbered upwards. -/
theorem Replays.pairwise {ts : List Taken} (h : Replays p level clock seq ts) :
    (∀ t ∈ ts, seq ≤ t.lseq) ∧ ts.Pairwise fun t t' => t.lseq < t'.lseq := by
  induction ts generalizing level clock seq with
  | nil => simp
  | cons t ts ih =>
    obtain ⟨hfollows, hrest⟩ := h
    obtain ⟨hle, hpair⟩ := ih hrest
    have hseq := hfollows.lseq_eq
    refine ⟨?_, List.pairwise_cons.2 ⟨fun t' ht' => ?_, hpair⟩⟩
    · intro t' ht'
      rcases List.mem_cons.1 ht' with rfl | ht'
      · exact hseq.ge
      · have := hle t' ht'
        omega
    · have := hle t' ht'
      omega

/-- A full bucket is full whenever its clock started. -/
theorem replays_full {t : Taken} {ts : List Taken} (hclock : clock ≤ t.dt) :
    Replays p p.capacityUnits clock seq (t :: ts) ↔
      Replays p p.capacityUnits t.dt seq (t :: ts) := by
  have hbefore : levelBefore p p.capacityUnits clock t.dt =
      levelBefore p p.capacityUnits t.dt t.dt := by
    have hrefill := mul_nonneg (sub_nonneg.2 hclock) p.refillPerMs_pos.le
    rw [levelBefore, levelBefore, fill_full hrefill, sub_self, zero_mul, fill_full le_rfl]
  refine and_congr ⟨fun h => ?_, fun h => ?_⟩ Iff.rfl
  · exact ⟨h.lseq_eq, le_rfl, hbefore ▸ h.ok_iff, hbefore ▸ h.lvl_eq⟩
  · exact ⟨h.lseq_eq, hclock, hbefore.symm ▸ h.ok_iff, hbefore.symm ▸ h.lvl_eq⟩

/-- The decision tuples presented for a lane. -/
def presented (decisions : List (PlaneEvent × String)) (lane : Lane2) : List Taken :=
  (decisions.filter fun entry => entry.2 = lane.text).map fun entry => takenOf entry.1

theorem map_takenOf_mine_perm (decisions : List (PlaneEvent × String)) (lane : Lane2) :
    ((mine decisions lane).map takenOf).Perm (presented decisions lane) := by
  have h := (List.perm_insertionSort ByNumber
    ((decisions.filter fun entry => entry.2 = lane.text).map Prod.fst)).map takenOf
  rwa [List.map_map] at h

/-- Decisions numbered upwards are the ones the audit reads, whatever the order they came in. -/
theorem map_takenOf_mine_eq {decisions : List (PlaneEvent × String)} {lane : Lane2}
    {ts : List Taken} (hts : ts.Pairwise fun t t' => t.lseq < t'.lseq)
    (hperm : ts.Perm (presented decisions lane)) : (mine decisions lane).map takenOf = ts := by
  have hmine := (map_takenOf_mine_perm decisions lane).trans hperm.symm
  have hsorted : ((mine decisions lane).map takenOf).Pairwise fun t t' => t.lseq ≤ t'.lseq :=
    List.pairwise_map.2 (List.pairwise_insertionSort ByNumber _)
  refine List.Perm.eq_of_pairwise ?_ hsorted (hts.imp le_of_lt) hmine
  intro t t' ht ht' hle hge
  have hnodup : (ts.map Taken.lseq).Nodup := List.pairwise_map.2 (hts.imp ne_of_lt)
  exact List.inj_on_of_nodup_map hnodup (hmine.subset ht) ht' (le_antisymm hle hge)

theorem complete_of_mem_mine {decisions : List (PlaneEvent × String)} {lane : Lane2}
    (hcomplete : ∀ entry ∈ decisions, entry.2 = lane.text → Complete entry.1) :
    ∀ event ∈ mine decisions lane, Complete event := by
  intro event hevent
  rw [mine, List.mem_insertionSort, List.mem_map] at hevent
  obtain ⟨entry, hentry, rfl⟩ := hevent
  rw [List.mem_filter, decide_eq_true_eq] at hentry
  exact hcomplete entry hentry.1 hentry.2

/-! ## The audit -/

/-- The audit is clean exactly when the decisions, in the order of their numbers, are a chain from
a full bucket. -/
theorem auditBucket_clean_iff {decisions : List (PlaneEvent × String)} {lane : Lane2}
    {bucket : BucketConfig}
    (hp : BucketParams.make bucket.capacity bucket.refillPerSecond = .ok p)
    (hcomplete : ∀ entry ∈ decisions, entry.2 = lane.text → Complete entry.1) :
    (auditBucket decisions lane bucket).faults = 0 ↔
      Replays p p.capacityUnits (((mine decisions lane).head?.bind PlaneEvent.dt).getD 0) 1
        ((mine decisions lane).map takenOf) := by
  obtain ⟨hcapacity, hrefill⟩ := BucketParams.make_eq_ok hp
  have hunits : bucket.capacity * UNIT = (p.capacityUnits : ℚ) := by
    rw [hcapacity, BucketParams.capacityUnits]
    push_cast
    rfl
  have hperMs : bucket.refillPerSecond * 1000 = (p.refillPerMs : ℚ) := by
    rw [hrefill, p.refillPerMs_cast]
  rw [auditBucket, hunits, hperMs]
  exact auditLoop_clean_iff (complete_of_mem_mine hcomplete) rfl

/-- **The audit is sound and complete.** The events presented for a lane, in any order, pass the
audit without a gap or a mismatch exactly when the decisions they report are those of some run of
the bucket: one that starts full, under any readings of the clock, with any looks at the level in
between. -/
theorem audit_clean_iff (decisions : List (PlaneEvent × String)) (lane : Lane2)
    (bucket : BucketConfig)
    (hp : BucketParams.make bucket.capacity bucket.refillPerSecond = .ok p)
    (hcomplete : ∀ entry ∈ decisions, entry.2 = lane.text → Complete entry.1) :
    ((auditBucket decisions lane bucket).gaps = 0 ∧
        (auditBucket decisions lane bucket).mismatches = 0) ↔
      ∃ (t₀ : ℚ) (b : TokenBucket) (ops : List (TokenBucket.Op × ℚ)),
        TokenBucket.create bucket.capacity bucket.refillPerSecond t₀ = .ok b ∧
          (made b ops).Perm (presented decisions lane) := by
  have hcreate (t₀ : ℚ) : TokenBucket.create bucket.capacity bucket.refillPerSecond t₀ =
      .ok (TokenBucket.init p t₀) := by
    rw [TokenBucket.create, hp]
    rfl
  have hperm := map_takenOf_mine_perm decisions lane
  rw [← Nat.add_eq_zero_iff, ← BucketAudit.faults, auditBucket_clean_iff hp hcomplete]
  constructor
  · intro h
    generalize ((mine decisions lane).head?.bind PlaneEvent.dt).getD 0 = clock at h
    refine ⟨clock, _, takes ((mine decisions lane).map takenOf), hcreate clock, ?_⟩
    have hwf := TokenBucket.wf_init p clock
    rw [made_takes hwf (by simpa [TokenBucket.init] using h)]
    exact hperm
  · rintro ⟨t₀, b, ops, hb, hmade⟩
    obtain rfl := Except.ok.inj ((hcreate t₀).symm.trans hb)
    have hchain : Replays p p.capacityUnits ⌊t₀⌋ 1 (made (TokenBucket.init p t₀) ops) :=
      replays_made (since_self (TokenBucket.wf_init p t₀))
    rw [← map_takenOf_mine_eq hchain.pairwise.2 hmade] at hchain
    cases hmine : mine decisions lane with
    | nil => trivial
    | cons event events =>
      rw [hmine, List.map_cons] at hchain
      exact (replays_full hchain.1.clock_le).1 hchain

/-! ### A shed presented before the admission that emptied the bucket -/

/-- The decision events of two requests in the unverified lane, the second one first. -/
def sampleDecisions : List (PlaneEvent × String) :=
  [({ seq := 9, nonce := "b", kind := .l2Decided, cls := some .mutation,
      lane := some (some .unverified), outcome := some .shed, shedReason := some .laneBudget,
      dt := some 40, lvl := some 0, lseq := some 2 }, "unverified"),
   ({ seq := 4, nonce := "a", kind := .l2Decided, cls := some .unknown,
      lane := some (some .unverified), outcome := some .admitted,
      dt := some 40, lvl := some 0, lseq := some 1 }, "unverified")]

theorem audit_clean_iff_sampleDecisions :
    ∃ (t₀ : ℚ) (b : TokenBucket) (ops : List (TokenBucket.Op × ℚ)),
      TokenBucket.create 1 1000 t₀ = .ok b ∧
        (made b ops).Perm (presented sampleDecisions .unverified) :=
  (audit_clean_iff sampleDecisions .unverified ⟨1, 1000⟩ (p := TokenBucket.millisecondBucket)
    (by decide +kernel)
    (fun entry h _ => by
      rcases List.mem_pair.1 h with rfl | rfl <;> exact ⟨rfl, rfl, rfl⟩)).1
    (by decide +kernel)

end Limitmark.Ledger
