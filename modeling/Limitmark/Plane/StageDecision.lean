import Limitmark.Ledger.L2Lifecycle
import Limitmark.Plane.L2Stage

/-!
# The decisions of the L2 stage

What the stage makes of one call, whatever the lanes decided and however long it took. A decision is
the lanes' own, or a failure decision; the failure decision of a discarded verdict carries the
marker of what the lanes had taken. It satisfies the rules of a decision in every case but one
(`decisionRules_decision`): the discarded verdict on an open operation is a degraded decision with
a marker, which the rules refuse.
-/

namespace Limitmark.Plane

open Limitmark.Defense Limitmark.Lanes Limitmark.Foundations Limitmark.Ledger

/-- What is known of a decision the lanes made for a class. -/
def MadeFor (cls : OperationClass) (made : LaneDecision) : Prop :=
  ∃ s s' : JourneyLanes, JourneyLanes.Shape cls s s' made

/-- An open operation is admitted. -/
theorem made_of_open {made : LaneDecision} (h : MadeFor .open made) :
    made = { cls := .open, lane := some .open, outcome := .admitted } := by
  obtain ⟨s, s', h⟩ := h
  cases h with
  | opened => rfl
  | ledgerFull hcls => exact absurd rfl hcls
  | taken hcls => exact absurd rfl hcls

/-! ## The rules of the decisions -/

variable (view : LifecycleView) {cls : OperationClass} {made : LaneDecision}

theorem decisionRules_takenDecision {lane : Lane2} {creditTag : Option String} (k : Taken)
    (hcls : cls ≠ .open) (hlane : lane ≠ .open) (htag : JourneyLanes.TagFor lane creditTag) :
    decisionRules view (takenDecision cls lane creditTag k) = [] := by
  have hsome : creditTag.isSome = decide (lane = .credited) := by
    rw [Bool.eq_iff_iff, decide_eq_true_eq]
    exact htag
  simp only [decisionRules, List.append_eq_nil_iff, LifecycleView.check_eq_nil]
  cases lane with
  | «open» => exact absurd rfl hlane
  | credited =>
    cases h : k.ok <;> simp_all [takenDecision, isValidDecision, isBucketed, isMarked]
  | unverified =>
    cases h : k.ok <;> simp_all [takenDecision, isValidDecision, isBucketed, isMarked]

/-- A decision of the lanes satisfies the rules. -/
theorem decisionRules_made (h : MadeFor cls made) : decisionRules view made = [] := by
  obtain ⟨s, s', h⟩ := h
  cases h with
  | opened => simp [decisionRules, isValidDecision, isBucketed, isMarked]
  | ledgerFull hcls => simp [decisionRules, isValidDecision, isBucketed, isMarked, hcls]
  | taken hcls hlane htag => exact decisionRules_takenDecision view _ hcls hlane htag

/-- A failure decision satisfies the rules. -/
theorem decisionRules_failureDecision (cls : OperationClass) (failure : L2Failure) :
    decisionRules view (failureDecision cls failure) = [] := by
  cases cls <;> cases failure <;>
    simp [failureDecision, decisionRules, isValidDecision, isBucketed, isMarked,
      L2Failure.errorKind]

/-! ## What a call comes to -/

/-- The decision of a discarded verdict. -/
def discarded (cls : OperationClass) (made : LaneDecision) : LaneDecision :=
  withMarkers (failureDecision cls .timeout) made

/-- A call was shed, or its own decision is returned, or its verdict was discarded. -/
theorem decision_cases (timeoutMs elapsed : ℚ) {call : Call}
    (hmade : ∀ made, call.made = some made → MadeFor call.cls made) :
    (call.made = none ∧ call.decision timeoutMs elapsed = failureDecision call.cls .saturation) ∨
    ∃ made, call.made = some made ∧ MadeFor call.cls made ∧
      ((call.decision timeoutMs elapsed = made ∧ (made.outcome ≠ .error → elapsed ≤ timeoutMs)) ∨
        (timeoutMs < elapsed ∧ made.outcome ≠ .error ∧
          call.decision timeoutMs elapsed = discarded call.cls made)) := by
  cases hm : call.made with
  | none => exact Or.inl ⟨rfl, by rw [Call.decision, hm]; rfl⟩
  | some made =>
    have hfor := hmade made hm
    refine Or.inr ⟨made, rfl, hfor, ?_⟩
    rw [Call.decision, hm]
    dsimp only
    have houtcome : made.outcome = .admitted ∨ made.outcome = .shed ∨ made.outcome = .error := by
      obtain ⟨s, s', h⟩ := hfor
      cases h with
      | opened => exact Or.inl rfl
      | ledgerFull => exact Or.inr (Or.inr rfl)
      | @taken l creditTag k =>
        cases h : k.ok <;> simp [takenDecision, h]
    by_cases hlate : timeoutMs < elapsed
    · rcases houtcome with h | h | h
      · exact Or.inr ⟨hlate, by simp [h], by
          simp [evaluationWinner, layerVerdict, h, LayerComposer.outcomeOf, hlate, stageDecision,
            discarded, failureOf]⟩
      · exact Or.inr ⟨hlate, by simp [h], by
          simp [evaluationWinner, layerVerdict, h, LayerComposer.outcomeOf, hlate, stageDecision,
            discarded, failureOf]⟩
      · exact Or.inl ⟨by
          simp [evaluationWinner, layerVerdict, h, LayerComposer.outcomeOf, stageDecision],
          fun hne => absurd h hne⟩
    · refine Or.inl ⟨?_, fun _ => not_lt.1 hlate⟩
      rcases houtcome with h | h | h <;>
        simp [evaluationWinner, layerVerdict, h, LayerComposer.outcomeOf, hlate, stageDecision]

/-- The decision of a discarded verdict: a marked failure where a bucket was taken from, and a
marked degradation of an open operation. -/
theorem discarded_cases (h : MadeFor cls made) (hne : made.outcome ≠ .error) :
    (cls = .open ∧ discarded cls made =
      { cls := .open, lane := some .open, outcome := .degraded, spent := some .open }) ∨
    ∃ (lane : Lane2) (creditTag : Option String) (k : Taken), cls ≠ .open ∧ lane ≠ .open ∧
      made = takenDecision cls lane creditTag k ∧
      discarded cls made =
        { cls, lane := none, outcome := .error, errorKind := some .timeout
          spent := if k.ok then some lane else none
          touched := if k.ok then none else some lane
          dt := some k.dt, lvl := some k.lvl, lseq := some k.lseq } := by
  obtain ⟨s, s', h⟩ := h
  cases h with
  | opened hcls =>
    subst hcls
    exact Or.inl ⟨rfl, rfl⟩
  | ledgerFull => exact absurd rfl hne
  | @taken lane creditTag k hcls hlane =>
    refine Or.inr ⟨lane, creditTag, k, hcls, hlane, rfl, ?_⟩
    cases hk : k.ok <;>
      simp [discarded, withMarkers, takenDecision, failureDecision, hcls, hk, L2Failure.errorKind]

/-- **The rules hold of a decision** of the stage exactly when it is not that of a discarded open
verdict. -/
theorem decisionRules_decision (timeoutMs elapsed : ℚ) {call : Call}
    (hmade : ∀ made, call.made = some made → MadeFor call.cls made) :
    decisionRules view (call.decision timeoutMs elapsed) = [] ↔
      ¬ call.DiscardsOpen timeoutMs elapsed := by
  rcases decision_cases timeoutMs elapsed hmade with
    ⟨hnone, hd⟩ | ⟨made, hsome, hfor, ⟨hd, hle⟩ | ⟨hlate, hne, hd⟩⟩ <;> rw [hd]
  · refine iff_of_true (decisionRules_failureDecision view _ _) ?_
    rintro ⟨-, hsome, -⟩
    simp [hnone] at hsome
  · refine iff_of_true (decisionRules_made view hfor) ?_
    rintro ⟨hcls, -, hlate⟩
    have hadmitted : made.outcome ≠ .error := by
      rw [hcls] at hfor
      rw [made_of_open hfor]
      decide
    exact absurd hlate (not_lt.2 (hle hadmitted))
  · rcases discarded_cases hfor hne with ⟨hcls, h⟩ | ⟨lane, creditTag, k, hcls, hlane, -, h⟩ <;>
      rw [h]
    · refine iff_of_false ?_ (not_not.2 ⟨hcls, by simp [hsome], hlate⟩)
      simp [decisionRules, isMarked]
    · refine iff_of_true ?_ fun hopen => hcls hopen.1
      cases hk : k.ok <;> simp [decisionRules, isValidDecision, isBucketed, isMarked, hcls]

/-! ## What a decision says of the bucket -/

/-- A decision discarded after it took a token of a lane. -/
def spentIn (lane : Lane2) (d : LaneDecision) : Bool := d.spent = some lane

/-- A decision discarded after a lane shed it. -/
def touchedIn (lane : Lane2) (d : LaneDecision) : Bool := d.touched = some lane

/-- A decision reports the clock, the level and the number of a take. -/
def Reports (d : LaneDecision) (k : Taken) : Prop :=
  d.dt = some k.dt ∧ d.lvl = some k.lvl ∧ d.lseq = some k.lseq

/-- What the decision `d` of a call says of the buckets is what the lanes had made of it. -/
structure Settles (made : Option LaneDecision) (d : LaneDecision) : Prop where
  admitted : ∀ lane : Lane2, lane ≠ .open →
    ((if admittedIn lane d then 1 else 0) + if spentIn lane d then 1 else 0) =
      if made.any (admittedIn lane) then 1 else 0
  shed : ∀ lane : Lane2, lane ≠ .open →
    ((if shedIn lane d then 1 else 0) + if touchedIn lane d then 1 else 0) =
      if made.any (shedIn lane) then 1 else 0
  spent : ∀ lane, d.spent = some lane → lane ≠ .open ∧
    ∃ cls creditTag k, made = some (takenDecision cls lane creditTag k) ∧ k.ok = true ∧ Reports d k
  touched : ∀ lane, d.touched = some lane → lane ≠ .open ∧
    ∃ cls creditTag k, made = some (takenDecision cls lane creditTag k) ∧ k.ok = false ∧ Reports d k

theorem settles_made (h : MadeFor cls made) : Settles (some made) made := by
  have hnone : made.spent = none ∧ made.touched = none := by
    obtain ⟨s, s', h⟩ := h
    cases h <;> exact ⟨rfl, rfl⟩
  refine ⟨fun lane _ => ?_, fun lane _ => ?_, fun lane hs => ?_, fun lane ht => ?_⟩
  · simp [spentIn, hnone.1]
  · simp [touchedIn, hnone.2]
  · simp [hnone.1] at hs
  · simp [hnone.2] at ht

theorem settles_shed (cls : OperationClass) (failure : L2Failure) :
    Settles none (failureDecision cls failure) := by
  refine ⟨fun lane hlane => ?_, fun lane hlane => ?_, fun lane hs => ?_, fun lane ht => ?_⟩ <;>
    cases cls <;> cases failure <;>
    simp_all [failureDecision, admittedIn, shedIn, spentIn, touchedIn]

/-- The markers of a discarded take are those of the take. -/
theorem settles_discarded {lane : Lane2} (creditTag : Option String) (k : Taken)
    (hlane : lane ≠ .open) {d : LaneDecision} (hnull : d.lane = none)
    (hs : d.spent = if k.ok then some lane else none)
    (ht : d.touched = if k.ok then none else some lane) (hk : Reports d k) :
    Settles (some (takenDecision cls lane creditTag k)) d where
  admitted lane' _ := by
    rw [Option.any_some, admittedIn_takenDecision]
    cases h : k.ok <;> simp [admittedIn, spentIn, hnull, hs, h]
  shed lane' _ := by
    rw [Option.any_some, shedIn_takenDecision]
    cases h : k.ok <;> simp [shedIn, touchedIn, hnull, ht, h]
  spent lane' h := by
    cases hok : k.ok <;> simp only [hs, hok, if_true, if_false, Bool.false_eq_true] at h
    · cases h
    · obtain rfl := Option.some.inj h
      exact ⟨hlane, cls, creditTag, k, rfl, hok, hk⟩
  touched lane' h := by
    cases hok : k.ok <;> simp only [ht, hok, if_true, if_false, Bool.false_eq_true] at h
    · obtain rfl := Option.some.inj h
      exact ⟨hlane, cls, creditTag, k, rfl, hok, hk⟩
    · cases h

/-- A call settles unless it discards an open verdict. -/
theorem settles_decision (timeoutMs elapsed : ℚ) {call : Call}
    (hmade : ∀ made, call.made = some made → MadeFor call.cls made)
    (hopen : ¬ call.DiscardsOpen timeoutMs elapsed) :
    Settles call.made (call.decision timeoutMs elapsed) := by
  rcases decision_cases timeoutMs elapsed hmade with
    ⟨hnone, hd⟩ | ⟨made, hsome, hfor, ⟨hd, -⟩ | ⟨hlate, hne, hd⟩⟩
  · rw [hd, hnone]
    exact settles_shed _ _
  · rw [hd, hsome]
    exact settles_made hfor
  · rw [hd, hsome]
    rcases discarded_cases hfor hne with ⟨hcls, -⟩ | ⟨lane, creditTag, k, -, hlane, hk, h⟩
    · exact absurd ⟨hcls, by simp [hsome], hlate⟩ hopen
    · rw [h, hk]
      exact settles_discarded creditTag k hlane rfl rfl rfl ⟨rfl, rfl, rfl⟩

end Limitmark.Plane
