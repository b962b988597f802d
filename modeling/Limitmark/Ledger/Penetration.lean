import Limitmark.Ledger.NoBypass

/-!
# Penetration depth

`defense/core/penetration.ts`, `penetrationOf`: the depth one request reached and the one
explanation of why it went no further, read off the plane, boundary and app streams. On a view of
which the three validators report at most a rejection by the boundary, and whose chain starts at the
plane, the depth is the furthest stage the streams have the event of, and the explanation the only
one that holds.

The validators' part is `Facts`: which events exclude or presuppose which. The automata give most of
it, because every step of them goes up in rank (`eq_of_rank_eq`).
-/

namespace Limitmark.Ledger

open Limitmark.Defense Limitmark.Lanes Limitmark.Foundations

/-! ## The record -/

inductive PenetrationStage
  | l1 | l2 | canon | pb | boundary | ba | appAdmitted | appExecuted | appMutated
  deriving DecidableEq, Repr

def PENETRATION_STAGES : List PenetrationStage :=
  [.l1, .l2, .canon, .pb, .boundary, .ba, .appAdmitted, .appExecuted, .appMutated]

inductive L1State
  | naturalPass | simulatedPass | rejected | shed | error | skipped | notReached
  deriving DecidableEq, Repr

inductive L2State
  | admitted | quarantined | shed | error | degraded | skipped | notReached
  deriving DecidableEq, Repr

/-- The explanations. A reason the event does not give is `none`. -/
inductive Terminal
  | l1Rejected (reason : Option RejectReason)
  | l1Shed
  | l1Error (kind : Option LayerErrorKind)
  | noPlaneDecision
  | l2Shed (lane : Option Lane2) (reason : Option ShedReason)
  | l2Error (kind : Option L2ErrorKind)
  | clientAborted
  | noEgress
  | canonRefused
  | planeIssueRefused
  | signRefused
  | noProof
  | boundaryRejected (reason : Option ObReason)
  | boundaryUndecided
  | egressFailed (kind : Option EgressErrorKind)
  | appProofNotIssued
  | appRefused (reason : Option ObReason)
  | appUndecided
  | appAdmittedNotExecuted
  | appExecutedNoMutation
  | appMutated
  deriving DecidableEq, Repr

structure PenetrationRecord where
  simulated : Bool
  l1 : L1State
  l2 : L2State
  lane : Option Lane2
  /-- The last stage the request was let through, or none. -/
  deepest : Option PenetrationStage
  terminal : Terminal
  deriving DecidableEq, Repr

/-! ## The classifier -/

/-- What L1 did, and the explanation when the request ended there. -/
def l1Of (plane : List PlaneEvent) : L1State × Option Terminal :=
  match first plane .l1Entered with
  | none => if (first plane .egressAttempted).isSome then (.skipped, none) else (.notReached, none)
  | some _ =>
    match first plane .l1Passed with
    | some passed =>
      (if passed.basis = some .simulated then .simulatedPass else .naturalPass, none)
    | none =>
      match first plane .l1Rejected with
      | some rejected => (.rejected, some (.l1Rejected rejected.reason))
      | none =>
        if (first plane .l1Shed).isSome then (.shed, some .l1Shed)
        else
          match first plane .l1Error with
          | some failed => (.error, some (.l1Error failed.errorKind))
          | none => (.notReached, none)

/-- What an L2 decision is, and the explanation when the request ended there. -/
def l2OfDecision (decided : PlaneEvent) : L2State × Option Terminal :=
  match decided.outcome with
  | some .admitted =>
    (if decided.lane.join = some .unverified then .quarantined else .admitted, none)
  | some .degraded => (.degraded, none)
  | some .shed => (.shed, some (.l2Shed decided.lane.join decided.shedReason))
  | some .error | none => (.error, some (.l2Error decided.l2ErrorKind))

/-- What L2 did. A composition without L2 has no L2 events. -/
def l2Of (view : LifecycleView) : L2State × Option Lane2 × Option Terminal :=
  if view.l2 then
    match first view.plane .l2Entered with
    | none =>
      (if (first view.plane .egressAttempted).isSome then .skipped else .notReached, none, none)
    | some _ =>
      match first view.plane .l2Decided with
      | none => (.notReached, none, none)
      | some decided => ((l2OfDecision decided).1, decided.lane.join, (l2OfDecision decided).2)
  else (.notReached, none, none)

/-- From the proof to the app: the depth and the explanation. -/
def downstreamOf (view : LifecycleView) (failed : Option PlaneEvent) :
    PenetrationStage × Terminal :=
  let boundary := view.boundary.getD []
  let app := view.app.getD []
  match firstBoundary boundary .boundaryRejected with
  | some rejected => (.pb, .boundaryRejected rejected.reason)
  | none =>
    if firstBoundary boundary .boundaryAdmitted = none then
      (.pb, (failed.map fun failed => .egressFailed failed.egressError).getD .boundaryUndecided)
    else if firstBoundary boundary .appProofIssued = none then (.boundary, .appProofNotIssued)
    else
      match firstApp app .appRefused with
      | some refused => (.ba, .appRefused refused.reason)
      | none =>
        if firstApp app .appAdmitted = none then
          (.ba, (failed.map fun failed => .egressFailed failed.egressError).getD .appUndecided)
        else if firstApp app .appExecuted = none then (.appAdmitted, .appAdmittedNotExecuted)
        else if (firstApp app .appMutated).isSome then (.appMutated, .appMutated)
        else (.appExecuted, .appExecutedNoMutation)

/-- From the egress on, at the depth a request has that passed the layers. -/
def egressOf (view : LifecycleView) (passed : PenetrationStage) : PenetrationStage × Terminal :=
  let plane := view.plane
  let failed := first plane .egressFailed
  if first plane .egressAttempted = none then
    (passed, if (first plane .ingressAborted).isSome then .clientAborted else .noEgress)
  else if (first plane .proofIssued).isSome then downstreamOf view failed
  else
    match failed with
    | none => (.canon, .noProof)
    | some failed =>
      match failed.failStage with
      | some .canon => (passed, .canonRefused)
      | none => (passed, .planeIssueRefused)
      | some .sign => (.canon, .signRefused)

/-- The depth and the explanation of one request. -/
def penetrationOf (view : LifecycleView) : PenetrationRecord :=
  let simulated := view.simulated
  match l1Of view.plane with
  | (l1, some terminal) => ⟨simulated, l1, .notReached, none, none, terminal⟩
  | (.notReached, none) => ⟨simulated, .notReached, .notReached, none, none, .noPlaneDecision⟩
  | (l1, none) =>
    match l2Of view with
    | (l2, lane, some terminal) => ⟨simulated, l1, l2, lane, some .l1, terminal⟩
    | (l2, lane, none) =>
      let passed := if view.l2 = true ∧ l2 ≠ .notReached ∧ l2 ≠ .skipped then .l2 else .l1
      ⟨simulated, l1, l2, lane, some (egressOf view passed).1, (egressOf view passed).2⟩

/-! ## What the streams say -/

/-- The decision of L2 let the request through. -/
def PlaneEvent.letsThrough (decided : PlaneEvent) : Bool :=
  decided.outcome = some .admitted || decided.outcome = some .degraded

/-- The streams have the event of a stage. The event of the canonicalization is an attempted egress
that did not fail before its proof was signed. -/
def reached (view : LifecycleView) : PenetrationStage → Bool
  | .l1 => (first view.plane .l1Passed).isSome
  | .l2 => (first view.plane .l2Decided).any PlaneEvent.letsThrough
  | .canon => (first view.plane .egressAttempted).isSome &&
      ((first view.plane .proofIssued).isSome ||
        (first view.plane .egressFailed).all fun failed => failed.failStage = some .sign)
  | .pb => (first view.plane .proofIssued).isSome
  | .boundary => (firstBoundary (view.boundary.getD []) .boundaryAdmitted).isSome
  | .ba => (firstBoundary (view.boundary.getD []) .appProofIssued).isSome
  | .appAdmitted => (firstApp (view.app.getD []) .appAdmitted).isSome
  | .appExecuted => (firstApp (view.app.getD []) .appExecuted).isSome
  | .appMutated => (firstApp (view.app.getD []) .appMutated).isSome

/-- The decision of L2 ended the request. -/
def PlaneEvent.refuses (decided : PlaneEvent) : Bool :=
  decided.outcome = some .shed || decided.outcome = some .error

/-- An explanation holds of the streams. -/
def Terminal.Holds (view : LifecycleView) : Terminal → Prop :=
  let p := first view.plane
  let b := firstBoundary (view.boundary.getD [])
  let a := firstApp (view.app.getD [])
  let inPlane := (p .l1Passed).isSome ∧ ¬ (p .l2Decided).any PlaneEvent.refuses ∧
    p .egressAttempted = none
  let boundaryOpen := (p .proofIssued).isSome ∧ b .boundaryRejected = none ∧
    b .boundaryAdmitted = none
  let appOpen := (b .appProofIssued).isSome ∧ a .appRefused = none ∧ a .appAdmitted = none
  fun
  | .l1Rejected reason => (p .l1Rejected).map PlaneEvent.reason = some reason
  | .l1Shed => (p .l1Shed).isSome
  | .l1Error kind => (p .l1Error).map PlaneEvent.errorKind = some kind
  | .noPlaneDecision => p .l1Passed = none ∧ p .l1Rejected = none ∧ p .l1Shed = none ∧
    p .l1Error = none
  | .l2Shed lane reason => ((p .l2Decided).filter (·.outcome = some .shed)).map
    (fun decided => (decided.lane.join, decided.shedReason)) = some (lane, reason)
  | .l2Error kind => ((p .l2Decided).filter (·.outcome = some .error)).map PlaneEvent.l2ErrorKind =
    some kind
  | .clientAborted => inPlane ∧ (p .ingressAborted).isSome
  | .noEgress => inPlane ∧ p .ingressAborted = none
  | .canonRefused => p .proofIssued = none ∧
    (p .egressFailed).map PlaneEvent.failStage = some (some .canon)
  | .planeIssueRefused => p .proofIssued = none ∧
    (p .egressFailed).map PlaneEvent.failStage = some none
  | .signRefused => p .proofIssued = none ∧
    (p .egressFailed).map PlaneEvent.failStage = some (some .sign)
  | .noProof => (p .egressAttempted).isSome ∧ p .proofIssued = none ∧ p .egressFailed = none
  | .boundaryRejected reason => (p .proofIssued).isSome ∧
    (b .boundaryRejected).map BoundaryEvent.reason = some reason
  | .boundaryUndecided => boundaryOpen ∧ p .egressFailed = none
  | .egressFailed kind => (boundaryOpen ∨ appOpen) ∧
    (p .egressFailed).map PlaneEvent.egressError = some kind
  | .appProofNotIssued => (b .boundaryAdmitted).isSome ∧ b .appProofIssued = none
  | .appRefused reason => (b .appProofIssued).isSome ∧
    (a .appRefused).map AppEvent.reason = some reason
  | .appUndecided => appOpen ∧ p .egressFailed = none
  | .appAdmittedNotExecuted => (a .appAdmitted).isSome ∧ a .appExecuted = none
  | .appExecutedNoMutation => (a .appExecuted).isSome ∧ a .appMutated = none
  | .appMutated => (a .appMutated).isSome

/-- A property of all explanations, one by one. -/
theorem Terminal.forall {P : Terminal → Prop} : (∀ t, P t) ↔
    (∀ reason, P (.l1Rejected reason)) ∧ P .l1Shed ∧ (∀ kind, P (.l1Error kind)) ∧
    P .noPlaneDecision ∧ (∀ lane reason, P (.l2Shed lane reason)) ∧ (∀ kind, P (.l2Error kind)) ∧
    P .clientAborted ∧ P .noEgress ∧ P .canonRefused ∧ P .planeIssueRefused ∧ P .signRefused ∧
    P .noProof ∧ (∀ reason, P (.boundaryRejected reason)) ∧ P .boundaryUndecided ∧
    (∀ kind, P (.egressFailed kind)) ∧ P .appProofNotIssued ∧ (∀ reason, P (.appRefused reason)) ∧
    P .appUndecided ∧ P .appAdmittedNotExecuted ∧ P .appExecutedNoMutation ∧ P .appMutated := by
  constructor
  · intro h
    simp only [h, implies_true, and_self]
  · rintro ⟨h₁, h₂, h₃, h₄, h₅, h₆, h₇, h₈, h₉, h₁₀, h₁₁, h₁₂, h₁₃, h₁₄, h₁₅, h₁₆, h₁₇, h₁₈, h₁₉,
      h₂₀, h₂₁⟩ t
    cases t <;> solve_by_elim

/-- What the validators leave of the combinations of events. -/
structure Facts (view : LifecycleView) : Prop where
  entered : ∀ kind, kind.isLayerVerdict = true → (first view.plane kind).isSome →
    (first view.plane .l1Entered).isSome
  one_verdict : ∀ j k, j.isLayerVerdict = true → k.isLayerVerdict = true →
    (first view.plane j).isSome → (first view.plane k).isSome → j = k
  passed : (first view.plane .egressAttempted).isSome → (first view.plane .l1Passed).isSome
  attempted : (first view.plane .proofIssued).isSome ∨ (first view.plane .egressFailed).isSome →
    (first view.plane .egressAttempted).isSome
  decided : view.l2 = true → (first view.plane .egressAttempted).isSome →
    (first view.plane .l2Decided).isSome
  stage : (first view.plane .l2Decided).isSome → view.l2 = true ∧
    (first view.plane .l2Entered).isSome ∧ (first view.plane .l1Passed).isSome
  outcome : ∀ decided, first view.plane .l2Decided = some decided →
    decided.letsThrough = !decided.refuses
  proceeds : ∀ decided, first view.plane .l2Decided = some decided →
    (first view.plane .egressAttempted).isSome → decided.refuses = false
  issued : (firstBoundary (view.boundary.getD []) .boundaryAdmitted).isSome →
    (first view.plane .proofIssued).isSome
  one_decision : (firstBoundary (view.boundary.getD []) .boundaryAdmitted).isSome →
    firstBoundary (view.boundary.getD []) .boundaryRejected = none
  admitted : (firstBoundary (view.boundary.getD []) .appProofIssued).isSome →
    (firstBoundary (view.boundary.getD []) .boundaryAdmitted).isSome
  app_proof : (firstApp (view.app.getD []) .appAdmitted).isSome →
    (firstBoundary (view.boundary.getD []) .appProofIssued).isSome
  one_answer : (firstApp (view.app.getD []) .appAdmitted).isSome →
    firstApp (view.app.getD []) .appRefused = none
  app_admitted : (firstApp (view.app.getD []) .appExecuted).isSome →
    (firstApp (view.app.getD []) .appAdmitted).isSome
  app_executed : (firstApp (view.app.getD []) .appMutated).isSome →
    (firstApp (view.app.getD []) .appExecuted).isSome

/-! ## The classifier on such streams -/

namespace Facts

variable {view : LifecycleView}

/-- What presupposes an event that is not there is not there. -/
theorem none_of_none {α β : Type} {a : Option α} {b : Option β} (h : b.isSome → a.isSome)
    (ha : a = none) : b = none := by
  cases b with
  | none => rfl
  | some b => simp [ha] at h

/-- A verdict of L1 is the only one. -/
theorem other_verdict (h : Facts view) {j k : PlaneEventKind} (hj : j.isLayerVerdict = true)
    (hk : k.isLayerVerdict = true) (hne : j ≠ k) (hsome : (first view.plane j).isSome) :
    first view.plane k = none := by
  cases hother : first view.plane k with
  | none => rfl
  | some event => exact absurd (h.one_verdict j k hj hk hsome (by simp [hother])) hne

/-- Without an admission of the app, it neither executed nor mutated. -/
theorem app_idle (h : Facts view) (hadmitted : firstApp (view.app.getD []) .appAdmitted = none) :
    firstApp (view.app.getD []) .appExecuted = none ∧
      firstApp (view.app.getD []) .appMutated = none :=
  have hexecuted := none_of_none h.app_admitted hadmitted
  ⟨hexecuted, none_of_none h.app_executed hexecuted⟩

/-- Without a proof to the app, it did nothing. -/
theorem app_closed (h : Facts view)
    (hproof : firstBoundary (view.boundary.getD []) .appProofIssued = none) :
    firstApp (view.app.getD []) .appAdmitted = none ∧
      firstApp (view.app.getD []) .appExecuted = none ∧
        firstApp (view.app.getD []) .appMutated = none :=
  have hadmitted := none_of_none h.app_proof hproof
  ⟨hadmitted, h.app_idle hadmitted⟩

/-- Without a proof of the plane, nothing came after it. -/
theorem closed (h : Facts view) (hissued : first view.plane .proofIssued = none) :
    firstBoundary (view.boundary.getD []) .boundaryAdmitted = none ∧
      firstBoundary (view.boundary.getD []) .appProofIssued = none ∧
      firstApp (view.app.getD []) .appAdmitted = none ∧
      firstApp (view.app.getD []) .appExecuted = none ∧
      firstApp (view.app.getD []) .appMutated = none :=
  have hadmitted := none_of_none h.issued hissued
  have hproof := none_of_none h.admitted hadmitted
  ⟨hadmitted, hproof, h.app_closed hproof⟩

/-- Without an egress, neither a proof nor a failure. -/
theorem no_egress (h : Facts view) (hattempted : first view.plane .egressAttempted = none) :
    first view.plane .proofIssued = none ∧ first view.plane .egressFailed = none :=
  ⟨none_of_none (fun hissued => h.attempted (.inl hissued)) hattempted,
    none_of_none (fun hfailed => h.attempted (.inr hfailed)) hattempted⟩

/-! ### A request that a layer ended -/

/-- A request that L1 did not pass. -/
theorem of_not_passed (h : Facts view) (hpassed : first view.plane .l1Passed = none) :
    (penetrationOf view).deepest = PENETRATION_STAGES.reverse.find? (reached view) ∧
      (∀ t : Terminal, t.Holds view ↔ (penetrationOf view).terminal = t) ∧
      (penetrationOf view).l2 = .notReached := by
  have hattempted := none_of_none h.passed hpassed
  obtain ⟨hissued, hfailed⟩ := h.no_egress hattempted
  obtain ⟨hadmitted, hproof, happ, hexecuted, hmutated⟩ := h.closed hissued
  have hdecided : first view.plane .l2Decided = none :=
    none_of_none (fun hdecided => (h.stage hdecided).2.2) hpassed
  have hnone : PENETRATION_STAGES.reverse.find? (reached view) = none := by
    simp [PENETRATION_STAGES, reached, hpassed, hattempted, hissued, hdecided, hadmitted, hproof,
      happ, hexecuted, hmutated]
  rw [hnone]
  unfold penetrationOf l1Of
  cases hentered : first view.plane .l1Entered with
  | none =>
    have hverdict (kind : PlaneEventKind) (hkind : kind.isLayerVerdict = true) :
        first view.plane kind = none := none_of_none (h.entered kind hkind) hentered
    refine ⟨by simp [hattempted], Terminal.forall.2 ?_, by simp [hattempted]⟩
    simp [Terminal.Holds, hverdict, PlaneEventKind.isLayerVerdict, hattempted, hissued,
      hfailed, hadmitted, hproof, happ, hexecuted, hmutated, hdecided]
  | some entered =>
    cases hrejected : first view.plane .l1Rejected with
    | some rejected =>
      have hshed := h.other_verdict (j := .l1Rejected) (k := .l1Shed) rfl rfl nofun
        (by simp [hrejected])
      have herror := h.other_verdict (j := .l1Rejected) (k := .l1Error) rfl rfl nofun
        (by simp [hrejected])
      refine ⟨by simp [hpassed], Terminal.forall.2 ?_, by simp [hpassed]⟩
      simp [Terminal.Holds, hpassed, hrejected, hshed, herror, hattempted, hissued,
        hfailed, hadmitted, hproof, happ, hexecuted, hmutated, hdecided]
    | none =>
      cases hshed : first view.plane .l1Shed with
      | some shed =>
        have herror := h.other_verdict (j := .l1Shed) (k := .l1Error) rfl rfl nofun
          (by simp [hshed])
        refine ⟨by simp [hpassed], Terminal.forall.2 ?_, by simp [hpassed]⟩
        simp [Terminal.Holds, hpassed, hrejected, hshed, herror, hattempted, hissued,
          hfailed, hadmitted, hproof, happ, hexecuted, hmutated, hdecided]
      | none =>
        cases herror : first view.plane .l1Error <;>
          refine ⟨by simp [hpassed], Terminal.forall.2 ?_, by simp [hpassed]⟩ <;>
          simp [Terminal.Holds, hpassed, hrejected, hshed, herror, hattempted, hissued,
            hfailed, hadmitted, hproof, happ, hexecuted, hmutated, hdecided]

/-- A request that L1 passed has no other verdict of it. -/
theorem only_passed (h : Facts view) (hpassed : (first view.plane .l1Passed).isSome) :
    first view.plane .l1Rejected = none ∧ first view.plane .l1Shed = none ∧
      first view.plane .l1Error = none :=
  ⟨h.other_verdict (j := .l1Passed) rfl rfl nofun hpassed,
    h.other_verdict (j := .l1Passed) rfl rfl nofun hpassed,
    h.other_verdict (j := .l1Passed) rfl rfl nofun hpassed⟩

/-- A request that L2 refused. -/
theorem of_refused (h : Facts view) {decided : PlaneEvent}
    (hdecided : first view.plane .l2Decided = some decided) (hrefuses : decided.refuses = true) :
    (penetrationOf view).deepest = PENETRATION_STAGES.reverse.find? (reached view) ∧
      (∀ t : Terminal, t.Holds view ↔ (penetrationOf view).terminal = t) ∧
      ((penetrationOf view).l2 = .shed ∨ (penetrationOf view).l2 = .error) := by
  obtain ⟨hl2, hentered, hpassed⟩ := h.stage (by simp [hdecided])
  obtain ⟨hrejected, hshed, herror⟩ := h.only_passed hpassed
  obtain ⟨entered₁, hentered₁⟩ := Option.isSome_iff_exists.1 (h.entered .l1Passed rfl hpassed)
  obtain ⟨passed, hpassed⟩ := Option.isSome_iff_exists.1 hpassed
  obtain ⟨entered, hentered⟩ := Option.isSome_iff_exists.1 hentered
  have hattempted : first view.plane .egressAttempted = none := by
    cases hattempted : first view.plane .egressAttempted with
    | none => rfl
    | some attempted =>
      have := h.proceeds decided hdecided (by simp [hattempted])
      rw [hrefuses] at this
      cases this
  obtain ⟨hissued, hfailed⟩ := h.no_egress hattempted
  obtain ⟨hadmitted, hproof, happ, hexecuted, hmutated⟩ := h.closed hissued
  have hthrough := h.outcome decided hdecided
  rw [hrefuses] at hthrough
  have hl1 : PENETRATION_STAGES.reverse.find? (reached view) = some .l1 := by
    simp [PENETRATION_STAGES, reached, hpassed, hattempted, hissued, hdecided, hthrough, hadmitted,
      hproof, happ, hexecuted, hmutated]
  rw [hl1]
  unfold penetrationOf l1Of l2Of l2OfDecision
  simp only [PlaneEvent.refuses, Bool.or_eq_true, decide_eq_true_eq] at hrefuses
  rcases hrefuses with houtcome | houtcome <;>
    by_cases hbasis : passed.basis = some .simulated <;>
    refine ⟨by simp [hl2, hpassed, hentered, hentered₁, hdecided, houtcome, hbasis],
      Terminal.forall.2 ?_, by
        simp [hl2, hpassed, hentered, hentered₁, hdecided, houtcome, hbasis]⟩ <;>
    simp [Terminal.Holds, hl2, hpassed, hentered, hentered₁, hdecided, houtcome, hbasis,
      hrejected, hshed, herror, hattempted, hissued, hfailed, hadmitted, hproof, happ, hexecuted,
      hmutated, PlaneEvent.refuses]

/-! ### A request that passed the layers -/

/-- The furthest layer a request has passed. -/
def passedLayer (view : LifecycleView) : PenetrationStage :=
  if (first view.plane .l2Decided).isSome then .l2 else .l1

/-- A request that passed the layers goes on to the egress. -/
theorem of_passed (h : Facts view) (hpassed : (first view.plane .l1Passed).isSome)
    (hopen : (first view.plane .l2Decided).any PlaneEvent.refuses = false) :
    (penetrationOf view).deepest = some (egressOf view (passedLayer view)).1 ∧
      (penetrationOf view).terminal = (egressOf view (passedLayer view)).2 ∧
      (penetrationOf view).l2 ≠ .shed ∧ (penetrationOf view).l2 ≠ .error := by
  obtain ⟨entered₁, hentered₁⟩ := Option.isSome_iff_exists.1 (h.entered .l1Passed rfl hpassed)
  obtain ⟨passed, hpassed⟩ := Option.isSome_iff_exists.1 hpassed
  have hl1 : ∃ l1, l1 ≠ .notReached ∧ l1Of view.plane = (l1, none) := by
    by_cases hbasis : passed.basis = some .simulated <;>
      simp [l1Of, hentered₁, hpassed, hbasis]
  obtain ⟨l1, hl1, hl1Of⟩ := hl1
  have hl2 : ∃ l2 lane, l2Of view = (l2, lane, none) ∧ l2 ≠ .shed ∧ l2 ≠ .error ∧
      (if view.l2 = true ∧ l2 ≠ .notReached ∧ l2 ≠ .skipped then PenetrationStage.l2 else .l1) =
        passedLayer view := by
    cases hdecided : first view.plane .l2Decided with
    | none =>
      have hlayer : passedLayer view = .l1 := by simp [passedLayer, hdecided]
      rw [hlayer]
      cases hl2 : view.l2 with
      | false => simp [l2Of, hl2]
      | true =>
        cases hentered : first view.plane .l2Entered <;>
          cases hattempted : first view.plane .egressAttempted <;>
            simp [l2Of, hl2, hentered, hdecided, hattempted]
    | some decided =>
      have hlayer : passedLayer view = .l2 := by simp [passedLayer, hdecided]
      obtain ⟨hl2, hentered, -⟩ := h.stage (by simp [hdecided])
      obtain ⟨entered, hentered⟩ := Option.isSome_iff_exists.1 hentered
      have hthrough := h.outcome decided hdecided
      have hopen : decided.refuses = false := by simpa [hdecided] using hopen
      simp only [hopen, PlaneEvent.letsThrough, Bool.not_false, Bool.or_eq_true, decide_eq_true_eq]
        at hthrough
      rw [hlayer]
      rcases hthrough with houtcome | houtcome
      · by_cases hlane : decided.lane.join = some .unverified <;>
          simp [l2Of, l2OfDecision, hl2, hentered, hdecided, houtcome, hlane]
      · simp [l2Of, l2OfDecision, hl2, hentered, hdecided, houtcome]
  obtain ⟨l2, lane, hl2Of, hshed, herror, hlayer⟩ := hl2
  unfold penetrationOf
  simp only [hl1Of, hl2Of, hlayer]
  exact ⟨trivial, trivial, hshed, herror⟩

/-- The layers a request has passed are reached, and no others. -/
theorem reached_layers (h : Facts view) (hpassed : (first view.plane .l1Passed).isSome)
    (hopen : (first view.plane .l2Decided).any PlaneEvent.refuses = false) :
    [PenetrationStage.l2, .l1].find? (reached view) = some (passedLayer view) := by
  cases hdecided : first view.plane .l2Decided with
  | none => simp [reached, passedLayer, hdecided, hpassed]
  | some decided =>
    have hopen : decided.refuses = false := by simpa [hdecided] using hopen
    have hthrough := h.outcome decided hdecided
    simp [reached, passedLayer, hdecided, hthrough, hopen]

/-- A decision that did not refuse is neither a shed nor an error. -/
theorem not_refused (hopen : (first view.plane .l2Decided).any PlaneEvent.refuses = false) :
    (first view.plane .l2Decided).filter (·.outcome = some .shed) = none ∧
      (first view.plane .l2Decided).filter (·.outcome = some .error) = none := by
  cases hdecided : first view.plane .l2Decided with
  | none => exact ⟨rfl, rfl⟩
  | some decided =>
    have hopen : decided.refuses = false := by simpa [hdecided] using hopen
    simp only [PlaneEvent.refuses, Bool.or_eq_false_iff, decide_eq_false_iff_not] at hopen
    simp [Option.filter, hopen]

/-- From the proof to the app. -/
theorem downstream_spec (h : Facts view) (hpassed : (first view.plane .l1Passed).isSome)
    (hopen : (first view.plane .l2Decided).any PlaneEvent.refuses = false)
    (hissued : (first view.plane .proofIssued).isSome) :
    (∀ t : Terminal, t.Holds view ↔
        (downstreamOf view (first view.plane .egressFailed)).2 = t) ∧
      PENETRATION_STAGES.reverse.find? (reached view) =
        some (downstreamOf view (first view.plane .egressFailed)).1 := by
  obtain ⟨hrejected₁, hshed, herror⟩ := h.only_passed hpassed
  obtain ⟨hno, hno'⟩ := not_refused hopen
  have hattempted := h.attempted (.inl hissued)
  obtain ⟨passed, hpassed⟩ := Option.isSome_iff_exists.1 hpassed
  obtain ⟨issued, hissued⟩ := Option.isSome_iff_exists.1 hissued
  obtain ⟨attempted, hattempted⟩ := Option.isSome_iff_exists.1 hattempted
  unfold downstreamOf
  cases hadmitted : firstBoundary (view.boundary.getD []) .boundaryAdmitted with
  | none =>
    have hproof := none_of_none h.admitted hadmitted
    obtain ⟨happ, hexecuted, hmutated⟩ := h.app_closed hproof
    cases hrejected : firstBoundary (view.boundary.getD []) .boundaryRejected <;>
      cases hfailed : first view.plane .egressFailed <;>
      refine ⟨Terminal.forall.2 ?_, by simp [PENETRATION_STAGES, reached, hissued, hadmitted,
        hproof, happ, hexecuted, hmutated, hrejected]⟩ <;>
      simp [Terminal.Holds, hpassed, hrejected₁, hshed, herror, hno, hno', hattempted,
        hissued, hadmitted, hproof, happ, hexecuted, hmutated, hrejected, hfailed]
  | some admission =>
    have hrejected := h.one_decision (by simp [hadmitted])
    cases hproof : firstBoundary (view.boundary.getD []) .appProofIssued with
    | none =>
      obtain ⟨happ, hexecuted, hmutated⟩ := h.app_closed hproof
      refine ⟨Terminal.forall.2 ?_, by simp [PENETRATION_STAGES, reached, hadmitted, hrejected,
        hproof, happ, hexecuted, hmutated]⟩
      simp [Terminal.Holds, hpassed, hrejected₁, hshed, herror, hno, hno', hattempted,
        hissued, hadmitted, hproof, happ, hexecuted, hmutated, hrejected]
    | some proof =>
      cases happ : firstApp (view.app.getD []) .appAdmitted with
      | none =>
        obtain ⟨hexecuted, hmutated⟩ := h.app_idle happ
        cases hrefused : firstApp (view.app.getD []) .appRefused <;>
          cases hfailed : first view.plane .egressFailed <;>
          refine ⟨Terminal.forall.2 ?_, by simp [PENETRATION_STAGES, reached, hadmitted,
            hrejected, hproof, happ, hexecuted, hmutated, hrefused]⟩ <;>
          simp [Terminal.Holds, hpassed, hrejected₁, hshed, herror, hno, hno',
            hattempted, hissued, hadmitted, hproof, happ, hexecuted, hmutated, hrejected, hrefused,
            hfailed]
      | some admission =>
        have hrefused := h.one_answer (by simp [happ])
        cases hexecuted : firstApp (view.app.getD []) .appExecuted with
        | none =>
          have hmutated := none_of_none h.app_executed hexecuted
          refine ⟨Terminal.forall.2 ?_, by simp [PENETRATION_STAGES, reached, hadmitted,
            hrejected, hproof, happ, hexecuted, hmutated, hrefused]⟩
          simp [Terminal.Holds, hpassed, hrejected₁, hshed, herror, hno, hno',
            hattempted, hissued, hadmitted, hproof, happ, hexecuted, hmutated, hrejected, hrefused]
        | some execution =>
          cases hmutated : firstApp (view.app.getD []) .appMutated <;>
            refine ⟨Terminal.forall.2 ?_, by simp [PENETRATION_STAGES, reached, hadmitted,
              hrejected, hproof, happ, hexecuted, hmutated, hrefused]⟩ <;>
            simp [Terminal.Holds, hpassed, hrejected₁, hshed, herror, hno, hno',
              hattempted, hissued, hadmitted, hproof, happ, hexecuted, hmutated, hrejected,
              hrefused]

/-- From the egress on. -/
theorem egress_spec (h : Facts view) (hpassed : (first view.plane .l1Passed).isSome)
    (hopen : (first view.plane .l2Decided).any PlaneEvent.refuses = false) :
    (∀ t : Terminal, t.Holds view ↔ (egressOf view (passedLayer view)).2 = t) ∧
      PENETRATION_STAGES.reverse.find? (reached view) =
        some (egressOf view (passedLayer view)).1 := by
  have hlayers := h.reached_layers hpassed hopen
  have hstages : PENETRATION_STAGES.reverse =
      [.appMutated, .appExecuted, .appAdmitted, .ba, .boundary, .pb, .canon] ++ [.l2, .l1] := rfl
  unfold egressOf
  cases hissued : first view.plane .proofIssued with
  | some issued =>
    obtain ⟨attempted, hattempted⟩ :=
      Option.isSome_iff_exists.1 (h.attempted (.inl (by simp [hissued])))
    simpa [hattempted, hissued] using h.downstream_spec hpassed hopen (by simp [hissued])
  | none =>
    obtain ⟨hadmitted, hproof, happ, hexecuted, hmutated⟩ := h.closed hissued
    obtain ⟨hrejected, hshed, herror⟩ := h.only_passed hpassed
    obtain ⟨hno, hno'⟩ := not_refused hopen
    obtain ⟨passed, hpassed⟩ := Option.isSome_iff_exists.1 hpassed
    rw [hstages, List.find?_append, hlayers]
    cases hattempted : first view.plane .egressAttempted with
    | none =>
      obtain ⟨-, hfailed⟩ := h.no_egress hattempted
      cases haborted : first view.plane .ingressAborted <;>
        refine ⟨Terminal.forall.2 ?_, by simp [reached, hissued, hadmitted, hproof, happ, hexecuted,
          hmutated, hattempted]⟩ <;>
        simp [Terminal.Holds, hrejected, hshed, herror, hno, hno', hissued, hadmitted,
          hproof, happ, hexecuted, hmutated, hattempted, hfailed, haborted, hpassed, hopen]
    | some attempted =>
      cases hfailed : first view.plane .egressFailed with
      | none =>
        refine ⟨Terminal.forall.2 ?_, by simp [reached, hissued, hadmitted, hproof, happ, hexecuted,
          hmutated, hattempted, hfailed]⟩
        simp [Terminal.Holds, hrejected, hshed, herror, hno, hno', hissued, hadmitted,
          hproof, happ, hexecuted, hmutated, hattempted, hfailed, hpassed]
      | some failed =>
        rcases hstage : failed.failStage with _ | _ | _ <;>
          refine ⟨Terminal.forall.2 ?_, by simp [reached, hissued, hadmitted, hproof, happ,
            hexecuted, hmutated, hattempted, hfailed, hstage]⟩ <;>
          simp [Terminal.Holds, hrejected, hshed, herror, hno, hno', hissued,
            hadmitted, hproof, happ, hexecuted, hmutated, hattempted, hfailed, hstage, hpassed]

/-- **The classifier**: the furthest stage reached, the one explanation that holds, and a refusal of
L2 exactly where its decision was one. -/
theorem spec (h : Facts view) :
    (penetrationOf view).deepest = PENETRATION_STAGES.reverse.find? (reached view) ∧
      (∀ t : Terminal, t.Holds view ↔ (penetrationOf view).terminal = t) ∧
      (((penetrationOf view).l2 = .shed ∨ (penetrationOf view).l2 = .error) ↔
        (first view.plane .l2Decided).any PlaneEvent.refuses = true) := by
  cases hpassed : first view.plane .l1Passed with
  | none =>
    obtain ⟨hdeepest, hholds, hl2⟩ := h.of_not_passed hpassed
    have hdecided : first view.plane .l2Decided = none :=
      none_of_none (fun hdecided => (h.stage hdecided).2.2) hpassed
    exact ⟨hdeepest, hholds, by simp [hl2, hdecided]⟩
  | some passed =>
    have hpassed : (first view.plane .l1Passed).isSome := by simp [hpassed]
    cases hopen : (first view.plane .l2Decided).any PlaneEvent.refuses with
    | true =>
      obtain ⟨decided, hdecided, hrefuses⟩ := (Option.any_eq_true _ _).1 hopen
      obtain ⟨hdeepest, hholds, hl2⟩ := h.of_refused hdecided hrefuses
      exact ⟨hdeepest, hholds, iff_of_true hl2 rfl⟩
    | false =>
      obtain ⟨hdeepest, hterminal, hshed, herror⟩ := h.of_passed hpassed hopen
      obtain ⟨hholds, hfind⟩ := h.egress_spec hpassed hopen
      exact ⟨hdeepest.trans hfind.symm, hterminal ▸ hholds, by simp [hshed, herror]⟩

end Facts

/-! ## What the validators leave -/

/-- The validators report nothing but that the boundary rejected the request. -/
def Legible (view : LifecycleView) (final : Bool) : Prop :=
  ∀ anomaly ∈ validateLifecycle view final ++ validateOriginLineage view final ++
    validateL2Lifecycle view final, anomaly.code = .boundaryRejectedPlaneEgress

@[simp] theorem forall_mem_check {view : LifecycleView} {fault : Prop} [Decidable fault]
    {code : AnomalyCode} {detail : String} {P : Anomaly → Prop} :
    (∀ anomaly ∈ view.check fault code detail, P anomaly) ↔
      (fault → P ⟨code, view.nonce, detail⟩) := by
  by_cases h : fault <;> simp [LifecycleView.check, h]

/-- What the walk of the plane's automaton can find. -/
theorem code_of_mem_planeWalk {view : LifecycleView} {previous : Option PlaneEventKind}
    {seen : List PlaneEventKind} {lastSeq : ℤ} {plane : List PlaneEvent} {anomaly : Anomaly}
    (h : anomaly ∈ planeWalk view previous seen lastSeq plane) :
    anomaly.code ∈ [AnomalyCode.impossibleOrder, .duplicateTerminal, .duplicateEvent,
      .missingTransition] := by
  induction plane generalizing previous seen lastSeq with
  | nil => cases h
  | cons event events ih =>
    simp only [planeWalk, List.mem_append, LifecycleView.mem_check] at h
    rcases h with (⟨-, rfl⟩ | ⟨-, rfl⟩) | h
    · simp
    · unfold classifyViolation
      dsimp only
      split_ifs <;> simp
    · exact ih h

/-! ### The streams and their automata -/

theorem rank_lt_of_planeSuccessors (l2 : Bool) (j : PlaneEventKind) :
    ∀ k ∈ planeSuccessors l2 (some j), RANK j < RANK k := by
  cases l2 <;> cases j <;>
    simp [planeSuccessors, NEXT_PLANE_KINDS, NEXT_PLANE_KINDS_L2, RANK] <;> norm_num

theorem rank_lt_of_NEXT_BOUNDARY_KINDS (j : BoundaryEventKind) :
    ∀ k ∈ NEXT_BOUNDARY_KINDS (some j), BOUNDARY_RANK j < BOUNDARY_RANK k := by
  cases j <;> decide

theorem rank_lt_of_NEXT_APP_KINDS (j : AppEventKind) :
    ∀ k ∈ NEXT_APP_KINDS (some j), APP_RANK j < APP_RANK k := by
  cases j <;> decide

theorem isSome_first {plane : List PlaneEvent} {kind : PlaneEventKind} :
    (first plane kind).isSome ↔ kind ∈ plane.map PlaneEvent.kind := by
  simp [first, List.find?_isSome]

theorem isSome_firstBoundary {boundary : List BoundaryEvent} {kind : BoundaryEventKind} :
    (firstBoundary boundary kind).isSome ↔ kind ∈ boundary.map BoundaryEvent.kind := by
  simp [firstBoundary, List.find?_isSome]

theorem isSome_firstApp {app : List AppEvent} {kind : AppEventKind} :
    (firstApp app kind).isSome ↔ kind ∈ app.map AppEvent.kind := by
  simp [firstApp, List.find?_isSome]

/-- A verdict of L1 comes after its entry. -/
theorem eq_l1Entered_of_verdict {l2 : Bool} {state : Option PlaneEventKind} :
    ∀ kind ∈ planeSuccessors l2 state, kind.isLayerVerdict = true → state = some .l1Entered := by
  rcases state with _ | state
  · cases l2 <;> decide
  · cases l2 <;> cases state <;> decide

/-- What each later kind comes after, with and without L2. -/
theorem predecessor_of_planeSuccessors {l2 : Bool} {state : Option PlaneEventKind} :
    (.l2Entered ∈ planeSuccessors l2 state → l2 = true ∧ state = some .l1Passed) ∧
    (.l2Decided ∈ planeSuccessors l2 state → l2 = true ∧ state = some .l2Entered) ∧
    (.egressAttempted ∈ planeSuccessors l2 state →
      state = some (if l2 then .l2Decided else .l1Passed)) ∧
    (.proofIssued ∈ planeSuccessors l2 state → state = some .egressAttempted) ∧
    (.egressFailed ∈ planeSuccessors l2 state →
      state = some .egressAttempted ∨ state = some .proofIssued) := by
  rcases state with _ | state
  · cases l2 <;> decide
  · cases l2 <;> cases state <;> decide

section Plane

variable {l2 : Bool} {plane : List PlaneEvent}
  (h : Accepts (planeSuccessors l2) none (plane.map PlaneEvent.kind))
include h

/-- The plane's streams of the automaton have one verdict, after the entry of L1. -/
theorem verdict_of_accepts {kind : PlaneEventKind} (hkind : kind.isLayerVerdict = true)
    (hsome : (first plane kind).isSome) : (first plane .l1Entered).isSome :=
  isSome_first.2 (mem_of_accepts _ h (isSome_first.1 hsome)
    fun _ hmem => eq_l1Entered_of_verdict kind hmem hkind)

theorem one_verdict_of_accepts {j k : PlaneEventKind} (hj : j.isLayerVerdict = true)
    (hk : k.isLayerVerdict = true) (hsome : (first plane j).isSome)
    (hsome' : (first plane k).isSome) : j = k :=
  eq_of_rank_eq _ (rank_lt_of_planeSuccessors l2) h (isSome_first.1 hsome) (isSome_first.1 hsome')
    (by cases j <;> cases hj <;> cases k <;> cases hk <;> rfl)

theorem l2Decided_of_accepts (hsome : (first plane .l2Decided).isSome) :
    l2 = true ∧ (first plane .l2Entered).isSome ∧ (first plane .l1Passed).isSome := by
  have hentered := mem_of_accepts _ h (isSome_first.1 hsome)
    fun _ hmem => (predecessor_of_planeSuccessors.2.1 hmem).2
  have hpassed := mem_of_accepts _ h hentered
    fun _ hmem => (predecessor_of_planeSuccessors.1 hmem).2
  refine ⟨?_, isSome_first.2 hentered, isSome_first.2 hpassed⟩
  obtain ⟨pre, post, hplane⟩ := List.append_of_mem (isSome_first.1 hsome)
  rw [hplane, accepts_append, accepts_cons] at h
  exact (predecessor_of_planeSuccessors.2.1 h.2.1).1

theorem egressAttempted_of_accepts (hsome : (first plane .egressAttempted).isSome) :
    (first plane .l1Passed).isSome ∧ (l2 = true → (first plane .l2Decided).isSome) := by
  have hbefore := isSome_first.2 (mem_of_accepts _ h (isSome_first.1 hsome)
    fun _ hmem => predecessor_of_planeSuccessors.2.2.1 hmem)
  cases l2 with
  | false => exact ⟨hbefore, nofun⟩
  | true => exact ⟨(l2Decided_of_accepts h hbefore).2.2, fun _ => hbefore⟩

theorem attempted_of_accepts
    (hsome : (first plane .proofIssued).isSome ∨ (first plane .egressFailed).isSome) :
    (first plane .egressAttempted).isSome := by
  have hissued : (first plane .proofIssued).isSome → (first plane .egressAttempted).isSome :=
    fun hissued => isSome_first.2 (mem_of_accepts _ h (isSome_first.1 hissued)
      fun _ hmem => predecessor_of_planeSuccessors.2.2.2.1 hmem)
  rcases hsome with hsome | hsome
  · exact hissued hsome
  · -- a failed egress comes after its attempt or after the proof
    obtain ⟨j, hj, hmem⟩ := exists_mem_of_accepts _ h (isSome_first.1 hsome)
      [.egressAttempted, .proofIssued] fun state hmem => by
        rcases predecessor_of_planeSuccessors.2.2.2.2 hmem with hstate | hstate <;>
          exact ⟨_, by simp, hstate⟩
    simp only [List.mem_cons, List.not_mem_nil, or_false] at hj
    rcases hj with rfl | rfl
    · exact isSome_first.2 hmem
    · exact hissued (isSome_first.2 hmem)

end Plane

/-! ### The streams of the gates -/

theorem predecessor_of_NEXT_BOUNDARY_KINDS {state : Option BoundaryEventKind}
    (h : .appProofIssued ∈ NEXT_BOUNDARY_KINDS state) : state = some .boundaryAdmitted := by
  rcases state with _ | state
  · revert h
    decide
  · revert h
    cases state <;> decide

theorem predecessor_of_NEXT_APP_KINDS {state : Option AppEventKind} :
    (.appExecuted ∈ NEXT_APP_KINDS state → state = some .appAdmitted) ∧
      (.appMutated ∈ NEXT_APP_KINDS state → state = some .appExecuted) := by
  rcases state with _ | state
  · decide
  · cases state <;> decide

/-! ### The three validators -/

namespace Legible

variable {view : LifecycleView} {final : Bool} (h : Legible view final)
include h

theorem lifecycle : ∀ anomaly ∈ validateLifecycle view final,
    anomaly.code = .boundaryRejectedPlaneEgress :=
  fun anomaly hmem => h anomaly (by simp [hmem])

theorem lineage : ∀ anomaly ∈ validateOriginLineage view final,
    anomaly.code = .boundaryRejectedPlaneEgress :=
  fun anomaly hmem => h anomaly (by simp [hmem])

theorem stage : ∀ anomaly ∈ validateL2Lifecycle view final,
    anomaly.code = .boundaryRejectedPlaneEgress :=
  fun anomaly hmem => h anomaly (by simp [hmem])

/-- The plane's stream is one of the automaton. -/
theorem accepts_plane (hlane : view.protectedLike = true) :
    Accepts (planeSuccessors view.l2) none (view.plane.map PlaneEvent.kind) := by
  have hwalk : planeWalk view none [] (-1) view.plane = [] := by
    refine List.eq_nil_iff_forall_not_mem.2 fun anomaly hmem => ?_
    have hcode := code_of_mem_planeWalk hmem
    rw [h.lifecycle anomaly (by simp [validateLifecycle, planeRules, hlane, hmem])] at hcode
    simp at hcode
  exact ((planeWalk_eq_nil _ _ _ _ _).1 hwalk).1

/-- Off the protected lanes the plane has no stream. -/
theorem plane_eq_nil (hlane : view.protectedLike = false) : view.plane = [] := by
  have hrules := h.lifecycle
  simp only [validateLifecycle, planeRules, hlane, List.forall_mem_append, forall_mem_check,
    Bool.false_eq_true, if_false] at hrules
  by_contra hne
  simpa using hrules.1.1.2 hne

/-- The streams of the boundary and the app are ones of their automata. -/
theorem accepts_gates :
    Accepts NEXT_BOUNDARY_KINDS none ((view.boundary.getD []).map BoundaryEvent.kind) ∧
      Accepts NEXT_APP_KINDS none ((view.app.getD []).map AppEvent.kind) := by
  by_cases hstreams : view.boundary = none ∧ view.app = none
  · simp [hstreams]
  · have hwalk : ∀ anomaly, anomaly ∈ boundaryWalk view (view.boundary.getD []) ∨
        anomaly ∈ appWalk view (view.app.getD []) → False := by
      intro anomaly hmem
      have hcode : anomaly.code = .boundaryRejectedPlaneEgress :=
        h.lineage anomaly (by
          simp only [validateOriginLineage, hstreams, if_false, List.mem_append]
          tauto)
      rcases hmem with hmem | hmem <;> have hcodes := code_of_mem_automaton hmem <;>
        simp [hcode] at hcodes
    exact ⟨((boundaryWalk_eq_nil _ _).1
        (List.eq_nil_iff_forall_not_mem.2 fun anomaly hmem => hwalk anomaly (.inl hmem))).1,
      ((appWalk_eq_nil _ _).1
        (List.eq_nil_iff_forall_not_mem.2 fun anomaly hmem => hwalk anomaly (.inr hmem))).1⟩

/-- The boundary admits only with a proof of the plane, the app only with one of the boundary. -/
theorem gates (hlane : view.expected ∉
      [ExpectedLane.external, .positiveControlBoundary, .positiveControlApp]) :
    ((firstBoundary (view.boundary.getD []) .boundaryAdmitted).isSome →
        (first view.plane .proofIssued).isSome) ∧
      ((firstApp (view.app.getD []) .appAdmitted).isSome →
        (firstBoundary (view.boundary.getD []) .appProofIssued).isSome) := by
  by_cases hstreams : view.boundary = none ∧ view.app = none
  · simp [hstreams, firstBoundary, firstApp]
  · have hrules := h.lineage
    simp only [validateOriginLineage, hstreams, if_false, List.forall_mem_append] at hrules
    obtain ⟨-, hrules⟩ := hrules
    cases hexpected : view.expected with
    | external => simp [hexpected] at hlane
    | positiveControlBoundary => simp [hexpected] at hlane
    | positiveControlApp => simp [hexpected] at hlane
    | controlLane | preIngress =>
      simp only [hexpected, forall_mem_check, reduceCtorEq, imp_false, not_or, not_not] at hrules
      simp [hrules, firstBoundary, firstApp]
    | directBoundaryRejected | directAppRejected =>
      simp only [hexpected, directRules, List.forall_mem_append, forall_mem_check, reduceCtorEq,
        imp_false, not_or] at hrules
      obtain ⟨⟨⟨-, hadmitted, -⟩, happ, -⟩, -⟩ := hrules
      exact ⟨fun hsome => absurd hsome hadmitted, fun hsome => absurd hsome happ⟩
    | protectedLane =>
      simp only [hexpected, startRules, appRules, if_true, List.forall_mem_append, forall_mem_check,
        reduceCtorEq, imp_false] at hrules
      obtain ⟨⟨⟨⟨-, hmismatch⟩, -⟩, ⟨⟨⟨hlineage, -⟩, -⟩, -⟩⟩, -⟩ := hrules
      refine ⟨fun hadmitted => ?_, fun happ => ?_⟩
      · obtain ⟨admitted, hadmitted⟩ := Option.isSome_iff_exists.1 hadmitted
        by_contra hissued
        rw [Option.not_isSome_iff_eq_none] at hissued
        apply hmismatch
        simp [hadmitted, hissued]
      · have hchain := not_and_not_right.1 hlineage happ
        obtain ⟨appAdmitted, -, hchain⟩ := (Option.any_eq_true _ _).1 hchain
        simp only [lineageOf, hexpected, reduceCtorEq, if_false, if_true] at hchain
        obtain ⟨_, _, _, proof, _, _, _, _, ⟨hproof, -⟩, -⟩ := chainAgrees_eq_true hchain
        simp [hproof]

/-- A decision of L2 is complete, and egress follows only one that proceeds. -/
theorem decided {decided : PlaneEvent}
    (hdecided : first view.plane .l2Decided = some decided) :
    decided.letsThrough = !decided.refuses ∧
      ((first view.plane .egressAttempted).isSome → decided.refuses = false) := by
  have hlike : view.protectedLike = true := by
    by_contra hlike
    simp [h.plane_eq_nil (by simpa using hlike), first] at hdecided
  have hl2 := (l2Decided_of_accepts (h.accepts_plane hlike) (by simp [hdecided])).1
  have hrules := h.stage
  simp only [validateL2Lifecycle, hl2, hlike, and_self, if_true, List.forall_mem_append,
    decidedRules, hdecided] at hrules
  obtain ⟨⟨-, hrules⟩, -⟩ := hrules
  cases hdecision : decisionOf decided with
  | none => simp [hdecision] at hrules
  | some decision =>
    simp only [hdecision, egressRules, List.forall_mem_append, forall_mem_check, reduceCtorEq,
      imp_false] at hrules
    obtain ⟨-, hegress, -⟩ := hrules
    have houtcome : decided.outcome = some decision.outcome := by
      simp only [decisionOf] at hdecision
      split at hdecision
      · next cls lane outcome _ _ houtcome =>
        rw [houtcome]
        injection hdecision with hdecision
        rw [← hdecision]
      · cases hdecision
    refine ⟨?_, fun hattempted => ?_⟩
    · cases hkind : decision.outcome <;>
        simp [PlaneEvent.letsThrough, PlaneEvent.refuses, houtcome, hkind]
    · have hhas : has view.plane .egressAttempted = true := by
        simpa [has, first, List.find?_isSome] using hattempted
      have hproceeds := not_not.1 fun hno => hegress ⟨hno, hhas⟩
      cases hkind : decision.outcome <;>
        simp_all [proceeds, PlaneEvent.refuses]

/-- **What the validators leave** of a request whose chain starts at the plane. -/
theorem facts (hlane : view.expected ∉
      [ExpectedLane.external, .positiveControlBoundary, .positiveControlApp]) : Facts view := by
  obtain ⟨hboundary, happ⟩ := h.accepts_gates
  obtain ⟨hissued, hproof⟩ := h.gates hlane
  have hplane : Accepts (planeSuccessors view.l2) none (view.plane.map PlaneEvent.kind) := by
    cases hlike : view.protectedLike with
    | true => exact h.accepts_plane hlike
    | false => simp [h.plane_eq_nil hlike]
  exact {
    entered := fun kind hkind => verdict_of_accepts hplane hkind
    one_verdict := fun j k hj hk => one_verdict_of_accepts hplane hj hk
    passed := fun hsome => (egressAttempted_of_accepts hplane hsome).1
    attempted := attempted_of_accepts hplane
    decided := fun hl2 hsome => (egressAttempted_of_accepts hplane hsome).2 hl2
    stage := l2Decided_of_accepts hplane
    outcome := fun decided hdecided => (h.decided hdecided).1
    proceeds := fun decided hdecided => (h.decided hdecided).2
    issued := hissued
    one_decision := fun hadmitted => Option.not_isSome_iff_eq_none.1 fun hrejected =>
      absurd (eq_of_rank_eq _ rank_lt_of_NEXT_BOUNDARY_KINDS hboundary
        (isSome_firstBoundary.1 hadmitted) (isSome_firstBoundary.1 hrejected) rfl) (by decide)
    admitted := fun hsome => isSome_firstBoundary.2 (mem_of_accepts _ hboundary
      (isSome_firstBoundary.1 hsome) fun _ => predecessor_of_NEXT_BOUNDARY_KINDS)
    app_proof := hproof
    one_answer := fun hadmitted => Option.not_isSome_iff_eq_none.1 fun hrefused =>
      absurd (eq_of_rank_eq _ rank_lt_of_NEXT_APP_KINDS happ
        (isSome_firstApp.1 hadmitted) (isSome_firstApp.1 hrefused) rfl) (by decide)
    app_admitted := fun hsome => isSome_firstApp.2 (mem_of_accepts _ happ
      (isSome_firstApp.1 hsome) fun _ => predecessor_of_NEXT_APP_KINDS.1)
    app_executed := fun hsome => isSome_firstApp.2 (mem_of_accepts _ happ
      (isSome_firstApp.1 hsome) fun _ => predecessor_of_NEXT_APP_KINDS.2) }

end Legible

/-! ## The record of a request -/

/-- An app that admitted nothing did nothing but refuse. -/
theorem eq_appRefused_of_not_admitted {kinds : List AppEventKind}
    (h : Accepts NEXT_APP_KINDS none kinds) (hno : AppEventKind.appAdmitted ∉ kinds) :
    ∀ kind ∈ kinds, kind = .appRefused := by
  rcases kinds with _ | ⟨kind, kinds⟩
  · simp
  · have hkind : kind = .appRefused := by
      rcases List.mem_pair.1 h.1 with rfl | rfl
      · simp at hno
      · rfl
    subst hkind
    rcases kinds with _ | ⟨next, kinds⟩
    · simp
    · simp [NEXT_APP_KINDS] at h

/-- **The penetration of a request.** On a request whose chain starts at the plane, and of which the
validators report at most a rejection by the boundary, the depth is the furthest stage reached, the
explanation the only one that holds, and a refusal by L2 is the refusal it decided, behind which
nothing left the plane and the app did nothing but refuse. -/
theorem penetrationOf_spec {view : LifecycleView} {final : Bool} (hlane : view.expected ∉
      [ExpectedLane.external, .positiveControlBoundary, .positiveControlApp])
    (h : Legible view final) :
    (penetrationOf view).deepest = PENETRATION_STAGES.reverse.find? (reached view) ∧
    (∀ t : Terminal, t.Holds view ↔ (penetrationOf view).terminal = t) ∧
    (((penetrationOf view).l2 = .shed ∨ (penetrationOf view).l2 = .error) ↔
      (first view.plane .l2Decided).any PlaneEvent.refuses = true) ∧
    ((first view.plane .l2Decided).any PlaneEvent.refuses = true →
      first view.plane .egressAttempted = none ∧
        ∀ event ∈ view.app.getD [], event.kind = .appRefused) := by
  have hfacts := h.facts hlane
  obtain ⟨hdeepest, hholds, hl2⟩ := hfacts.spec
  refine ⟨hdeepest, hholds, hl2, fun hrefuses => ?_⟩
  obtain ⟨decided, hdecided, hrefuses⟩ := (Option.any_eq_true _ _).1 hrefuses
  have hattempted : first view.plane .egressAttempted = none := by
    by_contra hattempted
    rw [hfacts.proceeds decided hdecided (Option.isSome_iff_ne_none.2 hattempted)] at hrefuses
    cases hrefuses
  refine ⟨hattempted, fun event hmem => ?_⟩
  have happ := (hfacts.closed (hfacts.no_egress hattempted).1).2.2.1
  refine eq_appRefused_of_not_admitted h.accepts_gates.2 (fun hadmitted => ?_) _
    (List.mem_map_of_mem hmem)
  rw [← isSome_firstApp, happ] at hadmitted
  cases hadmitted

theorem penetrationOf_spec_servedView :
    (penetrationOf servedView).terminal = .appMutated ∧
      (penetrationOf servedView).deepest = some .appMutated :=
  have hlegible : Legible servedView true := by
    unfold Legible
    decide
  have hspec := penetrationOf_spec (by decide) hlegible
  ⟨(hspec.2.1 .appMutated).1 rfl, hspec.1⟩

end Limitmark.Ledger
