import Limitmark.Ledger.Lifecycle

/-!
# The rules of the L2 stage

`defense/core/l2-lifecycle.ts`: the rules of one request's plane stream in a composition that has
L2. Lane, outcome and basis are separate facts; `decisionRules` checks their combination, and the
rest checks that a refusal is not followed by egress and that an enrollment happened, or was
skipped, for the right reason.
-/

namespace Limitmark.Ledger

open Limitmark.Defense Limitmark.Lanes Limitmark.Foundations

/-- The decision an event reports, if it reports a class, a lane and an outcome. -/
def decisionOf (event : PlaneEvent) : Option LaneDecision :=
  match event.cls, event.lane, event.outcome with
  | some cls, some lane, some outcome =>
    some { cls, lane, outcome, shedReason := event.shedReason, errorKind := event.l2ErrorKind
           creditTag := event.creditTag, spent := event.spent, touched := event.touched
           dt := event.dt, lvl := event.lvl, lseq := event.lseq, basis := event.basis
           shadow := event.shadow }
  | _, _, _ => none

/-- A bucket decided in this lane. -/
def isBucketed (decision : LaneDecision) : Bool :=
  decision.lane = some .credited || decision.lane = some .unverified

/-- A marker says the decision was discarded. -/
def isMarked (decision : LaneDecision) : Bool :=
  decision.spent.isSome || decision.touched.isSome

/-- The rules a decision satisfies by itself. -/
def decisionRules (view : LifecycleView) (decision : LaneDecision) : List Anomaly :=
  view.check (¬ isValidDecision decision) .l2DecisionInvalid
    (decision.cls.text ++ "/" ++ (decision.lane.map Lane2.text).getD "none" ++ "/" ++
      decision.outcome.text) ++
  view.check (isBucketed decision ∧
      (decision.dt = none ∨ decision.lvl = none ∨ decision.lseq = none))
    .l2DecisionInvalid "bucket decision without clock, level and number" ++
  view.check (decision.lane = some .open ∧ (decision.dt.isSome ∨ decision.lseq.isSome))
    .l2DecisionInvalid "open decision with bucket fields" ++
  view.check (¬ ((decision.lane = some .credited ∧ decision.outcome = .admitted) ↔
      decision.creditTag.isSome))
    .l2DecisionInvalid "credit tag must accompany exactly a credited admission" ++
  view.check (isMarked decision ∧
      ¬ (decision.outcome = .error ∨ decision.outcome = .shed))
    .l2DecisionInvalid "spent or touched on a decision that was not discarded" ++
  view.check (isMarked decision ∧ decision.lane ≠ none)
    .l2DecisionInvalid "a discarded decision has no lane" ++
  view.check (¬ (decision.basis = some .simulated ↔ decision.shadow.isSome))
    .l2DecisionInvalid "basis and shadow must come together"

/-- A decision against the egress that follows it. -/
def egressRules (view : LifecycleView) (final : Bool) (decision : LaneDecision) : List Anomaly :=
  let attempted := has view.plane .egressAttempted
  view.check (¬ proceeds decision ∧ attempted) .l2RefusedButEgressed decision.outcome.text ++
  view.check (final ∧ proceeds decision ∧ ¬ attempted ∧ ¬ has view.plane .ingressAborted)
    .missingTransition "EGRESS_ATTEMPTED"

/-- Some verdict of the stream is a simulated one. -/
def LifecycleView.simulated (view : LifecycleView) : Bool :=
  view.plane.any fun event => event.basis = some .simulated

def PlaneEvent.isDisposition (event : PlaneEvent) : Bool :=
  event.kind = .l2Enrolled || event.kind = .l2EnrollSkipped

/-- One enrollment disposition against the decision of its request. -/
def dispositionRules (view : LifecycleView) (decision : Option LaneDecision)
    (disposition : PlaneEvent) : List Anomaly :=
  match decision.filter fun decision => decision.cls = .open && proceeds decision with
  | none =>
    view.check True .l2EnrollmentInvalid
      "disposition for a request that was not an admitted open render"
  | some decision =>
    if disposition.kind = .l2Enrolled then
      view.check (view.simulated ∨ decision.outcome ≠ .admitted) .l2EnrollmentInvalid
        "enrolled from a degraded or simulated decision" ++
      view.check (disposition.creditTag = none ∨ disposition.fill = none) .l2EnrollmentInvalid
        "enrollment without tag or fill" ++
      view.check (¬ has view.plane .egressResponded) .l2EnrollmentInvalid
        "enrolled without an upstream response"
    else
      view.check (disposition.skipReason = none) .l2EnrollmentInvalid "skip without a reason" ++
      view.check (¬ (disposition.skipReason = some .degraded ↔ decision.outcome = .degraded))
        .l2EnrollmentInvalid "degraded skip and degraded decision disagree" ++
      view.check (disposition.skipReason = some .simulated ∧ ¬ view.simulated)
        .l2EnrollmentInvalid "simulated skip without a simulated verdict"

/-- A layer the request left evidence of having passed, but never traversed; and a decision without
its entry, or an entry without its decision. -/
def stageRules (view : LifecycleView) (final : Bool) : List Anomaly :=
  let plane := view.plane
  let entered := plane.countP fun event => event.kind = .l2Entered
  let decided := plane.countP fun event => event.kind = .l2Decided
  view.check (has plane .egressAttempted ∧ ¬ has plane .l1Entered) .layerSkipped "l1" ++
  view.check (has plane .egressAttempted ∧ has plane .l1Entered ∧ ¬ has plane .l2Entered)
    .layerSkipped "l2" ++
  view.check (entered < decided) .l2DecisionInvalid "decision without entry" ++
  view.check (final ∧ entered = 1 ∧ decided = 0 ∧ ¬ has plane .ingressAborted) .missingTransition
    "L2_DECIDED"

/-- The first decision event against the rules of a decision. -/
def decidedRules (view : LifecycleView) (final : Bool) : List Anomaly :=
  match first view.plane .l2Decided with
  | none => []
  | some event =>
    match decisionOf event with
    | none => view.check True .l2DecisionInvalid "incomplete decision"
    | some decision => decisionRules view decision ++ egressRules view final decision

/-- The enrollment dispositions: at most one, for the right reason. -/
def enrollmentRules (view : LifecycleView) : List Anomaly :=
  let dispositions := view.plane.filter PlaneEvent.isDisposition
  view.check (1 < dispositions.length) .l2EnrollmentInvalid "more than one disposition" ++
  dispositions.flatMap (dispositionRules view ((first view.plane .l2Decided).bind decisionOf))

/-- The rules of the L2 stage over one request. -/
def validateL2Lifecycle (view : LifecycleView) (final : Bool) : List Anomaly :=
  if view.l2 ∧ view.protectedLike then
    stageRules view final ++ decidedRules view final ++ enrollmentRules view
  else []

end Limitmark.Ledger
