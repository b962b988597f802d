import Limitmark.Foundations.Automaton
import Limitmark.Ledger.Events

/-!
# The lifecycle of one request

The plane automaton and the lifecycle validator of `defense/core/ledger.ts`. A validator returns the
anomalies it finds, in the order it looks for them; each rule is one `check`, so that a view is clean
exactly when no rule's fault holds.
-/

namespace Limitmark.Ledger

open Limitmark.Defense Limitmark.Lanes Limitmark.Foundations

/-! ## Texts -/

def PlaneEventKind.text : PlaneEventKind → String
  | .ingressAccepted => "INGRESS_ACCEPTED"
  | .l1Entered => "L1_ENTERED"
  | .l1Passed => "L1_PASSED"
  | .l1Rejected => "L1_REJECTED"
  | .l1Shed => "L1_SHED"
  | .l1Error => "L1_ERROR"
  | .egressAttempted => "EGRESS_ATTEMPTED"
  | .proofIssued => "PROOF_ISSUED"
  | .egressResponded => "EGRESS_RESPONDED"
  | .egressFailed => "EGRESS_FAILED"
  | .ingressResponded => "INGRESS_RESPONDED"
  | .ingressAborted => "INGRESS_ABORTED"
  | .l2Entered => "L2_ENTERED"
  | .l2Decided => "L2_DECIDED"
  | .l2Enrolled => "L2_ENROLLED"
  | .l2EnrollSkipped => "L2_ENROLL_SKIPPED"

/-- The text of a state of the automaton. -/
def stateText (previous : Option PlaneEventKind) : String :=
  (previous.map PlaneEventKind.text).getD "START"

def ExpectedLane.text : ExpectedLane → String
  | .protectedLane => "protected"
  | .controlLane => "control"
  | .preIngress => "pre_ingress"
  | .external => "external"
  | .directBoundaryRejected => "direct_boundary_rejected"
  | .directAppRejected => "direct_app_rejected"
  | .positiveControlBoundary => "positive_control_boundary"
  | .positiveControlApp => "positive_control_app"

def laneText : Lane → String
  | .controlLane => "control"
  | .protectedLane => "protected"

/-- An optional status or hop as text. -/
def optionText {α : Type*} [ToString α] (absent : String) (x : Option α) : String :=
  (x.map toString).getD absent

/-! ## The plane automaton -/

def RANK : PlaneEventKind → ℚ
  | .ingressAccepted => 1
  | .l1Entered => 2
  | .l1Passed | .l1Rejected | .l1Shed | .l1Error => 3
  | .l2Entered => 16 / 5
  | .l2Decided => 7 / 2
  | .egressAttempted => 4
  | .proofIssued => 9 / 2
  | .egressResponded | .egressFailed => 5
  | .l2Enrolled | .l2EnrollSkipped => 11 / 2
  | .ingressResponded | .ingressAborted => 6

/-- The only legal successors. The kinds of L2 are not part of this composition. -/
def NEXT_PLANE_KINDS : Option PlaneEventKind → List PlaneEventKind
  | none => [.ingressAccepted]
  | some .ingressAccepted => [.l1Entered]
  | some .l1Entered => [.l1Passed, .l1Rejected, .l1Shed, .l1Error]
  | some .l1Passed => [.egressAttempted]
  | some .l1Rejected | some .l1Shed | some .l1Error => [.ingressResponded, .ingressAborted]
  | some .egressAttempted => [.proofIssued, .egressResponded, .egressFailed]
  | some .proofIssued => [.egressResponded, .egressFailed]
  | some .egressResponded | some .egressFailed => [.ingressResponded, .ingressAborted]
  | some .ingressResponded | some .ingressAborted => []
  | some .l2Entered | some .l2Decided | some .l2Enrolled | some .l2EnrollSkipped => []

/-- The successors in a composition that has L2. -/
def NEXT_PLANE_KINDS_L2 : Option PlaneEventKind → List PlaneEventKind
  | none => [.ingressAccepted]
  | some .ingressAccepted => [.l1Entered]
  | some .l1Entered => [.l1Passed, .l1Rejected, .l1Shed, .l1Error]
  | some .l1Passed => [.l2Entered]
  | some .l1Rejected | some .l1Shed | some .l1Error => [.ingressResponded, .ingressAborted]
  | some .l2Entered => [.l2Decided]
  -- whether the decision proceeds is checked by the L2 rules, not by the successor table
  | some .l2Decided => [.egressAttempted, .ingressResponded, .ingressAborted]
  | some .egressAttempted => [.proofIssued, .egressResponded, .egressFailed]
  | some .proofIssued => [.egressResponded, .egressFailed]
  | some .egressResponded => [.l2Enrolled, .l2EnrollSkipped, .ingressResponded, .ingressAborted]
  | some .egressFailed => [.l2EnrollSkipped, .ingressResponded, .ingressAborted]
  | some .l2Enrolled | some .l2EnrollSkipped => [.ingressResponded, .ingressAborted]
  | some .ingressResponded | some .ingressAborted => []

def planeSuccessors (l2 : Bool) : Option PlaneEventKind → List PlaneEventKind :=
  if l2 then NEXT_PLANE_KINDS_L2 else NEXT_PLANE_KINDS

def PlaneEventKind.isTerminal (kind : PlaneEventKind) : Bool :=
  kind = .ingressResponded || kind = .ingressAborted

/-- The anomaly of an event that may not follow. -/
def classifyViolation (previous : Option PlaneEventKind) (kind : PlaneEventKind)
    (seen : List PlaneEventKind) : AnomalyCode :=
  if previous.any PlaneEventKind.isTerminal then .duplicateTerminal
  else if kind ∈ seen then .duplicateEvent
  else if RANK kind ≤ (previous.map RANK).getD 0 then .impossibleOrder
  else .missingTransition

/-- The kinds that report a verdict of L1. -/
def PlaneEventKind.isLayerVerdict (kind : PlaneEventKind) : Bool :=
  kind = .l1Passed || kind = .l1Rejected || kind = .l1Shed || kind = .l1Error

/-! ## What a view shows -/

/-- The first event of a kind. -/
def first (plane : List PlaneEvent) (kind : PlaneEventKind) : Option PlaneEvent :=
  plane.find? fun event => event.kind = kind

def has (plane : List PlaneEvent) (kind : PlaneEventKind) : Bool :=
  plane.any fun event => event.kind = kind

/-- The status the plane's own events prescribe. -/
def planeStatusFor (view : LifecycleView) : Option ℕ :=
  match view.plane.find? fun event => event.kind.isLayerVerdict with
  | none => none
  | some verdict =>
    if verdict.kind = .l1Rejected then verdict.reason.map REJECT_STATUS
    else if verdict.kind = .l1Shed ∨ verdict.kind = .l1Error then some 503
    else if view.l2 = true ∧ (first view.plane .l2Decided).any fun decided =>
        decided.outcome = some .shed || decided.outcome = some .error then some 503
    else
      match first view.plane .egressFailed with
      | some failed => some (if failed.egressError = some .timeout then 504 else 502)
      | none => (first view.plane .egressResponded).bind PlaneEvent.status

inductive TerminalOutcome
  | rejected | shed | error | proxied | egressFailed | clientAborted | l2Shed | l2Error
  deriving DecidableEq, Repr

def TerminalOutcome.text : TerminalOutcome → String
  | .rejected => "rejected"
  | .shed => "shed"
  | .error => "error"
  | .proxied => "proxied"
  | .egressFailed => "egress_failed"
  | .clientAborted => "client_aborted"
  | .l2Shed => "l2_shed"
  | .l2Error => "l2_error"

/-- The terminal outcome as the plane saw it, once its stream is terminal. -/
def terminalOutcome (plane : List PlaneEvent) : Option TerminalOutcome :=
  if has plane .ingressAborted then some .clientAborted
  else if ¬ has plane .ingressResponded then none
  else if has plane .l1Rejected then some .rejected
  else if has plane .l1Shed then some .shed
  else if has plane .l1Error then some .error
  else if has plane .egressFailed then some .egressFailed
  else if has plane .egressResponded then some .proxied
  else none

/-- An L2 refusal is its own terminal outcome. -/
def terminalOutcomeL2 (plane : List PlaneEvent) : Option TerminalOutcome :=
  if has plane .ingressResponded ∧ ¬ has plane .ingressAborted then
    match (first plane .l2Decided).bind PlaneEvent.outcome with
    | some .shed => some .l2Shed
    | some .error => some .l2Error
    | _ => terminalOutcome plane
  else terminalOutcome plane

/-! ## The validator -/

/-- One rule: an anomaly when its fault holds. -/
def LifecycleView.check (view : LifecycleView) (fault : Prop) [Decidable fault] (code : AnomalyCode)
    (detail : String) : List Anomaly :=
  if fault then [⟨code, view.nonce, detail⟩] else []

@[simp] theorem LifecycleView.check_eq_nil (view : LifecycleView) (fault : Prop) [Decidable fault]
    (code : AnomalyCode) (detail : String) : view.check fault code detail = [] ↔ ¬ fault := by
  by_cases h : fault <;> simp [check, h]

/-- An external request is judged like a protected one. -/
def LifecycleView.protectedLike (view : LifecycleView) : Bool :=
  view.expected = .protectedLane || view.expected = .external

/-- The harness stream: `SENT` first, at most one `CLIENT_COMPLETED` after it. -/
def harnessRules (view : LifecycleView) (final : Bool) : List Anomaly :=
  let sent := view.harness.countP fun event => event.kind = .sent
  let completed := view.harness.countP fun event => event.kind = .clientCompleted
  if view.expected = .external then
    view.check (view.harness ≠ []) .planeEventOnUnexpectedLane "harness event on an external request"
  else
    view.check (sent ≠ 1 ∨ view.harness.head?.map HarnessEvent.kind ≠ some .sent)
      .duplicateEvent "SENT" ++
    view.check (1 < completed) .duplicateTerminal "CLIENT_COMPLETED" ++
    view.check (final = true ∧ completed = 0) .sentWithoutCompletion "CLIENT_COMPLETED"

/-- The plane stream in sequence order, against the successor table. -/
def planeWalk (view : LifecycleView) (previous : Option PlaneEventKind)
    (seen : List PlaneEventKind) (lastSeq : ℤ) : List PlaneEvent → List Anomaly
  | [] => []
  | event :: events =>
    view.check (event.seq ≤ lastSeq) .impossibleOrder ("seq " ++ event.kind.text) ++
    view.check (event.kind ∉ planeSuccessors view.l2 previous)
      (classifyViolation previous event.kind seen)
      (stateText previous ++ ">" ++ event.kind.text) ++
    planeWalk view (some event.kind) (event.kind :: seen) event.seq events

/-- The plane stream has come to one terminal event. -/
def resolutionRules (view : LifecycleView) : List Anomaly :=
  let previous := stateAfter none (view.plane.map PlaneEvent.kind)
  if view.plane = [] then view.check True .ingressLoss "no plane event"
  else
    view.check (¬ previous.any PlaneEventKind.isTerminal) .disappearedAfterIngress
      (stateText previous) ++
    view.check (¬ previous.any PlaneEventKind.isTerminal) .unresolvedAtFinalization
      (stateText previous)

/-- How the front marked the ingress. -/
def ingressRules (view : LifecycleView) : List Anomaly :=
  view.check (view.expected ≠ .external ∧ view.plane.any PlaneEvent.uncorrelated)
    .uncorrelatedIngress "minted nonce" ++
  view.check (view.expected = .external ∧
      ¬ view.plane.any fun event => event.ingress = some .external)
    .externalUnclaimedDownstream "external lane without an external ingress marker"

/-- The plane reports one verdict of L1 only. -/
def verdictRules (view : LifecycleView) : List Anomaly :=
  view.check (1 < view.plane.countP fun event => event.kind.isLayerVerdict) .duplicateTerminal
    "layer verdict"

def planeRules (view : LifecycleView) (final : Bool) : List Anomaly :=
  if view.protectedLike then
    planeWalk view none [] (-1) view.plane ++
    (if final then resolutionRules view else []) ++ ingressRules view ++ verdictRules view
  else view.check (view.plane ≠ []) .planeEventOnUnexpectedLane view.expected.text

/-- The origin instance that may see a request of this lane. -/
def LifecycleView.wantedInstance (view : LifecycleView) : Option Lane :=
  match view.expected with
  | .protectedLane | .external | .positiveControlBoundary | .positiveControlApp =>
    some .protectedLane
  | .controlLane => some .controlLane
  | .preIngress | .directBoundaryRejected | .directAppRejected => none

def OriginEvent.isFinished (event : OriginEvent) : Bool :=
  event.kind = .originCompleted || event.kind = .originAborted

/-- The origin stream: an independent observation of the same request. -/
def originRules (view : LifecycleView) : List Anomaly :=
  let received := view.origin.countP fun event => event.kind = .originReceived
  let finished := view.origin.countP OriginEvent.isFinished
  view.check (1 < received) .duplicateOriginProcessing "ORIGIN_RECEIVED" ++
  view.check (1 < finished) .duplicateTerminal "origin completion" ++
  view.check (view.origin.head?.any fun event => event.kind ≠ .originReceived) .impossibleOrder
    "origin completion before receipt" ++
  (match view.origin.find? fun event => view.wantedInstance ≠ some event.origin with
    | some event => view.check True .originLaneMismatch (laneText event.origin)
    | none => []) ++
  view.check (view.origin.any fun event => 0 < event.spoofed.getD 0) .originSpoofedHeaderSeen
    "proxied"

/-- The plane's egress against what the origin received. -/
def originReconciliation (view : LifecycleView) : List Anomaly :=
  let received := view.origin.find? fun event => event.kind = .originReceived
  let finished := view.origin.find? OriginEvent.isFinished
  let attempted := first view.plane .egressAttempted
  (match received with
    | none => []
    | some event =>
      (if view.protectedLike then
        match attempted with
        | none => view.check True .originWithoutL1Pass "origin received without EGRESS_ATTEMPTED"
        | some attempt =>
          view.check (event.hop ≠ some attempt.seq) .originHopMismatch (optionText "null" event.hop)
      else []) ++
      view.check (view.expected = .preIngress) .originWithoutL1Pass
        "origin received a pre-ingress rejection") ++
  (if view.expected = .controlLane then
    match received, finished with
    | none, _ => view.check True .missingTransition "ORIGIN_RECEIVED"
    | some _, none => view.check True .missingTransition "ORIGIN_COMPLETED"
    | some _, some _ => []
  else []) ++
  (match view.protectedLike, first view.plane .egressResponded with
    | true, some responded =>
      match received, finished with
      | none, _ => view.check True .missingTransition "ORIGIN_RECEIVED"
      | some _, none => view.check True .missingTransition "ORIGIN_COMPLETED"
      | some _, some event =>
        view.check (event.kind = .originCompleted ∧ event.status ≠ responded.status)
          .originStatusMismatch (optionText "undefined" event.status ++ ">" ++
            optionText "undefined" responded.status)
    | _, _ => [])

/-- The status the front answered with, against the one its events prescribe. -/
def statusRules (view : LifecycleView) : List Anomaly :=
  match first view.plane .ingressResponded, planeStatusFor view with
  | some response, some status =>
    view.check (response.status ≠ some status) .planeStatusMismatch
      (optionText "undefined" response.status ++ "!=" ++ toString status)
  | _, _ => []

/-- What the client saw, against what the plane answered. -/
def clientRules (view : LifecycleView) : List Anomaly :=
  match view.harness.find? fun event => event.kind = .clientCompleted with
  | none => []
  | some client =>
    (match first view.plane .ingressResponded with
      | some response =>
        view.check (client.result = some .response ∧ client.status ≠ response.status)
          .clientStatusMismatch (optionText "undefined" client.status ++ "!=" ++
            optionText "undefined" response.status)
      | none => []) ++
    (match (if view.l2 then terminalOutcomeL2 view.plane else terminalOutcome view.plane),
        client.outcomeHeader with
      | some outcome, some header =>
        view.check (client.result = some .response ∧ outcome.text ≠ header) .outcomeHeaderMismatch
          (header ++ "!=" ++ outcome.text)
      | _, _ => [])

/-- Validates the lifecycle of one request. The rules that relate two sources wait for the end. -/
def validateLifecycle (view : LifecycleView) (final : Bool) : List Anomaly :=
  harnessRules view final ++ planeRules view final ++ originRules view ++
  (if final then
    originReconciliation view ++
    (if view.protectedLike then statusRules view ++ clientRules view else [])
  else [])

/-! ## What a clean plane stream is -/

/-- The walk finds nothing exactly on the streams the automaton accepts, numbered upwards. -/
theorem planeWalk_eq_nil (view : LifecycleView) (previous : Option PlaneEventKind)
    (seen : List PlaneEventKind) (lastSeq : ℤ) (plane : List PlaneEvent) :
    planeWalk view previous seen lastSeq plane = [] ↔
      Accepts (planeSuccessors view.l2) previous (plane.map PlaneEvent.kind) ∧
        (lastSeq :: plane.map PlaneEvent.seq).IsChain (· < ·) := by
  induction plane generalizing previous seen lastSeq with
  | nil => simp [planeWalk]
  | cons event events ih =>
    simp only [planeWalk, List.append_eq_nil_iff, LifecycleView.check_eq_nil, ih, List.map_cons,
      accepts_cons, List.isChain_cons_cons, not_le, not_not]
    tauto

end Limitmark.Ledger
