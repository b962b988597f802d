import Limitmark.Lanes.Decision

/-!
# The event vocabulary

The streams of one request (`defense/core/ledger.ts`): what the plane, the origin, the boundary, the
app and the harness report, the anomalies a validator can find in them, and the view of a request a
validator reads. Fields the source leaves out of an event are `none`; the automata start in the
state before any event, which is `none` too.
-/

namespace Limitmark.Ledger

open Limitmark.Defense Limitmark.Lanes

/-- What the plane reports of a request. The last four exist only in a composition with L2. -/
inductive PlaneEventKind
  | ingressAccepted | l1Entered | l1Passed | l1Rejected | l1Shed | l1Error
  | egressAttempted | proofIssued | egressResponded | egressFailed | ingressResponded
  | ingressAborted
  | l2Entered | l2Decided | l2Enrolled | l2EnrollSkipped
  deriving DecidableEq, Repr

inductive EgressErrorKind
  | refused
  | reset
  | timeout
  | error
  deriving DecidableEq, Repr

/-- Every reason an enrollment is skipped for. -/
inductive EnrollSkipReason
  | notGetFormRoute | degraded | simulated | upstreamFailed | statusNot200 | contentType
  | bodyTooLarge | tokenCountZero | tokenCountMultiple | deliveryIncomplete | alreadyEnrolled
  deriving DecidableEq, Repr

/-- The step of an approved egress that failed. -/
inductive FailStage
  | canon
  | sign
  deriving DecidableEq, Repr

/-- The peer of an ingress that is not the harness. -/
inductive Ingress
  | external
  deriving DecidableEq, Repr

/-- An event of the plane. The lane field is absent, or present and possibly null. -/
structure PlaneEvent where
  seq : ℤ
  nonce : String
  kind : PlaneEventKind
  reason : Option RejectReason := none
  stage : Option RejectStage := none
  errorKind : Option LayerErrorKind := none
  status : Option ℕ := none
  egressError : Option EgressErrorKind := none
  stripped : Option ℕ := none
  uncorrelated : Bool := false
  ingress : Option Ingress := none
  pbTag : Option String := none
  cls : Option OperationClass := none
  lane : Option (Option Lane2) := none
  outcome : Option L2Outcome := none
  shedReason : Option ShedReason := none
  l2ErrorKind : Option L2ErrorKind := none
  spent : Option Lane2 := none
  touched : Option Lane2 := none
  creditTag : Option String := none
  dt : Option ℤ := none
  lvl : Option ℤ := none
  lseq : Option ℤ := none
  basis : Option Basis := none
  shadow : Option String := none
  skipReason : Option EnrollSkipReason := none
  fill : Option (ℕ × ℕ) := none
  failStage : Option FailStage := none
  deriving DecidableEq, Repr

inductive OriginEventKind
  | originReceived
  | originCompleted
  | originAborted
  deriving DecidableEq, Repr

/-- An event of an origin, observed independently of the plane. -/
structure OriginEvent where
  origin : Lane
  kind : OriginEventKind
  hop : Option ℤ
  status : Option ℕ := none
  spoofed : Option ℕ := none
  deriving DecidableEq, Repr

inductive BoundaryEventKind
  | boundaryArrived | boundaryRejected | boundaryAdmitted | appProofIssued | boundaryForwarded
  | boundaryForwardResponded | boundaryForwardFailed | boundaryResponded | boundaryAborted
  | boundaryParserRejected | boundaryProtocolRefused
  deriving DecidableEq, Repr

/-- An event of the Origin Boundary. -/
structure BoundaryEvent where
  seq : ℤ
  nonce : Option String
  kind : BoundaryEventKind
  reason : Option ObReason := none
  hop : Option ℤ := none
  pbTag : Option String := none
  baTag : Option String := none
  status : Option ℕ := none
  forwardError : Option EgressErrorKind := none
  deriving DecidableEq, Repr

inductive AppEventKind
  | appAdmitted | appRefused | appExecuted | appMutated | appCompleted | appAborted
  deriving DecidableEq, Repr

/-- An event of the Protected App. -/
structure AppEvent where
  seq : ℤ
  nonce : Option String
  kind : AppEventKind
  reason : Option ObReason := none
  hop : Option ℤ := none
  pbTag : Option String := none
  baTag : Option String := none
  status : Option ℕ := none
  spoofed : Option ℕ := none
  deriving DecidableEq, Repr

/-- Hop ids minted by the lab start here; a sequence number of the plane never reaches it. -/
def ORACLE_HOP_BASE : ℤ := 2 ^ 40

inductive HarnessEventKind
  | sent
  | clientCompleted
  deriving DecidableEq, Repr

inductive ClientResultKind
  | response
  | reset
  | timeout
  | error
  deriving DecidableEq, Repr

structure HarnessEvent where
  kind : HarnessEventKind
  result : Option ClientResultKind := none
  status : Option ℕ := none
  outcomeHeader : Option String := none
  deriving DecidableEq, Repr

/-- The lane a request was sent on. -/
inductive ExpectedLane
  | protectedLane
  | controlLane
  | preIngress
  | external
  | directBoundaryRejected
  | directAppRejected
  | positiveControlBoundary
  | positiveControlApp
  deriving DecidableEq, Repr

/-- Every way a lifecycle can be wrong. -/
inductive AnomalyCode
  | duplicateTerminal | duplicateEvent | duplicateNonceSent | duplicateSequence | missingTransition
  | impossibleOrder | ingressLoss | disappearedAfterIngress | unresolvedAtFinalization
  | sentWithoutCompletion | duplicateOriginProcessing | originWithoutL1Pass | originLaneMismatch
  | originHopMismatch | originStatusMismatch | planeStatusMismatch | clientStatusMismatch
  | outcomeHeaderMismatch | planeEventOnUnexpectedLane | unknownNonce | eventBeforeSent
  | uncorrelatedIngress | lateEventAfterFinalization | eventChannelLoss | planeCrashed
  | planeNotFinalized | journalOverflow | ledgerCapacityExceeded | parserRejectUnreconciled
  | originSpoofedHeaderSeen | corpusExpectationViolated | boundaryCrashed | boundaryNotFinalized
  | boundaryChannelLoss | boundaryDecisionMissing | boundaryHopMismatch
  | boundaryRejectedPlaneEgress | planeEgressNotAdmitted | boundaryLaneMismatch | appCrashed
  | appNotFinalized | appChannelLoss | appAdmitWithoutLineage | appExecutionWithoutLineage
  | appMutationWithoutLineage | appRefusedBoundaryAdmitted | directAppExecution | directAppMutation
  | directNotRejected | hopRangeViolation | unattributedAppExecution | unattributedAppMutation
  | appCounterMismatch | boundaryCounterMismatch | replayStateViolation | admittedHopDuplicate
  | clockStepDetected | positiveControlFailed | layerSkipped | l2DecisionInvalid
  | l2RefusedButEgressed | l2EnrollmentInvalid | enrollmentAfterDecision | l2CounterMismatch
  | l2BucketReplayMismatch | l2StateViolation | simulatedInNormalRuntime | unconsumedOverrideArm
  | overrideAppliedWithoutArm | l2DecisionUntraced | externalStateOverflow | externalUnresolved
  | externalUnclaimedDownstream | externalLateEvent | externalDuplicateNonce  deriving DecidableEq, Repr

structure Anomaly where
  code : AnomalyCode
  nonce : String
  detail : String
  deriving DecidableEq, Repr

/-- What a validator sees of one request. The boundary and app streams exist only in a run that has
hop gates, and `l2` says whether the plane composition has the L2 stage. -/
structure LifecycleView where
  nonce : String
  expected : ExpectedLane
  harness : List HarnessEvent
  plane : List PlaneEvent
  origin : List OriginEvent
  boundary : Option (List BoundaryEvent) := none
  app : Option (List AppEvent) := none
  l2 : Bool := false
  deriving DecidableEq, Repr

end Limitmark.Ledger
