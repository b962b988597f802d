import Mathlib.Data.Multiset.Count
import Mathlib.Data.Multiset.AddSub
import Limitmark.Foundations.Run
import Limitmark.Ledger.L2Lifecycle
import Limitmark.Ledger.Lineage

/-!
# The external reducer

The external lane of the collector (`lab/defense/external-reducer.ts`). A request of a remote peer is
opened by its `INGRESS_ACCEPTED`, collects the events of its plane, boundary and app streams, and is
reduced to counters once the plane and the hops behind it have ended. Downstream events may come
before the plane's ingress: they wait in a table of orphans until the ingress adopts them.

The counters are kept as the multiset of the bumps made, so that a counter is the number of times its
name occurs. `closed` is a ghost: the records reduced so far, in order.
-/

namespace Limitmark.External

open Limitmark.Defense Limitmark.Lanes Limitmark.Ledger Limitmark.Foundations

/-! ## Limits, counters and records -/

/-- Caps are numbers of rows or events, graces are milliseconds. -/
structure ExternalLimits where
  maxActive : ℕ
  maxOrphans : ℕ
  recentRing : ℕ
  maxTraces : ℕ
  maxDecisions : ℕ
  headTraces : ℕ
  perKindTraces : ℕ
  downstreamGraceMs : ℚ
  orphanGraceMs : ℚ
  maxEventsPerStream : ℕ
  deriving DecidableEq, Repr

def DEFAULT_EXTERNAL_LIMITS : ExternalLimits where
  maxActive := 1024
  maxOrphans := 1024
  recentRing := 4096
  maxTraces := 2000
  maxDecisions := 20000
  headTraces := 200
  perKindTraces := 10
  downstreamGraceMs := 5000
  orphanGraceMs := 10000
  maxEventsPerStream := 32

/-- The shed a workload expects. -/
structure AllowedShed where
  cls : String
  lane : String
  reason : String
  deriving DecidableEq, Repr

structure ReducerOptions where
  limits : ExternalLimits
  allowedShed : List AllowedShed
  deriving DecidableEq, Repr

/-- The names of the counters. A table of counts has one name for each of its keys; a reason or kind
the event leaves out is the key `unknown` of the source. -/
inductive Counter
  | accepted | strippedHeaders | reduced
  | terminal (outcome : String)
  | l1Entered | l1Passed | l1Rejected | l1Shed | l1Error
  | l1RejectedByReason (reason : Option RejectReason)
  | l2Entered | l2Decided
  | l2ByKey (key : String) | l2ShedByReason (key : String) | l2Classes (key : String)
  | egressAttempted | egressResponded | egressFailed
  | egressFailedByKind (kind : Option EgressErrorKind)
  | egressFailedAtProof | proofsIssued
  | boundaryArrived | boundaryAdmitted | boundaryRejected | boundaryAppProofsIssued
  | boundaryRelayed | boundaryForwardResponded | boundaryForwardFailed | boundaryResponded
  | boundaryAborted
  | appAdmitted | appRefused | appExecuted | appMutated | appCompleted | appAborted
  | statusHistogram (status : ℕ)
  | status503Total | status503ExpectedShed | status503Unexplained
  | status503ByCause (cause : String)
  | status5xxOther | clientAborted
  | mutatedByLane (lane : String)
  | tracesRetained | tracesDroppedByCap | decisionsRetained | decisionsDroppedByCap
  | overflowActive | overflowOrphans
  deriving DecidableEq, Repr

/-- The bumps made so far. -/
abbrev ExternalCounters := Multiset Counter

/-- An event, with the stream it belongs to. -/
inductive StreamEvent
  | plane (event : PlaneEvent)
  | boundary (event : BoundaryEvent)
  | app (event : AppEvent)
  deriving DecidableEq, Repr

def StreamEvent.stream : StreamEvent → String
  | .plane _ => "plane"
  | .boundary _ => "boundary"
  | .app _ => "app"

def StreamEvent.kindText : StreamEvent → String
  | .plane event => event.kind.text
  | .boundary event => event.kind.text
  | .app event => event.kind.text

structure ExternalTrace where
  rid : String
  reason : String
  plane : List PlaneEvent
  boundary : List BoundaryEvent
  app : List AppEvent
  deriving DecidableEq, Repr

/-- A request whose lifecycle is still open. -/
structure Active where
  rid : String
  nonce : String
  plane : List PlaneEvent
  boundary : List BoundaryEvent := []
  app : List AppEvent := []
  origin : List OriginEvent := []
  openedAt : ℚ
  terminalAt : Option ℚ := none
  deriving DecidableEq, Repr

/-- The downstream events of a nonce no ingress has claimed yet. -/
structure Orphan where
  nonce : String
  boundary : List BoundaryEvent := []
  app : List AppEvent := []
  firstAt : ℚ
  deriving DecidableEq, Repr

/-- One anomaly reported to the collector. -/
structure Report where
  code : AnomalyCode
  rid : Option String
  detail : String
  deriving DecidableEq, Repr

/-- The state of the reducer, with what it has reported and, as a ghost, what it has reduced. -/
structure ExternalReducer where
  active : List Active := []
  orphans : List Orphan := []
  recent : List String := []
  recentOrder : List String := []
  counterState : ExternalCounters := 0
  traceList : List ExternalTrace := []
  decisionList : List PlaneEvent := []
  firstOfKind : Multiset String := 0
  headCount : ℕ := 0
  nextRid : ℕ := 1
  refusalsAnonymous : ℕ := 0
  finalized : Bool := false
  reports : List Report := []
  closed : List Active := []
  deriving DecidableEq

/-! ## What an event stream shows -/

def ShedReason.text : ShedReason → String
  | .laneBudget => "lane_budget"
  | .evaluatorSaturation => "evaluator_saturation"

/-- A field the event leaves out, in a key built by interpolation. -/
def classText (event : PlaneEvent) : String := (event.cls.map OperationClass.text).getD "undefined"

def shedReasonText (event : PlaneEvent) : String := (event.shedReason.map ShedReason.text).getD "none"

/-- The real outcome and lane of a decision event: a simulated decision's verdict is its shadow. -/
def realDecision (event : PlaneEvent) : String × String :=
  match event.basis, event.shadow with
  | some .simulated, some shadow =>
    if shadow = "" then real
    else
      match (shadow.toList.splitOn ':').map String.ofList with
      | outcome :: lane :: _ => (outcome, lane)
      | [outcome] => (outcome, "none")
      | [] => ("", "none")
  | _, _ => real
where
  real : String × String :=
    ((event.outcome.map L2Outcome.text).getD "none",
      ((event.lane.getD none).map Lane2.text).getD "none")

/-- The cause of one 503 the plane sent, from the server-side record only. -/
def attributeShed (plane : List PlaneEvent) (allowed : List AllowedShed) : Bool × String :=
  if has plane .l1Shed then (false, "l1_shed")
  else if has plane .l1Error then (false, "l1_error")
  else
    let attempted := has plane .egressAttempted
    let other := if attempted then (false, "proxied_503") else (false, "other")
    match first plane .l2Decided with
    | none => other
    | some decided =>
      let (outcome, lane) := realDecision decided
      let reason := shedReasonText decided
      if decided.basis = some .simulated then (false, "l2_simulated")
      else if outcome = "shed" then
        if attempted then (false, "l2_shed_with_egress")
        else if allowed.any fun entry => decide (some entry.cls = decided.cls.map OperationClass.text)
            && entry.lane = lane && entry.reason = reason then
          (true, "l2_shed_" ++ lane ++ "_" ++ reason)
        else (false, "l2_shed_other_" ++ lane ++ "_" ++ reason)
      else if outcome = "error" then (false, "l2_error")
      else other

/-- The legacy origin event an app event stands for. -/
def originOf (event : AppEvent) : Option OriginEvent :=
  match event.kind with
  | .appAdmitted =>
    some { origin := .protectedLane, kind := .originReceived, hop := event.hop
           spoofed := some (event.spoofed.getD 0) }
  | .appCompleted =>
    some { origin := .protectedLane, kind := .originCompleted, hop := event.hop
           status := event.status }
  | .appAborted => some { origin := .protectedLane, kind := .originAborted, hop := event.hop }
  | .appRefused | .appExecuted | .appMutated => none

/-! ## Records -/

/-- The number of events of the stream an event would join. -/
def Active.held (record : Active) : StreamEvent → ℕ
  | .plane _ => record.plane.length
  | .boundary _ => record.boundary.length
  | .app _ => record.app.length

def Active.push (record : Active) : StreamEvent → Active
  | .plane event => { record with plane := record.plane ++ [event] }
  | .boundary event => { record with boundary := record.boundary ++ [event] }
  | .app event =>
    { record with app := record.app ++ [event], origin := record.origin ++ (originOf event).toList }

/-- Appends an event below the cap of its stream, and reports one above it. -/
def Active.append (limits : ExternalLimits) (record : Active) (event : StreamEvent) :
    Active × List Report :=
  if limits.maxEventsPerStream ≤ record.held event then
    (record, [⟨.ledgerCapacityExceeded, some record.rid, event.stream ++ " events per request"⟩])
  else (record.push event, [])

/-- Appends a list of events in order. -/
def Active.appendAll (limits : ExternalLimits) (record : Active) :
    List StreamEvent → Active × List Report
  | [] => (record, [])
  | event :: events =>
    let (record, reports) := record.append limits event
    let (record, rest) := record.appendAll limits events
    (record, reports ++ rest)

/-- Nothing downstream is left to wait for. -/
def Active.downstreamSatisfied (record : Active) : Bool :=
  if ¬ has record.plane .egressAttempted then true
  else if record.plane.any fun event => event.kind = .egressFailed && event.failStage.isSome then true
  else if record.plane.any fun event => event.kind = .egressFailed &&
      event.egressError = some .refused then true
  else if ¬ record.boundary.any fun event => event.kind = .boundaryResponded ||
      event.kind = .boundaryAborted then false
  else if ¬ record.boundary.any fun event => event.kind = .boundaryForwardResponded then true
  else record.app.any fun event => event.kind = .appCompleted || event.kind = .appAborted ||
    event.kind = .appRefused

/-- What the validators see of a record. -/
def Active.view (record : Active) : LifecycleView where
  nonce := record.nonce
  expected := .external
  harness := []
  plane := record.plane
  origin := record.origin
  boundary := some record.boundary
  app := some record.app
  l2 := true

/-- What the three validators find in a record. The lineage is judged as a protected request's. -/
def Active.found (record : Active) : List Anomaly :=
  validateLifecycle record.view true ++
  validateOriginLineage { record.view with expected := .protectedLane } true ++
  validateL2Lifecycle record.view true

/-! ## Orphans -/

/-- The orphan of a first downstream event. -/
def Orphan.ofEvent (nonce : String) (now : ℚ) : StreamEvent → Orphan
  | .plane _ => { nonce, firstAt := now }
  | .boundary event => { nonce, boundary := [event], firstAt := now }
  | .app event => { nonce, app := [event], firstAt := now }

def Orphan.push (orphan : Orphan) : StreamEvent → Orphan
  | .plane _ => orphan
  | .boundary event => { orphan with boundary := orphan.boundary ++ [event] }
  | .app event => { orphan with app := orphan.app ++ [event] }

/-- The events an orphan holds of the stream an event would join. -/
def Orphan.held (orphan : Orphan) : StreamEvent → ℕ
  | .plane _ => 0
  | .boundary _ => orphan.boundary.length
  | .app _ => orphan.app.length

/-- The downstream events of an orphan, the boundary's first. -/
def Orphan.events (orphan : Orphan) : List StreamEvent :=
  orphan.boundary.map .boundary ++ orphan.app.map .app

/-- An orphan that holds a refusal and nothing else. -/
def Orphan.refusalOnly (orphan : Orphan) : Bool :=
  (orphan.boundary ≠ [] && orphan.app = [] &&
    (orphan.boundary.all fun event => event.kind = .boundaryArrived ||
      event.kind = .boundaryRejected || event.kind = .boundaryResponded ||
      event.kind = .boundaryAborted) &&
    orphan.boundary.any fun event => event.kind = .boundaryRejected) ||
  (orphan.boundary = [] && orphan.app ≠ [] &&
    orphan.app.all fun event => event.kind = .appRefused)

/-! ## Counting -/

/-- A counter bumped when a condition holds. -/
def bumpIf (c : Counter) (shown : Bool) : List Counter := if shown then [c] else []

def boundaryCounter : BoundaryEventKind → Option Counter
  | .boundaryArrived => some .boundaryArrived
  | .boundaryAdmitted => some .boundaryAdmitted
  | .boundaryRejected => some .boundaryRejected
  | .appProofIssued => some .boundaryAppProofsIssued
  | .boundaryForwarded => some .boundaryRelayed
  | .boundaryForwardResponded => some .boundaryForwardResponded
  | .boundaryForwardFailed => some .boundaryForwardFailed
  | .boundaryResponded => some .boundaryResponded
  | .boundaryAborted => some .boundaryAborted
  | .boundaryParserRejected | .boundaryProtocolRefused => none

def appCounter : AppEventKind → Counter
  | .appAdmitted => .appAdmitted
  | .appRefused => .appRefused
  | .appExecuted => .appExecuted
  | .appMutated => .appMutated
  | .appCompleted => .appCompleted
  | .appAborted => .appAborted

/-- The terminal outcome a record is counted under. -/
def outcomeText (plane : List PlaneEvent) : String :=
  ((terminalOutcomeL2 plane).map TerminalOutcome.text).getD "unresolved"

def Active.mutated (record : Active) : Bool := record.app.any fun event => event.kind = .appMutated

/-- The bumps of a decision, its retention apart. -/
def decisionTally (decided : PlaneEvent) : List Counter :=
  let (outcome, lane) := realDecision decided
  [.l2Decided, .l2ByKey (classText decided ++ "." ++ lane ++ "." ++ outcome),
    .l2Classes ((decided.cls.map OperationClass.text).getD "none")] ++
  bumpIf (.l2ShedByReason (classText decided ++ "." ++ lane ++ "." ++ shedReasonText decided))
    (outcome = "shed")

def rejectionTally (rejected : PlaneEvent) : List Counter :=
  [.l1Rejected, .l1RejectedByReason rejected.reason]

def failureTally (failed : PlaneEvent) : List Counter :=
  [.egressFailed, .egressFailedByKind failed.egressError] ++
  bumpIf .egressFailedAtProof failed.failStage.isSome

/-- The bumps of the plane's response to the client. -/
def statusTally (allowed : List AllowedShed) (plane : List PlaneEvent) (status : ℕ) :
    List Counter :=
  .statusHistogram status ::
  if status = 503 then
    let (expected, cause) := attributeShed plane allowed
    [.status503Total, if expected then .status503ExpectedShed else .status503Unexplained,
      .status503ByCause cause]
  else bumpIf .status5xxOther (500 ≤ status)

/-- The bumps of what a reduced record shows. -/
def Active.shown (allowed : List AllowedShed) (record : Active) : List Counter :=
  let plane := record.plane
  bumpIf .l1Entered (has plane .l1Entered) ++
  bumpIf .l1Passed (has plane .l1Passed) ++
  bumpIf .l1Shed (has plane .l1Shed) ++
  bumpIf .l1Error (has plane .l1Error) ++
  (first plane .l1Rejected).elim [] rejectionTally ++
  bumpIf .l2Entered (has plane .l2Entered) ++
  (first plane .l2Decided).elim [] decisionTally ++
  bumpIf .egressAttempted (has plane .egressAttempted) ++
  bumpIf .egressResponded (has plane .egressResponded) ++
  (first plane .egressFailed).elim [] failureTally ++
  bumpIf .proofsIssued (has plane .proofIssued) ++
  [.terminal (outcomeText plane)] ++
  bumpIf .clientAborted (outcomeText plane = "client_aborted") ++
  ((first plane .ingressResponded).bind PlaneEvent.status).elim [] (statusTally allowed plane) ++
  record.boundary.filterMap (fun event => boundaryCounter event.kind) ++
  record.app.map (fun event => appCounter event.kind) ++
  bumpIf (.mutatedByLane ((first plane .l2Decided).elim "none" fun decided =>
    (realDecision decided).2)) record.mutated

/-- Every bump a reduced record makes, but for those of retained traces and decisions. -/
def Active.tally (allowed : List AllowedShed) (record : Active) : List Counter :=
  .reduced :: record.shown allowed

/-! ## The reducer -/

section Reducer

variable (options : ReducerOptions)

namespace ExternalReducer

def owns (s : ExternalReducer) (nonce : String) : Option Active :=
  s.active.find? fun record => record.nonce = nonce

def orphanOf (s : ExternalReducer) (nonce : String) : Option Orphan :=
  s.orphans.find? fun orphan => orphan.nonce = nonce

def report (s : ExternalReducer) (reports : List Report) : ExternalReducer :=
  { s with reports := s.reports ++ reports }

def bump (s : ExternalReducer) (bumps : List Counter) : ExternalReducer :=
  { s with counterState := s.counterState + (bumps : ExternalCounters) }

/-- A record the source changes in place. -/
def put (s : ExternalReducer) (record : Active) : ExternalReducer :=
  { s with active := s.active.map fun other => if other.nonce = record.nonce then record else other }

def remember (s : ExternalReducer) (nonce : String) : ExternalReducer :=
  let recent := if nonce ∈ s.recent then s.recent else s.recent ++ [nonce]
  let recentOrder := s.recentOrder ++ [nonce]
  let spill := recentOrder.length - options.limits.recentRing
  { s with recent := recent.filter fun nonce => nonce ∉ recentOrder.take spill
           recentOrder := recentOrder.drop spill }

def keepDecision (s : ExternalReducer) (event : PlaneEvent) : ExternalReducer :=
  if options.limits.maxDecisions ≤ s.decisionList.length then
    (s.bump [.decisionsDroppedByCap]).report
      [⟨.externalStateOverflow, none, "decisions " ++ toString options.limits.maxDecisions⟩]
  else { s.bump [.decisionsRetained] with decisionList := s.decisionList ++ [event] }

/-- The kind of a record, as the sample of traces tells kinds apart. -/
def traceKind (plane : List PlaneEvent) : String :=
  outcomeText plane ++ "." ++ (first plane .l2Decided).elim "no_l2" fun decided =>
    classText decided ++ "." ++ (realDecision decided).2 ++ "." ++ (realDecision decided).1

/-- Why a trace is kept, if it is: an anomaly, a mutation, the first of its kind, a head sample. -/
def traceReason (s : ExternalReducer) (record : Active) (anomalous : Bool) : Option String :=
  if anomalous then some "anomaly"
  else if record.mutated then some "mutation"
  else if s.firstOfKind.count (traceKind record.plane) < options.limits.perKindTraces then
    some "first_of_kind"
  else if s.headCount < options.limits.headTraces then some "head"
  else none

/-- One more record of its kind, up to the number of which every trace is kept. -/
def sampleKind (s : ExternalReducer) (kind : String) : ExternalReducer :=
  if s.firstOfKind.count kind < options.limits.perKindTraces then
    { s with firstOfKind := kind ::ₘ s.firstOfKind } else s

def sampleHead (s : ExternalReducer) (reason : String) : ExternalReducer :=
  if reason = "head" then { s with headCount := s.headCount + 1 } else s

def storeTrace (s : ExternalReducer) (trace : ExternalTrace) : ExternalReducer :=
  if options.limits.maxTraces ≤ s.traceList.length then s.bump [.tracesDroppedByCap]
  else { s.bump [.tracesRetained] with traceList := s.traceList ++ [trace] }

def keepTrace (s : ExternalReducer) (record : Active) (anomalous : Bool) : ExternalReducer :=
  let sampled := sampleKind options s (traceKind record.plane)
  match traceReason options s record anomalous with
  | none => sampled
  | some reason => storeTrace options (sampleHead sampled reason)
      ⟨record.rid, reason, record.plane, record.boundary, record.app⟩

def count (s : ExternalReducer) (record : Active) (anomalous : Bool) : ExternalReducer :=
  let s := s.bump (record.tally options.allowedShed)
  let s := (first record.plane .l2Decided).elim s (keepDecision options s)
  keepTrace options s record anomalous

/-- Validates a record, reduces it to counters and drops it. -/
def reduce (s : ExternalReducer) (record : Active) : ExternalReducer :=
  if (s.owns record.nonce).isSome then
    let s := { s with active := s.active.filter fun other => other.nonce ≠ record.nonce
                      closed := s.closed ++ [record] }
    let found := record.found
    let s := s.report (found.map fun anomaly => ⟨anomaly.code, some record.rid, anomaly.detail⟩)
    let unresolved := record.terminalAt.isNone
    let s := if unresolved then s.report [⟨.externalUnresolved, some record.rid,
      (record.plane.getLast?.map fun event => event.kind.text).getD "none"⟩] else s
    remember options (count options s record (found ≠ [] || unresolved)) record.nonce
  else s

def tryComplete (s : ExternalReducer) (record : Active) (final : Bool) (now : ℚ) :
    ExternalReducer :=
  match record.terminalAt with
  | none => s
  | some terminalAt =>
    if record.downstreamSatisfied ∨ final ∨ options.limits.downstreamGraceMs ≤ now - terminalAt then
      reduce options s record
    else s

/-- The record of a request its ingress opens. -/
def opened (s : ExternalReducer) (event : PlaneEvent) (now : ℚ) : Active :=
  { rid := "x" ++ toString s.nextRid, nonce := event.nonce, plane := [event], openedAt := now }

def openRequest (s : ExternalReducer) (event : PlaneEvent) (now : ℚ) : ExternalReducer :=
  { s with active := s.active ++ [opened s event now], nextRid := s.nextRid + 1 }.bump
    (.accepted :: List.replicate (event.stripped.getD 0) .strippedHeaders)

/-- Opens a request whose orphan leaves the table. -/
def claimed (s : ExternalReducer) (event : PlaneEvent) (now : ℚ) : ExternalReducer :=
  { openRequest s event now with
    orphans := s.orphans.filter fun other => other.nonce ≠ event.nonce }

/-- Opens a request, which adopts what waited for it. -/
def accept (s : ExternalReducer) (event : PlaneEvent) (now : ℚ) : ExternalReducer :=
  match s.orphanOf event.nonce with
  | none => openRequest s event now
  | some orphan =>
    let (record, reports) := (opened s event now).appendAll options.limits orphan.events
    ((claimed s event now).put record).report reports

/-- A plane event: only an external `INGRESS_ACCEPTED` opens a request. The answer says whether the
event was consumed. The clock is read at most twice, when the event comes and when it completes. -/
def ingestPlane (s : ExternalReducer) (event : PlaneEvent) (now later : ℚ) :
    ExternalReducer × Bool :=
  if event.kind = .ingressAccepted ∧ event.ingress = some .external then
    if (s.owns event.nonce).isSome ∨ event.nonce ∈ s.recent then
      (s.report [⟨.externalDuplicateNonce, (s.owns event.nonce).map Active.rid,
        "INGRESS_ACCEPTED"⟩], true)
    else if options.limits.maxActive ≤ s.active.length then
      ((s.bump [.overflowActive]).report [⟨.externalStateOverflow, none,
        "active requests " ++ toString options.limits.maxActive⟩], true)
    else (accept options s event now, true)
  else
    match s.owns event.nonce with
    | none =>
      if event.nonce ∈ s.recent then
        (s.report [⟨.externalLateEvent, none, event.kind.text⟩], true)
      else (s, false)
    | some record =>
      let (record, reports) := record.append options.limits (.plane event)
      let record := if event.kind.isTerminal ∧ record.terminalAt = none then
        { record with terminalAt := some now } else record
      (tryComplete options ((s.put record).report reports) record false later, true)

/-- A boundary or app event: of an open request, late, or held until its ingress claims it. -/
def ingestDownstream (s : ExternalReducer) (nonce : Option String) (event : StreamEvent) (now : ℚ) :
    ExternalReducer × Bool :=
  match nonce with
  | none => (s, false)
  | some nonce =>
    match s.owns nonce with
    | some record =>
      let (record, reports) := record.append options.limits event
      (tryComplete options ((s.put record).report reports) record false now, true)
    | none =>
      if nonce ∈ s.recent then
        (s.report [⟨.externalLateEvent, none, event.kindText⟩], true)
      else
        match s.orphanOf nonce with
        | some _ =>
          -- the held lists have no cap of their own
          ({ s with orphans := s.orphans.map fun orphan =>
              if orphan.nonce = nonce then orphan.push event else orphan }, true)
        | none =>
          if options.limits.maxOrphans ≤ s.orphans.length then
            ((s.bump [.overflowOrphans]).report [⟨.externalStateOverflow, none,
              "orphans " ++ toString options.limits.maxOrphans⟩], true)
          else ({ s with orphans := s.orphans ++ [Orphan.ofEvent nonce now event] }, true)

/-- A refusal nobody claimed is counted; anything else nobody claimed is an anomaly. -/
def reportOrphan (s : ExternalReducer) (orphan : Orphan) : ExternalReducer :=
  if orphan.refusalOnly then { s with refusalsAnonymous := s.refusalsAnonymous + 1 }
  else s.report [⟨.externalUnclaimedDownstream, none,
    String.intercalate "," ((orphan.events.map StreamEvent.kindText).take 4)⟩]

/-- Reduces every request whose downstream grace has elapsed, and gives up the orphans nobody claimed
in time. -/
def sweep (s : ExternalReducer) (now : ℚ) : ExternalReducer :=
  let due := s.active.filter fun record => record.terminalAt.any fun terminalAt =>
    options.limits.downstreamGraceMs ≤ now - terminalAt
  let s := due.foldl (reduce options) s
  let stale := s.orphans.filter fun orphan => ¬ now - orphan.firstAt < options.limits.orphanGraceMs
  stale.foldl reportOrphan { s with orphans := s.orphans.filter fun orphan =>
    now - orphan.firstAt < options.limits.orphanGraceMs }

/-- Reduces every request still open and gives up every orphan. -/
def finalize (s : ExternalReducer) : ExternalReducer :=
  if s.finalized then s
  else
    let s := s.active.foldl (reduce options) { s with finalized := true }
    { s.orphans.foldl reportOrphan s with orphans := [] }

/-! ## Runs -/

/-- A call of the reducer, with the clock readings it makes. -/
inductive Call
  | ingestPlane (event : PlaneEvent) (now later : ℚ)
  | ingestBoundary (event : BoundaryEvent) (now : ℚ)
  | ingestApp (event : AppEvent) (now : ℚ)
  | sweep (now : ℚ)
  | finalize
  deriving DecidableEq, Repr

/-- One call, and whether it consumed its event. -/
def step (s : ExternalReducer) : Call → ExternalReducer × Bool
  | .ingestPlane event now later => ingestPlane options s event now later
  | .ingestBoundary event now => ingestDownstream options s event.nonce (.boundary event) now
  | .ingestApp event now => ingestDownstream options s event.nonce (.app event) now
  | .sweep now => (sweep options s now, true)
  | .finalize => (finalize options s, true)

end ExternalReducer

end Reducer

end Limitmark.External
