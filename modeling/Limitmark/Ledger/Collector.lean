import Limitmark.Ledger.EventChannel
import Limitmark.Ledger.L2Lifecycle
import Limitmark.Ledger.Lineage

/-!
# The collector

`lab/defense/collector.ts`: the ledger of a run, which lives outside the processes it observes. It
files the events of three streams under the requests the harness registered, checks the numbers of
each stream for gaps and repetitions, and at the end judges every request and every stream. Whether
the lane of remote peers claims an event is an input; its journal is not modelled.

The three streams are one definition, `Feed.ingestEvent`, at their own codes and texts.
-/

namespace Limitmark.Ledger

open Limitmark.Foundations

/-! ## The state -/

structure CollectorLimits where
  maxRequests : ℕ := 20000
  maxEventsPerRecord : ℕ := 32
  maxAnomalies : ℕ := 200
  deriving DecidableEq, Repr

/-- What the ledger keeps of one request. -/
structure LedgerRecord where
  rid : String
  nonce : String
  lane : ExpectedLane
  harness : List HarnessEvent
  plane : List PlaneEvent := []
  origin : List OriginEvent := []
  boundary : List BoundaryEvent := []
  app : List AppEvent := []
  deriving DecidableEq, Repr

/-- An anomaly of the ledger names a request by its record id, never by its nonce. -/
structure LedgerAnomaly where
  code : AnomalyCode
  rid : Option String
  detail : String
  deriving DecidableEq, Repr

/-- What a process reports of its channel when it finishes. -/
structure Fin where
  drained : Bool
  channel : ChannelStats
  deriving DecidableEq, Repr

/-- The integrity of one process's stream. -/
structure StreamState where
  lastSeq : ℕ := 0
  received : ℕ := 0
  droppedReported : ℕ := 0
  crashed : Option String := none
  fin : Option Fin := none
  /-- The events of no request, counted by kind or code. -/
  anonymous : List (String × ℕ) := []
  deriving DecidableEq, Repr

inductive Stream
  | plane
  | boundary
  | app
  deriving DecidableEq, Repr

structure Collector where
  records : List LedgerRecord := []
  anomalyList : List LedgerAnomaly := []
  anomalyCount : ℕ := 0
  frozen : Bool := false
  lateEvents : ℕ := 0
  streams : Stream → StreamState := fun _ => {}
  nextRid : ℕ := 1
  capacityExceeded : Bool := false
  originStreams : Bool := false
  laneStreams : Bool := false
  external : Bool := false

/-- Counts one more under a key. -/
def bump (key : String) : List (String × ℕ) → List (String × ℕ)
  | [] => [(key, 1)]
  | (k, n) :: counts => if k = key then (k, n + 1) :: counts else (k, n) :: bump key counts

/-- The count under a key. -/
def countOf (key : String) : List (String × ℕ) → ℕ
  | [] => 0
  | (k, n) :: counts => if k = key then n else countOf key counts

theorem countOf_bump (key key' : String) (counts : List (String × ℕ)) :
    countOf key (bump key' counts) = countOf key counts + if key' = key then 1 else 0 := by
  induction counts with
  | nil => simp [bump, countOf]
  | cons count counts ih =>
    obtain ⟨k, n⟩ := count
    by_cases hk : k = key'
    · subst hk
      by_cases hkey : k = key <;> simp [bump, countOf, hkey]
    · by_cases hkey : k = key
      · have hne : key' ≠ key := fun h => hk (hkey.trans h.symm)
        subst hkey
        simp [bump, countOf, hk, hne]
      · simp [bump, countOf, hk, hkey, ih]

namespace Collector

def recordFor (nonce : String) (collector : Collector) : Option LedgerRecord :=
  collector.records.find? fun record => record.nonce = nonce

variable (limits : CollectorLimits)

/-- Counts an anomaly, and keeps it while there is room. -/
def keepAnomaly (anomaly : LedgerAnomaly) (collector : Collector) : Collector :=
  { collector with
    anomalyCount := collector.anomalyCount + 1
    anomalyList := if collector.anomalyList.length < limits.maxAnomalies then
      collector.anomalyList ++ [anomaly] else collector.anomalyList }

def anomaly (code : AnomalyCode) (nonce : Option String) (detail : String)
    (collector : Collector) : Collector :=
  let rid := nonce.map fun nonce =>
    ((collector.recordFor nonce).map LedgerRecord.rid).getD "unknown"
  collector.keepAnomaly limits ⟨code, rid, detail⟩

/-- An event after the ledger froze. -/
def late (nonce : Option String) (detail : String) (collector : Collector) : Collector :=
  { collector with lateEvents := collector.lateEvents + 1 }.anomaly limits
    .lateEventAfterFinalization nonce detail

def setStream (stream : Stream) (f : StreamState → StreamState) (collector : Collector) :
    Collector :=
  { collector with streams :=
      Function.update collector.streams stream (f (collector.streams stream)) }

/-- Changes the record of a request. -/
def update (nonce : String) (f : LedgerRecord → LedgerRecord) (collector : Collector) : Collector :=
  { collector with records := collector.records.map fun record =>
      if record.nonce = nonce then f record else record }

/-! ## Harness events -/

/-- Registers a request before it is dispatched. -/
def sent (nonce : String) (lane : ExpectedLane) (collector : Collector) : Collector :=
  if collector.frozen then collector.late limits none "SENT"
  else if (collector.recordFor nonce).isSome then
    collector.anomaly limits .duplicateNonceSent (some nonce) "SENT"
  else if limits.maxRequests ≤ collector.records.length then
    if collector.capacityExceeded then collector
    else { collector with capacityExceeded := true }.anomaly limits .ledgerCapacityExceeded none
      ("maxRequests " ++ toString limits.maxRequests)
  else
    { collector with
      nextRid := collector.nextRid + 1
      records := collector.records ++
        [{ rid := "r" ++ toString collector.nextRid, nonce, lane
           harness := [{ kind := .sent }] }] }

def clientCompleted (nonce : String) (result : ClientResultKind) (status : Option ℕ)
    (outcomeHeader : Option String) (collector : Collector) : Collector :=
  if collector.frozen then collector.late limits (some nonce) "CLIENT_COMPLETED"
  else
    match collector.recordFor nonce with
    | none => collector.anomaly limits .unknownNonce none "CLIENT_COMPLETED"
    | some record =>
      if limits.maxEventsPerRecord ≤ record.harness.length then collector
      else collector.update nonce fun record => { record with
        harness := record.harness ++
          [{ kind := .clientCompleted, result := some result, status, outcomeHeader }] }

end Collector

/-! ## The streams -/

/-- What one stream has of its own: its codes and texts, how its events are told apart, and where
a record keeps them. -/
structure Feed (ε σ : Type) where
  stream : Stream
  loss : AnomalyCode
  label : String
  nonce : ε → Option String
  kind : ε → String
  /-- The key an event without a request is counted under. -/
  counter : ε → Option String
  /-- The key an event is counted under when its request is not in the ledger. -/
  refusal : ε → Option String
  /-- The anomaly of any other event whose request is not in the ledger. -/
  unknown : ε → AnomalyCode
  /-- The event as it is kept, with its number. -/
  stamp : ℕ × ε → σ
  stored : LedgerRecord → List σ
  push : σ → LedgerRecord → LedgerRecord

namespace Feed

variable {ε σ : Type} (feed : Feed ε σ) (limits : CollectorLimits) (claims : ε → Bool)

/-- The number of an event against the last one of its stream. -/
def checkSeq (event : ℕ × ε) (collector : Collector) : Collector :=
  let seq := event.1
  let lastSeq := (collector.streams feed.stream).lastSeq
  let nonce := feed.nonce event.2
  let collector := collector.setStream feed.stream fun state =>
    { state with received := state.received + 1 }
  let collector :=
    if seq ≤ lastSeq then
      collector.anomaly limits .duplicateSequence nonce (feed.label ++ "seq " ++ toString seq)
    else if lastSeq + 1 < seq then
      collector.anomaly limits feed.loss nonce
        ("gap of " ++ toString (seq - lastSeq - 1) ++ " before seq " ++ toString seq)
    else collector
  collector.setStream feed.stream fun state => { state with lastSeq := max state.lastSeq seq }

/-- Files an event under its request, or counts it. -/
def file (event : ℕ × ε) (collector : Collector) : Collector :=
  match feed.counter event.2 with
  | some key => collector.setStream feed.stream fun state =>
      { state with anonymous := bump key state.anonymous }
  | none =>
    match (feed.nonce event.2).bind fun nonce => collector.recordFor nonce with
    | none =>
      if collector.external ∧ claims event.2 then collector
      else
        match feed.refusal event.2 with
        | some key => collector.setStream feed.stream fun state =>
            { state with anonymous := bump key state.anonymous }
        | none => collector.anomaly limits (feed.unknown event.2) none (feed.kind event.2)
    | some record =>
      if limits.maxEventsPerRecord ≤ (feed.stored record).length then
        collector.anomaly limits .ledgerCapacityExceeded (feed.nonce event.2) "events per record"
      else collector.update record.nonce (feed.push (feed.stamp event))

def ingestEvent (collector : Collector) (event : ℕ × ε) : Collector :=
  let collector := feed.checkSeq limits event collector
  if collector.frozen then collector.late limits (feed.nonce event.2) (feed.kind event.2)
  else feed.file limits claims event collector

/-- Ingests one frame. The count of events received so far is what is acknowledged. -/
def ingestFrame (frame : EventFrame ε) (collector : Collector) : Collector × ℕ :=
  let collector := collector.setStream feed.stream fun state =>
    { state with droppedReported := max state.droppedReported frame.dropped }
  let collector := frame.events.foldl (feed.ingestEvent limits claims) collector
  (collector, (collector.streams feed.stream).received)

end Feed

/-- What the plane emits: an event of a request, or the rejection of bytes that are none. -/
inductive PlaneInput
  | parserRejected (code : Option String)
  | ofRequest (event : PlaneEvent)
  deriving DecidableEq, Repr

def PlaneInput.event? (input : PlaneInput) : Option PlaneEvent :=
  match input with
  | .parserRejected _ => none
  | .ofRequest event => some event

def planeFeed : Feed PlaneInput (Option PlaneEvent) where
  stream := .plane
  loss := .eventChannelLoss
  label := ""
  nonce input := input.event?.map PlaneEvent.nonce
  kind input := (input.event?.map fun event => event.kind.text).getD "PARSER_REJECTED"
  counter input :=
    match input with
    | .parserRejected code => some (code.getD "unknown")
    | .ofRequest _ => none
  refusal _ := none
  unknown input :=
    if input.event?.any PlaneEvent.uncorrelated then .uncorrelatedIngress else .unknownNonce
  stamp input := input.2.event?.map fun event => { event with seq := input.1 }
  stored record := record.plane.map some
  push event record := { record with plane := record.plane ++ event.toList }

def boundaryFeed : Feed BoundaryEvent BoundaryEvent where
  stream := .boundary
  loss := .boundaryChannelLoss
  label := "boundary "
  nonce := BoundaryEvent.nonce
  kind event := event.kind.text
  counter event := if event.nonce = none then some event.kind.text else none
  refusal _ := none
  unknown _ := .unknownNonce
  stamp event := { event.2 with seq := event.1 }
  stored := LedgerRecord.boundary
  push event record := { record with boundary := record.boundary ++ [event] }

/-- The event of an origin the rules of a request read off an event of the app. -/
def derivedOrigin (event : AppEvent) : Option OriginEvent :=
  match event.kind with
  | .appAdmitted => some { origin := .protectedLane, kind := .originReceived, hop := event.hop
                           spoofed := some (event.spoofed.getD 0) }
  | .appCompleted => some { origin := .protectedLane, kind := .originCompleted, hop := event.hop
                            status := event.status }
  | .appAborted => some { origin := .protectedLane, kind := .originAborted, hop := event.hop }
  | .appRefused | .appExecuted | .appMutated => none

def appFeed : Feed AppEvent AppEvent where
  stream := .app
  loss := .appChannelLoss
  label := "app "
  nonce := AppEvent.nonce
  kind event := event.kind.text
  counter _ := none
  refusal event := if event.kind = .appRefused then some event.kind.text else none
  unknown _ := .unknownNonce
  stamp event := { event.2 with seq := event.1 }
  stored := LedgerRecord.app
  push event record := { record with
    app := record.app ++ [event], origin := record.origin ++ (derivedOrigin event).toList }

namespace Collector

variable (limits : CollectorLimits)

/-- An observation of an origin, made in the harness process. -/
def ingestOrigin (nonce : Option String) (event : OriginEvent) (kind : String)
    (collector : Collector) : Collector :=
  if collector.frozen then collector.late limits nonce kind
  else
    match nonce.bind fun nonce => collector.recordFor nonce with
    | none => collector.anomaly limits .unknownNonce none kind
    | some record =>
      if limits.maxEventsPerRecord ≤ record.origin.length then
        collector.anomaly limits .ledgerCapacityExceeded nonce "events per record"
      else collector.update record.nonce fun record =>
        { record with origin := record.origin ++ [event] }

/-! ## Processes -/

/-- The exit of a process that has not finished is a crash. -/
def exited (stream : Stream) (detail : String) : Collector → Collector :=
  setStream stream fun state =>
    if state.crashed = none ∧ state.fin = none then { state with crashed := some detail } else state

def finished (stream : Stream) (fin : Fin) : Collector → Collector :=
  setStream stream fun state => { state with fin := some fin }

def freeze (collector : Collector) : Collector := { collector with frozen := true }

/-! ## Finalization -/

/-- What the validators see of a record. -/
def viewOf (collector : Collector) (record : LedgerRecord) : LifecycleView where
  nonce := record.nonce
  expected := record.lane
  harness := record.harness
  plane := record.plane
  origin := record.origin
  boundary := if collector.originStreams then some record.boundary else none
  app := if collector.originStreams then some record.app else none
  l2 := collector.laneStreams

def recordAnomalies (collector : Collector) (record : LedgerRecord) : List LedgerAnomaly :=
  let view := collector.viewOf record
  (validateLifecycle view true ++ validateOriginLineage view true ++
    validateL2Lifecycle view true).map fun anomaly =>
      ⟨anomaly.code, some record.rid, anomaly.detail⟩

/-- One check of a stream: an anomaly when its fault holds. -/
def fault (holds : Bool) (code : AnomalyCode) (detail : String) : List LedgerAnomaly :=
  if holds then [⟨code, none, detail⟩] else []

/-- The books of a process against what the collector received of its stream. -/
def checkFin (name : String) (loss : AnomalyCode) (state : StreamState) (fin : Fin) :
    List LedgerAnomaly :=
  fault (!fin.drained) loss (name ++ " could not drain its queue") ++
  fault (0 < fin.channel.dropped || 0 < state.droppedReported) loss
    (name ++ " dropped " ++ toString (max fin.channel.dropped state.droppedReported) ++
      " events") ++
  fault (fin.channel.lastSeq ≠ state.lastSeq) loss
    (name ++ " last seq " ++ toString fin.channel.lastSeq ++ ", collector last seq " ++
      toString state.lastSeq) ++
  fault (fin.channel.emitted ≠ state.received + fin.channel.dropped) loss
    (name ++ " emitted " ++ toString fin.channel.emitted ++ ", collector received " ++
      toString state.received)

def checkStream (name : String) (crashed notFinal loss : AnomalyCode) (state : StreamState) :
    List LedgerAnomaly :=
  match state.crashed, state.fin with
  | some detail, _ => [⟨crashed, none, detail⟩]
  | none, none => [⟨notFinal, none, "no FIN from the " ++ name⟩]
  | none, some fin => checkFin name loss state fin

/-- What the end of the run finds, beyond what it counted. -/
def found (collector : Collector) : List LedgerAnomaly :=
  collector.records.flatMap collector.recordAnomalies ++
  (if collector.originStreams then
    checkStream "boundary" .boundaryCrashed .boundaryNotFinalized .boundaryChannelLoss
      (collector.streams .boundary) ++
    checkStream "app" .appCrashed .appNotFinalized .appChannelLoss (collector.streams .app)
  else []) ++
  checkStream "plane" .planeCrashed .planeNotFinalized .eventChannelLoss
    (collector.streams .plane) ++
  fault (0 < collector.lateEvents) .lateEventAfterFinalization
    (toString collector.lateEvents ++ " events after the ledger froze")

/-- The verdict of the ledger: the first anomalies, and how many there are. -/
def finalize (collector : Collector) : List LedgerAnomaly × ℕ :=
  ((collector.anomalyList ++ collector.found).take limits.maxAnomalies,
    collector.anomalyCount + collector.found.length)

end Collector

/-! ## Runs -/

inductive CollectorInput
  | sent (nonce : String) (lane : ExpectedLane)
  | clientCompleted (nonce : String) (result : ClientResultKind) (status : Option ℕ)
    (outcomeHeader : Option String)
  | planeFrame (claims : PlaneInput → Bool) (frame : EventFrame PlaneInput)
  | boundaryFrame (claims : BoundaryEvent → Bool) (frame : EventFrame BoundaryEvent)
  | appFrame (claims : AppEvent → Bool) (frame : EventFrame AppEvent)
  | origin (nonce : Option String) (event : OriginEvent) (kind : String)
  | externalAnomaly (anomaly : LedgerAnomaly)
  | exited (stream : Stream) (detail : String)
  | finished (stream : Stream) (fin : Fin)
  | freeze

/-- One input. A frame is acknowledged with the number of events received. -/
def Collector.step (limits : CollectorLimits) (collector : Collector) :
    CollectorInput → Collector × Option ℕ
  | .sent nonce lane => (collector.sent limits nonce lane, none)
  | .clientCompleted nonce result status outcomeHeader =>
    (collector.clientCompleted limits nonce result status outcomeHeader, none)
  | .planeFrame claims frame =>
    let result := planeFeed.ingestFrame limits claims frame collector
    (result.1, some result.2)
  | .boundaryFrame claims frame =>
    let result := boundaryFeed.ingestFrame limits claims frame collector
    (result.1, some result.2)
  | .appFrame claims frame =>
    let result := appFeed.ingestFrame limits claims frame collector
    (result.1, some result.2)
  | .origin nonce event kind => (collector.ingestOrigin limits nonce event kind, none)
  | .externalAnomaly anomaly => (collector.keepAnomaly limits anomaly, none)
  | .exited stream detail => (collector.exited stream detail, none)
  | .finished stream fin => (collector.finished stream fin, none)
  | .freeze => (collector.freeze, none)

end Limitmark.Ledger
