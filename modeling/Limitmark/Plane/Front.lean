import Limitmark.Ledger.L2Lifecycle
import Limitmark.Plane.Ingress
import Limitmark.Plane.L2Stage

/-!
# The front

One request through `handle` of `defense/plane/front.ts`: ingress, the bounded body read, L1, L2,
the egress to the one upstream, and the answer. The handler is suspended at each of its awaits
(`Phase`) and goes on when what it awaits is answered (`Input`). The client may close its connection
at any point, the response may be flushed or not, and other requests take sequence numbers from the
event channel in between.

What L1 decides, how a request is canonicalized and signed, and what the upstream answers come from
outside; an L2 decision is one of the stage, over any lanes.
-/

namespace Limitmark.Plane

open Limitmark.Defense Limitmark.Lanes Limitmark.Foundations Limitmark.Ledger

/-- Rebuilds an approved request and issues its proof: the tag of the proof, or the stage that
failed. -/
abbrev HopIssuer := (request : LayerRequest) → (hop : ℤ) → (corr : String) → Except FailStage String

/-- The parts of the composition a request's stream depends on: the issuer of hop proofs and the
composer of L2, where there are any. -/
structure FrontOptions where
  hop : Option HopIssuer
  l2 : Option ComposerOptions

/-! ## The enrollment observation -/

/-- What an observation makes of a response of the form route. -/
inductive ObservationVerdict
  | ok (token : List UInt8)
  | statusNot200 | contentType | bodyTooLarge | tokenCountZero | tokenCountMultiple
  deriving DecidableEq, Repr

def ObservationVerdict.skipReason : ObservationVerdict → EnrollSkipReason
  | .ok _ => .deliveryIncomplete
  | .statusNot200 => .statusNot200
  | .contentType => .contentType
  | .bodyTooLarge => .bodyTooLarge
  | .tokenCountZero => .tokenCountZero
  | .tokenCountMultiple => .tokenCountMultiple

structure Observation where
  early : Option EnrollSkipReason
  verdict : Option ObservationVerdict := none
  done : Bool := false
  deriving DecidableEq, Repr

namespace Observation

/-- Degraded and simulated renders never enroll. -/
def create (decision : LaneDecision) : Observation where
  early :=
    if decision.outcome = .degraded then some .degraded
    else if decision.basis = some .simulated then some .simulated
    else none

def onUpstream (verdict : ObservationVerdict) (o : Observation) : Observation :=
  if o.done ∨ o.early.isSome ∨ o.verdict.isSome then o else { o with verdict := some verdict }

/-- The token to enroll when the response is delivered, if every earlier condition holds. -/
def deliverable (o : Observation) : Option (List UInt8) :=
  if o.done ∨ o.early.isSome then none
  else
    match o.verdict with
    | some (.ok token) => some token
    | _ => none

/-- The reason an observation that did not enroll is closed with. -/
def finalReason (o : Observation) : EnrollSkipReason :=
  match o.early with
  | some reason => reason
  | none => (o.verdict.map ObservationVerdict.skipReason).getD .upstreamFailed

end Observation

/-! ## The handler -/

/-- Where the handler is suspended. -/
inductive Phase
  | readingBody
  | l1
  | l2
  | forwarding
  | closing
  | done
  deriving DecidableEq, Repr

/-- The response, as far as the handler reads it. -/
structure Response where
  destroyed : Bool := false
  ended : Bool := false
  statusCode : ℕ := 200
  finishListener : Bool := false
  deriving DecidableEq, Repr

structure FrontState where
  incoming : IncomingRequest
  nonce : String
  phase : Phase
  body : BodyStatus × Option (List UInt8) := (.none, none)
  res : Response := {}
  observation : Option Observation := none
  events : List PlaneEvent := []
  nextSeq : ℤ

/-- What the body read comes to. -/
inductive BodyResult
  | complete (body : List UInt8)
  | overflow
  | timeout
  | aborted
  deriving DecidableEq, Repr

def BodyResult.toBody : BodyResult → BodyStatus × Option (List UInt8)
  | .complete body => (.complete, some body)
  | .overflow => (.overflow, none)
  | .timeout => (.timeout, none)
  | .aborted => (.aborted, none)

/-- What the upstream comes to: a response, with what an observation makes of it, or a failure. -/
inductive Upstream
  | responded (status : ℕ) (verdict : ObservationVerdict)
  | failed (kind : EgressErrorKind)
  deriving DecidableEq, Repr

/-- What can happen next: an answer to what the handler awaits, the response finishing, the
connection closing, or another request taking sequence numbers. The decision of L2 is made by lanes
in any state, if the call finds a place in the bulkhead. -/
inductive Input
  | body (result : BodyResult)
  | l1 (outcome : LayerOutcome)
  | l2 (lanes : JourneyLanes) (t : Readings) (entered : Bool) (elapsed : ℚ)
  | upstream (result : Upstream)
  | finish (lanes : JourneyLanes) (t : Readings) (later : ℚ)
  | close (flushed : Bool)
  | others (n : ℕ)

namespace FrontState

/-- The event channel numbers an event, whatever it carries. -/
def emit (event : PlaneEvent) (s : FrontState) : FrontState :=
  { s with
    events := s.events ++ [{ event with seq := s.nextSeq, nonce := s.nonce }]
    nextSeq := s.nextSeq + 1 }

/-- The request the layers see. -/
def layerRequest (s : FrontState) : LayerRequest where
  method := s.incoming.method
  target := s.incoming.url
  headers := (ingressOf s.incoming).layerHeaders
  bodyStatus := s.body.1
  body := s.body.2

/-- An event that carries nothing but its kind, until fields are set. -/
def event (kind : PlaneEventKind) : PlaneEvent := { seq := 0, nonce := "", kind }

def acceptedEvent (req : IncomingRequest) : PlaneEvent :=
  { event .ingressAccepted with
    stripped := some (ingressOf req).stripped
    ingress := if req.remote then some .external else none
    uncorrelated := !req.remote && (correlatedNonce req).isNone }

def enterL1 (body : BodyStatus × Option (List UInt8)) (s : FrontState) : FrontState :=
  { s.emit (event .l1Entered) with body, phase := .l1 }

/-- The first segment of the handler, up to its first await. -/
def accept (req : IncomingRequest) (minted : String) (seq : ℤ) : FrontState :=
  let s : FrontState := { incoming := req, nonce := (correlatedNonce req).getD minted,
                          phase := .readingBody, nextSeq := seq }
  let s := s.emit (acceptedEvent req)
  match bodyPlan req with
  | .read _ => s
  | .settled status body => s.enterL1 (status, body)

def verdictEvent : LayerOutcome → PlaneEvent
  | .pass => event .l1Passed
  | .reject reason =>
    { event .l1Rejected with reason := some reason, stage := some (REJECT_STAGE reason) }
  | .shed => event .l1Shed
  | .error kind => { event .l1Error with errorKind := some kind }

def decisionEvent (decision : LaneDecision) : PlaneEvent :=
  { event .l2Decided with
    cls := some decision.cls
    lane := some decision.lane
    outcome := some decision.outcome
    shedReason := decision.shedReason
    l2ErrorKind := decision.errorKind
    spent := decision.spent
    touched := decision.touched
    creditTag := decision.creditTag
    dt := decision.dt
    lvl := if decision.dt.isSome then decision.lvl else none
    lseq := if decision.dt.isSome then decision.lseq else none
    basis := decision.basis
    shadow := if decision.basis.isSome then decision.shadow else none }

/-- The status an L1 outcome other than a pass is refused with. -/
def refusalStatus : LayerOutcome → ℕ
  | .reject reason => REJECT_STATUS reason
  | _ => 503

/-- The answer of a response that is still there. -/
def respond (status : ℕ) (s : FrontState) : FrontState :=
  if s.res.destroyed then s else { s with res := { s.res with ended := true, statusCode := status } }

/-- One enrollment disposition, if none was made before. -/
def finalize (s : FrontState) : FrontState :=
  match s.observation with
  | none => s
  | some o =>
    if o.done then s
    else
      { s.emit { event .l2EnrollSkipped with skipReason := some o.finalReason } with
        observation := some { o with done := true } }

/-- The end of the handler: the disposition, then the terminal event. -/
def terminate (flushed : Bool) (s : FrontState) : FrontState :=
  let s := s.finalize
  let s :=
    if s.res.ended ∧ flushed then
      s.emit { event .ingressResponded with status := some s.res.statusCode }
    else s.emit (event .ingressAborted)
  { s with phase := .done }

/-- After the answer: wait for the connection to close, unless it has. -/
def tail (s : FrontState) : FrontState :=
  if s.res.destroyed then s.terminate false
  else { s with res := { s.res with ended := true }, phase := .closing }

def egressStatus (kind : EgressErrorKind) : ℕ := if kind = .timeout then 504 else 502

/-- The upstream answers, or fails. -/
def upstream (result : Upstream) (s : FrontState) : FrontState :=
  match result with
  | .failed kind =>
    ((s.emit { event .egressFailed with egressError := some kind }).respond
      (egressStatus kind)).tail
  | .responded status verdict =>
    let s := s.emit { event .egressResponded with status := some status }
    let s := { s with observation := s.observation.map (Observation.onUpstream verdict) }
    let s := if s.res.destroyed then s
      else { s with res := { s.res with finishListener := s.observation.isSome } }
    (s.respond status).tail

/-- Only the form route is observed. -/
def observe (s : FrontState) (decision : LaneDecision) : Option Observation :=
  if isFormRoute s.incoming.method s.incoming.url then some (.create decision) else none

/-- An approved request goes to the upstream, rebuilt and signed where proofs are issued. -/
def egress (options : FrontOptions) (decision : Option LaneDecision) (s : FrontState) :
    FrontState :=
  let hop := s.nextSeq
  let s := s.emit (event .egressAttempted)
  let s := { s with observation := decision.bind s.observe }
  match options.hop with
  | none => { s with phase := .forwarding }
  | some issue =>
    match issue s.layerRequest hop s.nonce with
    | .ok pbTag =>
      { s.emit { event .proofIssued with pbTag := some pbTag } with phase := .forwarding }
    | .error stage =>
      ((s.emit { event .egressFailed with
        egressError := some .error
        failStage := if options.l2.isSome then some stage else none }).respond 502).tail

/-- L1 has its outcome. -/
def afterL1 (options : FrontOptions) (outcome : LayerOutcome) (s : FrontState) : FrontState :=
  let s := s.emit (verdictEvent outcome)
  match outcome with
  | .pass =>
    if options.l2.isSome then { s.emit (event .l2Entered) with phase := .l2 }
    else s.egress options none
  | outcome => (s.respond (refusalStatus outcome)).tail

/-- L2 has its decision. -/
def afterL2 (options : FrontOptions) (decision : LaneDecision) (s : FrontState) : FrontState :=
  let s := s.emit (decisionEvent decision)
  if proceeds decision then s.egress options (some decision) else (s.respond 503).tail

/-- The response was delivered, and its observation was listening. -/
def delivered (C : Crypto) (lanes : JourneyLanes) (t : Readings) (later : ℚ) (s : FrontState) :
    FrontState :=
  match s.observation with
  | some o =>
    match o.deliverable with
    | some token =>
      let r := lanes.enroll C t token
      let s := { s with observation := some { o with done := true } }
      match r.2 with
      | .ok creditTag =>
        s.emit { event .l2Enrolled with
          creditTag := some creditTag, fill := some (r.1.filter.stats later).2.popcount }
      | .alreadyEnrolled =>
        s.emit { event .l2EnrollSkipped with skipReason := some .alreadyEnrolled }
    | none => s
  | none => s

/-- The call of a request at the L2 stage. -/
def call (C : Crypto) (lanes : JourneyLanes) (t : Readings) (entered : Bool) (s : FrontState) :
    Call where
  request := s.layerRequest
  made := if entered then some (lanes.decide C t s.layerRequest).2 else none

/-- One input. An answer that nothing awaits is not heard. -/
def step (C : Crypto) (options : FrontOptions) (s : FrontState) (input : Input) :
    FrontState × Unit :=
  (match input, s.phase with
    | .body result, .readingBody => s.enterL1 result.toBody
    | .l1 outcome, .l1 => s.afterL1 options outcome
    | .l2 lanes t entered elapsed, .l2 =>
      match options.l2 with
      | some composer =>
        s.afterL2 options ((s.call C lanes t entered).decision composer.timeoutMs elapsed)
      | none => s
    | .upstream result, .forwarding => s.upstream result
    | .finish lanes t later, .closing =>
      if s.res.finishListener then
        ({ s with res := { s.res with finishListener := false } } : FrontState).delivered C lanes t
          later
      else s
    | .close flushed, .closing =>
      ({ s with res := { s.res with destroyed := true } } : FrontState).terminate flushed
    | .close _, .done => s
    | .close _, _ => { s with res := { s.res with destroyed := true } }
    | .others n, _ => { s with nextSeq := s.nextSeq + n }
    | _, _ => s, ())

/-! ### The answers that are heard -/

section

variable (C : Crypto) {options : FrontOptions} {s : FrontState}

theorem step_body (h : s.phase = .readingBody) (result : BodyResult) :
    (step C options s (.body result)).1 = s.enterL1 result.toBody := by
  cases s
  cases h
  rfl

theorem step_l1 (h : s.phase = .l1) (outcome : LayerOutcome) :
    (step C options s (.l1 outcome)).1 = s.afterL1 options outcome := by
  cases s
  cases h
  rfl

theorem step_l2 (h : s.phase = .l2) {composer : ComposerOptions} (hl2 : options.l2 = some composer)
    (lanes : JourneyLanes) (t : Readings) (entered : Bool) (elapsed : ℚ) :
    (step C options s (.l2 lanes t entered elapsed)).1 =
      s.afterL2 options ((s.call C lanes t entered).decision composer.timeoutMs elapsed) := by
  cases s
  cases h
  change (match options.l2 with
    | some composer => _
    | none => _) = _
  rw [hl2]

theorem step_upstream (h : s.phase = .forwarding) (result : Upstream) :
    (step C options s (.upstream result)).1 = s.upstream result := by
  cases s
  cases h
  rfl

theorem step_finish (h : s.phase = .closing) (lanes : JourneyLanes) (t : Readings) (later : ℚ) :
    (step C options s (.finish lanes t later)).1 =
      if s.res.finishListener then
        ({ s with res := { s.res with finishListener := false } } : FrontState).delivered C lanes t
          later
      else s := by
  cases s
  cases h
  rfl

theorem step_close (flushed : Bool) :
    (step C options s (.close flushed)).1 =
      if s.phase = .done then s
      else if s.phase = .closing then
        ({ s with res := { s.res with destroyed := true } } : FrontState).terminate flushed
      else { s with res := { s.res with destroyed := true } } := by
  obtain ⟨incoming, nonce, phase⟩ := s
  cases phase <;> rfl

theorem step_others (n : ℕ) :
    (step C options s (.others n)).1 = { s with nextSeq := s.nextSeq + n } := by
  obtain ⟨incoming, nonce, phase⟩ := s
  cases phase <;> rfl

end

end FrontState

end Limitmark.Plane
