import Limitmark.Hop.Admission
import Limitmark.Ledger.Lineage

/-!
# The Origin Boundary

`createBoundary` of `defense/boundary/boundary.ts`, as a machine of one verifier and any number of
requests. A request waits for its admission, is answered a refusal or forwarded to the app, waits
for its connection to close and reports one terminal event.

A listener hears the closing of a connection only if it is registered before: a refused request
registers its own when it is refused, an admitted one when it is admitted, and none listens while
the admission is pending.
-/

namespace Limitmark.Origin

open Limitmark.Defense Limitmark.Plane Limitmark.Hop Limitmark.Ledger Limitmark.Foundations

/-! ## Requests -/

/-- The answer to a request, and its connection. -/
structure Response where
  /-- The status the answer was ended with. -/
  ended : Option ℕ := none
  /-- The answer has been written out. -/
  finished : Bool := false
  closed : Bool := false
  deriving DecidableEq, Repr

/-- Where a request is: what `handle` awaits, or that a refusal listens for the close. -/
inductive Phase
  | admitting (call : ℕ)
  | refused
  | forwarding
  | waiting
  | resolved
  deriving DecidableEq, Repr

/-- A request at the Boundary, with the events it has emitted. `heard` says that a listener was
registered when the connection closed. -/
structure Request where
  phase : Phase
  nonce : Option String := none
  res : Response := {}
  heard : Bool := false
  stream : List BoundaryEvent := []
  deriving DecidableEq, Repr

structure Counters where
  arrived : ℕ := 0
  admitted : ℕ := 0
  rejected : ℕ := 0
  appProofsIssued : ℕ := 0
  relayed : ℕ := 0
  forwardResponded : ℕ := 0
  forwardFailed : ℕ := 0
  responded : ℕ := 0
  aborted : ℕ := 0
  parserRejected : ℕ := 0
  protocolRefused : ℕ := 0
  deriving DecidableEq, Repr

/-- The Boundary: its verifier, its requests, its counters, and the number of the last event. -/
structure Boundary where
  verifier : Verifier
  requests : List Request := []
  counters : Counters := {}
  lastSeq : ℕ := 0

/-! ## Emitting -/

/-- The events, each with the next number. -/
def withSeq (seq : ℕ) : List BoundaryEvent → List BoundaryEvent
  | [] => []
  | event :: events => { event with seq := (seq + 1 : ℕ) } :: withSeq (seq + 1) events

/-- A request moves on, and emits. -/
def Boundary.put (v : Boundary) (i : ℕ) (request : Request) (counters : Counters)
    (events : List BoundaryEvent) : Boundary :=
  { v with
    requests := v.requests.set i
      { request with stream := request.stream ++ withSeq v.lastSeq events }
    counters
    lastSeq := v.lastSeq + events.length }

/-! ## The answers -/

def Response.sendStatus (status : ℕ) (res : Response) : Response :=
  if res.ended.isSome || res.closed then res else { res with ended := some status }

/-- The terminal event: whether the answer was written out before the connection closed. -/
def terminal (nonce : Option String) (res : Response) : BoundaryEvent :=
  if res.finished then
    { seq := 0, nonce, kind := .boundaryResponded, status := some (res.ended.getD 200) }
  else { seq := 0, nonce, kind := .boundaryAborted }

def Counters.terminal (res : Response) (counters : Counters) : Counters :=
  if res.finished then { counters with responded := counters.responded + 1 }
  else { counters with aborted := counters.aborted + 1 }

/-! ## The steps of a request -/

def readMeasurementTag (found : Option String) : List (String × String) → Option String
  | [] => found
  | (name, value) :: rawHeaders =>
    if name.toLower ≠ MEASUREMENT_HEADER then readMeasurementTag found rawHeaders
    else if found.isSome || !isNonce value then none
    else readMeasurementTag (some value) rawHeaders

namespace Boundary

/-- A request arrives, and its admission is pending. -/
def arrive (v : Boundary) : Boundary :=
  { v with requests := v.requests ++ [{ phase := .admitting v.verifier.calls.length }] }

/-- One uniform answer for every refusal; its listener reports the terminal event. -/
def refuse (i : ℕ) (request : Request) (refused : Refused) (v : Boundary) : Boundary :=
  let nonce := refused.nonce
  let status := if refused.reason = .replayCacheFull then 503 else 403
  v.put i { request with phase := .refused, nonce, res := request.res.sendStatus status }
    { v.counters with arrived := v.counters.arrived + 1, rejected := v.counters.rejected + 1 }
    [{ seq := 0, nonce, kind := .boundaryArrived },
      { seq := 0, nonce, kind := .boundaryRejected, reason := some refused.reason }]

/-- An admitted request: its own proof is issued, and the request forwarded; or the issuer throws,
and the answer is 503. -/
def handle (i : ℕ) (request : Request) (outcome : Admitted) (issued : Option String) (v : Boundary) :
    Boundary :=
  let nonce := some outcome.nonce
  let hop := some (outcome.hop : ℤ)
  let pbTag := some outcome.pbTag
  let arrived : List BoundaryEvent := [{ seq := 0, nonce, kind := .boundaryArrived },
    { seq := 0, nonce, kind := .boundaryAdmitted, hop, pbTag }]
  let counters := { v.counters with
    arrived := v.counters.arrived + 1, admitted := v.counters.admitted + 1 }
  match issued with
  | none =>
    v.put i { request with phase := .waiting, nonce, res := request.res.sendStatus 503 } counters
      arrived
  | some tag =>
    let baTag := some tag
    v.put i { request with phase := .forwarding, nonce }
      { counters with
        appProofsIssued := counters.appProofsIssued + 1, relayed := counters.relayed + 1 }
      (arrived ++ [{ seq := 0, nonce, kind := .appProofIssued, hop, pbTag, baTag },
        { seq := 0, nonce, kind := .boundaryForwarded, hop, pbTag, baTag }])

/-- The forward has failed: refused, reset, timed out, or its response grew too large. -/
def fail (i : ℕ) (request : Request) (kind : EgressErrorKind) (v : Boundary) : Boundary :=
  v.put i
    { request with
      phase := .waiting
      res := request.res.sendStatus (if kind = .timeout then 504 else 502) }
    { v.counters with forwardFailed := v.counters.forwardFailed + 1 }
    [{ seq := 0, nonce := request.nonce, kind := .boundaryForwardFailed, forwardError := some kind }]

/-- The response of the app has ended. -/
def relay (i : ℕ) (request : Request) (status : ℕ) (v : Boundary) : Boundary :=
  v.put i
    { request with
      phase := .waiting
      res := if request.res.closed then request.res else
        { request.res with ended := some status } }
    { v.counters with forwardResponded := v.counters.forwardResponded + 1 }
    [{ seq := 0, nonce := request.nonce, kind := .boundaryForwardResponded, status := some status }]

/-- The terminal event of a request. -/
def finish (i : ℕ) (request : Request) (v : Boundary) : Boundary :=
  v.put i { request with phase := .resolved } (v.counters.terminal request.res)
    [terminal request.nonce request.res]

/-- The connection of a request closes. A refused request reports at once; an admitted one only
takes note; nobody listens while the admission is pending. -/
def close (i : ℕ) (request : Request) (v : Boundary) : Boundary :=
  let request := { request with res := { request.res with closed := true } }
  match request.phase with
  | .admitting _ => v.put i request v.counters []
  | .refused => v.finish i { request with heard := true }
  | .forwarding | .waiting => v.put i { request with heard := true } v.counters []
  | .resolved => v.put i request v.counters []

/-! ## The machine -/

inductive Op
  /-- A request arrives, and its admission reads the wall clock. -/
  | arrive (request : AdmissionRequest) (nowMs : ℚ)
  /-- A request that expects a 100-continue arrives. -/
  | expect (rawHeaders : List (String × String))
  /-- The parser refuses bytes before there is a request. -/
  | parserReject
  /-- An upgrade or a tunnel is refused. -/
  | protocolRefuse
  /-- The admissions go on. -/
  | admission (op : Verifier.Op)
  /-- A request takes up the outcome of its admission; its proof is issued with a tag, or not. -/
  | resume (i : ℕ) (issued : Option String)
  | forwardResponded (i : ℕ) (status : ℕ)
  | forwardFailed (i : ℕ) (kind : EgressErrorKind)
  /-- The answer has been written out. -/
  | flush (i : ℕ)
  | close (i : ℕ)
  /-- A request whose connection has closed goes on. -/
  | finish (i : ℕ)

/-- What an admission came to. -/
def outcome? (verifier : Verifier) (call : ℕ) : Option (Except Refused Admitted) :=
  match verifier.calls[call]? with
  | some (.refused _ refusal) => some (.error refusal)
  | some (.admitted _ admitted) => some (.ok admitted)
  | _ => none

def step (P : Platform) (config : AdmissionConfig) (fenceMs : ℚ) (v : Boundary) (op : Op) :
    Boundary × Unit :=
  (match op with
    | .arrive request nowMs =>
      { v.arrive with
        verifier := (Verifier.step P config fenceMs v.verifier (.begin request nowMs)).1 }
    | .expect rawHeaders =>
      -- refused at once, before any admission has begun
      v.arrive.refuse v.requests.length { phase := .admitting v.verifier.calls.length }
        ⟨.expectRefused, readMeasurementTag none rawHeaders⟩
    | .parserReject =>
      { v with
        counters := { v.counters with parserRejected := v.counters.parserRejected + 1 }
        lastSeq := v.lastSeq + 1 }
    | .protocolRefuse =>
      { v with
        counters := { v.counters with protocolRefused := v.counters.protocolRefused + 1 }
        lastSeq := v.lastSeq + 1 }
    | .admission (.begin _ _) => v
    | .admission op => { v with verifier := (Verifier.step P config fenceMs v.verifier op).1 }
    | .resume i issued =>
      match v.requests[i]? with
      | some request =>
        match request.phase with
        | .admitting call =>
          match outcome? v.verifier call with
          | some (.error refusal) => v.refuse i request refusal
          | some (.ok outcome) => v.handle i request outcome issued
          | none => v
        | _ => v
      | none => v
    | .forwardResponded i status =>
      match v.requests[i]? with
      | some request => if request.phase = .forwarding then v.relay i request status else v
      | none => v
    | .forwardFailed i kind =>
      match v.requests[i]? with
      | some request => if request.phase = .forwarding then v.fail i request kind else v
      | none => v
    | .flush i =>
      match v.requests[i]? with
      | some request =>
        if request.res.ended.isSome ∧ request.res.closed = false then
          v.put i { request with res := { request.res with finished := true } } v.counters []
        else v
      | none => v
    | .close i =>
      match v.requests[i]? with
      | some request => if request.res.closed = false then v.close i request else v
      | none => v
    | .finish i =>
      match v.requests[i]? with
      | some request =>
        if request.phase = .waiting ∧ request.heard = true then v.finish i request else v
      | none => v, ())

end Boundary

end Limitmark.Origin
