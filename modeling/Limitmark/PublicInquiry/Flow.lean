import Limitmark.Authority.AuthorityRun
import Limitmark.Inquiries.InquiryCreation
import Limitmark.PublicInquiry.AdmissionService

/-!
# Handlers of public inquiries

`executeVerifiedPublicInquiry` of `src/lib/public-inquiry-flow.server.ts`, run by any number of
handlers beside each other. A handler goes from one awaited answer to the next, and is a `Phase`
between them; the others, and the authority, take their steps meanwhile.

A request that was sent may come to the service any number of times, and at any time; each time it
leaves a response, and any response to its call may come to a handler, or none. The authority also
takes other calls. What the form parser and the schema make of a form is part of the form.
-/

namespace Limitmark.PublicInquiry

open Limitmark.Foundations Limitmark.Defense Limitmark.Authority Limitmark.Inquiries

structure VerifiedMutationIngress where
  clientPseudonym : String
  nonce : String
  requestBinding : String
  releaseId : String
  issuedAtMs : ℤ
  deriving DecidableEq, Repr

/-- What is read from a form: the request, if it is valid, and the two tokens. -/
structure InquiryForm where
  request : Option TestRequest
  submissionToken : Option String
  turnstileToken : Option String
  deriving DecidableEq, Repr

inductive TurnstileDecision
  | verified
  | rejected
  | unavailable
  deriving DecidableEq, Repr

/-- What comes of a call of the repository. -/
inductive Stored
  | created
  | existing
  | conflict
  | thrown
  deriving DecidableEq, Repr

/-- A redirect, or a state: with the errors of the form, or with one of three messages. -/
inductive PublicInquiryFlowResult
  | redirect
  | fieldErrors
  | unavailable
  | conflict
  | failed
  deriving DecidableEq, Repr

def VerifiedMutationIngress.claim (ingress : VerifiedMutationIngress) : ClaimPreInput where
  releaseId := ingress.releaseId
  clientPseudonym := ingress.clientPseudonym
  requestBinding := ingress.requestBinding
  nonce := ingress.nonce
  issuedAtMs := ingress.issuedAtMs

def VerifiedMutationIngress.consume (ingress : VerifiedMutationIngress) (permit : String) :
    ConsumePostInput where
  releaseId := ingress.releaseId
  clientPseudonym := ingress.clientPseudonym
  requestBinding := ingress.requestBinding
  nonce := ingress.nonce
  permit := permit

/-- The nonce and the time of issue of the envelope. -/
def VerifiedMutationIngress.envelope (ingress : VerifiedMutationIngress) : String × ℤ :=
  (ingress.nonce, ingress.issuedAtMs)

/-! ## The state -/

/-- Where a handler is: it waits for the answer to a call, by its number among those sent, or for
Turnstile, or is about to call the repository. -/
inductive Phase
  | claiming (rpc : ℕ)
  | verifying (permit : String)
  | consuming (rpc : ℕ)
  | creating
  | finished (result : PublicInquiryFlowResult)
  deriving DecidableEq, Repr

structure Execution where
  ingress : VerifiedMutationIngress
  client : AdmissionClient
  input : CreateInquiryInput
  phase : Phase

/-- A request that was sent. -/
structure SentRpc where
  execution : ℕ
  call : RpcCall
  request : RpcRequest

structure FlowState where
  authority : Storage := {}
  executions : Table ℕ Execution := ∅
  sent : List SentRpc := []
  responses : List (ℕ × Response) := []

namespace FlowState

/-- An execution is in a new phase. -/
def enter (id : ℕ) (x : Execution) (phase : Phase) (s : FlowState) : FlowState :=
  { s with executions := s.executions.insert id { x with phase } }

def send (id : ℕ) (call : RpcCall) (request : RpcRequest) (s : FlowState) : FlowState :=
  { s with sent := s.sent ++ [⟨id, call, request⟩] }

def respond (rpc : ℕ) (response : Response) (s : FlowState) : FlowState :=
  { s with responses := s.responses ++ [(rpc, response)] }

end FlowState

/-! ## Steps -/

/-- The call that a handler waits for. -/
def Phase.pending : Phase → Option ℕ
  | .claiming rpc | .consuming rpc => some rpc
  | _ => none

/-- A handler that has not been admitted yet. -/
def Phase.isOpen : Phase → Bool
  | .claiming _ | .verifying _ | .consuming _ => true
  | .creating | .finished _ => false

inductive Event
  | start (id : ℕ) (ingress : VerifiedMutationIngress) (form : InquiryForm) (client : AdmissionClient)
      (draw : RpcDraw) (token : Option String)
  | serve (rpc : ℕ) (service : AdmissionService) (nowMs reading : ℤ) (permit attempt : String)
      (fault : Option Statement) (throws : Bool)
  | traffic (op : Op)
  | answer (id response : ℕ)
  | lose (id : ℕ)
  | turnstile (id : ℕ) (decision : TurnstileDecision) (draw : RpcDraw) (token : Option String)
  | create (id : ℕ) (stored : Stored)

/-- What a step is seen to do. -/
inductive Note
  | silent
  | claiming (id : ℕ) (input : ClaimPreInput)
  | served (id : ℕ) (op : Op) (answer : Answer)
  | other (op : Op) (answer : Answer)
  | claimed (id : ℕ) (permit : String)
  | verified (id : ℕ) (input : ConsumePostInput)
  | consumed (id : ℕ)
  | created (id : ℕ) (envelope : String × ℤ) (input : CreateInquiryInput)
  | lost (id : ℕ)
  | finished (id : ℕ) (result : PublicInquiryFlowResult)

/-- The call as the authority takes it. -/
def RpcCall.op (reading : ℤ) (permit attempt : String) (fault : Option Statement) : RpcCall → Op
  | .claimPre input => .claimPre input reading permit attempt fault
  | .consumePost input => .consumePost input reading attempt fault

/-- The response with the authority's decision. -/
def decisionResponse : Answer → Response
  | .pre decision => ⟨200, (preDecisionJson decision).stringify⟩
  | .post decision => ⟨200, (postDecisionJson decision).stringify⟩
  | _ => unavailableResponse 503

def Stored.result : Stored → PublicInquiryFlowResult
  | .created | .existing => .redirect
  | .conflict => .conflict
  | .thrown => .failed

/-- What the handlers run on: the authority, the HMAC, and the fingerprint of a request. -/
structure Platform where
  deployment : Deployment
  crypto : Crypto
  createPayloadFingerprint : TestRequest → String

namespace Platform

/-- The execution ends. -/
def finish (id : ℕ) (x : Execution) (result : PublicInquiryFlowResult) (s : FlowState) :
    FlowState × Note :=
  (s.enter id x (.finished result), .finished id result)

/-- The call is sent, or it throws and is unavailable. -/
def callRpc (P : Platform) (id : ℕ) (x : Execution) (call : RpcCall) (draw : RpcDraw)
    (token : Option String) (phase : ℕ → Phase) (note : Note) (s : FlowState) : FlowState × Note :=
  match rpcRequest P.crypto x.client draw token call with
  | none => finish id x .unavailable s
  | some request => ((s.send id call request).enter id x (phase s.sent.length), note)

def start (P : Platform) (id : ℕ) (ingress : VerifiedMutationIngress) (form : InquiryForm)
    (client : AdmissionClient) (draw : RpcDraw) (token : Option String) (s : FlowState) :
    FlowState × Note :=
  match form.request, form.submissionToken, form.turnstileToken with
  | none, _, _ => (s, .finished id .fieldErrors)
  | some request, some submissionToken, some _ =>
    let x : Execution :=
      { ingress
        client
        input := ⟨request, submissionToken, P.createPayloadFingerprint request⟩
        phase := .finished .unavailable }
    P.callRpc id x (.claimPre ingress.claim) draw token .claiming (.claiming id ingress.claim) s
  | some _, _, _ => (s, .finished id .unavailable)

/-- A request comes to the service, and is answered. -/
def serve (P : Platform) (rpc : ℕ) (sent : SentRpc) (service : AdmissionService) (nowMs reading : ℤ)
    (permit attempt : String) (fault : Option Statement) (throws : Bool) (s : FlowState) :
    FlowState × Note :=
  match service.handle nowMs sent.request with
  | .error status => (s.respond rpc (unavailableResponse status), .silent)
  | .ok call =>
    let op := call.op reading permit attempt fault
    let (authority, answer) := P.deployment.step s.authority op
    let response := if throws then unavailableResponse 503 else decisionResponse answer
    ({ s with authority }.respond rpc response, .served sent.execution op answer)

/-- The pending call of a handler is answered. -/
def resolve (id : ℕ) (x : Execution) (response : Response) (s : FlowState) : FlowState × Note :=
  match x.phase with
  | .claiming _ =>
    match readPre response with
    | .allowed permit _ => (s.enter id x (.verifying permit), .claimed id permit)
    | _ => finish id x .unavailable s
  | .consuming _ =>
    match readPost response with
    | .allowed => (s.enter id x .creating, .consumed id)
    | _ => finish id x .unavailable s
  | _ => (s, .silent)

def step (P : Platform) (s : FlowState) : Event → FlowState × Note
  | .start id ingress form client draw token =>
    if (s.executions.lookup id).isSome then (s, .silent)
    else P.start id ingress form client draw token s
  | .serve rpc service nowMs reading permit attempt fault throws =>
    match s.sent[rpc]? with
    | none => (s, .silent)
    | some sent => P.serve rpc sent service nowMs reading permit attempt fault throws s
  | .traffic op =>
    let (authority, answer) := P.deployment.step s.authority op
    ({ s with authority }, .other op answer)
  | .answer id response =>
    match s.executions.lookup id, s.responses[response]? with
    | some x, some (rpc, response) =>
      if x.phase.pending = some rpc then resolve id x response s else (s, .silent)
    | _, _ => (s, .silent)
  | .lose id =>
    match s.executions.lookup id with
    | some x =>
      if x.phase.pending.isSome then (s.enter id x (.finished .unavailable), .lost id)
      else (s, .silent)
    | none => (s, .silent)
  | .turnstile id decision draw token =>
    match s.executions.lookup id with
    | some x =>
      match x.phase, decision with
      | .verifying permit, .verified =>
        P.callRpc id x (.consumePost (x.ingress.consume permit)) draw token .consuming
          (.verified id (x.ingress.consume permit)) s
      | .verifying _, _ => finish id x .unavailable s
      | _, _ => (s, .silent)
    | none => (s, .silent)
  | .create id stored =>
    match s.executions.lookup id with
    | some x =>
      if x.phase = .creating then
        (s.enter id x (.finished stored.result), .created id x.ingress.envelope x.input)
      else (s, .silent)
    | none => (s, .silent)

end Platform

/-! ## What a step does -/

/-- What a step did. -/
inductive FlowEffect (P : Platform) (s : FlowState) : Event → Note → FlowState → Prop
  | kept {event note} (quiet : note = .silent ∨ ∃ id result, note = .finished id result) :
      FlowEffect P s event note s
  | ended {event note id x result}
      (unfinished : ∀ y, s.executions.lookup id = some y → y = x ∧ x.phase.isOpen = true)
      (quiet : note = .finished id result ∨ note = .lost id) :
      FlowEffect P s event note (s.enter id x (.finished result))
  | started {event id x request} (unknown : s.executions.lookup id = none)
      (built : ∃ draw token, rpcRequest P.crypto x.client draw token (.claimPre x.ingress.claim) =
        some request) :
      FlowEffect P s event (.claiming id x.ingress.claim)
        ((s.send id (.claimPre x.ingress.claim) request).enter id x (.claiming s.sent.length))
  | refused {event} {rpc : ℕ} {sent status} (found : s.sent[rpc]? = some sent) :
      FlowEffect P s event .silent (s.respond rpc (unavailableResponse status))
  | served {rpc : ℕ} {sent service nowMs reading permit attempt fault throws call response}
      (found : s.sent[rpc]? = some sent) (handled : service.handle nowMs sent.request = .ok call)
      (answered : response = unavailableResponse 503 ∨ response = decisionResponse
        (P.deployment.step s.authority (call.op reading permit attempt fault)).2) :
      FlowEffect P s (.serve rpc service nowMs reading permit attempt fault throws)
        (.served sent.execution (call.op reading permit attempt fault)
          (P.deployment.step s.authority (call.op reading permit attempt fault)).2)
        ({ s with authority :=
            (P.deployment.step s.authority (call.op reading permit attempt fault)).1 }.respond rpc
          response)
  | other {op} :
      FlowEffect P s (.traffic op) (.other op (P.deployment.step s.authority op).2)
        { s with authority := (P.deployment.step s.authority op).1 }
  | claimed {event id x rpc} {k : ℕ} {response permit expiresAtMs}
      (found : s.executions.lookup id = some x) (phase : x.phase = .claiming rpc) (received : s.responses[k]? = some (rpc, response))
      (allowed : readPre response = .allowed permit expiresAtMs) :
      FlowEffect P s event (.claimed id permit) (s.enter id x (.verifying permit))
  | verified {event id x permit request} (found : s.executions.lookup id = some x)
      (phase : x.phase = .verifying permit)
      (built : ∃ draw token, rpcRequest P.crypto x.client draw token
        (.consumePost (x.ingress.consume permit)) = some request) :
      FlowEffect P s event (.verified id (x.ingress.consume permit))
        ((s.send id (.consumePost (x.ingress.consume permit)) request).enter id x
          (.consuming s.sent.length))
  | consumed {event id x rpc} {k : ℕ} {response} (found : s.executions.lookup id = some x)
      (phase : x.phase = .consuming rpc) (received : s.responses[k]? = some (rpc, response))
      (allowed : readPost response = .allowed) :
      FlowEffect P s event (.consumed id) (s.enter id x .creating)
  | created {event id x result} (found : s.executions.lookup id = some x)
      (phase : x.phase = .creating) :
      FlowEffect P s event (.created id x.ingress.envelope x.input)
        (s.enter id x (.finished result))

theorem isOpen_of_pending {phase : Phase} {rpc : ℕ} (h : phase.pending = some rpc) :
    phase.isOpen = true := by
  cases phase with
  | claiming rpc | verifying permit | consuming rpc => rfl
  | creating | finished result => cases h

variable {P : Platform} {s : FlowState}

theorem unfinished_of_lookup {id : ℕ} {x : Execution} (h : s.executions.lookup id = some x)
    (hopen : x.phase.isOpen = true) :
    ∀ y, s.executions.lookup id = some y → y = x ∧ x.phase.isOpen = true :=
  fun _ hy => ⟨Option.some.inj (hy.symm.trans h), hopen⟩

theorem callRpc_effect {event : Event} {id : ℕ} {x : Execution} {draw : RpcDraw}
    {token : Option String} (h : s.executions.lookup id = none) :
    FlowEffect P s event
      (P.callRpc id x (.claimPre x.ingress.claim) draw token .claiming
        (.claiming id x.ingress.claim) s).2
      (P.callRpc id x (.claimPre x.ingress.claim) draw token .claiming
        (.claiming id x.ingress.claim) s).1 := by
  unfold Platform.callRpc
  split
  · exact .ended (fun y hy => by rw [h] at hy; cases hy) (.inl rfl)
  · next request hrequest => exact .started h ⟨draw, token, hrequest⟩

theorem start_effect {event : Event} {id : ℕ} {ingress : VerifiedMutationIngress} {form : InquiryForm}
    {client : AdmissionClient} {draw : RpcDraw} {token : Option String}
    (h : s.executions.lookup id = none) :
    FlowEffect P s event (P.start id ingress form client draw token s).2
      (P.start id ingress form client draw token s).1 := by
  unfold Platform.start
  split
  · exact .kept (.inr ⟨id, _, rfl⟩)
  · exact callRpc_effect h
  · exact .kept (.inr ⟨id, _, rfl⟩)

theorem resolve_effect {event : Event} {id rpc k : ℕ} {x : Execution} {response : Response}
    (hx : s.executions.lookup id = some x) (hk : s.responses[k]? = some (rpc, response))
    (hpending : x.phase.pending = some rpc) :
    FlowEffect P s event (Platform.resolve id x response s).2
      (Platform.resolve id x response s).1 := by
  have hended {result : PublicInquiryFlowResult} :
      FlowEffect P s event (Platform.finish id x result s).2 (Platform.finish id x result s).1 :=
    .ended (unfinished_of_lookup hx (isOpen_of_pending hpending)) (.inl rfl)
  unfold Platform.resolve
  split
  · next rpc' hphase =>
    rw [hphase] at hpending
    cases hpending
    split
    · next permit expiresAtMs hallowed => exact .claimed hx hphase hk hallowed
    · exact hended
  · next rpc' hphase =>
    rw [hphase] at hpending
    cases hpending
    split
    · next hallowed => exact .consumed hx hphase hk hallowed
    · exact hended
  · exact .kept (.inl rfl)

/-- **What a step can do.** -/
theorem step_effect (P : Platform) (s : FlowState) (event : Event) :
    FlowEffect P s event (P.step s event).2 (P.step s event).1 := by
  cases event with
  | start id ingress form client draw token =>
    simp only [Platform.step]
    split
    · exact .kept (.inl rfl)
    · next h => exact start_effect (Option.not_isSome_iff_eq_none.1 h)
  | serve rpc service nowMs reading permit attempt fault throws =>
    simp only [Platform.step]
    split
    · exact .kept (.inl rfl)
    · next sent hsent =>
      unfold Platform.serve
      split
      · exact .refused hsent
      · next call hcall =>
        refine .served hsent hcall ?_
        cases throws
        · exact .inr rfl
        · exact .inl rfl
  | traffic op => exact .other
  | answer id response =>
    simp only [Platform.step]
    split
    · next x rpc r hx hk =>
      split
      · next hpending => exact resolve_effect hx hk hpending
      · exact .kept (.inl rfl)
    · exact .kept (.inl rfl)
  | lose id =>
    simp only [Platform.step]
    split
    · next x hx =>
      split
      · next hpending =>
        obtain ⟨rpc, hrpc⟩ := Option.isSome_iff_exists.1 hpending
        exact .ended (unfinished_of_lookup hx (isOpen_of_pending hrpc)) (.inr rfl)
      · exact .kept (.inl rfl)
    · exact .kept (.inl rfl)
  | turnstile id decision draw token =>
    simp only [Platform.step]
    split
    · next x hx =>
      split
      · next permit hphase =>
        have hopen : x.phase.isOpen = true := by rw [hphase]; rfl
        unfold Platform.callRpc
        split
        · exact .ended (unfinished_of_lookup hx hopen) (.inl rfl)
        · next request hrequest => exact .verified hx hphase ⟨draw, token, hrequest⟩
      · next permit hphase _ =>
        have hopen : x.phase.isOpen = true := by rw [hphase]; rfl
        exact .ended (unfinished_of_lookup hx hopen) (.inl rfl)
      · exact .kept (.inl rfl)
    · exact .kept (.inl rfl)
  | create id stored =>
    simp only [Platform.step]
    split
    · next x hx =>
      split
      · next hphase => exact .created hx hphase
      · exact .kept (.inl rfl)
    · exact .kept (.inl rfl)

end Limitmark.PublicInquiry
