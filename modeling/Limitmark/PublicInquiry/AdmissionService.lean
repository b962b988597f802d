import Limitmark.Authority.Decisions
import Limitmark.Ingress.AdmissionRpc

/-!
# The admission RPC, from the client to the authority

The `call` of `src/lib/admission-client.server.ts` and `createAdmissionService` of
`workers/admission-service/service.ts`. The service has no state of its own: `handle` is the call to
the authority that a request comes to, or the status it is refused with.

A request that a client has built comes to no call but the client's (`handle_rpcRequest`), and an
answer is read as an allowed decision only if the authority has allowed it
(`allowed_of_readPre`, `allowed_of_readPost`).

The verification of the OIDC token is a parameter, and so is the HMAC.
-/

namespace Limitmark.PublicInquiry

open Limitmark.Foundations Limitmark.Defense Limitmark.Ingress Limitmark.Authority

/-! ## Calls and their payloads -/

inductive RpcCall
  | claimPre (input : ClaimPreInput)
  | consumePost (input : ConsumePostInput)
  deriving DecidableEq, Repr

def RpcCall.path : RpcCall → AdmissionPath
  | .claimPre _ => .pre
  | .consumePost _ => .post

/-- What a client draws for a call: the random id and the time of the RPC. -/
structure RpcDraw where
  operationId : String
  issuedAtMs : ℤ
  deriving DecidableEq, Repr

/-- The payload of an RPC, in the order of its fields. -/
structure AdmissionRpcPayload where
  releaseId : String
  operationId : String
  issuedAtMs : ℤ
  clientPseudonym : String
  requestBinding : String
  nonce : String
  permit : String
  ingressIssuedAtMs : ℤ
  deriving DecidableEq, Repr

namespace AdmissionRpcPayload

def toJson (p : AdmissionRpcPayload) : Json :=
  .arr [.text ADMISSION_RPC_VERSION, .text p.releaseId, .text p.operationId, .int p.issuedAtMs,
    .text p.clientPseudonym, .text p.requestBinding, .text p.nonce, .text p.permit,
    .int p.ingressIssuedAtMs]

/-- The fields of a payload that was found valid. -/
def ofJson? : Json → Option AdmissionRpcPayload
  | .arr [_, releaseId, operationId, issuedAtMs, clientPseudonym, requestBinding, nonce, permit,
      ingressIssuedAtMs] => do
    let releaseId ← releaseId.text?
    let operationId ← operationId.text?
    let issuedAtMs ← issuedAtMs.int?
    let clientPseudonym ← clientPseudonym.text?
    let requestBinding ← requestBinding.text?
    let nonce ← nonce.text?
    let permit ← permit.text?
    let ingressIssuedAtMs ← ingressIssuedAtMs.int?
    return { releaseId, operationId, issuedAtMs, clientPseudonym, requestBinding, nonce, permit,
             ingressIssuedAtMs }
  | _ => none

@[simp] theorem ofJson?_toJson (p : AdmissionRpcPayload) : ofJson? p.toJson = some p := by
  simp [ofJson?, toJson]

end AdmissionRpcPayload

/-- The payload of a call: a claim presents no permit, and a consume no time of issue. -/
def RpcCall.payload (draw : RpcDraw) : RpcCall → AdmissionRpcPayload
  | .claimPre input =>
    { releaseId := input.releaseId
      operationId := draw.operationId
      issuedAtMs := draw.issuedAtMs
      clientPseudonym := input.clientPseudonym
      requestBinding := input.requestBinding
      nonce := input.nonce
      permit := "-"
      ingressIssuedAtMs := input.issuedAtMs }
  | .consumePost input =>
    { releaseId := input.releaseId
      operationId := draw.operationId
      issuedAtMs := draw.issuedAtMs
      clientPseudonym := input.clientPseudonym
      requestBinding := input.requestBinding
      nonce := input.nonce
      permit := input.permit
      ingressIssuedAtMs := 0 }

/-! ## The client's request -/

def ADMISSION_RPC_CONTENT_TYPE : String := "application/json"

/-- The parts of an HTTP request that the service reads. A path that is neither of the two is none. -/
structure RpcRequest where
  secure : Bool := true
  search : String := ""
  method : String := "POST"
  path : Option AdmissionPath
  contentType : Option String := some ADMISSION_RPC_CONTENT_TYPE
  contentEncoding : Option String := none
  contentLength : Option String := none
  authorization : Option String
  keyId : Option String
  mac : Option String
  body : Option (List UInt8)
  deriving DecidableEq, Repr

structure AdmissionClient where
  keyId : String
  key : List UInt8
  deriving DecidableEq, Repr

/-- The request of a call. A payload that is not valid, or a token that is not there, throws. -/
def rpcRequest (crypto : Crypto) (client : AdmissionClient) (draw : RpcDraw) (token : Option String)
    (call : RpcCall) : Option RpcRequest :=
  match encodeAdmissionRpcPayload (call.payload draw).toJson, token with
  | .ok body, some token =>
    some
      { path := some call.path
        authorization := some ("Bearer " ++ token)
        keyId := some client.keyId
        mac := some (signAdmissionRpc crypto call.path body client.key)
        body := some body }
  | _, _ => none

/-! ## The service -/

def ADMISSION_RELEASE_OVERLAP_MAX_MS : ℤ := 5 * 60000

inductive ReleaseRole
  | current
  | previous
  deriving DecidableEq, Repr

structure AdmissionServiceRelease where
  role : ReleaseRole
  releaseId : String
  keyId : String
  rpcKey : List UInt8
  activatedAtMs : ℤ
  retireAtMs : Option ℤ := none
  deriving DecidableEq, Repr

/-- A release that was replaced by the current one is retired soon after. -/
def isOverlap (current release : AdmissionServiceRelease) : Bool :=
  release.activatedAtMs < current.activatedAtMs && release.retireAtMs.any fun retireAtMs =>
    isSafeInteger retireAtMs && current.activatedAtMs < retireAtMs &&
      retireAtMs - current.activatedAtMs ≤ ADMISSION_RELEASE_OVERLAP_MAX_MS

def configuredReleasesAreValid (releases : List AdmissionServiceRelease) : Bool :=
  1 ≤ releases.length && releases.length ≤ 2 &&
    (releases.map AdmissionServiceRelease.releaseId).Nodup &&
    (releases.map AdmissionServiceRelease.keyId).Nodup &&
    match releases.filter fun release => release.role = .current with
    | [current] =>
      current.retireAtMs = none && isSafeInteger current.activatedAtMs && 0 ≤ current.activatedAtMs &&
        releases.all fun release =>
          validRelease release.releaseId && validKeyId release.keyId &&
            isSafeInteger release.activatedAtMs && 0 ≤ release.activatedAtMs &&
            (release.role = .current || isOverlap current release)
    | _ => false

structure AdmissionService where
  releases : List AdmissionServiceRelease
  authenticate : (token : String) → (nowMs : ℤ) → Bool
  crypto : Crypto

/-- The body of a request, of a bounded size, and of the length it says it has. -/
def readBounded (request : RpcRequest) : Option (List UInt8) :=
  request.body.filter fun body => body.length ≤ ADMISSION_MAX_BODY_BYTES &&
    request.contentLength.all fun claimed => claimed = Nat.repr body.length

/-- The one token of an authorization header. -/
def bearerToken (authorization : String) : Option String :=
  let bearer := "Bearer ".toList
  if bearer.isPrefixOf authorization.toList ∧
      ¬ (authorization.toList.drop 1).tails.any fun rest => bearer.isPrefixOf rest then
    some (String.ofList (authorization.toList.drop 7))
  else none

/-- A release that a request may be of. -/
def AdmissionServiceRelease.isOpen (nowMs : ℤ) (release : AdmissionServiceRelease) : Bool :=
  release.activatedAtMs ≤ nowMs && release.retireAtMs.all fun retireAtMs => nowMs < retireAtMs

namespace AdmissionService

/-- The call of a payload. -/
def callOf (path : AdmissionPath) (p : AdmissionRpcPayload) : Except ℕ RpcCall :=
  match path with
  | .pre => do
    ensure (p.permit = "-") 400
    ensure (p.ingressIssuedAtMs ≠ 0) 400
    return .claimPre
      { releaseId := p.releaseId
        clientPseudonym := p.clientPseudonym
        requestBinding := p.requestBinding
        nonce := p.nonce
        issuedAtMs := p.ingressIssuedAtMs }
  | .post => do
    ensure (p.permit ≠ "-" ∧ p.ingressIssuedAtMs = 0) 400
    return .consumePost
      { releaseId := p.releaseId
        clientPseudonym := p.clientPseudonym
        requestBinding := p.requestBinding
        nonce := p.nonce
        permit := p.permit }

/-- The status of a refusal, or the call to the authority. What throws is a 503. -/
def handle (service : AdmissionService) (nowMs : ℤ) (request : RpcRequest) : Except ℕ RpcCall := do
  ensure (configuredReleasesAreValid service.releases) 503
  match request.path with
  | none => .error 404
  | some path =>
    ensure (request.secure ∧ request.search = "" ∧ request.method = "POST" ∧
      request.contentType = some ADMISSION_RPC_CONTENT_TYPE ∧ request.contentEncoding = none) 404
    match bearerToken (request.authorization.getD "") with
    | none => .error 401
    | some token =>
      ensure (service.authenticate token nowMs) 401
      match readBounded request with
      | none => .error 503
      | some body =>
        match service.releases.find? fun release => release.keyId = request.keyId.getD "" with
        | none => .error 401
        | some release =>
          ensure (release.isOpen nowMs) 401
          ensure (verifyAdmissionRpcMac service.crypto path body (request.mac.getD "")
            release.rpcKey) 401
          match decodeAdmissionRpcPayload body with
          | .error _ => .error 503
          | .ok payload =>
            match AdmissionRpcPayload.ofJson? payload with
            | none => .error 503
            | some p =>
              ensure (p.releaseId = release.releaseId ∧
                (nowMs - p.issuedAtMs).natAbs ≤ ADMISSION_RPC_MAX_SKEW_MS) 401
              callOf path p

end AdmissionService

/-! ## The answer -/

structure Response where
  status : ℕ
  text : String
  deriving DecidableEq, Repr

def member (name : String) (value : Json) : JsString × Json := (.ofString name, value)

def decisionJson (decision : String) : Json := .obj [member "decision" (.text decision)]

def preDecisionJson : PreDecision → Json
  | .allowed permit expiresAtMs =>
    .obj [member "decision" (.text "allowed"), member "permit" (.text permit),
      member "expiresAtMs" (.int expiresAtMs)]
  | .limited => decisionJson "limited"
  | .replay => decisionJson "replay"
  | .unavailable => decisionJson "unavailable"

def postDecisionJson : PostDecision → Json
  | .allowed => decisionJson "allowed"
  | .limited => decisionJson "limited"
  | .replay => decisionJson "replay"
  | .unavailable => decisionJson "unavailable"

/-- The response to a refusal, or to a call that threw. -/
def unavailableResponse (status : ℕ) : Response := ⟨status, (decisionJson "unavailable").stringify⟩

/-- The members of an object that the client reads: of a name that is repeated, the last one. -/
def lastMember (members : List (JsString × Json)) (name : String) : Option Json :=
  (members.reverse.find? fun m => m.1 = .ofString name).map Prod.snd

/-- `Object.keys(value).sort().join(",")`, against the names that are expected. -/
def hasExactly (members : List (JsString × Json)) (names : List String) : Bool :=
  (members.map Prod.fst).dedup.isPerm (names.map JsString.ofString)

/-- The members of a response that is successful and short. -/
def readMembers (response : Response) : Option (List (JsString × Json)) :=
  if 200 ≤ response.status ∧ response.status < 300 ∧
      (JsString.ofString response.text).length ≤ 1024 then
    match Json.parse response.text with
    | some (.obj members) => some members
    | _ => none
  else none

/-- The decision that is not an allowed one. -/
def readDenial (members : List (JsString × Json)) : Option String :=
  if hasExactly members ["decision"] then ((lastMember members "decision").bind Json.text?).filter
    fun text => ["limited", "replay", "unavailable"].contains text
  else none

/-- The permit and the expiry of an allowed claim. -/
def readAllowed (members : List (JsString × Json)) : Option (String × ℤ) := do
  let permit ← (lastMember members "permit").bind Json.text?
  let expiresAtMs ← (lastMember members "expiresAtMs").bind Json.int?
  if (lastMember members "decision").bind Json.text? = some "allowed" ∧ isSafeInteger expiresAtMs ∧
      hasExactly members ["decision", "expiresAtMs", "permit"] ∧
      (decodeCanonicalBase64url permit (some 32)).isSome then some (permit, expiresAtMs) else none

def readPre (response : Response) : PreDecision :=
  match readMembers response with
  | none => .unavailable
  | some members =>
    match readAllowed members, readDenial members with
    | some (permit, expiresAtMs), _ => .allowed permit expiresAtMs
    | none, some "limited" => .limited
    | none, some "replay" => .replay
    | none, _ => .unavailable

def readPost (response : Response) : PostDecision :=
  match readMembers response with
  | none => .unavailable
  | some members =>
    match readDenial members with
    | some "limited" => .limited
    | some "replay" => .replay
    | some _ => .unavailable
    | none =>
      if (lastMember members "decision").bind Json.text? = some "allowed" ∧
          hasExactly members ["decision"] then .allowed
      else .unavailable

/-! ## What a request comes to -/

/-- The payload that a request was built from is the one that is decoded. -/
theorem decode_of_rpcRequest {crypto : Crypto} {client : AdmissionClient} {draw : RpcDraw}
    {token : Option String} {call : RpcCall} {request : RpcRequest}
    (h : rpcRequest crypto client draw token call = some request) :
    ∃ body : List UInt8, request.body = some body ∧ request.path = some call.path ∧
      decodeAdmissionRpcPayload body = .ok (call.payload draw).toJson := by
  unfold rpcRequest at h
  cases hencoded : encodeAdmissionRpcPayload (call.payload draw).toJson with
  | error code =>
    rw [hencoded] at h
    cases h
  | ok body =>
    rw [hencoded] at h
    cases token with
    | none => cases h
    | some token =>
      obtain rfl := Option.some.inj h
      exact ⟨body, rfl, rfl, decodeAdmissionRpcPayload_eq_ok.2 hencoded⟩

theorem callOf_payload {call call' : RpcCall} {draw : RpcDraw}
    (h : AdmissionService.callOf call.path (call.payload draw) = .ok call') : call' = call := by
  cases call with
  | claimPre input =>
    simp only [AdmissionService.callOf, RpcCall.path, check_bind_eq_ok] at h
    exact (Except.ok.inj h.2.2).symm
  | consumePost input =>
    simp only [AdmissionService.callOf, RpcCall.path, check_bind_eq_ok] at h
    exact (Except.ok.inj h.2).symm

/-- **A request comes to no call but the one it was built for**, at any service. -/
theorem handle_rpcRequest {crypto : Crypto} {client : AdmissionClient} {draw : RpcDraw}
    {token : Option String} {call call' : RpcCall} {request : RpcRequest}
    (h : rpcRequest crypto client draw token call = some request) {service : AdmissionService}
    {nowMs : ℤ} (hcall : service.handle nowMs request = .ok call') : call' = call := by
  obtain ⟨body, hbody, hpath, hdecoded⟩ := decode_of_rpcRequest h
  rw [AdmissionService.handle, check_bind_eq_ok, hpath] at hcall
  obtain ⟨-, hcall⟩ := hcall
  dsimp only at hcall
  rw [check_bind_eq_ok] at hcall
  obtain ⟨-, hcall⟩ := hcall
  split at hcall
  · cases hcall
  rw [check_bind_eq_ok] at hcall
  obtain ⟨-, hcall⟩ := hcall
  split at hcall
  · cases hcall
  next body' hread =>
  obtain rfl : body' = body := by
    rw [readBounded, hbody] at hread
    exact (Option.some.inj (Option.filter_eq_some_iff.1 hread).1).symm
  split at hcall
  · cases hcall
  rw [check_bind_eq_ok, check_bind_eq_ok, hdecoded] at hcall
  obtain ⟨-, -, hcall⟩ := hcall
  dsimp only at hcall
  rw [AdmissionRpcPayload.ofJson?_toJson] at hcall
  dsimp only at hcall
  rw [check_bind_eq_ok] at hcall
  exact callOf_payload hcall.2

/-! ## What an answer says -/

theorem readMembers_stringify {members : List (JsString × Json)}
    (h : ∀ m ∈ members, m.2.IsAtom) {status : ℕ} {read : List (JsString × Json)}
    (hread : readMembers ⟨status, (Json.obj members).stringify⟩ = some read) : read = members := by
  unfold readMembers at hread
  split at hread
  · rw [Json.parse_stringify_obj h] at hread
    exact (Option.some.inj hread).symm
  · cases hread

theorem readMembers_decisionJson {decision : String} {status : ℕ} {read : List (JsString × Json)}
    (h : readMembers ⟨status, (decisionJson decision).stringify⟩ = some read) :
    read = [member "decision" (.text decision)] := by
  refine readMembers_stringify (fun m hm => ?_) h
  obtain rfl := List.mem_singleton.1 hm
  exact Json.isAtom_text decision

theorem readPre_eq_allowed {response : Response} {permit : String} {expiresAtMs : ℤ}
    (h : readPre response = .allowed permit expiresAtMs) :
    ∃ members, readMembers response = some members ∧
      readAllowed members = some (permit, expiresAtMs) := by
  unfold readPre at h
  split at h
  · cases h
  · next members hmembers =>
    split at h
    · next permit' expiresAtMs' hallowed =>
      cases h
      exact ⟨members, hmembers, hallowed⟩
    · cases h
    · cases h
    · cases h

theorem readPost_eq_allowed {response : Response} (h : readPost response = .allowed) :
    ∃ members, readMembers response = some members ∧
      (lastMember members "decision").bind Json.text? = some "allowed" := by
  unfold readPost at h
  split at h
  · cases h
  · next members hmembers =>
    split at h
    · cases h
    · cases h
    · cases h
    · split at h
      · next hallowed => exact ⟨members, hmembers, hallowed.1⟩
      · cases h

/-- A decision without a permit is not read as an allowed claim. -/
theorem readPre_decisionJson (decision : String) (status : ℕ) (permit : String) (expiresAtMs : ℤ) :
    readPre ⟨status, (decisionJson decision).stringify⟩ ≠ .allowed permit expiresAtMs := by
  intro h
  obtain ⟨members, hmembers, hallowed⟩ := readPre_eq_allowed h
  obtain rfl := readMembers_decisionJson hmembers
  have hne : JsString.ofString "decision" ≠ JsString.ofString "permit" := by decide
  simp [readAllowed, lastMember, member, hne] at hallowed

/-- **An answer is read as an allowed claim only if it is one**, with its permit. -/
theorem allowed_of_readPre {decision : PreDecision} {status : ℕ} {permit : String} {expiresAtMs : ℤ}
    (h : readPre ⟨status, (preDecisionJson decision).stringify⟩ = .allowed permit expiresAtMs) :
    decision = .allowed permit expiresAtMs := by
  cases decision with
  | limited | replay | unavailable => exact absurd h (readPre_decisionJson _ _ _ _)
  | allowed permit' expiresAtMs' =>
    have hatoms : ∀ m ∈ [member "decision" (.text "allowed"), member "permit" (.text permit'),
        member "expiresAtMs" (.int expiresAtMs')], m.2.IsAtom := by
      simp only [List.forall_mem_cons]
      exact ⟨Json.isAtom_text _, Json.isAtom_text _, Json.isAtom_int _, fun _ h => by cases h⟩
    obtain ⟨members, hmembers, hallowed⟩ := readPre_eq_allowed h
    obtain rfl := readMembers_stringify hatoms hmembers
    have hne : JsString.ofString "expiresAtMs" ≠ JsString.ofString "permit" := by decide
    simp [readAllowed, lastMember, member, hne] at hallowed
    obtain ⟨-, rfl, rfl⟩ := hallowed
    rfl

/-- **An answer is read as an allowed consume only if it is one.** -/
theorem allowed_of_readPost {decision : PostDecision} {status : ℕ}
    (h : readPost ⟨status, (postDecisionJson decision).stringify⟩ = .allowed) :
    decision = .allowed := by
  have hsaid {text : String} (hread : readPost ⟨status, (decisionJson text).stringify⟩ = .allowed) :
      text = "allowed" := by
    obtain ⟨members, hmembers, hallowed⟩ := readPost_eq_allowed hread
    obtain rfl := readMembers_decisionJson hmembers
    simpa [lastMember, member] using hallowed
  cases decision with
  | allowed => rfl
  | limited | replay | unavailable => exact absurd (hsaid h) (by decide)

end Limitmark.PublicInquiry
