import Limitmark.Foundations.Checks
import Limitmark.Foundations.Run
import Limitmark.Hop.HopProof
import Limitmark.Hop.ReplayGuard

/-!
# Admission at a hop

`admitHopRequest` of `defense/core/hop-admission.ts`, as a machine of one verifier and any number of
concurrent calls. A call is suspended between its checks of the request (steps 1 to 5, which read
the wall clock) and its authentication and reservation (6 and 7, which read the monotonic clock),
and again while the body is read (8). The code reads the two clocks at different moments of one
synchronous segment, so what it does is among the interleavings of the machine.

`step_cases` says what a step does to the guard and to the reservations of the calls.
-/

namespace Limitmark.Hop

open Limitmark.Defense Limitmark.Plane Limitmark.Foundations

/-! ## Configuration and request -/

/-- What a verifier is configured with. The app accepts two keys, its own hop's and the plane's. -/
inductive AdmissionConfig
  | pb (keyP : Key) (kidP boundaryId : String)
  | ba (keyB : Key) (kidB : String) (keyP : Key) (kidP appId boundaryId : String)
  deriving DecidableEq, Repr

namespace AdmissionConfig

def role : AdmissionConfig → HopRole
  | pb _ _ _ => .pb
  | ba _ _ _ _ _ _ => .ba

/-- The key, the key id and the audience of the verifier's own proofs. -/
def ownKey : AdmissionConfig → Key
  | pb keyP _ _ => keyP
  | ba keyB _ _ _ _ _ => keyB

def ownKid : AdmissionConfig → String
  | pb _ kidP _ => kidP
  | ba _ kidB _ _ _ _ => kidB

def ownAud : AdmissionConfig → String
  | pb _ _ boundaryId => boundaryId
  | ba _ _ _ _ appId _ => appId

/-- The plane's key, key id and audience. -/
def keyP : AdmissionConfig → Key
  | pb keyP _ _ => keyP
  | ba _ _ keyP _ _ _ => keyP

def kidP : AdmissionConfig → String
  | pb _ kidP _ => kidP
  | ba _ _ _ kidP _ _ => kidP

def boundaryId : AdmissionConfig → String
  | pb _ _ boundaryId => boundaryId
  | ba _ _ _ _ _ boundaryId => boundaryId

end AdmissionConfig

/-- The longest a proof can still be accepted, plus a margin. -/
def RETAIN_PB_MS : ℕ := PB_MAX_LIFETIME_MS + 2 * HOP_SKEW_MS + 1000

def RETAIN_BA_MS : ℕ := BA_MAX_LIFETIME_MS + 2 * HOP_SKEW_MS + 1000

structure AdmissionRequest where
  method : String
  url : String
  rawHeaders : List (String × String)
  crossCheck : Option (RequestClaims → Bool) := none

structure Refused where
  reason : ObReason
  nonce : Option String
  deriving DecidableEq, Repr

/-- A plane proof that passed every check, with the header it arrived in. -/
structure VerifiedPb where
  claims : Claims
  header : String
  deriving DecidableEq, Repr

structure Admitted where
  role : HopRole
  nonce : String
  hop : ℕ
  pbTag : String
  baTag : Option String
  claims : Claims
  request : RequestClaims
  body : List UInt8
  pb : VerifiedPb
  deriving DecidableEq, Repr

/-! ## Steps 1 to 5: the checks of the request -/

/-- What the first steps found. -/
structure Checked where
  tag : Option String
  ownHeader : String
  pbHeader : String
  decoded : Decoded
  deriving DecidableEq, Repr

/-- The only one of a list. -/
def theOne (headers : List String) (missing duplicate : Refused) : Except Refused String :=
  match headers with
  | [] => .error missing
  | [header] => .ok header
  | _ => .error duplicate

def noReason (reason : Option ObReason) (refuse : ObReason → Refused) : Except Refused Unit :=
  match reason with
  | none => .ok ()
  | some reason => .error (refuse reason)

@[simp] theorem noReason_eq_ok (reason : Option ObReason) (refuse : ObReason → Refused) (u : Unit) :
    noReason reason refuse = .ok u ↔ reason = none := by
  cases reason <;> simp [noReason]

/-- The window of the verifier's own proofs. -/
def AdmissionConfig.ownWindow (config : AdmissionConfig) (nowMs fenceMs : ℚ) : WindowContext :=
  ⟨config.ownKid, config.ownAud, nowMs, fenceMs⟩

/-- The window of the plane's proofs. -/
def AdmissionConfig.planeWindow (config : AdmissionConfig) (nowMs fenceMs : ℚ) : WindowContext :=
  ⟨config.kidP, config.boundaryId, nowMs, fenceMs⟩

def precheck (P : Platform) (config : AdmissionConfig) (fenceMs nowMs : ℚ)
    (request : AdmissionRequest) : Except Refused Checked := do
  let scan := scanHopHeaders request.rawHeaders request.method
  let refuse (reason : ObReason) : Refused := ⟨reason, scan.tag⟩
  -- 1. proof presence
  let own ← theOne (if config.role = .pb then scan.pb else scan.ba) (refuse .proofMissing)
    (refuse .proofDuplicate)
  ensure (config.role = .pb → scan.ba = []) (refuse .headerUnbound)
  let pbHeader ← theOne scan.pb (refuse .lineageMissing) (refuse .proofDuplicate)
  -- 2. closed header set
  noReason scan.violation refuse
  -- 3. decode
  let decoded ← (decodeProof P own config.role).mapError refuse
  -- 4. window
  noReason (checkProofWindow decoded.claims (config.ownWindow nowMs fenceMs)) refuse
  -- 5. wire equals claims
  let wanted := decoded.claims.request
  ensure (request.method = wanted.method) (refuse .methodMismatch)
  ensure (request.url = wanted.target) (refuse .targetMismatch)
  ensure (scan.pairs = wanted.pairs) (refuse .headerMismatch)
  ensure (wanted.method = "POST" →
    (scan.contentLengths.head?.bind contentLength?) = some wanted.bodyLen) (refuse .lengthMismatch)
  return { tag := scan.tag, ownHeader := own, pbHeader, decoded }

/-! ## Step 6: the signatures -/

/-- A request whose proofs are verified. At the boundary its own proof is the plane's. -/
structure Verified where
  claims : Claims
  pb : VerifiedPb
  authNonce : String
  deriving DecidableEq, Repr

def authenticate (P : Platform) (config : AdmissionConfig) (fenceMs nowMs : ℚ) (c : Checked) :
    Except Refused Verified := do
  let claims := c.decoded.claims
  ensure (verifyProofSignature P config.role c.decoded config.ownKey) ⟨.signatureInvalid, c.tag⟩
  let authNonce := c.tag.getD claims.corr
  let refuse (reason : ObReason) : Refused := ⟨reason, some authNonce⟩
  match config with
  | .pb _ _ _ => return { claims, pb := ⟨claims, c.ownHeader⟩, authNonce }
  | .ba _ _ _ _ _ _ =>
    let lineage ← (decodeProof P c.pbHeader .pb).mapError refuse
    let pbClaims := lineage.claims
    noReason (checkProofWindow pbClaims (config.planeWindow nowMs fenceMs)) refuse
    ensure (claims.parent = some ⟨pbClaims.jti, P.sha256B64 (asciiBytes c.pbHeader)⟩ ∧
      claims.hop = pbClaims.hop ∧ claims.corr = pbClaims.corr ∧ claims.request = pbClaims.request)
      (refuse .lineageMismatch)
    ensure (verifyProofSignature P .pb lineage config.keyP) (refuse .signatureInvalid)
    return { claims, pb := ⟨pbClaims, c.pbHeader⟩, authNonce }

/-! ## Step 7: the reservation -/

def wants (role : HopRole) (verified : Verified) : List ReserveRequest :=
  match role with
  | .pb => [⟨"pb:" ++ verified.pb.claims.jti, RETAIN_PB_MS⟩]
  | .ba => [⟨"ba:" ++ verified.claims.jti, RETAIN_BA_MS⟩,
      ⟨"ln:" ++ verified.pb.claims.jti, RETAIN_PB_MS⟩]

/-! ## Step 8: the body -/

/-- What the stream of a body does next. -/
inductive StreamEvent
  | data (chunk : List UInt8)
  | finished
  | closed
  deriving DecidableEq, Repr

inductive BodyResult
  | complete (body : List UInt8)
  | incomplete
  | overflow
  deriving DecidableEq, Repr

/-- The body read, from what has been read so far. A stream that goes silent meets the deadline. -/
def readBody (expected : ℕ) (chunks : List UInt8) : List StreamEvent → BodyResult
  | [] => .incomplete
  | .data chunk :: events =>
    if expected < (chunks ++ chunk).length then .overflow
    else readBody expected (chunks ++ chunk) events
  | .finished :: _ => if chunks.length = expected then .complete chunks else .incomplete
  | .closed :: _ => .incomplete

/-! ## The verifier and its calls -/

/-- A reservation a call made: what it verified, when it read the wall clock, when it reserved. -/
structure Reservation where
  verified : Verified
  nowMs : ℚ
  reservedAt : ℚ
  deriving DecidableEq, Repr

/-- Where a call is suspended, or what it came to. -/
inductive CallState
  | verifying (request : AdmissionRequest) (checked : Checked) (nowMs : ℚ)
  | reading (request : AdmissionRequest) (tag : Option String) (reservation : Reservation)
    (ticket : ReplayTicket)
  | refused (reservation : Option Reservation) (refusal : Refused)
  | admitted (reservation : Reservation) (admitted : Admitted)

/-- The reservation a call made, if it came that far. -/
def CallState.reservation : CallState → Option Reservation
  | verifying _ _ _ => none
  | reading _ _ reservation _ => some reservation
  | refused reservation _ => reservation
  | admitted reservation _ => some reservation

structure Verifier where
  guard : ReplayGuard
  calls : List CallState := []

namespace Verifier

/-- The checks of a body that was read, and what the call is admitted with. -/
def conclude (P : Platform) (role : HopRole) (request : AdmissionRequest) (verified : Verified)
    (read : BodyResult) : Except ObReason Admitted :=
  let claims := verified.claims
  let wanted := claims.request
  match read with
  | .incomplete => .error .contentIncomplete
  | .overflow => .error .lengthMismatch
  | .complete body =>
    if (if wanted.bodyLen = 0 then EMPTY_BODY_SHA256 else P.sha256B64 body) ≠ wanted.bodySha256 then
      .error .digestMismatch
    else if request.crossCheck.any fun check => !check wanted then .error .canonError
    else
      .ok { role, nonce := claims.corr, hop := claims.hop
            pbTag := proofTag P "pb" verified.pb.claims.jti
            baTag := if role = .ba then some (proofTag P "ba" claims.jti) else none
            claims, request := wanted, body, pb := verified.pb }

/-- Step 9: the ticket is committed, or burned with a refusal. -/
def finish (i : ℕ) (reservation : Reservation) (ticket : ReplayTicket)
    (outcome : Except Refused Admitted) (v : Verifier) : Verifier :=
  match outcome with
  | .ok admitted =>
    { guard := (v.guard.settle .committed ticket).1
      calls := v.calls.set i (.admitted reservation admitted) }
  | .error refusal =>
    { guard := (v.guard.settle .burned ticket).1
      calls := v.calls.set i (.refused (some reservation) refusal) }

/-- The outcome of a body that was read. -/
def outcomeOf (P : Platform) (role : HopRole) (request : AdmissionRequest)
    (reservation : Reservation) (read : BodyResult) : Except Refused Admitted :=
  (conclude P role request reservation.verified read).mapError fun reason =>
    ⟨reason, some reservation.verified.authNonce⟩

/-- What the calls do. An unexpected failure of a call that reads its body is a step of its own. -/
inductive Op
  | begin (request : AdmissionRequest) (nowMs : ℚ)
  | verify (i : ℕ) (mono : ℚ)
  | body (i : ℕ) (events : List StreamEvent)
  | fail (i : ℕ)

/-- The reading of the monotonic clock an operation takes. -/
def Op.mono : Op → Option ℚ
  | verify _ mono => some mono
  | _ => none

/-- The reading of the wall clock an operation takes. -/
def Op.wall : Op → Option ℚ
  | begin _ nowMs => some nowMs
  | _ => none

/-- Steps 6 and 7, and for a request without a body the rest. -/
def verify (P : Platform) (config : AdmissionConfig) (fenceMs : ℚ) (i : ℕ) (mono : ℚ)
    (request : AdmissionRequest) (checked : Checked) (nowMs : ℚ) (v : Verifier) : Verifier :=
  match authenticate P config fenceMs nowMs checked with
  | .error refusal => { v with calls := v.calls.set i (.refused none refusal) }
  | .ok verified =>
    let refuse (reason : ObReason) : Refused := ⟨reason, some verified.authNonce⟩
    let r := v.guard.reserve mono (wants config.role verified)
    let v := { v with guard := r.1 }
    match r.2 with
    | .error .replayed => { v with calls := v.calls.set i (.refused none (refuse .replayed)) }
    | .error .full => { v with calls := v.calls.set i (.refused none (refuse .replayCacheFull)) }
    | .ok ticket =>
      let reservation : Reservation := ⟨verified, nowMs, mono⟩
      if MAX_SEMANTIC_BODY < verified.claims.request.bodyLen then
        v.finish i reservation ticket (.error (refuse .lengthMismatch))
      else if verified.claims.request.bodyLen = 0 then
        v.finish i reservation ticket (outcomeOf P config.role request reservation (.complete []))
      else { v with calls := v.calls.set i (.reading request checked.tag reservation ticket) }

def step (P : Platform) (config : AdmissionConfig) (fenceMs : ℚ) (v : Verifier) (op : Op) :
    Verifier × Unit :=
  (match op with
    | .begin request nowMs =>
      match precheck P config fenceMs nowMs request with
      | .error refusal => { v with calls := v.calls ++ [.refused none refusal] }
      | .ok checked => { v with calls := v.calls ++ [.verifying request checked nowMs] }
    | .verify i mono =>
      match v.calls[i]? with
      | some (.verifying request checked nowMs) =>
        v.verify P config fenceMs i mono request checked nowMs
      | _ => v
    | .body i events =>
      match v.calls[i]? with
      | some (.reading request _ reservation ticket) =>
        v.finish i reservation ticket (outcomeOf P config.role request reservation
          (readBody reservation.verified.claims.request.bodyLen [] events))
      | _ => v
    | .fail i =>
      match v.calls[i]? with
      | some (.reading _ tag reservation ticket) =>
        v.finish i reservation ticket (.error ⟨.canonError, tag⟩)
      | _ => v, ())

/-- The call of an index, if it was admitted. -/
def admittedAt (v : Verifier) (i : ℕ) : Option Admitted :=
  match v.calls[i]? with
  | some (.admitted _ admitted) => some admitted
  | _ => none

/-- The reservation of a call, if it came that far. -/
def reservationAt (v : Verifier) (i : ℕ) : Option Reservation :=
  v.calls[i]?.bind CallState.reservation

end Verifier

end Limitmark.Hop
