import Limitmark.Authority.AuthorityRun
import Limitmark.Authority.ResultStatement

/-!
# The attestation coordinator

`workers/admission-service/authority-attestation.ts`: when the authority signs, and which of its
stored state goes into a statement. A command goes to the authority with the answer of the preflight; a
reconciliation is read at a reading of the clock that is checked.

`AuthorityAttestationSigner` is the signer of `authority-attestation-signer.ts`; its keys, signature
and encoding are the platform's. A call takes the readings of its clock in the order in which it makes
them.
-/

namespace Limitmark.Authority

open Limitmark.Foundations Limitmark.Ingress

/-- A signer is pinned to one environment, and to a fingerprint that was checked when it was made. -/
structure AuthorityAttestationSigner where
  environment : Environment
  writerKeyFingerprint : String
  pinned : isLowerHex 64 writerKeyFingerprint = true
  load : Bool := true
  envelope : ResultStatement → Option (List UInt8)

namespace AuthorityAttestationSigner

def authorityId (signer : AuthorityAttestationSigner) : String :=
  ATTESTATION_AUTHORITY_IDS signer.environment

def policyEpoch (_ : AuthorityAttestationSigner) : String := ATTESTATION_POLICY_EPOCH

def ready (signer : AuthorityAttestationSigner) (nowMs : ℤ) : Bool := isSafeTime nowMs && signer.load

/-- Only a valid statement of the signer's own environment and fingerprint is signed. -/
def sign (signer : AuthorityAttestationSigner) (statement : ResultStatement) : Option (List UInt8) :=
  match validateResultStatement statement with
  | .error _ => none
  | .ok _ =>
    let base := match statement with
      | .lifecycle s => s.toStatementBase
      | .reconciliation s => s.toStatementBase
    if base.environment = signer.environment ∧
        base.authorityId = ATTESTATION_AUTHORITY_IDS signer.environment ∧
        base.policyEpoch = ATTESTATION_POLICY_EPOCH ∧
        base.writerKeyFingerprint = signer.writerKeyFingerprint then signer.envelope statement
    else none

end AuthorityAttestationSigner

inductive RelayDisposition
  | applied
  | alreadyApplied
  deriving DecidableEq, Repr

inductive AttestedReconciliationResult
  | attested (envelope : List UInt8)
  | refused
  | unavailable (reason : AttestationUnavailableReason)
  deriving DecidableEq, Repr

/-! ## Statements -/

def lifecycleStatement (signer : AuthorityAttestationSigner) (receipt : LifecycleReceipt)
    (observedAtMs : ℤ) : Except StatementFault LifecycleStatement :=
  makeLifecycleStatement
    { trustEpoch := ATTESTATION_TRUST_EPOCH
      environment := receipt.environment
      authorityId := receipt.authorityId
      policyEpoch := ATTESTATION_POLICY_EPOCH
      digest := receipt.digest
      receipt := attestationReceiptFromLifecycleReceipt receipt
      observedAtMs
      writerKeyFingerprint := signer.writerKeyFingerprint }

def reconciliationStatement (signer : AuthorityAttestationSigner) (digest nonce : String)
    (observation : AuthorityObservation) : Except StatementFault ReconciliationStatement :=
  makeReconciliationStatement
    { trustEpoch := ATTESTATION_TRUST_EPOCH
      environment := observation.environment
      authorityId := observation.authorityId
      policyEpoch := ATTESTATION_POLICY_EPOCH
      digest
      nonce
      initialized := observation.initialized
      coverage := observation.coverage
      status := observation.status
      receipt := observation.receipt.map attestationReceiptFromLifecycleReceipt
      releases := observation.releases
      observedAtMs := observation.observedAtMs
      writerKeyFingerprint := signer.writerKeyFingerprint }

namespace Deployment

/-! ## The coordinator -/

/-- The signer is there, is pinned to this authority, and is ready. -/
def prepareSigner (deployment : Deployment) (signer : Option AuthorityAttestationSigner)
    (nowMs : ℤ) : Except AttestationUnavailableReason AuthorityAttestationSigner :=
  match signer with
  | none => .error .signerUnconfigured
  | some signer => do
    ensure (signer.environment = deployment.environment ∧
      signer.authorityId = deployment.environment.authorityId ∧
      signer.policyEpoch = ADMISSION_POLICY_EPOCH) .signerMismatch
    ensure (isSafeTime nowMs) .authorityClockInvalid
    ensure (signer.ready nowMs) .signerNotReady
    return signer

/-- A signed command as the coordinator takes it: the readings of its clock before the preflight and
after it. -/
structure AttestedCall where
  command : AuthorityOperatorCommand
  signature : String
  preliminary : ℤ
  final : ℤ
  fault : Option Statement := none

/-- The command as it is executed, with the preflight's answer. -/
def signedCall (deployment : Deployment) (signer : Option AuthorityAttestationSigner)
    (call : AttestedCall) : SignedCall AuthorityOperatorCommand where
  command := call.command
  signature := call.signature
  preflight := (deployment.prepareSigner signer call.preliminary).map fun _ => ()
  observed := call.final
  fault := call.fault

/-- The signer and the reading of a read-only attestation. -/
def prepareReading (deployment : Deployment) (signer : Option AuthorityAttestationSigner)
    (preliminary observedAtMs : ℤ) : Except AttestationUnavailableReason AuthorityAttestationSigner := do
  let signer ← deployment.prepareSigner signer preliminary
  ensure (isSafeTime observedAtMs) .authorityClockInvalid
  return signer

def attestReconciliation (deployment : Deployment) (signer : Option AuthorityAttestationSigner)
    (preliminary observedAtMs : ℤ) (digest nonce : String) (s : Storage) :
    AttestedReconciliationResult :=
  if ¬ isLowerHex 64 digest ∨ ¬ isLowerHex 32 nonce then .refused
  else
    match deployment.prepareReading signer preliminary observedAtMs with
    | .error reason => .unavailable reason
    | .ok signer =>
      match s.inspectLifecycleAuthority digest observedAtMs deployment.environment.authorityId
        ADMISSION_POLICY_EPOCH with
      | .error _ | .ok .unavailable => .unavailable .authorityStateUnavailable
      | .ok (.observed observation) =>
        match reconciliationStatement signer digest nonce observation with
        | .error _ => .unavailable .statementInvalid
        | .ok statement =>
          match signer.sign (.reconciliation statement) with
          | some envelope => .attested envelope
          | none => .unavailable .signingFailed

end Deployment

end Limitmark.Authority
