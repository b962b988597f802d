import Limitmark.Authority.Attestation

/-!
# Sealed artifacts and relayed answers

What the lifecycle mailbox uses of `operator/lifecycle-submitter.ts` and `operator/attested-relay.ts`: the
check of a sealed command before it is submitted, and the shapes of the answers that are relayed. An
answer carries the envelope of the authority as bytes that nobody on the way looks into.

The reading of the JSON text of an artifact is a parameter of the mailbox (`readArtifact`).
-/

namespace Limitmark.Mailbox

open Limitmark.Authority Limitmark.Foundations Limitmark.Ingress

def MAX_SEALED_ARTIFACT_BYTES : ℕ := 4096

abbrev LifecycleOperation := Operation

structure SealedLifecycleArtifact where
  command : AuthorityOperatorCommand
  signature : String
  deriving DecidableEq, Repr

def operationOf : AuthorityOperatorCommand → LifecycleOperation
  | .initialization _ => .initialization
  | .rotateRelease _ => .rotateRelease

def authorityIdOf : AuthorityOperatorCommand → String
  | .initialization c => c.authorityId
  | .rotateRelease c => c.authorityId

/-- Whether a command may be submitted now. -/
def assertSubmissionEligible (command : AuthorityOperatorCommand) (nowMs : ℤ) : Bool :=
  isSafeInteger nowMs && isNear nowMs command.issuedAtMs &&
    match command with
    | .initialization _ => true
    | .rotateRelease c => isNear nowMs c.activatesAtMs

/-- A sealed production command, by the reading of its text. -/
def parseSealedLifecycleArtifact (readArtifact : String → Option SealedLifecycleArtifact)
    (sealedJson : String) (operation : LifecycleOperation) (nowMs : ℤ) :
    Option SealedLifecycleArtifact :=
  if ¬ isSafeInteger nowMs then none
  else if sealedJson.utf8ByteSize = 0 ∨ MAX_SEALED_ARTIFACT_BYTES < sealedJson.utf8ByteSize then none
  else
    (readArtifact sealedJson).filter fun artifact =>
      operationOf artifact.command = operation &&
        artifact.command.environment = .production &&
        authorityIdOf artifact.command = ADMISSION_AUTHORITY_ID &&
        artifact.command.isValid &&
        (decodeCanonicalBase64url artifact.signature (some 64)).isSome &&
        assertSubmissionEligible artifact.command nowMs

/-! ## Relayed answers -/

def RELAY_ENVELOPE_MAX_BYTES : ℕ := 8192

/-- An answer of the authority as it is relayed. -/
inductive LifecycleRelayResult
  | attested (relayDisposition : RelayDisposition) (envelope : List UInt8)
  | refused
  | unavailable (reason : String)
  | ambiguous (reason : String)
  | unconfirmed
  deriving DecidableEq, Repr

def isOpaqueEnvelope (value : List UInt8) : Bool :=
  1 ≤ value.length && value.length ≤ RELAY_ENVELOPE_MAX_BYTES

/-- `/^[a-z0-9-]{1,64}$/`. -/
def isReason (value : String) : Bool :=
  1 ≤ value.length && value.length ≤ 64 &&
    value.toList.all fun c => ('a' ≤ c && c ≤ 'z') || ('0' ≤ c && c ≤ '9') || c = '-'

/-- An answer of another shape is unconfirmed, and never a refusal. -/
def normalizeLifecycleRelayResult : LifecycleRelayResult → LifecycleRelayResult
  | .attested relayDisposition envelope =>
    if isOpaqueEnvelope envelope then .attested relayDisposition envelope else .unconfirmed
  | .refused => .refused
  | .unavailable reason => if isReason reason then .unavailable reason else .unconfirmed
  | .ambiguous reason => if isReason reason then .ambiguous reason else .unconfirmed
  | .unconfirmed => .unconfirmed

end Limitmark.Mailbox
