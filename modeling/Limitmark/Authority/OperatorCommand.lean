import Limitmark.Authority.Releases
import Limitmark.Authority.Decisions

/-!
# Operator commands

`workers/admission-service/operator-command.ts`: the signed commands that initialise an authority and
rotate its release. A command is checked, authenticated and given its receipt; then, after a
preflight that may take any time, the clock is read once more, and that reading is both the time of
the freshness check and the receipt's time of application.

The hash and the signature scheme of the platform are parameters (`Subtle`). An entry point is
handed a command of its own operation.
-/

namespace Limitmark.Authority

open Limitmark.Defense Limitmark.Foundations Limitmark.Ingress

/-- What the code uses of `crypto.subtle`. -/
structure Subtle where
  sha256 : List UInt8 → Digest
  importKey : (key : List UInt8) → Bool
  verify : (key signature message : List UInt8) → Bool

def AUTHORITY_OPERATOR_COMMAND_VERSION : String := "limitmark-authority-operator-v1"

structure AuthorityInitializationCommand where
  version : String := AUTHORITY_OPERATOR_COMMAND_VERSION
  environment : Environment
  authorityId : String
  policyEpoch : String := ADMISSION_POLICY_EPOCH
  releaseId : String
  releaseKeyId : String
  issuedAtMs : ℤ
  confirmProduction : Bool
  deriving DecidableEq, Repr

structure AuthorityReleaseRotationCommand where
  version : String := AUTHORITY_OPERATOR_COMMAND_VERSION
  environment : Environment
  authorityId : String
  policyEpoch : String := ADMISSION_POLICY_EPOCH
  currentReleaseId : String
  nextReleaseId : String
  nextReleaseKeyId : String
  activatesAtMs : ℤ
  previousRetiresAtMs : ℤ
  issuedAtMs : ℤ
  confirmProduction : Bool
  deriving DecidableEq, Repr

inductive AuthorityOperatorCommand
  | initialization (command : AuthorityInitializationCommand)
  | rotateRelease (command : AuthorityReleaseRotationCommand)
  deriving DecidableEq, Repr

/-! ## The signed bytes -/

def Environment.text : Environment → String
  | .production => "production"
  | .staging => "staging"

def Operation.text : Operation → String
  | .initialization => "initialize"
  | .rotateRelease => "rotate-release"

def Environment.authorityId : Environment → String
  | .production => ADMISSION_AUTHORITY_ID
  | .staging => STAGING_ADMISSION_AUTHORITY_ID

/-- A string in a JSON text; those of a valid command need no escapes. -/
def jsonString (value : String) : String := "\"" ++ value ++ "\""

def jsonBool (value : Bool) : String := if value then "true" else "false"

def jsonArray (values : List String) : String := "[" ++ ",".intercalate values ++ "]"

namespace AuthorityInitializationCommand

/-- Each environment is pinned to its own authority. -/
def isValid (c : AuthorityInitializationCommand) : Bool :=
  c.version = AUTHORITY_OPERATOR_COMMAND_VERSION && c.policyEpoch = ADMISSION_POLICY_EPOCH &&
    c.authorityId = c.environment.authorityId && validRelease c.releaseId &&
    validKeyId c.releaseKeyId && isSafeTime c.issuedAtMs &&
    (c.environment ≠ .production || c.confirmProduction)

def fields (c : AuthorityInitializationCommand) : List String :=
  [jsonString c.version, jsonString Operation.initialization.text, jsonString c.environment.text,
    jsonString c.authorityId, jsonString c.policyEpoch, jsonString c.releaseId,
    jsonString c.releaseKeyId, toString c.issuedAtMs, jsonBool c.confirmProduction]

end AuthorityInitializationCommand

namespace AuthorityReleaseRotationCommand

/-- Only production rotates. -/
def isValid (c : AuthorityReleaseRotationCommand) : Bool :=
  c.version = AUTHORITY_OPERATOR_COMMAND_VERSION && c.policyEpoch = ADMISSION_POLICY_EPOCH &&
    c.environment = .production && c.authorityId = ADMISSION_AUTHORITY_ID &&
    validRelease c.currentReleaseId && validRelease c.nextReleaseId &&
    c.currentReleaseId ≠ c.nextReleaseId && validKeyId c.nextReleaseKeyId &&
    isSafeTime c.activatesAtMs && isSafeTime c.previousRetiresAtMs && isSafeTime c.issuedAtMs &&
    c.activatesAtMs < c.previousRetiresAtMs &&
    c.previousRetiresAtMs - c.activatesAtMs ≤ 5 * 60000 && c.confirmProduction

def fields (c : AuthorityReleaseRotationCommand) : List String :=
  [jsonString c.version, jsonString Operation.rotateRelease.text, jsonString c.environment.text,
    jsonString c.authorityId, jsonString c.policyEpoch, jsonString c.currentReleaseId,
    jsonString c.nextReleaseId, jsonString c.nextReleaseKeyId, toString c.activatesAtMs,
    toString c.previousRetiresAtMs, toString c.issuedAtMs, jsonBool c.confirmProduction]

end AuthorityReleaseRotationCommand

namespace AuthorityOperatorCommand

def environment : AuthorityOperatorCommand → Environment
  | initialization c => c.environment
  | rotateRelease c => c.environment

def issuedAtMs : AuthorityOperatorCommand → ℤ
  | initialization c => c.issuedAtMs
  | rotateRelease c => c.issuedAtMs

/-- A first release is active from the time its command was issued. -/
def activatesAtMs : AuthorityOperatorCommand → ℤ
  | initialization c => c.issuedAtMs
  | rotateRelease c => c.activatesAtMs

def isValid : AuthorityOperatorCommand → Bool
  | initialization c => c.isValid
  | rotateRelease c => c.isValid

def fields : AuthorityOperatorCommand → List String
  | initialization c => c.fields
  | rotateRelease c => c.fields

end AuthorityOperatorCommand

def canonicalOperatorCommandBytes (command : AuthorityOperatorCommand) :
    Except Failure (List UInt8) :=
  if command.isValid then .ok (asciiBytes (jsonArray command.fields))
  else .error (.refusal .operatorCommand)

/-! ## Authentication and receipts -/

def hexDigit (n : ℕ) : Char := "0123456789abcdef".toList.getD (n % 16) '0'

/-- Two lower-case digits a byte. -/
def hexBytes (bytes : List UInt8) : String :=
  String.ofList (bytes.flatMap fun b => [hexDigit (b.toNat / 16), hexDigit b.toNat])

/-- `sha256`, in hexadecimal. -/
def Subtle.sha256Hex (subtle : Subtle) (bytes : List UInt8) : String :=
  hexBytes (subtle.sha256 bytes).toList

/-- A decoding failure is none of the refusals. -/
def decoded (value : String) (length : ℕ) : Except Failure (List UInt8) :=
  match decodeCanonicalBase64url value (some length) with
  | none => .error .thrown
  | some bytes => .ok bytes

def verifyOperatorCommand (subtle : Subtle) (command : AuthorityOperatorCommand) (signature : String)
    (operatorPublicKey : String) : Except Failure Unit := do
  let key ← decoded operatorPublicKey 32
  ensure (subtle.importKey key) .thrown
  let signatureBytes ← decoded signature 64
  let message ← canonicalOperatorCommandBytes command
  ensure (subtle.verify key signatureBytes message) (.refusal .operatorSignature)

def COMMAND_DIGEST_DOMAIN : String := "limitmark-lifecycle-command-digest-v1\n"

def commandDigest (subtle : Subtle) (command : AuthorityOperatorCommand) : Except Failure String := do
  let message ← canonicalOperatorCommandBytes command
  return subtle.sha256Hex (asciiBytes COMMAND_DIGEST_DOMAIN ++ message)

/-- The one mapping from commands to receipts. -/
def expectedCommandReceipt (subtle : Subtle) (command : AuthorityOperatorCommand)
    (operatorPublicKey : String) : Except Failure CommandDerivedReceipt := do
  let digest ← commandDigest subtle command
  let key ← decoded operatorPublicKey 32
  let keyFingerprint := subtle.sha256Hex key
  return match command with
    | .initialization c =>
      { digest, operation := .initialization, environment := c.environment, authorityId := c.authorityId,
        policyEpoch := c.policyEpoch, keyFingerprint, currentReleaseId := c.releaseId,
        nextReleaseId := c.releaseId, nextKeyId := c.releaseKeyId, activatesMs := c.issuedAtMs,
        retiresMs := none }
    | .rotateRelease c =>
      { digest, operation := .rotateRelease, environment := c.environment,
        authorityId := c.authorityId, policyEpoch := c.policyEpoch, keyFingerprint,
        currentReleaseId := c.currentReleaseId, nextReleaseId := c.nextReleaseId,
        nextKeyId := c.nextReleaseKeyId, activatesMs := c.activatesAtMs,
        retiresMs := some c.previousRetiresAtMs }

/-! ## Execution -/

/-- A signed command as an entry point is called with it: what its preflight answers, the final
reading of the clock, and the statement at which its storage fails. -/
structure SignedCall (γ : Type) where
  command : γ
  signature : String
  preflight : Except AttestationUnavailableReason Unit := .ok ()
  observed : ℤ
  fault : Option Statement := none

/-- What an authority is deployed with: its platform, its operator's key and its environment. -/
structure Deployment where
  subtle : Subtle
  publicKey : String
  environment : Environment

/-- Everything before the final reading of the clock: no storage is touched. -/
def Deployment.prepare (deployment : Deployment) (command : AuthorityOperatorCommand)
    (environment : Environment) (signature : String)
    (preflight : Except AttestationUnavailableReason Unit) :
    Except Failure CommandDerivedReceipt := do
  ensure (environment = deployment.environment) (.refusal .operatorEnvironment)
  verifyOperatorCommand deployment.subtle command signature deployment.publicKey
  let receipt ← expectedCommandReceipt deployment.subtle command deployment.publicKey
  preflight.mapError .attestationUnavailable
  return receipt

/-- Within five minutes. -/
def isNear (a b : ℤ) : Bool := (a - b).natAbs ≤ 5 * 60000

def executeSignedAuthorityInitialization (deployment : Deployment)
    (call : SignedCall AuthorityInitializationCommand) (s : Storage) :
    Except Failure LifecycleOutcome × Storage :=
  let c := call.command
  match deployment.prepare (.initialization c) c.environment call.signature call.preflight with
  | .error failure => (.error failure, s)
  | .ok receipt =>
    if ¬ isSafeInteger call.observed ∨ ¬ isNear call.observed c.issuedAtMs then
      (.error (.refusal .operatorCommandFreshness), s)
    else
      s.initializeAuthority
        ⟨c.environment, c.authorityId, c.policyEpoch, c.releaseId, c.releaseKeyId, c.issuedAtMs,
          c.confirmProduction⟩
        (some { receipt with appliedMs := call.observed }) call.fault
        deployment.environment.authorityId ADMISSION_POLICY_EPOCH

def executeSignedAuthorityReleaseRotation (deployment : Deployment)
    (call : SignedCall AuthorityReleaseRotationCommand) (s : Storage) :
    Except Failure LifecycleOutcome × Storage :=
  let c := call.command
  match deployment.prepare (.rotateRelease c) c.environment call.signature call.preflight with
  | .error failure => (.error failure, s)
  | .ok receipt =>
    if ¬ isSafeInteger call.observed ∨ ¬ isNear call.observed c.issuedAtMs ∨
        ¬ isNear call.observed c.activatesAtMs then
      (.error (.refusal .operatorCommandFreshness), s)
    else
      s.rotateAuthorityRelease
        ⟨c.authorityId, c.policyEpoch, c.currentReleaseId, c.nextReleaseId, c.nextReleaseKeyId,
          c.activatesAtMs, c.previousRetiresAtMs⟩
        (some { receipt with appliedMs := call.observed }) call.fault

/-- A command, at the entry point of its operation. -/
def Deployment.execute (deployment : Deployment) (call : SignedCall AuthorityOperatorCommand)
    (s : Storage) : Except Failure LifecycleOutcome × Storage :=
  match call.command with
  | .initialization c => executeSignedAuthorityInitialization deployment { call with command := c } s
  | .rotateRelease c => executeSignedAuthorityReleaseRotation deployment { call with command := c } s

/-! ## What a command does -/

section Execution

variable {deployment : Deployment} {call : SignedCall AuthorityOperatorCommand} {s s' : Storage}

def Deployment.digest (deployment : Deployment) (command : AuthorityOperatorCommand) : String :=
  deployment.subtle.sha256Hex
    (asciiBytes COMMAND_DIGEST_DOMAIN ++ asciiBytes (jsonArray command.fields))

/-- A command was authenticated and is fresh at the final reading of the clock. -/
structure Accepted (deployment : Deployment) (call : SignedCall AuthorityOperatorCommand)
    (receipt : AppliedReceipt) : Prop where
  environment : call.command.environment = deployment.environment
  valid : call.command.isValid = true
  derived : expectedCommandReceipt deployment.subtle call.command deployment.publicKey =
    .ok receipt.toCommandDerivedReceipt
  applied : receipt.appliedMs = call.observed
  safe : isSafeInteger call.observed = true
  issued : isNear call.observed call.command.issuedAtMs = true
  activates : isNear call.observed call.command.activatesAtMs = true

/-- What an applied command did to the tables. -/
inductive Changed (receipt : AppliedReceipt) (s s' : Storage) : AuthorityOperatorCommand → Prop
  | initialization (c : AuthorityInitializationCommand)
      (initialized : Initialized ⟨c.environment, c.authorityId, c.policyEpoch, c.releaseId,
        c.releaseKeyId, c.issuedAtMs, c.confirmProduction⟩ receipt s s') :
      Changed receipt s s' (.initialization c)
  | rotateRelease (c : AuthorityReleaseRotationCommand) (row : MetaRow) (current : ReleaseRow)
      (rotated : Rotated ⟨c.authorityId, c.policyEpoch, c.currentReleaseId, c.nextReleaseId,
        c.nextReleaseKeyId, c.activatesAtMs, c.previousRetiresAtMs⟩ receipt s s' row current) :
      Changed receipt s s' (.rotateRelease c)

/-- A command changed nothing: it threw, or it was answered with the receipt it left before. -/
structure Unchanged (deployment : Deployment) (call : SignedCall AuthorityOperatorCommand)
    (s s' : Storage) (result : Except Failure LifecycleOutcome) : Prop where
  rows : s'.SameRows s
  replayed : ∀ outcome, result = .ok outcome → ∃ receipt prior, Accepted deployment call receipt ∧
    s.findReceipt receipt.digest = .ok (some prior) ∧ outcome.receipt = some prior

theorem Unchanged.of_error (h : s'.SameRows s) (failure : Failure) :
    Unchanged deployment call s s' (.error failure) where
  rows := h
  replayed _ ho := by cases ho

theorem verifyOperatorCommand_eq_ok {subtle : Subtle} {command : AuthorityOperatorCommand}
    {signature publicKey : String} {u : Unit}
    (h : verifyOperatorCommand subtle command signature publicKey = .ok u) :
    command.isValid = true := by
  simp only [verifyOperatorCommand, canonicalOperatorCommandBytes, bind_eq_ok] at h
  obtain ⟨-, -, -, -, -, -, message, hmessage, -⟩ := h
  split at hmessage
  · next hvalid => exact hvalid
  · cases hmessage

theorem prepare_eq_ok {command : AuthorityOperatorCommand} {environment : Environment}
    {signature : String} {preflight : Except AttestationUnavailableReason Unit}
    {receipt : CommandDerivedReceipt}
    (h : deployment.prepare command environment signature preflight = .ok receipt) :
    environment = deployment.environment ∧ command.isValid = true ∧
      expectedCommandReceipt deployment.subtle command deployment.publicKey = .ok receipt := by
  simp only [Deployment.prepare, bind_eq_ok, ensure_eq_ok, exists_const] at h
  obtain ⟨henvironment, u, hverify, r, hr, -, -, h⟩ := h
  cases h
  exact ⟨henvironment, verifyOperatorCommand_eq_ok hverify, hr⟩

theorem executeInitialization_cases {c : AuthorityInitializationCommand}
    {result : Except Failure LifecycleOutcome} (hcommand : call.command = .initialization c)
    (h : executeSignedAuthorityInitialization deployment { call with command := c } s =
      (result, s')) :
    Unchanged deployment call s s' result ∨
      ∃ receipt, Accepted deployment call receipt ∧ s.findReceipt receipt.digest = .ok none ∧
        result = .ok ⟨.initialized, some (s.receiptRow receipt)⟩ ∧
        Changed receipt s.createAuthoritySchema s' (.initialization c) := by
  simp only [executeSignedAuthorityInitialization] at h
  split at h
  · cases h
    exact .inl (.of_error (.refl s) _)
  · next receipt hprepare =>
    obtain ⟨henvironment, hvalid, hderived⟩ := prepare_eq_ok hprepare
    split at h
    · cases h
      exact .inl (.of_error (.refl s) _)
    · next hfresh =>
      simp only [not_or, not_not] at hfresh
      have haccepted : Accepted deployment call { receipt with appliedMs := call.observed } :=
        { environment := by rw [hcommand]; exact henvironment
          valid := by rw [hcommand]; exact hvalid
          derived := by rw [hcommand]; exact hderived
          applied := rfl
          safe := hfresh.1
          issued := by rw [hcommand]; exact hfresh.2
          activates := by rw [hcommand]; exact hfresh.2 }
      unfold Storage.initializeAuthority at h
      split at h
      · cases h
        exact .inl (.of_error s.sameRows_schema _)
      · cases result with
        | error e =>
          rw [transaction_eq_error h]
          exact .inl (.of_error s.sameRows_schema e)
        | ok outcome =>
          obtain ⟨prior, hprior, rfl, rfl⟩ | ⟨hnone, rfl, hinit⟩ :=
            Storage.initializeBody_cases (transaction_eq_ok h)
          · refine .inl ⟨s.sameRows_schema, fun o ho => ?_⟩
            cases ho
            exact ⟨_, prior, haccepted, hprior, rfl⟩
          · exact .inr ⟨_, haccepted, hnone, rfl, .initialization c hinit⟩

theorem executeRotation_cases {c : AuthorityReleaseRotationCommand}
    {result : Except Failure LifecycleOutcome} (hcommand : call.command = .rotateRelease c)
    (h : executeSignedAuthorityReleaseRotation deployment { call with command := c } s =
      (result, s')) :
    Unchanged deployment call s s' result ∨
      ∃ receipt, Accepted deployment call receipt ∧ s.findReceipt receipt.digest = .ok none ∧
        result = .ok ⟨.rotated, some (s.receiptRow receipt)⟩ ∧
        Changed receipt s.createAuthoritySchema s' (.rotateRelease c) := by
  simp only [executeSignedAuthorityReleaseRotation] at h
  split at h
  · cases h
    exact .inl (.of_error (.refl s) _)
  · next receipt hprepare =>
    obtain ⟨henvironment, hvalid, hderived⟩ := prepare_eq_ok hprepare
    split at h
    · cases h
      exact .inl (.of_error (.refl s) _)
    · next hfresh =>
      simp only [not_or, not_not] at hfresh
      have haccepted : Accepted deployment call { receipt with appliedMs := call.observed } :=
        { environment := by rw [hcommand]; exact henvironment
          valid := by rw [hcommand]; exact hvalid
          derived := by rw [hcommand]; exact hderived
          applied := rfl
          safe := hfresh.1
          issued := by rw [hcommand]; exact hfresh.2.1
          activates := by rw [hcommand]; exact hfresh.2.2 }
      unfold Storage.rotateAuthorityRelease at h
      split at h
      · cases h
        exact .inl (.of_error s.sameRows_schema _)
      · cases result with
        | error e =>
          rw [transaction_eq_error h]
          exact .inl (.of_error s.sameRows_schema e)
        | ok outcome =>
          obtain ⟨prior, hprior, rfl, rfl⟩ | ⟨hnone, rfl, row, current, hrotated⟩ :=
            Storage.rotateBody_cases (transaction_eq_ok h)
          · refine .inl ⟨s.sameRows_schema, fun o ho => ?_⟩
            cases ho
            exact ⟨_, prior, haccepted, hprior, rfl⟩
          · exact .inr ⟨_, haccepted, hnone, rfl, .rotateRelease c row current hrotated⟩

/-- **What a command does**: nothing, or it changes the tables as its operation says and leaves its
receipt. -/
theorem execute_cases {result : Except Failure LifecycleOutcome}
    (h : deployment.execute call s = (result, s')) :
    Unchanged deployment call s s' result ∨
      ∃ receipt status, Accepted deployment call receipt ∧ s.findReceipt receipt.digest = .ok none ∧
        result = .ok ⟨status, some (s.receiptRow receipt)⟩ ∧
        Changed receipt s.createAuthoritySchema s' call.command := by
  unfold Deployment.execute at h
  split at h
  · next c hcommand =>
    obtain hunchanged | ⟨receipt, hrest⟩ := executeInitialization_cases hcommand h
    · exact .inl hunchanged
    · exact .inr ⟨receipt, _, by rwa [hcommand]⟩
  · next c hcommand =>
    obtain hunchanged | ⟨receipt, hrest⟩ := executeRotation_cases hcommand h
    · exact .inl hunchanged
    · exact .inr ⟨receipt, _, by rwa [hcommand]⟩

end Execution

end Limitmark.Authority
