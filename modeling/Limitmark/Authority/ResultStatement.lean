import Mathlib.Data.List.Sort
import Limitmark.Authority.OperatorCommand

/-!
# Result statements

`src/lib/authority-result-attestation.ts`: what an authority attests, and the one validator that every
statement passes through. A lifecycle statement is about one receipt; a reconciliation statement is
about the whole authority, seen from the digest of one command.

That a value is a plain record with exactly its fields is a matter of types here. A row of a
statement has the fields of a row of the release table, and is a `ReleaseRow`.
-/

namespace Limitmark.Authority

open Limitmark.Foundations Limitmark.Ingress

def ATTESTATION_VERSION : ℕ := 2

def ATTESTATION_TRUST_EPOCH : ℕ := 1

def ATTESTATION_POLICY_EPOCH : String := "phase5c-i1-epoch-1"

def ATTESTATION_MAX_ROTATION_OVERLAP_MS : ℤ := 5 * 60000

def ATTESTATION_MAX_APPLIED_ACTIVATION_SKEW_MS : ℕ := 5 * 60000

def ATTESTATION_MAX_SEQUENCE : ℕ := 4096

def ATTESTATION_AUTHORITY_IDS : Environment → String
  | .production => "production-public-inquiries-v1"
  | .staging => "staging-public-inquiries-v1"

structure AttestationReceipt where
  digest : String
  version : ℕ
  operation : Operation
  environment : Environment
  authorityId : String
  policyEpoch : String
  operatorKeyFingerprint : String
  sequence : ℕ
  appliedMs : ℤ
  currentReleaseId : String
  nextReleaseId : String
  nextKeyId : String
  activatesMs : ℤ
  retiresMs : Option ℤ
  deriving DecidableEq, Repr

/-- What both kinds of statement say. -/
structure StatementBase where
  version : ℕ := ATTESTATION_VERSION
  trustEpoch : ℕ
  environment : Environment
  authorityId : String
  policyEpoch : String
  digest : String
  observedAtMs : ℤ
  writerKeyFingerprint : String
  deriving DecidableEq, Repr

/-- The outcome of a lifecycle statement is that the command was applied. -/
structure LifecycleStatement extends StatementBase where
  receipt : AttestationReceipt
  deriving DecidableEq, Repr

structure ReconciliationStatement extends StatementBase where
  nonce : String
  initialized : Bool
  coverage : ReconciliationCoverage
  status : ReconciliationStatus
  receipt : Option AttestationReceipt
  releases : List ReleaseRow
  deriving DecidableEq, Repr

inductive ResultStatement
  | lifecycle (statement : LifecycleStatement)
  | reconciliation (statement : ReconciliationStatement)
  deriving DecidableEq, Repr

/-- The errors `attestation-receipt`, `attestation-releases` and `attestation-statement`. -/
inductive StatementFault
  | receipt
  | releases
  | statement
  deriving DecidableEq, Repr

/-! ## Receipts -/

def validateReceipt (outer : StatementBase) (receipt : AttestationReceipt) :
    Except StatementFault Unit := do
  ensure (isLowerHex 64 receipt.digest ∧ receipt.digest = outer.digest ∧ receipt.version = 1 ∧
    receipt.environment = outer.environment ∧ receipt.authorityId = outer.authorityId ∧
    receipt.policyEpoch = ATTESTATION_POLICY_EPOCH ∧
    isLowerHex 64 receipt.operatorKeyFingerprint ∧
    isSafeTime receipt.sequence ∧ 1 ≤ receipt.sequence ∧
    receipt.sequence ≤ ATTESTATION_MAX_SEQUENCE ∧
    isSafeTime receipt.appliedMs ∧ isSafeTime receipt.activatesMs ∧
    receipt.retiresMs.all isSafeTime ∧
    validRelease receipt.currentReleaseId ∧ validRelease receipt.nextReleaseId ∧
    validKeyId receipt.nextKeyId) .receipt
  ensure ((receipt.appliedMs - receipt.activatesMs).natAbs ≤
    ATTESTATION_MAX_APPLIED_ACTIVATION_SKEW_MS) .receipt
  match receipt.operation with
  | .initialization =>
    ensure (receipt.currentReleaseId = receipt.nextReleaseId ∧ receipt.retiresMs = none ∧
      receipt.sequence = 1) .receipt
  | .rotateRelease =>
    ensure (receipt.environment = .production ∧ 2 ≤ receipt.sequence ∧
      receipt.currentReleaseId ≠ receipt.nextReleaseId) .receipt
    match receipt.retiresMs with
    | none => .error .receipt
    | some retiresMs =>
      ensure (receipt.activatesMs < retiresMs ∧
        retiresMs - receipt.activatesMs ≤ ATTESTATION_MAX_ROTATION_OVERLAP_MS) .receipt

/-- With one row no rotation ever happened, and the receipt is that of the first release. -/
def assertOneRowReceiptCoherence (receipt : AttestationReceipt) :
    List ReleaseRow → Except StatementFault Unit
  | [row] =>
    ensure (receipt.operation = .initialization ∧ receipt.sequence = 1 ∧
      row = ⟨receipt.nextReleaseId, receipt.nextKeyId, receipt.activatesMs, none⟩) .statement
  | _ => .ok ()

def attestationReceiptFromLifecycleReceipt (receipt : LifecycleReceipt) : AttestationReceipt where
  digest := receipt.digest
  version := receipt.version
  operation := receipt.operation
  environment := receipt.environment
  authorityId := receipt.authorityId
  policyEpoch := receipt.policyEpoch
  operatorKeyFingerprint := receipt.keyFingerprint
  sequence := receipt.sequence
  appliedMs := receipt.appliedMs
  currentReleaseId := receipt.currentReleaseId
  nextReleaseId := receipt.nextReleaseId
  nextKeyId := receipt.nextKeyId
  activatesMs := receipt.activatesMs
  retiresMs := receipt.retiresMs

/-! ## Release rows -/

def validateReleaseRow (row : ReleaseRow) : Except StatementFault Unit :=
  ensure (validRelease row.releaseId ∧ validKeyId row.keyId ∧ isSafeTime row.activatedMs ∧
    row.retiredMs.all isSafeTime) .releases

/-- By activation, then by release, then by key. -/
def compareReleaseRows (a b : ReleaseRow) : Ordering :=
  (compare a.activatedMs b.activatedMs).then
    ((compare a.releaseId b.releaseId).then (compare a.keyId b.keyId))

/-- One or two rows of an initialised authority, in order, one of them open; the other, if there is
one, overlaps with it briefly. -/
def validateReleaseRows (initialized : Bool) (environment : Environment) (rows : List ReleaseRow) :
    Except StatementFault Unit := do
  ensure (if initialized then
      1 ≤ rows.length ∧ rows.length ≤ (if environment = .staging then 1 else 2)
    else rows.length = 0) .releases
  rows.forM validateReleaseRow
  ensure (rows.IsChain fun a b => compareReleaseRows a b = .lt) .releases
  ensure ((rows.map ReleaseRow.releaseId).Nodup ∧ (rows.map ReleaseRow.keyId).Nodup) .releases
  if ¬ initialized then .ok ()
  else
    let retired := rows.filter fun row => row.retiredMs ≠ none
    match rows.filter fun row => row.retiredMs = none with
    | [unretired] =>
      ensure (¬ retired.any fun row => row.retiredMs.any fun r => r ≤ row.activatedMs) .releases
      match retired with
      | [row] =>
        ensure (row.retiredMs.all fun r => 0 < r - unretired.activatedMs ∧
          r - unretired.activatedMs ≤ ATTESTATION_MAX_ROTATION_OVERLAP_MS) .releases
        ensure (row.activatedMs ≤ unretired.activatedMs) .releases
      | _ => .ok ()
    | _ => .error .releases

/-! ## Statements -/

def validateCommon (base : StatementBase) : Except StatementFault Unit :=
  ensure (base.version = ATTESTATION_VERSION ∧ base.trustEpoch = ATTESTATION_TRUST_EPOCH ∧
    base.authorityId = ATTESTATION_AUTHORITY_IDS base.environment ∧
    base.policyEpoch = ATTESTATION_POLICY_EPOCH ∧ isLowerHex 64 base.digest ∧
    isSafeTime base.observedAtMs ∧ isLowerHex 64 base.writerKeyFingerprint) .statement

/-- What an initialised authority may say of its history, and one that is not. -/
def isStatementState : Bool → ReconciliationCoverage → ReconciliationStatus → Bool
  | false, .complete, .notFound | true, .complete, .exactReceipt | true, .complete, .notFound
  | true, .incomplete, .historyIncomplete => true
  | _, _, _ => false

def validateResultStatement : ResultStatement → Except StatementFault Unit
  | .lifecycle statement => do
    validateCommon statement.toStatementBase
    validateReceipt statement.toStatementBase statement.receipt
  | .reconciliation statement => do
    validateCommon statement.toStatementBase
    ensure (isLowerHex 32 statement.nonce) .statement
    ensure (isStatementState statement.initialized statement.coverage statement.status) .statement
    match statement.status, statement.receipt with
    | .exactReceipt, none => .error .receipt
    | .exactReceipt, some receipt => do
      validateReceipt statement.toStatementBase receipt
      validateReleaseRows statement.initialized statement.environment statement.releases
      assertOneRowReceiptCoherence receipt statement.releases
    | _, some _ => .error .statement
    | _, none => validateReleaseRows statement.initialized statement.environment statement.releases

def makeLifecycleStatement (input : LifecycleStatement) : Except StatementFault LifecycleStatement := do
  let candidate := { input with version := ATTESTATION_VERSION }
  validateResultStatement (.lifecycle candidate)
  return candidate

/-- The rows of a reconciliation statement may be given in any order. -/
def makeReconciliationStatement (input : ReconciliationStatement) :
    Except StatementFault ReconciliationStatement := do
  let candidate := { input with
    version := ATTESTATION_VERSION
    releases := input.releases.insertionSort fun a b => compareReleaseRows a b ≠ .gt }
  validateResultStatement (.reconciliation candidate)
  return candidate

end Limitmark.Authority
