import Limitmark.Foundations.Checks
import Limitmark.Foundations.Table
import Limitmark.Ingress.Protocol

/-!
# The storage of the admission authority

The tables of `workers/admission-service/authority.ts`, the policy constants, and what the code asks
of its storage. Primary keys are the keys of a `Table`; a row that breaks a uniqueness constraint is
refused by its insertion, which throws.

A statement of a transaction may throw for reasons of its own; `Statement` names the statements, and
a call carries the one, if any, at which its storage fails.
-/

namespace Limitmark.Authority

open Limitmark.Defense Limitmark.Foundations Limitmark.Ingress

def ADMISSION_POLICY_EPOCH : String := "phase5c-i1-epoch-1"

def ADMISSION_AUTHORITY_ID : String := "production-public-inquiries-v1"

def STAGING_ADMISSION_AUTHORITY_ID : String := "staging-public-inquiries-v1"

def PRE_PERMIT_LIFETIME_MS : ℤ := 60000

def NONCE_RETENTION_MS : ℤ := 120000

def AUTHORITY_RELEASE_RETENTION_AFTER_RETIRE_MS : ℤ := 12 * 60000

def LIFECYCLE_RECEIPT_CAPACITY : ℕ := 4096

structure Limit where
  limit : ℕ
  windowMs : ℤ
  deriving DecidableEq, Repr

structure PrePolicy where
  client : Limit
  clientBurst : Limit
  global : Limit
  deriving DecidableEq, Repr

structure PostPolicy where
  client : Limit
  global : Limit
  deriving DecidableEq, Repr

structure AdmissionPolicy where
  pre : PrePolicy
  post : PostPolicy
  deriving DecidableEq, Repr

def admissionPolicy : AdmissionPolicy where
  pre := { client := ⟨30, 600000⟩, clientBurst := ⟨3, 60000⟩, global := ⟨300, 60000⟩ }
  post := { client := ⟨5, 600000⟩, global := ⟨100, 60000⟩ }

/-! ## Rows -/

inductive Environment
  | production
  | staging
  deriving DecidableEq, Repr

inductive Operation
  | initialization
  | rotateRelease
  deriving DecidableEq, Repr

inductive Stage
  | pre
  | post
  deriving DecidableEq, Repr

inductive Scope
  | client
  | global
  deriving DecidableEq, Repr

structure MetaRow where
  authorityId : String
  policyEpoch : String
  lastNowMs : ℤ
  deriving DecidableEq, Repr

structure ReleaseRow where
  releaseId : String
  keyId : String
  activatedMs : ℤ
  retiredMs : Option ℤ
  deriving DecidableEq, Repr

/-- A row of `nonces`; its nonce is its key. -/
structure NonceRow where
  releaseId : String
  clientId : String
  requestBinding : String
  permit : String
  claimedMs : ℤ
  permitExpiresMs : ℤ
  retainUntilMs : ℤ
  postConsumed : Bool := false
  deriving DecidableEq, Repr

/-- A row of `observations`; its id is its key. -/
structure Observation where
  stage : Stage
  scope : Scope
  subject : String
  observedAtMs : ℤ
  deriving DecidableEq, Repr

/-- Every field of a receipt that derives from the signed command and the operator's key. -/
structure CommandDerivedReceipt where
  digest : String
  version : ℕ := 1
  operation : Operation
  environment : Environment
  authorityId : String
  policyEpoch : String
  keyFingerprint : String
  currentReleaseId : String
  nextReleaseId : String
  nextKeyId : String
  activatesMs : ℤ
  retiresMs : Option ℤ
  deriving DecidableEq, Repr

/-- A receipt as it is handed to the storage. -/
structure AppliedReceipt extends CommandDerivedReceipt where
  appliedMs : ℤ
  deriving DecidableEq, Repr

structure LifecycleReceipt extends AppliedReceipt where
  sequence : ℕ
  deriving DecidableEq, Repr

/-- The tables; `schema` says whether they exist. -/
structure Storage where
  schema : Bool := false
  authorityMeta : Option MetaRow := none
  activeReleases : List ReleaseRow := []
  nonces : Table String NonceRow := ∅
  observations : Table String Observation := ∅
  lifecycleReceipts : List LifecycleReceipt := []
  lifecycleReceiptCoverage : Bool := false
  deriving DecidableEq

/-- `CREATE TABLE IF NOT EXISTS`, for every table. -/
def Storage.createAuthoritySchema (s : Storage) : Storage := { s with schema := true }

/-- The rows of two storages are the same. -/
structure Storage.SameRows (s t : Storage) : Prop where
  authorityMeta : s.authorityMeta = t.authorityMeta
  activeReleases : s.activeReleases = t.activeReleases
  nonces : s.nonces = t.nonces
  observations : s.observations = t.observations
  lifecycleReceipts : s.lifecycleReceipts = t.lifecycleReceipts
  lifecycleReceiptCoverage : s.lifecycleReceiptCoverage = t.lifecycleReceiptCoverage

theorem Storage.SameRows.refl (s : Storage) : s.SameRows s := ⟨rfl, rfl, rfl, rfl, rfl, rfl⟩

theorem Storage.sameRows_schema (s : Storage) : s.createAuthoritySchema.SameRows s :=
  ⟨rfl, rfl, rfl, rfl, rfl, rfl⟩

/-! ## Failures -/

/-- The messages that mean that a lifecycle command was refused. -/
inductive LifecycleRefusal
  | operatorCommand
  | operatorSignature
  | operatorCommandFreshness
  | initializationPolicy
  | operatorEnvironment
  | authorityAlreadyInitialized
  | releaseRotationPolicy
  | authorityMismatch
  | releaseAlreadyExists
  | releaseRetention
  | releaseState
  | receiptCapacity
  | receiptHistory
  deriving DecidableEq, Repr

inductive AttestationUnavailableReason
  | signerUnconfigured
  | signerMismatch
  | signerNotReady
  | authorityClockInvalid
  | authorityStateUnavailable
  | receiptNotFound
  | historyIncomplete
  | statementInvalid
  | signingFailed
  deriving DecidableEq, Repr

/-- What a call throws: a refusal, the error of a preflight, or anything else. -/
inductive Failure
  | refusal (message : LifecycleRefusal)
  | attestationUnavailable (reason : AttestationUnavailableReason)
  | thrown
  deriving DecidableEq, Repr

/-! ## Statements -/

/-- The statements of the transactions. -/
inductive Statement
  | selectMeta
  | selectActiveRelease
  | updateMeta
  | deleteObservations
  | deleteNonces
  | selectNonce
  | countClientBurst
  | countClient
  | countGlobal
  | insertClientObservation
  | faultAfterObservation
  | insertGlobalObservation
  | insertNonce
  | updateNonce
  | countObservations
  | countRemaining
  | selectReceipt
  | selectCoverage
  | countReceipts
  | insertMeta
  | insertRelease
  | insertCoverage
  | selectSequence
  | insertReceipt
  | selectNext
  | selectCurrent
  | selectReleases
  | deleteRelease
  | selectRemaining
  | updateRelease
  deriving DecidableEq, Repr

/-- A statement throws if it is the one at which the storage fails. -/
def executes (fault : Option Statement) (statement : Statement) : Except Failure Unit :=
  ensure (fault ≠ some statement) .thrown

/-- The row of a query that has exactly one. -/
def exactlyOne {α : Type} : List α → Option α
  | [row] => some row
  | _ => none

/-- `/^[A-Za-z0-9_.:-]{1,128}$/`. -/
def validRelease (value : String) : Bool :=
  1 ≤ value.length && value.length ≤ 128 &&
    value.toList.all fun c => isBase64url c || c = '.' || c = ':'

/-- `/^[A-Za-z0-9_-]{1,64}$/`. -/
def validKeyId (value : String) : Bool :=
  1 ≤ value.length && value.length ≤ 64 && value.toList.all isBase64url

def isOpaque (value : String) (bytes : ℕ) : Bool :=
  (decodeCanonicalBase64url value (some bytes)).isSome

/-! ## Reading and writing the tables -/

namespace Storage

/-- A release is active from its activation until its retirement. -/
def isActiveAt (nowMs : ℤ) (row : ReleaseRow) : Bool :=
  row.activatedMs ≤ nowMs &&
    match row.retiredMs with
    | none => true
    | some retired => nowMs < retired

def insertRelease (row : ReleaseRow) (s : Storage) : Except Failure Storage :=
  if s.activeReleases.any fun other => other.releaseId = row.releaseId || other.keyId = row.keyId then
    .error .thrown
  else .ok { s with activeReleases := s.activeReleases ++ [row] }

def insertObservation (id : String) (row : Observation) (s : Storage) : Except Failure Storage :=
  if (s.observations.lookup id).isSome then .error .thrown
  else .ok { s with observations := s.observations.insert id row }

def insertNonce (nonce : String) (row : NonceRow) (s : Storage) : Except Failure Storage :=
  if (s.nonces.lookup nonce).isSome ∨ 0 < s.nonces.tally fun other => other.permit = row.permit then
    .error .thrown
  else .ok { s with nonces := s.nonces.insert nonce row }

end Storage

@[simp] theorem executes_eq_ok {fault : Option Statement} {statement : Statement} {u : Unit} :
    executes fault statement = .ok u ↔ fault ≠ some statement := ensure_eq_ok _ _ _

theorem exactlyOne_eq_some {α : Type} {rows : List α} {row : α} :
    exactlyOne rows = some row ↔ rows = [row] := by
  unfold exactlyOne
  split
  · simp
  · next h =>
    simp only [false_iff, reduceCtorEq]
    exact fun hrows => h row hrows

end Limitmark.Authority
