import Limitmark.Authority.ResultStatement
import Limitmark.Authority.StrictJson
import Limitmark.Foundations.JsonCoercion
import Limitmark.Ingress.IngressPayload

/-!
# The attestation codec

The canonical encoding of `src/lib/authority-result-attestation.ts`: a statement is a tuple, a receipt
and a release row are tuples within it, and an envelope is the text of a statement and of a signature.

The parser takes the fields of a tuple as they come and then validates them. It looks at the state of
a reconciliation statement through `String(value)`, so the coverage and the status of a parsed
statement are JSON values (`ParsedReconciliation`).
-/

namespace Limitmark.Authority

open Limitmark.Foundations Limitmark.Ingress

/-- It ends with a single NUL. -/
def ATTESTATION_SIGNING_DOMAIN : String := "limitmark:authority-result-attestation:ed25519:v2\x00"

def ATTESTATION_MAX_ENVELOPE_BYTES : ℕ := 8192

/-- The error `attestation-envelope`, those of the validator, and one without a code of the protocol. -/
inductive AttestationFault
  | envelope
  | statement (fault : StatementFault)
  | thrown
  deriving DecidableEq, Repr

def ReconciliationCoverage.text : ReconciliationCoverage → String
  | .complete => "COMPLETE"
  | .incomplete => "INCOMPLETE"

def ReconciliationStatus.text : ReconciliationStatus → String
  | .exactReceipt => "EXACT_RECEIPT"
  | .notFound => "NOT_FOUND"
  | .historyIncomplete => "HISTORY_INCOMPLETE"

/-! ## Statements as they are parsed -/

structure ParsedReconciliation extends StatementBase where
  nonce : String
  initialized : Bool
  coverage : Json
  status : Json
  receipt : Option AttestationReceipt
  releases : List ReleaseRow

inductive ParsedStatement
  | lifecycle (statement : LifecycleStatement)
  | reconciliation (statement : ParsedReconciliation)

structure ParsedEnvelope where
  statement : ParsedStatement
  signature : String

/-- The statement with its coverage and its status within so many arrays of one element. -/
def ReconciliationStatement.respelled (s : ReconciliationStatement) (m n : ℕ) :
    ParsedReconciliation where
  toStatementBase := s.toStatementBase
  nonce := s.nonce
  initialized := s.initialized
  coverage := (Json.text s.coverage.text).within m
  status := (Json.text s.status.text).within n
  receipt := s.receipt
  releases := s.releases

/-- A statement as it is parsed. -/
def ResultStatement.parsed : ResultStatement → ParsedStatement
  | .lifecycle s => .lifecycle s
  | .reconciliation s => .reconciliation (s.respelled 0 0)

structure ResultAttestationEnvelope where
  statement : ResultStatement
  signature : String

def ResultAttestationEnvelope.parsed (envelope : ResultAttestationEnvelope) : ParsedEnvelope where
  statement := envelope.statement.parsed
  signature := envelope.signature

/-! ## Tuples -/

def timeOrNull : Option ℤ → Json
  | none => .null
  | some t => .int t

/-- The fields of a receipt, in their order. -/
def receiptFields (r : AttestationReceipt) : List Json :=
  [.text r.digest, .int r.version, .text r.operation.text, .text r.environment.text,
    .text r.authorityId, .text r.policyEpoch, .text r.operatorKeyFingerprint, .int r.sequence,
    .int r.appliedMs, .text r.currentReleaseId, .text r.nextReleaseId, .text r.nextKeyId,
    .int r.activatesMs, timeOrNull r.retiresMs]

def releaseRowFields (row : ReleaseRow) : List Json :=
  [.text row.releaseId, .text row.keyId, .int row.activatedMs, timeOrNull row.retiredMs]

def receiptOrNull : Option AttestationReceipt → Json
  | none => .null
  | some receipt => .arr (receiptFields receipt)

def snapshotStatementTuple : ParsedStatement → Json
  | .lifecycle s =>
    .arr [.int s.version, .int s.trustEpoch, .text s.environment.text, .text s.authorityId,
      .text s.policyEpoch, .text "lifecycle", .text s.digest, .text "APPLIED",
      .arr (receiptFields s.receipt), .int s.observedAtMs, .text s.writerKeyFingerprint]
  | .reconciliation s =>
    .arr [.int s.version, .int s.trustEpoch, .text s.environment.text, .text s.authorityId,
      .text s.policyEpoch, .text "reconciliation", .text s.digest, .text s.nonce,
      .bool s.initialized, s.coverage, s.status, receiptOrNull s.receipt,
      .arr (s.releases.map fun row => .arr (releaseRowFields row)), .int s.observedAtMs,
      .text s.writerKeyFingerprint]

/-! ## The fields of a tuple -/

def Environment.ofJson (v : Json) : Option Environment :=
  if v.text? = some Environment.production.text then some .production
  else if v.text? = some Environment.staging.text then some .staging
  else none

def Operation.ofJson (v : Json) : Option Operation :=
  if v.text? = some Operation.initialization.text then some .initialization
  else if v.text? = some Operation.rotateRelease.text then some .rotateRelease
  else none

def timeOrNull? : Json → Option (Option ℤ)
  | .null => some none
  | v => v.int?.map some

def readBase (version trustEpoch environment authorityId policyEpoch digest observedAtMs
    writerKeyFingerprint : Json) : Option StatementBase := do
  let version ← version.nat?
  let trustEpoch ← trustEpoch.nat?
  let environment ← Environment.ofJson environment
  let authorityId ← authorityId.text?
  let policyEpoch ← policyEpoch.text?
  let digest ← digest.text?
  let observedAtMs ← observedAtMs.int?
  let writerKeyFingerprint ← writerKeyFingerprint.text?
  return ⟨version, trustEpoch, environment, authorityId, policyEpoch, digest, observedAtMs,
    writerKeyFingerprint⟩

def readReceipt : List Json → Option AttestationReceipt
  | [digest, version, operation, environment, authorityId, policyEpoch, operatorKeyFingerprint,
      sequence, appliedMs, currentReleaseId, nextReleaseId, nextKeyId, activatesMs, retiresMs] => do
    let digest ← digest.text?
    let version ← version.nat?
    let operation ← Operation.ofJson operation
    let environment ← Environment.ofJson environment
    let authorityId ← authorityId.text?
    let policyEpoch ← policyEpoch.text?
    let operatorKeyFingerprint ← operatorKeyFingerprint.text?
    let sequence ← sequence.nat?
    let appliedMs ← appliedMs.int?
    let currentReleaseId ← currentReleaseId.text?
    let nextReleaseId ← nextReleaseId.text?
    let nextKeyId ← nextKeyId.text?
    let activatesMs ← activatesMs.int?
    let retiresMs ← timeOrNull? retiresMs
    return ⟨digest, version, operation, environment, authorityId, policyEpoch,
      operatorKeyFingerprint, sequence, appliedMs, currentReleaseId, nextReleaseId, nextKeyId,
      activatesMs, retiresMs⟩
  | _ => none

def readReleaseRow : List Json → Option ReleaseRow
  | [releaseId, keyId, activatedMs, retiredMs] => do
    let releaseId ← releaseId.text?
    let keyId ← keyId.text?
    let activatedMs ← activatedMs.int?
    let retiredMs ← timeOrNull? retiredMs
    return ⟨releaseId, keyId, activatedMs, retiredMs⟩
  | _ => none

/-! ## The parser of tuples -/

/-- A field that is of its type. -/
def typed {α : Type} (value : Option α) (fault : StatementFault) : Except AttestationFault α :=
  match value with
  | some a => .ok a
  | none => .error (.statement fault)

def validated (check : Except StatementFault Unit) : Except AttestationFault Unit :=
  match check with
  | .ok _ => .ok ()
  | .error fault => .error (.statement fault)

/-- The elements of a tuple of so many. -/
def recordFromTuple (size : ℕ) (fault : StatementFault) : Json → Except AttestationFault (List Json)
  | .arr values =>
    if values.length = size then .ok values else .error (.statement fault)
  | _ => .error (.statement fault)

def parseReceipt (base : StatementBase) (fields : List Json) :
    Except AttestationFault AttestationReceipt := do
  let receipt ← typed (readReceipt fields) .receipt
  validated (validateReceipt base receipt)
  return receipt

/-- `initialized/coverage/status`; a value without a text throws. -/
def stateText (initialized : Bool) (coverage status : Json) : Except AttestationFault JsString :=
  match coverage.toText, status.toText with
  | some coverage, some status =>
    .ok (JsString.ofString (if initialized then "true" else "false") ++
      0x2F :: coverage ++ 0x2F :: status)
  | _, _ => .error .thrown

def RECEIPT_STATE : JsString := .ofString "true/COMPLETE/EXACT_RECEIPT"

def STATEMENT_STATES : List JsString :=
  [.ofString "false/COMPLETE/NOT_FOUND", RECEIPT_STATE, .ofString "true/COMPLETE/NOT_FOUND",
    .ofString "true/INCOMPLETE/HISTORY_INCOMPLETE"]

/-- A receipt stands in a state with a receipt, and in no other. -/
def parseStateReceipt (base : StatementBase) (state : JsString) (receipt : Option (List Json)) :
    Except AttestationFault (Option AttestationReceipt) :=
  match receipt with
  | some fields =>
    if state = RECEIPT_STATE then (parseReceipt base fields).map some
    else .error (.statement .statement)
  | none => if state = RECEIPT_STATE then .error (.statement .receipt) else .ok none

def parseLifecycle (base : Option StatementBase) (outcome receipt : Json) :
    Except AttestationFault ParsedStatement := do
  let fields ← recordFromTuple 14 .receipt receipt
  let base ← typed base .statement
  validated (validateCommon base)
  ensure (isText outcome "APPLIED") (.statement .statement)
  let receipt ← parseReceipt base fields
  return .lifecycle { toStatementBase := base, receipt }

/-- The fields of a receipt's tuple, unless it is null. -/
def receiptTuple (receipt : Json) : Except AttestationFault (Option (List Json)) :=
  if receipt.isNull then .ok none else (recordFromTuple 14 .receipt receipt).map some

def releaseRowTuples : Json → Except AttestationFault (List (List Json))
  | .arr rows => rows.mapM (recordFromTuple 4 .releases)
  | _ => .error (.statement .releases)

/-- The validator goes through the fields in the order of this parser. -/
def parseReconciliation (base : Option StatementBase)
    (nonce initialized coverage status receipt releases : Json) :
    Except AttestationFault ParsedStatement := do
  let fields ← receiptTuple receipt
  let rows ← releaseRowTuples releases
  let base ← typed base .statement
  validated (validateCommon base)
  let nonce ← typed nonce.text? .statement
  ensure (isLowerHex 32 nonce) (.statement .statement)
  let initialized ← typed initialized.bool? .statement
  let state ← stateText initialized coverage status
  ensure (state ∈ STATEMENT_STATES) (.statement .statement)
  let receipt ← parseStateReceipt base state fields
  let releases ← typed (rows.mapM readReleaseRow) .releases
  validated (validateReleaseRows initialized base.environment releases)
  validated (receipt.elim (.ok ()) fun receipt => assertOneRowReceiptCoherence receipt releases)
  return .reconciliation
    { toStatementBase := base, nonce, initialized, coverage, status, receipt, releases }

def parseResultStatementTuple : Json → Except AttestationFault ParsedStatement
  | .arr [version, trustEpoch, environment, authorityId, policyEpoch, kind, digest, outcome, receipt,
      observedAtMs, writerKeyFingerprint] =>
    if isText kind "lifecycle" then
      parseLifecycle (readBase version trustEpoch environment authorityId policyEpoch digest
        observedAtMs writerKeyFingerprint) outcome receipt
    else .error (.statement .statement)
  | .arr [version, trustEpoch, environment, authorityId, policyEpoch, kind, digest, nonce,
      initialized, coverage, status, receipt, releases, observedAtMs, writerKeyFingerprint] =>
    if isText kind "reconciliation" then
      parseReconciliation (readBase version trustEpoch environment authorityId policyEpoch digest
        observedAtMs writerKeyFingerprint) nonce initialized coverage status receipt releases
    else .error (.statement .statement)
  | _ => .error (.statement .statement)

/-! ## The canonical encoding -/

mutual

def encodeTupleJson : Json → Except AttestationFault (List Char)
  | .null => .ok (Json.write .null)
  | .bool b => .ok (Json.write (.bool b))
  | .str s => .ok (Json.write (.str s))
  | .num q =>
    if (Json.num q).int?.any isSafeTime then .ok (Json.write (.num q))
    else .error (.statement .statement)
  | .arr values => (encodeElements values).map fun text => '[' :: text ++ [']']
  | .obj _ => .error (.statement .statement)

def encodeElements : List Json → Except AttestationFault (List Char)
  | [] => .ok []
  | [v] => encodeTupleJson v
  | v :: w :: rest =>
    (encodeTupleJson v).bind fun text =>
      (encodeElements (w :: rest)).map fun texts => text ++ ',' :: texts

end

/-- The tuple of a statement that is valid. -/
def canonicalTuple (statement : ParsedStatement) : Except AttestationFault Json := do
  let _ ← parseResultStatementTuple (snapshotStatementTuple statement)
  return snapshotStatementTuple statement

def canonicalStatementText (statement : ParsedStatement) : Except AttestationFault String := do
  let tuple ← canonicalTuple statement
  let text ← encodeTupleJson tuple
  return String.ofList text

def signingBytesFromText (statementText : String) : List UInt8 :=
  utf8 (ATTESTATION_SIGNING_DOMAIN ++ statementText)

/-- This is what is signed. -/
def attestationSigningBytes (statement : ParsedStatement) : Except AttestationFault (List UInt8) :=
  (canonicalStatementText statement).map signingBytesFromText

/-- A signature is the canonical text of 64 bytes. -/
def isSignatureText (signature : String) : Bool :=
  (decodeCanonicalBase64url signature (some 64)).isSome

def envelopeText (statementText signature : String) : String :=
  "\x7b\"statement\":" ++ statementText ++ ",\"signature\":" ++ (Json.text signature).stringify ++
    "\x7d"

def encodeResultAttestationEnvelope (envelope : ParsedEnvelope) :
    Except AttestationFault (List UInt8) := do
  ensure (isSignatureText envelope.signature) .envelope
  let text ← canonicalStatementText envelope.statement
  let bytes := utf8 (envelopeText text envelope.signature)
  ensure (bytes.length ≤ ATTESTATION_MAX_ENVELOPE_BYTES) .envelope
  return bytes

/-- The statement and the signature of a record that has no other fields. -/
def readEnvelope (value : Json) : Except AttestationFault (Json × Json) :=
  match value with
  | .obj members =>
    match Json.member? "statement" members, Json.member? "signature" members with
    | some statement, some signature =>
      if members.length = 2 then .ok (statement, signature) else .error .envelope
    | _, _ => .error .envelope
  | _ => .error .envelope

def parseResultAttestationEnvelope (bytes : List UInt8) : Except AttestationFault ParsedEnvelope := do
  ensure (1 ≤ bytes.length ∧ bytes.length ≤ ATTESTATION_MAX_ENVELOPE_BYTES) .envelope
  match decodeUtf8 bytes with
  | none => .error .envelope
  | some source => do
    ensure (source.toList.head? ≠ some '\uFEFF') .envelope
    match parseStrictJsonText source with
    | none => .error .envelope
    | some value => do
      let (statement, signature) ← readEnvelope value
      match signature.text? with
      | none => .error .envelope
      | some signature => do
        ensure (isSignatureText signature) .envelope
        let statement ← parseResultStatementTuple statement
        let canonical ← encodeResultAttestationEnvelope ⟨statement, signature⟩
        ensure (canonical = bytes) .envelope
        return ⟨statement, signature⟩

end Limitmark.Authority
