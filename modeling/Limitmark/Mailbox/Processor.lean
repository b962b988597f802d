import Limitmark.Foundations.Run
import Limitmark.Mailbox.DispatchGuard

/-!
# The mailbox processor

`processSlot` of `workers/lifecycle-mailbox/processor.ts` with the reads and writes of
`workers/lifecycle-mailbox/wire.ts`: an artifact is read from its slot and handed to the guard, and what
the guard answers is published under the key of its digest, as the signed envelope or as an unsigned
diagnostic.

Scheduled invocations overlap. Each one is suspended at an `await`, and the reads and writes of the
buckets are the steps of the machine. What the guard answers is part of the step; it may also fail, and
so may every access to a bucket.
-/

namespace Limitmark.Mailbox

open Limitmark.Authority Limitmark.Defense Limitmark.Foundations

def RESULT_LIMIT : ℕ := 8192

/-- An object of the request bucket: its stated size, and its body. -/
structure RequestObject where
  size : ℕ
  chunks : List (List UInt8)
  deriving DecidableEq, Repr

/-- An object of the result bucket; `signed` is the marker `SIGNED_RESULT_METADATA`. -/
structure ResultObject where
  bytes : List UInt8
  signed : Bool := false
  deriving DecidableEq, Repr

/-! ## The texts -/

def slotKey : LifecycleOperation → String
  | .initialization => "initialize.json"
  | .rotateRelease => "rotate-release.json"

def GuardReason.text : GuardReason → String
  | .configuration => "configuration"
  | .invalidCommand => "invalid-command"
  | .authorityHistory => "authority-history"
  | .authorityRead => "authority-read"
  | .consumed => "consumed"
  | .activeOrCapacity => "active-or-capacity"
  | .claimDurability => "claim-durability"
  | .preDispatch => "pre-dispatch"
  | .expiredAfterClaim => "expired-after-claim"
  | .dispatchAmbiguous => "dispatch-ambiguous"
  | .resultDurability => "result-durability"
  | .attestationAmbiguous => "attestation-ambiguous"
  | .authority reason => reason

/-- The JSON text of `unsignedDiagnostic(digest, status, reason)`. -/
def unsignedDiagnostic (digest status : String) (reason : Option String) : String :=
  "\x7b\"version\":1,\"digest\":" ++ jsonString digest ++ ",\"status\":" ++ jsonString status ++
    (match reason with
      | none => ""
      | some reason => ",\"reason\":" ++ jsonString reason) ++ "\x7d"

/-- What an outcome of the guard asks to be published; nothing for a temporary refusal. -/
inductive Publication
  | signed (envelope : List UInt8)
  | diagnostic (value : String)
  deriving DecidableEq, Repr

def GuardOutcome.publication (outcome : GuardOutcome) : Option Publication :=
  match outcome.status with
  | .attested _ envelope => some (.signed envelope)
  | .unavailable _ => none
  | .refused reason =>
    if reason = some .consumed then none
    else some (.diagnostic (unsignedDiagnostic outcome.digest "REFUSED" (reason.map GuardReason.text)))
  | .unconfirmed reason =>
    if reason = .consumed then none
    else some (.diagnostic (unsignedDiagnostic outcome.digest "UNCONFIRMED" (some reason.text)))

/-! ## Bounded objects -/

/-- The body of an object, if there is one; an object over the bound is an error. -/
def readBounded (object : Option RequestObject) (maximum : ℕ) : Except String (Option (List UInt8)) :=
  match object with
  | none => .ok none
  | some object =>
    if maximum < object.size then .error "object-size"
    else do
      let bytes ← object.chunks.foldlM (fun bytes chunk =>
        if maximum < bytes.length + chunk.length then .error "object-size" else .ok (bytes ++ chunk)) []
      return some bytes

def boundedResult (value : String) : Except String (List UInt8) :=
  if RESULT_LIMIT < (asciiBytes value).length then .error "result-size" else .ok (asciiBytes value)

/-- What a publication writes, after its `head` has found `existing`; `none` if it writes nothing. -/
def Publication.object (existing : Option ResultObject) : Publication → Option ResultObject
  | .signed envelope =>
    if existing.any ResultObject.signed then none else some ⟨envelope, true⟩
  | .diagnostic value =>
    if existing.isSome then none
    else
      match boundedResult value with
      | .error _ => none
      | .ok bytes => some ⟨bytes, false⟩

/-! ## Invocations -/

/-- A suspended invocation: what it awaits. -/
inductive Invocation
  | reading (operation : LifecycleOperation)
  | calling (operation : LifecycleOperation) (artifact : String)
  | heading (key : String) (publication : Publication)
  | putting (key : String) (object : ResultObject)
  deriving DecidableEq, Repr

structure Processor where
  requests : Table String RequestObject := ∅
  results : Table String ResultObject := ∅
  invocations : Table ℕ Invocation := ∅
  nextInvocation : ℕ := 0

/-- A step of the processor: an artifact is uploaded or removed, an invocation begins, or what it awaits
settles. An access that fails may have taken effect (`landed`). -/
inductive ProcessorInput
  | upload (key : String) (object : Option RequestObject)
  | processSlot (operation : LifecycleOperation)
  | get (id : ℕ)
  | answer (id : ℕ) (outcome : GuardOutcome)
  | head (id : ℕ)
  | put (id : ℕ)
  | fail (id : ℕ) (landed : Bool)

namespace Processor

def suspend (id : ℕ) (invocation : Invocation) (m : Processor) : Processor :=
  { m with invocations := m.invocations.insert id invocation }

def finish (id : ℕ) (m : Processor) : Processor := { m with invocations := m.invocations.erase id }

def store (key : String) (object : ResultObject) (m : Processor) : Processor :=
  { m with results := m.results.insert key object }

/-- The artifact that an object holds, by the reading of UTF-8 text. -/
def artifactOf (decode : List UInt8 → Option String) (object : Option RequestObject) : Option String :=
  match readBounded object 4096 with
  | .error _ => none
  | .ok none => none
  | .ok (some bytes) => (decode bytes).filter fun artifact => artifact.toList.head? ≠ some '\uFEFF'

def resultKey (digest : String) : String := "lifecycle/" ++ digest ++ ".json"

/-- The guard has answered. -/
def answered (id : ℕ) (outcome : GuardOutcome) (m : Processor) : Processor :=
  if ¬ isLowerHex 64 outcome.digest then m.finish id
  else
    match outcome.publication with
    | none => m.finish id
    | some (.signed envelope) =>
      if ¬ isOpaqueEnvelope envelope then m.finish id
      else m.suspend id (.heading (resultKey outcome.digest) (.signed envelope))
    | some (.diagnostic value) =>
      m.suspend id (.heading (resultKey outcome.digest) (.diagnostic value))

/-- `head` has answered. -/
def headed (id : ℕ) (key : String) (publication : Publication) (m : Processor) : Processor :=
  match publication.object (m.results.lookup key) with
  | none => m.finish id
  | some object => m.suspend id (.putting key object)

/-- The output is the artifact that the guard is called with. -/
def step (decode : List UInt8 → Option String) (m : Processor) :
    ProcessorInput → Processor × Option String
  | .upload key none => ({ m with requests := m.requests.erase key }, none)
  | .upload key (some object) => ({ m with requests := m.requests.insert key object }, none)
  | .processSlot operation =>
    ({ m.suspend m.nextInvocation (.reading operation) with nextInvocation := m.nextInvocation + 1 },
      none)
  | .get id =>
    match m.invocations.lookup id with
    | some (.reading operation) =>
      match artifactOf decode (m.requests.lookup (slotKey operation)) with
      | none => (m.finish id, none)
      | some artifact => (m.suspend id (.calling operation artifact), some artifact)
    | _ => (m, none)
  | .answer id outcome =>
    match m.invocations.lookup id with
    | some (.calling ..) => (m.answered id outcome, none)
    | _ => (m, none)
  | .head id =>
    match m.invocations.lookup id with
    | some (.heading key publication) => (m.headed id key publication, none)
    | _ => (m, none)
  | .put id =>
    match m.invocations.lookup id with
    | some (.putting key object) => ((m.store key object).finish id, none)
    | _ => (m, none)
  | .fail id landed =>
    match m.invocations.lookup id with
    | some (.putting key object) =>
      (if landed then (m.store key object).finish id else m.finish id, none)
    | _ => (m.finish id, none)

end Processor

end Limitmark.Mailbox
