import Limitmark.Foundations.Journal
import Limitmark.Mailbox.SealedArtifact

/-!
# The lifecycle dispatch guard

`LifecycleDispatchGuard` of `workers/lifecycle-mailbox/dispatch-guard.ts`: a digest is claimed before its
command is dispatched, a latch names the one that is active, and a settlement releases the latch.

The guard runs any number of calls, each suspended at an `await`. A turn resumes one of them, with the
way in which what it awaits settles, and runs it to its next `await` or to its answer; what the
executor and the reader answer is part of the turn. The ledger is a `Journal`: its writes are durable
once a later `sync` is acknowledged, and a crash ends every call.
-/

namespace Limitmark.Mailbox

open Limitmark.Authority Limitmark.Foundations Limitmark.Ingress

def GUARD_CAPACITY : ℕ := 4096

inductive ClaimStatus
  | claimed
  | success
  | alreadyApplied
  | refused
  | unconfirmed
  deriving DecidableEq, Repr

structure Claim where
  digest : String
  operation : LifecycleOperation
  status : ClaimStatus
  deriving DecidableEq, Repr

structure Settlement where
  digest : String
  sequence : ℕ
  settledMs : ℤ
  deriving DecidableEq, Repr

/-- The tables of the guard. -/
structure Ledger where
  claims : List Claim := []
  latch : Option String := none
  settlements : List Settlement := []
  deriving DecidableEq, Repr

inductive GuardReason
  | configuration
  | invalidCommand
  | authorityHistory
  | authorityRead
  | consumed
  | activeOrCapacity
  | claimDurability
  | preDispatch
  | expiredAfterClaim
  | dispatchAmbiguous
  | resultDurability
  | attestationAmbiguous
  | authority (reason : String)
  deriving DecidableEq, Repr

inductive GuardStatus
  | attested (relayDisposition : RelayDisposition) (envelope : List UInt8)
  | refused (reason : Option GuardReason := none)
  | unavailable (reason : GuardReason)
  | unconfirmed (reason : GuardReason)
  deriving DecidableEq, Repr

structure GuardOutcome where
  digest : String
  status : GuardStatus
  deriving DecidableEq, Repr

/-- What the reader reports of a digest to a settlement. -/
structure Snapshot where
  status : String
  receiptDigest : Option String
  environment : String
  authorityId : String
  policyEpoch : String
  deriving DecidableEq, Repr

/-- What a guard is deployed with. -/
structure GuardEnvironment where
  subtle : Subtle
  operatorPublicKey : String
  lifecycleEnvironment : String := "production"
  readArtifact : String → Option SealedLifecycleArtifact

/-! ## The ledger -/

namespace Ledger

def isClaimed (digest : String) (l : Ledger) : Bool := l.claims.any fun c => c.digest = digest

def isSettled (digest : String) (l : Ledger) : Bool := l.settlements.any fun s => s.digest = digest

inductive ClaimResult
  | won (ledger : Ledger)
  | consumed
  | activeOrCapacity

/-- The transaction of a claim: the digest is consumed and the latch names it. -/
def claim (digest : String) (operation : LifecycleOperation) (l : Ledger) : ClaimResult :=
  if l.isClaimed digest then .consumed
  else if l.latch.isSome ∨ GUARD_CAPACITY ≤ l.claims.length then .activeOrCapacity
  else .won { l with claims := l.claims ++ [⟨digest, operation, .claimed⟩], latch := some digest }

/-- `UPDATE claims SET status=? WHERE digest=?`. -/
def record (digest : String) (status : ClaimStatus) (l : Ledger) : Ledger :=
  { l with claims := l.claims.map fun c => if c.digest = digest then { c with status } else c }

/-- `COALESCE(MAX(sequence),0)+1`. -/
def nextSequence (l : Ledger) : ℕ := (l.settlements.map Settlement.sequence).foldr max 0 + 1

/-- The transaction of a settlement; `none` if it throws. -/
def settle (digest : String) (nowMs : ℤ) (l : Ledger) : Option Ledger :=
  if l.isSettled digest then some l
  else if l.latch ≠ some digest then some l
  else if GUARD_CAPACITY < l.nextSequence then none
  else some { l with
    settlements := l.settlements ++ [⟨digest, l.nextSequence, nowMs⟩]
    latch := none }

end Ledger

/-! ## Calls -/

/-- A suspended call: what it awaits, and what it holds. -/
inductive Call
  | verifying (sealedJson : String) (operation : LifecycleOperation)
      (artifact : SealedLifecycleArtifact)
  | digesting (sealedJson : String) (operation : LifecycleOperation)
      (artifact : SealedLifecycleArtifact)
  | probing (sealedJson : String) (operation : LifecycleOperation) (digest : String)
  | claiming (sealedJson : String) (operation : LifecycleOperation) (digest : String) (position : ℕ)
  | claimed (sealedJson : String) (operation : LifecycleOperation) (digest : String)
  | dispatching (operation : LifecycleOperation) (digest : String)
  | executing (digest : String)
  | recording (digest : String) (response : LifecycleRelayResult) (position : ℕ)
  | confirming (position : ℕ)
  | inspecting (digest : String)
  | settling (digest : String) (position : ℕ)
  deriving DecidableEq, Repr

/-- How the promise that a call awaits settles; the reading of the clock is the next one that the call
makes, and a ledger statement it executes then may throw. -/
inductive Resumption
  | rejected
  | resolved (nowMs : ℤ)
  | relayed (answer : LifecycleRelayResult) (fault : Bool := false)
  | inspected (snapshot : Snapshot) (nowMs : ℤ) (fault : Bool := false)
  deriving DecidableEq, Repr

inductive GuardAnswer
  | processed (outcome : GuardOutcome)
  | settled (settled : Bool)
  deriving DecidableEq, Repr

structure GuardOutput where
  dispatched : Option String := none
  answer : Option GuardAnswer := none
  deriving DecidableEq, Repr

inductive GuardInput
  | process (operation : LifecycleOperation) (sealedJson : String) (nowMs : ℤ)
  | settle (digest : String)
  | resume (id : ℕ) (resumption : Resumption)
  | crash (kept : ℕ)

structure Guard where
  ledger : Journal Ledger := { durable := {} }
  calls : Table ℕ Call := ∅
  nextCall : ℕ := 0

namespace Guard

def current (g : Guard) : Ledger := g.ledger.current

def start (call : Call) (g : Guard) : Guard × GuardOutput :=
  ({ g with calls := g.calls.insert g.nextCall call, nextCall := g.nextCall + 1 }, {})

def suspend (id : ℕ) (call : Call) (g : Guard) : Guard × GuardOutput :=
  ({ g with calls := g.calls.insert id call }, {})

def finish (id : ℕ) (answer : GuardAnswer) (g : Guard) : Guard × GuardOutput :=
  ({ g with calls := g.calls.erase id }, { answer := some answer })

def conclude (id : ℕ) (digest : String) (status : GuardStatus) (g : Guard) : Guard × GuardOutput :=
  g.finish id (.processed ⟨digest, status⟩)

def write (ledger : Ledger) (g : Guard) : Guard := { g with ledger := g.ledger.write ledger }

def acknowledge (position : ℕ) (g : Guard) : Guard :=
  { g with ledger := g.ledger.acknowledge position }

variable (env : GuardEnvironment)

def parse (sealedJson : String) (operation : LifecycleOperation) (nowMs : ℤ) :
    Option SealedLifecycleArtifact :=
  parseSealedLifecycleArtifact env.readArtifact sealedJson operation nowMs

/-- The start of `process`, up to the verification of the signature. -/
def process (operation : LifecycleOperation) (sealedJson : String) (nowMs : ℤ) (g : Guard) :
    Guard × GuardOutput :=
  if env.lifecycleEnvironment ≠ "production" then
    (g, { answer := some (.processed ⟨"", .unavailable .configuration⟩) })
  else
    match parse env sealedJson operation nowMs with
    | none => (g, { answer := some (.processed ⟨"", .refused (some .invalidCommand)⟩) })
    | some artifact => g.start (.verifying sealedJson operation artifact)

/-- The start of `settle`, up to the read of the authority. -/
def settle (digest : String) (g : Guard) : Guard × GuardOutput :=
  if ¬ isLowerHex 64 digest ∨ ¬ g.current.isClaimed digest then
    (g, { answer := some (.settled false) })
  else if g.current.isSettled digest then g.start (.confirming g.ledger.position)
  else if g.current.latch ≠ some digest then (g, { answer := some (.settled false) })
  else g.start (.inspecting digest)

/-- After the probe: the claim of a digest that the authority does not know. -/
def probed (id : ℕ) (sealedJson : String) (operation : LifecycleOperation) (digest : String)
    (answer : LifecycleRelayResult) (fault : Bool) (g : Guard) : Guard × GuardOutput :=
  match normalizeLifecycleRelayResult answer with
  | .attested _ envelope => g.conclude id digest (.attested .alreadyApplied envelope)
  | .unavailable "receipt-not-found" =>
    if fault then g.conclude id digest (.unconfirmed .claimDurability)
    else
      match g.current.claim digest operation with
      | .consumed => g.conclude id digest (.unconfirmed .consumed)
      | .activeOrCapacity => g.conclude id digest (.unavailable .activeOrCapacity)
      | .won ledger =>
        (g.write ledger).suspend id
          (.claiming sealedJson operation digest (g.write ledger).ledger.position)
  | _ => g.conclude id digest (.unavailable .authorityHistory)

def claimStatusOf : LifecycleRelayResult → ClaimStatus
  | .attested .applied _ => .success
  | .attested .alreadyApplied _ => .alreadyApplied
  | .refused => .refused
  | _ => .unconfirmed

/-- After the executor's answer: the note of it in the ledger. -/
def executed (id : ℕ) (digest : String) (answer : LifecycleRelayResult) (fault : Bool) (g : Guard) :
    Guard × GuardOutput :=
  let response := normalizeLifecycleRelayResult answer
  if fault then g.conclude id digest (.unconfirmed .resultDurability)
  else
    let g := g.write (g.current.record digest (claimStatusOf response))
    g.suspend id (.recording digest response g.ledger.position)

def statusOf : LifecycleRelayResult → GuardStatus
  | .attested relayDisposition envelope => .attested relayDisposition envelope
  | .refused => .refused
  | .ambiguous _ => .unconfirmed .attestationAmbiguous
  | .unavailable reason =>
    .unconfirmed (.authority (String.ofList (("authority-" ++ reason).toList.take 64)))
  | .unconfirmed => .unconfirmed .dispatchAmbiguous

/-- A snapshot names the exact receipt of a digest. -/
def isExactReceipt (digest : String) (snapshot : Snapshot) : Bool :=
  snapshot.status = "EXACT_RECEIPT" && snapshot.receiptDigest = some digest &&
    snapshot.environment = "production" &&
    snapshot.authorityId = "production-public-inquiries-v1" &&
    snapshot.policyEpoch = "phase5c-i1-epoch-1"

/-- After the read of the authority: the settlement, if the receipt is there. -/
def inspected (id : ℕ) (digest : String) (snapshot : Snapshot) (nowMs : ℤ) (fault : Bool)
    (g : Guard) : Guard × GuardOutput :=
  if ¬ isExactReceipt digest snapshot ∨ fault then g.finish id (.settled false)
  else
    match g.current.settle digest nowMs with
    | none => g.finish id (.settled false)
    | some ledger =>
      let g := g.write ledger
      g.suspend id (.settling digest g.ledger.position)

/-- A call goes on; a promise that does not settle in this way leaves it where it is. -/
def resume (id : ℕ) (call : Call) (resumption : Resumption) (g : Guard) : Guard × GuardOutput :=
  match call, resumption with
  | .verifying sealedJson operation artifact, .resolved _ =>
    match verifyOperatorCommand env.subtle artifact.command artifact.signature
      env.operatorPublicKey with
    | .error _ => g.conclude id "" (.refused (some .invalidCommand))
    | .ok _ => g.suspend id (.digesting sealedJson operation artifact)
  | .verifying .., .rejected => g.conclude id "" (.refused (some .invalidCommand))
  | .digesting sealedJson operation artifact, .resolved nowMs =>
    match commandDigest env.subtle artifact.command with
    | .error _ => g.conclude id "" (.refused (some .invalidCommand))
    | .ok digest =>
      match parse env sealedJson operation nowMs with
      | none => g.conclude id digest (.refused (some .invalidCommand))
      | some _ => g.suspend id (.probing sealedJson operation digest)
  | .digesting .., .rejected => g.conclude id "" (.refused (some .invalidCommand))
  | .probing sealedJson operation digest, .relayed answer fault =>
    g.probed id sealedJson operation digest answer fault
  | .probing _ _ digest, .rejected => g.conclude id digest (.unavailable .authorityRead)
  | .claiming sealedJson operation digest position, .resolved _ =>
    (g.acknowledge position).suspend id (.claimed sealedJson operation digest)
  | .claiming _ _ digest _, .rejected => g.conclude id digest (.unconfirmed .claimDurability)
  | .claimed sealedJson operation digest, .resolved nowMs =>
    match parse env sealedJson operation nowMs with
    | none => g.conclude id digest (.unconfirmed .expiredAfterClaim)
    | some _ => g.suspend id (.dispatching operation digest)
  | .claimed _ _ digest, .rejected => g.conclude id digest (.unconfirmed .preDispatch)
  | .dispatching _ digest, .resolved _ =>
    ((g.suspend id (.executing digest)).1, { dispatched := some digest })
  | .dispatching _ digest, .rejected => g.conclude id digest (.unconfirmed .dispatchAmbiguous)
  | .executing digest, .relayed answer fault => g.executed id digest answer fault
  | .executing digest, .rejected => g.conclude id digest (.unconfirmed .dispatchAmbiguous)
  | .recording digest response position, .resolved _ =>
    (g.acknowledge position).conclude id digest (statusOf response)
  | .recording digest _ _, .rejected => g.conclude id digest (.unconfirmed .resultDurability)
  | .confirming position, .resolved _ => (g.acknowledge position).finish id (.settled true)
  | .confirming _, .rejected => g.finish id (.settled false)
  | .inspecting digest, .inspected snapshot nowMs fault => g.inspected id digest snapshot nowMs fault
  | .inspecting _, .rejected => g.finish id (.settled false)
  | .settling digest position, .resolved _ =>
    (g.acknowledge position).finish id (.settled (g.current.isSettled digest))
  | .settling .., .rejected => g.finish id (.settled false)
  | _, _ => (g, {})

def step (g : Guard) : GuardInput → Guard × GuardOutput
  | .process operation sealedJson nowMs => g.process env operation sealedJson nowMs
  | .settle digest => g.settle digest
  | .resume id resumption =>
    match g.calls.lookup id with
    | none => (g, {})
    | some call => g.resume env id call resumption
  | .crash kept => ({ g with ledger := g.ledger.crash kept, calls := ∅ }, {})

end Guard

end Limitmark.Mailbox
