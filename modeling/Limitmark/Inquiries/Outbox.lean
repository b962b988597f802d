import Limitmark.Foundations.Rows
import Limitmark.Foundations.Run
import Limitmark.Inquiries.Schema

/-!
# The notification outbox

`PostgresNotificationOutboxRepository` of `notification-outbox-repository.ts`. Each of its three operations is one transaction; the rows that a
claim passes over because another transaction holds their locks (`SKIP LOCKED`) are part of the call.
-/

namespace Limitmark.Inquiries

open Limitmark.Foundations

/-- A row that no worker will take again. -/
def NotificationStatus.isFinal : NotificationStatus → Bool
  | .sent | .failed => true
  | _ => false

structure ClaimedNotification where
  outboxId : String
  inquiryId : String
  eventType : InquiryEventType
  attempts : ℕ
  lockedUntil : ℤ
  deriving DecidableEq, Repr

structure ClaimNotificationsInput where
  now : ℤ
  lockedUntil : ℤ
  batchSize : ℕ
  deriving DecidableEq, Repr

structure CompleteNotificationInput where
  outboxId : String
  attempts : ℕ
  lockedUntil : ℤ
  now : ℤ
  deriving DecidableEq, Repr

structure FailNotificationInput extends CompleteNotificationInput where
  errorCode : NotificationErrorCode
  retryAt : Option ℤ
  deriving DecidableEq, Repr

/-- The largest value of the column `attempts`. -/
def MAX_INTEGER : ℕ := 2147483647

namespace NotificationRow

/-- Whether a claim at a time may take a row: it waits and is due, or its lease has expired. -/
def isCandidate (now : ℤ) (r : NotificationRow) : Bool :=
  ((r.status = .pending || r.status = .retryable) && r.availableAt ≤ now) ||
    (r.status = .processing && r.lockedUntil.any (· ≤ now))

/-- The order of a claim: by availability, creation and id. -/
def isBefore (r r' : NotificationRow) : Prop :=
  r.availableAt < r'.availableAt ∨ r.availableAt = r'.availableAt ∧
    (r.createdAt < r'.createdAt ∨ r.createdAt = r'.createdAt ∧ r.id ≤ r'.id)

instance : DecidableRel isBefore := fun _ _ => inferInstanceAs (Decidable (_ ∨ _))

def claimed (lockedUntil : ℤ) (r : NotificationRow) : NotificationRow :=
  { r with status := .processing, lockedUntil := some lockedUntil, attempts := r.attempts + 1 }

/-- The predicate `ownedLease`. -/
def ownedLease (input : CompleteNotificationInput) (r : NotificationRow) : Bool :=
  r.id = input.outboxId && r.status = .processing && r.attempts = input.attempts &&
    r.lockedUntil = some input.lockedUntil

def markedSent (input : CompleteNotificationInput) (r : NotificationRow) : NotificationRow :=
  { r with status := .sent, sentAt := some input.now, lockedUntil := none, lastErrorCode := none }

def markedFailure (input : FailNotificationInput) (r : NotificationRow) : NotificationRow :=
  { r with
    status := if input.retryAt.isSome then .retryable else .failed
    availableAt := input.retryAt.getD r.availableAt
    lockedUntil := none
    sentAt := none
    lastErrorCode := some input.errorCode }

def toClaimed (lockedUntil : ℤ) (r : NotificationRow) : ClaimedNotification :=
  ⟨r.id, r.inquiryId, r.eventType, r.attempts, lockedUntil⟩

end NotificationRow

abbrev Outbox := List NotificationRow

namespace Outbox

/-- The rows that a claim selects for update. -/
def candidates (input : ClaimNotificationsInput) (skipped : List String) (rows : Outbox) : Outbox :=
  ((rows.filter fun r => r.isCandidate input.now && r.id ∉ skipped).insertionSort
    NotificationRow.isBefore).take input.batchSize

/-- A claim; a counter that overflows aborts the transaction. -/
def claimBatch (input : ClaimNotificationsInput) (skipped : List String) (rows : Outbox) :
    Outbox × List ClaimedNotification :=
  let ids := (candidates input skipped rows).map NotificationRow.id
  if (candidates input skipped rows).any fun r => MAX_INTEGER ≤ r.attempts then (rows, [])
  else
    let rows := updateWhere (fun r => r.id ∈ ids) (NotificationRow.claimed input.lockedUntil) rows
    (rows, (rows.filter fun r => r.id ∈ ids).map (NotificationRow.toClaimed input.lockedUntil))

def markSent (input : CompleteNotificationInput) (rows : Outbox) : Outbox × Bool :=
  (updateWhere (NotificationRow.ownedLease input) (NotificationRow.markedSent input) rows,
    rows.countP (NotificationRow.ownedLease input) = 1)

def markFailure (input : FailNotificationInput) (rows : Outbox) : Outbox × Bool :=
  (updateWhere (NotificationRow.ownedLease input.toCompleteNotificationInput)
      (NotificationRow.markedFailure input) rows,
    rows.countP (NotificationRow.ownedLease input.toCompleteNotificationInput) = 1)

/-- A new row; a key that is taken aborts the transaction that inserts it. -/
def enqueue (row : NotificationRow) (rows : Outbox) : Outbox :=
  if rows.any fun r => r.id = row.id then rows else rows ++ [row]

/-- A transaction on the outbox. -/
inductive Op
  | enqueue (id inquiryId : String) (eventType : InquiryEventType) (availableAt createdAt : ℤ)
  | claimBatch (input : ClaimNotificationsInput) (skipped : List String)
  | markSent (input : CompleteNotificationInput)
  | markFailure (input : FailNotificationInput)
  deriving DecidableEq, Repr

inductive Output
  | enqueued
  | claimed (jobs : List ClaimedNotification)
  | marked (recorded : Bool)
  deriving DecidableEq, Repr

def step (rows : Outbox) : Op → Outbox × Output
  | .enqueue id inquiryId eventType availableAt createdAt =>
    (enqueue { id, inquiryId, eventType, availableAt, createdAt } rows, .enqueued)
  | .claimBatch input skipped =>
    ((claimBatch input skipped rows).1, .claimed (claimBatch input skipped rows).2)
  | .markSent input => ((markSent input rows).1, .marked (markSent input rows).2)
  | .markFailure input => ((markFailure input rows).1, .marked (markFailure input rows).2)

end Outbox

end Limitmark.Inquiries
