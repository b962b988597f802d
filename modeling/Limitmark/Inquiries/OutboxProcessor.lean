import Limitmark.Foundations.Table
import Limitmark.Ingress.Protocol
import Limitmark.Inquiries.OutboxLease

/-!
# The outbox processor

`processOutboxBatch` of `outbox-processor.ts` over the outbox, with the retry policy of
`notification-retry-policy.ts`. A worker claims a batch, and delivers and reports its jobs one after the
other; any number of them run at the same time. What the adapter answers is part of the step, and a
worker may crash at every step. The policy is the same for all of them.
-/

namespace Limitmark.Inquiries

open Limitmark.Foundations Limitmark.Ingress

structure NotificationRetryPolicy where
  /-- Total delivery attempts, including the first attempt. -/
  maxAttempts : ℕ
  /-- The delay after a failed attempt; `none` if it throws. -/
  delayAfterFailure : (attempts : ℕ) → Option ℤ

structure ExponentialRetryPolicyOptions where
  maxAttempts : ℤ := 5
  initialDelayMs : ℤ := 60000
  maximumDelayMs : ℤ := 60 * 60000
  deriving DecidableEq, Repr

def requirePositiveInteger (name : String) (value : ℤ) : Except String Unit :=
  if isSafeInteger value ∧ 1 ≤ value then .ok ()
  else .error (name ++ " must be a positive safe integer")

def createExponentialRetryPolicy (options : ExponentialRetryPolicyOptions := {}) :
    Except String NotificationRetryPolicy := do
  requirePositiveInteger "maxAttempts" options.maxAttempts
  requirePositiveInteger "initialDelayMs" options.initialDelayMs
  requirePositiveInteger "maximumDelayMs" options.maximumDelayMs
  if options.maximumDelayMs < options.initialDelayMs then
    throw "maximumDelayMs must be at least initialDelayMs"
  return {
    maxAttempts := options.maxAttempts.toNat
    delayAfterFailure := fun attempts =>
      if attempts < 1 then none
      else some (min (options.initialDelayMs * 2 ^ min (attempts - 1) 52) options.maximumDelayMs) }

inductive NotificationDeliveryResult
  | delivered
  | retryableFailure (errorCode : NotificationErrorCode)
  | permanentFailure (errorCode : NotificationErrorCode)
  deriving DecidableEq, Repr

def maximumOutboxBatchSize : ℤ := 100

structure ProcessOutboxBatchOptions where
  now : ℤ
  batchSize : ℤ := 10
  leaseDurationMs : ℤ := 5 * 60000
  deriving DecidableEq, Repr

structure OutboxBatchSummary where
  claimed : ℕ
  sent : ℕ := 0
  retryable : ℕ := 0
  failed : ℕ := 0
  leaseLost : ℕ := 0
  deriving DecidableEq, Repr

/-- A time that a `Date` can hold. -/
def isDate (ms : ℤ) : Bool := ms.natAbs ≤ 8640000000000000

def validateOptions (options : ProcessOutboxBatchOptions) (policy : NotificationRetryPolicy) :
    Except String Unit := do
  if ¬ isDate options.now then throw "now must be a valid Date"
  if ¬ isSafeInteger options.batchSize ∨ options.batchSize < 1 ∨
      maximumOutboxBatchSize < options.batchSize then
    throw "batchSize must be an integer from 1 through 100"
  if ¬ isSafeInteger options.leaseDurationMs ∨ options.leaseDurationMs < 1 then
    throw "leaseDurationMs must be a positive safe integer"
  if ¬ isSafeInteger policy.maxAttempts ∨ policy.maxAttempts < 1 then
    throw "retryPolicy.maxAttempts must be a positive safe integer"

/-! ## Workers -/

/-- Where a worker is: between two jobs, at a delivery, or about to report its result. -/
inductive Phase
  | ready
  | delivering (job : ClaimedNotification)
  | reporting (job : ClaimedNotification) (result : NotificationDeliveryResult)
  deriving DecidableEq, Repr

structure Worker where
  now : ℤ
  jobs : List ClaimedNotification
  phase : Phase := .ready
  summary : OutboxBatchSummary
  deriving DecidableEq, Repr

structure OutboxState where
  outbox : Outbox := []
  workers : Table ℕ Worker := ∅
  nextWorker : ℕ := 0

/-- A step of the processor: a row is inserted, a worker claims a batch, starts the delivery of one of
its jobs, is answered by the adapter (`none` if it throws), reports the result, or crashes. -/
inductive WorkerInput
  | enqueue (id inquiryId : String) (eventType : InquiryEventType) (availableAt createdAt : ℤ)
  | processOutboxBatch (options : ProcessOutboxBatchOptions) (skipped : List String)
  | deliver (worker : ℕ) (outboxId : String)
  | answer (worker : ℕ) (result : Option NotificationDeliveryResult)
  | report (worker : ℕ)
  | crash (worker : ℕ)
  deriving DecidableEq, Repr

/-- What can be seen of a step: the delivery that it starts. -/
abbrev Started := Option ClaimedNotification

namespace OutboxState

def claimInput (options : ProcessOutboxBatchOptions) : ClaimNotificationsInput where
  now := options.now
  lockedUntil := options.now + options.leaseDurationMs
  batchSize := options.batchSize.toNat

def processOutboxBatch (policy : NotificationRetryPolicy) (options : ProcessOutboxBatchOptions)
    (skipped : List String) (s : OutboxState) : OutboxState :=
  match validateOptions options policy with
  | .error _ => s
  | .ok _ =>
    if ¬ isDate (claimInput options).lockedUntil then s
    else
      let (outbox, out) := Outbox.step s.outbox (.claimBatch (claimInput options) skipped)
      { outbox
        workers := s.workers.insert s.nextWorker
          { now := options.now, jobs := out.jobs, summary := { claimed := out.jobs.length } }
        nextWorker := s.nextWorker + 1 }

/-- The row's next availability after a failure; `none` if the policy throws. -/
def retryAt (policy : NotificationRetryPolicy) (now : ℤ) (job : ClaimedNotification)
    (result : NotificationDeliveryResult) : Option (Option ℤ) :=
  match result with
  | .retryableFailure _ =>
    if job.attempts < policy.maxAttempts then
      match policy.delayAfterFailure job.attempts with
      | none => none
      | some delayMs =>
        if isSafeInteger delayMs ∧ 1 ≤ delayMs ∧ isDate (now + delayMs) then some (some (now + delayMs))
        else none
    else some none
  | _ => some none

def errorCodeOf : NotificationDeliveryResult → NotificationErrorCode
  | .retryableFailure errorCode | .permanentFailure errorCode => errorCode
  | .delivered => .unknown

/-- The report of a result: the transaction, and what the summary counts if it is recorded; `none` if
the worker throws instead. -/
def reportOf (policy : NotificationRetryPolicy) (now : ℤ) (job : ClaimedNotification)
    (result : NotificationDeliveryResult) :
    Option (Outbox.Op × (OutboxBatchSummary → OutboxBatchSummary)) :=
  let input : CompleteNotificationInput := ⟨job.outboxId, job.attempts, job.lockedUntil, now⟩
  match result with
  | .delivered => some (.markSent input, fun s => { s with sent := s.sent + 1 })
  | result =>
    match retryAt policy now job result with
    | none => none
    | some none => some (.markFailure { input with errorCode := errorCodeOf result, retryAt := none },
        fun s => { s with failed := s.failed + 1 })
    | some (some at_) => some (.markFailure { input with errorCode := errorCodeOf result, retryAt := at_ },
        fun s => { s with retryable := s.retryable + 1 })

def report (policy : NotificationRetryPolicy) (id : ℕ) (worker : Worker) (job : ClaimedNotification)
    (result : NotificationDeliveryResult) (s : OutboxState) : OutboxState :=
  match reportOf policy worker.now job result with
  | none => { s with workers := s.workers.erase id }
  | some (op, count) =>
    let (outbox, out) := Outbox.step s.outbox op
    let summary :=
      if out = .marked true then count worker.summary
      else { worker.summary with leaseLost := worker.summary.leaseLost + 1 }
    { s with outbox, workers := s.workers.insert id { worker with phase := .ready, summary } }

def step (policy : NotificationRetryPolicy) (s : OutboxState) : WorkerInput → OutboxState × Started
  | .enqueue id inquiryId eventType availableAt createdAt =>
    ({ s with outbox :=
      (Outbox.step s.outbox (.enqueue id inquiryId eventType availableAt createdAt)).1 }, none)
  | .processOutboxBatch options skipped => (s.processOutboxBatch policy options skipped, none)
  | .deliver id outboxId =>
    match s.workers.lookup id with
    | some ⟨now, jobs, .ready, summary⟩ =>
      match jobs.find? fun job => job.outboxId = outboxId with
      | none => (s, none)
      | some job =>
        ({ s with workers := s.workers.insert id ⟨now, jobs.erase job, .delivering job, summary⟩ },
          some job)
    | _ => (s, none)
  | .answer id result =>
    match s.workers.lookup id with
    | some ⟨now, jobs, .delivering job, summary⟩ =>
      let result := result.getD (.retryableFailure .unknown)
      ({ s with workers := s.workers.insert id ⟨now, jobs, .reporting job result, summary⟩ }, none)
    | _ => (s, none)
  | .report id =>
    match s.workers.lookup id with
    | some ⟨now, jobs, .reporting job result, summary⟩ =>
      (s.report policy id ⟨now, jobs, .reporting job result, summary⟩ job result, none)
    | _ => (s, none)
  | .crash id => ({ s with workers := s.workers.erase id }, none)

end OutboxState

end Limitmark.Inquiries
