import Limitmark.Hop.HopProof

/-!
# The tables of the inquiries

The rows of `db/schema.ts`: inquiries, their events, the notes on them and the notifications to send.
Times that nobody reads are left out, and so are the random keys of events and notes.
-/

namespace Limitmark.Inquiries

open Limitmark.Hop

inductive InquiryStatus
  | received
  | inReview
  | awaitingScope
  | proposalSent
  | approved
  | declined
  | completed
  | archived
  deriving DecidableEq, Repr

def InquiryStatus.text : InquiryStatus → String
  | .received => "received"
  | .inReview => "in_review"
  | .awaitingScope => "awaiting_scope"
  | .proposalSent => "proposal_sent"
  | .approved => "approved"
  | .declined => "declined"
  | .completed => "completed"
  | .archived => "archived"

def inquiryStatusValues : List InquiryStatus :=
  [.received, .inReview, .awaitingScope, .proposalSent, .approved, .declined, .completed, .archived]

inductive InquiryEventType
  | inquiryReceived
  | statusChanged
  | noteAdded
  | archived
  | restored
  | notificationSent
  | notificationFailed
  deriving DecidableEq, Repr

def InquiryEventType.text : InquiryEventType → String
  | .inquiryReceived => "inquiry_received"
  | .statusChanged => "status_changed"
  | .noteAdded => "note_added"
  | .archived => "archived"
  | .restored => "restored"
  | .notificationSent => "notification_sent"
  | .notificationFailed => "notification_failed"

theorem InquiryEventType.text_injective : Function.Injective InquiryEventType.text := by
  intro a b
  cases a <;> cases b <;> decide

inductive InquiryActorType
  | system
  | admin
  deriving DecidableEq, Repr

/-- What a visitor asks for; the columns of an inquiry that its form fills. -/
structure TestRequest where
  name : String
  email : String
  company : String
  service : String
  system : String
  objective : String
  environment : String
  authority : String
  protection : String
  provider : String
  notes : String
  deriving DecidableEq, Repr

structure Inquiry where
  id : String
  updatedAt : ℤ
  status : InquiryStatus := .received
  revision : ℕ := 0
  preArchiveStatus : Option InquiryStatus := none
  request : TestRequest
  submissionToken : String
  payloadFingerprint : String
  archivedAt : Option ℤ := none
  deriving DecidableEq, Repr

/-- An event of an inquiry; the table is append-only. -/
structure InquiryEvent where
  inquiryId : String
  eventType : InquiryEventType
  actorType : InquiryActorType
  actorIdentifier : Option String := none
  metadata : Option Json := none

structure AdminNote where
  inquiryId : String
  authorIdentifier : String
  content : String
  deriving DecidableEq, Repr

inductive NotificationStatus
  | pending
  | processing
  | retryable
  | sent
  | failed
  deriving DecidableEq, Repr

inductive NotificationErrorCode
  | timeout
  | rateLimited
  | providerUnavailable
  | rejected
  | unknown
  deriving DecidableEq, Repr

structure NotificationRow where
  id : String
  inquiryId : String
  eventType : InquiryEventType
  status : NotificationStatus := .pending
  attempts : ℕ := 0
  availableAt : ℤ
  lockedUntil : Option ℤ := none
  createdAt : ℤ
  sentAt : Option ℤ := none
  lastErrorCode : Option NotificationErrorCode := none
  deriving DecidableEq, Repr

end Limitmark.Inquiries
