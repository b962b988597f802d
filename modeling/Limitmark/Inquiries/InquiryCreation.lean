import Limitmark.Foundations.Rows
import Limitmark.Foundations.Run
import Limitmark.Foundations.Table
import Limitmark.Inquiries.Schema

/-!
# The creation of an inquiry

`PostgresInquiryRepository.create` of `inquiry-repository.ts`, statement by statement. What a transaction has
inserted is seen by the others when it commits; before that it is known to the unique index alone, where
an insert with the same token waits for it. A transaction may be aborted at every step.
-/

namespace Limitmark.Inquiries

open Limitmark.Foundations

structure CreateInquiryInput where
  request : TestRequest
  submissionToken : String
  payloadFingerprint : String
  deriving DecidableEq, Repr

inductive CreateInquiryResult
  | created (inquiryId : String)
  | idempotent (inquiryId : String)
  | conflict
  deriving DecidableEq, Repr

/-! ## The constraints of the schema -/

namespace Inquiry

def isTokenChar (c : Char) : Bool := c.isAlphanum || c = '_' || c = '-'

def isHexChar (c : Char) : Bool := ('0' ≤ c && c ≤ '9') || ('a' ≤ c && c ≤ 'f')

/-- The lengths of the columns. -/
def fits (r : TestRequest) : Bool :=
  r.name.length ≤ 100 && r.email.length ≤ 254 && r.company.length ≤ 160 && r.service.length ≤ 16 &&
    r.environment.length ≤ 16 && r.authority.length ≤ 16 && r.protection.length ≤ 16 &&
    r.provider.length ≤ 160

/-- The checks of the table `inquiries`. -/
def satisfiesChecks (row : Inquiry) : Bool :=
  let r := row.request
  fits r && 0 < r.name.length && 1 ≤ r.system.length && r.system.length ≤ 1000 &&
    1 ≤ r.objective.length && r.objective.length ≤ 2000 && r.notes.length ≤ 2000 &&
    ["web", "network", "protection", "unsure"].contains r.service &&
    ["production", "staging", "multiple", "unknown"].contains r.environment &&
    ["owner", "authorized", "uncertain"].contains r.authority &&
    ["unknown", "none", "using"].contains r.protection &&
    row.submissionToken.length = 43 && row.submissionToken.toList.all isTokenChar &&
    row.payloadFingerprint.length = 64 && row.payloadFingerprint.toList.all isHexChar

end Inquiry

/-! ## Transactions -/

/-- The committed tables. -/
structure InquiryTables where
  inquiries : List Inquiry := []
  events : List InquiryEvent := []
  outbox : List NotificationRow := []

/-- Where a transaction is, with what it has inserted. -/
inductive CreateTransaction
  | inserting (input : CreateInquiryInput) (now : ℤ)
  | insertedInquiry (input : CreateInquiryInput) (now : ℤ) (row : Inquiry)
  | insertedEvent (input : CreateInquiryInput) (now : ℤ) (row : Inquiry) (event : InquiryEvent)
  | insertedOutbox (input : CreateInquiryInput) (row : Inquiry) (event : InquiryEvent)
      (job : NotificationRow)
  | selecting (input : CreateInquiryInput)

namespace CreateTransaction

def input : CreateTransaction → CreateInquiryInput
  | .inserting input _ | .insertedInquiry input _ _ | .insertedEvent input _ _ _
  | .insertedOutbox input _ _ _ | .selecting input => input

/-- The inquiry that a transaction has inserted and not committed. -/
def inserted : CreateTransaction → Option Inquiry
  | .insertedInquiry _ _ row | .insertedEvent _ _ row _ | .insertedOutbox _ row _ _ => some row
  | _ => none

end CreateTransaction

structure CreateState where
  tables : InquiryTables := {}
  transactions : Table ℕ CreateTransaction := ∅
  nextTransaction : ℕ := 0

/-- A step: a transaction begins, executes its next statement, commits, or is aborted. The keys of new
rows are random. -/
inductive CreateStepInput
  | create (input : CreateInquiryInput) (now : ℤ)
  | insertInquiry (transaction : ℕ) (key : String)
  | insertEvent (transaction : ℕ)
  | insertOutbox (transaction : ℕ) (key : String)
  | commit (transaction : ℕ)
  | select (transaction : ℕ)
  | abort (transaction : ℕ)
  deriving DecidableEq, Repr

/-- The call that a step answers. -/
abbrev CreateOutput := Option (CreateInquiryInput × CreateInquiryResult)

namespace CreateState

def set (id : ℕ) (transaction : CreateTransaction) (s : CreateState) : CreateState :=
  { s with transactions := s.transactions.insert id transaction }

def finish (id : ℕ) (s : CreateState) : CreateState :=
  { s with transactions := s.transactions.erase id }

def newInquiry (key : String) (input : CreateInquiryInput) (now : ℤ) : Inquiry where
  id := key
  updatedAt := now
  request := input.request
  submissionToken := input.submissionToken
  payloadFingerprint := input.payloadFingerprint

def isCommitted (p : Inquiry → Bool) (s : CreateState) : Bool := s.tables.inquiries.any p

/-- Another transaction has inserted such an inquiry and not committed it. -/
def isInFlight (p : Inquiry → Bool) (s : CreateState) : Bool :=
  s.transactions.values.any fun transaction => transaction.inserted.any p

/-- `INSERT … ON CONFLICT DO NOTHING`: it does nothing if the token is taken, waits if a transaction in
flight has it, and aborts the transaction if the row breaks a constraint. -/
def insertInquiry (id : ℕ) (key : String) (input : CreateInquiryInput) (now : ℤ) (s : CreateState) :
    CreateState :=
  let row := newInquiry key input now
  let sameToken := fun r : Inquiry => r.submissionToken = input.submissionToken
  let sameKey := fun r : Inquiry => r.id = key
  if s.isCommitted sameToken then s.set id (.selecting input)
  else if s.isInFlight sameToken then s
  else if ¬ row.satisfiesChecks ∨ s.isCommitted sameKey ∨ s.isInFlight sameKey then s.finish id
  else s.set id (.insertedInquiry input now row)

def receivedEvent (row : Inquiry) : InquiryEvent where
  inquiryId := row.id
  eventType := .inquiryReceived
  actorType := .system

def receivedJob (key : String) (row : Inquiry) (now : ℤ) : NotificationRow where
  id := key
  inquiryId := row.id
  eventType := .inquiryReceived
  status := .pending
  availableAt := now
  createdAt := now

/-- The result of a call that has lost the token; `none` if it throws. -/
def priorResult (input : CreateInquiryInput) (tables : InquiryTables) : Option CreateInquiryResult :=
  match tables.inquiries.find? fun r => r.submissionToken = input.submissionToken with
  | none => none
  | some prior =>
    if prior.payloadFingerprint ≠ input.payloadFingerprint then some .conflict
    else some (.idempotent prior.id)

def step (s : CreateState) : CreateStepInput → CreateState × CreateOutput
  | .create input now =>
    ({ s with
        transactions := s.transactions.insert s.nextTransaction (.inserting input now)
        nextTransaction := s.nextTransaction + 1 }, none)
  | .insertInquiry id key =>
    match s.transactions.lookup id with
    | some (.inserting input now) => (s.insertInquiry id key input now, none)
    | _ => (s, none)
  | .insertEvent id =>
    match s.transactions.lookup id with
    | some (.insertedInquiry input now row) =>
      (s.set id (.insertedEvent input now row (receivedEvent row)), none)
    | _ => (s, none)
  | .insertOutbox id key =>
    match s.transactions.lookup id with
    | some (.insertedEvent input now row event) =>
      if s.tables.outbox.any fun job => job.id = key then (s.finish id, none)
      else (s.set id (.insertedOutbox input row event (receivedJob key row now)), none)
    | _ => (s, none)
  | .commit id =>
    match s.transactions.lookup id with
    | some (.insertedOutbox input row event job) =>
      ({ s.finish id with tables :=
          { inquiries := s.tables.inquiries ++ [row]
            events := s.tables.events ++ [event]
            outbox := s.tables.outbox ++ [job] } }, some (input, .created row.id))
    | _ => (s, none)
  | .select id =>
    match s.transactions.lookup id with
    | some (.selecting input) =>
      match priorResult input s.tables with
      | none => (s.finish id, none)
      | some result => (s.finish id, some (input, result))
    | _ => (s, none)
  | .abort id => (s.finish id, none)

end CreateState

end Limitmark.Inquiries
