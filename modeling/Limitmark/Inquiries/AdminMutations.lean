import Limitmark.Foundations.Rows
import Limitmark.Foundations.Run
import Limitmark.Foundations.Table
import Limitmark.Ingress.Protocol
import Limitmark.Inquiries.StatusWorkflow

/-!
# Mutations by an administrator

`PostgresAdminInquiryMutationRepository` of `admin-inquiry-mutation-repository.ts`. A mutation of the
status reads the inquiry, and then updates it under the revision and the status that it has read; a note
updates it under the revision alone. Other transactions commit between the two statements. The update
holds the lock of the row to the end of its transaction, so it and the inserts after it are one step.
-/

namespace Limitmark.Inquiries

open Limitmark.Foundations Limitmark.Ingress

inductive AdminMutationResult
  | success (revision : ℕ)
  | conflict
  | invalid
  deriving DecidableEq, Repr

structure RevisionMutationInput where
  inquiryId : String
  expectedRevision : ℤ
  actorIdentifier : String
  deriving DecidableEq, Repr

structure StatusMutationInput extends RevisionMutationInput where
  newStatus : InquiryStatus
  deriving DecidableEq, Repr

structure NoteMutationInput extends RevisionMutationInput where
  content : String
  deriving DecidableEq, Repr

/-! ## Strings -/

/-- `value.length`, in UTF-16 code units. -/
def utf16Length (value : String) : ℕ :=
  (value.toList.map fun c => if c.toNat < 0x10000 then 1 else 2).sum

/-- What `trim` removes. -/
def isJsSpace (c : Char) : Bool :=
  let n := c.toNat
  (0x9 ≤ n && n ≤ 0xd) || n = 0x20 || n = 0xa0 || n = 0x1680 || (0x2000 ≤ n && n ≤ 0x200a) ||
    n = 0x2028 || n = 0x2029 || n = 0x202f || n = 0x205f || n = 0x3000 || n = 0xfeff

def trim (value : String) : String :=
  String.ofList (((value.toList.dropWhile isJsSpace).reverse.dropWhile isJsSpace).reverse)

def validCommonInput (input : RevisionMutationInput) : Bool :=
  isSafeInteger input.expectedRevision && 0 ≤ input.expectedRevision &&
    input.expectedRevision ≤ 2147483646 &&
    1 ≤ utf16Length input.actorIdentifier && utf16Length input.actorIdentifier ≤ 254

/-! ## Statements -/

structure AdminDatabase where
  inquiries : List Inquiry := []
  events : List InquiryEvent := []
  notes : List AdminNote := []

/-- What a mutation of the status has read, and is about to do. -/
structure PendingChange where
  input : RevisionMutationInput
  current : InquiryStatus
  detail : InquiryAuditDetail
  deriving DecidableEq, Repr

/-- The first statement of a mutation answers, or the transaction goes on. -/
inductive FirstStatement
  | answer (result : AdminMutationResult)
  | read (change : PendingChange)
  deriving DecidableEq, Repr

namespace AdminDatabase

def find (inquiryId : String) (db : AdminDatabase) : Option Inquiry :=
  db.inquiries.find? fun row => row.id = inquiryId

def changeStatus (input : StatusMutationInput) (db : AdminDatabase) : FirstStatement :=
  if ¬ validCommonInput input.toRevisionMutationInput then .answer .invalid
  else
    match db.find input.inquiryId with
    | none => .answer .invalid
    | some current =>
      if (current.revision : ℤ) ≠ input.expectedRevision then .answer .conflict
      else if ¬ canTransitionInquiryStatus current.status input.newStatus then .answer .invalid
      else .read ⟨input.toRevisionMutationInput, current.status,
        .statusChanged current.status input.newStatus⟩

def archive (input : RevisionMutationInput) (db : AdminDatabase) : FirstStatement :=
  if ¬ validCommonInput input then .answer .invalid
  else
    match db.find input.inquiryId with
    | none => .answer .invalid
    | some current =>
      if (current.revision : ℤ) ≠ input.expectedRevision then .answer .conflict
      else if ¬ isActiveInquiryStatus current.status then .answer .invalid
      else .read ⟨input, current.status, .archived current.status⟩

def restore (input : RevisionMutationInput) (db : AdminDatabase) : FirstStatement :=
  if ¬ validCommonInput input then .answer .invalid
  else
    match db.find input.inquiryId with
    | none => .answer .invalid
    | some current =>
      if (current.revision : ℤ) ≠ input.expectedRevision then .answer .conflict
      else
        match current.preArchiveStatus with
        | none => .answer .invalid
        | some restoredStatus =>
          if current.status ≠ .archived ∨ ¬ isActiveInquiryStatus restoredStatus then .answer .invalid
          else .read ⟨input, .archived, .restored restoredStatus⟩

/-- What the update of a change sets. -/
def set (now : ℤ) (detail : InquiryAuditDetail) (row : Inquiry) : Inquiry :=
  match detail with
  | .statusChanged _ newStatus =>
    { row with status := newStatus, updatedAt := now, revision := row.revision + 1 }
  | .archived previousStatus =>
    { row with
      status := .archived, preArchiveStatus := some previousStatus, archivedAt := some now
      updatedAt := now, revision := row.revision + 1 }
  | .restored restoredStatus =>
    { row with
      status := restoredStatus, preArchiveStatus := none, archivedAt := none
      updatedAt := now, revision := row.revision + 1 }

/-- The rows that an update selects. -/
def isCurrent (input : RevisionMutationInput) (row : Inquiry) : Bool :=
  row.id = input.inquiryId && (row.revision : ℤ) = input.expectedRevision

def adminEvent (input : RevisionMutationInput) (eventType : InquiryEventType)
    (metadata : Option Hop.Json) : InquiryEvent where
  inquiryId := input.inquiryId
  eventType
  actorType := .admin
  actorIdentifier := some input.actorIdentifier
  metadata

/-- The update of a change, and the insert of its event. -/
def commit (now : ℤ) (change : PendingChange) (db : AdminDatabase) :
    AdminDatabase × AdminMutationResult :=
  let selected := fun row => isCurrent change.input row && row.status = change.current
  match db.inquiries.find? selected with
  | none => (db, .conflict)
  | some row =>
    ({ db with
        inquiries := updateWhere selected (set now change.detail) db.inquiries
        events := db.events ++
          [adminEvent change.input change.detail.eventType (some change.detail.metadata)] },
      .success (row.revision + 1))

/-- `addNote`; `none` if no row is updated, and it is yet to be asked whether there is one. -/
def addNote (input : NoteMutationInput) (now : ℤ) (db : AdminDatabase) :
    Option (AdminDatabase × AdminMutationResult) :=
  if ¬ validCommonInput input.toRevisionMutationInput ∨ input.content ≠ trim input.content ∨
      utf16Length input.content < 1 ∨ 10000 < utf16Length input.content then some (db, .invalid)
  else
    let selected := isCurrent input.toRevisionMutationInput
    match db.inquiries.find? selected with
    | none => none
    | some row =>
      some
        ({ inquiries := updateWhere selected
            (fun row => { row with updatedAt := now, revision := row.revision + 1 }) db.inquiries
           events := db.events ++ [adminEvent input.toRevisionMutationInput .noteAdded none]
           notes := db.notes ++ [⟨input.inquiryId, input.actorIdentifier, input.content⟩] },
          .success (row.revision + 1))

/-- The second statement of a note that updated nothing. -/
def noteResult (inquiryId : String) (db : AdminDatabase) : AdminMutationResult :=
  if (db.find inquiryId).isSome then .conflict else .invalid

/-- A new inquiry and its first event. -/
def create (row : Inquiry) (db : AdminDatabase) : AdminDatabase :=
  if db.inquiries.any fun r => r.id = row.id then db
  else { db with
    inquiries := db.inquiries ++ [row]
    events := db.events ++ [{ inquiryId := row.id, eventType := .inquiryReceived, actorType := .system }] }

end AdminDatabase

/-! ## Calls -/

/-- A transaction between its two statements. -/
inductive AdminCall
  | update (change : PendingChange)
  | noteExists (input : RevisionMutationInput)
  deriving DecidableEq, Repr

structure AdminState where
  db : AdminDatabase := {}
  calls : Table ℕ AdminCall := ∅
  nextCall : ℕ := 0

/-- A step: an inquiry is created, a mutation executes its first statement or its second one, or its
transaction is aborted. -/
inductive AdminInput
  | create (id submissionToken payloadFingerprint : String) (request : TestRequest) (now : ℤ)
  | changeStatus (input : StatusMutationInput)
  | addNote (input : NoteMutationInput) (now : ℤ)
  | archive (input : RevisionMutationInput)
  | restore (input : RevisionMutationInput)
  | resume (id : ℕ) (now : ℤ)
  | abort (id : ℕ)
  deriving DecidableEq, Repr

/-- The mutation that a step answers. -/
abbrev AdminOutput := Option (RevisionMutationInput × AdminMutationResult)

namespace AdminState

def suspend (call : AdminCall) (s : AdminState) : AdminState :=
  { s with calls := s.calls.insert s.nextCall call, nextCall := s.nextCall + 1 }

def first (input : RevisionMutationInput) (statement : FirstStatement) (s : AdminState) :
    AdminState × AdminOutput :=
  match statement with
  | .answer result => (s, some (input, result))
  | .read change => (s.suspend (.update change), none)

def step (s : AdminState) : AdminInput → AdminState × AdminOutput
  | .create id submissionToken payloadFingerprint request now =>
    let row : Inquiry := { id, updatedAt := now, request, submissionToken, payloadFingerprint }
    ({ s with db := s.db.create row }, none)
  | .changeStatus input => s.first input.toRevisionMutationInput (s.db.changeStatus input)
  | .archive input => s.first input (s.db.archive input)
  | .restore input => s.first input (s.db.restore input)
  | .addNote input now =>
    match s.db.addNote input now with
    | none => (s.suspend (.noteExists input.toRevisionMutationInput), none)
    | some (db, result) => ({ s with db }, some (input.toRevisionMutationInput, result))
  | .resume id now =>
    match s.calls.lookup id with
    | none => (s, none)
    | some (.update change) =>
      ({ s with db := (s.db.commit now change).1, calls := s.calls.erase id },
        some (change.input, (s.db.commit now change).2))
    | some (.noteExists input) =>
      ({ s with calls := s.calls.erase id }, some (input, s.db.noteResult input.inquiryId))
  | .abort id => ({ s with calls := s.calls.erase id }, none)

end AdminState

end Limitmark.Inquiries
