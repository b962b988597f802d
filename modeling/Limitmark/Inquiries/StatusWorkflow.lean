import Mathlib
import Limitmark.Inquiries.Schema

/-!
# The status of an inquiry and its audit

The transition graph of `inquiry-status-workflow.ts` and the reading of recorded metadata of
`inquiry-audit.ts`. A `Workflow` is what the events of an inquiry say about it: its status, and while it is
archived the status before. An event leads on only if it fits (`Workflow.advance`).
-/

namespace Limitmark.Inquiries

open Limitmark.Hop

/-! ## The graph -/

def inquiryStatusTransitionGraph : InquiryStatus → List InquiryStatus
  | .received => [.inReview, .declined]
  | .inReview => [.awaitingScope, .declined]
  | .awaitingScope => [.proposalSent, .declined]
  | .proposalSent => [.approved, .declined]
  | .approved => [.completed]
  | .completed => []
  | .declined => []
  | .archived => []

/-- `isInquiryStatus`, with the status that a text names. -/
def isInquiryStatus (value : Json) : Option InquiryStatus :=
  match value with
  | .str value => inquiryStatusValues.find? fun status => status.text = value
  | _ => none

def isActiveInquiryStatus (status : InquiryStatus) : Bool := status ≠ .archived

def canTransitionInquiryStatus (current next : InquiryStatus) : Bool :=
  (inquiryStatusTransitionGraph current).any fun candidate => candidate = next

theorem isInquiryStatus_text (status : InquiryStatus) :
    isInquiryStatus (.str status.text) = some status := by
  cases status <;> decide

/-- No edge leads into or out of the archive. -/
theorem canTransition_active {current next : InquiryStatus}
    (h : canTransitionInquiryStatus current next = true) :
    isActiveInquiryStatus current = true ∧ isActiveInquiryStatus next = true := by
  revert h
  cases current <;> cases next <;> decide

/-! ## Metadata -/

inductive InquiryAuditDetail
  | statusChanged (previousStatus newStatus : InquiryStatus)
  | archived (previousStatus : InquiryStatus)
  | restored (restoredStatus : InquiryStatus)
  deriving DecidableEq, Repr

def hasExactKeys (value : List (String × Json)) (keys : List String) : Bool :=
  (value.map Prod.fst).insertionSort (· ≤ ·) = keys.insertionSort (· ≤ ·)

/-- The status that a member names. -/
def statusOf (value : List (String × Json)) (key : String) : Option InquiryStatus :=
  (value.lookup key).bind isInquiryStatus

def activeStatusOf (value : List (String × Json)) (key : String) : Option InquiryStatus :=
  (statusOf value key).filter isActiveInquiryStatus

def parseInquiryAuditDetail (eventType : String) (metadata : Option Json) : Option InquiryAuditDetail :=
  match metadata with
  | some (.obj metadata) =>
    if eventType = "status_changed" ∧ hasExactKeys metadata ["newStatus", "previousStatus"] ∧
        (statusOf metadata "previousStatus").isSome ∧ (statusOf metadata "newStatus").isSome then do
      let previousStatus ← statusOf metadata "previousStatus"
      let newStatus ← statusOf metadata "newStatus"
      return .statusChanged previousStatus newStatus
    else if eventType = "archived" ∧ hasExactKeys metadata ["previousStatus"] ∧
        (activeStatusOf metadata "previousStatus").isSome then
      (activeStatusOf metadata "previousStatus").map .archived
    else if eventType = "restored" ∧ hasExactKeys metadata ["restoredStatus"] ∧
        (activeStatusOf metadata "restoredStatus").isSome then
      (activeStatusOf metadata "restoredStatus").map .restored
    else none
  | _ => none

/-- What is recorded of a change. -/
def InquiryAuditDetail.metadata : InquiryAuditDetail → Json
  | .statusChanged previousStatus newStatus =>
    .obj [("previousStatus", .str previousStatus.text), ("newStatus", .str newStatus.text)]
  | .archived previousStatus => .obj [("previousStatus", .str previousStatus.text)]
  | .restored restoredStatus => .obj [("restoredStatus", .str restoredStatus.text)]

def InquiryAuditDetail.eventType : InquiryAuditDetail → InquiryEventType
  | .statusChanged .. => .statusChanged
  | .archived _ => .archived
  | .restored _ => .restored

/-- The archive keeps active statuses only. -/
def InquiryAuditDetail.isValid : InquiryAuditDetail → Bool
  | .statusChanged .. => true
  | .archived previousStatus => isActiveInquiryStatus previousStatus
  | .restored restoredStatus => isActiveInquiryStatus restoredStatus

/-- The parser reads back what is recorded. -/
theorem parse_metadata {detail : InquiryAuditDetail} (h : detail.isValid = true) :
    parseInquiryAuditDetail detail.eventType.text (some detail.metadata) = some detail := by
  cases detail with
  | statusChanged previousStatus newStatus =>
    have hkeys : hasExactKeys [("previousStatus", .str previousStatus.text),
        ("newStatus", .str newStatus.text)] ["newStatus", "previousStatus"] = true := by
      simp only [hasExactKeys, List.map_cons, List.map_nil]
      decide
    have hprevious : statusOf [("previousStatus", .str previousStatus.text),
        ("newStatus", .str newStatus.text)] "previousStatus" = some previousStatus := by
      simp [statusOf, isInquiryStatus_text]
    have hnew : statusOf [("previousStatus", .str previousStatus.text),
        ("newStatus", .str newStatus.text)] "newStatus" = some newStatus := by
      simp [statusOf, isInquiryStatus_text, List.lookup]
    simp only [parseInquiryAuditDetail, InquiryAuditDetail.metadata, InquiryAuditDetail.eventType,
      InquiryEventType.text, hkeys, hprevious, hnew]
    rfl
  | archived previousStatus =>
    have hkeys : hasExactKeys [("previousStatus", .str previousStatus.text)] ["previousStatus"] = true := by
      simp only [hasExactKeys, List.map_cons, List.map_nil]
      decide
    have hactive : activeStatusOf [("previousStatus", .str previousStatus.text)] "previousStatus" =
        some previousStatus := by
      rw [activeStatusOf, Option.filter_eq_some_iff]
      exact ⟨by simp [statusOf, isInquiryStatus_text], h⟩
    simp [parseInquiryAuditDetail, InquiryAuditDetail.metadata, InquiryAuditDetail.eventType,
      InquiryEventType.text, hkeys, hactive]
  | restored restoredStatus =>
    have hkeys : hasExactKeys [("restoredStatus", .str restoredStatus.text)] ["restoredStatus"] = true := by
      simp only [hasExactKeys, List.map_cons, List.map_nil]
      decide
    have hactive : activeStatusOf [("restoredStatus", .str restoredStatus.text)] "restoredStatus" =
        some restoredStatus := by
      rw [activeStatusOf, Option.filter_eq_some_iff]
      exact ⟨by simp [statusOf, isInquiryStatus_text], h⟩
    simp [parseInquiryAuditDetail, InquiryAuditDetail.metadata, InquiryAuditDetail.eventType,
      InquiryEventType.text, hkeys, hactive]

theorem parse_eventType {eventType : String} {metadata : Option Json} {detail : InquiryAuditDetail}
    (h : parseInquiryAuditDetail eventType metadata = some detail) :
    eventType = detail.eventType.text := by
  unfold parseInquiryAuditDetail at h
  split at h
  · split at h
    · next hif =>
      obtain ⟨previousStatus, -, h⟩ := Option.bind_eq_some_iff.1 h
      obtain ⟨newStatus, -, h⟩ := Option.bind_eq_some_iff.1 h
      cases h
      exact hif.1
    · split at h
      · next hif =>
        obtain ⟨previousStatus, -, rfl⟩ := Option.map_eq_some_iff.1 h
        exact hif.1
      · split at h
        · next hif =>
          obtain ⟨restoredStatus, -, rfl⟩ := Option.map_eq_some_iff.1 h
          exact hif.1
        · cases h
  · cases h

/-! ## Replay -/

/-- What the events of an inquiry say about it. -/
structure Workflow where
  status : InquiryStatus := .received
  preArchiveStatus : Option InquiryStatus := none
  deriving DecidableEq, Repr

namespace Workflow

/-- A recorded change, if it fits. -/
def apply (w : Workflow) : InquiryAuditDetail → Option Workflow
  | .statusChanged previousStatus newStatus =>
    if w.status = previousStatus ∧ canTransitionInquiryStatus previousStatus newStatus then
      some { w with status := newStatus }
    else none
  | .archived previousStatus =>
    if w.status = previousStatus ∧ isActiveInquiryStatus previousStatus ∧ w.preArchiveStatus = none then
      some ⟨.archived, some previousStatus⟩
    else none
  | .restored restoredStatus =>
    if w.status = .archived ∧ w.preArchiveStatus = some restoredStatus then some ⟨restoredStatus, none⟩
    else none

/-- An event of an administrator, as the audit reads it. -/
def advance (w : Workflow) (event : InquiryEvent) : Option Workflow :=
  if event.eventType = .noteAdded then some w
  else (parseInquiryAuditDetail event.eventType.text event.metadata).bind w.apply

/-- The events in order. -/
def replay (events : List InquiryEvent) : Option Workflow := events.foldlM advance {}

/-- Archived exactly while the status before is kept. -/
def Consistent (w : Workflow) : Prop :=
  (w.status = .archived ↔ w.preArchiveStatus.isSome = true) ∧
    ∀ s, w.preArchiveStatus = some s → isActiveInquiryStatus s = true

theorem consistent_initial : Consistent {} :=
  ⟨⟨fun h => (by cases h), fun h => by cases h⟩, fun _ h => by cases h⟩

theorem Consistent.apply {w w' : Workflow} {detail : InquiryAuditDetail} (h : w.Consistent)
    (happly : w.apply detail = some w') : w'.Consistent := by
  cases detail with
  | statusChanged previousStatus newStatus =>
    rw [Workflow.apply] at happly
    split at happly
    · next hfits =>
      cases happly
      obtain ⟨hcurrent, hnext⟩ := canTransition_active hfits.2
      simp only [isActiveInquiryStatus, decide_eq_true_eq] at hcurrent hnext
      have hnone : ¬ w.preArchiveStatus.isSome = true := by
        rw [← h.1, hfits.1]
        exact hcurrent
      exact ⟨⟨fun h => absurd h hnext, fun h => absurd h hnone⟩, h.2⟩
    · cases happly
  | archived previousStatus =>
    rw [Workflow.apply] at happly
    split at happly
    · next hfits =>
      cases happly
      exact ⟨⟨fun _ => rfl, fun _ => rfl⟩, fun s hs => Option.some.inj hs ▸ hfits.2.1⟩
    · cases happly
  | restored restoredStatus =>
    rw [Workflow.apply] at happly
    split at happly
    · next hfits =>
      cases happly
      have hactive := h.2 restoredStatus hfits.2
      simp only [isActiveInquiryStatus, decide_eq_true_eq] at hactive
      exact ⟨⟨fun h => absurd h hactive, fun h => by cases h⟩, fun _ h => by cases h⟩
    · cases happly

theorem Consistent.advance {w w' : Workflow} {event : InquiryEvent} (h : w.Consistent)
    (hadvance : w.advance event = some w') : w'.Consistent := by
  rw [Workflow.advance] at hadvance
  split at hadvance
  · cases hadvance
    exact h
  · obtain ⟨detail, -, happly⟩ := Option.bind_eq_some_iff.1 hadvance
    exact h.apply happly

theorem replay_snoc (events : List InquiryEvent) (event : InquiryEvent) :
    replay (events ++ [event]) = (replay events).bind fun w => w.advance event := by
  simp only [replay, List.foldlM_append, List.foldlM_cons, List.foldlM_nil, bind_pure]
  rfl

theorem consistent_replay {events : List InquiryEvent} {w : Workflow} (h : replay events = some w) :
    w.Consistent := by
  induction events using List.reverseRecOn generalizing w with
  | nil =>
    cases h
    exact consistent_initial
  | append_singleton events event ih =>
    rw [replay_snoc] at h
    obtain ⟨w₀, hw₀, hadvance⟩ := Option.bind_eq_some_iff.1 h
    exact (ih hw₀).advance hadvance

/-- A replay goes on from each of its events. -/
theorem replay_append_cons {a b : List InquiryEvent} {x : InquiryEvent} {w : Workflow}
    (h : replay (a ++ x :: b) = some w) : ∃ w₁ w₂, replay a = some w₁ ∧ w₁.advance x = some w₂ ∧
      b.foldlM advance w₂ = some w := by
  rw [replay, List.foldlM_append] at h
  obtain ⟨w₁, ha, h⟩ := Option.bind_eq_some_iff.1 h
  rw [List.foldlM_cons] at h
  obtain ⟨w₂, hx, hb⟩ := Option.bind_eq_some_iff.1 h
  exact ⟨w₁, w₂, ha, hx, hb⟩

/-- An event that is no note is a change that fits. -/
theorem advance_eq_some {w w' : Workflow} {event : InquiryEvent} (h : w.advance event = some w')
    (hnote : event.eventType ≠ .noteAdded) : ∃ detail,
      parseInquiryAuditDetail event.eventType.text event.metadata = some detail ∧
        event.eventType = detail.eventType ∧ w.apply detail = some w' := by
  rw [advance, if_neg hnote] at h
  obtain ⟨detail, hparse, happly⟩ := Option.bind_eq_some_iff.1 h
  exact ⟨detail, hparse, InquiryEventType.text_injective (parse_eventType hparse), happly⟩

/-- A recorded change of the status is an edge of the graph. -/
theorem edge_of_advance {w w' : Workflow} {event : InquiryEvent} (h : w.advance event = some w')
    (htype : event.eventType = .statusChanged) : ∃ previousStatus newStatus,
      parseInquiryAuditDetail event.eventType.text event.metadata =
        some (.statusChanged previousStatus newStatus) ∧
      canTransitionInquiryStatus previousStatus newStatus = true := by
  obtain ⟨detail, hparse, hsame, happly⟩ :=
    advance_eq_some h (by rw [htype]; exact fun h => by cases h)
  cases detail with
  | statusChanged previousStatus newStatus =>
    rw [apply] at happly
    split at happly
    · next hfits => exact ⟨previousStatus, newStatus, hparse, hfits.2⟩
    · cases happly
  | archived previousStatus =>
    rw [htype] at hsame
    cases hsame
  | restored restoredStatus =>
    rw [htype] at hsame
    cases hsame

/-- What an event of the archive says of the state after it. -/
theorem archived_of_advance {w w' : Workflow} {event : InquiryEvent} (h : w.advance event = some w')
    (htype : event.eventType = .archived) : ∃ previousStatus,
      parseInquiryAuditDetail event.eventType.text event.metadata = some (.archived previousStatus) ∧
        w.status = previousStatus ∧ w'.preArchiveStatus = some previousStatus := by
  obtain ⟨detail, hparse, hsame, happly⟩ :=
    advance_eq_some h (by rw [htype]; exact fun h => by cases h)
  cases detail with
  | archived previousStatus =>
    rw [apply] at happly
    split at happly
    · next hfits =>
      cases happly
      exact ⟨previousStatus, hparse, hfits.1, rfl⟩
    · cases happly
  | statusChanged previousStatus newStatus =>
    rw [htype] at hsame
    cases hsame
  | restored restoredStatus =>
    rw [htype] at hsame
    cases hsame

theorem restored_of_advance {w w' : Workflow} {event : InquiryEvent} (h : w.advance event = some w')
    (htype : event.eventType = .restored) : ∃ restoredStatus,
      parseInquiryAuditDetail event.eventType.text event.metadata = some (.restored restoredStatus) ∧
        w.preArchiveStatus = some restoredStatus ∧ w'.status = restoredStatus := by
  obtain ⟨detail, hparse, hsame, happly⟩ :=
    advance_eq_some h (by rw [htype]; exact fun h => by cases h)
  cases detail with
  | restored restoredStatus =>
    rw [apply] at happly
    split at happly
    · next hfits =>
      cases happly
      exact ⟨restoredStatus, hparse, hfits.2, rfl⟩
    · cases happly
  | statusChanged previousStatus newStatus =>
    rw [htype] at hsame
    cases hsame
  | archived previousStatus =>
    rw [htype] at hsame
    cases hsame

/-- Without another event of the archive, the status before it stays, or is given up. -/
theorem preArchiveStatus_of_foldlM {events : List InquiryEvent} {w w' : Workflow}
    {previousStatus : InquiryStatus} (h : events.foldlM advance w = some w')
    (hw : w.preArchiveStatus = some previousStatus ∨ w.preArchiveStatus = none)
    (hnone : ∀ event ∈ events, event.eventType ≠ .archived) :
    w'.preArchiveStatus = some previousStatus ∨ w'.preArchiveStatus = none := by
  induction events generalizing w with
  | nil =>
    cases h
    exact hw
  | cons event events ih =>
    rw [List.foldlM_cons] at h
    obtain ⟨w₁, hadvance, h⟩ := Option.bind_eq_some_iff.1 h
    refine ih h ?_ fun event' hevent => hnone event' (List.mem_cons_of_mem _ hevent)
    by_cases hnote : event.eventType = .noteAdded
    · rw [advance, if_pos hnote] at hadvance
      cases hadvance
      exact hw
    · obtain ⟨detail, -, hsame, happly⟩ := advance_eq_some hadvance hnote
      cases detail with
      | statusChanged previousStatus newStatus =>
        rw [apply] at happly
        split at happly <;> cases happly
        exact hw
      | archived previousStatus => exact absurd hsame (hnone event List.mem_cons_self)
      | restored restoredStatus =>
        rw [apply] at happly
        split at happly <;> cases happly
        exact .inr rfl

/-- A restored inquiry has the status from which it was archived. -/
theorem restored_eq_archived {a b c : List InquiryEvent} {x y : InquiryEvent} {w : Workflow}
    (h : replay (a ++ x :: b ++ y :: c) = some w) (hx : x.eventType = .archived)
    (hy : y.eventType = .restored) (hb : ∀ event ∈ b, event.eventType ≠ .archived) :
    ∃ w₁ status w₂, replay a = some w₁ ∧ w₁.status = status ∧
      parseInquiryAuditDetail y.eventType.text y.metadata = some (.restored status) ∧
      replay (a ++ x :: b ++ [y]) = some w₂ ∧ w₂.status = status := by
  obtain ⟨w₃, w₄, hbefore, hadvance, -⟩ := replay_append_cons h
  obtain ⟨w₁, w₂, ha, hx', hmiddle⟩ := replay_append_cons hbefore
  obtain ⟨status, -, hstatus, hpre⟩ := archived_of_advance hx' hx
  obtain ⟨restoredStatus, hparse, hpre', hstatus'⟩ := restored_of_advance hadvance hy
  have hkept := preArchiveStatus_of_foldlM hmiddle (.inl hpre) hb
  rw [hpre', or_iff_left (by exact fun h => by cases h), Option.some.injEq] at hkept
  refine ⟨w₁, status, w₄, ha, hstatus, hkept ▸ hparse, ?_, hkept ▸ hstatus'⟩
  rw [replay_snoc, hbefore]
  exact hadvance

end Workflow

end Limitmark.Inquiries
