import Limitmark.Inquiries.AdminMutations

/-!
# The audit log agrees with the inquiries

Every mutation raises the revision of its inquiry and records one event. So a revision determines the
row (`Pending.fits`): what a mutation has read is still there when its update finds the revision it
expects. The events of an inquiry, replayed in order, lead to its row (`AdminLog.replayed`).
-/

namespace Limitmark.Inquiries

open Limitmark.Foundations AdminDatabase

abbrev AdminStep := Entry AdminState AdminInput AdminOutput

/-- The events that administrators have recorded of an inquiry. -/
def adminEvents (inquiryId : String) (events : List InquiryEvent) : List InquiryEvent :=
  events.filter fun event => event.inquiryId = inquiryId && event.actorType = .admin

def Inquiry.workflow (row : Inquiry) : Workflow := ⟨row.status, row.preArchiveStatus⟩

/-- The step answers that a mutation of this revision has succeeded. -/
def wins (inquiryId : String) (revision : ℤ) (e : AdminStep) : Bool :=
  match e.out with
  | some (input, .success _) => input.inquiryId = inquiryId && input.expectedRevision = revision
  | _ => false

/-- The metadata of an event, if it has any, is read by the audit. -/
def InquiryEvent.isAudited (event : InquiryEvent) : Prop :=
  event.metadata.isSome = true → (parseInquiryAuditDetail event.eventType.text event.metadata).isSome = true

/-! ## What a step does -/

variable {db db' : AdminDatabase} {row : Inquiry}

/-- An update of one inquiry with the event that records it. -/
structure Committed (input : RevisionMutationInput) (row row' : Inquiry) (event : InquiryEvent)
    (db db' : AdminDatabase) : Prop where
  mem : row ∈ db.inquiries
  expected : (row.revision : ℤ) = input.expectedRevision
  id : row.id = input.inquiryId
  id' : row'.id = row.id
  revision : row'.revision = row.revision + 1
  others : ∀ r, r ∈ db'.inquiries ↔ (r ∈ db.inquiries ∧ r.id ≠ row.id) ∨ r = row'
  ids : db'.inquiries.map Inquiry.id = db.inquiries.map Inquiry.id
  events : db'.events = db.events ++ [event]
  inquiryId : event.inquiryId = row.id
  admin : event.actorType = .admin
  audited : event.isAudited
  fits : row.workflow.advance event = some row'.workflow

/-- What a change needs of the row that it updates. -/
def PendingChange.Fits (change : PendingChange) (row : Inquiry) : Prop :=
  row.status = change.current ∧ ∃ w, row.workflow.apply change.detail = some w

/-- A change that was read fits the row for as long as it has the revision. -/
structure PendingChange.Pending (change : PendingChange) (db : AdminDatabase) : Prop where
  known : ∃ row ∈ db.inquiries, row.id = change.input.inquiryId
  reached : ∀ row ∈ db.inquiries, row.id = change.input.inquiryId →
    change.input.expectedRevision ≤ row.revision
  fits : ∀ row ∈ db.inquiries, row.id = change.input.inquiryId →
    (row.revision : ℤ) = change.input.expectedRevision → change.Fits row

theorem mem_updateWhere_of_key {p : Inquiry → Bool} {f : Inquiry → Inquiry}
    (hids : (db.inquiries.map Inquiry.id).Nodup) (hrow : row ∈ db.inquiries) (hp : p row = true)
    (hkey : ∀ r, p r = true → r.id = row.id) (r : Inquiry) :
    r ∈ updateWhere p f db.inquiries ↔ (r ∈ db.inquiries ∧ r.id ≠ row.id) ∨ r = f row := by
  rw [mem_updateWhere]
  constructor
  · rintro (⟨hr, hpr⟩ | ⟨r₀, hr₀, hp₀, rfl⟩)
    · refine .inl ⟨hr, fun hid => ?_⟩
      rw [eq_of_key hids hr hrow hid, hp] at hpr
      cases hpr
    · rw [eq_of_key hids hr₀ hrow (hkey r₀ hp₀)]
      exact .inr rfl
  · rintro (⟨hr, hid⟩ | rfl)
    · exact .inl ⟨hr, Bool.eq_false_iff.2 fun hpr => hid (hkey r hpr)⟩
    · exact .inr ⟨row, hrow, hp, rfl⟩

theorem isCurrent_iff {input : RevisionMutationInput} : isCurrent input row = true ↔
    row.id = input.inquiryId ∧ (row.revision : ℤ) = input.expectedRevision := by
  rw [isCurrent, Bool.and_eq_true, decide_eq_true_eq, decide_eq_true_eq]

theorem set_id (now : ℤ) (detail : InquiryAuditDetail) : (set now detail row).id = row.id := by
  cases detail <;> rfl

theorem set_revision (now : ℤ) (detail : InquiryAuditDetail) :
    (set now detail row).revision = row.revision + 1 := by
  cases detail <;> rfl

/-- The update sets what the change of the workflow is. -/
theorem apply_set {detail : InquiryAuditDetail} {w : Workflow} (now : ℤ)
    (h : row.workflow.apply detail = some w) : (set now detail row).workflow = w := by
  cases detail with
  | statusChanged previousStatus newStatus =>
    rw [Workflow.apply] at h
    split at h <;> cases h
    rfl
  | archived previousStatus =>
    rw [Workflow.apply] at h
    split at h <;> cases h
    rfl
  | restored restoredStatus =>
    rw [Workflow.apply] at h
    split at h <;> cases h
    rfl

theorem isValid_of_apply {w w' : Workflow} {detail : InquiryAuditDetail} (hw : w.Consistent)
    (h : w.apply detail = some w') : detail.isValid = true := by
  cases detail with
  | statusChanged previousStatus newStatus => rfl
  | archived previousStatus =>
    rw [Workflow.apply] at h
    split at h
    · next hfits => exact hfits.2.1
    · cases h
  | restored restoredStatus =>
    rw [Workflow.apply] at h
    split at h
    · next hfits => exact hw.2 _ hfits.2
    · cases h

/-- The event of a change is read as the change. -/
theorem advance_adminEvent {input : RevisionMutationInput} {detail : InquiryAuditDetail} {w w' : Workflow}
    (hw : w.Consistent) (h : w.apply detail = some w') :
    w.advance (adminEvent input detail.eventType (some detail.metadata)) = some w' := by
  have hnote : detail.eventType ≠ .noteAdded := by
    cases detail <;> exact fun h => by cases h
  rw [Workflow.advance, adminEvent, if_neg hnote, parse_metadata (isValid_of_apply hw h)]
  exact h

/-- The update of a change that fits, if it finds a row. -/
theorem commit_cases (hids : (db.inquiries.map Inquiry.id).Nodup)
    (hconsistent : ∀ row ∈ db.inquiries, row.workflow.Consistent) {change : PendingChange}
    (hpending : change.Pending db) (now : ℤ) :
    db.commit now change = (db, .conflict) ∨ ∃ row row' event,
      Committed change.input row row' event db (db.commit now change).1 ∧
        (db.commit now change).2 = .success (row.revision + 1) := by
  unfold commit
  dsimp only
  split
  · exact .inl rfl
  · next row hfind =>
    have hrow := List.mem_of_find?_eq_some hfind
    have hp := List.find?_some
      (p := fun r => isCurrent change.input r && r.status = change.current) hfind
    have hselected := hp
    rw [Bool.and_eq_true, isCurrent_iff] at hselected
    obtain ⟨⟨hid, hrevision⟩, -⟩ := hselected
    obtain ⟨-, w, hfits⟩ := hpending.fits row hrow hid hrevision
    have hw := hconsistent row hrow
    refine .inr ⟨row, set now change.detail row,
      adminEvent change.input change.detail.eventType (some change.detail.metadata), ?_, rfl⟩
    constructor
    · exact hrow
    · exact hrevision
    · exact hid
    · exact set_id now _
    · exact set_revision now _
    · refine mem_updateWhere_of_key hids hrow hp fun r hr => ?_
      rw [Bool.and_eq_true, isCurrent_iff] at hr
      exact hr.1.1.trans hid.symm
    · exact map_key_updateWhere fun r _ => set_id now _
    · rfl
    · exact hid.symm
    · rfl
    · intro _
      rw [adminEvent, parse_metadata (isValid_of_apply hw hfits)]
      rfl
    · rw [advance_adminEvent hw hfits, apply_set now hfits]

theorem addNote_cases (hids : (db.inquiries.map Inquiry.id).Nodup) {input : NoteMutationInput} {now : ℤ}
    {result : AdminMutationResult} (h : db.addNote input now = some (db', result)) :
    (db' = db ∧ result = .invalid) ∨ ∃ row row' event,
      Committed input.toRevisionMutationInput row row' event db db' ∧
        result = .success (row.revision + 1) := by
  unfold addNote at h
  split at h
  · cases h
    exact .inl ⟨rfl, rfl⟩
  · dsimp only at h
    split at h
    · cases h
    · next row hfind =>
      cases h
      have hrow := List.mem_of_find?_eq_some hfind
      have hselected := List.find?_some hfind
      obtain ⟨hid, hrevision⟩ := isCurrent_iff.1 hselected
      refine .inr ⟨row, { row with updatedAt := now, revision := row.revision + 1 },
        adminEvent input.toRevisionMutationInput .noteAdded none, ?_, rfl⟩
      constructor
      · exact hrow
      · exact hrevision
      · exact hid
      · rfl
      · rfl
      · exact mem_updateWhere_of_key (f := fun row => { row with updatedAt := now, revision := row.revision + 1 })
          hids hrow hselected fun r hr => (isCurrent_iff.1 hr).1.trans hid.symm
      · exact map_key_updateWhere fun r _ => rfl
      · rfl
      · exact hid.symm
      · rfl
      · exact fun h => by cases h
      · rw [Workflow.advance, adminEvent, if_pos rfl]
        rfl

/-! ## Reading -/

theorem find_eq_some {inquiryId : String} (h : db.find inquiryId = some row) :
    row ∈ db.inquiries ∧ row.id = inquiryId :=
  ⟨List.mem_of_find?_eq_some h,
    of_decide_eq_true (List.find?_some (p := fun r : Inquiry => r.id = inquiryId) h)⟩

/-- A change that has just been read is pending. -/
theorem pending_of_read (hids : (db.inquiries.map Inquiry.id).Nodup) {change : PendingChange}
    (hrow : row ∈ db.inquiries) (hid : row.id = change.input.inquiryId)
    (hrevision : (row.revision : ℤ) = change.input.expectedRevision) (hfits : change.Fits row) :
    change.Pending db := by
  have hsame {r : Inquiry} (hr : r ∈ db.inquiries) (hrid : r.id = change.input.inquiryId) : r = row :=
    eq_of_key hids hr hrow (hrid.trans hid.symm)
  refine ⟨⟨row, hrow, hid⟩, fun r hr hrid => ?_, fun r hr hrid _ => ?_⟩
  · rw [hsame hr hrid, hrevision]
  · rw [hsame hr hrid]
    exact hfits

theorem changeStatus_read (hids : (db.inquiries.map Inquiry.id).Nodup) {input : StatusMutationInput}
    {change : PendingChange} (h : db.changeStatus input = .read change) : change.Pending db := by
  unfold changeStatus at h
  split at h
  · cases h
  · split at h
    · cases h
    · next current hfind =>
      obtain ⟨hrow, hid⟩ := find_eq_some hfind
      split at h
      · cases h
      · next hrevision =>
        split at h
        · cases h
        · next hcan =>
          cases h
          rw [not_not] at hrevision hcan
          exact pending_of_read hids hrow hid hrevision
            ⟨rfl, ⟨input.newStatus, current.preArchiveStatus⟩, if_pos ⟨rfl, hcan⟩⟩

theorem archive_read (hids : (db.inquiries.map Inquiry.id).Nodup)
    (hconsistent : ∀ row ∈ db.inquiries, row.workflow.Consistent) {input : RevisionMutationInput}
    {change : PendingChange} (h : db.archive input = .read change) : change.Pending db := by
  unfold archive at h
  split at h
  · cases h
  · split at h
    · cases h
    · next current hfind =>
      obtain ⟨hrow, hid⟩ := find_eq_some hfind
      split at h
      · cases h
      · next hrevision =>
        split at h
        · cases h
        · next hactive =>
          cases h
          rw [not_not] at hrevision hactive
          have hnone : current.preArchiveStatus = none := by
            rw [← Option.not_isSome_iff_eq_none]
            intro hsome
            have harchived := (hconsistent current hrow).1.2 hsome
            exact of_decide_eq_true hactive harchived
          exact pending_of_read hids hrow hid hrevision
            ⟨rfl, ⟨.archived, some current.status⟩, if_pos ⟨rfl, hactive, hnone⟩⟩

theorem restore_read (hids : (db.inquiries.map Inquiry.id).Nodup) {input : RevisionMutationInput}
    {change : PendingChange} (h : db.restore input = .read change) : change.Pending db := by
  unfold restore at h
  split at h
  · cases h
  · split at h
    · cases h
    · next current hfind =>
      obtain ⟨hrow, hid⟩ := find_eq_some hfind
      split at h
      · cases h
      · next hrevision =>
        split at h
        · cases h
        · next restoredStatus hpre =>
          split at h
          · cases h
          · next hvalid =>
            cases h
            rw [not_or, not_not] at hvalid
            rw [not_not] at hrevision
            exact pending_of_read hids hrow hid hrevision
              ⟨hvalid.1, ⟨restoredStatus, none⟩, if_pos ⟨hvalid.1, hpre⟩⟩

theorem changeStatus_answer {input : StatusMutationInput} (revision : ℕ) :
    db.changeStatus input ≠ .answer (.success revision) := by
  unfold changeStatus
  repeat' split
  all_goals exact fun h => by cases h

theorem archive_answer {input : RevisionMutationInput} (revision : ℕ) :
    db.archive input ≠ .answer (.success revision) := by
  unfold archive
  repeat' split
  all_goals exact fun h => by cases h

theorem restore_answer {input : RevisionMutationInput} (revision : ℕ) :
    db.restore input ≠ .answer (.success revision) := by
  unfold restore
  repeat' split
  all_goals exact fun h => by cases h

/-! ## Runs -/

/-- The invariant after the steps `tr`. -/
structure AdminLog (tr : List AdminStep) (s : AdminState) : Prop where
  ids : (s.db.inquiries.map Inquiry.id).Nodup
  known : ∀ event ∈ s.db.events, ∃ row ∈ s.db.inquiries, row.id = event.inquiryId
  audited : ∀ event ∈ s.db.events, event.isAudited
  system : ∀ event ∈ s.db.events, event.actorType = .system → event.eventType = .inquiryReceived
  revision : ∀ row ∈ s.db.inquiries, row.revision = (adminEvents row.id s.db.events).length
  replayed : ∀ row ∈ s.db.inquiries,
    Workflow.replay (adminEvents row.id s.db.events) = some row.workflow
  pending : ∀ id change, s.calls.lookup id = some (.update change) → change.Pending s.db
  won : ∀ inquiryId revision, 0 < tr.countP (wins inquiryId revision) →
    ∃ row ∈ s.db.inquiries, row.id = inquiryId ∧ revision < row.revision
  once : ∀ inquiryId revision, tr.countP (wins inquiryId revision) ≤ 1

namespace AdminLog

variable {tr : List AdminStep} {s s' : AdminState} {e : AdminStep}

theorem consistent (h : AdminLog tr s) : ∀ row ∈ s.db.inquiries, row.workflow.Consistent :=
  fun row hrow => Workflow.consistent_replay (h.replayed row hrow)

theorem wins_snoc {inquiryId : String} {revision : ℤ} : (tr ++ [e]).countP (wins inquiryId revision) =
    tr.countP (wins inquiryId revision) + if wins inquiryId revision e then 1 else 0 := by
  rw [List.countP_append, List.countP_singleton]

theorem wins_of_ne {inquiryId : String} {revision : ℤ}
    (h : ∀ input revision, e.out ≠ some (input, .success revision)) :
    (tr ++ [e]).countP (wins inquiryId revision) = tr.countP (wins inquiryId revision) := by
  rw [wins_snoc, if_neg, Nat.add_zero]
  unfold wins
  split
  · next hout => exact absurd hout (h _ _)
  · exact Bool.false_ne_true

/-- A step that leaves the tables. -/
theorem kept (h : AdminLog tr s) (db : s'.db = s.db)
    (calls : ∀ id change, s'.calls.lookup id = some (.update change) → change.Pending s.db)
    (out : ∀ input revision, e.out ≠ some (input, .success revision)) : AdminLog (tr ++ [e]) s' := by
  constructor
  · rw [db]
    exact h.ids
  · rw [db]
    exact h.known
  · rw [db]
    exact h.audited
  · rw [db]
    exact h.system
  · rw [db]
    exact h.revision
  · rw [db]
    exact h.replayed
  · rw [db]
    exact calls
  · intro inquiryId revision hpos
    rw [wins_of_ne out] at hpos
    rw [db]
    exact h.won inquiryId revision hpos
  · intro inquiryId revision
    rw [wins_of_ne out]
    exact h.once inquiryId revision

theorem adminEvents_snoc {inquiryId : String} {events : List InquiryEvent} {event : InquiryEvent} :
    adminEvents inquiryId (events ++ [event]) = adminEvents inquiryId events ++
      if event.inquiryId = inquiryId ∧ event.actorType = .admin then [event] else [] := by
  rw [adminEvents, List.filter_append, adminEvents]
  congr 1
  by_cases h : event.inquiryId = inquiryId ∧ event.actorType = .admin <;> simp [h]

theorem created (h : AdminLog tr s) (row : Inquiry) (status : row.status = .received)
    (pre : row.preArchiveStatus = none) (zero : row.revision = 0) (db : s'.db = s.db.create row)
    (calls : s'.calls = s.calls) (out : e.out = none) : AdminLog (tr ++ [e]) s' := by
  have hout : ∀ input revision, e.out ≠ some (input, .success revision) := by
    rw [out]
    exact fun _ _ h => by cases h
  by_cases htaken : s.db.inquiries.any fun r => r.id = row.id
  · refine h.kept (db.trans (if_pos htaken)) (fun id change hcall => ?_) hout
    exact h.pending id change (calls ▸ hcall)
  · have hinquiries : s'.db.inquiries = s.db.inquiries ++ [row] := by
      rw [db, create, if_neg htaken]
    have hevents : s'.db.events = s.db.events ++
        [{ inquiryId := row.id, eventType := .inquiryReceived, actorType := .system }] := by
      rw [db, create, if_neg htaken]
    simp only [List.any_eq_true, decide_eq_true_eq, not_exists, not_and] at htaken
    have hmem {r : Inquiry} (hr : r ∈ s'.db.inquiries) : r ∈ s.db.inquiries ∨ r = row := by
      rwa [hinquiries, List.mem_append, List.mem_singleton] at hr
    have hold {r : Inquiry} (hr : r ∈ s.db.inquiries) : r ∈ s'.db.inquiries := by
      rw [hinquiries]
      exact List.mem_append_left _ hr
    have hadmin (inquiryId : String) :
        adminEvents inquiryId s'.db.events = adminEvents inquiryId s.db.events := by
      rw [hevents, adminEvents_snoc, if_neg (fun h => by cases h.2), List.append_nil]
    have hnone : adminEvents row.id s.db.events = [] := by
      rw [adminEvents, List.filter_eq_nil_iff]
      intro event hevent
      obtain ⟨r, hr, hid⟩ := h.known event hevent
      have hne : event.inquiryId ≠ row.id := hid ▸ htaken r hr
      simp [hne]
    constructor
    · rw [hinquiries]
      exact nodup_append_key h.ids htaken
    · intro event hevent
      rw [hevents, List.mem_append, List.mem_singleton] at hevent
      rcases hevent with hevent | rfl
      · obtain ⟨r, hr, hid⟩ := h.known event hevent
        exact ⟨r, hold hr, hid⟩
      · exact ⟨row, hinquiries ▸ List.mem_append_right _ (List.mem_singleton_self _), rfl⟩
    · intro event hevent
      rw [hevents, List.mem_append, List.mem_singleton] at hevent
      rcases hevent with hevent | rfl
      · exact h.audited event hevent
      · exact fun h => by cases h
    · intro event hevent
      rw [hevents, List.mem_append, List.mem_singleton] at hevent
      rcases hevent with hevent | rfl
      · exact h.system event hevent
      · exact fun _ => rfl
    · intro r hr
      rw [hadmin]
      rcases hmem hr with hr | rfl
      · exact h.revision r hr
      · rw [hnone, zero]
        rfl
    · intro r hr
      rw [hadmin]
      rcases hmem hr with hr | rfl
      · exact h.replayed r hr
      · rw [hnone, Inquiry.workflow, status, pre]
        rfl
    · intro id change hcall
      obtain ⟨⟨r, hr, hid⟩, hreached, hfits⟩ := h.pending id change (calls ▸ hcall)
      have hne : row.id ≠ change.input.inquiryId := fun heq => htaken r hr (hid.trans heq.symm)
      refine ⟨⟨r, hold hr, hid⟩, fun r' hr' hid' => ?_, fun r' hr' hid' => ?_⟩
      · exact hreached r' ((hmem hr').resolve_right fun heq => hne (heq ▸ hid')) hid'
      · exact hfits r' ((hmem hr').resolve_right fun heq => hne (heq ▸ hid')) hid'
    · intro inquiryId revision hpos
      rw [wins_of_ne hout] at hpos
      obtain ⟨r, hr, hrest⟩ := h.won inquiryId revision hpos
      exact ⟨r, hold hr, hrest⟩
    · intro inquiryId revision
      rw [wins_of_ne hout]
      exact h.once inquiryId revision

theorem committed (h : AdminLog tr s) {input : RevisionMutationInput} {row row' : Inquiry}
    {event : InquiryEvent} (hc : Committed input row row' event s.db s'.db)
    (calls : ∀ id change, s'.calls.lookup id = some (.update change) →
      s.calls.lookup id = some (.update change))
    (out : e.out = some (input, .success (row.revision + 1))) : AdminLog (tr ++ [e]) s' := by
  have hmem {r : Inquiry} (hr : r ∈ s'.db.inquiries) :
      (r ∈ s.db.inquiries ∧ r.id ≠ row.id) ∨ r = row' := (hc.others r).1 hr
  have hnew : row' ∈ s'.db.inquiries := (hc.others row').2 (.inr rfl)
  have hknown {inquiryId : String} (hr : ∃ r ∈ s.db.inquiries, r.id = inquiryId) :
      ∃ r ∈ s'.db.inquiries, r.id = inquiryId := by
    rw [← List.mem_map, hc.ids]
    exact List.mem_map.2 hr
  have hothers {inquiryId : String} (hne : inquiryId ≠ row.id) :
      adminEvents inquiryId s'.db.events = adminEvents inquiryId s.db.events := by
    rw [hc.events, adminEvents_snoc, if_neg, List.append_nil]
    exact fun h => hne (h.1.symm.trans hc.inquiryId)
  have hthis : adminEvents row.id s'.db.events = adminEvents row.id s.db.events ++ [event] := by
    rw [hc.events, adminEvents_snoc, if_pos ⟨hc.inquiryId, hc.admin⟩]
  have hwins {inquiryId : String} {revision : ℤ} : wins inquiryId revision e = true ↔
      input.inquiryId = inquiryId ∧ input.expectedRevision = revision := by
    simp only [wins, out, Bool.and_eq_true, decide_eq_true_eq]
  constructor
  · rw [hc.ids]
    exact h.ids
  · intro event' hevent
    rw [hc.events, List.mem_append, List.mem_singleton] at hevent
    rcases hevent with hevent | rfl
    · exact hknown (h.known event' hevent)
    · exact hknown ⟨row, hc.mem, hc.inquiryId.symm⟩
  · intro event' hevent
    rw [hc.events, List.mem_append, List.mem_singleton] at hevent
    rcases hevent with hevent | rfl
    · exact h.audited event' hevent
    · exact hc.audited
  · intro event' hevent hsystem
    rw [hc.events, List.mem_append, List.mem_singleton] at hevent
    rcases hevent with hevent | rfl
    · exact h.system event' hevent hsystem
    · rw [hc.admin] at hsystem
      cases hsystem
  · intro r hr
    rcases hmem hr with ⟨hr, hne⟩ | rfl
    · rw [hothers hne]
      exact h.revision r hr
    · rw [hc.id', hthis, List.length_append, hc.revision, h.revision row hc.mem]
      rfl
  · intro r hr
    rcases hmem hr with ⟨hr, hne⟩ | rfl
    · rw [hothers hne]
      exact h.replayed r hr
    · rw [hc.id', hthis, Workflow.replay_snoc, h.replayed row hc.mem]
      exact hc.fits
  · intro id change hcall
    obtain ⟨hrow, hreached, hfits⟩ := h.pending id change (calls id change hcall)
    -- the update has raised the revision of its row over every one that was read
    have hpassed (hid : row'.id = change.input.inquiryId) :
        change.input.expectedRevision < row'.revision := by
      have hle := hreached row hc.mem (hc.id'.symm.trans hid)
      have hrevision := hc.revision
      omega
    refine ⟨hknown hrow, fun r hr hid => ?_, fun r hr hid hexpected => ?_⟩
    · rcases hmem hr with ⟨hr, -⟩ | rfl
      · exact hreached r hr hid
      · exact Int.le_of_lt (hpassed hid)
    · rcases hmem hr with ⟨hr, -⟩ | rfl
      · exact hfits r hr hid hexpected
      · exact absurd hexpected (Int.ne_of_gt (hpassed hid))
  · intro inquiryId revision hpos
    have hrevision := hc.revision
    have hexpected := hc.expected
    by_cases hnow : wins inquiryId revision e = true
    · obtain ⟨rfl, rfl⟩ := hwins.1 hnow
      exact ⟨row', hnew, hc.id'.trans hc.id, by omega⟩
    · rw [wins_snoc, if_neg hnow] at hpos
      obtain ⟨r, hr, rfl, hlt⟩ := h.won inquiryId revision hpos
      by_cases hid : r.id = row.id
      · obtain rfl := eq_of_key h.ids hr hc.mem hid
        exact ⟨row', hnew, hc.id', by omega⟩
      · exact ⟨r, (hc.others r).2 (.inl ⟨hr, hid⟩), rfl, hlt⟩
  · intro inquiryId revision
    rw [wins_snoc]
    split
    · next hnow =>
      obtain ⟨rfl, rfl⟩ := hwins.1 hnow
      have hzero : tr.countP (wins input.inquiryId input.expectedRevision) = 0 := by
        by_contra hpos
        obtain ⟨r, hr, hid, hlt⟩ := h.won _ _ (Nat.pos_of_ne_zero hpos)
        obtain rfl := eq_of_key h.ids hr hc.mem (hid.trans hc.id.symm)
        have hexpected := hc.expected
        omega
      omega
    · exact h.once inquiryId revision

theorem empty : AdminLog [] {} where
  ids := List.nodup_nil
  known := fun _ h => by cases h
  audited := fun _ h => by cases h
  system := fun _ h => by cases h
  revision := fun _ h => by cases h
  replayed := fun _ h => by cases h
  pending := fun _ _ h => by cases h
  won := fun _ _ h => by cases h
  once := fun _ _ => Nat.zero_le _

/-- The first statement of a mutation of the status. -/
theorem first (h : AdminLog tr s) {input : RevisionMutationInput} {statement : FirstStatement}
    (hread : ∀ change, statement = .read change → change.Pending s.db)
    (hanswer : ∀ revision, statement ≠ .answer (.success revision)) {i : AdminInput} :
    AdminLog (tr ++ [⟨s, i, (s.first input statement).2, (s.first input statement).1⟩])
      (s.first input statement).1 := by
  cases statement with
  | answer result =>
    refine h.kept rfl h.pending fun input' revision hout => ?_
    cases hout
    exact hanswer revision rfl
  | read change =>
    refine h.kept rfl (fun id change' hcall => ?_) fun _ _ hout => by cases hout
    rw [AdminState.first, AdminState.suspend, Table.lookup_insert_eq] at hcall
    split at hcall
    · cases hcall
      exact hread change rfl
    · exact h.pending id change' hcall

theorem lookup_erase {calls : Table ℕ AdminCall} {id id' : ℕ} {call : AdminCall}
    (h : (calls.erase id).lookup id' = some call) : calls.lookup id' = some call := by
  rw [Table.lookup_erase_eq] at h
  split at h
  · cases h
  · exact h

theorem addNote (h : AdminLog tr s) (input : NoteMutationInput) (now : ℤ) :
    AdminLog (tr ++ [entry AdminState.step s (.addNote input now)])
      (AdminState.step s (.addNote input now)).1 := by
  unfold AdminState.step entry
  dsimp only
  split
  · refine h.kept rfl (fun id change hcall => ?_) fun _ _ hout => by cases hout
    rw [AdminState.suspend, Table.lookup_insert_eq] at hcall
    split at hcall
    · cases hcall
    · exact h.pending id change hcall
  · next db result hnote =>
    rcases addNote_cases h.ids hnote with ⟨rfl, rfl⟩ | ⟨row, row', event, hc, rfl⟩
    · exact h.kept rfl h.pending fun _ _ hout => by cases hout
    · exact h.committed hc (fun _ _ hcall => hcall) rfl

theorem resume (h : AdminLog tr s) (id : ℕ) (now : ℤ) :
    AdminLog (tr ++ [entry AdminState.step s (.resume id now)])
      (AdminState.step s (.resume id now)).1 := by
  unfold AdminState.step entry
  dsimp only
  split
  · exact h.kept rfl h.pending fun _ _ hout => by cases hout
  · next change hcall =>
    rcases commit_cases h.ids h.consistent (h.pending id change hcall) now with
      hconflict | ⟨row, row', event, hc, hsuccess⟩
    · rw [hconflict]
      exact h.kept rfl (fun _ _ hcall' => h.pending _ _ (lookup_erase hcall'))
        fun _ _ hout => by cases hout
    · exact h.committed hc (fun _ _ hcall' => lookup_erase hcall')
        (congrArg (fun result => some (change.input, result)) hsuccess)
  · refine h.kept rfl (fun _ _ hcall' => h.pending _ _ (lookup_erase hcall')) fun _ _ hout => ?_
    unfold noteResult at hout
    dsimp only at hout
    split at hout <;> cases hout

theorem step (h : AdminLog tr s) (input : AdminInput) :
    AdminLog (tr ++ [entry AdminState.step s input]) (AdminState.step s input).1 := by
  cases input with
  | create id submissionToken payloadFingerprint request now =>
    exact h.created { id, updatedAt := now, request, submissionToken, payloadFingerprint }
      rfl rfl rfl rfl rfl rfl
  | changeStatus input =>
    exact h.first (fun _ => changeStatus_read h.ids) fun _ => changeStatus_answer _
  | addNote input now => exact h.addNote input now
  | archive input =>
    exact h.first (fun _ => archive_read h.ids h.consistent) fun _ => archive_answer _
  | restore input => exact h.first (fun _ => restore_read h.ids) fun _ => restore_answer _
  | resume id now => exact h.resume id now
  | abort id =>
    exact h.kept rfl (fun _ _ hcall => h.pending _ _ (lookup_erase hcall)) fun _ _ hout => by cases hout

end AdminLog

theorem adminLog_exec (inputs : List AdminInput) :
    AdminLog (trace AdminState.step {} inputs) (exec AdminState.step {} inputs) :=
  run_induction AdminState.step .empty (fun _ _ input h => h.step input) inputs

/-! ## The log agrees -/

/-- What the log says of the inquiries. -/
structure AuditedFaithfully (inputs : List AdminInput) : Prop where
  /-- A revision counts the recorded events of administrators. -/
  revision : ∀ row ∈ (exec AdminState.step {} inputs).db.inquiries,
    row.revision = (adminEvents row.id (exec AdminState.step {} inputs).db.events).length
  /-- A recorded change of a status is an edge of the graph. -/
  edges : ∀ event ∈ (exec AdminState.step {} inputs).db.events, event.eventType = .statusChanged →
    ∃ previousStatus newStatus,
      parseInquiryAuditDetail event.eventType.text event.metadata =
        some (.statusChanged previousStatus newStatus) ∧
      canTransitionInquiryStatus previousStatus newStatus = true
  /-- The events lead from the received status to the status of the row and the one before its archive. -/
  replayed : ∀ row ∈ (exec AdminState.step {} inputs).db.inquiries,
    Workflow.replay (adminEvents row.id (exec AdminState.step {} inputs).db.events) =
      some ⟨row.status, row.preArchiveStatus⟩
  /-- A revision is won once, by a mutation that expects the revision of the row. -/
  once : ∀ inquiryId revision, (trace AdminState.step {} inputs).countP (wins inquiryId revision) ≤ 1
  current : ∀ e ∈ trace AdminState.step {} inputs, ∀ input revision,
    e.out = some (input, .success revision) → ∃ row ∈ e.pre.db.inquiries,
      row.id = input.inquiryId ∧ (row.revision : ℤ) = input.expectedRevision
  /-- An inquiry is archived while its status before the archive is set. -/
  archived : ∀ row ∈ (exec AdminState.step {} inputs).db.inquiries,
    row.status = .archived ↔ row.preArchiveStatus.isSome = true
  /-- What is restored is the status before the last event of the archive. -/
  restored : ∀ row ∈ (exec AdminState.step {} inputs).db.inquiries, ∀ a x b y c,
    adminEvents row.id (exec AdminState.step {} inputs).db.events = a ++ x :: b ++ y :: c →
    x.eventType = .archived → y.eventType = .restored → (∀ z ∈ b, z.eventType ≠ .archived) →
    ∃ w status w', Workflow.replay a = some w ∧ w.status = status ∧
      parseInquiryAuditDetail y.eventType.text y.metadata = some (.restored status) ∧
      Workflow.replay (a ++ x :: b ++ [y]) = some w' ∧ w'.status = status
  /-- All metadata is read by the audit. -/
  audited : ∀ event ∈ (exec AdminState.step {} inputs).db.events, event.metadata.isSome = true →
    (parseInquiryAuditDetail event.eventType.text event.metadata).isSome = true
  /-- Nothing changes but by a success, or by a new inquiry. -/
  unchanged : ∀ e ∈ trace AdminState.step {} inputs,
    (∀ input revision, e.out ≠ some (input, .success revision)) →
    (∀ id token fingerprint request now, e.input ≠ .create id token fingerprint request now) →
    e.post.db = e.pre.db

/-- A step that changes the tables creates an inquiry, or is a success of a mutation that expects the
revision of its row. -/
theorem step_db {tr : List AdminStep} {s : AdminState} (h : AdminLog tr s) (input : AdminInput) :
    ((∃ id token fingerprint request now, input = .create id token fingerprint request now) ∨
        (AdminState.step s input).1.db = s.db) ∧
      (∀ i revision, (AdminState.step s input).2 ≠ some (i, .success revision)) ∨
    ∃ i row, row ∈ s.db.inquiries ∧ row.id = i.inquiryId ∧ (row.revision : ℤ) = i.expectedRevision ∧
      (AdminState.step s input).2 = some (i, .success (row.revision + 1)) := by
  have hfirst {i : RevisionMutationInput} {statement : FirstStatement}
      (hanswer : ∀ revision, statement ≠ .answer (.success revision)) :
      (s.first i statement).1.db = s.db ∧
        ∀ i' revision, (s.first i statement).2 ≠ some (i', .success revision) := by
    cases statement with
    | answer result =>
      refine ⟨rfl, fun i' revision hout => ?_⟩
      cases hout
      exact hanswer revision rfl
    | read change => exact ⟨rfl, fun _ _ hout => by cases hout⟩
  cases input with
  | create id token fingerprint request now =>
    exact .inl ⟨.inl ⟨id, token, fingerprint, request, now, rfl⟩, fun _ _ hout => by cases hout⟩
  | changeStatus input =>
    exact .inl ⟨.inr (hfirst changeStatus_answer).1, (hfirst changeStatus_answer).2⟩
  | archive input =>
    exact .inl ⟨.inr (hfirst archive_answer).1, (hfirst archive_answer).2⟩
  | restore input =>
    exact .inl ⟨.inr (hfirst restore_answer).1, (hfirst restore_answer).2⟩
  | addNote input now =>
    unfold AdminState.step
    dsimp only
    split
    · exact .inl ⟨.inr rfl, fun _ _ hout => by cases hout⟩
    · next db result hnote =>
      rcases addNote_cases h.ids hnote with ⟨rfl, rfl⟩ | ⟨row, row', event, hc, rfl⟩
      · exact .inl ⟨.inr rfl, fun _ _ hout => by cases hout⟩
      · exact .inr ⟨_, row, hc.mem, hc.id, hc.expected, rfl⟩
  | resume id now =>
    unfold AdminState.step
    dsimp only
    split
    · exact .inl ⟨.inr rfl, fun _ _ hout => by cases hout⟩
    · next change hcall =>
      rcases commit_cases h.ids h.consistent (h.pending id change hcall) now with
        hconflict | ⟨row, row', event, hc, hsuccess⟩
      · rw [hconflict]
        exact .inl ⟨.inr rfl, fun _ _ hout => by cases hout⟩
      · refine .inr ⟨change.input, row, hc.mem, hc.id, hc.expected, ?_⟩
        rw [hsuccess]
    · refine .inl ⟨.inr rfl, fun _ _ hout => ?_⟩
      unfold noteResult at hout
      split at hout <;> cases hout
  | abort id => exact .inl ⟨.inr rfl, fun _ _ hout => by cases hout⟩

/-- **The audit log agrees with the inquiries** after every run of mutations. -/
theorem audited_faithfully (inputs : List AdminInput) : AuditedFaithfully inputs := by
  have hlog := adminLog_exec inputs
  have hstep {e : AdminStep} (he : e ∈ trace AdminState.step {} inputs) :
      ∃ tr, AdminLog tr e.pre ∧ e = entry AdminState.step e.pre e.input := by
    obtain ⟨pre, post, h⟩ := List.append_of_mem he
    obtain ⟨js, input, -, -, -, rfl, -⟩ := trace_eq_append_cons _ h
    exact ⟨_, adminLog_exec js, rfl⟩
  constructor
  · exact hlog.revision
  · intro event hevent htype
    obtain ⟨row, hrow, hid⟩ := hlog.known event hevent
    have hadmin : event.actorType = .admin := by
      rcases hactor : event.actorType with _ | _
      · rw [hlog.system event hevent hactor] at htype
        cases htype
      · rfl
    have hmem : event ∈ adminEvents row.id (exec AdminState.step {} inputs).db.events :=
      List.mem_filter.2 ⟨hevent, by simp [hid, hadmin]⟩
    obtain ⟨a, b, hsplit⟩ := List.append_of_mem hmem
    have hreplay := hlog.replayed row hrow
    rw [hsplit] at hreplay
    obtain ⟨w₁, w₂, -, hadvance, -⟩ := Workflow.replay_append_cons hreplay
    exact Workflow.edge_of_advance hadvance htype
  · exact hlog.replayed
  · exact hlog.once
  · intro e he input revision hout
    obtain ⟨tr, htr, heq⟩ := hstep he
    rw [heq] at hout
    rcases step_db htr e.input with ⟨-, hnone⟩ | ⟨i, row, hrow, hid, hexpected, hsuccess⟩
    · exact absurd hout (hnone input revision)
    · rw [entry_out, hsuccess] at hout
      cases hout
      exact ⟨row, hrow, hid, hexpected⟩
  · exact fun row hrow => (hlog.consistent row hrow).1
  · intro row hrow a x b y c hevents hx hy hb
    have hreplay := hlog.replayed row hrow
    rw [hevents] at hreplay
    exact Workflow.restored_eq_archived hreplay hx hy hb
  · exact hlog.audited
  · intro e he hout hcreate
    obtain ⟨tr, htr, heq⟩ := hstep he
    rw [heq] at hout ⊢
    rcases step_db htr e.input with ⟨hsame, -⟩ | ⟨i, row, -, -, -, hsuccess⟩
    · rcases hsame with ⟨id, token, fingerprint, request, now, hinput⟩ | hsame
      · exact absurd hinput (hcreate id token fingerprint request now)
      · exact hsame
    · exact absurd hsuccess (hout i _)

end Limitmark.Inquiries
