import Limitmark.Inquiries.Outbox

/-!
# The lease protocol of the outbox

A claim gives a row a new attempt number and a lease, and a mark succeeds only with both. So the number
of the row's attempts counts its claims, a stale result finds no row, and a claim is marked once at
most, in every order of the transactions of any number of workers (`leases_exec`).
-/

namespace Limitmark.Inquiries

open Limitmark.Foundations

namespace Outbox

abbrev Transaction := Entry Outbox Op Output

def Output.jobs : Output → List ClaimedNotification
  | .claimed jobs => jobs
  | _ => []

/-- The claim that a transaction reports a result for, and what the result makes of the row. -/
def markOf : Op → Option (CompleteNotificationInput × (NotificationRow → NotificationRow))
  | .markSent input => some (input, NotificationRow.markedSent input)
  | .markFailure input => some (input.toCompleteNotificationInput, NotificationRow.markedFailure input)
  | _ => none

/-- A transaction records the result of the claim with this row and attempt number. -/
def completes (outboxId : String) (attempts : ℕ) (e : Transaction) : Bool :=
  e.out = .marked true &&
    (markOf e.input).any fun mark => mark.1.outboxId = outboxId && mark.1.attempts = attempts

/-- How often a row was claimed. -/
def claimsOf (outboxId : String) (tr : List Transaction) : ℕ :=
  ((tr.flatMap fun e => e.out.jobs).map ClaimedNotification.outboxId).count outboxId

/-! ## What a transaction does -/

variable {rows rows' : Outbox} {op : Op} {out : Output}

/-- What a result leaves of the row of its claim. -/
structure Completed (r r' : NotificationRow) : Prop where
  id : r'.id = r.id
  attempts : r'.attempts = r.attempts
  lockedUntil : r'.lockedUntil = none
  status : r'.status ≠ .processing

inductive Effect (rows : Outbox) (op : Op) (out : Output) (rows' : Outbox) : Prop
  | kept (same : rows' = rows) (jobs : out.jobs = []) (unmarked : out ≠ .marked true)
  | enqueued {row : NotificationRow} (fresh : ∀ r ∈ rows, r.id ≠ row.id)
      (waiting : row.status = .pending) (attempts : row.attempts = 0)
      (lockedUntil : row.lockedUntil = none) (rows_eq : rows' = rows ++ [row])
      (out_eq : out = .enqueued)
  | claimed {input : ClaimNotificationsInput} {skipped ids : List String}
      (claim : op = .claimBatch input skipped)
      (ids_eq : ids = (candidates input skipped rows).map NotificationRow.id)
      (rows_eq : rows' =
        updateWhere (fun r => r.id ∈ ids) (NotificationRow.claimed input.lockedUntil) rows)
      (out_eq : out = .claimed ((rows'.filter fun r => r.id ∈ ids).map
        (NotificationRow.toClaimed input.lockedUntil)))
  | marked {input : CompleteNotificationInput} {f : NotificationRow → NotificationRow}
      {row : NotificationRow} (mark : markOf op = some (input, f)) (mem : row ∈ rows)
      (owned : row.ownedLease input = true)
      (rows_eq : rows' = updateWhere (NotificationRow.ownedLease input) f rows)
      (out_eq : out = .marked true)

theorem map_id_claimed (p : NotificationRow → Bool) (lockedUntil : ℤ) (rows : Outbox) :
    (updateWhere p (NotificationRow.claimed lockedUntil) rows).map NotificationRow.id =
      rows.map NotificationRow.id :=
  map_key_updateWhere fun _ _ => rfl

theorem completed_of_markOf {input : CompleteNotificationInput}
    {f : NotificationRow → NotificationRow} (h : markOf op = some (input, f)) (r : NotificationRow) :
    Completed r (f r) := by
  cases op with
  | enqueue => cases h
  | claimBatch => cases h
  | markSent input =>
    cases h
    exact ⟨rfl, rfl, rfl, fun h => by cases h⟩
  | markFailure input =>
    cases h
    refine ⟨rfl, rfl, rfl, ?_⟩
    simp only [NotificationRow.markedFailure]
    split <;> exact fun h => by cases h

theorem mem_candidates {input : ClaimNotificationsInput} {skipped : List String} {r : NotificationRow}
    (h : r ∈ candidates input skipped rows) : r ∈ rows ∧ r.isCandidate input.now = true := by
  have hmem := List.mem_of_mem_take h
  rw [List.mem_insertionSort, List.mem_filter, Bool.and_eq_true] at hmem
  exact ⟨hmem.1, hmem.2.1⟩

theorem ownedLease_iff {input : CompleteNotificationInput} {r : NotificationRow} :
    r.ownedLease input = true ↔ r.id = input.outboxId ∧ r.status = .processing ∧
      r.attempts = input.attempts ∧ r.lockedUntil = some input.lockedUntil := by
  simp [NotificationRow.ownedLease, and_assoc]

theorem effect_mark (hrows : (rows.map NotificationRow.id).Nodup) {input : CompleteNotificationInput}
    {f : NotificationRow → NotificationRow} (hmark : markOf op = some (input, f)) :
    Effect rows op (.marked (rows.countP (NotificationRow.ownedLease input) = 1))
      (updateWhere (NotificationRow.ownedLease input) f rows) := by
  by_cases howned : ∃ r ∈ rows, r.ownedLease input = true
  · obtain ⟨row, hrow, hlease⟩ := howned
    have hle := countP_le_one hrows (p := NotificationRow.ownedLease input) (k := input.outboxId)
      fun r hr => (ownedLease_iff.1 hr).1
    have hpos := List.countP_pos_iff.2 ⟨row, hrow, hlease⟩
    refine .marked hmark hrow hlease rfl ?_
    rw [decide_eq_true (by omega)]
  · have hnone : ∀ r ∈ rows, r.ownedLease input = false := fun r hr =>
      Bool.eq_false_iff.2 fun hlease => howned ⟨r, hr, hlease⟩
    refine .kept (updateWhere_eq_self hnone) rfl fun h => ?_
    have hcount := of_decide_eq_true (Output.marked.inj h)
    obtain ⟨r, hr, hlease⟩ := List.countP_pos_iff.1 (hcount ▸ Nat.one_pos)
    rw [hnone r hr] at hlease
    cases hlease

theorem step_effect (hrows : (rows.map NotificationRow.id).Nodup) (op : Op) :
    Effect rows op (step rows op).2 (step rows op).1 := by
  cases op with
  | enqueue id inquiryId eventType availableAt createdAt =>
    unfold step enqueue
    dsimp only
    split
    · exact .kept rfl rfl fun h => by cases h
    · next hnew =>
      simp only [List.any_eq_true, decide_eq_true_eq, not_exists, not_and] at hnew
      exact .enqueued hnew rfl rfl rfl rfl rfl
  | claimBatch input skipped =>
    unfold step claimBatch
    dsimp only
    split
    · exact .kept rfl rfl fun h => by cases h
    · exact .claimed rfl rfl rfl rfl
  | markSent input => exact effect_mark hrows rfl
  | markFailure input => exact effect_mark hrows rfl

/-! ## Runs -/

/-- The invariant of the outbox after the transactions `tr`. -/
structure Leases (tr : List Transaction) (rows : Outbox) : Prop where
  ids : (rows.map NotificationRow.id).Nodup
  known : ∀ id, claimsOf id tr ≠ 0 → ∃ r ∈ rows, r.id = id
  attempts : ∀ r ∈ rows, r.attempts = claimsOf r.id tr
  lease : ∀ r ∈ rows, r.lockedUntil.isSome = true ↔ r.status = .processing
  completed : ∀ id attempts, 0 < tr.countP (completes id attempts) →
    ∃ r ∈ rows, r.id = id ∧ attempts ≤ r.attempts ∧ (attempts = r.attempts → r.status ≠ .processing)
  once : ∀ id attempts, tr.countP (completes id attempts) ≤ 1

namespace Leases

variable {tr : List Transaction} {e : Transaction} {id : String} {attempts : ℕ}

theorem claimsOf_snoc : claimsOf id (tr ++ [e]) =
    claimsOf id tr + (e.out.jobs.map ClaimedNotification.outboxId).count id := by
  rw [claimsOf, List.flatMap_append, List.map_append, List.count_append, List.flatMap_singleton,
    claimsOf]

theorem completes_snoc : (tr ++ [e]).countP (completes id attempts) =
    tr.countP (completes id attempts) + if completes id attempts e then 1 else 0 := by
  rw [List.countP_append, List.countP_singleton]

theorem claimsOf_snoc_of_jobs (jobs : e.out.jobs = []) (id : String) :
    claimsOf id (tr ++ [e]) = claimsOf id tr := by
  rw [claimsOf_snoc, jobs]
  rfl

theorem completes_snoc_of_unmarked (unmarked : e.out ≠ .marked true) (id : String) (attempts : ℕ) :
    (tr ++ [e]).countP (completes id attempts) = tr.countP (completes id attempts) := by
  rw [completes_snoc, completes, decide_eq_false unmarked]
  rfl

theorem empty : Leases [] [] where
  ids := List.nodup_nil
  known := fun _ h => absurd rfl h
  attempts := fun _ h => by cases h
  lease := fun _ h => by cases h
  completed := fun _ _ h => by cases h
  once := fun _ _ => Nat.zero_le _

theorem kept (h : Leases tr rows) (jobs : e.out.jobs = []) (unmarked : e.out ≠ .marked true) :
    Leases (tr ++ [e]) rows := by
  constructor
  · exact h.ids
  · simpa only [claimsOf_snoc_of_jobs jobs] using h.known
  · simpa only [claimsOf_snoc_of_jobs jobs] using h.attempts
  · exact h.lease
  · simpa only [completes_snoc_of_unmarked unmarked] using h.completed
  · simpa only [completes_snoc_of_unmarked unmarked] using h.once

theorem enqueued (h : Leases tr rows) {row : NotificationRow} (fresh : ∀ r ∈ rows, r.id ≠ row.id)
    (waiting : row.status = .pending) (zero : row.attempts = 0) (free : row.lockedUntil = none)
    (out : e.out = .enqueued) : Leases (tr ++ [e]) (rows ++ [row]) := by
  have hjobs : e.out.jobs = [] := by rw [out]; rfl
  have hunmarked : e.out ≠ .marked true := by
    rw [out]
    exact fun h => by cases h
  have hmem {r : NotificationRow} (hr : r ∈ rows ++ [row]) : r ∈ rows ∨ r = row := by
    rwa [List.mem_append, List.mem_singleton] at hr
  constructor
  · exact nodup_append_key h.ids fresh
  · intro id hid
    rw [claimsOf_snoc_of_jobs hjobs] at hid
    obtain ⟨r, hr, rfl⟩ := h.known id hid
    exact ⟨r, List.mem_append_left _ hr, rfl⟩
  · intro r hr
    rw [claimsOf_snoc_of_jobs hjobs]
    rcases hmem hr with hr | rfl
    · exact h.attempts r hr
    · rw [zero]
      by_contra hclaims
      obtain ⟨r', hr', hid⟩ := h.known _ (Ne.symm hclaims)
      exact fresh r' hr' hid
  · intro r hr
    rcases hmem hr with hr | rfl
    · exact h.lease r hr
    · simp [free, waiting]
  · intro id attempts hpos
    rw [completes_snoc_of_unmarked hunmarked] at hpos
    obtain ⟨r, hr, hrest⟩ := h.completed id attempts hpos
    exact ⟨r, List.mem_append_left _ hr, hrest⟩
  · simpa only [completes_snoc_of_unmarked hunmarked] using h.once

theorem claimed (h : Leases tr rows) {lockedUntil : ℤ} {ids : List String}
    (rows_eq : rows' = updateWhere (fun r => r.id ∈ ids) (NotificationRow.claimed lockedUntil) rows)
    (out : e.out = .claimed ((rows'.filter fun r => r.id ∈ ids).map
      (NotificationRow.toClaimed lockedUntil))) : Leases (tr ++ [e]) rows' := by
  have hids : rows'.map NotificationRow.id = rows.map NotificationRow.id := by
    rw [rows_eq]
    exact map_id_claimed _ _ _
  have hjobs : e.out.jobs.map ClaimedNotification.outboxId =
      (rows'.filter fun r => r.id ∈ ids).map NotificationRow.id := by
    rw [out, Output.jobs, List.map_map]
    rfl
  have hnodup : ((rows'.filter fun r => r.id ∈ ids).map NotificationRow.id).Nodup := by
    refine List.Nodup.sublist (List.filter_sublist.map _) ?_
    rw [hids]
    exact h.ids
  have hcount {r : NotificationRow} (hr : r ∈ rows') : claimsOf r.id (tr ++ [e]) =
      claimsOf r.id tr + if r.id ∈ ids then 1 else 0 := by
    rw [claimsOf_snoc, hjobs, hnodup.count]
    congr 1
    refine if_congr ?_ rfl rfl
    simp only [List.mem_map, List.mem_filter, decide_eq_true_eq]
    constructor
    · rintro ⟨r', ⟨-, hr'⟩, hid⟩
      rwa [← hid]
    · exact fun hid => ⟨r, ⟨hr, hid⟩, rfl⟩
  have hunmarked : e.out ≠ .marked true := by
    rw [out]
    exact fun h => by cases h
  have hknown {r : NotificationRow} (hr : r ∈ rows) : ∃ r' ∈ rows', r'.id = r.id :=
    List.mem_map.1 (hids ▸ List.mem_map_of_mem hr)
  constructor
  · rw [hids]
    exact h.ids
  · intro id hid
    rw [claimsOf_snoc, hjobs, hnodup.count] at hid
    by_cases hold : claimsOf id tr = 0
    · rw [hold, Nat.zero_add, ne_eq, ite_eq_right_iff, Classical.not_imp] at hid
      obtain ⟨r, hr, rfl⟩ := List.mem_map.1 hid.1
      exact ⟨r, (List.mem_filter.1 hr).1, rfl⟩
    · obtain ⟨r, hr, rfl⟩ := h.known id hold
      exact hknown hr
  · intro r hr
    rw [hcount hr]
    rw [rows_eq] at hr
    rcases mem_updateWhere.1 hr with ⟨hr, hid⟩ | ⟨r₀, hr₀, hid, rfl⟩
    · rw [if_neg (of_decide_eq_false hid), h.attempts r hr, Nat.add_zero]
    · have hin : (NotificationRow.claimed lockedUntil r₀).id ∈ ids := of_decide_eq_true hid
      rw [if_pos hin]
      exact congrArg (· + 1) (h.attempts r₀ hr₀)
  · intro r hr
    rw [rows_eq] at hr
    rcases mem_updateWhere.1 hr with ⟨hr, -⟩ | ⟨r₀, -, -, rfl⟩
    · exact h.lease r hr
    · exact ⟨fun _ => rfl, fun _ => rfl⟩
  · intro id attempts hpos
    rw [completes_snoc_of_unmarked hunmarked] at hpos
    obtain ⟨r, hr, rfl, hle, hstatus⟩ := h.completed id attempts hpos
    rw [rows_eq]
    by_cases hid : r.id ∈ ids
    · refine ⟨_, mem_updateWhere.2 (.inr ⟨r, hr, decide_eq_true hid, rfl⟩), rfl,
        Nat.le_succ_of_le hle, fun heq => ?_⟩
      rw [heq] at hle
      exact absurd hle (Nat.not_succ_le_self _)
    · exact ⟨r, mem_updateWhere_of_not hr (decide_eq_false hid), rfl, hle, hstatus⟩
  · simpa only [completes_snoc_of_unmarked hunmarked] using h.once

theorem marked (h : Leases tr rows) {input : CompleteNotificationInput}
    {f : NotificationRow → NotificationRow} {row : NotificationRow}
    (mark : markOf e.input = some (input, f)) (mem : row ∈ rows)
    (owned : row.ownedLease input = true)
    (rows_eq : rows' = updateWhere (NotificationRow.ownedLease input) f rows)
    (out : e.out = .marked true) : Leases (tr ++ [e]) rows' := by
  have hcompleted := completed_of_markOf mark
  have hjobs : e.out.jobs = [] := by rw [out]; rfl
  have hthis {id : String} {attempts : ℕ} : completes id attempts e = true ↔
      input.outboxId = id ∧ input.attempts = attempts := by
    rw [completes, out, mark]
    simp
  have hmem {r : NotificationRow} (hr : r ∈ rows) : ∃ r' ∈ rows', r'.id = r.id ∧
      r'.attempts = r.attempts ∧ (r.status ≠ .processing ∨ r.ownedLease input = true →
        r'.status ≠ .processing) := by
    rw [rows_eq]
    by_cases hr' : r.ownedLease input = true
    · exact ⟨f r, mem_updateWhere.2 (.inr ⟨r, hr, hr', rfl⟩), (hcompleted r).id,
        (hcompleted r).attempts, fun _ => (hcompleted r).status⟩
    · exact ⟨r, mem_updateWhere_of_not hr (Bool.eq_false_iff.2 hr'), rfl, rfl,
        fun hstatus => hstatus.resolve_right hr'⟩
  constructor
  · rw [rows_eq, map_key_updateWhere fun r _ => (hcompleted r).id]
    exact h.ids
  · intro id hid
    rw [claimsOf_snoc_of_jobs hjobs] at hid
    obtain ⟨r, hr, rfl⟩ := h.known id hid
    obtain ⟨r', hr', hid', -⟩ := hmem hr
    exact ⟨r', hr', hid'⟩
  · intro r hr
    rw [claimsOf_snoc_of_jobs hjobs]
    rw [rows_eq] at hr
    rcases mem_updateWhere.1 hr with ⟨hr, -⟩ | ⟨r₀, hr₀, -, rfl⟩
    · exact h.attempts r hr
    · rw [(hcompleted r₀).attempts, (hcompleted r₀).id]
      exact h.attempts r₀ hr₀
  · intro r hr
    rw [rows_eq] at hr
    rcases mem_updateWhere.1 hr with ⟨hr, -⟩ | ⟨r₀, -, -, rfl⟩
    · exact h.lease r hr
    · rw [(hcompleted r₀).lockedUntil]
      exact ⟨fun h => (by cases h), fun h => absurd h (hcompleted r₀).status⟩
  · intro id attempts hpos
    by_cases hnew : completes id attempts e = true
    · obtain ⟨rfl, rfl⟩ := hthis.1 hnew
      obtain ⟨hid, -, hattempts, -⟩ := ownedLease_iff.1 owned
      obtain ⟨r', hr', hid', hattempts', hstatus⟩ := hmem mem
      refine ⟨r', hr', hid'.trans hid, ?_, fun _ => hstatus (.inr owned)⟩
      rw [hattempts', hattempts]
    · rw [completes_snoc, if_neg hnew] at hpos
      obtain ⟨r, hr, hid, hle, hstatus⟩ := h.completed id attempts hpos
      obtain ⟨r', hr', hid', hattempts', hstatus'⟩ := hmem hr
      refine ⟨r', hr', hid'.trans hid, hattempts' ▸ hle, fun heq => hstatus' (.inl ?_)⟩
      exact hstatus (heq.trans hattempts')
  · intro id attempts
    rw [completes_snoc]
    split
    · next hnew =>
      obtain ⟨rfl, rfl⟩ := hthis.1 hnew
      obtain ⟨hid, hprocessing, hattempts, -⟩ := ownedLease_iff.1 owned
      have hzero : tr.countP (completes input.outboxId input.attempts) = 0 := by
        by_contra hpos
        obtain ⟨r, hr, hrid, -, hstatus⟩ := h.completed _ _ (Nat.pos_of_ne_zero hpos)
        obtain rfl := eq_of_key h.ids hr mem (hrid.trans hid.symm)
        exact hstatus hattempts.symm hprocessing
      omega
    · exact h.once id attempts

theorem step (h : Leases tr rows) (op : Op) :
    Leases (tr ++ [entry Outbox.step rows op]) (Outbox.step rows op).1 := by
  cases step_effect h.ids op with
  | kept same jobs unmarked =>
    rw [same]
    exact h.kept jobs unmarked
  | enqueued fresh waiting zero free rows_eq out =>
    rw [rows_eq]
    exact h.enqueued fresh waiting zero free out
  | claimed _ _ rows_eq out => exact h.claimed rows_eq out
  | marked mark mem owned rows_eq out => exact h.marked mark mem owned rows_eq out

end Leases

theorem leases_exec (ops : List Op) : Leases (trace step [] ops) (exec step [] ops) :=
  run_induction step .empty (fun _ _ op h => h.step op) ops

/-! ## The protocol -/

/-- A row whose lease has not expired at a time. -/
def isLeased (now : ℤ) (r : NotificationRow) : Prop :=
  r.status = .processing ∧ ∀ t, r.lockedUntil = some t → now < t

/-- What the outbox guarantees of its runs. -/
structure LeaseProtocol (ops : List Op) : Prop where
  /-- A row that is sent or failed stays as it is. -/
  final : ∀ e ∈ trace step [] ops, ∀ r ∈ e.pre, r.status.isFinal = true → r ∈ e.post
  /-- A claim leaves a row whose lease has not expired by its clock. -/
  leased : ∀ e ∈ trace step [] ops, ∀ input skipped, e.input = .claimBatch input skipped →
    ∀ r ∈ e.pre, isLeased input.now r →
      r ∈ e.post ∧ ∀ job ∈ e.out.jobs, job.outboxId ≠ r.id
  /-- A result for another attempt or another lease than the current one changes nothing. -/
  stale : ∀ e ∈ trace step [] ops, ∀ input f, markOf e.input = some (input, f) →
    (∀ r ∈ e.pre, r.id = input.outboxId →
      r.attempts ≠ input.attempts ∨ r.lockedUntil ≠ some input.lockedUntil) →
    e.post = e.pre ∧ e.out = .marked false
  /-- The attempts of a row are its claims. -/
  attempts : ∀ r ∈ exec step [] ops, r.attempts = claimsOf r.id (trace step [] ops)
  /-- A row has a lease while it is processed. -/
  lease : ∀ r ∈ exec step [] ops, r.lockedUntil.isSome = true ↔ r.status = .processing
  /-- A claim is completed at most once. -/
  once : ∀ id attempts, (trace step [] ops).countP (completes id attempts) ≤ 1
  /-- A key has one row. -/
  ids : ((exec step [] ops).map NotificationRow.id).Nodup

theorem not_isCandidate_of_isFinal {now : ℤ} {r : NotificationRow} (h : r.status.isFinal = true) :
    r.isCandidate now = false := by
  rw [NotificationRow.isCandidate]
  revert h
  cases r.status <;> simp [NotificationStatus.isFinal]

theorem not_isCandidate_of_isLeased {now : ℤ} {r : NotificationRow} (h : isLeased now r) :
    r.isCandidate now = false := by
  obtain ⟨hstatus, hlease⟩ := h
  rw [NotificationRow.isCandidate, hstatus]
  rcases hlocked : r.lockedUntil with _ | t
  · rfl
  · simpa using hlease t hlocked

/-- A transaction leaves a row that no claim at its time would take, unless it completes it. -/
theorem mem_step (hrows : (rows.map NotificationRow.id).Nodup) {r : NotificationRow} (hr : r ∈ rows)
    (hfree : ∀ input skipped, op = .claimBatch input skipped → r.isCandidate input.now = false)
    (hstatus : ∀ input f, markOf op = some (input, f) → r.status ≠ .processing) :
    r ∈ (step rows op).1 := by
  cases step_effect hrows op with
  | kept same => rwa [same]
  | enqueued _ _ _ _ rows_eq =>
    rw [rows_eq]
    exact List.mem_append_left _ hr
  | @claimed input skipped ids claim ids_eq rows_eq =>
    rw [rows_eq]
    refine mem_updateWhere_of_not hr (decide_eq_false fun hid => ?_)
    rw [ids_eq] at hid
    obtain ⟨r', hr', hid'⟩ := List.mem_map.1 hid
    obtain ⟨hmem, hcandidate⟩ := mem_candidates hr'
    obtain rfl := eq_of_key hrows hmem hr hid'
    rw [hfree input skipped claim] at hcandidate
    cases hcandidate
  | @marked input f _ mark _ _ rows_eq =>
    rw [rows_eq]
    refine mem_updateWhere_of_not hr (Bool.eq_false_iff.2 fun howned => ?_)
    exact hstatus input f mark (ownedLease_iff.1 howned).2.1

theorem not_mem_jobs (hrows : (rows.map NotificationRow.id).Nodup) {r : NotificationRow}
    (hr : r ∈ rows) {input : ClaimNotificationsInput} {skipped : List String}
    (hfree : r.isCandidate input.now = false) :
    ∀ job ∈ (step rows (.claimBatch input skipped)).2.jobs, job.outboxId ≠ r.id := by
  intro job hjob hid
  cases step_effect hrows (.claimBatch input skipped) with
  | kept _ jobs =>
    rw [jobs] at hjob
    cases hjob
  | enqueued _ _ _ _ _ out =>
    rw [out] at hjob
    cases hjob
  | claimed claim ids_eq _ out =>
    cases claim
    rw [out, Output.jobs] at hjob
    obtain ⟨r', hr', rfl⟩ := List.mem_map.1 hjob
    have hids := of_decide_eq_true (List.mem_filter.1 hr').2
    rw [ids_eq] at hids
    obtain ⟨r'', hr'', hid''⟩ := List.mem_map.1 hids
    obtain ⟨hmem, hcandidate⟩ := mem_candidates hr''
    obtain rfl := eq_of_key hrows hmem hr (hid''.trans hid)
    rw [hfree] at hcandidate
    cases hcandidate
  | marked _ _ _ _ out =>
    rw [out] at hjob
    cases hjob

theorem step_stale {input : CompleteNotificationInput}
    {f : NotificationRow → NotificationRow} (hmark : markOf op = some (input, f))
    (hstale : ∀ r ∈ rows, r.id = input.outboxId →
      r.attempts ≠ input.attempts ∨ r.lockedUntil ≠ some input.lockedUntil) :
    (step rows op).1 = rows ∧ (step rows op).2 = .marked false := by
  have hnone : ∀ r ∈ rows, r.ownedLease input = false := by
    intro r hr
    rw [Bool.eq_false_iff]
    intro howned
    obtain ⟨hid, -, hattempts, hlocked⟩ := ownedLease_iff.1 howned
    rcases hstale r hr hid with h | h
    · exact h hattempts
    · exact h hlocked
  have hcount : rows.countP (NotificationRow.ownedLease input) = 0 :=
    List.countP_eq_zero.2 fun r hr => by rw [hnone r hr]; exact Bool.false_ne_true
  cases op with
  | enqueue => cases hmark
  | claimBatch => cases hmark
  | markSent input =>
    cases hmark
    refine ⟨updateWhere_eq_self hnone, ?_⟩
    rw [step, markSent, hcount]
    rfl
  | markFailure input =>
    cases hmark
    refine ⟨updateWhere_eq_self hnone, ?_⟩
    rw [step, markFailure, hcount]
    rfl

/-- **The lease protocol of the outbox**, in every order of the transactions. -/
theorem lease_protocol (ops : List Op) : LeaseProtocol ops := by
  have hstep {e : Transaction} (he : e ∈ trace step [] ops) :
      (e.pre.map NotificationRow.id).Nodup ∧ e = entry step e.pre e.input := by
    obtain ⟨pre, post, h⟩ := List.append_of_mem he
    obtain ⟨js, op, -, -, -, rfl, -⟩ := trace_eq_append_cons _ h
    exact ⟨(leases_exec js).ids, rfl⟩
  constructor
  · intro e he r hr hfinal
    obtain ⟨hids, heq⟩ := hstep he
    rw [heq]
    refine mem_step hids hr (fun _ _ _ => not_isCandidate_of_isFinal hfinal) fun _ _ _ hstatus => ?_
    rw [hstatus] at hfinal
    cases hfinal
  · intro e he input skipped hinput r hr hleased
    obtain ⟨hids, heq⟩ := hstep he
    have hfree := not_isCandidate_of_isLeased hleased
    rw [heq, hinput]
    refine ⟨mem_step hids hr (fun input' _ hclaim => ?_) fun _ _ hmark => ?_,
      not_mem_jobs hids hr hfree⟩
    · cases hclaim
      exact hfree
    · cases hmark
  · intro e he input f hmark hstale
    rw [(hstep he).2]
    exact step_stale hmark hstale
  · exact (leases_exec ops).attempts
  · exact (leases_exec ops).lease
  · exact (leases_exec ops).once
  · exact (leases_exec ops).ids

end Outbox

end Limitmark.Inquiries
