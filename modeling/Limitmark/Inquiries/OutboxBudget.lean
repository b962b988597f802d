import Limitmark.Inquiries.OutboxProcessor
import Mathlib.Data.List.Perm.Subperm

/-!
# The budget of delivery attempts

The policy's maximum is asked for when a failure is reported, and not when a row is claimed: a worker
that crashes between the two leaves a row whose lease expires and which is claimed again, whatever its
number of attempts (`budget_exceeded`). In the runs in which no claim takes such a row on its last
attempt, a row starts at most the policy's maximum of deliveries (`deliveries_le_maxAttempts`).
-/

namespace Limitmark.Inquiries

open Limitmark.Foundations Outbox

abbrev WorkerStep := Entry OutboxState WorkerInput Started

/-- A job is one attempt of its row. -/
def attemptOf (job : ClaimedNotification) : String × ℕ := (job.outboxId, job.attempts)

/-- The attempts that were started. -/
def startedOf (tr : List WorkerStep) : List (String × ℕ) := tr.filterMap fun e => e.out.map attemptOf

/-- The deliveries that a row has started. -/
def deliveriesOf (outboxId : String) (tr : List WorkerStep) : ℕ :=
  (startedOf tr).countP fun attempt => attempt.1 = outboxId

/-- No claim takes a row whose lease has expired and which has used all its attempts. -/
def WithinBudget (maxAttempts : ℕ) (e : WorkerStep) : Prop :=
  match e.input with
  | .processOutboxBatch options skipped =>
    ∀ r ∈ candidates (OutboxState.claimInput options) skipped e.pre.outbox,
      r.status = .processing → r.attempts < maxAttempts
  | _ => True

instance (maxAttempts : ℕ) (e : WorkerStep) : Decidable (WithinBudget maxAttempts e) := by
  unfold WithinBudget
  split <;> infer_instance

/-! ## The rows -/

variable {rows rows' : Outbox} {op : Op} {max : ℕ}

/-- A row that waits has attempts left, and none has more than there are. -/
structure RowsWithin (max : ℕ) (rows : Outbox) : Prop where
  ids : (rows.map NotificationRow.id).Nodup
  waiting : 0 < max → ∀ r ∈ rows, r.status = .pending ∨ r.status = .retryable → r.attempts < max
  bound : ∀ r ∈ rows, r.attempts ≤ max

/-- An attempt that a row has made. -/
def IsAttempt (rows : Outbox) (attempt : String × ℕ) : Prop :=
  ∃ r ∈ rows, r.id = attempt.1 ∧ 1 ≤ attempt.2 ∧ attempt.2 ≤ r.attempts

theorem isAttempt_step (hrows : (rows.map NotificationRow.id).Nodup) (op : Op) {attempt : String × ℕ}
    (h : IsAttempt rows attempt) : IsAttempt (Outbox.step rows op).1 attempt := by
  obtain ⟨r, hr, hid, hpos, hle⟩ := h
  cases step_effect hrows op with
  | kept same =>
    rw [same]
    exact ⟨r, hr, hid, hpos, hle⟩
  | enqueued _ _ _ _ rows_eq =>
    rw [rows_eq]
    exact ⟨r, List.mem_append_left _ hr, hid, hpos, hle⟩
  | @claimed input skipped ids _ _ rows_eq =>
    rw [rows_eq]
    by_cases hmem : r.id ∈ ids
    · exact ⟨_, mem_updateWhere.2 (.inr ⟨r, hr, decide_eq_true hmem, rfl⟩), hid, hpos,
        Nat.le_succ_of_le hle⟩
    · exact ⟨r, mem_updateWhere_of_not hr (decide_eq_false hmem), hid, hpos, hle⟩
  | @marked input f _ mark _ _ rows_eq =>
    rw [rows_eq]
    have hcompleted := completed_of_markOf mark r
    by_cases howned : r.ownedLease input = true
    · exact ⟨f r, mem_updateWhere.2 (.inr ⟨r, hr, howned, rfl⟩), hcompleted.id.trans hid, hpos,
        hcompleted.attempts ▸ hle⟩
    · exact ⟨r, mem_updateWhere_of_not hr (Bool.eq_false_iff.2 howned), hid, hpos, hle⟩

/-- A job of a claim is an attempt that its row had not made before. -/
theorem jobs_step (hrows : (rows.map NotificationRow.id).Nodup) (op : Op) {job : ClaimedNotification}
    (hjob : job ∈ (Outbox.step rows op).2.jobs) :
    IsAttempt (Outbox.step rows op).1 (attemptOf job) ∧ ¬ IsAttempt rows (attemptOf job) := by
  cases step_effect hrows op with
  | kept _ jobs =>
    rw [jobs] at hjob
    cases hjob
  | enqueued _ _ _ _ _ out =>
    rw [out] at hjob
    cases hjob
  | @claimed input skipped ids _ _ rows_eq out =>
    rw [out, Output.jobs] at hjob
    obtain ⟨r, hr, rfl⟩ := List.mem_map.1 hjob
    obtain ⟨hmem, hid⟩ := List.mem_filter.1 hr
    have hupdated := hmem
    rw [rows_eq] at hupdated
    rcases mem_updateWhere.1 hupdated with ⟨_, hnot⟩ | ⟨r₀, hr₀, _, rfl⟩
    · rw [hid] at hnot
      cases hnot
    · refine ⟨⟨_, hmem, rfl, Nat.succ_pos _, Nat.le_refl _⟩, ?_⟩
      rintro ⟨r', hr', hid', -, hle⟩
      obtain rfl := eq_of_key hrows hr' hr₀ hid'
      exact Nat.not_succ_le_self _ hle
  | marked _ _ _ _ out =>
    rw [out] at hjob
    cases hjob

theorem nodup_jobs (hrows : (rows.map NotificationRow.id).Nodup) (op : Op) :
    ((Outbox.step rows op).2.jobs.map attemptOf).Nodup := by
  suffices h : ((Outbox.step rows op).2.jobs.map ClaimedNotification.outboxId).Nodup by
    refine List.Nodup.of_map Prod.fst ?_
    rw [List.map_map]
    exact h
  cases step_effect hrows op with
  | kept _ jobs =>
    rw [jobs]
    exact List.nodup_nil
  | enqueued _ _ _ _ _ out =>
    rw [out]
    exact List.nodup_nil
  | @claimed input skipped ids _ _ rows_eq out =>
    rw [out, Output.jobs, List.map_map]
    refine List.Nodup.sublist (List.filter_sublist.map _) ?_
    rw [rows_eq]
    exact (map_id_claimed _ _ _).symm ▸ hrows
  | marked _ _ _ _ out =>
    rw [out]
    exact List.nodup_nil

namespace RowsWithin

theorem enqueue (h : RowsWithin max rows) (id inquiryId : String) (eventType : InquiryEventType)
    (availableAt createdAt : ℤ) :
    RowsWithin max (Outbox.step rows (.enqueue id inquiryId eventType availableAt createdAt)).1 := by
  cases step_effect h.ids (.enqueue id inquiryId eventType availableAt createdAt) with
  | kept same =>
    rw [same]
    exact h
  | @enqueued row fresh _ zero _ rows_eq =>
    rw [rows_eq]
    have hmem {r : NotificationRow} (hr : r ∈ rows ++ [row]) : r ∈ rows ∨ r = row := by
      rwa [List.mem_append, List.mem_singleton] at hr
    refine ⟨nodup_append_key h.ids fresh, fun hmax r hr hwaits => ?_, fun r hr => ?_⟩
    · rcases hmem hr with hr | rfl
      · exact h.waiting hmax r hr hwaits
      · rwa [zero]
    · rcases hmem hr with hr | rfl
      · exact h.bound r hr
      · rw [zero]
        exact Nat.zero_le _
  | claimed claim => cases claim
  | marked mark => cases mark

theorem claim (h : RowsWithin max rows) (hmax : 0 < max) {input : ClaimNotificationsInput}
    {skipped : List String}
    (hwithin : ∀ r ∈ candidates input skipped rows, r.status = .processing → r.attempts < max) :
    RowsWithin max (Outbox.step rows (.claimBatch input skipped)).1 := by
  cases step_effect h.ids (.claimBatch input skipped) with
  | kept same =>
    rw [same]
    exact h
  | enqueued _ _ _ _ _ out => cases out
  | claimed claim ids_eq rows_eq =>
    cases claim
    rw [rows_eq]
    refine ⟨?_, fun hmax r hr hwaits => ?_, fun r hr => ?_⟩
    · rw [map_id_claimed]
      exact h.ids
    · rcases mem_updateWhere.1 hr with ⟨hr, -⟩ | ⟨r₀, -, -, rfl⟩
      · exact h.waiting hmax r hr hwaits
      · rcases hwaits with hwaits | hwaits <;> cases hwaits
    · rcases mem_updateWhere.1 hr with ⟨hr, -⟩ | ⟨r₀, hr₀, hid, rfl⟩
      · exact h.bound r hr
      · have hmem := of_decide_eq_true hid
        rw [ids_eq] at hmem
        obtain ⟨r, htaken, hrid⟩ := List.mem_map.1 hmem
        obtain ⟨hrow, hcandidate⟩ := mem_candidates htaken
        obtain rfl := eq_of_key h.ids hrow hr₀ hrid
        -- a candidate waits, or is a row whose lease has expired
        have hlt : r.attempts < max := by
          rw [NotificationRow.isCandidate] at hcandidate
          rcases hstatus : r.status with _ | _ | _ | _ | _
          · exact h.waiting hmax r hrow (.inl hstatus)
          · exact hwithin r htaken hstatus
          · exact h.waiting hmax r hrow (.inr hstatus)
          · rw [hstatus] at hcandidate
            cases hcandidate
          · rw [hstatus] at hcandidate
            cases hcandidate
        exact hlt
  | marked mark => cases mark

theorem mark (h : RowsWithin max rows) {input : CompleteNotificationInput}
    {f : NotificationRow → NotificationRow} (hmark : markOf op = some (input, f))
    (hretry : ∀ r, (f r).status = .pending ∨ (f r).status = .retryable → input.attempts < max) :
    RowsWithin max (Outbox.step rows op).1 := by
  have hcompleted := completed_of_markOf hmark
  cases step_effect h.ids op with
  | kept same =>
    rw [same]
    exact h
  | enqueued _ _ _ _ _ out =>
    cases op with
    | enqueue => cases hmark
    | claimBatch => cases hmark
    | markSent => cases out
    | markFailure => cases out
  | claimed claim =>
    rw [claim] at hmark
    cases hmark
  | marked mark _ _ rows_eq =>
    obtain ⟨rfl, rfl⟩ := Prod.mk.inj (Option.some.inj (mark.symm.trans hmark))
    rw [rows_eq]
    refine ⟨?_, fun hmax r hr hwaits => ?_, fun r hr => ?_⟩
    · rw [map_key_updateWhere fun r _ => (hcompleted r).id]
      exact h.ids
    · rcases mem_updateWhere.1 hr with ⟨hr, -⟩ | ⟨r₀, -, howned, rfl⟩
      · exact h.waiting hmax r hr hwaits
      · rw [(hcompleted r₀).attempts, (ownedLease_iff.1 howned).2.2.1]
        exact hretry r₀ hwaits
    · rcases mem_updateWhere.1 hr with ⟨hr, -⟩ | ⟨r₀, hr₀, -, rfl⟩
      · exact h.bound r hr
      · rw [(hcompleted r₀).attempts]
        exact h.bound r₀ hr₀

/-- A report leaves a row waiting only if the policy allows another attempt. -/
theorem report (h : RowsWithin max rows) {policy : NotificationRetryPolicy}
    (hpolicy : policy.maxAttempts = max) {now : ℤ} {job : ClaimedNotification}
    {result : NotificationDeliveryResult} {count : OutboxBatchSummary → OutboxBatchSummary}
    (hreport : OutboxState.reportOf policy now job result = some (op, count)) :
    RowsWithin max (Outbox.step rows op).1 := by
  unfold OutboxState.reportOf at hreport
  dsimp only at hreport
  split at hreport
  · cases hreport
    refine h.mark rfl fun r hwaits => ?_
    rcases hwaits with hwaits | hwaits <;> cases hwaits
  · split at hreport
    · cases hreport
    · cases hreport
      refine h.mark rfl fun r hwaits => ?_
      rcases hwaits with hwaits | hwaits <;> cases hwaits
    · next hretry =>
      cases hreport
      refine h.mark rfl fun r _ => ?_
      rw [← hpolicy]
      unfold OutboxState.retryAt at hretry
      split at hretry
      · split at hretry
        · assumption
        · cases hretry
      · cases hretry

end RowsWithin

/-! ## The workers -/

/-- The invariant of the processor after the steps `tr`. -/
structure Budget (policy : NotificationRetryPolicy) (tr : List WorkerStep) (s : OutboxState) : Prop where
  rows : RowsWithin policy.maxAttempts s.outbox
  started : ∀ attempt ∈ startedOf tr, IsAttempt s.outbox attempt
  once : (startedOf tr).Nodup
  made : ∀ id w, s.workers.lookup id = some w → ∀ job ∈ w.jobs, IsAttempt s.outbox (attemptOf job)
  fresh : ∀ id w, s.workers.lookup id = some w → ∀ job ∈ w.jobs, attemptOf job ∉ startedOf tr
  distinct : ∀ id w, s.workers.lookup id = some w → (w.jobs.map attemptOf).Nodup
  alone : ∀ id id' w w', s.workers.lookup id = some w → s.workers.lookup id' = some w' →
    ∀ job ∈ w.jobs, ∀ job' ∈ w'.jobs, attemptOf job = attemptOf job' → id = id'

/-- A step at which no worker gets a job. -/
structure Settled (s s' : OutboxState) : Prop where
  outbox : s'.outbox = s.outbox ∨ ∃ op, s'.outbox = (Outbox.step s.outbox op).1
  workers : ∀ id w', s'.workers.lookup id = some w' →
    ∃ w, s.workers.lookup id = some w ∧ w'.jobs.Sublist w.jobs

namespace Budget

variable {policy : NotificationRetryPolicy} {tr : List WorkerStep} {s s' : OutboxState} {e : WorkerStep}

theorem startedOf_snoc : startedOf (tr ++ [e]) = startedOf tr ++ (e.out.map attemptOf).toList := by
  rw [startedOf, List.filterMap_append, startedOf]
  rcases hout : e.out with _ | job <;> simp [hout]

theorem startedOf_silent (h : e.out = none) : startedOf (tr ++ [e]) = startedOf tr := by
  rw [startedOf_snoc, h]
  exact List.append_nil _

theorem isAttempt (h : Budget policy tr s) (hs : Settled s s') {attempt : String × ℕ}
    (hattempt : IsAttempt s.outbox attempt) : IsAttempt s'.outbox attempt := by
  rcases hs.outbox with hsame | ⟨op, hop⟩
  · rwa [hsame]
  · rw [hop]
    exact isAttempt_step h.rows.ids op hattempt

theorem settled (h : Budget policy tr s) (hs : Settled s s') (silent : e.out = none)
    (rows : RowsWithin policy.maxAttempts s'.outbox) : Budget policy (tr ++ [e]) s' := by
  constructor
  · exact rows
  · rw [startedOf_silent silent]
    exact fun attempt hattempt => h.isAttempt hs (h.started attempt hattempt)
  · rw [startedOf_silent silent]
    exact h.once
  · intro id w' hw' job hjob
    obtain ⟨w, hw, hsub⟩ := hs.workers id w' hw'
    exact h.isAttempt hs (h.made id w hw job (hsub.subset hjob))
  · rw [startedOf_silent silent]
    intro id w' hw' job hjob
    obtain ⟨w, hw, hsub⟩ := hs.workers id w' hw'
    exact h.fresh id w hw job (hsub.subset hjob)
  · intro id w' hw'
    obtain ⟨w, hw, hsub⟩ := hs.workers id w' hw'
    exact (h.distinct id w hw).sublist (hsub.map _)
  · intro id id' w w' hw hw' job hjob job' hjob' heq
    obtain ⟨v, hv, hsub⟩ := hs.workers id w hw
    obtain ⟨v', hv', hsub'⟩ := hs.workers id' w' hw'
    exact h.alone id id' v v' hv hv' job (hsub.subset hjob) job' (hsub'.subset hjob') heq

theorem claimed (h : Budget policy tr s) (silent : e.out = none) {op : Op} {id : ℕ} {worker : Worker}
    (outbox : s'.outbox = (Outbox.step s.outbox op).1)
    (workers : s'.workers = s.workers.insert id worker)
    (jobs : worker.jobs = (Outbox.step s.outbox op).2.jobs)
    (rows : RowsWithin policy.maxAttempts s'.outbox) : Budget policy (tr ++ [e]) s' := by
  have hlookup {j : ℕ} {w : Worker} (hw : s'.workers.lookup j = some w) :
      j = id ∧ w = worker ∨ j ≠ id ∧ s.workers.lookup j = some w := by
    rw [workers, Table.lookup_insert_eq] at hw
    split at hw
    · next hj => exact .inl ⟨hj, (Option.some.inj hw).symm⟩
    · next hj => exact .inr ⟨hj, hw⟩
  have hkeeps {attempt : String × ℕ} (hattempt : IsAttempt s.outbox attempt) :
      IsAttempt s'.outbox attempt := by
    rw [outbox]
    exact isAttempt_step h.rows.ids op hattempt
  have hjobs {job : ClaimedNotification} (hjob : job ∈ worker.jobs) :
      IsAttempt s'.outbox (attemptOf job) ∧ ¬ IsAttempt s.outbox (attemptOf job) := by
    rw [outbox]
    exact jobs_step h.rows.ids op (jobs ▸ hjob)
  constructor
  · exact rows
  · rw [startedOf_silent silent]
    exact fun attempt hattempt => hkeeps (h.started attempt hattempt)
  · rw [startedOf_silent silent]
    exact h.once
  · intro j w hw job hjob
    rcases hlookup hw with ⟨-, rfl⟩ | ⟨-, hold⟩
    · exact (hjobs hjob).1
    · exact hkeeps (h.made j w hold job hjob)
  · rw [startedOf_silent silent]
    intro j w hw job hjob
    rcases hlookup hw with ⟨-, rfl⟩ | ⟨-, hold⟩
    · exact fun hstarted => (hjobs hjob).2 (h.started _ hstarted)
    · exact h.fresh j w hold job hjob
  · intro j w hw
    rcases hlookup hw with ⟨-, rfl⟩ | ⟨-, hold⟩
    · rw [jobs]
      exact nodup_jobs h.rows.ids op
    · exact h.distinct j w hold
  · intro j j' w w' hw hw' job hjob job' hjob' heq
    rcases hlookup hw with ⟨rfl, rfl⟩ | ⟨-, hold⟩
    · rcases hlookup hw' with ⟨rfl, rfl⟩ | ⟨-, hold'⟩
      · rfl
      · exact absurd (h.made j' w' hold' job' hjob') (heq ▸ (hjobs hjob).2)
    · rcases hlookup hw' with ⟨rfl, rfl⟩ | ⟨-, hold'⟩
      · exact absurd (h.made j w hold job hjob) (heq ▸ (hjobs hjob').2)
      · exact h.alone j j' w w' hold hold' job hjob job' hjob' heq

theorem delivered (h : Budget policy tr s) {id : ℕ} {worker worker' : Worker}
    {job : ClaimedNotification} (call : s.workers.lookup id = some worker) (mem : job ∈ worker.jobs)
    (outbox : s'.outbox = s.outbox) (workers : s'.workers = s.workers.insert id worker')
    (jobs : worker'.jobs = worker.jobs.erase job) (out : e.out = some job) :
    Budget policy (tr ++ [e]) s' := by
  have hstarted : startedOf (tr ++ [e]) = startedOf tr ++ [attemptOf job] := by
    rw [startedOf_snoc, out]
    rfl
  have hsub : worker'.jobs.Sublist worker.jobs := jobs ▸ List.erase_sublist
  have hworkers (j : ℕ) (w' : Worker) (hw' : s'.workers.lookup j = some w') :
      ∃ w, s.workers.lookup j = some w ∧ w'.jobs.Sublist w.jobs := by
    rw [workers, Table.lookup_insert_eq] at hw'
    split at hw'
    · next hj =>
      cases hw'
      exact ⟨worker, hj ▸ call, hsub⟩
    · exact ⟨w', hw', List.Sublist.refl _⟩
  -- but for the delivery itself the step is one at which no worker gets a job
  have hsettled : Budget policy (tr ++ [{ e with out := none }]) s' :=
    h.settled ⟨.inl outbox, hworkers⟩ rfl (outbox ▸ h.rows)
  have hsame : startedOf (tr ++ [{ e with out := none }]) = startedOf tr := startedOf_silent rfl
  have hfresh : attemptOf job ∉ startedOf tr := h.fresh id worker call job mem
  constructor
  · exact hsettled.rows
  · intro attempt hattempt
    rw [hstarted, List.mem_append, List.mem_singleton] at hattempt
    rcases hattempt with hold | rfl
    · exact hsettled.started attempt (hsame ▸ hold)
    · rw [outbox]
      exact h.made id worker call job mem
  · rw [hstarted]
    exact List.Nodup.append h.once (List.nodup_singleton _) (List.disjoint_singleton.2 hfresh)
  · exact hsettled.made
  · intro j w' hw' job' hjob'
    rw [hstarted, List.mem_append, List.mem_singleton, not_or]
    refine ⟨hsame ▸ hsettled.fresh j w' hw' job' hjob', fun heq => ?_⟩
    obtain ⟨w, hw, hsub'⟩ := hworkers j w' hw'
    obtain rfl := h.alone j id w worker hw call job' (hsub'.subset hjob') job mem heq
    rw [workers, Table.lookup_insert_eq, if_pos rfl] at hw'
    cases hw'
    -- the job was the only one of its attempt, and it is taken off the list
    have hjob := (hsub.subset hjob')
    obtain rfl := eq_of_key (h.distinct j worker call) hjob mem heq
    rw [jobs] at hjob'
    exact ((h.distinct j worker call).of_map _).not_mem_erase hjob'
  · exact hsettled.distinct
  · exact hsettled.alone

theorem empty : Budget policy [] {} where
  rows := ⟨List.nodup_nil, fun _ _ h => (by cases h), fun _ h => by cases h⟩
  started := fun _ h => by cases h
  once := List.nodup_nil
  made := fun _ _ h => by cases h
  fresh := fun _ _ h => by cases h
  distinct := fun _ _ h => by cases h
  alone := fun _ _ _ _ h => by cases h

theorem same (h : Budget policy tr s) (silent : e.out = none) : Budget policy (tr ++ [e]) s :=
  h.settled ⟨.inl rfl, fun _ w hw => ⟨w, hw, List.Sublist.refl _⟩⟩ silent h.rows

/-- A worker goes on with some of its jobs, or ends. -/
theorem settled_workers {id : ℕ} {worker : Worker} (call : s.workers.lookup id = some worker)
    (outbox : s'.outbox = s.outbox ∨ ∃ op, s'.outbox = (Outbox.step s.outbox op).1)
    (workers : (∃ worker' : Worker, worker'.jobs.Sublist worker.jobs ∧
      s'.workers = s.workers.insert id worker') ∨ s'.workers = s.workers.erase id) : Settled s s' := by
  refine ⟨outbox, fun j w hw => ?_⟩
  rcases workers with ⟨worker', hsub, hworkers⟩ | hworkers
  · rw [hworkers, Table.lookup_insert_eq] at hw
    split at hw
    · next hj =>
      cases hw
      exact ⟨worker, hj ▸ call, hsub⟩
    · exact ⟨w, hw, List.Sublist.refl _⟩
  · rw [hworkers, Table.lookup_erase_eq] at hw
    split at hw
    · cases hw
    · exact ⟨w, hw, List.Sublist.refl _⟩

theorem zero_lt_of_validateOptions {options : ProcessOutboxBatchOptions}
    (h : validateOptions options policy = .ok ()) : 0 < policy.maxAttempts := by
  by_contra hzero
  have hnone : policy.maxAttempts < 1 := by omega
  simp only [validateOptions, hnone, or_true, if_true] at h
  repeat' split at h
  all_goals cases h

theorem processOutboxBatch (h : Budget policy tr s) {options : ProcessOutboxBatchOptions}
    {skipped : List String} (silent : e.out = none)
    (hwithin : ∀ r ∈ candidates (OutboxState.claimInput options) skipped s.outbox,
      r.status = .processing → r.attempts < policy.maxAttempts) :
    Budget policy (tr ++ [e]) (s.processOutboxBatch policy options skipped) := by
  unfold OutboxState.processOutboxBatch
  split
  · exact h.same silent
  · next hvalid =>
    split
    · exact h.same silent
    · exact h.claimed silent rfl rfl rfl (h.rows.claim (zero_lt_of_validateOptions hvalid) hwithin)

theorem report (h : Budget policy tr s) {id : ℕ} {worker : Worker} {job : ClaimedNotification}
    {result : NotificationDeliveryResult} (silent : e.out = none)
    (call : s.workers.lookup id = some worker) :
    Budget policy (tr ++ [e]) (s.report policy id worker job result) := by
  unfold OutboxState.report
  split
  · exact h.settled (settled_workers call (.inl rfl) (.inr rfl)) silent h.rows
  · next op count hreport =>
    refine h.settled (settled_workers call (.inr ⟨op, rfl⟩) (.inl ⟨_, ?_, rfl⟩)) silent
      (h.rows.report rfl hreport)
    exact List.Sublist.refl worker.jobs

theorem step (h : Budget policy tr s) (input : WorkerInput)
    (hwithin : WithinBudget policy.maxAttempts (entry (OutboxState.step policy) s input)) :
    Budget policy (tr ++ [entry (OutboxState.step policy) s input])
      (OutboxState.step policy s input).1 := by
  cases input with
  | enqueue id inquiryId eventType availableAt createdAt =>
    refine h.settled ⟨.inr ⟨_, rfl⟩, fun _ w hw => ⟨w, hw, List.Sublist.refl _⟩⟩ rfl ?_
    exact h.rows.enqueue id inquiryId eventType availableAt createdAt
  | processOutboxBatch options skipped => exact h.processOutboxBatch rfl hwithin
  | deliver id outboxId =>
    unfold OutboxState.step entry
    dsimp only
    split
    · next now jobs summary call =>
      split
      · exact h.same rfl
      · next job hfind => exact h.delivered call (List.mem_of_find?_eq_some hfind) rfl rfl rfl rfl
    · exact h.same rfl
  | answer id result =>
    unfold OutboxState.step entry
    dsimp only
    split
    · next call =>
      refine h.settled (settled_workers call (.inl rfl) (.inl ⟨_, ?_, rfl⟩)) rfl h.rows
      exact List.Sublist.refl _
    · exact h.same rfl
  | report id =>
    unfold OutboxState.step entry
    dsimp only
    split
    · next call => exact h.report rfl call
    · exact h.same rfl
  | crash id =>
    rcases hcall : s.workers.lookup id with _ | worker
    · refine h.settled ⟨.inl rfl, fun j w hw => ⟨w, ?_, List.Sublist.refl _⟩⟩ rfl h.rows
      have hlookup := hw
      rw [OutboxState.step, Table.lookup_erase_eq] at hlookup
      split at hlookup
      · cases hlookup
      · exact hlookup
    · exact h.settled (settled_workers hcall (.inl rfl) (.inr rfl)) rfl h.rows

end Budget

theorem budget_exec (policy : NotificationRetryPolicy) (inputs : List WorkerInput) :
    (∀ e ∈ trace (OutboxState.step policy) {} inputs, WithinBudget policy.maxAttempts e) →
      Budget policy (trace (OutboxState.step policy) {} inputs)
        (exec (OutboxState.step policy) {} inputs) := by
  refine run_induction (OutboxState.step policy)
    (P := fun tr s => (∀ e ∈ tr, WithinBudget policy.maxAttempts e) → Budget policy tr s)
    (fun _ => .empty) (fun tr s input h hwithin => ?_) inputs
  refine (h fun e he => hwithin e (List.mem_append_left _ he)).step input ?_
  exact hwithin _ (List.mem_append_right _ (List.mem_singleton_self _))

/-- **The budget of delivery attempts**: in a run in which no claim takes a row whose lease expired on
its last attempt, a row starts at most the policy's maximum of deliveries. -/
theorem deliveries_le_maxAttempts (policy : NotificationRetryPolicy) (inputs : List WorkerInput)
    (h : ∀ e ∈ trace (OutboxState.step policy) {} inputs, WithinBudget policy.maxAttempts e)
    (outboxId : String) :
    deliveriesOf outboxId (trace (OutboxState.step policy) {} inputs) ≤ policy.maxAttempts := by
  have hbudget := budget_exec policy inputs h
  generalize trace (OutboxState.step policy) {} inputs = tr at hbudget ⊢
  have hsub : (startedOf tr).filter (fun attempt => attempt.1 = outboxId) ⊆
      (List.range policy.maxAttempts).map fun n => (outboxId, n + 1) := by
    rintro ⟨id, n⟩ hmem
    obtain ⟨hstarted, hid⟩ := List.mem_filter.1 hmem
    obtain rfl := of_decide_eq_true hid
    obtain ⟨r, hr, -, hpos, hle⟩ := hbudget.started _ hstarted
    have hbound := hbudget.rows.bound r hr
    refine List.mem_map.2 ⟨n - 1, List.mem_range.2 ?_, ?_⟩
    · simp only at hpos hle
      omega
    · rw [Nat.sub_add_cancel hpos]
  have hle := (List.subperm_of_subset (hbudget.once.filter _) hsub).length_le
  rw [List.length_map, List.length_range, ← List.countP_eq_length_filter] at hle
  exact hle

/-! ## A sample row -/

def sampleEnqueue : WorkerInput := .enqueue "n" "i" .inquiryReceived 0 0

/-- A worker claims the row and starts its delivery. -/
def sampleAttempt (worker : ℕ) (now : ℤ) : List WorkerInput :=
  [.processOutboxBatch { now } [], .deliver worker "n"]

theorem deliveries_le_sample :
    deliveriesOf "n" (trace (OutboxState.step ⟨1, fun _ => none⟩) {}
      (sampleEnqueue :: sampleAttempt 0 0 ++ [.answer 0 (some .delivered), .report 0] ++
        sampleAttempt 1 300000)) ≤ 1 :=
  deliveries_le_maxAttempts ⟨1, fun _ => none⟩ _ (by decide) "n"

/-- Six workers crash one after the other, each after it has started the delivery and before it reports
a result; the default policy allows five attempts. -/
theorem budget_exceeded :
    ¬ ∀ (options : ExponentialRetryPolicyOptions) (policy : NotificationRetryPolicy),
      createExponentialRetryPolicy options = .ok policy → ∀ inputs outboxId,
        deliveriesOf outboxId (trace (OutboxState.step policy) {} inputs) ≤ policy.maxAttempts := by
  intro h
  have hle := h {} _ rfl (sampleEnqueue :: (List.range 6).flatMap fun n =>
    sampleAttempt n (300000 * n) ++ [.crash n]) "n"
  revert hle
  decide

end Limitmark.Inquiries
