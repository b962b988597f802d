import Limitmark.External.ExternalReducer
import Limitmark.Foundations.Rows

/-!
# What the external reducer holds

Every table of the reducer has a cap, and every call keeps it: `Sound` is what holds in any state,
whatever the calls and the clock. The cap on the events of one stream is the exception. It is
checked where an event joins an open request, not where an event waits for its ingress, and the
event that opens a request is not counted against it. `Sparse` says that a call takes neither of
these ways past the cap; the state stays within every cap exactly as long as the calls are sparse.
-/

namespace Limitmark.External

open Limitmark.Defense Limitmark.Ledger Limitmark.Foundations

/-! ## What a record counts for -/

/-- The counters of what a reduced record shows. -/
def Counter.isShown : Counter → Bool
  | .accepted | .strippedHeaders | .reduced | .tracesRetained | .tracesDroppedByCap
  | .decisionsRetained | .decisionsDroppedByCap | .overflowActive | .overflowOrphans => false
  | _ => true

theorem isShown_bumpIf {c d : Counter} (hd : d.isShown = true) {shown : Bool}
    (h : c ∈ bumpIf d shown) : c.isShown = true := by
  cases shown with
  | false => cases h
  | true => rwa [List.mem_singleton.1 h]

theorem isShown_elim {α : Type*} {c : Counter} {f : α → List Counter}
    (hf : ∀ a, ∀ d ∈ f a, d.isShown = true) {x : Option α} (h : c ∈ x.elim [] f) :
    c.isShown = true := by
  cases x with
  | none => cases h
  | some a => exact hf a c h

theorem isShown_decisionTally (decided : PlaneEvent) :
    ∀ c ∈ decisionTally decided, c.isShown = true := by
  intro c h
  simp only [decisionTally, List.mem_append, List.mem_cons, List.not_mem_nil, or_false] at h
  rcases h with (rfl | rfl | rfl) | h
  · rfl
  · rfl
  · rfl
  · exact isShown_bumpIf rfl h

theorem isShown_rejectionTally (rejected : PlaneEvent) :
    ∀ c ∈ rejectionTally rejected, c.isShown = true := by
  intro c h
  simp only [rejectionTally, List.mem_cons, List.not_mem_nil, or_false] at h
  rcases h with rfl | rfl <;> rfl

theorem isShown_failureTally (failed : PlaneEvent) :
    ∀ c ∈ failureTally failed, c.isShown = true := by
  intro c h
  simp only [failureTally, List.mem_append, List.mem_cons, List.not_mem_nil, or_false] at h
  rcases h with (rfl | rfl) | h
  · rfl
  · rfl
  · exact isShown_bumpIf rfl h

theorem isShown_statusTally (allowed : List AllowedShed) (plane : List PlaneEvent) (status : ℕ) :
    ∀ c ∈ statusTally allowed plane status, c.isShown = true := by
  intro c h
  rw [statusTally, List.mem_cons] at h
  rcases h with rfl | h
  · rfl
  · split at h
    · simp only [List.mem_cons, List.not_mem_nil, or_false] at h
      rcases h with rfl | rfl | rfl
      · rfl
      · split <;> rfl
      · rfl
    · exact isShown_bumpIf rfl h

theorem isShown_of_mem_shown {allowed : List AllowedShed} {record : Active} :
    ∀ c ∈ record.shown allowed, c.isShown = true := by
  intro c h
  simp only [Active.shown, List.mem_append] at h
  rcases h with
    ((((((((((((((((h | h) | h) | h) | h) | h) | h) | h) | h) | h) | h) | h) | h) | h) | h) | h) | h)
  · exact isShown_bumpIf rfl h
  · exact isShown_bumpIf rfl h
  · exact isShown_bumpIf rfl h
  · exact isShown_bumpIf rfl h
  · exact isShown_elim isShown_rejectionTally h
  · exact isShown_bumpIf rfl h
  · exact isShown_elim isShown_decisionTally h
  · exact isShown_bumpIf rfl h
  · exact isShown_bumpIf rfl h
  · exact isShown_elim isShown_failureTally h
  · exact isShown_bumpIf rfl h
  · rw [List.mem_singleton.1 h]; rfl
  · exact isShown_bumpIf rfl h
  · exact isShown_elim (isShown_statusTally allowed record.plane) h
  · obtain ⟨event, -, h⟩ := List.mem_filterMap.1 h
    revert h
    cases event.kind <;> rintro ⟨⟩ <;> rfl
  · obtain ⟨event, -, rfl⟩ := List.mem_map.1 h
    cases event.kind <;> rfl
  · exact isShown_bumpIf rfl h

/-- A reduced record bumps `reduced` once, and otherwise counters of what it shows. -/
theorem count_tally {c : Counter} (hc : c.isShown = false) (allowed : List AllowedShed)
    (record : Active) : (record.tally allowed).count c = if c = .reduced then 1 else 0 := by
  have hshown : (record.shown allowed).count c = 0 := List.count_eq_zero.2 fun h => by
    rw [isShown_of_mem_shown c h] at hc
    cases hc
  rw [Active.tally, List.count_cons, hshown, zero_add]
  by_cases h : c = .reduced
  · rw [if_pos h, if_pos (beq_iff_eq.2 h.symm)]
  · rw [if_neg h, if_neg fun heq => h (beq_iff_eq.1 heq).symm]

namespace ExternalReducer

variable (options : ReducerOptions)

/-! ## What the operations leave alone -/

/-- The tables of the reducer, apart from its counters and the data it retains. -/
structure Tables where
  active : List Active
  orphans : List Orphan
  recent : List String
  recentOrder : List String
  closed : List Active
  finalized : Bool

def tables (s : ExternalReducer) : Tables :=
  ⟨s.active, s.orphans, s.recent, s.recentOrder, s.closed, s.finalized⟩

@[simp] theorem tables_report (s : ExternalReducer) (reports : List Report) :
    (s.report reports).tables = s.tables := rfl

@[simp] theorem tables_bump (s : ExternalReducer) (bumps : List Counter) :
    (s.bump bumps).tables = s.tables := rfl

@[simp] theorem tables_keepDecision (s : ExternalReducer) (event : PlaneEvent) :
    (keepDecision options s event).tables = s.tables := by
  rw [keepDecision]
  split <;> rfl

@[simp] theorem tables_sampleKind (s : ExternalReducer) (kind : String) :
    (sampleKind options s kind).tables = s.tables := by
  rw [sampleKind]
  split <;> rfl

@[simp] theorem tables_sampleHead (s : ExternalReducer) (reason : String) :
    (sampleHead s reason).tables = s.tables := by
  rw [sampleHead]
  split <;> rfl

@[simp] theorem tables_storeTrace (s : ExternalReducer) (trace : ExternalTrace) :
    (storeTrace options s trace).tables = s.tables := by
  rw [storeTrace]
  split <;> rfl

@[simp] theorem tables_keepTrace (s : ExternalReducer) (record : Active) (anomalous : Bool) :
    (keepTrace options s record anomalous).tables = s.tables := by
  rw [keepTrace]
  cases traceReason options s record anomalous <;> simp

@[simp] theorem tables_count (s : ExternalReducer) (record : Active) (anomalous : Bool) :
    (count options s record anomalous).tables = s.tables := by
  rw [count, tables_keepTrace]
  cases first record.plane .l2Decided with
  | none => rfl
  | some decided => exact tables_keepDecision _ _ _

@[simp] theorem tables_reportOrphan (s : ExternalReducer) (orphan : Orphan) :
    (reportOrphan s orphan).tables = s.tables := by
  rw [reportOrphan]
  split <;> rfl

@[simp] theorem tables_reportOrphans (s : ExternalReducer) (orphans : List Orphan) :
    (orphans.foldl reportOrphan s).tables = s.tables := by
  induction orphans generalizing s with
  | nil => rfl
  | cons orphan orphans ih => rw [List.foldl_cons, ih, tables_reportOrphan]

/-! ## The flow counters -/

/-- A counter apart from those of what a record shows. -/
def flow (c : Counter) (s : ExternalReducer) : ℕ := s.counterState.count c

@[simp] theorem flow_report (c : Counter) (s : ExternalReducer) (reports : List Report) :
    flow c (s.report reports) = flow c s := rfl

@[simp] theorem flow_bump (c : Counter) (s : ExternalReducer) (bumps : List Counter) :
    flow c (s.bump bumps) = flow c s + bumps.count c := by
  simp [flow, bump]

/-- The retention of traces and decisions counts for itself only. -/
theorem flow_count {c : Counter} (hc : c = .accepted ∨ c = .reduced) (s : ExternalReducer)
    (record : Active) (anomalous : Bool) :
    flow c (count options s record anomalous) = flow c s + if c = .reduced then 1 else 0 := by
  have hdecision (s : ExternalReducer) (event : PlaneEvent) :
      flow c (keepDecision options s event) = flow c s := by
    rw [keepDecision]
    split
    · rw [flow_report, flow_bump]
      rcases hc with rfl | rfl <;> rfl
    · refine (flow_bump c s [.decisionsRetained]).trans ?_
      rcases hc with rfl | rfl <;> rfl
  have htrace (s : ExternalReducer) (trace : ExternalTrace) :
      flow c (storeTrace options s trace) = flow c s := by
    rw [storeTrace]
    split
    · rw [flow_bump]
      rcases hc with rfl | rfl <;> rfl
    · refine (flow_bump c s [.tracesRetained]).trans ?_
      rcases hc with rfl | rfl <;> rfl
  have hkind (s : ExternalReducer) (kind : String) : flow c (sampleKind options s kind) = flow c s := by
    rw [sampleKind]
    split <;> rfl
  have hhead (s : ExternalReducer) (reason : String) : flow c (sampleHead s reason) = flow c s := by
    rw [sampleHead]
    split <;> rfl
  have hkeep (s : ExternalReducer) : flow c (keepTrace options s record anomalous) = flow c s := by
    rw [keepTrace]
    cases traceReason options s record anomalous with
    | none => exact hkind _ _
    | some reason =>
      dsimp only
      rw [htrace, hhead, hkind]
  have hshown : c.isShown = false := by rcases hc with rfl | rfl <;> rfl
  rw [count, hkeep]
  cases first record.plane .l2Decided with
  | none => rw [Option.elim_none, flow_bump, count_tally hshown]
  | some decided => rw [Option.elim_some, hdecision, flow_bump, count_tally hshown]

/-! ## What holds in every state -/

/-- What every record of an open request keeps: its downstream streams below their cap, and no more
legacy events than app events. -/
structure RecordOk (limits : ExternalLimits) (record : Active) : Prop where
  boundary : record.boundary.length ≤ limits.maxEventsPerStream
  app : record.app.length ≤ limits.maxEventsPerStream
  origin : record.origin.length ≤ record.app.length
  plane : record.plane.length ≤ max 1 limits.maxEventsPerStream
  opened : 0 < record.plane.length

/-- What holds whatever the reducer is called with. -/
structure Sound (s : ExternalReducer) : Prop where
  active : s.active.length ≤ options.limits.maxActive
  orphans : s.orphans.length ≤ options.limits.maxOrphans
  recent : s.recent.Nodup ∧ s.recent ⊆ s.recentOrder
  recentOrder : s.recentOrder.length ≤ options.limits.recentRing
  nonces : (s.active.map Active.nonce).Nodup
  orphanNonces : (s.orphans.map Orphan.nonce).Nodup
  records : ∀ record ∈ s.active, RecordOk options.limits record
  accepted : flow .accepted s = flow .reduced s + s.active.length

variable {options} {s : ExternalReducer}

theorem sound_initial : Sound options {} where
  active := Nat.zero_le _
  orphans := Nat.zero_le _
  recent := ⟨List.nodup_nil, List.nil_subset _⟩
  recentOrder := Nat.zero_le _
  nonces := List.nodup_nil
  orphanNonces := List.nodup_nil
  records := by simp
  accepted := rfl

/-- A change of counters, reports and retained data keeps what holds of the tables. -/
theorem Sound.of_tables (h : Sound options s) {s' : ExternalReducer} (htables : s'.tables = s.tables)
    (haccepted : flow .accepted s' = flow .accepted s)
    (hreduced : flow .reduced s' = flow .reduced s) : Sound options s' := by
  simp only [tables, Tables.mk.injEq] at htables
  obtain ⟨hactive, horphans, hrecent, horder, -, -⟩ := htables
  exact ⟨hactive ▸ h.active, horphans ▸ h.orphans, by rw [hrecent, horder]; exact h.recent,
    horder ▸ h.recentOrder, hactive ▸ h.nonces, horphans ▸ h.orphanNonces, hactive ▸ h.records,
    by rw [haccepted, hreduced, hactive, h.accepted]⟩

theorem Sound.report (h : Sound options s) (reports : List Report) :
    Sound options (s.report reports) :=
  h.of_tables rfl rfl rfl

theorem Sound.bump (h : Sound options s) {bumps : List Counter}
    (haccepted : bumps.count .accepted = 0) (hreduced : bumps.count .reduced = 0) :
    Sound options (s.bump bumps) :=
  h.of_tables rfl (by rw [flow_bump, haccepted, add_zero]) (by rw [flow_bump, hreduced, add_zero])

theorem Sound.reportOrphan (h : Sound options s) (orphan : Orphan) :
    Sound options (reportOrphan s orphan) := by
  rw [ExternalReducer.reportOrphan]
  split
  · exact h.of_tables rfl rfl rfl
  · exact h.report _

/-! ### Records -/

theorem RecordOk.push {limits : ExternalLimits} {record : Active} (h : RecordOk limits record)
    {event : StreamEvent} (hroom : record.held event < limits.maxEventsPerStream) :
    RecordOk limits (record.push event) := by
  cases event with
  | plane event => exact ⟨h.boundary, h.app, h.origin, by
      simp only [Active.held] at hroom
      simp only [Active.push, List.length_append, List.length_singleton]
      omega, by simp [Active.push]⟩
  | boundary event => exact ⟨by
      simp only [Active.held] at hroom
      simp only [Active.push, List.length_append, List.length_singleton]
      omega, h.app, h.origin, h.plane, h.opened⟩
  | app event => exact ⟨h.boundary, by
      simp only [Active.held] at hroom
      simp only [Active.push, List.length_append, List.length_singleton]
      omega, by
      have := h.origin
      have hone : (originOf event).toList.length ≤ 1 := by cases originOf event <;> simp
      simp only [Active.push, List.length_append, List.length_singleton]
      omega, h.plane, h.opened⟩

theorem RecordOk.append {limits : ExternalLimits} {record : Active} (h : RecordOk limits record)
    (event : StreamEvent) : RecordOk limits (record.append limits event).1 := by
  rw [Active.append]
  split
  · exact h
  · next hroom => exact h.push (not_le.1 hroom)

theorem RecordOk.appendAll {limits : ExternalLimits} {record : Active} (h : RecordOk limits record)
    (events : List StreamEvent) : RecordOk limits (record.appendAll limits events).1 := by
  induction events generalizing record with
  | nil => exact h
  | cons event events ih => exact ih (h.append event)

@[simp] theorem nonce_append (limits : ExternalLimits) (record : Active) (event : StreamEvent) :
    (record.append limits event).1.nonce = record.nonce := by
  rw [Active.append]
  split
  · rfl
  · cases event <;> rfl

@[simp] theorem nonce_appendAll (limits : ExternalLimits) (record : Active)
    (events : List StreamEvent) : (record.appendAll limits events).1.nonce = record.nonce := by
  induction events generalizing record with
  | nil => rfl
  | cons event events ih => exact (ih _).trans (nonce_append limits record event)

theorem mem_of_owns {nonce : String} {record : Active} (h : s.owns nonce = some record) :
    record ∈ s.active ∧ record.nonce = nonce :=
  ⟨List.mem_of_find?_eq_some h, by simpa using List.find?_some h⟩

theorem nonce_ne_of_owns {nonce : String} (h : s.owns nonce = none) :
    ∀ record ∈ s.active, record.nonce ≠ nonce := by
  simpa [owns] using h

theorem map_nonce_put (s : ExternalReducer) (record : Active) :
    (s.put record).active.map Active.nonce = s.active.map Active.nonce := by
  rw [put, List.map_map]
  refine List.map_congr_left fun other _ => ?_
  rw [Function.comp_apply]
  split
  · next h => exact h.symm
  · rfl

theorem mem_put {record other : Active} (h : other ∈ (s.put record).active) :
    other = record ∨ other ∈ s.active := by
  obtain ⟨other, hmem, rfl⟩ := List.mem_map.1 h
  split
  · exact Or.inl rfl
  · exact Or.inr hmem

theorem Sound.put (h : Sound options s) {record : Active} (hok : RecordOk options.limits record) :
    Sound options (s.put record) where
  active := by rw [ExternalReducer.put, List.length_map]; exact h.active
  orphans := h.orphans
  recent := h.recent
  recentOrder := h.recentOrder
  nonces := by rw [map_nonce_put]; exact h.nonces
  orphanNonces := h.orphanNonces
  records := fun other hmem => (mem_put hmem).elim (fun heq => heq ▸ hok) (h.records other)
  accepted := by
    rw [ExternalReducer.put, List.length_map]
    exact h.accepted

/-! ### Reduction -/

variable (options) in
/-- The state in which a reduced request is remembered. -/
theorem reduce_of_owns {record : Active} (h : (s.owns record.nonce).isSome) :
    ∃ t, reduce options s record = remember options t record.nonce ∧
      t.tables = ⟨s.active.filter fun other => other.nonce ≠ record.nonce, s.orphans, s.recent,
        s.recentOrder, s.closed ++ [record], s.finalized⟩ ∧
      flow .accepted t = flow .accepted s ∧ flow .reduced t = flow .reduced s + 1 := by
  rw [reduce, if_pos h]
  refine ⟨_, rfl, ?_, ?_, ?_⟩
  · rw [tables_count]
    split <;> rfl
  · rw [flow_count options (Or.inl rfl)]
    split <;> rfl
  · rw [flow_count options (Or.inr rfl)]
    split <;> rfl

variable (options) in
/-- The ring of recent nonces stays within its cap, and the set within the ring. -/
theorem ring_remember (h : s.recent.Nodup ∧ s.recent ⊆ s.recentOrder) (nonce : String) :
    ((remember options s nonce).recent.Nodup ∧
      (remember options s nonce).recent ⊆ (remember options s nonce).recentOrder) ∧
    (remember options s nonce).recentOrder.length ≤ options.limits.recentRing := by
  simp only [remember]
  refine ⟨⟨List.Nodup.filter _ ?_, ?_⟩, ?_⟩
  · split
    · exact h.1
    · next hnew =>
      exact List.Nodup.append h.1 (List.nodup_singleton _) (List.disjoint_singleton.2 hnew)
  · intro other hother
    obtain ⟨hmem, hkept⟩ := List.mem_filter.1 hother
    have hall : other ∈ s.recentOrder ++ [nonce] := by
      split at hmem
      · exact List.mem_append_left _ (h.2 hmem)
      · rcases List.mem_append.1 hmem with hmem | hmem
        · exact List.mem_append_left _ (h.2 hmem)
        · exact List.mem_append_right _ hmem
    rw [← List.take_append_drop
      ((s.recentOrder ++ [nonce]).length - options.limits.recentRing) (s.recentOrder ++ [nonce]),
      List.mem_append] at hall
    exact hall.resolve_left (by simpa using hkept)
  · rw [List.length_drop]
    omega

/-- An open request has one row. -/
theorem length_filter_of_owns (hnonces : (s.active.map Active.nonce).Nodup) {nonce : String}
    (h : (s.owns nonce).isSome) :
    (s.active.filter fun other => other.nonce ≠ nonce).length + 1 = s.active.length := by
  have hcount : s.active.countP (fun other => other.nonce = nonce) = 1 := by
    refine le_antisymm (countP_le_one hnonces fun record hrecord => by simpa using hrecord) ?_
    obtain ⟨record, hrecord⟩ := Option.isSome_iff_exists.1 h
    obtain ⟨hmem, hnonce⟩ := mem_of_owns hrecord
    exact List.countP_pos_iff.2 ⟨record, hmem, by simpa using hnonce⟩
  have hsplit := List.length_eq_countP_add_countP (fun other : Active => other.nonce = nonce)
    (l := s.active)
  simp only [decide_eq_true_eq] at hsplit
  rw [← List.countP_eq_length_filter]
  simp only [ne_eq]
  omega

/-- A reduction moves one request from the open ones to the reduced. -/
theorem Sound.reduce (h : Sound options s) (record : Active) :
    Sound options (reduce options s record) := by
  by_cases hopen : (s.owns record.nonce).isSome
  · obtain ⟨t, heq, htables, haccepted, hreduced⟩ := reduce_of_owns options hopen
    simp only [tables, Tables.mk.injEq] at htables
    obtain ⟨hactive, horphans, hrecent, horder, -, -⟩ := htables
    have hring : t.recent.Nodup ∧ t.recent ⊆ t.recentOrder := by
      rw [hrecent, horder]
      exact h.recent
    obtain ⟨hset, hlength⟩ := ring_remember options hring record.nonce
    have hfewer := length_filter_of_owns h.nonces hopen
    rw [heq]
    refine ⟨?_, ?_, hset, hlength, ?_, ?_, ?_, ?_⟩
    · change t.active.length ≤ _
      have := h.active
      rw [hactive]
      omega
    · change t.orphans.length ≤ _
      exact horphans ▸ h.orphans
    · change (t.active.map Active.nonce).Nodup
      rw [hactive]
      exact h.nonces.sublist (List.filter_sublist.map _)
    · change (t.orphans.map Orphan.nonce).Nodup
      exact horphans ▸ h.orphanNonces
    · change ∀ other ∈ t.active, _
      rw [hactive]
      exact fun other hmem => h.records other (List.mem_of_mem_filter hmem)
    · change flow .accepted t = flow .reduced t + t.active.length
      have := h.accepted
      rw [haccepted, hreduced, hactive]
      omega
  · rw [ExternalReducer.reduce, if_neg hopen]
    exact h

theorem Sound.reduceAll (h : Sound options s) (records : List Active) :
    Sound options (records.foldl (ExternalReducer.reduce options) s) := by
  induction records generalizing s with
  | nil => exact h
  | cons record records ih => exact ih (h.reduce record)

theorem Sound.tryComplete (h : Sound options s) (record : Active) (final : Bool) (now : ℚ) :
    Sound options (tryComplete options s record final now) := by
  rw [ExternalReducer.tryComplete]
  split
  · exact h
  · split
    · exact h.reduce record
    · exact h

theorem Sound.reportOrphans (h : Sound options s) (orphans : List Orphan) :
    Sound options (orphans.foldl ExternalReducer.reportOrphan s) := by
  induction orphans generalizing s with
  | nil => exact h
  | cons orphan orphans ih => exact ih (h.reportOrphan orphan)

/-- A change of the orphans alone. -/
theorem Sound.withOrphans (h : Sound options s) {orphans : List Orphan}
    (hlength : orphans.length ≤ options.limits.maxOrphans)
    (hnonces : (orphans.map Orphan.nonce).Nodup) : Sound options { s with orphans } :=
  ⟨h.active, hlength, h.recent, h.recentOrder, h.nonces, hnonces, h.records, h.accepted⟩

/-- Giving up some orphans. -/
theorem Sound.filterOrphans (h : Sound options s) (p : Orphan → Bool) :
    Sound options { s with orphans := s.orphans.filter p } :=
  h.withOrphans ((List.length_filter_le _ _).trans h.orphans)
    (h.orphanNonces.sublist (List.filter_sublist.map _))

/-! ### Calls -/

theorem recordOk_opened (s : ExternalReducer) (event : PlaneEvent) (now : ℚ) :
    RecordOk options.limits (opened s event now) :=
  ⟨Nat.zero_le _, Nat.zero_le _, Nat.zero_le _, le_max_left _ _, Nat.one_pos⟩

theorem Sound.openRequest (h : Sound options s) {event : PlaneEvent} (now : ℚ)
    (hnew : s.owns event.nonce = none) (hroom : s.active.length < options.limits.maxActive) :
    Sound options (openRequest s event now) := by
  refine ⟨?_, h.orphans, h.recent, h.recentOrder, ?_, h.orphanNonces, ?_, ?_⟩
  · change (s.active ++ [_]).length ≤ _
    rw [List.length_append, List.length_singleton]
    exact hroom
  · exact nodup_append_key h.nonces (nonce_ne_of_owns hnew)
  · intro record hmem
    rcases List.mem_append.1 hmem with hmem | hmem
    · exact h.records record hmem
    · rw [List.mem_singleton.1 hmem]
      exact recordOk_opened s event now
  · have := h.accepted
    rw [ExternalReducer.openRequest, flow_bump, flow_bump]
    change flow .accepted s + _ = flow .reduced s + _ + (s.active ++ [_]).length
    rw [List.count_cons_self, List.count_cons_of_ne (by decide), List.count_replicate,
      List.count_replicate, List.length_append, List.length_singleton]
    simp only [beq_iff_eq, reduceCtorEq, if_false]
    omega

theorem Sound.claimed (h : Sound options s) {event : PlaneEvent} (now : ℚ)
    (hnew : s.owns event.nonce = none) (hroom : s.active.length < options.limits.maxActive) :
    Sound options (claimed s event now) :=
  (h.openRequest now hnew hroom).filterOrphans _

theorem Sound.accept (h : Sound options s) {event : PlaneEvent} (now : ℚ)
    (hnew : s.owns event.nonce = none) (hroom : s.active.length < options.limits.maxActive) :
    Sound options (accept options s event now) := by
  rw [ExternalReducer.accept]
  split
  · exact h.openRequest now hnew hroom
  · exact Sound.report ((h.claimed now hnew hroom).put
      ((recordOk_opened s event now).appendAll _)) _

theorem Sound.ingestPlane (h : Sound options s) (event : PlaneEvent) (now later : ℚ) :
    Sound options (ingestPlane options s event now later).1 := by
  rw [ExternalReducer.ingestPlane]
  split
  · split
    · exact h.report _
    · next hnew =>
      rw [not_or, Option.not_isSome_iff_eq_none] at hnew
      split
      · exact (h.bump rfl rfl).report _
      · next hroom => exact h.accept now hnew.1 (not_le.1 hroom)
  · split
    · split
      · exact h.report _
      · exact h
    · next record hrecord =>
      obtain ⟨hmem, -⟩ := mem_of_owns hrecord
      have hok := (h.records record hmem).append (.plane event)
      refine Sound.tryComplete ((h.put ?_).report _) _ _ _
      split
      · exact ⟨hok.boundary, hok.app, hok.origin, hok.plane, hok.opened⟩
      · exact hok

@[simp] theorem nonce_push (orphan : Orphan) (event : StreamEvent) :
    (orphan.push event).nonce = orphan.nonce := by
  cases event <;> rfl

@[simp] theorem nonce_ofEvent (nonce : String) (now : ℚ) (event : StreamEvent) :
    (Orphan.ofEvent nonce now event).nonce = nonce := by
  cases event <;> rfl

theorem map_nonce_hold (orphans : List Orphan) (nonce : String) (event : StreamEvent) :
    (orphans.map fun orphan => if orphan.nonce = nonce then orphan.push event else orphan).map
      Orphan.nonce = orphans.map Orphan.nonce := by
  rw [List.map_map]
  refine List.map_congr_left fun orphan _ => ?_
  rw [Function.comp_apply]
  split
  · exact nonce_push orphan event
  · rfl

theorem nonce_ne_of_orphanOf {nonce : String} (h : s.orphanOf nonce = none) :
    ∀ orphan ∈ s.orphans, orphan.nonce ≠ nonce := by
  simpa [orphanOf] using h

theorem Sound.ingestDownstream (h : Sound options s) (nonce : Option String) (event : StreamEvent)
    (now : ℚ) : Sound options (ingestDownstream options s nonce event now).1 := by
  rw [ExternalReducer.ingestDownstream.eq_def]
  split
  · exact h
  · split
    · next record hrecord =>
      obtain ⟨hmem, -⟩ := mem_of_owns hrecord
      exact Sound.tryComplete ((h.put ((h.records record hmem).append event)).report _) _ _ _
    · split
      · exact h.report _
      · split
        · refine h.withOrphans ?_ ?_
          · rw [List.length_map]
            exact h.orphans
          · rw [map_nonce_hold]
            exact h.orphanNonces
        · next hnone =>
          split
          · exact (h.bump rfl rfl).report _
          · next hroom =>
            refine h.withOrphans ?_ (nodup_append_key h.orphanNonces ?_)
            · rw [List.length_append, List.length_singleton]
              omega
            · rw [nonce_ofEvent]
              exact nonce_ne_of_orphanOf hnone

theorem Sound.sweep (h : Sound options s) (now : ℚ) : Sound options (sweep options s now) := by
  have hdue := h.reduceAll (s.active.filter fun record => record.terminalAt.any fun terminalAt =>
    options.limits.downstreamGraceMs ≤ now - terminalAt)
  exact (hdue.filterOrphans _).reportOrphans _

theorem Sound.finalize (h : Sound options s) : Sound options (finalize options s) := by
  rw [ExternalReducer.finalize]
  split
  · exact h
  · have hfinal : Sound options { s with finalized := true } :=
      ⟨h.active, h.orphans, h.recent, h.recentOrder, h.nonces, h.orphanNonces, h.records, h.accepted⟩
    exact ((hfinal.reduceAll _).reportOrphans _).withOrphans (Nat.zero_le _) List.nodup_nil

/-- One call keeps what holds in every state. -/
theorem Sound.step (h : Sound options s) (call : Call) : Sound options (step options s call).1 := by
  cases call with
  | ingestPlane event now later => exact h.ingestPlane event now later
  | ingestBoundary event now => exact h.ingestDownstream _ _ now
  | ingestApp event now => exact h.ingestDownstream _ _ now
  | sweep now => exact h.sweep now
  | finalize => exact h.finalize

/-- **Accepted is reduced and open.** Whatever the reducer is called with. -/
theorem sound_run (options : ReducerOptions) (calls : List Call) :
    Sound options (exec (ExternalReducer.step options) {} calls) :=
  exec_invariant _ sound_initial (fun _ call h => h.step call) calls

/-! ## The cap on events -/

variable (options) in
/-- Every table and every event list is within its cap. -/
structure Within (s : ExternalReducer) : Prop where
  active : s.active.length ≤ options.limits.maxActive
  orphans : s.orphans.length ≤ options.limits.maxOrphans
  recent : s.recent.length ≤ options.limits.recentRing ∧
    s.recentOrder.length ≤ options.limits.recentRing
  streams : ∀ record ∈ s.active, record.plane.length ≤ options.limits.maxEventsPerStream ∧
    record.boundary.length ≤ options.limits.maxEventsPerStream ∧
    record.app.length ≤ options.limits.maxEventsPerStream ∧
    record.origin.length ≤ options.limits.maxEventsPerStream
  held : ∀ orphan ∈ s.orphans, orphan.boundary.length ≤ options.limits.maxEventsPerStream ∧
    orphan.app.length ≤ options.limits.maxEventsPerStream

variable (options) in
/-- The orphans within the cap on events of a stream. -/
def HeldWithin (s : ExternalReducer) : Prop :=
  ∀ orphan ∈ s.orphans, orphan.boundary.length ≤ options.limits.maxEventsPerStream ∧
    orphan.app.length ≤ options.limits.maxEventsPerStream

/-- Within the caps is within the cap on events, with room for the event that opens a request. -/
theorem Sound.within_iff (h : Sound options s) :
    Within options s ↔ (0 < options.limits.maxEventsPerStream ∨ s.active = []) ∧
      HeldWithin options s := by
  refine ⟨fun hw => ⟨?_, hw.held⟩, fun ⟨hroom, hheld⟩ => ⟨h.active, h.orphans, ⟨?_, h.recentOrder⟩,
    fun record hmem => ?_, hheld⟩⟩
  · by_contra hfull
    rw [not_or, not_lt, Nat.le_zero] at hfull
    obtain ⟨record, hmem⟩ := List.exists_mem_of_ne_nil _ hfull.2
    have hplane := (hw.streams record hmem).1
    have hopened := (h.records record hmem).opened
    omega
  · exact (List.Nodup.length_le_of_subset h.recent.1 h.recent.2).trans h.recentOrder
  · have hok := h.records record hmem
    have hplane := hok.plane
    have happ := hok.app
    have horigin := hok.origin
    have hpos : 0 < options.limits.maxEventsPerStream :=
      hroom.resolve_right (List.ne_nil_of_mem hmem)
    rw [max_eq_right hpos] at hplane
    exact ⟨hplane, hok.boundary, happ, horigin.trans happ⟩

variable (options) in
/-- An event opens a request: no other event may, and not at the cap. -/
def opens (s : ExternalReducer) (event : PlaneEvent) : Prop :=
  (event.kind = .ingressAccepted ∧ event.ingress = some .external) ∧
  (s.owns event.nonce = none ∧ event.nonce ∉ s.recent) ∧
  s.active.length < options.limits.maxActive

variable (options) in
/-- A downstream event of a nonce is held for its ingress. -/
def parks (s : ExternalReducer) (nonce : String) : Prop :=
  s.owns nonce = none ∧ nonce ∉ s.recent ∧
  (s.orphanOf nonce = none → s.orphans.length < options.limits.maxOrphans)

/-- The events already held of the stream a downstream event comes on. -/
def heldOf (s : ExternalReducer) (nonce : String) (event : StreamEvent) : ℕ :=
  (s.orphanOf nonce).elim 0 fun orphan => orphan.held event

variable (options) in
/-- A call that puts no event past the cap where the cap is not checked. -/
def Sparse (s : ExternalReducer) : Call → Prop
  | .ingestPlane event _ _ => opens options s event → 0 < options.limits.maxEventsPerStream
  | .ingestBoundary event _ => ∀ nonce, event.nonce = some nonce → parks options s nonce →
      heldOf s nonce (.boundary event) < options.limits.maxEventsPerStream
  | .ingestApp event _ => ∀ nonce, event.nonce = some nonce → parks options s nonce →
      heldOf s nonce (.app event) < options.limits.maxEventsPerStream
  | .sweep _ | .finalize => True

/-! ### What a call does to the orphans -/

variable (options) in
theorem orphans_reduce (s : ExternalReducer) (record : Active) :
    (reduce options s record).orphans = s.orphans := by
  by_cases hopen : (s.owns record.nonce).isSome
  · obtain ⟨t, heq, htables, -, -⟩ := reduce_of_owns options hopen
    simp only [tables, Tables.mk.injEq] at htables
    rw [heq]
    exact htables.2.1
  · rw [reduce, if_neg hopen]

theorem orphans_tryComplete (s : ExternalReducer) (record : Active) (final : Bool) (now : ℚ) :
    (tryComplete options s record final now).orphans = s.orphans := by
  rw [tryComplete]
  split
  · rfl
  · split
    · exact orphans_reduce options s record
    · rfl

variable (options) in
theorem orphans_reduceAll (s : ExternalReducer) (records : List Active) :
    (records.foldl (reduce options) s).orphans = s.orphans := by
  induction records generalizing s with
  | nil => rfl
  | cons record records ih => exact (ih _).trans (orphans_reduce options s record)

theorem orphans_reportOrphans (s : ExternalReducer) (orphans : List Orphan) :
    (orphans.foldl reportOrphan s).orphans = s.orphans :=
  congrArg Tables.orphans (tables_reportOrphans s orphans)

theorem HeldWithin.of_orphans (h : HeldWithin options s) {s' : ExternalReducer}
    (hsub : s'.orphans ⊆ s.orphans) : HeldWithin options s' :=
  fun orphan hmem => h orphan (hsub hmem)

/-- No plane event adds to an orphan. -/
theorem HeldWithin.ingestPlane (h : HeldWithin options s) (event : PlaneEvent) (now later : ℚ) :
    HeldWithin options (ingestPlane options s event now later).1 := by
  rw [ExternalReducer.ingestPlane]
  split
  · split
    · exact h
    · split
      · exact h
      · refine h.of_orphans ?_
        rw [accept]
        split
        · exact List.Subset.refl _
        · exact List.filter_subset_self _
  · split
    · split
      · exact h
      · exact h
    · refine h.of_orphans ?_
      dsimp only
      rw [orphans_tryComplete]
      exact List.Subset.refl _

theorem HeldWithin.sweep (h : HeldWithin options s) (now : ℚ) :
    HeldWithin options (sweep options s now) := by
  refine h.of_orphans ?_
  rw [ExternalReducer.sweep, orphans_reportOrphans, orphans_reduceAll]
  exact List.filter_subset_self _

theorem HeldWithin.finalize (h : HeldWithin options s) : HeldWithin options (finalize options s) := by
  rw [ExternalReducer.finalize]
  split
  · exact h
  · exact h.of_orphans (List.nil_subset _)

theorem held_push (orphan : Orphan) (event : StreamEvent) (hdown : ∀ plane, event ≠ .plane plane) :
    (orphan.push event).held event = orphan.held event + 1 := by
  cases event with
  | plane event => exact absurd rfl (hdown event)
  | boundary event => exact List.length_append
  | app event => exact List.length_append

theorem held_ofEvent (nonce : String) (now : ℚ) (event : StreamEvent)
    (hdown : ∀ plane, event ≠ .plane plane) : (Orphan.ofEvent nonce now event).held event = 1 := by
  cases event with
  | plane event => exact absurd rfl (hdown event)
  | boundary event => rfl
  | app event => rfl

/-- An orphan within the cap has room in the stream it is given an event of. -/
theorem within_push {limit : ℕ} {orphan : Orphan} (h : orphan.boundary.length ≤ limit ∧
    orphan.app.length ≤ limit) {event : StreamEvent} (hroom : orphan.held event < limit) :
    (orphan.push event).boundary.length ≤ limit ∧ (orphan.push event).app.length ≤ limit := by
  cases event with
  | plane event => exact h
  | boundary event => exact ⟨List.length_append.trans_le hroom, h.2⟩
  | app event => exact ⟨h.1, List.length_append.trans_le hroom⟩

theorem within_ofEvent {limit : ℕ} (hroom : 0 < limit) (nonce : String) (now : ℚ)
    (event : StreamEvent) : (Orphan.ofEvent nonce now event).boundary.length ≤ limit ∧
      (Orphan.ofEvent nonce now event).app.length ≤ limit := by
  cases event with
  | plane event => exact ⟨Nat.zero_le _, Nat.zero_le _⟩
  | boundary event => exact ⟨hroom, Nat.zero_le _⟩
  | app event => exact ⟨Nat.zero_le _, hroom⟩

theorem held_le {limit : ℕ} {orphan : Orphan} (h : orphan.boundary.length ≤ limit ∧
    orphan.app.length ≤ limit) (event : StreamEvent) : orphan.held event ≤ limit := by
  cases event with
  | plane event => exact Nat.zero_le _
  | boundary event => exact h.1
  | app event => exact h.2

theorem mem_of_orphanOf {nonce : String} {orphan : Orphan} (h : s.orphanOf nonce = some orphan) :
    orphan ∈ s.orphans ∧ orphan.nonce = nonce :=
  ⟨List.mem_of_find?_eq_some h, by simpa using List.find?_some h⟩

/-- Holding an event keeps the orphans within the cap exactly when there is room for it. -/
theorem heldWithin_ingestDownstream (h : HeldWithin options s)
    (hnonces : (s.orphans.map Orphan.nonce).Nodup) {nonce : String} {event : StreamEvent}
    (hdown : ∀ plane, event ≠ .plane plane) (now : ℚ) :
    HeldWithin options (ingestDownstream options s (some nonce) event now).1 ↔
      (parks options s nonce → heldOf s nonce event < options.limits.maxEventsPerStream) := by
  rw [ExternalReducer.ingestDownstream.eq_def]
  dsimp only
  cases howned : s.owns nonce with
  | some record =>
    refine iff_of_true (h.of_orphans ?_) fun hparks => ?_
    · dsimp only
      rw [orphans_tryComplete]
      exact List.Subset.refl _
    · rw [hparks.1] at howned
      cases howned
  | none =>
    dsimp only
    split
    · next hrecent => exact iff_of_true h fun hparks => absurd hrecent hparks.2.1
    · next hrecent =>
      cases horphan : s.orphanOf nonce with
      | some orphan =>
        obtain ⟨hmem, hnonce⟩ := mem_of_orphanOf horphan
        have hheld : heldOf s nonce event = orphan.held event := by rw [heldOf, horphan]; rfl
        rw [hheld]
        refine ⟨fun hpost _ => ?_, fun hroom other hother => ?_⟩
        · have hpushed := hpost (orphan.push event)
            (List.mem_map.2 ⟨orphan, hmem, if_pos hnonce⟩)
          have hle := held_le hpushed event
          rwa [held_push orphan event hdown] at hle
        · obtain ⟨other, hmem', rfl⟩ := List.mem_map.1 hother
          split
          · next heq =>
            obtain rfl := eq_of_key hnonces hmem hmem' (hnonce.trans heq.symm)
            exact within_push (h _ hmem)
              (hroom ⟨howned, hrecent, fun hnone => by rw [horphan] at hnone; cases hnone⟩)
          · exact h other hmem'
      | none =>
        have hheld : heldOf s nonce event = 0 := by rw [heldOf, horphan]; rfl
        rw [hheld]
        dsimp only
        split
        · next hfull =>
          exact iff_of_true h fun hparks => absurd (hparks.2.2 horphan) (not_lt.2 hfull)
        · next hroom =>
          refine ⟨fun hpost _ => ?_, fun hpos other hother => ?_⟩
          · have hheld := held_le (hpost _ (List.mem_append_right _ (List.mem_singleton.2 rfl))) event
            rwa [held_ofEvent nonce now event hdown] at hheld
          · rcases List.mem_append.1 hother with hother | hother
            · exact h other hother
            · rw [List.mem_singleton.1 hother]
              exact within_ofEvent (hpos ⟨howned, hrecent, fun _ => not_le.1 hroom⟩) _ _ _

/-! ### What a call does to an empty table -/

theorem owns_eq_none_of_active (h : s.active = []) (nonce : String) : s.owns nonce = none := by
  rw [owns, h]
  rfl

theorem reduceAll_of_active (h : s.active = []) (records : List Active) :
    records.foldl (reduce options) s = s := by
  induction records with
  | nil => rfl
  | cons record records ih =>
    rwa [List.foldl_cons, reduce, if_neg (by rw [owns_eq_none_of_active h]; simp)]

/-- With no request open, only an event that opens one leaves one open. -/
theorem active_ingestPlane_eq_nil (h : s.active = []) (event : PlaneEvent) (now later : ℚ) :
    (ingestPlane options s event now later).1.active = [] ↔ ¬ opens options s event := by
  have howns := owns_eq_none_of_active h event.nonce
  rw [ExternalReducer.ingestPlane, howns]
  split
  · next hkind =>
    simp only [Option.isSome_none, Bool.false_eq_true, false_or]
    split
    · next hrecent => exact iff_of_true h fun hopens => hopens.2.1.2 hrecent
    · next hrecent =>
      split
      · next hfull => exact iff_of_true h fun hopens => absurd hopens.2.2 (not_lt.2 hfull)
      · next hroom =>
        refine iff_of_false (fun hnil => ?_) (not_not.2 ⟨hkind, ⟨howns, hrecent⟩, not_le.1 hroom⟩)
        have hlength := congrArg List.length hnil
        rw [accept] at hlength
        split at hlength
        · simp [openRequest, bump] at hlength
        · simp [claimed, openRequest, bump, put, ExternalReducer.report] at hlength
  · next hkind =>
    refine iff_of_true ?_ fun hopens => hkind hopens.1
    dsimp only
    split
    · exact h
    · exact h

theorem active_ingestDownstream_eq_nil (h : s.active = []) (nonce : Option String)
    (event : StreamEvent) (now : ℚ) :
    (ingestDownstream options s nonce event now).1.active = [] := by
  rw [ExternalReducer.ingestDownstream.eq_def]
  cases nonce with
  | none => exact h
  | some nonce =>
    dsimp only
    rw [owns_eq_none_of_active h]
    dsimp only
    split
    · exact h
    · split
      · exact h
      · split
        · exact h
        · exact h

/-! ### Runs -/

/-- **One call.** It leaves the reducer within its caps exactly when it is sparse. -/
theorem within_step_iff (h : Sound options s) (hwithin : Within options s) (call : Call) :
    Within options (step options s call).1 ↔ Sparse options s call := by
  rw [(h.step call).within_iff]
  obtain ⟨hroom, hheld⟩ := h.within_iff.1 hwithin
  have hdownstream (nonce : Option String) (event : StreamEvent)
      (hdown : ∀ plane, event ≠ .plane plane) (now : ℚ) :
      ((0 < options.limits.maxEventsPerStream ∨
        (ingestDownstream options s nonce event now).1.active = []) ∧
        HeldWithin options (ingestDownstream options s nonce event now).1) ↔
      ∀ n, nonce = some n → parks options s n →
        heldOf s n event < options.limits.maxEventsPerStream := by
    rw [and_iff_right (hroom.imp_right fun hnil => active_ingestDownstream_eq_nil hnil _ _ _)]
    cases nonce with
    | none => exact iff_of_true hheld fun n hn => by cases hn
    | some nonce =>
      rw [heldWithin_ingestDownstream hheld h.orphanNonces hdown]
      exact ⟨fun hpark n hn => by cases hn; exact hpark, fun hpark => hpark nonce rfl⟩
  cases call with
  | ingestPlane event now later =>
    refine (and_iff_left (hheld.ingestPlane event now later)).trans ?_
    rcases hroom with hroom | hnil
    · exact iff_of_true (Or.inl hroom) fun _ => hroom
    · change _ ∨ (ingestPlane options s event now later).1.active = [] ↔ _
      rw [active_ingestPlane_eq_nil hnil, or_comm, ← imp_iff_not_or]
      rfl
  | ingestBoundary event now => exact hdownstream _ (.boundary event) (by simp) now
  | ingestApp event now => exact hdownstream _ (.app event) (by simp) now
  | sweep now =>
    refine iff_of_true ⟨hroom.imp_right fun hnil => ?_, hheld.sweep now⟩ trivial
    change (sweep options s now).active = []
    rw [sweep, reduceAll_of_active hnil]
    exact (congrArg Tables.active (tables_reportOrphans _ _)).trans hnil
  | finalize =>
    refine iff_of_true ⟨hroom.imp_right fun hnil => ?_, hheld.finalize⟩ trivial
    change (finalize options s).active = []
    rw [finalize]
    split
    · exact hnil
    · rw [reduceAll_of_active (by exact hnil)]
      exact (congrArg Tables.active (tables_reportOrphans _ _)).trans hnil

theorem within_initial : Within options {} where
  active := Nat.zero_le _
  orphans := Nat.zero_le _
  recent := ⟨Nat.zero_le _, Nat.zero_le _⟩
  streams := by simp
  held := by simp

/-- **The memory is bounded exactly as long as the calls are sparse.** Every other table is within
its cap after any calls whatever (`sound_run`). -/
theorem memory_bounded_iff (options : ReducerOptions) (calls : List Call) :
    (∀ e ∈ trace (step options) {} calls, Within options e.post) ↔
      ∀ e ∈ trace (step options) {} calls, Sparse options e.pre e.input := by
  have hrun := run_induction (step options) (s := {})
    (P := fun entries s => Sound options s ∧
      ((∀ e ∈ entries, Within options e.post) ↔
        ∀ e ∈ entries, Sparse options e.pre e.input) ∧
      ((∀ e ∈ entries, Within options e.post) → Within options s))
    ⟨sound_initial, by simp, fun _ => within_initial⟩
    (fun entries s call ⟨hsound, hiff, hlast⟩ => by
      refine ⟨hsound.step call, ?_, fun hall => ?_⟩
      · simp only [List.forall_mem_append, List.forall_mem_singleton, entry_post, entry_pre,
          entry_input]
        rw [hiff]
        exact and_congr_right fun hsparse =>
          within_step_iff hsound (hlast (hiff.2 hsparse)) call
      · exact hall (entry (step options) s call) (List.mem_append_right _ (List.mem_singleton.2 rfl)))
    calls
  exact hrun.2.1

/-- Arrivals at the boundary that no ingress claims. -/
def unclaimedArrivals (n : ℕ) : List Call :=
  (List.range n).map fun seq =>
    .ingestBoundary { seq, nonce := some "unclaimed", kind := .boundaryArrived } 0

theorem memory_not_bounded :
    ¬ Within ⟨DEFAULT_EXTERNAL_LIMITS, []⟩
      (exec (step ⟨DEFAULT_EXTERNAL_LIMITS, []⟩) {} (unclaimedArrivals 33)) := fun hwithin =>
  absurd hwithin.held (by decide)

end ExternalReducer

end Limitmark.External
