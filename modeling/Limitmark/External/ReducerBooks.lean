import Mathlib.Algebra.Order.Group.Multiset
import Mathlib.Data.Multiset.Filter
import Limitmark.External.ReducerRequests

/-!
# The books of the reducer

What the counters of the reducer come to as clean requests are opened and reduced. Every counter but
those of the trace sample is the sum of what the open requests spent when they were opened and the
reduced ones spent in all (`Books.counters`), whatever the order. The sample of traces depends on the
order, but for as long as every request fits the head of the sample (`Books.traces`).
-/

namespace Limitmark.External

open Limitmark.Defense Limitmark.Ledger Limitmark.Foundations

/-! ## What a request spends -/

/-- The counters of the sample of traces. -/
def Counter.isSample (c : Counter) : Bool := c = .tracesRetained || c = .tracesDroppedByCap

/-- The counters a request bumps when it is opened. -/
def openingTally (plane : List PlaneEvent) : List Counter :=
  .accepted :: List.replicate ((plane.head?.bind PlaneEvent.stripped).getD 0) .strippedHeaders

def Request.decided (request : Request) : Bool := (first request.plane .l2Decided).isSome

/-- The counters a clean request bumps when it is reduced. -/
def Request.reductionTally (allowed : List AllowedShed) (request : Request) : List Counter :=
  request.whole.tally allowed ++ bumpIf .decisionsRetained request.decided

/-- Every counter a clean request bumps, but for those of the sample. -/
def Request.spent (allowed : List AllowedShed) (request : Request) : List Counter :=
  openingTally request.plane ++ request.reductionTally allowed

theorem not_isSample_of_isShown {c : Counter} (h : c.isShown = true) : c.isSample = false := by
  cases c <;> first | rfl | cases h

theorem not_isSample_tally (allowed : List AllowedShed) (record : Active) :
    ∀ c ∈ record.tally allowed, ¬ c.isSample = true := by
  intro c hc
  rcases List.mem_cons.1 hc with rfl | hc
  · decide
  · rw [not_isSample_of_isShown (isShown_of_mem_shown c hc)]
    exact Bool.false_ne_true

theorem not_isSample_openingTally (plane : List PlaneEvent) :
    ∀ c ∈ openingTally plane, ¬ c.isSample = true := by
  intro c hc
  rcases List.mem_cons.1 hc with rfl | hc
  · decide
  · rw [List.eq_of_mem_replicate hc]
    decide

namespace ExternalReducer

variable (options : ReducerOptions) {s : ExternalReducer}

/-- The counters apart from the sample. -/
def unsampled (s : ExternalReducer) : ExternalCounters := s.counterState.filter fun c => ¬ c.isSample

theorem unsampled_bump {bumps : List Counter} (h : ∀ c ∈ bumps, ¬ c.isSample = true) :
    (s.bump bumps).unsampled = s.unsampled + (bumps : ExternalCounters) := by
  rw [unsampled, bump, Multiset.filter_add, unsampled]
  congr 1
  exact Multiset.filter_eq_self.2 fun c hc => h c hc

theorem unsampled_bump_sample {bumps : List Counter} (h : ∀ c ∈ bumps, c.isSample = true) :
    (s.bump bumps).unsampled = s.unsampled := by
  rw [unsampled, bump, Multiset.filter_add]
  have hnone : Multiset.filter (fun c => ¬ c.isSample = true) (bumps : ExternalCounters) = 0 :=
    Multiset.filter_eq_nil.2 fun c hc => not_not.2 (h c hc)
  rw [hnone, add_zero, unsampled]

/-! ## Counting a record -/

theorem unsampled_keepTrace (s : ExternalReducer) (record : Active) (anomalous : Bool) :
    (keepTrace options s record anomalous).unsampled = s.unsampled := by
  have hkind (kind : String) : (sampleKind options s kind).unsampled = s.unsampled := by
    rw [sampleKind]
    split <;> rfl
  rw [keepTrace]
  cases traceReason options s record anomalous with
  | none => exact hkind _
  | some reason =>
    dsimp only
    rw [← hkind (traceKind record.plane)]
    generalize sampleKind options s (traceKind record.plane) = s
    have hhead : (sampleHead s reason).unsampled = s.unsampled := by
      rw [sampleHead]
      split <;> rfl
    rw [← hhead, storeTrace]
    split
    · exact unsampled_bump_sample (by decide)
    · exact unsampled_bump_sample (s := sampleHead s reason) (by decide)

/-- The fields the sample of traces does not touch. -/
theorem kept_keepTrace (s : ExternalReducer) (record : Active) (anomalous : Bool) :
    (keepTrace options s record anomalous).reports = s.reports ∧
    (keepTrace options s record anomalous).decisionList = s.decisionList := by
  have hkind (kind : String) : (sampleKind options s kind).reports = s.reports ∧
      (sampleKind options s kind).decisionList = s.decisionList := by
    rw [sampleKind]
    split <;> exact ⟨rfl, rfl⟩
  rw [keepTrace]
  cases traceReason options s record anomalous with
  | none => exact hkind _
  | some reason =>
    dsimp only
    rw [← (hkind (traceKind record.plane)).1, ← (hkind (traceKind record.plane)).2]
    generalize sampleKind options s (traceKind record.plane) = s
    rw [storeTrace]
    split <;> rw [sampleHead] <;> split <;> exact ⟨rfl, rfl⟩

variable {options}

/-- Below the cap on decisions, a record is counted without a report. -/
theorem count_within {record : Active}
    (hroom : record.request.decided = true → s.decisionList.length < options.limits.maxDecisions)
    (anomalous : Bool) :
    (count options s record anomalous).reports = s.reports ∧
    (count options s record anomalous).decisionList =
      s.decisionList ++ (first record.plane .l2Decided).toList ∧
    (count options s record anomalous).unsampled =
      s.unsampled + (record.request.reductionTally options.allowedShed : ExternalCounters) := by
  have htally := unsampled_bump (s := s) (not_isSample_tally options.allowedShed record)
  rw [count, (kept_keepTrace options _ _ _).1, (kept_keepTrace options _ _ _).2, unsampled_keepTrace]
  cases hdecided : first record.plane .l2Decided with
  | none =>
    have hnot : record.request.decided = false := by
      rw [Request.decided, Option.isSome_eq_false_iff, Option.isNone_iff_eq_none]
      exact hdecided
    rw [Option.elim_none, htally, Request.reductionTally, hnot]
    exact ⟨rfl, (List.append_nil _).symm, by rw [bumpIf, if_neg Bool.false_ne_true, List.append_nil]; rfl⟩
  | some decided =>
    have hyes : record.request.decided = true := by
      rw [Request.decided, Option.isSome_iff_exists]
      exact ⟨decided, hdecided⟩
    rw [Option.elim_some, keepDecision, if_neg (by exact not_le.2 (hroom hyes))]
    refine ⟨rfl, rfl, ?_⟩
    change (((s.bump (record.tally options.allowedShed)).bump [.decisionsRetained]).unsampled) = _
    rw [unsampled_bump (by decide), htally, Request.reductionTally, hyes, bumpIf, if_pos rfl,
      ← Multiset.coe_add]
    exact add_assoc _ _ _

/-! ## The sample of traces -/

/-- The counters of the sample alone. -/
def sample (s : ExternalReducer) : ExternalCounters := s.counterState.filter fun c => c.isSample

theorem sample_bump {bumps : List Counter} (h : ∀ c ∈ bumps, ¬ c.isSample = true) :
    (s.bump bumps).sample = s.sample := by
  rw [sample, bump, Multiset.filter_add]
  have hnone : Multiset.filter (fun c => c.isSample = true) (bumps : ExternalCounters) = 0 :=
    Multiset.filter_eq_nil.2 h
  rw [hnone, add_zero, sample]

theorem counterState_eq (s : ExternalReducer) : s.counterState = s.unsampled + s.sample := by
  rw [unsampled, sample, add_comm]
  exact (Multiset.filter_add_not _ _).symm

variable (options) in
/-- The retention of a decision leaves the sample alone. -/
theorem sample_keepDecision (s : ExternalReducer) (event : PlaneEvent) :
    (keepDecision options s event).sample = s.sample ∧
    (keepDecision options s event).headCount = s.headCount ∧
    (keepDecision options s event).traceList = s.traceList := by
  rw [keepDecision]
  split
  · exact ⟨sample_bump (by decide), rfl, rfl⟩
  · have hretained : ∀ c ∈ [Counter.decisionsRetained], ¬ c.isSample = true := by decide
    exact ⟨sample_bump hretained, rfl, rfl⟩

/-- A record takes one place at most of the head of the sample. -/
theorem headCount_keepTrace (s : ExternalReducer) (record : Active) (anomalous : Bool) :
    (keepTrace options s record anomalous).headCount ≤ s.headCount + 1 := by
  have hkind (kind : String) : (sampleKind options s kind).headCount = s.headCount := by
    rw [sampleKind]
    split <;> rfl
  rw [keepTrace]
  cases traceReason options s record anomalous with
  | none => exact (hkind _).trans_le (Nat.le_succ _)
  | some reason =>
    dsimp only
    rw [← hkind (traceKind record.plane)]
    generalize sampleKind options s (traceKind record.plane) = s
    rw [storeTrace]
    split <;> rw [sampleHead] <;> split <;> first | exact Nat.le_refl _ | exact Nat.le_succ _

/-- While the head of the sample has room, every trace is retained. -/
theorem sample_keepTrace {record : Active} (hhead : s.headCount < options.limits.headTraces)
    (hroom : s.traceList.length < options.limits.maxTraces) :
    (keepTrace options s record false).sample = s.sample + {Counter.tracesRetained} ∧
    (keepTrace options s record false).traceList.length = s.traceList.length + 1 := by
  have hreason : ∃ reason, traceReason options s record false = some reason := by
    rw [traceReason, if_neg Bool.false_ne_true]
    split
    · exact ⟨_, rfl⟩
    · split
      · exact ⟨_, rfl⟩
      · exact ⟨_, rfl⟩
  obtain ⟨reason, hreason⟩ := hreason
  have hkept (kind : String) : (sampleHead (sampleKind options s kind) reason).traceList =
      s.traceList ∧ (sampleHead (sampleKind options s kind) reason).sample = s.sample := by
    rw [sampleHead]
    split <;> rw [sampleKind] <;> split <;> exact ⟨rfl, rfl⟩
  obtain ⟨htraces, hsample⟩ := hkept (traceKind record.plane)
  rw [keepTrace, hreason]
  dsimp only
  rw [storeTrace, if_neg (by rw [htraces]; exact not_le.2 hroom)]
  refine ⟨?_, ?_⟩
  · rw [← hsample]
    exact Multiset.filter_add _ _ _
  · change (_ ++ [_]).length = _
    rw [htraces, List.length_append, List.length_singleton]

variable (options) in
/-- What a count adds to the sample: one trace, for as long as the head of the sample has room. -/
theorem sample_count (s : ExternalReducer) (record : Active) :
    (count options s record false).headCount ≤ s.headCount + 1 ∧
    (s.headCount < options.limits.headTraces → s.traceList.length < options.limits.maxTraces →
      (count options s record false).sample = s.sample + {Counter.tracesRetained} ∧
      (count options s record false).traceList.length = s.traceList.length + 1) := by
  have hbefore : ∃ u, count options s record false = keepTrace options u record false ∧
      u.sample = s.sample ∧ u.headCount = s.headCount ∧ u.traceList = s.traceList := by
    have htally : (s.bump (record.tally options.allowedShed)).sample = s.sample :=
      sample_bump (not_isSample_tally options.allowedShed record)
    refine ⟨_, rfl, ?_⟩
    cases first record.plane .l2Decided with
    | none => exact ⟨htally, rfl, rfl⟩
    | some decided =>
      obtain ⟨hsample, hhead, htraces⟩ := sample_keepDecision options
        (s.bump (record.tally options.allowedShed)) decided
      exact ⟨hsample.trans htally, hhead, htraces⟩
  obtain ⟨u, hcount, hsample, hhead, htraces⟩ := hbefore
  rw [hcount, ← hsample, ← hhead, ← htraces]
  exact ⟨headCount_keepTrace u record false, sample_keepTrace⟩

/-! ## Reducing a clean record -/

/-- A request taken from the open ones. -/
def dismiss (s : ExternalReducer) (record : Active) : ExternalReducer :=
  { s with active := s.active.filter fun other => other.nonce ≠ record.nonce
           closed := s.closed ++ [record] }

variable (options) in
/-- A clean record that ended is counted and remembered, and nothing is reported. -/
theorem reduce_clean {record : Active} (howns : (s.owns record.nonce).isSome)
    (hfound : record.found = []) (hended : record.terminalAt.isSome = true) :
    reduce options s record =
      remember options (count options (dismiss s record) record false) record.nonce := by
  have hresolved : record.terminalAt.isNone = false := by
    rwa [Option.isNone_eq_false_iff]
  rw [reduce, if_pos howns]
  simp only [hfound, hresolved, List.map_nil, ne_eq, not_true_eq_false, decide_false, Bool.or_false,
    Bool.false_eq_true, if_false]
  rw [ExternalReducer.report, List.append_nil, dismiss]

/-- An open request is one of the open requests, and the others are the rest. -/
theorem active_perm (hnonces : (s.active.map Active.nonce).Nodup) {record : Active}
    (howns : s.owns record.nonce = some record) :
    s.active.Perm (record :: (dismiss s record).active) := by
  have hmem := (mem_of_owns howns).1
  have hsingle : s.active.filter (fun other => other.nonce = record.nonce) = [record] := by
    have hlength : (s.active.filter fun other => other.nonce = record.nonce).length ≤ 1 := by
      rw [← List.countP_eq_length_filter]
      exact countP_le_one hnonces fun other hother => by simpa using hother
    have hfiltered : record ∈ s.active.filter fun other => other.nonce = record.nonce :=
      List.mem_filter.2 ⟨hmem, by simp⟩
    rcases hrows : s.active.filter (fun other => other.nonce = record.nonce) with _ | ⟨first, rest⟩
    · rw [hrows] at hfiltered
      cases hfiltered
    · rw [hrows, List.length_cons] at hlength
      obtain rfl : rest = [] := List.length_eq_zero_iff.1 (by omega)
      rw [hrows, List.mem_singleton] at hfiltered
      exact hrows.trans (congrArg ([·]) hfiltered.symm)
  have hsplit := List.filter_append_perm (fun other : Active => decide (other.nonce = record.nonce))
    s.active
  rw [hsingle] at hsplit
  refine hsplit.symm.trans ?_
  rw [List.singleton_append]
  refine List.Perm.of_eq (congrArg (record :: ·) ?_)
  rw [dismiss]
  exact List.filter_congr fun other _ => by simp

/-! ## The books -/

variable (options) in
/-- What the reducer has counted and kept, when all it has reduced are clean requests. -/
structure Books (requests : List Request) (s : ExternalReducer) : Prop where
  reports : s.reports = []
  closed : ∀ record ∈ s.closed, record.request ∈ requests
  nonces : (s.closed.map Active.nonce).Nodup
  recent : ∀ nonce ∈ s.recent, nonce ∈ s.closed.map Active.nonce
  decisions : s.decisionList.length = (s.closed.map Active.request).countP Request.decided
  counters : s.unsampled =
    ((s.closed.map Active.request).flatMap (Request.spent options.allowedShed) : ExternalCounters) +
      (s.active.flatMap fun record => openingTally record.plane : List Counter)
  heads : s.headCount ≤ s.closed.length
  traces : s.closed.length ≤ options.limits.headTraces →
    s.closed.length ≤ options.limits.maxTraces → s.traceList.length = s.closed.length ∧
      s.sample = Multiset.replicate s.closed.length Counter.tracesRetained

variable {requests : List Request}

theorem books_initial : Books options requests {} where
  reports := rfl
  closed := by simp
  nonces := List.nodup_nil
  recent := by simp
  decisions := rfl
  counters := rfl
  heads := Nat.zero_le _
  traces := fun _ _ => ⟨rfl, rfl⟩

theorem nodup_requests_of_nonces {records : List Active}
    (h : (records.map Active.nonce).Nodup) : (records.map Active.request).Nodup := by
  have hmap : records.map Active.nonce = (records.map Active.request).map Request.nonce := by
    rw [List.map_map]
    rfl
  rw [hmap] at h
  exact h.of_map

/-- **A reduction balances the books.** -/
theorem Books.reduce (h : Books options requests s)
    (hdecisions : requests.countP Request.decided ≤ options.limits.maxDecisions)
    (hnonces : (s.active.map Active.nonce).Nodup) {record : Active}
    (howns : s.owns record.nonce = some record) (hrequest : record.request ∈ requests)
    (hnew : record.nonce ∉ s.closed.map Active.nonce) (hfound : record.found = [])
    (hended : record.terminalAt.isSome = true) :
    Books options requests (reduce options s record) := by
  have hclosed : ((s.closed ++ [record]).map Active.nonce).Nodup :=
    nodup_append_key h.nonces fun other hother heq =>
      hnew (List.mem_map.2 ⟨other, hother, heq⟩)
  have hmem : ∀ other ∈ s.closed ++ [record], other.request ∈ requests :=
    List.forall_mem_append.2 ⟨h.closed, List.forall_mem_singleton.2 hrequest⟩
  have hroom : record.request.decided = true →
      (dismiss s record).decisionList.length < options.limits.maxDecisions := by
    intro hdecided
    have hsub : ((s.closed ++ [record]).map Active.request).Subperm requests :=
      List.subperm_of_subset (nodup_requests_of_nonces hclosed) fun request hmem' => by
        obtain ⟨other, hother, rfl⟩ := List.mem_map.1 hmem'
        exact hmem other hother
    have hle := hsub.countP_le Request.decided
    rw [List.map_append, List.countP_append, List.map_singleton, List.countP_singleton,
      if_pos hdecided, ← h.decisions] at hle
    exact hle.trans hdecisions
  obtain ⟨hreports, hlist, hunsampled⟩ := count_within hroom false
  have htables := tables_count options (dismiss s record) record false
  simp only [tables, Tables.mk.injEq] at htables
  obtain ⟨hactive, -, hrecent, -, hcloses, -⟩ := htables
  have hclosed' : (remember options (count options (dismiss s record) record false)
      record.nonce).closed = s.closed ++ [record] := hcloses
  rw [reduce_clean options (by rw [howns]; rfl) hfound hended]
  refine ⟨hreports.trans h.reports, ?_, ?_, ?_, ?_, ?_, ?_, ?_⟩
  · rw [hclosed']
    exact hmem
  · rw [hclosed']
    exact hclosed
  · rw [hclosed', List.map_append]
    intro nonce hnonce
    obtain ⟨hnonce, -⟩ := List.mem_filter.1 hnonce
    rw [hrecent] at hnonce
    change nonce ∈ (if record.nonce ∈ s.recent then s.recent else s.recent ++ [record.nonce])
      at hnonce
    split at hnonce
    · exact List.mem_append_left _ (h.recent nonce hnonce)
    · exact (List.mem_append.1 hnonce).elim
        (fun hold => List.mem_append_left _ (h.recent nonce hold)) (List.mem_append_right _)
  · rw [hclosed', List.map_append, List.countP_append, ← h.decisions]
    change (count options (dismiss s record) record false).decisionList.length = _
    rw [hlist, List.length_append]
    congr 1
    rw [List.map_singleton, List.countP_singleton, Request.decided]
    change _ = if (first record.plane .l2Decided).isSome = true then 1 else 0
    cases first record.plane .l2Decided <;> rfl
  · rw [hclosed', List.map_append, List.flatMap_append]
    change (count options (dismiss s record) record false).unsampled =
      _ + ((count options (dismiss s record) record false).active.flatMap _ : List Counter)
    have hopen : (s.active.flatMap fun record => openingTally record.plane : ExternalCounters) =
        (openingTally record.plane : ExternalCounters) +
          ((dismiss s record).active.flatMap fun record => openingTally record.plane :
            List Counter) :=
      Multiset.coe_eq_coe.2 ((active_perm hnonces howns).flatMap_right _)
    have hcounters : (dismiss s record).unsampled = _ := h.counters
    rw [hunsampled, hcounters, hopen, hactive, List.map_singleton, List.flatMap_singleton,
      ← Multiset.coe_add, Request.spent, ← Multiset.coe_add,
      show record.request.plane = record.plane from rfl]
    abel
  · rw [hclosed', List.length_append, List.length_singleton]
    exact (sample_count options (dismiss s record) record).1.trans (Nat.add_le_add_right h.heads 1)
  · rw [hclosed', List.length_append, List.length_singleton]
    intro hhead htraces
    have hheads := h.heads
    obtain ⟨hlength, hsample⟩ := h.traces (by omega) (by omega)
    obtain ⟨hsample', hlength'⟩ := (sample_count options (dismiss s record) record).2
      (by change s.headCount < _; omega) (by change s.traceList.length < _; omega)
    refine ⟨hlength'.trans (congrArg (· + 1) hlength), ?_⟩
    rw [Multiset.replicate_add]
    exact hsample'.trans (congrArg (· + _) hsample)

end ExternalReducer

end Limitmark.External
