import Mathlib.Algebra.Order.Group.Int
import Mathlib.Data.List.Dedup
import Limitmark.Authority.AuthorityRun
import Limitmark.Foundations.RollingWindow

/-!
# The admission limits over every rolling window

The five limits of `admissionPolicy`, over the times at which decisions were allowed. The authority
counts the observations in its table, so the table must still have every decision of the window that
ends at the present. It has those that no removal of old rows was entitled to take (`Counted.kept`):
at a present no earlier than any reading used for a removal, that is all of the window.

A decision's own removals use its own reading. A cleanup's reading is not stored, so a later decision
may be taken at an earlier one; a run in which none is keeps the limits (`within_limits`), and one in
which the clock stepped back after a cleanup need not (`limit_exceeded`).
-/

namespace Limitmark.Authority

open Limitmark.Foundations

/-- The subject of an observation. -/
def Scope.subjectOf : Scope → String → String
  | .client, c => c
  | .global, _ => "*"

/-- The times of the allowed decisions of a stage that count for a subject. -/
def allowedTimes (stage : Stage) (scope : Scope) (subject : String) (tr : List Step) : List ℤ :=
  ((tr.filterMap Step.decision).filter fun d =>
    d.stage = stage && scope.subjectOf d.client = subject).map Decision.nowMs

/-- In every rolling window the number of allowed decisions is within the configured limit. The
subject of a global limit is `"*"`. -/
structure WithinLimits (tr : List Step) : Prop where
  clientBurst : ∀ client, Limited 3 60000 (allowedTimes .pre .client client tr)
  client : ∀ client, Limited 30 600000 (allowedTimes .pre .client client tr)
  global : ∀ subject, Limited 300 60000 (allowedTimes .pre .global subject tr)
  postClient : ∀ client, Limited 5 600000 (allowedTimes .post .client client tr)
  postGlobal : ∀ subject, Limited 100 60000 (allowedTimes .post .global subject tr)

/-- No request is taken up at a reading earlier than that of a removal of old rows before it. -/
def CleanupsBehind (deployment : Deployment) (tr : List Step) : Prop :=
  tr.Pairwise fun e f => ∀ c ∈ deployment.sweptAt e.pre e.input,
    ∀ r ∈ deployment.decidedAt f.pre f.input, c ≤ r

instance (deployment : Deployment) (tr : List Step) : Decidable (CleanupsBehind deployment tr) :=
  inferInstanceAs (Decidable (List.Pairwise _ tr))

/-- Every reading used for a removal of rows is up to `now`. -/
structure Past (deployment : Deployment) (tr : List Step) (s : Storage) (now : ℤ) : Prop where
  stored : ∀ row, s.authorityMeta = some row → row.lastNowMs ≤ now
  swept : ∀ e ∈ tr, ∀ c ∈ deployment.sweptAt e.pre e.input, c ≤ now

variable {deployment : Deployment} {tr : List Step} {s s' : Storage} {e : Step}

theorem allowedTimes_concat_of_none (stage : Stage) (scope : Scope) (subject : String)
    (h : e.decision = none) :
    allowedTimes stage scope subject (tr ++ [e]) = allowedTimes stage scope subject tr := by
  simp [allowedTimes, h]

theorem allowedTimes_concat_of_some (stage : Stage) (scope : Scope) (subject : String)
    {d : Decision} (h : e.decision = some d) :
    allowedTimes stage scope subject (tr ++ [e]) = allowedTimes stage scope subject tr ++
      if d.stage = stage ∧ scope.subjectOf d.client = subject then [d.nowMs] else [] := by
  rw [allowedTimes, List.filterMap_append, List.filterMap_cons_some h, List.filterMap_nil,
    List.filter_append, List.map_append]
  by_cases hmatch : d.stage = stage ∧ scope.subjectOf d.client = subject
  · simp [allowedTimes, hmatch]
  · rw [if_neg hmatch, List.filter_cons_of_neg (by simpa using hmatch)]
    rfl

/-! ## What the table counts -/

namespace Storage

variable (stage : Stage) (scope : Scope) (subject : String) {lower upper nowMs : ℤ}

/-- Pruning takes no row of a window it reaches not. -/
theorem count_pruned (h : nowMs - retentionMs stage scope ≤ lower) :
    (s.pruned nowMs).count stage scope subject lower upper =
      s.count stage scope subject lower upper := by
  rw [count, count, pruned, Table.tally_keep]
  congr 1
  funext row
  rw [Bool.eq_iff_iff]
  simp only [Bool.and_eq_true, decide_eq_true_eq, Observation.expired, Bool.not_eq_true',
    decide_eq_false_iff_not]
  refine ⟨And.left, fun hrow => ⟨hrow, ?_⟩⟩
  obtain ⟨⟨⟨⟨rfl, rfl⟩, -⟩, hlower⟩, -⟩ := hrow
  omega

theorem mem_limitRows {plan keys : List String} {n : ℕ} {key : String}
    (h : key ∈ limitRows plan keys n) : key ∈ keys := by
  have hmem := List.mem_of_mem_take h
  simp only [List.mem_append, List.mem_dedup, List.mem_filter, decide_eq_true_eq] at hmem
  rcases hmem with ⟨-, hkey⟩ | ⟨hkey, -⟩ <;> exact hkey

/-- A row that is removed by its key has expired. -/
theorem expired_of_mem_keys {ν : Type} {table : Table String ν} {p : ν → Bool} {key : String}
    {row : ν} (hkey : key ∈ (table.keep p).entries.map Sigma.fst) (hrow : table.lookup key = some row) :
    p row = true := by
  obtain ⟨⟨key, other⟩, hmem, rfl⟩ := List.mem_map.1 hkey
  have hother : (table.keep p).lookup key = some other := AList.mem_lookup_iff.2 hmem
  rw [Table.lookup_keep, hrow, Option.filter_eq_some_iff] at hother
  obtain ⟨heq, hp⟩ := hother
  cases heq
  exact hp

theorem count_cleaned (plan : CleanupPlan) (n : ℕ) (h : nowMs - retentionMs stage scope ≤ lower) :
    (s.cleaned plan n nowMs).count stage scope subject lower upper =
      s.count stage scope subject lower upper := by
  rw [count, count, cleaned]
  apply Table.tally_without
  intro key hkey row hrow
  have hexpired := expired_of_mem_keys (mem_limitRows hkey) hrow
  rw [Bool.eq_false_iff]
  simp only [Observation.expired, decide_eq_true_eq] at hexpired
  simp only [ne_eq, Bool.and_eq_true, decide_eq_true_eq, not_and]
  rintro ⟨⟨⟨rfl, rfl⟩, -⟩, hlower⟩
  omega

/-- An allowed decision is counted once for its client, and once for all. -/
theorem count_observed {attempt client : String} {st : Stage}
    (h : Observed attempt st client nowMs s s') :
    s'.count stage scope subject lower upper = s.count stage scope subject lower upper +
      if (st = stage ∧ scope.subjectOf client = subject) ∧ lower < nowMs ∧ nowMs ≤ upper then 1
      else 0 := by
  rw [h.eq, count, count, Table.tally_insert_of_lookup_eq_none _ h.globalFree,
    Table.tally_insert_of_lookup_eq_none _ h.clientFree]
  cases scope <;> simp [Scope.subjectOf, and_assoc]

end Storage

/-! ## Every decision that may still count is counted -/

/-- The table has every allowed decision of an interval that no removal of rows was entitled to. -/
def Counted (deployment : Deployment) (tr : List Step) (s : Storage) : Prop :=
  ∀ now, Past deployment tr s now → ∀ stage scope subject lower upper,
    now - retentionMs stage scope ≤ lower →
    countBetween lower upper (allowedTimes stage scope subject tr) ≤
      s.count stage scope subject lower upper

/-- A present is past all removals if it was before the last call, and is past that call's. -/
theorem Past.of_snoc {op : Op} {now : ℤ}
    (h : Past deployment (tr ++ [entry deployment.step s op]) (deployment.step s op).1 now) :
    Past deployment tr s now where
  stored row hrow := by
    obtain ⟨row', hrow', hle⟩ := (step_effect deployment s op).lastNow_le hrow
    exact hle.trans (h.stored row' hrow')
  swept e he := h.swept e (List.mem_append_left _ he)

theorem count_eq_of_observations (h : s'.observations = s.observations) (stage : Stage)
    (scope : Scope) (subject : String) (lower upper : ℤ) :
    s'.count stage scope subject lower upper = s.count stage scope subject lower upper := by
  rw [Storage.count, Storage.count, h]

/-- The step of the observations: what a call adds to the table is its decision, and what it removes
is old at its reading. -/
theorem count_step {op : Op} {now : ℤ}
    (h : Past deployment (tr ++ [entry deployment.step s op]) (deployment.step s op).1 now)
    (stage : Stage) (scope : Scope) (subject : String) {lower upper : ℤ}
    (hlower : now - retentionMs stage scope ≤ lower) :
    (deployment.step s op).1.count stage scope subject lower upper =
      s.count stage scope subject lower upper +
        match decisionOf op (deployment.step s op).2 with
        | some d => if (d.stage = stage ∧ scope.subjectOf d.client = subject) ∧ lower < d.nowMs ∧
            d.nowMs ≤ upper then 1 else 0
        | none => 0 := by
  have heffect := step_effect deployment s op
  have hstored := h.stored
  have hswept := h.swept (entry deployment.step s op) (by simp)
  generalize (deployment.step s op).1 = s' at heffect hstored ⊢
  generalize (deployment.step s op).2 = answer at heffect ⊢
  cases heffect with
  | idle undecided same =>
    rw [undecided]
    exact count_eq_of_observations same.observations stage scope subject lower upper
  | @denied op answer releaseId reading row request undecided reads eq =>
    rw [undecided]
    rcases eq with rfl | rfl
    · rfl
    · have hnow : reading ≤ now := hstored _ rfl
      exact Storage.count_pruned stage scope subject (by omega)
  | @claimed input reading permit attempt fault row valid reads claimed =>
    have hnow : reading ≤ now := hstored _ claimed.authorityMeta
    obtain ⟨t, ht, rfl⟩ := claimed.effect
    refine Eq.trans (b := t.count stage scope subject lower upper) rfl ?_
    rw [Storage.count_observed stage scope subject ht,
      Storage.count_pruned stage scope subject (by omega)]
    rfl
  | @consumed input reading attempt fault row valid reads consumed =>
    have hnow : reading ≤ now := hstored _ consumed.authorityMeta
    obtain ⟨t, ht, rfl⟩ := consumed.effect
    rw [count_eq_of_observations (Storage.markConsumed_observations _),
      Storage.count_observed stage scope subject ht,
      Storage.count_pruned stage scope subject (by omega)]
    rfl
  | swept sweep undecided sweeps eq =>
    rw [undecided, eq]
    have hle := hswept _ (sweptAt_eq_some sweep sweeps)
    exact Storage.count_cleaned stage scope subject _ _ (by omega)
  | command executed =>
    exact count_eq_of_observations (execute_frame executed).1 stage scope subject lower upper

@[simp] theorem allowedTimes_nil (stage : Stage) (scope : Scope) (subject : String) :
    allowedTimes stage scope subject [] = [] := rfl

theorem counted_nil (s : Storage) : Counted deployment [] s := by
  intro now hpast stage scope subject lower upper hlower
  rw [allowedTimes_nil, countBetween_nil]
  exact Nat.zero_le _

theorem Counted.snoc (h : Counted deployment tr s) (op : Op) :
    Counted deployment (tr ++ [entry deployment.step s op]) (deployment.step s op).1 := by
  intro now hpast stage scope subject lower upper hlower
  have hle := h now hpast.of_snoc stage scope subject lower upper hlower
  rw [count_step hpast stage scope subject hlower]
  cases hd : decisionOf op (deployment.step s op).2 with
  | none =>
    rw [allowedTimes_concat_of_none (e := entry deployment.step s op) stage scope subject hd]
    exact hle
  | some d =>
    rw [allowedTimes_concat_of_some (e := entry deployment.step s op) stage scope subject hd]
    by_cases hmatch : d.stage = stage ∧ scope.subjectOf d.client = subject
    · rw [if_pos hmatch, countBetween_concat]
      simp only [hmatch, and_self, true_and]
      omega
    · rw [if_neg hmatch, List.append_nil]
      omega

/-! ## The limits -/

/-- Before an allowed decision, the windows that end at it have room. -/
structure Room (s : Storage) (d : Decision) : Prop where
  clientBurst : d.stage = .pre → s.count .pre .client d.client (d.nowMs - 60000) d.nowMs < 3
  client : d.stage = .pre → s.count .pre .client d.client (d.nowMs - 600000) d.nowMs < 30
  global : d.stage = .pre → s.count .pre .global "*" (d.nowMs - 60000) d.nowMs < 300
  postClient : d.stage = .post → s.count .post .client d.client (d.nowMs - 600000) d.nowMs < 5
  postGlobal : d.stage = .post → s.count .post .global "*" (d.nowMs - 60000) d.nowMs < 100

theorem Storage.room_of_preLimited {client : String} {nowMs : ℤ}
    (h : s.preLimited client nowMs = false) :
    s.count .pre .client client (nowMs - 60000) nowMs < 3 ∧
      s.count .pre .client client (nowMs - 600000) nowMs < 30 ∧
      s.count .pre .global "*" (nowMs - 60000) nowMs < 300 := by
  simp only [preLimited, Bool.or_eq_false_iff, decide_eq_false_iff_not, not_le] at h
  exact ⟨h.1.1, h.1.2, h.2⟩

theorem Storage.room_of_postLimited {client : String} {nowMs : ℤ}
    (h : s.postLimited client nowMs = false) :
    s.count .post .client client (nowMs - 600000) nowMs < 5 ∧
      s.count .post .global "*" (nowMs - 60000) nowMs < 100 := by
  simp only [postLimited, Bool.or_eq_false_iff, decide_eq_false_iff_not, not_le] at h
  exact h

theorem Effect.room {op : Op} {answer : Answer} (h : Effect deployment s s' op answer)
    {d : Decision} (hd : decisionOf op answer = some d) : Room s d := by
  have hcount {row : MetaRow} {stage : Stage} {scope : Scope} {subject : String} {windowMs nowMs : ℤ}
      (hwindow : windowMs ≤ retentionMs stage scope) :
      ((s.createAuthoritySchema.seen row nowMs).pruned nowMs).count stage scope subject
          (nowMs - windowMs) nowMs = s.count stage scope subject (nowMs - windowMs) nowMs :=
    Storage.count_pruned stage scope subject (by omega)
  cases h with
  | idle undecided same | denied request undecided reads eq | swept sweep undecided sweeps eq =>
    rw [undecided] at hd
    cases hd
  | claimed valid reads claimed =>
    cases hd
    have hroom := Storage.room_of_preLimited claimed.room
    rw [hcount (by decide), hcount (by decide), hcount (by decide)] at hroom
    exact ⟨fun _ => hroom.1, fun _ => hroom.2.1, fun _ => hroom.2.2, nofun, nofun⟩
  | consumed valid reads consumed =>
    cases hd
    have hroom := Storage.room_of_postLimited consumed.room
    rw [hcount (by decide), hcount (by decide)] at hroom
    exact ⟨nofun, nofun, nofun, fun _ => hroom.1, fun _ => hroom.2⟩
  | command executed => cases hd

/-- The reading of a decision is past every removal of rows. -/
theorem past_of_decision {op : Op} {d : Decision}
    (hbehind : CleanupsBehind deployment (tr ++ [entry deployment.step s op]))
    (hd : decisionOf op (deployment.step s op).2 = some d) : Past deployment tr s d.nowMs := by
  obtain ⟨hdecided, row, hrow, hle, -⟩ := (step_effect deployment s op).decision hd
  refine ⟨fun row' hrow' => ?_, fun e he c hc => ?_⟩
  · cases hrow.symm.trans hrow'
    exact hle
  · exact (List.pairwise_append.1 hbehind).2.2 e he _ (List.mem_singleton_self _) c hc _ hdecided

/-- One limit, over one more call. -/
theorem limited_snoc {op : Op} {stage : Stage} {scope : Scope} {limit : ℕ} {windowMs : ℤ}
    (hwindow : windowMs ≤ retentionMs stage scope)
    (hroom : ∀ d, decisionOf op (deployment.step s op).2 = some d → d.stage = stage →
      s.count stage scope (scope.subjectOf d.client) (d.nowMs - windowMs) d.nowMs < limit)
    (hcounted : Counted deployment tr s) (htimely : Timely tr s)
    (hbehind : CleanupsBehind deployment (tr ++ [entry deployment.step s op]))
    (h : ∀ subject, Limited limit windowMs (allowedTimes stage scope subject tr))
    (subject : String) : Limited limit windowMs
      (allowedTimes stage scope subject (tr ++ [entry deployment.step s op])) := by
  cases hd : decisionOf op (deployment.step s op).2 with
  | none =>
    rw [allowedTimes_concat_of_none (e := entry deployment.step s op) stage scope subject hd]
    exact h subject
  | some d =>
    rw [allowedTimes_concat_of_some (e := entry deployment.step s op) stage scope subject hd]
    split
    · next hmatch =>
      obtain ⟨rfl, rfl⟩ := hmatch
      obtain ⟨-, row, hrow, hle, -⟩ := (step_effect deployment s op).decision hd
      have hpast := past_of_decision hbehind hd
      refine (h _).concat (fun t ht => ?_) ?_
      · simp only [allowedTimes, List.mem_map, List.mem_filter, List.mem_filterMap] at ht
        obtain ⟨d', ⟨⟨e, he, hd'⟩, -⟩, rfl⟩ := ht
        obtain ⟨row', hrow', hle'⟩ := htimely e he d' hd'
        cases hrow.symm.trans hrow'
        exact hle'.trans hle
      · exact (hcounted d.nowMs hpast _ _ _ _ _ (by omega)).trans_lt (hroom d hd rfl)
    · rw [List.append_nil]
      exact h subject

/-- All five limits, for every subject. -/
theorem WithinLimits.snoc (hcounted : Counted deployment tr s) (htimely : Timely tr s) (op : Op)
    (hbehind : CleanupsBehind deployment (tr ++ [entry deployment.step s op]))
    (h : WithinLimits tr) : WithinLimits (tr ++ [entry deployment.step s op]) := by
  have hroom {d : Decision} (hd : decisionOf op (deployment.step s op).2 = some d) : Room s d :=
    (step_effect deployment s op).room hd
  exact {
    clientBurst := limited_snoc (by decide) (fun d hd => (hroom hd).clientBurst) hcounted htimely
      hbehind h.clientBurst
    client := limited_snoc (by decide) (fun d hd => (hroom hd).client) hcounted htimely hbehind
      h.client
    global := limited_snoc (by decide) (fun d hd => (hroom hd).global) hcounted htimely hbehind
      h.global
    postClient := limited_snoc (by decide) (fun d hd => (hroom hd).postClient) hcounted htimely
      hbehind h.postClient
    postGlobal := limited_snoc (by decide) (fun d hd => (hroom hd).postGlobal) hcounted htimely
      hbehind h.postGlobal }

theorem withinLimits_nil : WithinLimits [] := by
  constructor <;> intro subject <;> exact .nil _ _

/-- **The limits hold on every rolling window** of a run in which no request is taken up at a reading
earlier than that of a removal of old rows before it. -/
theorem within_limits (deployment : Deployment) (ops : List Op)
    (h : CleanupsBehind deployment (trace deployment.step {} ops)) :
    WithinLimits (trace deployment.step {} ops) := by
  refine (run_induction deployment.step (P := fun tr s => Counted deployment tr s ∧ Timely tr s ∧
    (CleanupsBehind deployment tr → WithinLimits tr)) ?_ ?_ ops).2.2 h
  · exact ⟨counted_nil _, fun _ he => absurd he List.not_mem_nil, fun _ => withinLimits_nil⟩
  · rintro tr s op ⟨hcounted, htimely, hlimits⟩
    exact ⟨hcounted.snoc op, htimely.snoc op, fun hbehind =>
      (hlimits (List.pairwise_append.1 hbehind).1).snoc hcounted htimely op hbehind⟩

theorem cleanupsBehind_sample : CleanupsBehind sampleDeployment
    (trace sampleDeployment.step {} (.command sampleInitialization :: sampleTraffic 700000)) := by
  rw [trace_sampleTraffic]
  decide +kernel

theorem within_limits_sample : WithinLimits
    (trace sampleDeployment.step {} (.command sampleInitialization :: sampleTraffic 700000)) :=
  within_limits sampleDeployment _ cleanupsBehind_sample

/-- The cleanup at 700000 has removed the observations of the three claims at 1000 when the clock is
back at 2000. -/
theorem limit_exceeded : ¬ WithinLimits
    (trace sampleDeployment.step {} (.command sampleInitialization :: sampleTraffic 2000)) := by
  rw [trace_sampleTraffic]
  intro h
  exact absurd (h.clientBurst (sampleText 43) 2000) (by decide +kernel)

end Limitmark.Authority
