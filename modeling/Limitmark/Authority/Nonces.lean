import Limitmark.Authority.Limits

/-!
# An ingress envelope is claimed at most once

An envelope is fresh for 35 s of the authority's time, and the row of its nonce is retained for 120 s
from its claim. While the row is there a second claim is a replay, and when it may be removed the
envelope is no longer fresh. This needs the two to be measured by one clock: a removal at a reading
that a later claim does not reach may come too early (`envelope_claimed_twice`).
-/

namespace Limitmark.Authority

open Limitmark.Foundations Limitmark.Ingress

/-- An allowed claim. -/
structure Grant where
  input : ClaimPreInput
  permit : String
  nowMs : ℤ
  deriving DecidableEq, Repr

/-- An allowed consume. -/
structure Spending where
  input : ConsumePostInput
  nowMs : ℤ
  deriving DecidableEq, Repr

def grantOf : Op → Answer → Option Grant
  | .claimPre input reading _ _ _, .pre (.allowed permit _) => some ⟨input, permit, reading⟩
  | _, _ => none

def spendingOf : Op → Answer → Option Spending
  | .consumePost input reading _ _, .post .allowed => some ⟨input, reading⟩
  | _, _ => none

def Step.grant (e : Step) : Option Grant := grantOf e.input e.out

def Step.spending (e : Step) : Option Spending := spendingOf e.input e.out

/-- The envelope of an allowed claim: its nonce and its time of issue. -/
def Step.claimedEnvelope (e : Step) : Option (String × ℤ) :=
  e.grant.map fun g => (g.input.nonce, g.input.issuedAtMs)

variable {deployment : Deployment} {tr : List Step} {s s' : Storage}

theorem decisionOf_of_grantOf {op : Op} {answer : Answer} {g : Grant}
    (h : grantOf op answer = some g) :
    decisionOf op answer = some ⟨.pre, g.input.clientPseudonym, g.nowMs⟩ := by
  unfold grantOf at h
  split at h
  · cases h
    rfl
  · cases h

theorem decisionOf_of_spendingOf {op : Op} {answer : Answer} {c : Spending}
    (h : spendingOf op answer = some c) :
    decisionOf op answer = some ⟨.post, c.input.clientPseudonym, c.nowMs⟩ := by
  unfold spendingOf at h
  split at h
  · cases h
    rfl
  · cases h

/-! ## The nonce rows over one call -/

namespace Storage

variable {reading : ℤ} {attempt : String} {row : MetaRow}

theorem lookup_pruned (nonce : String) (nowMs : ℤ) :
    (s.pruned nowMs).nonces.lookup nonce =
      (s.nonces.lookup nonce).filter fun r => !r.expired nowMs :=
  Table.lookup_keep _ _ _

theorem Observed.nonces {stage : Stage} {client : String} {nowMs : ℤ}
    (h : Observed attempt stage client nowMs s s') : s'.nonces = s.nonces := by
  rw [h.eq]

/-- The nonces after an allowed claim. -/
theorem Claimed.lookup {options : AuthorityOptions} {permit : String} {input : ClaimPreInput}
    (h : Claimed options reading permit attempt input row s s') (nonce : String) :
    s'.nonces.lookup nonce =
      if nonce = input.nonce then some (claimedRow input permit reading)
      else (s.nonces.lookup nonce).filter fun r => !r.expired reading := by
  obtain ⟨t, ht, rfl⟩ := h.effect
  refine (Table.lookup_insert_eq nonce input.nonce _ t.nonces).trans ?_
  rw [ht.nonces, lookup_pruned]
  rfl

/-- An allowed claim found its nonce free, or its row expired. -/
theorem Claimed.expired {options : AuthorityOptions} {permit : String} {input : ClaimPreInput}
    (h : Claimed options reading permit attempt input row s s') {r : NonceRow}
    (hr : s.nonces.lookup input.nonce = some r) : r.retainUntilMs ≤ reading := by
  have hunclaimed := h.unclaimed
  rw [lookup_pruned] at hunclaimed
  have hlookup : (s.seen row reading).nonces.lookup input.nonce = some r := hr
  rw [hlookup, Option.filter_eq_none_iff] at hunclaimed
  simpa [NonceRow.expired] using hunclaimed r rfl

/-- The row a consume found, and the nonces after it. -/
theorem Consumed.lookup {input : ConsumePostInput}
    (h : Consumed reading attempt input row s s') :
    ∃ claim, s.nonces.lookup input.nonce = some claim ∧ matchesClaim input reading claim = true ∧
      claim.postConsumed = false ∧ ∀ nonce, s'.nonces.lookup nonce =
        if nonce = input.nonce then some { claim with postConsumed := true }
        else (s.nonces.lookup nonce).filter fun r => !r.expired reading := by
  obtain ⟨claim, hclaim, hmatches, hunconsumed⟩ := h.granted
  obtain ⟨t, ht, rfl⟩ := h.effect
  have hfound : t.nonces.lookup input.nonce = some claim := by rw [ht.nonces, hclaim]
  refine ⟨claim, ?_, hmatches, hunconsumed, fun nonce => ?_⟩
  · rw [lookup_pruned, Option.filter_eq_some_iff] at hclaim
    exact hclaim.1
  · rw [markConsumed, hfound]
    refine (Table.lookup_insert_eq nonce input.nonce _ t.nonces).trans ?_
    rw [ht.nonces, lookup_pruned]
    rfl

theorem lookup_cleaned (plan : CleanupPlan) (n : ℕ) (nowMs : ℤ) (nonce : String) :
    (s.cleaned plan n nowMs).nonces.lookup nonce = s.nonces.lookup nonce ∨
      (s.cleaned plan n nowMs).nonces.lookup nonce = none ∧
        ∀ r, s.nonces.lookup nonce = some r → r.retainUntilMs ≤ nowMs := by
  simp only [cleaned, Table.lookup_without]
  split
  · next hmem =>
    refine .inr ⟨rfl, fun r hr => ?_⟩
    simpa [NonceRow.expired] using expired_of_mem_keys (mem_limitRows hmem) hr
  · exact .inl rfl

end Storage

/-- **A row is lost only once its retention is over** by the reading it is removed at. -/
theorem Effect.row_kept {op : Op} {answer : Answer} (h : Effect deployment s s' op answer)
    {now : ℤ} (hstored : ∀ row, s'.authorityMeta = some row → row.lastNowMs ≤ now)
    (hswept : ∀ c ∈ deployment.sweptAt s op, c ≤ now) {nonce : String} {r : NonceRow}
    (hr : s.nonces.lookup nonce = some r) :
    (∃ r', s'.nonces.lookup nonce = some r' ∧ r.retainUntilMs ≤ r'.retainUntilMs) ∨
      r.retainUntilMs ≤ now := by
  have hpruned {reading : ℤ} (hle : reading ≤ now)
      (hlookup : s'.nonces.lookup nonce = (s.nonces.lookup nonce).filter fun r => !r.expired reading) :
      (∃ r', s'.nonces.lookup nonce = some r' ∧ r.retainUntilMs ≤ r'.retainUntilMs) ∨
        r.retainUntilMs ≤ now := by
    by_cases hexpired : r.retainUntilMs ≤ reading
    · exact .inr (hexpired.trans hle)
    · refine .inl ⟨r, ?_, le_rfl⟩
      rw [hlookup, hr, Option.filter_some, if_pos (by simpa [NonceRow.expired] using hexpired)]
  cases h with
  | idle undecided same =>
    rw [same.nonces]
    exact .inl ⟨r, hr, le_rfl⟩
  | denied request undecided reads eq =>
    rcases eq with rfl | rfl
    · exact .inl ⟨r, hr, le_rfl⟩
    · exact hpruned (hstored _ rfl) (Storage.lookup_pruned _ _)
  | @claimed input reading permit attempt fault row valid reads claimed =>
    by_cases hnonce : nonce = input.nonce
    · refine .inl ⟨_, (claimed.lookup nonce).trans (if_pos hnonce), ?_⟩
      have hexpired : r.retainUntilMs ≤ reading := claimed.expired (hnonce ▸ hr)
      simp only [Storage.claimedRow, NONCE_RETENTION_MS]
      omega
    · exact hpruned (hstored _ claimed.authorityMeta) ((claimed.lookup nonce).trans (if_neg hnonce))
  | @consumed input reading attempt fault row valid reads consumed =>
    obtain ⟨claim, hclaim, -, -, hlookup⟩ := consumed.lookup
    by_cases hnonce : nonce = input.nonce
    · refine .inl ⟨_, (hlookup nonce).trans (if_pos hnonce), ?_⟩
      rw [hnonce] at hr
      cases hclaim.symm.trans hr
      exact le_rfl
    · exact hpruned (hstored _ consumed.authorityMeta) ((hlookup nonce).trans (if_neg hnonce))
  | swept sweep undecided sweeps eq =>
    rw [eq]
    obtain hsame | ⟨-, hexpired⟩ := Storage.lookup_cleaned _ _ _ nonce
    · exact .inl ⟨r, hsame.trans hr, le_rfl⟩
    · exact .inr ((hexpired r hr).trans (hswept _ (sweptAt_eq_some sweep sweeps)))
  | command executed =>
    rw [(execute_frame executed).2.1]
    exact .inl ⟨r, hr, le_rfl⟩

/-- What a call that grants found and left. -/
theorem Effect.granted {op : Op} {answer : Answer} (h : Effect deployment s s' op answer) {g : Grant}
    (hg : grantOf op answer = some g) :
    (g.input.issuedAtMs ≤ g.nowMs + 5000 ∧ g.nowMs ≤ g.input.issuedAtMs + 30000) ∧
      (∀ r, s.nonces.lookup g.input.nonce = some r → r.retainUntilMs ≤ g.nowMs) ∧
      s'.nonces.lookup g.input.nonce = some (Storage.claimedRow g.input g.permit g.nowMs) := by
  cases h with
  | idle undecided same | denied request undecided reads eq | swept sweep undecided sweeps eq =>
    rw [decisionOf_of_grantOf hg] at undecided
    cases undecided
  | claimed valid reads claimed =>
    cases hg
    exact ⟨assertIngressFresh_eq_ok claimed.fresh, fun r hr => claimed.expired hr,
      (claimed.lookup _).trans (if_pos rfl)⟩
  | consumed valid reads consumed => cases hg
  | command executed => cases hg

/-! ## At most one claim -/

/-- Every claim was of a fresh envelope, and its row is there, or its retention is past. -/
def Held (deployment : Deployment) (tr : List Step) (s : Storage) : Prop :=
  ∀ e ∈ tr, ∀ g ∈ e.grant, g.input.issuedAtMs ≤ g.nowMs + 5000 ∧ ∀ now, Past deployment tr s now →
    (∃ r, s.nonces.lookup g.input.nonce = some r ∧ g.nowMs + NONCE_RETENTION_MS ≤ r.retainUntilMs) ∨
      g.nowMs + NONCE_RETENTION_MS ≤ now

theorem Held.snoc (h : Held deployment tr s) (op : Op) :
    Held deployment (tr ++ [entry deployment.step s op]) (deployment.step s op).1 := by
  have heffect := step_effect deployment s op
  intro e he g hg
  rcases List.mem_append.1 he with he | he
  · obtain ⟨hfresh, hheld⟩ := h e he g hg
    refine ⟨hfresh, fun now hpast => ?_⟩
    obtain ⟨r, hr, hle⟩ | hle := hheld now hpast.of_snoc
    · obtain ⟨r', hr', hle'⟩ | hle' :=
        heffect.row_kept hpast.stored (hpast.swept (entry deployment.step s op) (by simp)) hr
      · exact .inl ⟨r', hr', hle.trans hle'⟩
      · exact .inr (hle.trans hle')
    · exact .inr hle
  · rw [List.mem_singleton.1 he] at hg
    obtain ⟨⟨hfresh, -⟩, -, hlookup⟩ := heffect.granted hg
    exact ⟨hfresh, fun now hpast => .inl ⟨_, hlookup, le_rfl⟩⟩

/-- A claim of an envelope that was claimed before finds its row, or the envelope is stale. -/
theorem Held.not_claimed_again {op : Op} {g : Grant} (h : Held deployment tr s)
    (hbehind : CleanupsBehind deployment (tr ++ [entry deployment.step s op]))
    (hg : grantOf op (deployment.step s op).2 = some g) {e : Step} (he : e ∈ tr) :
    e.claimedEnvelope ≠ some (g.input.nonce, g.input.issuedAtMs) := by
  intro hsame
  obtain ⟨g', hg', heq⟩ := Option.map_eq_some_iff.1 hsame
  obtain ⟨hnonce, hissued⟩ := Prod.mk.inj heq
  obtain ⟨hfresh', hheld⟩ := h e he g' hg'
  obtain ⟨⟨-, hfresh⟩, hfree, -⟩ := (step_effect deployment s op).granted hg
  have hpast := past_of_decision hbehind (decisionOf_of_grantOf hg)
  have hover : g'.nowMs + NONCE_RETENTION_MS ≤ g.nowMs := by
    obtain ⟨r, hr, hle⟩ | hle := hheld g.nowMs hpast
    · exact hle.trans (hfree r (hnonce ▸ hr))
    · exact hle
  rw [NONCE_RETENTION_MS] at hover
  omega

/-- **An ingress envelope is claimed at most once** in a run in which no request is taken up at a
reading earlier than that of a removal of old rows before it. -/
theorem envelope_claimed_once (deployment : Deployment) (ops : List Op)
    (h : CleanupsBehind deployment (trace deployment.step {} ops)) :
    ((trace deployment.step {} ops).filterMap Step.claimedEnvelope).Nodup := by
  refine (run_induction deployment.step (P := fun tr s => Held deployment tr s ∧
    (CleanupsBehind deployment tr → (tr.filterMap Step.claimedEnvelope).Nodup)) ?_ ?_ ops).2 h
  · exact ⟨fun _ he => absurd he List.not_mem_nil, fun _ => List.nodup_nil⟩
  · rintro tr s op ⟨hheld, hnodup⟩
    refine ⟨hheld.snoc op, fun hbehind => ?_⟩
    have hbefore := hnodup (List.pairwise_append.1 hbehind).1
    rw [List.filterMap_append]
    cases hg : grantOf op (deployment.step s op).2 with
    | none =>
      rw [List.filterMap_cons_none (by simp [Step.claimedEnvelope, Step.grant, hg]),
        List.filterMap_nil, List.append_nil]
      exact hbefore
    | some g =>
      rw [List.filterMap_cons_some (by simp [Step.claimedEnvelope, Step.grant, hg]; rfl),
        List.filterMap_nil, ← List.concat_eq_append]
      refine hbefore.concat fun hmem => ?_
      obtain ⟨e, he, henvelope⟩ := List.mem_filterMap.1 hmem
      exact hheld.not_claimed_again hbehind hg he henvelope

theorem envelope_claimed_once_sample :
    ((trace sampleDeployment.step {}
      (.command sampleInitialization :: sampleTraffic 700000)).filterMap Step.claimedEnvelope).Nodup :=
  envelope_claimed_once sampleDeployment _ cleanupsBehind_sample

/-- The cleanup at 700000 has removed the nonces of the claims at 1000 when the clock is back at
2000. -/
theorem envelope_claimed_twice :
    ¬ ((trace sampleDeployment.step {}
      (.command sampleInitialization :: sampleTraffic 2000)).filterMap Step.claimedEnvelope).Nodup := by
  rw [trace_sampleTraffic]
  decide +kernel

end Limitmark.Authority
