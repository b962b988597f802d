import Mathlib.Logic.Function.Basic
import Limitmark.Authority.Nonces

/-!
# Permits

Every allowed consume spends the permit of one earlier allowed claim, and no two spend the same
claim's. The claims and consumes are named by their places in the run, so two claims that drew the
same random permit are still two.

Each nonce row derives from one claim (`Backed`), and is marked when its claim is spent; no call
unmarks a row, and a new row derives from a new claim. Cleanups only remove rows, so the clock plays
no part.
-/

namespace Limitmark.Authority

open Limitmark.Foundations

/-- What a step of a run is, at its place. -/
def occursAt {α : Type} (f : Step → Option α) (tr : List Step) (i : ℕ) : Option α := tr[i]?.bind f

/-- A consume presents what a claim was granted, within the lifetime of its permit. -/
structure Spends (c : Spending) (g : Grant) : Prop where
  releaseId : c.input.releaseId = g.input.releaseId
  clientPseudonym : c.input.clientPseudonym = g.input.clientPseudonym
  requestBinding : c.input.requestBinding = g.input.requestBinding
  nonce : c.input.nonce = g.input.nonce
  permit : c.input.permit = g.permit
  after : g.nowMs ≤ c.nowMs
  inTime : c.nowMs < g.nowMs + PRE_PERMIT_LIFETIME_MS

/-- A matching of the consumes of a run with claims before them. -/
structure Matching (tr : List Step) (claimOf : ℕ → ℕ) : Prop where
  spends : ∀ j c, occursAt Step.spending tr j = some c →
    claimOf j < j ∧ ∃ g, occursAt Step.grant tr (claimOf j) = some g ∧ Spends c g
  injective : ∀ j j' c c', occursAt Step.spending tr j = some c →
    occursAt Step.spending tr j' = some c' → claimOf j = claimOf j' → j = j'

variable {deployment : Deployment} {tr : List Step} {s s' : Storage}

theorem occursAt_concat {α : Type} {f : Step → Option α} {e : Step} {i : ℕ} {a : α} :
    occursAt f (tr ++ [e]) i = some a ↔
      occursAt f tr i = some a ∨ i = tr.length ∧ f e = some a := by
  unfold occursAt
  rcases lt_trichotomy i tr.length with hlt | rfl | hgt
  · rw [List.getElem?_append_left hlt]
    refine ⟨.inl, fun h => ?_⟩
    rcases h with h | ⟨rfl, -⟩
    · exact h
    · exact absurd hlt (lt_irrefl _)
  · simp
  · rw [List.getElem?_eq_none (by simp; omega), List.getElem?_eq_none (by omega)]
    simp
    omega

theorem lt_of_occursAt {α : Type} {f : Step → Option α} {i : ℕ} {a : α}
    (h : occursAt f tr i = some a) : i < tr.length := by
  by_contra hle
  rw [occursAt, List.getElem?_eq_none (by omega)] at h
  cases h

theorem grantOf_of_spendingOf {op : Op} {answer : Answer} {c : Spending}
    (h : spendingOf op answer = some c) : grantOf op answer = none := by
  unfold spendingOf at h
  split at h
  · rfl
  · cases h

/-! ## The nonce rows over one call -/

/-- What a call that spends found and left: the row of its nonce, unmarked and then marked. -/
theorem Effect.spent {op : Op} {answer : Answer} (h : Effect deployment s s' op answer)
    {c : Spending} (hc : spendingOf op answer = some c) :
    (∃ release ∈ s.activeReleases, release.releaseId = c.input.releaseId ∧
        Storage.isActiveAt c.nowMs release = true) ∧
      ∃ r, s.nonces.lookup c.input.nonce = some r ∧
        Storage.matchesClaim c.input c.nowMs r = true ∧ r.postConsumed = false ∧
        s'.nonces.lookup c.input.nonce = some { r with postConsumed := true } := by
  cases h with
  | idle undecided same | denied request undecided reads eq | swept sweep undecided sweeps eq =>
    rw [decisionOf_of_spendingOf hc] at undecided
    cases undecided
  | claimed valid reads claimed => cases hc
  | consumed valid reads consumed =>
    cases hc
    obtain ⟨r, hr, hmatches, hunconsumed, hlookup⟩ := consumed.lookup
    exact ⟨reads.active, r, hr, hmatches, hunconsumed, (hlookup _).trans (if_pos rfl)⟩
  | command executed => cases hc

/-- A row after a call was there before, unless it is that of the call's own claim or consume. -/
theorem Effect.row_origin {op : Op} {answer : Answer} (h : Effect deployment s s' op answer)
    {nonce : String} {r : NonceRow} (hr : s'.nonces.lookup nonce = some r)
    (hgrant : ∀ g, grantOf op answer = some g → nonce ≠ g.input.nonce)
    (hspend : ∀ c, spendingOf op answer = some c → nonce ≠ c.input.nonce) :
    s.nonces.lookup nonce = some r := by
  cases h with
  | idle undecided same => exact (same.nonces ▸ hr : _)
  | denied request undecided reads eq =>
    rcases eq with rfl | rfl
    · exact hr
    · exact (Option.filter_eq_some_iff.1 ((Storage.lookup_pruned _ _).symm.trans hr)).1
  | claimed valid reads claimed =>
    rw [claimed.lookup, if_neg (hgrant _ rfl)] at hr
    exact (Option.filter_eq_some_iff.1 hr).1
  | consumed valid reads consumed =>
    obtain ⟨_, -, -, -, hlookup⟩ := consumed.lookup
    rw [hlookup, if_neg (hspend _ rfl)] at hr
    exact (Option.filter_eq_some_iff.1 hr).1
  | swept sweep undecided sweeps eq =>
    rw [eq] at hr
    obtain hsame | ⟨hnone, -⟩ := Storage.lookup_cleaned _ _ _ nonce
    · exact hsame.symm.trans hr
    · cases hnone.symm.trans hr
  | command executed => exact ((execute_frame executed).2.1 ▸ hr : _)

/-! ## The matching -/

/-- Every nonce row is that of a claim, and one that is not marked is that of an unspent claim. -/
def Backed (tr : List Step) (s : Storage) (claimOf : ℕ → ℕ) : Prop :=
  ∀ nonce r, s.nonces.lookup nonce = some r → ∃ i g, occursAt Step.grant tr i = some g ∧
    nonce = g.input.nonce ∧
    r = { Storage.claimedRow g.input g.permit g.nowMs with postConsumed := r.postConsumed } ∧
    (r.postConsumed = false →
      ∀ j c, occursAt Step.spending tr j = some c → claimOf j ≠ i)

/-- What a run keeps. -/
structure Kept (tr : List Step) (s : Storage) (claimOf : ℕ → ℕ) : Prop where
  matching : Matching tr claimOf
  backed : Backed tr s claimOf

theorem Kept.nil {claimOf : ℕ → ℕ} : Kept [] {} claimOf := by
  refine ⟨⟨fun j c hc => ?_, fun j j' c c' hc => ?_⟩, fun nonce r hr => ?_⟩
  · cases hc
  · cases hc
  · cases hr

/-- A step that spends nothing adds no consume to match. -/
theorem Matching.of_none {claimOf : ℕ → ℕ} {e : Step} (h : Matching tr claimOf)
    (he : e.spending = none) : Matching (tr ++ [e]) claimOf := by
  have hold {j : ℕ} {c : Spending} (hc : occursAt Step.spending (tr ++ [e]) j = some c) :
      occursAt Step.spending tr j = some c := by
    rcases occursAt_concat.1 hc with hc | ⟨-, hc⟩
    · exact hc
    · rw [he] at hc
      cases hc
  refine ⟨fun j c hc => ?_, fun j j' c c' hc hc' => h.injective j j' c c' (hold hc) (hold hc')⟩
  obtain ⟨hlt, g, hg, hspends⟩ := h.spends j c (hold hc)
  exact ⟨hlt, g, occursAt_concat.2 (.inl hg), hspends⟩

/-- A step that spends an unspent claim is matched with it. -/
theorem Matching.update {claimOf : ℕ → ℕ} {e : Step} {i : ℕ} {c : Spending} {g : Grant}
    (h : Matching tr claimOf) (he : e.spending = some c) (hg : occursAt Step.grant tr i = some g)
    (hspends : Spends c g)
    (hunspent : ∀ j c', occursAt Step.spending tr j = some c' → claimOf j ≠ i) :
    Matching (tr ++ [e]) (Function.update claimOf tr.length i) := by
  have hat {j : ℕ} {c' : Spending} (hc : occursAt Step.spending (tr ++ [e]) j = some c') :
      (occursAt Step.spending tr j = some c' ∧
        Function.update claimOf tr.length i j = claimOf j) ∨
      j = tr.length ∧ c' = c ∧ Function.update claimOf tr.length i j = i := by
    rcases occursAt_concat.1 hc with hc' | ⟨rfl, hc'⟩
    · exact .inl ⟨hc', Function.update_of_ne (lt_of_occursAt hc').ne _ _⟩
    · exact .inr ⟨rfl, Option.some.inj (hc'.symm.trans he), Function.update_self _ _ _⟩
  refine ⟨fun j c' hc => ?_, fun j j' c₁ c₂ hc₁ hc₂ heq => ?_⟩
  · obtain ⟨hc, hclaim⟩ | ⟨rfl, rfl, hclaim⟩ := hat hc
    · obtain ⟨hlt, g', hg', hspends'⟩ := h.spends j c' hc
      rw [hclaim]
      exact ⟨hlt, g', occursAt_concat.2 (.inl hg'), hspends'⟩
    · rw [hclaim]
      exact ⟨lt_of_occursAt hg, g, occursAt_concat.2 (.inl hg), hspends⟩
  · obtain ⟨hc, hclaim⟩ | ⟨hlast, -, hclaim⟩ := hat hc₁ <;>
      obtain ⟨hc', hclaim'⟩ | ⟨hlast', -, hclaim'⟩ := hat hc₂ <;> rw [hclaim, hclaim'] at heq
    · exact h.injective j j' c₁ c₂ hc hc' heq
    · exact absurd heq (hunspent j c₁ hc)
    · exact absurd heq.symm (hunspent j' c₂ hc')
    · exact hlast.trans hlast'.symm

theorem spends_of_matchesClaim {c : Spending} {g : Grant} {r : NonceRow}
    (hmatches : Storage.matchesClaim c.input c.nowMs r = true) (hnonce : c.input.nonce = g.input.nonce)
    (hr : r = { Storage.claimedRow g.input g.permit g.nowMs with postConsumed := r.postConsumed })
    (hafter : g.nowMs ≤ c.nowMs) : Spends c g := by
  rw [hr] at hmatches
  simp only [Storage.matchesClaim, Bool.and_eq_true] at hmatches
  obtain ⟨⟨⟨⟨hrelease, hclient⟩, hbinding⟩, hpermit⟩, htime⟩ := hmatches
  exact
    { releaseId := (of_decide_eq_true hrelease).symm
      clientPseudonym := (of_decide_eq_true hclient).symm
      requestBinding := (of_decide_eq_true hbinding).symm
      nonce := hnonce
      permit := (of_decide_eq_true hpermit).symm
      after := hafter
      inTime := of_decide_eq_true htime }

/-- A claim of the run is not later than the last time seen. -/
theorem Timely.grant (h : Timely tr s) {i : ℕ} {g : Grant}
    (hg : occursAt Step.grant tr i = some g) {row : MetaRow} (hrow : s.authorityMeta = some row) :
    g.nowMs ≤ row.lastNowMs := by
  obtain ⟨e, he, hgrant⟩ := Option.bind_eq_some_iff.1 hg
  obtain ⟨row', hrow', hle⟩ :=
    h e (List.mem_of_getElem? he) _ (decisionOf_of_grantOf hgrant)
  cases hrow.symm.trans hrow'
  exact hle

/-- A call that spends nothing: its row, if it claims, is new, and the others were there before. -/
theorem Kept.of_none {claimOf : ℕ → ℕ} {op : Op} (h : Kept tr s claimOf)
    (hc : spendingOf op (deployment.step s op).2 = none) :
    Kept (tr ++ [entry deployment.step s op]) (deployment.step s op).1 claimOf := by
  have heffect := step_effect deployment s op
  refine ⟨h.matching.of_none hc, fun nonce r hr => ?_⟩
  by_cases hgrant : ∃ g, grantOf op (deployment.step s op).2 = some g ∧ nonce = g.input.nonce
  · -- Every consume so far was matched with an earlier claim.
    obtain ⟨g, hg, rfl⟩ := hgrant
    cases (heffect.granted hg).2.2.symm.trans hr
    refine ⟨tr.length, g, occursAt_concat.2 (.inr ⟨rfl, hg⟩), rfl, rfl, fun _ j c hc' => ?_⟩
    rcases occursAt_concat.1 hc' with hc' | ⟨-, hc'⟩
    · have hlt := (h.matching.spends j c hc').1
      have hj := lt_of_occursAt hc'
      omega
    · cases hc.symm.trans hc'
  · have hold := heffect.row_origin hr (fun g hg hnonce => hgrant ⟨g, hg, hnonce⟩)
      (fun c hc' => by cases hc.symm.trans hc')
    obtain ⟨i, g, hg, hnonce, hrow, hunspent⟩ := h.backed nonce r hold
    refine ⟨i, g, occursAt_concat.2 (.inl hg), hnonce, hrow, fun hr' j c hc' => ?_⟩
    rcases occursAt_concat.1 hc' with hc' | ⟨-, hc'⟩
    · exact hunspent hr' j c hc'
    · cases hc.symm.trans hc'

/-- A call that spends is matched with the claim its row derives from. -/
theorem Kept.of_some {claimOf : ℕ → ℕ} {op : Op} {c : Spending} (h : Kept tr s claimOf)
    (htimely : Timely tr s) (hc : spendingOf op (deployment.step s op).2 = some c) :
    ∃ i, Kept (tr ++ [entry deployment.step s op]) (deployment.step s op).1
      (Function.update claimOf tr.length i) := by
  have heffect := step_effect deployment s op
  obtain ⟨-, r, hr, hmatches, hunmarked, hmarked⟩ := heffect.spent hc
  obtain ⟨i, g, hg, hnonce, hrow, hunspent⟩ := h.backed _ r hr
  obtain ⟨-, row, hmeta, hback, -⟩ := heffect.decision (decisionOf_of_spendingOf hc)
  have hspends := spends_of_matchesClaim hmatches hnonce hrow ((htimely.grant hg hmeta).trans hback)
  refine ⟨i, h.matching.update hc hg hspends (hunspent hunmarked), fun nonce r' hr' => ?_⟩
  by_cases hsame : nonce = c.input.nonce
  · rw [hsame, hmarked] at hr'
    cases hr'
    refine ⟨i, g, occursAt_concat.2 (.inl hg), hsame.trans hnonce, ?_, fun hfalse => ?_⟩
    · rw [hrow]
    · cases hfalse
  · have hold := heffect.row_origin hr'
      (fun g' hg' => by rw [grantOf_of_spendingOf hc] at hg'; cases hg')
      (fun c' hc' => by cases hc.symm.trans hc'; exact hsame)
    obtain ⟨i', g', hg', hnonce', hrow', hunspent'⟩ := h.backed nonce r' hold
    refine ⟨i', g', occursAt_concat.2 (.inl hg'), hnonce', hrow', fun hr'' j c' hc' => ?_⟩
    rcases occursAt_concat.1 hc' with hc' | ⟨rfl, -⟩
    · rw [Function.update_of_ne (lt_of_occursAt hc').ne]
      exact hunspent' hr'' j c' hc'
    · -- The claim just spent is of another nonce.
      rw [Function.update_self]
      rintro rfl
      cases hg.symm.trans hg'
      exact hsame (hnonce'.trans hnonce.symm)

/-! ## Soundness -/

/-- The consumes of a run are of releases that are active when they are taken. -/
def SpentActive (tr : List Step) : Prop :=
  ∀ e ∈ tr, ∀ c ∈ e.spending, ∃ release ∈ e.pre.activeReleases,
    release.releaseId = c.input.releaseId ∧ Storage.isActiveAt c.nowMs release = true

/-- A permit drawn once is spent once. -/
theorem Matching.permit_once {claimOf : ℕ → ℕ} (h : Matching tr claimOf)
    (hdrawn : ∀ i i' g g', occursAt Step.grant tr i = some g → occursAt Step.grant tr i' = some g' →
      g.permit = g'.permit → i = i') {j j' : ℕ} {c c' : Spending}
    (hc : occursAt Step.spending tr j = some c) (hc' : occursAt Step.spending tr j' = some c')
    (hpermit : c.input.permit = c'.input.permit) : j = j' := by
  obtain ⟨-, g, hg, hspends⟩ := h.spends j c hc
  obtain ⟨-, g', hg', hspends'⟩ := h.spends j' c' hc'
  refine h.injective j j' c c' hc hc' (hdrawn _ _ g g' hg hg' ?_)
  rw [← hspends.permit, ← hspends'.permit, hpermit]

/-- What a run keeps, from the empty storage on. -/
theorem kept_trace (deployment : Deployment) (ops : List Op) :
    (∃ claimOf, Matching (trace deployment.step {} ops) claimOf) ∧
      SpentActive (trace deployment.step {} ops) := by
  have hrun := run_induction deployment.step (s := {})
    (P := fun tr s => Timely tr s ∧ (∃ claimOf, Kept tr s claimOf) ∧ SpentActive tr)
    ⟨fun _ he => absurd he List.not_mem_nil, ⟨id, .nil⟩, fun _ he => absurd he List.not_mem_nil⟩
    (fun tr s op h => ?_) ops
  · obtain ⟨-, ⟨claimOf, hkept⟩, hactive⟩ := hrun
    exact ⟨⟨claimOf, hkept.matching⟩, hactive⟩
  · obtain ⟨htimely, ⟨claimOf, hkept⟩, hactive⟩ := h
    refine ⟨htimely.snoc op, ?_, fun e he c hc => ?_⟩
    · cases hc : spendingOf op (deployment.step s op).2 with
      | none => exact ⟨claimOf, hkept.of_none hc⟩
      | some c =>
        obtain ⟨i, hkept'⟩ := hkept.of_some htimely hc
        exact ⟨_, hkept'⟩
    · rcases List.mem_append.1 he with he | he
      · exact hactive e he c hc
      · rw [List.mem_singleton.1 he] at hc ⊢
        exact ((step_effect deployment s op).spent hc).1

/-- **Permit soundness.** In every run the consumes are matched one to one with earlier claims of
the same release, client, binding, nonce and permit, each within its permit's lifetime; the release
is active at the consume; and where no two claims drew one permit, no permit is spent twice. -/
theorem permits_sound (deployment : Deployment) (ops : List Op) :
    (∃ claimOf, Matching (trace deployment.step {} ops) claimOf) ∧
      SpentActive (trace deployment.step {} ops) ∧
      ((∀ i i' g g', occursAt Step.grant (trace deployment.step {} ops) i = some g →
          occursAt Step.grant (trace deployment.step {} ops) i' = some g' →
          g.permit = g'.permit → i = i') →
        ∀ j j' c c', occursAt Step.spending (trace deployment.step {} ops) j = some c →
          occursAt Step.spending (trace deployment.step {} ops) j' = some c' →
          c.input.permit = c'.input.permit → j = j') := by
  obtain ⟨⟨claimOf, hmatching⟩, hactive⟩ := kept_trace deployment ops
  refine ⟨⟨claimOf, hmatching⟩, hactive, fun hdrawn j j' c c' hc hc' hpermit => ?_⟩
  exact hmatching.permit_once hdrawn hc hc' hpermit

end Limitmark.Authority
