import Mathlib.Data.List.Nodup
import Limitmark.Authority.AuthorityRun

/-!
# The release table

Only an applied command changes the release table, the receipts and their coverage
(`Effect.lifecycle`). The first leaves one open release; every rotation leaves the release it found
open, now retired, beside the next one.

Once it is initialised the table has no gap (`releases_without_gap`): at every time that the
authority has reached, by its last time seen and by its receipts, some release is active. A rotation
deletes the older of two releases only long after the other one was activated, and is applied no
later than its activation by more than five minutes, so the release it retires has started.
-/

namespace Limitmark.Authority

open Limitmark.Foundations

variable {deployment : Deployment} {s s' : Storage}

/-! ## What a call does to the lifecycle tables -/

/-- The lifecycle tables are the same, but for the last time seen, which may have moved on. -/
structure SameLifecycle (s' s : Storage) : Prop where
  releases : s'.activeReleases = s.activeReleases
  receipts : s'.lifecycleReceipts = s.lifecycleReceipts
  coverage : s'.lifecycleReceiptCoverage = s.lifecycleReceiptCoverage
  none : s.authorityMeta = none → s'.authorityMeta = none
  some : ∀ row, s.authorityMeta = some row →
    ∃ now, row.lastNowMs ≤ now ∧ s'.authorityMeta = some { row with lastNowMs := now }

theorem Storage.SameRows.sameLifecycle (h : s'.SameRows s) : SameLifecycle s' s where
  releases := h.activeReleases
  receipts := h.lifecycleReceipts
  coverage := h.lifecycleReceiptCoverage
  none hnone := h.authorityMeta.trans hnone
  some row hrow := ⟨row.lastNowMs, le_rfl, h.authorityMeta.trans hrow⟩

/-- A decision that was taken up moves the last time seen to its reading. -/
theorem Reads.sameLifecycle {options : AuthorityOptions} {releaseId : String} {reading : ℤ}
    {row : MetaRow} (h : Reads options releaseId reading s row)
    (hmeta : s'.authorityMeta = some { row with lastNowMs := reading })
    (hreleases : s'.activeReleases = s.activeReleases)
    (hreceipts : s'.lifecycleReceipts = s.lifecycleReceipts)
    (hcoverage : s'.lifecycleReceiptCoverage = s.lifecycleReceiptCoverage) :
    SameLifecycle s' s where
  releases := hreleases
  receipts := hreceipts
  coverage := hcoverage
  none hnone := by
    cases hnone.symm.trans h.authorityMeta
  some row' hrow' := by
    cases hrow'.symm.trans h.authorityMeta
    exact ⟨reading, h.notBack, hmeta⟩

namespace Storage

theorem markConsumed_lifecycleReceipts (nonce : String) :
    (s.markConsumed nonce).lifecycleReceipts = s.lifecycleReceipts := by
  unfold markConsumed
  split <;> rfl

theorem markConsumed_lifecycleReceiptCoverage (nonce : String) :
    (s.markConsumed nonce).lifecycleReceiptCoverage = s.lifecycleReceiptCoverage := by
  unfold markConsumed
  split <;> rfl

end Storage

/-- **Only an applied command changes the lifecycle tables.** -/
theorem Effect.lifecycle {op : Op} {answer : Answer} (h : Effect deployment s s' op answer) :
    SameLifecycle s' s ∨ ∃ call receipt status, op = .command call ∧ Accepted deployment call receipt ∧
      s.findReceipt receipt.digest = .ok none ∧
      answer = .lifecycle (.ok ⟨status, some (s.receiptRow receipt)⟩) ∧
      Changed receipt s.createAuthoritySchema s' call.command := by
  cases h with
  | idle undecided same => exact .inl same.sameLifecycle
  | denied request undecided reads eq =>
    rcases eq with rfl | rfl <;> exact .inl (reads.sameLifecycle rfl rfl rfl rfl)
  | claimed valid reads claimed =>
    have hmeta := claimed.authorityMeta
    obtain ⟨t, ht, rfl⟩ := claimed.effect
    rw [ht.eq] at hmeta ⊢
    exact .inl (reads.sameLifecycle hmeta rfl rfl rfl)
  | consumed valid reads consumed =>
    have hmeta := consumed.authorityMeta
    obtain ⟨t, ht, rfl⟩ := consumed.effect
    refine .inl (reads.sameLifecycle hmeta ?_ ?_ ?_)
    · rw [Storage.markConsumed_activeReleases, ht.eq]
      rfl
    · rw [Storage.markConsumed_lifecycleReceipts, ht.eq]
      rfl
    · rw [Storage.markConsumed_lifecycleReceiptCoverage, ht.eq]
      rfl
  | swept sweep undecided sweeps eq =>
    rw [eq]
    exact .inl ⟨rfl, rfl, rfl, fun hnone => hnone, fun row hrow => ⟨row.lastNowMs, le_rfl, hrow⟩⟩
  | @command call result executed =>
    obtain ⟨hsame, -⟩ | ⟨receipt, status, haccepted, hnew, rfl, hchanged⟩ := execute_cases executed
    · exact .inl hsame.sameLifecycle
    · exact .inr ⟨call, receipt, status, rfl, haccepted, hnew, rfl, hchanged⟩

/-! ## The table of an initialised authority -/

/-- A time that the authority has reached: by its last time seen, and by every receipt. -/
structure Reached (s : Storage) (t : ℤ) : Prop where
  seen : ∀ row, s.authorityMeta = some row → row.lastNowMs ≤ t
  applied : ∀ receipt ∈ s.lifecycleReceipts, receipt.appliedMs ≤ t

/-- The release a rotation retired beside the one it activated. -/
structure Overlap (old next : ReleaseRow) (retiredMs : ℤ) : Prop where
  retired : old.retiredMs = some retiredMs
  current : next.retiredMs = none
  order : old.activatedMs ≤ next.activatedMs
  overlaps : next.activatedMs < retiredMs
  brief : retiredMs - next.activatedMs ≤ 5 * 60000
  releaseId : old.releaseId ≠ next.releaseId
  keyId : old.keyId ≠ next.keyId

/-- The lifecycle tables before the first release, with it, and after a rotation. -/
inductive Releases (s : Storage) : Prop
  | blank (empty : s.authorityMeta = none) (releases : s.activeReleases = [])
      (receipts : s.lifecycleReceipts = [])
  | first (row : MetaRow) (a : ReleaseRow) (own : s.authorityMeta = some row)
      (releases : s.activeReleases = [a]) (current : a.retiredMs = none)
      (started : a.activatedMs ≤ row.lastNowMs)
  | pair (row : MetaRow) (old next : ReleaseRow) (retiredMs : ℤ) (own : s.authorityMeta = some row)
      (releases : s.activeReleases = [old, next]) (overlap : Overlap old next retiredMs)
      (started : ∀ t, Reached s t → old.activatedMs ≤ t)

theorem SameLifecycle.reached (h : SameLifecycle s' s) {t : ℤ} (ht : Reached s' t) : Reached s t where
  seen row hrow := by
    obtain ⟨now, hle, hrow'⟩ := h.some row hrow
    exact hle.trans (ht.seen _ hrow')
  applied receipt hreceipt := ht.applied receipt (h.receipts ▸ hreceipt)

theorem SameLifecycle.keeps (h : SameLifecycle s' s) (hs : Releases s) : Releases s' := by
  cases hs with
  | blank empty releases receipts =>
    exact .blank (h.none empty) (h.releases.trans releases) (h.receipts.trans receipts)
  | first row a own releases current started =>
    obtain ⟨now, hle, hrow⟩ := h.some row own
    exact .first _ a hrow (h.releases.trans releases) current (started.trans hle)
  | pair row old next retiredMs own releases overlap started =>
    obtain ⟨now, hle, hrow⟩ := h.some row own
    exact .pair _ old next retiredMs hrow (h.releases.trans releases) overlap
      fun t ht => started t (h.reached ht)

/-- What a valid rotation asks of its times. -/
theorem AuthorityReleaseRotationCommand.times {c : AuthorityReleaseRotationCommand}
    (h : c.isValid = true) : c.activatesAtMs < c.previousRetiresAtMs ∧
      c.previousRetiresAtMs - c.activatesAtMs ≤ 5 * 60000 := by
  simp only [isValid, Bool.and_eq_true, decide_eq_true_eq] at h
  exact ⟨h.1.1.2, h.1.2⟩

theorem Changed.keeps {call : SignedCall AuthorityOperatorCommand} {receipt : AppliedReceipt}
    (haccepted : Accepted deployment call receipt) (h : Changed receipt s s' call.command)
    (hs : Releases s) : Releases s' := by
  have hvalid := haccepted.valid
  have hnear := haccepted.activates
  have happlied := haccepted.applied
  generalize call.command = command at h hvalid hnear
  cases h with
  | initialization c hinit =>
    rw [hinit.effect]
    cases hs with
    | blank empty releases receipts =>
      exact .first _ ⟨c.releaseId, c.releaseKeyId, c.issuedAtMs, none⟩ rfl (by simp [releases]) rfl
        le_rfl
    | first row a own | pair row old next retiredMs own => cases hinit.empty.symm.trans own
  | rotateRelease c row current hrotated =>
    obtain ⟨hoverlaps, hbrief⟩ := AuthorityReleaseRotationCommand.times hvalid
    have happlied : c.activatesAtMs ≤ receipt.appliedMs + 5 * 60000 := by
      have hwithin : (call.observed - c.activatesAtMs).natAbs ≤ 5 * 60000 := of_decide_eq_true hnear
      omega
    -- The release a rotation retires was active before: the first one at the last time seen, a later
    -- one from long before the retention of its predecessor was over.
    have hstarted : current.activatedMs ≤ c.activatesAtMs ∧
        ∀ t, Reached s t → receipt.appliedMs ≤ t → current.activatedMs ≤ t := by
      cases hs with
      | blank empty => cases empty.symm.trans hrotated.own
      | first row' a own releases hcurrent started =>
        cases own.symm.trans hrotated.own
        have hsame : current = a := by
          have hbefore := hrotated.before
          rw [releases] at hbefore
          rcases hbefore with hbefore | ⟨hmem, -⟩
          · exact (List.cons.inj hbefore).1.symm
          · exact List.mem_singleton.1 hmem
        subst hsame
        exact ⟨started.trans hrotated.ahead, fun t ht _ => started.trans (ht.seen _ own)⟩
      | pair row' old next retiredMs own releases overlap started =>
        have hbefore := hrotated.before
        rw [releases] at hbefore
        obtain hbefore | ⟨hmem, -, other, hother, r, hr, hretention⟩ := hbefore
        · cases hbefore
        have hcurrent : current = next := by
          rcases List.mem_pair.1 hmem with rfl | rfl
          · cases overlap.retired.symm.trans hrotated.isCurrent.2
          · rfl
        have hold : r = retiredMs := by
          rcases List.mem_pair.1 hother with rfl | rfl
          · exact Option.some.inj (hr.symm.trans overlap.retired)
          · cases overlap.current.symm.trans hr
        have hoverlap := overlap.overlaps
        simp only [AUTHORITY_RELEASE_RETENTION_AFTER_RETIRE_MS] at hretention
        subst hcurrent hold
        exact ⟨by omega, fun t _ ht => by omega⟩
    rw [hrotated.effect]
    refine .pair row _ _ c.previousRetiresAtMs hrotated.own rfl
      ⟨rfl, rfl, hstarted.1, hoverlaps, hbrief, hrotated.distinct.1, hrotated.distinct.2⟩
      fun t ht => hstarted.2 t ⟨ht.seen, fun r hr => ht.applied r ?_⟩ (ht.applied (s.receiptRow receipt) ?_)
    · exact List.mem_append_left _ hr
    · exact List.mem_append_right _ (List.mem_singleton_self _)

theorem releases_exec (deployment : Deployment) (ops : List Op) :
    Releases (exec deployment.step {} ops) := by
  refine exec_invariant deployment.step (.blank rfl rfl rfl) (fun s op hs => ?_) ops
  obtain hsame | ⟨call, receipt, status, -, haccepted, -, -, hchanged⟩ :=
    (step_effect deployment s op).lifecycle
  · exact hsame.keeps hs
  · exact hchanged.keeps haccepted (s.sameRows_schema.sameLifecycle.keeps hs)

/-! ## No gap -/

/-- One or two releases, one of them open; no id or key twice; a brief overlap, and no gap at the
times the authority has reached. -/
structure Gapless (s : Storage) : Prop where
  rows : s.activeReleases.length = 1 ∨ s.activeReleases.length = 2
  current : s.activeReleases.countP (fun row => row.retiredMs = none) = 1
  releaseIds : (s.activeReleases.map ReleaseRow.releaseId).Nodup
  keyIds : (s.activeReleases.map ReleaseRow.keyId).Nodup
  overlap : ∀ old ∈ s.activeReleases, ∀ next ∈ s.activeReleases, ∀ retiredMs,
    old.retiredMs = some retiredMs → next.retiredMs = none →
      old.activatedMs ≤ next.activatedMs ∧ next.activatedMs < retiredMs ∧
        retiredMs - next.activatedMs ≤ 5 * 60000
  active : ∀ t, Reached s t → ∃ row ∈ s.activeReleases, Storage.isActiveAt t row = true

theorem Gapless.of_first {row : MetaRow} {a : ReleaseRow} (own : s.authorityMeta = some row)
    (releases : s.activeReleases = [a]) (current : a.retiredMs = none)
    (started : a.activatedMs ≤ row.lastNowMs) : Gapless s := by
  refine ⟨.inl ?_, ?_, ?_, ?_, ?_, fun t ht => ⟨a, ?_, ?_⟩⟩
  · rw [releases, List.length_singleton]
  · simp [releases, current]
  · simp [releases]
  · simp [releases]
  · simp [releases, current]
  · rw [releases]
    exact List.mem_singleton_self a
  · simpa [Storage.isActiveAt, current] using started.trans (ht.seen row own)

theorem Gapless.of_pair {old next : ReleaseRow} {retiredMs : ℤ}
    (releases : s.activeReleases = [old, next]) (overlap : Overlap old next retiredMs)
    (started : ∀ t, Reached s t → old.activatedMs ≤ t) : Gapless s := by
  refine ⟨.inr ?_, ?_, ?_, ?_, ?_, fun t ht => ?_⟩
  · rw [releases, List.length_cons, List.length_singleton]
  · simp [releases, overlap.retired, overlap.current]
  · simpa [releases] using overlap.releaseId
  · simpa [releases] using overlap.keyId
  · rw [releases]
    intro old' hold next' hnext r hr hcurrent
    rcases List.mem_pair.1 hold with rfl | rfl
    · rcases List.mem_pair.1 hnext with rfl | rfl
      · cases overlap.retired.symm.trans hcurrent
      · cases overlap.retired.symm.trans hr
        exact ⟨overlap.order, overlap.overlaps, overlap.brief⟩
    · cases overlap.current.symm.trans hr
  · have hover := overlap.overlaps
    have hstarted := started t ht
    rcases lt_or_ge t retiredMs with hbefore | hafter
    · exact ⟨old, by simp [releases], by
        simp [Storage.isActiveAt, overlap.retired, hbefore, hstarted]⟩
    · refine ⟨next, by simp [releases], ?_⟩
      simp only [Storage.isActiveAt, overlap.current, Bool.and_true, decide_eq_true_eq]
      omega

/-- **A release table without gaps.** In every run of signed commands and admission traffic the table
is empty until the first release, and from then on gapless. -/
theorem releases_without_gap (deployment : Deployment) (ops : List Op) :
    let s := exec deployment.step {} ops
    s.authorityMeta = none ∧ s.lifecycleReceipts = [] ∧ s.activeReleases = [] ∨ Gapless s := by
  cases releases_exec deployment ops with
  | blank empty releases receipts => exact .inl ⟨empty, receipts, releases⟩
  | first row a own releases current started => exact .inr (.of_first own releases current started)
  | pair row old next retiredMs own releases overlap started =>
    exact .inr (.of_pair releases overlap started)

/-- The table of an authority that no command has reached has no row. -/
theorem not_gapless_empty : ¬ Gapless (exec sampleDeployment.step {} []) := by
  intro h
  rcases h.rows with hrows | hrows <;> cases hrows

end Limitmark.Authority
