import Limitmark.Authority.ReleaseTable

/-!
# Commands are applied once and in order

The receipts are the history of the authority: the digests of the commands that changed the release
table, in the order in which they did, each with the sequence number of its place. A command whose
digest is in the history is answered with its receipt and changes nothing.
-/

namespace Limitmark.Authority

open Limitmark.Foundations

variable {deployment : Deployment} {tr : List Step} {s s' : Storage}

/-- The digest of the command of a step that changed the release table. -/
def Step.applied (deployment : Deployment) (e : Step) : Option String :=
  match e.input with
  | .command call =>
    if e.post.activeReleases = e.pre.activeReleases then none
    else some (deployment.digest call.command)
  | _ => none

/-- The step of a call that left a receipt: on its own final reading of the clock it was within five
minutes of its issue and of its activation. -/
structure AppliedBy (deployment : Deployment) (e : Step) (r : LifecycleReceipt)
    (call : SignedCall AuthorityOperatorCommand) : Prop where
  input : e.input = .command call
  receipts : e.post.lifecycleReceipts = e.pre.lifecycleReceipts ++ [r]
  digest : r.digest = deployment.digest call.command
  applied : r.appliedMs = call.observed
  issued : (call.observed - call.command.issuedAtMs).natAbs ≤ 5 * 60000
  activates : (call.observed - call.command.activatesAtMs).natAbs ≤ 5 * 60000

/-- What a step does to the history: a command that is answered is answered with the receipt of its
digest, one whose digest has a receipt changes nothing, nor does one that is refused or fails, and a
change of the release table is that of a fresh command. -/
structure Step.Sound (deployment : Deployment) (e : Step) : Prop where
  answered : ∀ call outcome, e.input = .command call → e.out = .lifecycle (.ok outcome) →
    ∃ r ∈ e.post.lifecycleReceipts, r.digest = deployment.digest call.command ∧
      outcome.receipt = some r
  replayed : ∀ call, e.input = .command call →
    deployment.digest call.command ∈ e.pre.lifecycleReceipts.map (·.digest) → e.post.SameRows e.pre
  refused : ∀ call failure, e.input = .command call → e.out = .lifecycle (.error failure) →
    e.post.SameRows e.pre
  fresh : e.post.activeReleases ≠ e.pre.activeReleases → ∃ r call, AppliedBy deployment e r call

/-- The commands of a run were applied once and in order. -/
structure AppliedOnce (deployment : Deployment) (tr : List Step) (s : Storage) : Prop where
  history : s.lifecycleReceipts.map (·.digest) = tr.filterMap (Step.applied deployment)
  once : (tr.filterMap (Step.applied deployment)).Nodup
  sequences : s.lifecycleReceipts.map (·.sequence) = List.range' 1 s.lifecycleReceipts.length
  capacity : s.lifecycleReceipts.length ≤ LIFECYCLE_RECEIPT_CAPACITY
  kept : ∀ e ∈ tr, e.post.lifecycleReceipts <+: s.lifecycleReceipts
  steps : ∀ e ∈ tr, e.Sound deployment

/-! ## One command -/

theorem Accepted.digest {call : SignedCall AuthorityOperatorCommand} {receipt : AppliedReceipt}
    (h : Accepted deployment call receipt) : receipt.digest = deployment.digest call.command := by
  have hderived := h.derived
  simp only [expectedCommandReceipt, commandDigest, canonicalOperatorCommandBytes, h.valid, if_true,
    bind_eq_ok] at hderived
  obtain ⟨digest, hdigest, key, -, hreceipt⟩ := hderived
  obtain ⟨message, hmessage, hpure⟩ := hdigest
  cases hmessage
  cases hpure
  rw [← Except.ok.inj hreceipt]
  split <;> rfl

/-- An applied command changes the release table and adds its receipt. -/
theorem Changed.history {receipt : AppliedReceipt} {command : AuthorityOperatorCommand}
    (h : Changed receipt s s' command) : s'.activeReleases ≠ s.activeReleases ∧
      ReceiptFree receipt s ∧ s'.lifecycleReceipts = s.lifecycleReceipts ++ [s.receiptRow receipt] := by
  cases h with
  | initialization c hinit =>
    refine ⟨?_, hinit.receiptFree, by rw [hinit.effect]⟩
    rw [hinit.effect]
    exact fun hsame => absurd (congrArg List.length hsame) (by simp)
  | rotateRelease c row current hrotated =>
    refine ⟨fun hsame => ?_, hrotated.receiptFree, by rw [hrotated.effect]⟩
    have hmem : current ∈ s.activeReleases := by
      rcases hrotated.before with hbefore | hbefore
      · rw [hbefore]
        exact List.mem_singleton_self current
      · exact hbefore.1
    rw [← hsame, hrotated.effect] at hmem
    rcases List.mem_pair.1 hmem with heq | heq
    · have hopen := hrotated.isCurrent.2
      rw [heq] at hopen
      cases hopen
    · exact hrotated.distinct.1 (congrArg ReleaseRow.releaseId heq)

theorem nextSequence_of_sequences
    (h : s.lifecycleReceipts.map (·.sequence) = List.range' 1 s.lifecycleReceipts.length) :
    s.nextSequence = s.lifecycleReceipts.length + 1 := by
  have hmax (start n : ℕ) :
      (List.range' (start + 1) n).foldr max 0 = if n = 0 then 0 else start + n := by
    induction n generalizing start with
    | zero => rfl
    | succ n ih =>
      rw [List.range'_succ, List.foldr_cons, ih]
      split <;> split <;> omega
  rw [Storage.nextSequence, h, hmax 0]
  split <;> omega

/-- A digest that has a receipt is not new. -/
theorem findReceipt_ne_none {digest : String} (hdigests : (s.lifecycleReceipts.map (·.digest)).Nodup)
    (hmem : digest ∈ s.lifecycleReceipts.map (·.digest)) : s.findReceipt digest ≠ .ok none := by
  intro hnone
  have hfound := Storage.findReceipt_eq_ok hnone
  have hone : (s.lifecycleReceipts.filter fun row => row.digest = digest).length = 1 := by
    rw [← List.countP_eq_length_filter, ← List.count_eq_one_of_mem hdigests hmem, List.count,
      List.countP_map]
    rfl
  obtain ⟨r, hr⟩ := List.length_eq_one_iff.1 hone
  rw [hr] at hfound
  cases hfound

/-- What one call does to the history. -/
theorem Effect.history {op : Op} {answer : Answer} (h : Effect deployment s s' op answer) :
    (s'.activeReleases = s.activeReleases ∧ s'.lifecycleReceipts = s.lifecycleReceipts) ∨
      ∃ receipt call, AppliedBy deployment ⟨s, op, answer, s'⟩ (s.receiptRow receipt) call ∧
        s.findReceipt receipt.digest = .ok none ∧ ReceiptFree receipt s ∧
        s'.activeReleases ≠ s.activeReleases ∧
        ∃ status, answer = .lifecycle (.ok ⟨status, some (s.receiptRow receipt)⟩) := by
  obtain hsame | ⟨call, receipt, status, rfl, haccepted, hnew, rfl, hchanged⟩ := h.lifecycle
  · exact .inl ⟨hsame.releases, hsame.receipts⟩
  · obtain ⟨hreleases, hfree, hreceipts⟩ := hchanged.history
    refine .inr ⟨receipt, call, ?_, hnew, ⟨hfree.room, hfree.digest, hfree.sequence, hfree.version⟩,
      hreleases, status, rfl⟩
    exact
      { input := rfl
        receipts := hreceipts
        digest := haccepted.digest
        applied := haccepted.applied
        issued := of_decide_eq_true haccepted.issued
        activates := of_decide_eq_true haccepted.activates }

theorem mem_of_findReceipt {digest : String} {r : LifecycleReceipt}
    (h : s.findReceipt digest = .ok (some r)) : r ∈ s.lifecycleReceipts ∧ r.digest = digest := by
  have hfound := exactlyOne_eq_some.1 (Storage.findReceipt_eq_ok h).symm
  have hmem : r ∈ s.lifecycleReceipts.filter fun row => row.digest = digest := by
    rw [hfound]
    exact List.mem_singleton_self r
  simpa using hmem

/-- What a command that was not applied answers and leaves. -/
theorem command_cases (deployment : Deployment) (s : Storage)
    (call : SignedCall AuthorityOperatorCommand) :
    ((deployment.step s (.command call)).1.SameRows s ∧ ∀ outcome,
        (deployment.step s (.command call)).2 = .lifecycle (.ok outcome) →
          ∃ r ∈ s.lifecycleReceipts, r.digest = deployment.digest call.command ∧
            outcome.receipt = some r) ∨
      ∃ receipt status, receipt.digest = deployment.digest call.command ∧
        s.findReceipt receipt.digest = .ok none ∧
        (deployment.step s (.command call)).1.lifecycleReceipts =
          s.lifecycleReceipts ++ [s.receiptRow receipt] ∧
        (deployment.step s (.command call)).2 =
          .lifecycle (.ok ⟨status, some (s.receiptRow receipt)⟩) := by
  simp only [Deployment.step]
  rcases hcall : deployment.execute call s with ⟨result, s'⟩
  obtain ⟨hrows, hreplayed⟩ | ⟨receipt, status, haccepted, hnew, rfl, hchanged⟩ := execute_cases hcall
  · refine .inl ⟨hrows, fun outcome houtcome => ?_⟩
    cases houtcome
    obtain ⟨receipt, r, haccepted, hfound, hreceipt⟩ := hreplayed outcome rfl
    obtain ⟨hmem, hdigest⟩ := mem_of_findReceipt hfound
    exact ⟨r, hmem, hdigest.trans haccepted.digest, hreceipt⟩
  · exact .inr ⟨receipt, status, haccepted.digest, hnew, hchanged.history.2.2, rfl⟩

/-- Every step is sound where no digest has two receipts. -/
theorem sound_entry (hdigests : (s.lifecycleReceipts.map (·.digest)).Nodup) (op : Op) :
    Step.Sound deployment (entry deployment.step s op) where
  answered call outcome hop hanswer := by
    obtain rfl : op = .command call := hop
    obtain ⟨hrows, hreplayed⟩ | ⟨receipt, status, hdigest, -, hreceipts, hout⟩ :=
      command_cases deployment s call
    · obtain ⟨r, hr, hrest⟩ := hreplayed outcome hanswer
      exact ⟨r, hrows.lifecycleReceipts ▸ hr, hrest⟩
    · cases hout.symm.trans hanswer
      refine ⟨s.receiptRow receipt, ?_, hdigest, rfl⟩
      rw [entry_post, hreceipts]
      exact List.mem_append_right _ (List.mem_singleton_self _)
  replayed call hop hmem := by
    obtain rfl : op = .command call := hop
    obtain ⟨hrows, -⟩ | ⟨receipt, status, hdigest, hnew, -, -⟩ :=
      command_cases deployment s call
    · exact hrows
    · exact absurd hnew (findReceipt_ne_none hdigests (hdigest ▸ hmem))
  refused call failure hop hanswer := by
    obtain rfl : op = .command call := hop
    obtain ⟨hrows, -⟩ | ⟨receipt, status, -, -, -, hout⟩ :=
      command_cases deployment s call
    · exact hrows
    · cases hout.symm.trans hanswer
  fresh hchanged := by
    obtain ⟨hsame, -⟩ | ⟨receipt, call, happlied, -⟩ := (step_effect deployment s op).history
    · exact absurd hsame hchanged
    · exact ⟨_, call, happlied⟩

/-! ## The history of a run -/

theorem Step.applied_of_same {e : Step} (h : e.post.activeReleases = e.pre.activeReleases) :
    e.applied deployment = none := by
  unfold Step.applied
  split
  · exact if_pos h
  · rfl

theorem Step.applied_of_ne {e : Step} {call : SignedCall AuthorityOperatorCommand}
    (hinput : e.input = .command call) (h : e.post.activeReleases ≠ e.pre.activeReleases) :
    e.applied deployment = some (deployment.digest call.command) := by
  unfold Step.applied
  rw [hinput]
  exact if_neg h

theorem AppliedOnce.nil : AppliedOnce deployment [] {} where
  history := rfl
  once := List.nodup_nil
  sequences := rfl
  capacity := Nat.zero_le _
  kept _ he := absurd he List.not_mem_nil
  steps _ he := absurd he List.not_mem_nil

theorem AppliedOnce.snoc (h : AppliedOnce deployment tr s) (op : Op) :
    AppliedOnce deployment (tr ++ [entry deployment.step s op]) (deployment.step s op).1 := by
  have hdigests : (s.lifecycleReceipts.map (·.digest)).Nodup := h.history ▸ h.once
  have hsteps : ∀ e ∈ tr ++ [entry deployment.step s op], e.Sound deployment := fun e he => by
    rcases List.mem_append.1 he with he | he
    · exact h.steps e he
    · rw [List.mem_singleton.1 he]
      exact sound_entry hdigests op
  have hkept : s.lifecycleReceipts <+: (deployment.step s op).1.lifecycleReceipts →
      ∀ e ∈ tr ++ [entry deployment.step s op],
        e.post.lifecycleReceipts <+: (deployment.step s op).1.lifecycleReceipts := fun hprefix e he => by
    rcases List.mem_append.1 he with he | he
    · exact (h.kept e he).trans hprefix
    · rw [List.mem_singleton.1 he]
      exact List.prefix_rfl
  obtain ⟨hreleases, hreceipts⟩ | ⟨receipt, call, happlied, hnew, hfree, hreleases, -⟩ :=
    (step_effect deployment s op).history
  · have hnone : (tr ++ [entry deployment.step s op]).filterMap (Step.applied deployment) =
        tr.filterMap (Step.applied deployment) := by
      rw [List.filterMap_append, List.filterMap_cons_none (Step.applied_of_same hreleases),
        List.filterMap_nil, List.append_nil]
    exact
      { history := by rw [hreceipts, hnone, h.history]
        once := by rw [hnone]; exact h.once
        sequences := by rw [hreceipts]; exact h.sequences
        capacity := by rw [hreceipts]; exact h.capacity
        kept := hkept (hreceipts ▸ List.prefix_rfl)
        steps := hsteps }
  · -- The digest is new and the receipt takes the next number.
    have hreceipts : (deployment.step s op).1.lifecycleReceipts =
        s.lifecycleReceipts ++ [s.receiptRow receipt] := happlied.receipts
    have happend : Step.applied deployment (entry deployment.step s op) = some receipt.digest :=
      (Step.applied_of_ne happlied.input hreleases).trans (congrArg some happlied.digest.symm)
    have hsome : (tr ++ [entry deployment.step s op]).filterMap (Step.applied deployment) =
        tr.filterMap (Step.applied deployment) ++ [receipt.digest] := by
      rw [List.filterMap_append, List.filterMap_cons_some happend, List.filterMap_nil]
    have hdigest : receipt.digest ∉ s.lifecycleReceipts.map (·.digest) := fun hmem => by
      obtain ⟨r, hr, hsame⟩ := List.mem_map.1 hmem
      exact hfree.digest r hr hsame
    exact
      { history := by
          rw [hreceipts, hsome, List.map_append, h.history]
          rfl
        once := by
          rw [hsome, ← h.history, ← List.concat_eq_append]
          exact hdigests.concat hdigest
        sequences := by
          rw [hreceipts, List.map_append, h.sequences, List.length_append, List.length_singleton,
            List.range'_1_concat, Nat.add_comm 1, ← nextSequence_of_sequences h.sequences]
          rfl
        capacity := by
          rw [hreceipts, List.length_append, List.length_singleton]
          exact hfree.room
        kept := hkept (hreceipts ▸ List.prefix_append _ _)
        steps := hsteps }

theorem appliedOnce_exec (deployment : Deployment) (ops : List Op) :
    AppliedOnce deployment (trace deployment.step {} ops) (exec deployment.step {} ops) :=
  run_induction deployment.step .nil (fun _ _ op h => h.snoc op) ops

/-- **Commands are applied once and in order**, in every run: the receipts are those of the commands
that changed the release table, no digest twice, numbered from 1 without a gap; they are kept, and a
command that comes again is answered with its own. -/
theorem commands_applied_once (deployment : Deployment) (ops : List Op) :
    AppliedOnce deployment (trace deployment.step {} ops) (exec deployment.step {} ops) :=
  appliedOnce_exec deployment ops

end Limitmark.Authority
