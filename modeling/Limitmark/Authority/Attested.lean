import Limitmark.Authority.Attestation
import Limitmark.Authority.Receipts

/-!
# Which states can be attested

The statement validator repeats what the commands ask of the releases they write, with one check that
the commands do not make: that the time of application is not negative. Every state that is reached
without a command applied before time zero can be attested (`attestable_iff`), and no other.
-/

namespace Limitmark.Authority

open Limitmark.Defense Limitmark.Foundations Limitmark.Ingress

variable {deployment : Deployment} {tr : List Step} {s s' : Storage}

/-! ## Receipts of commands -/

theorem isLowerHexChar_hexDigit (n : ℕ) : isLowerHexChar (hexDigit n) = true := by
  have hdigits : ∀ i : Fin 16,
      isLowerHexChar ("0123456789abcdef".toList.getD i.val '0') = true := by decide
  exact hdigits ⟨n % 16, Nat.mod_lt _ (by omega)⟩

theorem isLowerHex_sha256Hex (subtle : Subtle) (bytes : List UInt8) :
    isLowerHex 64 (subtle.sha256Hex bytes) = true := by
  have hlength (l : List UInt8) :
      (l.flatMap fun b => [hexDigit (b.toNat / 16), hexDigit b.toNat]).length = 2 * l.length := by
    induction l with
    | nil => rfl
    | cons b l ih =>
      rw [List.flatMap_cons, List.length_append, ih]
      simp only [List.length_cons, List.length_nil]
      omega
  rw [isLowerHex, Subtle.sha256Hex, hexBytes, Bool.and_eq_true]
  refine ⟨?_, ?_⟩
  · simp [hlength]
  · rw [String.toList_ofList, List.all_eq_true]
    intro c hc
    obtain ⟨b, -, hc⟩ := List.mem_flatMap.1 hc
    rcases List.mem_pair.1 hc with rfl | rfl <;> exact isLowerHexChar_hexDigit _

/-- What every receipt of an accepted command passes. -/
structure Valid (deployment : Deployment) (r : CommandDerivedReceipt) : Prop where
  digest : isLowerHex 64 r.digest = true
  version : r.version = 1
  environment : r.environment = deployment.environment
  authorityId : r.authorityId = r.environment.authorityId
  policyEpoch : r.policyEpoch = ADMISSION_POLICY_EPOCH
  keyFingerprint : isLowerHex 64 r.keyFingerprint = true
  current : validRelease r.currentReleaseId = true
  next : validRelease r.nextReleaseId = true
  key : validKeyId r.nextKeyId = true
  activates : isSafeTime r.activatesMs = true

/-- The operation's own fields of a receipt. -/
inductive Operated (r : CommandDerivedReceipt) : Prop
  | initialization (operation : r.operation = .initialization)
      (same : r.currentReleaseId = r.nextReleaseId) (open_ : r.retiresMs = none)
  | rotateRelease (operation : r.operation = .rotateRelease) (production : r.environment = .production)
      (distinct : r.currentReleaseId ≠ r.nextReleaseId) (retiresMs : ℤ)
      (retires : r.retiresMs = some retiresMs) (safe : isSafeTime retiresMs = true)
      (overlaps : r.activatesMs < retiresMs) (brief : retiresMs - r.activatesMs ≤ 5 * 60000)

/-- The receipt of a command, by its digest and the fingerprint of the operator's key. -/
def commandReceipt (digest keyFingerprint : String) :
    AuthorityOperatorCommand → CommandDerivedReceipt
  | .initialization c =>
    { digest, operation := .initialization, environment := c.environment,
      authorityId := c.authorityId, policyEpoch := c.policyEpoch, keyFingerprint,
      currentReleaseId := c.releaseId,
      nextReleaseId := c.releaseId, nextKeyId := c.releaseKeyId, activatesMs := c.issuedAtMs,
      retiresMs := none }
  | .rotateRelease c =>
    { digest, operation := .rotateRelease, environment := c.environment,
      authorityId := c.authorityId, policyEpoch := c.policyEpoch, keyFingerprint,
      currentReleaseId := c.currentReleaseId,
      nextReleaseId := c.nextReleaseId, nextKeyId := c.nextReleaseKeyId,
      activatesMs := c.activatesAtMs, retiresMs := some c.previousRetiresAtMs }

theorem Accepted.receipt_eq {call : SignedCall AuthorityOperatorCommand} {receipt : AppliedReceipt}
    (h : Accepted deployment call receipt) : ∃ key, receipt.toCommandDerivedReceipt =
      commandReceipt (deployment.digest call.command) (deployment.subtle.sha256Hex key)
        call.command := by
  have hderived := h.derived
  simp only [expectedCommandReceipt, commandDigest, canonicalOperatorCommandBytes, h.valid, if_true,
    bind_eq_ok] at hderived
  obtain ⟨digest, ⟨message, hmessage, hdigest⟩, key, -, hreceipt⟩ := hderived
  cases hmessage
  cases hdigest
  refine ⟨key, (Except.ok.inj hreceipt).symm.trans ?_⟩
  split
  · next c hcommand => rw [hcommand]; rfl
  · next c hcommand => rw [hcommand]; rfl

/-- The receipt of an accepted command is valid and is that of its operation. -/
theorem Accepted.valid_operated {call : SignedCall AuthorityOperatorCommand} {receipt : AppliedReceipt}
    (h : Accepted deployment call receipt) :
    Valid deployment receipt.toCommandDerivedReceipt ∧
      Operated receipt.toCommandDerivedReceipt ∧
      receipt.activatesMs = call.command.activatesAtMs := by
  have hvalid := h.valid
  have henvironment := h.environment
  obtain ⟨key, hreceipt⟩ := h.receipt_eq
  rw [hreceipt]
  generalize call.command = command at hvalid henvironment ⊢
  cases command with
  | initialization c =>
    simp only [AuthorityOperatorCommand.isValid, AuthorityInitializationCommand.isValid,
      Bool.and_eq_true, decide_eq_true_eq] at hvalid
    obtain ⟨⟨⟨⟨⟨⟨-, hpolicy⟩, hauthority⟩, hrelease⟩, hkey⟩, hissued⟩, -⟩ := hvalid
    exact ⟨⟨isLowerHex_sha256Hex _ _, rfl, henvironment, hauthority, hpolicy,
      isLowerHex_sha256Hex _ _, hrelease, hrelease, hkey, hissued⟩, .initialization rfl rfl rfl, rfl⟩
  | rotateRelease c =>
    simp only [AuthorityOperatorCommand.isValid, AuthorityReleaseRotationCommand.isValid,
      Bool.and_eq_true, decide_eq_true_eq] at hvalid
    obtain ⟨⟨⟨⟨⟨⟨⟨⟨⟨⟨⟨⟨⟨-, hpolicy⟩, hproduction⟩, hauthority⟩, hcurrent⟩, hnext⟩, hdistinct⟩, hkey⟩,
      hactivates⟩, hretires⟩, -⟩, hoverlaps⟩, hbrief⟩, -⟩ := hvalid
    refine ⟨⟨isLowerHex_sha256Hex _ _, rfl, henvironment, ?_, hpolicy, isLowerHex_sha256Hex _ _,
      hcurrent, hnext, hkey, hactivates⟩, .rotateRelease rfl hproduction hdistinct _ rfl hretires
        hoverlaps hbrief, rfl⟩
    simp only [commandReceipt, hproduction, hauthority]
    rfl

/-- A receipt as it is stored: that of an accepted command, numbered as its operation has it. -/
structure Genuine (deployment : Deployment) (r : LifecycleReceipt) : Prop where
  accepted : ∃ call, Accepted deployment call r.toAppliedReceipt
  positive : 1 ≤ r.sequence
  bounded : r.sequence ≤ LIFECYCLE_RECEIPT_CAPACITY
  first : r.operation = .initialization → r.sequence = 1
  later : r.operation = .rotateRelease → 2 ≤ r.sequence

theorem authorityId_eq (environment : Environment) :
    environment.authorityId = ATTESTATION_AUTHORITY_IDS environment := by
  cases environment <;> rfl

/-- **The validator accepts a receipt** that was applied at a time that is not negative. -/
theorem Genuine.validates {r : LifecycleReceipt} (h : Genuine deployment r) (hnonneg : 0 ≤ r.appliedMs)
    {outer : StatementBase} (hdigest : outer.digest = r.digest)
    (henvironment : outer.environment = deployment.environment)
    (hauthority : outer.authorityId = deployment.environment.authorityId) :
    validateReceipt outer (attestationReceiptFromLifecycleReceipt r) = .ok () := by
  obtain ⟨call, haccepted⟩ := h.accepted
  obtain ⟨hvalid, hoperated, hactivates⟩ := haccepted.valid_operated
  have hsequence : isSafeTime r.sequence = true := by
    have hle := h.bounded
    simp only [LIFECYCLE_RECEIPT_CAPACITY] at hle
    simp only [isSafeTime, isSafeInteger, Bool.and_eq_true, decide_eq_true_eq]
    omega
  have happlied : isSafeTime r.appliedMs = true := by
    rw [isSafeTime, Bool.and_eq_true, haccepted.applied]
    exact ⟨haccepted.safe, by simpa [← haccepted.applied] using hnonneg⟩
  have hnear : (r.appliedMs - r.activatesMs).natAbs ≤ ATTESTATION_MAX_APPLIED_ACTIVATION_SKEW_MS := by
    rw [hactivates, haccepted.applied]
    exact of_decide_eq_true haccepted.activates
  have hretires : r.retiresMs.all isSafeTime = true := by
    cases hoperated with
    | initialization operation same open_ => rw [open_]; rfl
    | rotateRelease operation production distinct retiresMs retires safe => rw [retires]; exact safe
  simp only [validateReceipt, bind_eq_ok, ensure_eq_ok, exists_const]
  refine ⟨⟨hvalid.digest, hdigest.symm, hvalid.version, hvalid.environment.trans henvironment.symm, ?_,
    hvalid.policyEpoch, hvalid.keyFingerprint, hsequence, h.positive, h.bounded, happlied,
    hvalid.activates, hretires, hvalid.current, hvalid.next, hvalid.key⟩, hnear, ?_⟩
  · rw [hauthority, ← hvalid.environment]
    exact hvalid.authorityId
  · cases hoperated with
    | initialization operation same open_ =>
      simp only [attestationReceiptFromLifecycleReceipt, operation, ensure_eq_ok]
      exact ⟨same, open_, h.first operation⟩
    | rotateRelease operation production distinct retiresMs retires safe overlaps brief =>
      simp only [attestationReceiptFromLifecycleReceipt, operation, retires, bind_eq_ok, ensure_eq_ok,
        exists_const]
      exact ⟨⟨production, h.later operation, distinct⟩, overlaps, brief⟩

/-! ## What a run keeps -/

/-- A release row that was written by a valid command. -/
structure WrittenRow (row : ReleaseRow) : Prop where
  releaseId : validRelease row.releaseId = true
  keyId : validKeyId row.keyId = true
  activated : isSafeTime row.activatedMs = true
  retired : row.retiredMs.all isSafeTime = true

/-- The receipts and the rows are those of accepted commands; one row alone is that of the only
receipt; a staging authority has no second row. -/
structure Witnessed (deployment : Deployment) (s : Storage) : Prop where
  own : ∀ row, s.authorityMeta = some row → row.authorityId = deployment.environment.authorityId ∧
    row.policyEpoch = ADMISSION_POLICY_EPOCH ∧ s.lifecycleReceiptCoverage = true ∧
    s.lifecycleReceipts ≠ []
  receipts : ∀ r ∈ s.lifecycleReceipts, (∃ call, Accepted deployment call r.toAppliedReceipt) ∧
    1 ≤ r.sequence ∧ (r.operation = .initialization → r.sequence = 1) ∧
    (r.operation = .rotateRelease → 2 ≤ r.sequence)
  rows : ∀ row ∈ s.activeReleases, WrittenRow row
  alone : ∀ a, s.activeReleases = [a] → ∃ r, s.lifecycleReceipts = [r] ∧
    r.operation = .initialization ∧ a = ⟨r.nextReleaseId, r.nextKeyId, r.activatesMs, none⟩
  staging : deployment.environment = .staging → s.activeReleases.length ≤ 1

theorem SameLifecycle.witnessed (h : SameLifecycle s' s) (hs : Witnessed deployment s) :
    Witnessed deployment s' where
  own row' hrow' := by
    cases hrow : s.authorityMeta with
    | none => cases (h.none hrow).symm.trans hrow'
    | some row =>
      obtain ⟨now, -, hnow⟩ := h.some row hrow
      cases hnow.symm.trans hrow'
      rw [h.coverage, h.receipts]
      exact hs.own row hrow
  receipts := by rw [h.receipts]; exact hs.receipts
  rows := by rw [h.releases]; exact hs.rows
  alone := by rw [h.releases, h.receipts]; exact hs.alone
  staging := by rw [h.releases]; exact hs.staging

theorem two_le_nextSequence (hs : Witnessed deployment s) (hne : s.lifecycleReceipts ≠ []) :
    2 ≤ s.nextSequence := by
  cases hreceipts : s.lifecycleReceipts with
  | nil => exact absurd hreceipts hne
  | cons r rest =>
    have hpositive := (hs.receipts r (by rw [hreceipts]; exact List.mem_cons_self)).2.1
    rw [Storage.nextSequence, hreceipts, List.map_cons, List.foldr_cons]
    omega

/-- The first release of an authority, with its receipt. -/
theorem Initialized.witnessed {c : AuthorityInitializationCommand} {receipt : AppliedReceipt}
    (h : Initialized ⟨c.environment, c.authorityId, c.policyEpoch, c.releaseId, c.releaseKeyId,
      c.issuedAtMs, c.confirmProduction⟩ receipt s s') (hvalid : c.isValid = true)
    (henvironment : c.environment = deployment.environment)
    (haccepted : ∃ call, Accepted deployment call receipt) {digest fingerprint : String}
    (hreceipt : receipt.toCommandDerivedReceipt =
      commandReceipt digest fingerprint (.initialization c))
    (hreleases : Releases s) : Witnessed deployment s' := by
  obtain ⟨hrows, hnone⟩ : s.activeReleases = [] ∧ s.lifecycleReceipts = [] := by
    cases hreleases with
    | blank empty releases receipts => exact ⟨releases, receipts⟩
    | first row a own | pair row old next retiredMs own => cases h.empty.symm.trans own
  have hnumber : s.nextSequence = 1 := by rw [Storage.nextSequence, hnone]; rfl
  simp only [AuthorityInitializationCommand.isValid, Bool.and_eq_true, decide_eq_true_eq] at hvalid
  obtain ⟨⟨⟨⟨⟨⟨-, hpolicy⟩, hauthority⟩, hrelease⟩, hkey⟩, hissued⟩, -⟩ := hvalid
  have hoperation : receipt.operation = .initialization :=
    congrArg CommandDerivedReceipt.operation hreceipt
  rw [h.effect, hrows, hnone]
  refine ⟨fun row hrow => ?_, fun r hr => ?_, fun row hrow => ?_, fun a ha => ?_, fun _ => le_rfl⟩
  · cases hrow
    rw [hauthority, henvironment]
    exact ⟨rfl, hpolicy, rfl, List.cons_ne_nil _ _⟩
  · rw [List.mem_singleton.1 hr]
    refine ⟨haccepted, hnumber.ge, fun _ => hnumber, fun hrotation => ?_⟩
    cases hoperation.symm.trans hrotation
  · rw [List.mem_singleton.1 hrow]
    exact ⟨hrelease, hkey, hissued, rfl⟩
  · obtain rfl := (List.cons.inj ha).1
    refine ⟨_, rfl, hoperation, ?_⟩
    change _ = ReleaseRow.mk receipt.nextReleaseId receipt.nextKeyId receipt.activatesMs none
    rw [hreceipt]
    rfl

/-- A rotation's two releases, with its receipt. -/
theorem Rotated.witnessed {c : AuthorityReleaseRotationCommand} {receipt : AppliedReceipt}
    {row : MetaRow} {current : ReleaseRow}
    (h : Rotated ⟨c.authorityId, c.policyEpoch, c.currentReleaseId, c.nextReleaseId,
      c.nextReleaseKeyId, c.activatesAtMs, c.previousRetiresAtMs⟩ receipt s s' row current)
    (hvalid : c.isValid = true) (henvironment : c.environment = deployment.environment)
    (haccepted : ∃ call, Accepted deployment call receipt) {digest fingerprint : String}
    (hreceipt : receipt.toCommandDerivedReceipt =
      commandReceipt digest fingerprint (.rotateRelease c))
    (hs : Witnessed deployment s) : Witnessed deployment s' := by
  obtain ⟨hid, hepoch, hcoverage, hne⟩ := hs.own row h.own
  simp only [AuthorityReleaseRotationCommand.isValid, Bool.and_eq_true, decide_eq_true_eq] at hvalid
  obtain ⟨⟨⟨⟨⟨⟨⟨⟨⟨⟨⟨⟨⟨-, -⟩, hproduction⟩, -⟩, -⟩, hnext⟩, -⟩, hkey⟩, hactivates⟩, hretires⟩, -⟩,
    -⟩, -⟩, -⟩ := hvalid
  have hoperation : receipt.operation = .rotateRelease :=
    congrArg CommandDerivedReceipt.operation hreceipt
  have hwritten : WrittenRow current := by
    refine hs.rows current ?_
    rcases h.before with hbefore | hbefore
    · rw [hbefore]
      exact List.mem_singleton_self current
    · exact hbefore.1
  rw [h.effect]
  refine ⟨fun row' hrow' => ?_, fun r hr => ?_, fun row' hrow' => ?_, fun a ha => ?_,
    fun hstaging => ?_⟩
  · cases h.own.symm.trans hrow'
    exact ⟨hid, hepoch, hcoverage, List.append_ne_nil_of_right_ne_nil _ (List.cons_ne_nil _ _)⟩
  · rcases List.mem_append.1 hr with hr | hr
    · exact hs.receipts r hr
    · rw [List.mem_singleton.1 hr]
      have hnumber := two_le_nextSequence hs hne
      refine ⟨haccepted, ?_, fun hinit => ?_, fun _ => hnumber⟩
      · exact le_trans (by omega) hnumber
      · cases hoperation.symm.trans hinit
  · rcases List.mem_pair.1 hrow' with rfl | rfl
    · exact ⟨hwritten.releaseId, hwritten.keyId, hwritten.activated, hretires⟩
    · exact ⟨hnext, hkey, hactivates, rfl⟩
  · cases ha
  · cases hproduction.symm.trans (henvironment.trans hstaging)

theorem Changed.witnessed {call : SignedCall AuthorityOperatorCommand} {receipt : AppliedReceipt}
    (haccepted : Accepted deployment call receipt) (h : Changed receipt s s' call.command)
    (hreleases : Releases s) (hs : Witnessed deployment s) : Witnessed deployment s' := by
  have hvalid := haccepted.valid
  have henvironment := haccepted.environment
  obtain ⟨key, hreceipt⟩ := haccepted.receipt_eq
  have hcall : ∃ call, Accepted deployment call receipt := ⟨call, haccepted⟩
  generalize call.command = command at h hvalid henvironment hreceipt
  cases h with
  | initialization c hinit => exact hinit.witnessed hvalid henvironment hcall hreceipt hreleases
  | rotateRelease c row current hrotated =>
    exact hrotated.witnessed hvalid henvironment hcall hreceipt hs

theorem witnessed_exec (deployment : Deployment) (ops : List Op) :
    Releases (exec deployment.step {} ops) ∧ Witnessed deployment (exec deployment.step {} ops) := by
  refine exec_invariant deployment.step (I := fun s => Releases s ∧ Witnessed deployment s) ?_
    (fun s op hs => ?_) ops
  · refine ⟨.blank rfl rfl rfl, ⟨?_, ?_, ?_, ?_, fun _ => Nat.zero_le _⟩⟩
    · intro row hrow
      cases hrow
    · exact fun r hr => absurd hr List.not_mem_nil
    · exact fun row hrow => absurd hrow List.not_mem_nil
    · intro a ha
      cases ha
  · obtain ⟨hreleases, hwitnessed⟩ := hs
    obtain hsame | ⟨call, receipt, status, -, haccepted, -, -, hchanged⟩ :=
      (step_effect deployment s op).lifecycle
    · exact ⟨hsame.keeps hreleases, hsame.witnessed hwitnessed⟩
    · have hschema := s.sameRows_schema.sameLifecycle
      exact ⟨hchanged.keeps haccepted (hschema.keeps hreleases),
        hchanged.witnessed haccepted (hschema.keeps hreleases) (hschema.witnessed hwitnessed)⟩

/-! ## The rows of a statement -/

theorem compareReleaseRows_swap (a b : ReleaseRow) :
    (compareReleaseRows a b).swap = compareReleaseRows b a := by
  simp only [compareReleaseRows, Ordering.swap_then, ← Std.OrientedOrd.eq_swap]

theorem releaseId_of_compareReleaseRows_eq {a b : ReleaseRow} (h : compareReleaseRows a b = .eq) :
    a.releaseId = b.releaseId := by
  simp only [compareReleaseRows, Ordering.then_eq_eq] at h
  exact Std.LawfulEqCmp.compare_eq_iff_eq.1 h.2.1

theorem validateReleaseRow_eq_ok {row : ReleaseRow} (h : WrittenRow row) :
    validateReleaseRow row = .ok () :=
  (ensure_eq_ok _ _ _).2 ⟨h.releaseId, h.keyId, h.activated, h.retired⟩

theorem validateReleaseRows_none (environment : Environment) :
    validateReleaseRows false environment [] = .ok () := by
  cases environment <;> decide

theorem validateReleaseRows_first (environment : Environment) {a : ReleaseRow} (ha : WrittenRow a)
    (hopen : a.retiredMs = none) : validateReleaseRows true environment [a] = .ok () := by
  have hunretired : [a].filter (fun row => row.retiredMs = none) = [a] := by simp [hopen]
  have hretired : [a].filter (fun row => row.retiredMs ≠ none) = [] := by simp [hopen]
  simp only [validateReleaseRows, bind_eq_ok, ensure_eq_ok, exists_const, forM_eq_ok, hunretired,
    hretired]
  refine ⟨?_, ?_, ?_, ⟨List.nodup_singleton _, List.nodup_singleton _⟩, ?_⟩
  · cases environment <;> simp
  · simpa using validateReleaseRow_eq_ok ha
  · exact List.IsChain.singleton a
  · simp [bind_eq_ok]

/-- The two rows of a rotation, in the order of the statement. -/
theorem validateReleaseRows_pair {old next a b : ReleaseRow} {retiredMs : ℤ}
    (overlap : Overlap old next retiredMs) (hold : WrittenRow old) (hnext : WrittenRow next)
    (hrows : a = old ∧ b = next ∨ a = next ∧ b = old) (hlt : compareReleaseRows a b = .lt) :
    validateReleaseRows true .production [a, b] = .ok () := by
  have hover := overlap.overlaps
  have horder := overlap.order
  have hunretired : [a, b].filter (fun row => row.retiredMs = none) = [next] := by
    rcases hrows with ⟨rfl, rfl⟩ | ⟨rfl, rfl⟩ <;> simp [overlap.retired, overlap.current]
  have hretired : [a, b].filter (fun row => row.retiredMs ≠ none) = [old] := by
    rcases hrows with ⟨rfl, rfl⟩ | ⟨rfl, rfl⟩ <;> simp [overlap.retired, overlap.current]
  simp only [validateReleaseRows, bind_eq_ok, ensure_eq_ok, exists_const, forM_eq_ok, hunretired,
    hretired, overlap.retired]
  refine ⟨?_, ?_, ?_, ⟨?_, ?_⟩, ?_⟩
  · simp
  · rcases hrows with ⟨rfl, rfl⟩ | ⟨rfl, rfl⟩ <;>
      simp [validateReleaseRow_eq_ok hold, validateReleaseRow_eq_ok hnext]
  · simpa using hlt
  · rcases hrows with ⟨rfl, rfl⟩ | ⟨rfl, rfl⟩
    · simpa using overlap.releaseId
    · simpa using overlap.releaseId.symm
  · rcases hrows with ⟨rfl, rfl⟩ | ⟨rfl, rfl⟩
    · simpa using overlap.keyId
    · simpa using overlap.keyId.symm
  · have hbrief := overlap.brief
    simp [bind_eq_ok, overlap.retired, ATTESTATION_MAX_ROTATION_OVERLAP_MS]
    omega

/-! ## Statements of a state -/

theorem findReceipt_of_witnessed (hs : Witnessed deployment s) (digest : String) :
    ∃ found, s.findReceipt digest = .ok found ∧
      ∀ r, found = some r → r ∈ s.lifecycleReceipts ∧ r.digest = digest := by
  unfold Storage.findReceipt
  split
  · exact ⟨none, rfl, fun r hr => by cases hr⟩
  · next r hr =>
    have hmem : r ∈ s.lifecycleReceipts.filter fun row => row.digest = digest := by
      rw [exactlyOne_eq_some.1 hr]
      exact List.mem_singleton_self r
    simp only [List.mem_filter, decide_eq_true_eq] at hmem
    obtain ⟨call, haccepted⟩ := (hs.receipts r hmem.1).1
    have hversion : r.version = 1 := haccepted.valid_operated.1.version
    rw [if_neg (not_not.2 hversion)]
    refine ⟨some r, rfl, fun r' hr' => ?_⟩
    cases hr'
    exact hmem

/-- What an inspection reports of an authority. -/
inductive Observes (deployment : Deployment) (s : Storage) (digest : String) (observedAtMs : ℤ) :
    AuthorityObservation → Prop
  | absent : Observes deployment s digest observedAtMs
      { environment := deployment.environment, authorityId := deployment.environment.authorityId,
        policyEpoch := ADMISSION_POLICY_EPOCH, observedAtMs, initialized := false,
        coverage := .complete, status := .notFound }
  | present {row receipt} (own : s.authorityMeta = some row)
      (found : ∀ r, receipt = some r → r ∈ s.lifecycleReceipts ∧ r.digest = digest) :
      Observes deployment s digest observedAtMs
        { environment := deployment.environment, authorityId := deployment.environment.authorityId,
          policyEpoch := ADMISSION_POLICY_EPOCH, observedAtMs, initialized := true,
          coverage := .complete, status := if receipt.isSome then .exactReceipt else .notFound,
          receipt, releases := s.releasesInOrder.take 3 }

theorem inspectLifecycleAuthority_eq_ok (hreleases : Releases s) (hs : Witnessed deployment s)
    {digest : String} {observedAtMs : ℤ} (hdigest : isLowerHex 64 digest = true)
    (hsafe : isSafeTime observedAtMs = true) :
    ∃ observation, s.inspectLifecycleAuthority digest observedAtMs
        deployment.environment.authorityId ADMISSION_POLICY_EPOCH = .ok (.observed observation) ∧
      Observes deployment s digest observedAtMs observation := by
  have henvironment : (if deployment.environment.authorityId = STAGING_ADMISSION_AUTHORITY_ID then
      Environment.staging else .production) = deployment.environment := by
    cases deployment.environment <;> rfl
  simp only [Storage.inspectLifecycleAuthority, henvironment, bind_eq_ok, ensure_eq_ok, exists_const]
  by_cases hschema : s.schema = true
  · cases hmeta : s.authorityMeta with
    | none =>
      have hempty : s.activeReleases = [] := by
        cases hreleases with
        | blank empty releases receipts => exact releases
        | first row a own | pair row old next retiredMs own => cases hmeta.symm.trans own
      exact ⟨_, ⟨⟨hdigest, hsafe⟩, by simp [hschema, hempty, pure, Except.pure]⟩, .absent⟩
    | some row =>
      obtain ⟨hid, hepoch, hcoverage, -⟩ := hs.own row hmeta
      obtain ⟨found, hfound, hmem⟩ := findReceipt_of_witnessed hs digest
      refine ⟨_, ⟨⟨hdigest, hsafe⟩, ?_⟩, .present hmeta hmem⟩
      simp [hschema, hid, hepoch, hcoverage, hfound, pure, Except.pure, bind, Except.bind]
  · exact ⟨_, ⟨⟨hdigest, hsafe⟩, by simp [hschema, pure, Except.pure]⟩, .absent⟩

/-- The rows of a statement of an initialised authority. -/
theorem validateReleaseRows_of_witnessed (hreleases : Releases s) (hs : Witnessed deployment s)
    {row : MetaRow} (hmeta : s.authorityMeta = some row) :
    validateReleaseRows true deployment.environment
      ((s.releasesInOrder.take 3).insertionSort fun a b => compareReleaseRows a b ≠ .gt) =
        .ok () := by
  have hrows := hs.rows
  have hstaging := hs.staging
  cases hreleases with
  | blank empty releases receipts => cases empty.symm.trans hmeta
  | first row' a own releases current started =>
    rw [releases] at hrows
    simp only [Storage.releasesInOrder, releases]
    exact validateReleaseRows_first _ (hrows a (List.mem_singleton_self a)) current
  | pair row' old next retiredMs own releases overlap started =>
    rw [releases] at hrows hstaging
    have hproduction : deployment.environment = .production := by
      cases henvironment : deployment.environment with
      | production => rfl
      | staging => exact absurd (hstaging henvironment) (by simp)
    have hold := hrows old (by simp)
    have hnext := hrows next (by simp)
    have hinorder : s.releasesInOrder.take 3 = [old, next] := by
      simp [Storage.releasesInOrder, releases, List.insertionSort, overlap.order]
    rw [hproduction, hinorder]
    cases hcompare : compareReleaseRows old next with
    | lt =>
      have hsorted : [old, next].insertionSort (fun a b => compareReleaseRows a b ≠ .gt) =
          [old, next] := by
        simp [List.insertionSort, hcompare]
      rw [hsorted]
      exact validateReleaseRows_pair overlap hold hnext (.inl ⟨rfl, rfl⟩) hcompare
    | eq => exact absurd (releaseId_of_compareReleaseRows_eq hcompare) overlap.releaseId
    | gt =>
      have hsorted : [old, next].insertionSort (fun a b => compareReleaseRows a b ≠ .gt) =
          [next, old] := by
        simp [List.insertionSort, List.orderedInsert, hcompare]
      rw [hsorted]
      refine validateReleaseRows_pair overlap hold hnext (.inr ⟨rfl, rfl⟩) ?_
      rw [← compareReleaseRows_swap, hcompare]
      rfl

/-- A receipt of the history belongs to the one row, if there is only one. -/
theorem assertOneRowReceiptCoherence_of_witnessed (hs : Witnessed deployment s) {r : LifecycleReceipt}
    (hr : r ∈ s.lifecycleReceipts) {rows : List ReleaseRow}
    (hrows : rows.length = s.activeReleases.length)
    (hmem : ∀ row ∈ rows, row ∈ s.activeReleases) :
    assertOneRowReceiptCoherence (attestationReceiptFromLifecycleReceipt r) rows = .ok () := by
  unfold assertOneRowReceiptCoherence
  split
  · next row =>
    obtain ⟨a, ha⟩ := List.length_eq_one_iff.1 hrows.symm
    obtain ⟨r', hreceipts, hoperation, heq⟩ := hs.alone a ha
    rw [hreceipts] at hr
    obtain rfl := List.mem_singleton.1 hr
    have hrow := hmem row (List.mem_singleton_self row)
    rw [ha, List.mem_singleton] at hrow
    rw [ensure_eq_ok, hrow]
    exact ⟨hoperation, (hs.receipts r (hreceipts ▸ hr)).2.2.1 hoperation, heq⟩
  · rfl

theorem length_activeReleases_le (hreleases : Releases s) : s.activeReleases.length ≤ 2 := by
  cases hreleases with
  | blank empty releases | first row a own releases | pair row old next retiredMs own releases =>
    simp [releases]

/-- The rows of an inspection are those of the table. -/
theorem perm_statementRows (hreleases : Releases s) :
    ((s.releasesInOrder.take 3).insertionSort fun a b => compareReleaseRows a b ≠ .gt).Perm
      s.activeReleases := by
  have hsorted : s.releasesInOrder.Perm s.activeReleases := List.perm_insertionSort _ _
  have hlength : s.releasesInOrder.length ≤ 3 := by
    have hle := length_activeReleases_le hreleases
    rw [hsorted.length_eq]
    omega
  rw [List.take_of_length_le hlength]
  exact (List.perm_insertionSort _ _).trans hsorted

/-- A statement of an authority, as both kinds begin. -/
theorem validateCommon_eq_ok {base : StatementBase} (hversion : base.version = ATTESTATION_VERSION)
    (htrust : base.trustEpoch = ATTESTATION_TRUST_EPOCH)
    (hauthority : base.authorityId = base.environment.authorityId)
    (hepoch : base.policyEpoch = ATTESTATION_POLICY_EPOCH) (hdigest : isLowerHex 64 base.digest = true)
    (hsafe : isSafeTime base.observedAtMs = true)
    (hwriter : isLowerHex 64 base.writerKeyFingerprint = true) : validateCommon base = .ok () := by
  rw [validateCommon, ensure_eq_ok]
  exact ⟨hversion, htrust, hauthority.trans (authorityId_eq _), hepoch, hdigest, hsafe, hwriter⟩

/-- **A lifecycle statement is valid at the safe times**, and at no other. -/
theorem lifecycleStatement_eq_ok_iff {r : LifecycleReceipt} (hr : Genuine deployment r)
    (hnonneg : 0 ≤ r.appliedMs) (signer : AuthorityAttestationSigner) (observedAtMs : ℤ) :
    (∃ statement, lifecycleStatement signer r observedAtMs = .ok statement) ↔
      isSafeTime observedAtMs = true := by
  obtain ⟨call, haccepted⟩ := hr.accepted
  have hvalid := haccepted.valid_operated.1
  simp only [lifecycleStatement, makeLifecycleStatement, validateResultStatement, check_bind_eq_ok]
  constructor
  · rintro ⟨statement, ⟨hcommon, -⟩, -⟩
    exact ((ensure_eq_ok _ _ _).1 hcommon).2.2.2.2.2.1
  · intro hsafe
    refine ⟨_, ⟨validateCommon_eq_ok rfl rfl hvalid.authorityId rfl hvalid.digest hsafe
      signer.pinned, hr.validates hnonneg rfl hvalid.environment ?_⟩, rfl⟩
    rw [← hvalid.environment]
    exact hvalid.authorityId

/-- A receipt of the history was applied at a time that is not negative, if it can be attested. -/
theorem nonneg_of_lifecycleStatement {r : LifecycleReceipt} {signer : AuthorityAttestationSigner}
    {observedAtMs : ℤ} {statement : LifecycleStatement}
    (h : lifecycleStatement signer r observedAtMs = .ok statement) : 0 ≤ r.appliedMs := by
  simp only [lifecycleStatement, makeLifecycleStatement, validateResultStatement, validateReceipt,
    check_bind_eq_ok] at h
  obtain ⟨⟨-, hfields, -⟩, -⟩ := h
  have happlied := ((ensure_eq_ok _ _ _).1 hfields).2.2.2.2.2.2.2.2.2.2.1
  simp only [isSafeTime, Bool.and_eq_true, decide_eq_true_eq] at happlied
  exact happlied.2

/-- **The reconciliation statement of a state is valid.** -/
theorem reconciliationStatement_eq_ok (hreleases : Releases s) (hs : Witnessed deployment s)
    (hgenuine : ∀ r ∈ s.lifecycleReceipts, Genuine deployment r)
    (hnonneg : ∀ r ∈ s.lifecycleReceipts, 0 ≤ r.appliedMs) (signer : AuthorityAttestationSigner)
    {digest nonce : String} {observedAtMs : ℤ} (hdigest : isLowerHex 64 digest = true)
    (hnonce : isLowerHex 32 nonce = true) (hsafe : isSafeTime observedAtMs = true)
    {observation : AuthorityObservation} (h : Observes deployment s digest observedAtMs observation) :
    ∃ statement, reconciliationStatement signer digest nonce observation = .ok statement := by
  simp only [reconciliationStatement, makeReconciliationStatement, check_bind_eq_ok]
  refine ⟨_, ?_, rfl⟩
  cases h with
  | absent =>
    simp only [validateResultStatement, check_bind_eq_ok, ensure_eq_ok]
    exact ⟨validateCommon_eq_ok rfl rfl rfl rfl hdigest hsafe signer.pinned, hnonce, rfl,
      validateReleaseRows_none _⟩
  | @present row receipt own found =>
    have hrows := validateReleaseRows_of_witnessed hreleases hs own
    cases receipt with
    | none =>
      simp only [validateResultStatement, check_bind_eq_ok, ensure_eq_ok]
      exact ⟨validateCommon_eq_ok rfl rfl rfl rfl hdigest hsafe signer.pinned, hnonce, rfl, hrows⟩
    | some r =>
      obtain ⟨hmem, hsame⟩ := found r rfl
      have hperm := perm_statementRows hreleases
      simp only [validateResultStatement, check_bind_eq_ok, ensure_eq_ok]
      refine ⟨validateCommon_eq_ok rfl rfl rfl rfl hdigest hsafe signer.pinned, hnonce, rfl, ?_⟩
      simp only [Option.isSome_some, if_true, Option.map_some, check_bind_eq_ok]
      exact ⟨(hgenuine r hmem).validates (hnonneg r hmem) hsame.symm rfl rfl, hrows,
        assertOneRowReceiptCoherence_of_witnessed hs hmem hperm.length_eq
          fun row hrow => hperm.mem_iff.1 hrow⟩

/-! ## The states of a run -/

theorem genuine_exec (deployment : Deployment) (ops : List Op) :
    ∀ r ∈ (exec deployment.step {} ops).lifecycleReceipts, Genuine deployment r := by
  intro r hr
  obtain ⟨haccepted, hpositive, hfirst, hlater⟩ := (witnessed_exec deployment ops).2.receipts r hr
  refine ⟨haccepted, hpositive, ?_, hfirst, hlater⟩
  have honce := appliedOnce_exec deployment ops
  have hmem := List.mem_map_of_mem (f := LifecycleReceipt.sequence) hr
  have hcapacity := honce.capacity
  rw [honce.sequences, List.mem_range'_1] at hmem
  omega

/-- The reading at which the command of a step was applied, if it changed the release table. -/
def Step.appliedAt (e : Step) : Option ℤ :=
  match e.input with
  | .command call =>
    if e.post.activeReleases = e.pre.activeReleases then none else some call.observed
  | _ => none

/-- The times of application in the receipts are those readings. -/
theorem appliedMs_exec (deployment : Deployment) (ops : List Op) :
    (exec deployment.step {} ops).lifecycleReceipts.map (·.appliedMs) =
      (trace deployment.step {} ops).filterMap Step.appliedAt := by
  refine run_induction deployment.step
    (P := fun tr s => s.lifecycleReceipts.map (·.appliedMs) = tr.filterMap Step.appliedAt) rfl
    (fun tr s op h => ?_) ops
  rw [List.filterMap_append, ← h]
  obtain ⟨hreleases, hreceipts⟩ | ⟨receipt, call, happlied, -, -, hreleases, -⟩ :=
    (step_effect deployment s op).history
  · have hnone : Step.appliedAt (entry deployment.step s op) = none := by
      unfold Step.appliedAt
      split
      · exact if_pos hreleases
      · rfl
    rw [hreceipts, List.filterMap_cons_none hnone, List.filterMap_nil, List.append_nil]
  · have hreceipts : (deployment.step s op).1.lifecycleReceipts =
        s.lifecycleReceipts ++ [s.receiptRow receipt] := happlied.receipts
    have hsome : Step.appliedAt (entry deployment.step s op) = some (s.receiptRow receipt).appliedMs := by
      obtain rfl : op = .command call := happlied.input
      exact (if_neg hreleases).trans (congrArg some happlied.applied.symm)
    rw [hreceipts, List.filterMap_cons_some hsome, List.filterMap_nil, List.map_append]
    rfl

/-- An authority in a state can be attested: its inspection gives a reconciliation statement that is
valid, no attestation of it fails for its statement, and every receipt gives a lifecycle statement
that is valid at the safe times. -/
structure Attestable (deployment : Deployment) (s : Storage) : Prop where
  reconciliation : ∀ (signer : AuthorityAttestationSigner) (digest nonce : String) (observedAtMs : ℤ),
    isLowerHex 64 digest = true → isLowerHex 32 nonce = true → isSafeTime observedAtMs = true →
      ∃ observation statement, s.inspectLifecycleAuthority digest observedAtMs
          deployment.environment.authorityId ADMISSION_POLICY_EPOCH = .ok (.observed observation) ∧
        reconciliationStatement signer digest nonce observation = .ok statement ∧
        validateResultStatement (.reconciliation statement) = .ok ()
  lifecycle : ∀ r ∈ s.lifecycleReceipts, ∀ (signer : AuthorityAttestationSigner) (observedAtMs : ℤ),
    (∃ statement, lifecycleStatement signer r observedAtMs = .ok statement ∧
      validateResultStatement (.lifecycle statement) = .ok ()) ↔ isSafeTime observedAtMs = true
  neverInvalid : ∀ (signer : Option AuthorityAttestationSigner) (preliminary observedAtMs : ℤ)
    (digest nonce : String), deployment.attestReconciliation signer preliminary observedAtMs digest
      nonce s ≠ .unavailable .statementInvalid

theorem validate_of_makeReconciliationStatement {input statement : ReconciliationStatement}
    (h : makeReconciliationStatement input = .ok statement) :
    validateResultStatement (.reconciliation statement) = .ok () := by
  rw [makeReconciliationStatement, check_bind_eq_ok] at h
  obtain ⟨hvalid, hstatement⟩ := h
  cases hstatement
  exact hvalid

theorem validate_of_makeLifecycleStatement {input statement : LifecycleStatement}
    (h : makeLifecycleStatement input = .ok statement) :
    validateResultStatement (.lifecycle statement) = .ok () := by
  rw [makeLifecycleStatement, check_bind_eq_ok] at h
  obtain ⟨hvalid, hstatement⟩ := h
  cases hstatement
  exact hvalid

def sampleSigner : AuthorityAttestationSigner where
  environment := .production
  writerKeyFingerprint := String.ofList (List.replicate 64 '0')
  pinned := by decide
  envelope := fun _ => some []

/-- The receipts of an authority that can be attested were applied at times that are not negative. -/
theorem Attestable.nonneg (h : Attestable deployment s) :
    ∀ r ∈ s.lifecycleReceipts, 0 ≤ r.appliedMs := by
  intro r hr
  obtain ⟨statement, hmake, -⟩ := (h.lifecycle r hr sampleSigner 0).2 (by decide)
  exact nonneg_of_lifecycleStatement hmake

theorem prepareReading_ne_statementInvalid {signer : Option AuthorityAttestationSigner}
    {preliminary observedAtMs : ℤ} :
    deployment.prepareReading signer preliminary observedAtMs ≠ .error .statementInvalid := by
  cases signer with
  | none =>
    intro h
    cases h
  | some signer =>
    simp only [Deployment.prepareReading, Deployment.prepareSigner, ensure]
    split_ifs <;> intro h <;> cases h

theorem isSafeTime_of_prepareReading {signer : Option AuthorityAttestationSigner}
    {preliminary observedAtMs : ℤ} {prepared : AuthorityAttestationSigner}
    (h : deployment.prepareReading signer preliminary observedAtMs = .ok prepared) :
    isSafeTime observedAtMs = true := by
  simp only [Deployment.prepareReading, bind_eq_ok, ensure_eq_ok, exists_const] at h
  obtain ⟨-, -, hsafe, -⟩ := h
  exact hsafe

theorem attestable_of_nonneg {ops : List Op} (hnonneg : ∀ r ∈
    (exec deployment.step {} ops).lifecycleReceipts, 0 ≤ r.appliedMs) :
    Attestable deployment (exec deployment.step {} ops) := by
  obtain ⟨hreleases, hwitnessed⟩ := witnessed_exec deployment ops
  have hgenuine := genuine_exec deployment ops
  have hstatement (signer : AuthorityAttestationSigner) {digest nonce : String} {observedAtMs : ℤ}
      (hdigest : isLowerHex 64 digest = true) (hnonce : isLowerHex 32 nonce = true)
      (hsafe : isSafeTime observedAtMs = true) :
      ∃ observation statement, (exec deployment.step {} ops).inspectLifecycleAuthority digest
          observedAtMs deployment.environment.authorityId ADMISSION_POLICY_EPOCH =
            .ok (.observed observation) ∧
        reconciliationStatement signer digest nonce observation = .ok statement := by
    obtain ⟨observation, hinspect, hobserves⟩ :=
      inspectLifecycleAuthority_eq_ok hreleases hwitnessed hdigest hsafe
    obtain ⟨statement, hmake⟩ := reconciliationStatement_eq_ok hreleases hwitnessed hgenuine hnonneg
      signer hdigest hnonce hsafe hobserves
    exact ⟨observation, statement, hinspect, hmake⟩
  refine ⟨fun signer digest nonce observedAtMs hdigest hnonce hsafe => ?_,
    fun r hr signer observedAtMs => ?_, fun signer preliminary observedAtMs digest nonce => ?_⟩
  · obtain ⟨observation, statement, hinspect, hmake⟩ := hstatement signer hdigest hnonce hsafe
    exact ⟨observation, statement, hinspect, hmake, validate_of_makeReconciliationStatement hmake⟩
  · rw [← lifecycleStatement_eq_ok_iff (hgenuine r hr) (hnonneg r hr) signer observedAtMs]
    refine exists_congr fun statement => ⟨And.left, fun hmake => ⟨hmake, ?_⟩⟩
    exact validate_of_makeLifecycleStatement hmake
  · unfold Deployment.attestReconciliation
    split
    · intro hrefused
      cases hrefused
    · next hinputs =>
      simp only [not_or, not_not] at hinputs
      split
      · next reason hreason =>
        intro hunavailable
        cases hunavailable
        exact prepareReading_ne_statementInvalid hreason
      · next signer hprepared =>
        obtain ⟨observation, statement, hinspect, hmake⟩ :=
          hstatement signer hinputs.1 hinputs.2 (isSafeTime_of_prepareReading hprepared)
        rw [hinspect]
        simp only [hmake]
        split <;> intro hsigned <;> cases hsigned

/-- **An authority can be attested** in exactly those states of its runs that no command applied at a
negative reading has led to. -/
theorem attestable_iff (deployment : Deployment) (ops : List Op) :
    Attestable deployment (exec deployment.step {} ops) ↔
      ∀ e ∈ trace deployment.step {} ops, ∀ t ∈ Step.appliedAt e, 0 ≤ t := by
  have happlied := appliedMs_exec deployment ops
  constructor
  · intro h e he t ht
    have hmem : t ∈ (exec deployment.step {} ops).lifecycleReceipts.map (·.appliedMs) := by
      rw [happlied]
      exact List.mem_filterMap.2 ⟨e, he, ht⟩
    obtain ⟨r, hr, rfl⟩ := List.mem_map.1 hmem
    exact h.nonneg r hr
  · intro h
    refine attestable_of_nonneg fun r hr => ?_
    have hmem := List.mem_map_of_mem (f := (·.appliedMs)) hr
    rw [happlied] at hmem
    obtain ⟨e, he, ht⟩ := List.mem_filterMap.1 hmem
    exact h e he _ ht

/-- The sample initialisation through the coordinator: its preflight reads the clock at 0, and its
final reading is a millisecond earlier. -/
def sampleEarly : SignedCall AuthorityOperatorCommand :=
  sampleDeployment.signedCall (some sampleSigner)
    { command := sampleInitialization.command, signature := sampleInitialization.signature
      preliminary := 0, final := -1 }

/-- It is applied, and what it leaves cannot be attested. -/
theorem not_attestable_sampleEarly :
    ¬ Attestable sampleDeployment (exec sampleDeployment.step {} [.command sampleEarly]) := by
  intro h
  have happlied : ¬ ∀ r ∈ (exec sampleDeployment.step {} [.command sampleEarly]).lifecycleReceipts,
      0 ≤ r.appliedMs := by
    decide +kernel
  exact happlied h.nonneg

end Limitmark.Authority
