import Mathlib.Data.List.Sort
import Limitmark.Authority.Storage

/-!
# Releases and receipts

The lifecycle half of `workers/admission-service/authority.ts`: an authority is initialised with its
first release, and a rotation retires the current release and activates the next. A command leaves a
receipt under its digest; a command whose digest has one is answered with it and does nothing.

`initialized_cases` and `rotated_cases` say what a command does to the tables.
-/

namespace Limitmark.Authority

open Limitmark.Defense Limitmark.Foundations Limitmark.Ingress

structure AuthorityInitialization where
  environment : Environment
  authorityId : String
  policyEpoch : String
  releaseId : String
  releaseKeyId : String
  nowMs : ℤ
  confirmProduction : Bool
  deriving DecidableEq, Repr

structure ReleaseRotation where
  authorityId : String
  policyEpoch : String
  currentReleaseId : String
  nextReleaseId : String
  nextKeyId : String
  activatesAtMs : ℤ
  previousRetiresAtMs : ℤ
  deriving DecidableEq, Repr

inductive LifecycleStatus
  | initialized
  | alreadyInitialized
  | rotated
  | alreadyRotated
  deriving DecidableEq, Repr

structure LifecycleOutcome where
  status : LifecycleStatus
  receipt : Option LifecycleReceipt
  deriving DecidableEq, Repr

namespace Storage

/-! ## Receipts -/

def findReceipt (digest : String) (s : Storage) : Except Failure (Option LifecycleReceipt) :=
  match exactlyOne (s.lifecycleReceipts.filter fun row => row.digest = digest) with
  | none => .ok none
  | some row => if row.version ≠ 1 then .error (.refusal .receiptHistory) else .ok (some row)

/-- The receipt a command left before. -/
def priorReceipt (fault : Option Statement) (commandReceipt : Option AppliedReceipt)
    (s : Storage) : Except Failure (Option LifecycleReceipt) :=
  match commandReceipt with
  | none => .ok none
  | some receipt => do
    executes fault .selectReceipt
    s.findReceipt receipt.digest

def ensureNewReceiptCapacity (fault : Option Statement) (s : Storage) : Except Failure Unit := do
  executes fault .countReceipts
  ensure (s.lifecycleReceipts.length < LIFECYCLE_RECEIPT_CAPACITY) (.refusal .receiptCapacity)

/-- `COALESCE(MAX(sequence),0) + 1`. -/
def nextSequence (s : Storage) : ℕ :=
  (s.lifecycleReceipts.map LifecycleReceipt.sequence).foldr max 0 + 1

def insertReceipt (fault : Option Statement) (receipt : AppliedReceipt) (s : Storage) :
    Except Failure (LifecycleReceipt × Storage) := do
  executes fault .selectSequence
  let row : LifecycleReceipt := { receipt with sequence := s.nextSequence }
  ensure (isSafeInteger row.sequence) (.refusal .receiptHistory)
  executes fault .insertReceipt
  ensure (row.version = 1 ∧
    ¬ s.lifecycleReceipts.any fun other =>
      other.digest = row.digest || other.sequence = row.sequence) .thrown
  return (row, { s with lifecycleReceipts := s.lifecycleReceipts ++ [row] })

def insertCoverage (s : Storage) : Except Failure Storage :=
  if s.lifecycleReceiptCoverage then .error .thrown
  else .ok { s with lifecycleReceiptCoverage := true }

/-! ## Initialisation -/

def initializeBody (specification : AuthorityInitialization)
    (commandReceipt : Option AppliedReceipt) (fault : Option Statement) (s : Storage) :
    Except Failure (LifecycleOutcome × Storage) := do
  match ← s.priorReceipt fault commandReceipt with
  | some prior => return (⟨.alreadyInitialized, some prior⟩, s)
  | none =>
    executes fault .selectMeta
    match s.authorityMeta with
    | some row =>
      ensure commandReceipt.isNone (.refusal .authorityAlreadyInitialized)
      executes fault .selectReleases
      ensure (row.authorityId = specification.authorityId ∧
        row.policyEpoch = specification.policyEpoch ∧
        s.activeReleases =
          [⟨specification.releaseId, specification.releaseKeyId, specification.nowMs, none⟩])
        (.refusal .authorityAlreadyInitialized)
      return (⟨.alreadyInitialized, none⟩, s)
    | none =>
      if commandReceipt.isSome then s.ensureNewReceiptCapacity fault
      executes fault .insertMeta
      executes fault .insertRelease
      let s ← { s with
        authorityMeta := some
          ⟨specification.authorityId, specification.policyEpoch, specification.nowMs⟩ }.insertRelease
            ⟨specification.releaseId, specification.releaseKeyId, specification.nowMs, none⟩
      match commandReceipt with
      | none => return (⟨.initialized, none⟩, s)
      | some receipt =>
        executes fault .insertCoverage
        let s ← s.insertCoverage
        let (row, s) ← s.insertReceipt fault receipt
        return (⟨.initialized, some row⟩, s)

def initializationAllowed (specification : AuthorityInitialization) (expectedAuthorityId : String)
    (expectedPolicyEpoch : String) : Bool :=
  specification.authorityId = expectedAuthorityId &&
    specification.policyEpoch = expectedPolicyEpoch &&
    validRelease specification.releaseId && validKeyId specification.releaseKeyId &&
    isSafeInteger specification.nowMs && 0 ≤ specification.nowMs &&
    (specification.environment ≠ .production || specification.confirmProduction)

def initializeAuthority (specification : AuthorityInitialization)
    (commandReceipt : Option AppliedReceipt) (fault : Option Statement)
    (expectedAuthorityId : String) (expectedPolicyEpoch : String) (s : Storage) :
    Except Failure LifecycleOutcome × Storage :=
  if ¬ initializationAllowed specification expectedAuthorityId expectedPolicyEpoch then
    (.error (.refusal .initializationPolicy), s.createAuthoritySchema)
  else transaction s.createAuthoritySchema (initializeBody specification commandReceipt fault)

/-! ## Rotation -/

def rotationAllowed (input : ReleaseRotation) : Bool :=
  input.authorityId = ADMISSION_AUTHORITY_ID && input.policyEpoch = ADMISSION_POLICY_EPOCH &&
    validRelease input.currentReleaseId && validRelease input.nextReleaseId &&
    input.currentReleaseId ≠ input.nextReleaseId && validKeyId input.nextKeyId &&
    isSafeInteger input.activatesAtMs && isSafeInteger input.previousRetiresAtMs &&
    0 ≤ input.activatesAtMs && input.activatesAtMs < input.previousRetiresAtMs &&
    input.previousRetiresAtMs - input.activatesAtMs ≤ 5 * 60000

/-- A command needs the history of receipts to be complete, and room in it. -/
def receiptRoom (fault : Option Statement) (commandReceipt : Option AppliedReceipt) (s : Storage) :
    Except Failure Unit :=
  if commandReceipt.isNone then .ok ()
  else do
    executes fault .selectCoverage
    ensure s.lifecycleReceiptCoverage (.refusal .receiptHistory)
    s.ensureNewReceiptCapacity fault

def releaseOf (releaseId : String) (s : Storage) : Option ReleaseRow :=
  exactlyOne (s.activeReleases.filter fun row => row.releaseId = releaseId)

/-- Of two releases the retired one is deleted, if its retention is over. -/
def dropRetired (fault : Option Statement) (activatesAtMs : ℤ) (s : Storage) :
    Except Failure Storage :=
  if s.activeReleases.length ≠ 2 then .ok s
  else
    match s.activeReleases.find? fun row => row.retiredMs.isSome with
    | none => .error (.refusal .releaseRetention)
    | some retired => do
      ensure (retired.retiredMs.getD 0 + AUTHORITY_RELEASE_RETENTION_AFTER_RETIRE_MS ≤ activatesAtMs)
        (.refusal .releaseRetention)
      executes fault .deleteRelease
      executes fault .selectRemaining
      return { s with
        activeReleases := s.activeReleases.filter fun row =>
          ¬ (row.releaseId = retired.releaseId ∧ row.retiredMs = retired.retiredMs) }

def retire (releaseId : String) (retiredMs : ℤ) (s : Storage) : Storage :=
  { s with
    activeReleases := s.activeReleases.map fun row =>
      if row.releaseId = releaseId then { row with retiredMs := some retiredMs } else row }

def rotateBody (input : ReleaseRotation) (commandReceipt : Option AppliedReceipt)
    (fault : Option Statement) (s : Storage) : Except Failure (LifecycleOutcome × Storage) := do
  match ← s.priorReceipt fault commandReceipt with
  | some prior => return (⟨.alreadyRotated, some prior⟩, s)
  | none =>
    executes fault .selectMeta
    match s.authorityMeta.filter fun row =>
      row.authorityId = input.authorityId && row.policyEpoch = input.policyEpoch with
    | none => .error (.refusal .authorityMismatch)
    | some row =>
      s.receiptRoom fault commandReceipt
      executes fault .selectNext
      match s.releaseOf input.nextReleaseId with
      | some existing =>
        executes fault .selectCurrent
        ensure (commandReceipt.isNone ∧
          existing = ⟨input.nextReleaseId, input.nextKeyId, input.activatesAtMs, none⟩ ∧
          (s.releaseOf input.currentReleaseId).bind ReleaseRow.retiredMs =
            some input.previousRetiresAtMs) (.refusal .releaseAlreadyExists)
        return (⟨.alreadyRotated, none⟩, s)
      | none =>
        ensure (row.lastNowMs ≤ input.activatesAtMs) (.refusal .authorityMismatch)
        executes fault .selectCurrent
        let current := exactlyOne (s.activeReleases.filter fun release =>
          release.releaseId = input.currentReleaseId && release.retiredMs = none)
        executes fault .selectReleases
        let s ← s.dropRetired fault input.activatesAtMs
        ensure (current.isSome ∧ s.activeReleases.length = 1) (.refusal .releaseState)
        executes fault .updateRelease
        executes fault .insertRelease
        let s ← (s.retire input.currentReleaseId input.previousRetiresAtMs).insertRelease
          ⟨input.nextReleaseId, input.nextKeyId, input.activatesAtMs, none⟩
        match commandReceipt with
        | none => return (⟨.rotated, none⟩, s)
        | some receipt =>
          let (row, s) ← s.insertReceipt fault receipt
          return (⟨.rotated, some row⟩, s)

def rotateAuthorityRelease (input : ReleaseRotation) (commandReceipt : Option AppliedReceipt)
    (fault : Option Statement) (s : Storage) : Except Failure LifecycleOutcome × Storage :=
  if ¬ rotationAllowed input then
    (.error (.refusal .releaseRotationPolicy), s.createAuthoritySchema)
  else transaction s.createAuthoritySchema (rotateBody input commandReceipt fault)

end Storage

/-! ## Inspection -/

inductive ReconciliationCoverage
  | complete
  | incomplete
  deriving DecidableEq, Repr

inductive ReconciliationStatus
  | exactReceipt
  | notFound
  | historyIncomplete
  deriving DecidableEq, Repr

structure AuthorityObservation where
  environment : Environment
  authorityId : String
  policyEpoch : String
  observedAtMs : ℤ
  initialized : Bool
  coverage : ReconciliationCoverage
  status : ReconciliationStatus
  receipt : Option LifecycleReceipt := none
  releases : List ReleaseRow := []
  deriving DecidableEq, Repr

inductive Inspection
  | unavailable
  | observed (observation : AuthorityObservation)
  deriving DecidableEq, Repr

def isLowerHexChar (c : Char) : Bool := ('0' ≤ c && c ≤ '9') || ('a' ≤ c && c ≤ 'f')

/-- `/^[a-f0-9]{n}$/`. -/
def isLowerHex (length : ℕ) (value : String) : Bool :=
  value.length = length && value.toList.all isLowerHexChar

/-- `Number.isSafeInteger(value) && value >= 0`. -/
def isSafeTime (value : ℤ) : Bool := isSafeInteger value && 0 ≤ value

namespace Storage

/-- The rows of `ORDER BY activated_ms`. -/
def releasesInOrder (s : Storage) : List ReleaseRow :=
  s.activeReleases.insertionSort fun a b => a.activatedMs ≤ b.activatedMs

def inspectLifecycleAuthority (digest : String) (nowMs : ℤ) (expectedAuthorityId : String)
    (expectedPolicyEpoch : String) (s : Storage) : Except Failure Inspection := do
  ensure (isLowerHex 64 digest ∧ isSafeTime nowMs) .thrown
  let environment : Environment :=
    if expectedAuthorityId = STAGING_ADMISSION_AUTHORITY_ID then .staging else .production
  let absent : AuthorityObservation :=
    { environment, authorityId := expectedAuthorityId, policyEpoch := expectedPolicyEpoch,
      observedAtMs := nowMs, initialized := false, coverage := .complete, status := .notFound }
  if ¬ s.schema then return .observed absent
  else
    match s.authorityMeta with
    | none => return if s.activeReleases = [] then .observed absent else .unavailable
    | some row =>
      if row.authorityId ≠ expectedAuthorityId ∨ row.policyEpoch ≠ expectedPolicyEpoch then
        return .unavailable
      else
        let present := { absent with initialized := true, releases := s.releasesInOrder.take 3 }
        if ¬ s.lifecycleReceiptCoverage then
          return .observed { present with coverage := .incomplete, status := .historyIncomplete }
        else
          let receipt ← s.findReceipt digest
          return .observed { present with
            receipt
            status := if receipt.isSome then .exactReceipt else .notFound }

end Storage

/-! ## What a command does -/

/-- The next receipt of a storage. -/
def Storage.receiptRow (receipt : AppliedReceipt) (s : Storage) : LifecycleReceipt :=
  { receipt with sequence := s.nextSequence }

/-- A new receipt found its digest and its sequence number free. -/
structure ReceiptFree (receipt : AppliedReceipt) (s : Storage) : Prop where
  room : s.lifecycleReceipts.length < LIFECYCLE_RECEIPT_CAPACITY
  digest : ∀ other ∈ s.lifecycleReceipts, other.digest ≠ receipt.digest
  sequence : ∀ other ∈ s.lifecycleReceipts, other.sequence ≠ s.nextSequence
  version : receipt.version = 1

/-- An initialisation found nothing, and wrote the first release and its receipt. -/
structure Initialized (specification : AuthorityInitialization) (receipt : AppliedReceipt)
    (s s' : Storage) : Prop where
  empty : s.authorityMeta = none
  covered : s.lifecycleReceiptCoverage = false
  receiptFree : ReceiptFree receipt s
  effect : s' = { s with
    authorityMeta :=
      some ⟨specification.authorityId, specification.policyEpoch, specification.nowMs⟩
    activeReleases := s.activeReleases ++
      [⟨specification.releaseId, specification.releaseKeyId, specification.nowMs, none⟩]
    lifecycleReceiptCoverage := true
    lifecycleReceipts := s.lifecycleReceipts ++ [s.receiptRow receipt] }

/-- A rotation found its current release alone, or with one retired long before, and left it retired
beside the next. -/
structure Rotated (input : ReleaseRotation) (receipt : AppliedReceipt) (s s' : Storage)
    (row : MetaRow) (current : ReleaseRow) : Prop where
  own : s.authorityMeta = some row
  authority : row.authorityId = input.authorityId ∧ row.policyEpoch = input.policyEpoch
  ahead : row.lastNowMs ≤ input.activatesAtMs
  covered : s.lifecycleReceiptCoverage = true
  receiptFree : ReceiptFree receipt s
  isCurrent : current.releaseId = input.currentReleaseId ∧ current.retiredMs = none
  before : s.activeReleases = [current] ∨ current ∈ s.activeReleases ∧
    s.activeReleases.length = 2 ∧ ∃ old ∈ s.activeReleases, ∃ retiredMs, old.retiredMs = some retiredMs ∧
      retiredMs + AUTHORITY_RELEASE_RETENTION_AFTER_RETIRE_MS ≤ input.activatesAtMs
  distinct : current.releaseId ≠ input.nextReleaseId ∧ current.keyId ≠ input.nextKeyId
  effect : s' = { s with
    activeReleases := [{ current with retiredMs := some input.previousRetiresAtMs },
      ⟨input.nextReleaseId, input.nextKeyId, input.activatesAtMs, none⟩]
    lifecycleReceipts := s.lifecycleReceipts ++ [s.receiptRow receipt] }

namespace Storage

variable {fault : Option Statement} {s s' : Storage}

theorem findReceipt_eq_ok {digest : String} {found : Option LifecycleReceipt}
    (h : s.findReceipt digest = .ok found) :
    found = exactlyOne (s.lifecycleReceipts.filter fun row => row.digest = digest) := by
  unfold findReceipt at h
  split at h
  · next hnone =>
    cases h
    exact hnone.symm
  · next row hsome =>
    split at h
    · cases h
    · cases h
      exact hsome.symm

theorem insertReceipt_eq_ok {receipt : AppliedReceipt} {row : LifecycleReceipt}
    (h : s.insertReceipt fault receipt = .ok (row, s')) :
    row = s.receiptRow receipt ∧ receipt.version = 1 ∧
      (∀ other ∈ s.lifecycleReceipts, other.digest ≠ receipt.digest ∧
        other.sequence ≠ s.nextSequence) ∧
      s' = { s with lifecycleReceipts := s.lifecycleReceipts ++ [s.receiptRow receipt] } := by
  simp only [insertReceipt, bind_eq_ok, executes_eq_ok, ensure_eq_ok, exists_const] at h
  obtain ⟨-, -, -, ⟨hversion, hfree⟩, h⟩ := h
  cases h
  refine ⟨rfl, hversion, fun other hother => ?_, rfl⟩
  simp only [List.any_eq_true, Bool.or_eq_true, decide_eq_true_eq, not_exists, not_and,
    not_or] at hfree
  exact hfree other hother

theorem insertRelease_eq_ok {row : ReleaseRow} (h : s.insertRelease row = .ok s') :
    (∀ other ∈ s.activeReleases, other.releaseId ≠ row.releaseId ∧ other.keyId ≠ row.keyId) ∧
      s' = { s with activeReleases := s.activeReleases ++ [row] } := by
  unfold insertRelease at h
  split at h
  · cases h
  · next hfree =>
    cases h
    refine ⟨fun other hother => ?_, rfl⟩
    simp only [List.any_eq_true, Bool.or_eq_true, decide_eq_true_eq, not_exists, not_and,
      not_or] at hfree
    exact hfree other hother

/-- An initialisation by a command. -/
theorem initializeBody_cases {specification : AuthorityInitialization} {receipt : AppliedReceipt}
    {outcome : LifecycleOutcome}
    (h : initializeBody specification (some receipt) fault s = .ok (outcome, s')) :
    (∃ prior, s.findReceipt receipt.digest = .ok (some prior) ∧
        outcome = ⟨.alreadyInitialized, some prior⟩ ∧ s' = s) ∨
      s.findReceipt receipt.digest = .ok none ∧
        outcome = ⟨.initialized, some (s.receiptRow receipt)⟩ ∧
        Initialized specification receipt s s' := by
  simp only [initializeBody, priorReceipt, bind_eq_ok, executes_eq_ok, exists_const] at h
  obtain ⟨found, ⟨-, hfound⟩, h⟩ := h
  cases found with
  | some prior =>
    cases h
    exact .inl ⟨prior, hfound, rfl, rfl⟩
  | none =>
    refine .inr ⟨hfound, ?_⟩
    simp only [bind_eq_ok, executes_eq_ok, exists_const] at h
    obtain ⟨-, h⟩ := h
    split at h
    · simp [bind_eq_ok] at h
    · next hempty =>
      simp only [Option.isSome_some, if_true, ensureNewReceiptCapacity, bind_eq_ok, executes_eq_ok,
        ensure_eq_ok, exists_const] at h
      obtain ⟨⟨-, hroom⟩, -, -, t, ht, h⟩ := h
      obtain ⟨-, rfl⟩ := insertRelease_eq_ok ht
      obtain ⟨-, u, hu, ⟨row, v⟩, hv, h⟩ := h
      unfold insertCoverage at hu
      split at hu
      · cases hu
      · next hcovered =>
        cases hu
        obtain ⟨rfl, hversion, hfree, rfl⟩ := insertReceipt_eq_ok hv
        cases h
        exact ⟨rfl, hempty, by simpa using hcovered, ⟨hroom, fun other hother => (hfree other hother).1,
          fun other hother => (hfree other hother).2, hversion⟩, rfl⟩

/-- What is left once a retired release of two is dropped: the current release alone. -/
theorem dropRetired_eq_ok {activatesAtMs : ℤ} {current : ReleaseRow} (hmem : current ∈ s.activeReleases)
    (hcurrent : current.retiredMs = none) (h : s.dropRetired fault activatesAtMs = .ok s')
    (halone : s'.activeReleases.length = 1) :
    s' = { s with activeReleases := [current] } ∧
      (s.activeReleases = [current] ∨ current ∈ s.activeReleases ∧ s.activeReleases.length = 2 ∧
        ∃ old ∈ s.activeReleases, ∃ retiredMs, old.retiredMs = some retiredMs ∧
          retiredMs + AUTHORITY_RELEASE_RETENTION_AFTER_RETIRE_MS ≤ activatesAtMs) := by
  unfold dropRetired at h
  split at h
  · cases h
    obtain ⟨other, hother⟩ := List.length_eq_one_iff.1 halone
    rw [hother, List.mem_singleton] at hmem
    subst hmem
    rw [← hother]
    exact ⟨rfl, .inl rfl⟩
  · next hlength =>
    split at h
    · cases h
    · next old hold =>
      simp only [bind_eq_ok, executes_eq_ok, ensure_eq_ok, exists_const] at h
      obtain ⟨hretention, -, -, h⟩ := h
      cases h
      have hsome := List.find?_some hold
      obtain ⟨retiredMs, hretired⟩ := Option.isSome_iff_exists.1 hsome
      rw [hretired, Option.getD_some] at hretention
      have hkept : current ∈ s.activeReleases.filter fun row =>
          ¬ (row.releaseId = old.releaseId ∧ row.retiredMs = old.retiredMs) := by
        rw [List.mem_filter, hcurrent, hretired]
        simp [hmem]
      obtain ⟨other, hother⟩ := List.length_eq_one_iff.1 halone
      simp only at hother
      rw [hother, List.mem_singleton] at hkept
      subst hkept
      exact ⟨by rw [hother], .inr ⟨hmem, not_not.1 hlength, old, List.mem_of_find?_eq_some hold,
        retiredMs, hretired, hretention⟩⟩

/-- A rotation by a command. -/
theorem rotateBody_cases {input : ReleaseRotation} {receipt : AppliedReceipt}
    {outcome : LifecycleOutcome}
    (h : rotateBody input (some receipt) fault s = .ok (outcome, s')) :
    (∃ prior, s.findReceipt receipt.digest = .ok (some prior) ∧
        outcome = ⟨.alreadyRotated, some prior⟩ ∧ s' = s) ∨
      s.findReceipt receipt.digest = .ok none ∧
        outcome = ⟨.rotated, some (s.receiptRow receipt)⟩ ∧
        ∃ row current, Rotated input receipt s s' row current := by
  simp only [rotateBody, priorReceipt, bind_eq_ok, executes_eq_ok, exists_const] at h
  obtain ⟨found, ⟨-, hfound⟩, h⟩ := h
  cases found with
  | some prior =>
    cases h
    exact .inl ⟨prior, hfound, rfl, rfl⟩
  | none =>
    refine .inr ⟨hfound, ?_⟩
    simp only [bind_eq_ok, executes_eq_ok, exists_const] at h
    obtain ⟨-, h⟩ := h
    split at h
    · cases h
    · next row hown =>
      simp only [Option.filter_eq_some_iff, Bool.and_eq_true, decide_eq_true_eq] at hown
      simp only [receiptRoom, ensureNewReceiptCapacity, bind_eq_ok, executes_eq_ok, ensure_eq_ok,
        exists_const, Option.isNone_some, Bool.false_eq_true, if_false] at h
      obtain ⟨⟨-, hcovered, -, hroom⟩, -, h⟩ := h
      split at h
      · simp only [bind_eq_ok, ensure_eq_ok, exists_const, false_and, and_false] at h
      · simp only [bind_eq_ok, executes_eq_ok, ensure_eq_ok, exists_const] at h
        obtain ⟨hahead, -, -, t, ht, ⟨hsome, halone⟩, -, -, u, hu, ⟨r, v⟩, hv, h⟩ := h
        obtain ⟨current, hcurrent⟩ := Option.isSome_iff_exists.1 hsome
        have hmem : current ∈ s.activeReleases.filter fun release =>
            release.releaseId = input.currentReleaseId && release.retiredMs = none := by
          rw [exactlyOne_eq_some.1 hcurrent]
          exact List.mem_singleton_self current
        simp only [List.mem_filter, Bool.and_eq_true, decide_eq_true_eq] at hmem
        obtain ⟨rfl, hbefore⟩ := dropRetired_eq_ok hmem.1 hmem.2.2 ht halone
        obtain ⟨hdistinct, rfl⟩ := insertRelease_eq_ok hu
        obtain ⟨rfl, hversion, hfree, rfl⟩ := insertReceipt_eq_ok hv
        cases h
        simp only [retire, List.map_cons, List.map_nil, if_pos hmem.2.1, List.mem_singleton,
          forall_eq] at hdistinct hfree ⊢
        exact ⟨rfl, row, current, hown.1, hown.2, hahead, hcovered,
          ⟨hroom, fun other hother => (hfree other hother).1,
            fun other hother => (hfree other hother).2, hversion⟩, hmem.2, hbefore, hdistinct, rfl⟩

end Storage
end Limitmark.Authority
