import Limitmark.Authority.Storage

/-!
# The decisions of the admission authority

`PublicInquiryAdmissionAuthority` of `workers/admission-service/authority.ts`: `claimPre`,
`consumePost`, and the removal of old rows by `cleanup` and `alarm`. Every call takes the reading of
its clock, which may be any integer, and the statement at which its storage fails, if any. The
random strings of a call, and the order in which the storage visits the rows of a `LIMIT`, are
arguments.

A decision is taken at the reading it stores as the last one seen. `cleanup` reads the clock as
well, and requires it to be no earlier than the last one seen, but does not store its reading.

`claimPre_cases`, `consumePost_cases` and `cleanup_cases` say everything a call does.
-/

namespace Limitmark.Authority

open Limitmark.Foundations Limitmark.Ingress

structure AuthorityOptions where
  expectedAuthorityId : String := ADMISSION_AUTHORITY_ID
  expectedPolicyEpoch : String := ADMISSION_POLICY_EPOCH
  deriving DecidableEq, Repr

structure ClaimPreInput where
  releaseId : String
  clientPseudonym : String
  requestBinding : String
  nonce : String
  issuedAtMs : ℤ
  deriving DecidableEq, Repr

structure ConsumePostInput where
  releaseId : String
  clientPseudonym : String
  requestBinding : String
  nonce : String
  permit : String
  deriving DecidableEq, Repr

inductive PreDecision
  | allowed (permit : String) (expiresAtMs : ℤ)
  | limited
  | replay
  | unavailable
  deriving DecidableEq, Repr

inductive PostDecision
  | allowed
  | limited
  | replay
  | unavailable
  deriving DecidableEq, Repr

inductive Cleaned
  | deleted (count : ℕ)
  | unavailable
  deriving DecidableEq, Repr

def validPre (input : ClaimPreInput) : Bool :=
  validRelease input.releaseId && isOpaque input.clientPseudonym 32 &&
    isOpaque input.requestBinding 32 && isOpaque input.nonce 16 &&
    isSafeInteger input.issuedAtMs && 0 ≤ input.issuedAtMs

def validPost (input : ConsumePostInput) : Bool :=
  validRelease input.releaseId && isOpaque input.clientPseudonym 32 &&
    isOpaque input.requestBinding 32 && isOpaque input.nonce 16 && isOpaque input.permit 32

/-- How long an observation counts. -/
def retentionMs : Stage → Scope → ℤ
  | .pre, .client => admissionPolicy.pre.client.windowMs
  | .pre, .global => admissionPolicy.pre.global.windowMs
  | .post, .client => admissionPolicy.post.client.windowMs
  | .post, .global => admissionPolicy.post.global.windowMs

def Observation.expired (nowMs : ℤ) (row : Observation) : Bool :=
  row.observedAtMs ≤ nowMs - retentionMs row.stage row.scope

def NonceRow.expired (nowMs : ℤ) (row : NonceRow) : Bool := row.retainUntilMs ≤ nowMs

/-- The rows a `LIMIT` picks of those whose keys are given, visited in the order of a plan. -/
def limitRows (plan keys : List String) (maximumRows : ℕ) : List String :=
  ((plan.filter (· ∈ keys)).dedup ++ keys.filter (· ∉ plan)).take maximumRows

/-- The orders in which a cleanup visits its rows. -/
structure CleanupPlan where
  observations : List String := []
  nonces : List String := []
  deriving DecidableEq, Repr

namespace Storage

/-- The meta row, if it is that of the authority the code expects. -/
def ownMeta (options : AuthorityOptions) (s : Storage) : Option MetaRow :=
  s.authorityMeta.filter fun row =>
    row.authorityId = options.expectedAuthorityId && row.policyEpoch = options.expectedPolicyEpoch

/-- The last time seen is moved to a new one. -/
def seen (row : MetaRow) (nowMs : ℤ) (s : Storage) : Storage :=
  { s with authorityMeta := some { row with lastNowMs := nowMs } }

def authorityNow (options : AuthorityOptions) (fault : Option Statement) (releaseId : String)
    (observed : ℤ) (s : Storage) : Except Failure (Option ℤ × Storage) := do
  executes fault .selectMeta
  match s.ownMeta options with
  | none => return (none, s)
  | some row =>
    if ¬ isSafeInteger observed ∨ observed < 0 ∨ observed < row.lastNowMs then return (none, s)
    else
      executes fault .selectActiveRelease
      if (exactlyOne (s.activeReleases.filter fun release =>
          release.releaseId = releaseId && isActiveAt observed release)).isNone then
        return (none, s)
      else
        executes fault .updateMeta
        return (some observed, s.seen row observed)

/-- The rows that no longer count are removed. -/
def pruned (nowMs : ℤ) (s : Storage) : Storage :=
  { s with
    observations := s.observations.keep fun row => !row.expired nowMs
    nonces := s.nonces.keep fun row => !row.expired nowMs }

def prune (fault : Option Statement) (nowMs : ℤ) (s : Storage) : Except Failure Storage := do
  executes fault .deleteObservations
  executes fault .deleteNonces
  return s.pruned nowMs

def count (stage : Stage) (scope : Scope) (subject : String) (lowerExclusive nowMs : ℤ)
    (s : Storage) : ℕ :=
  s.observations.tally fun row =>
    row.stage = stage && row.scope = scope && row.subject = subject &&
      lowerExclusive < row.observedAtMs && row.observedAtMs ≤ nowMs

/-- Some limit of the first stage is reached. -/
def preLimited (clientPseudonym : String) (nowMs : ℤ) (s : Storage) : Bool :=
  admissionPolicy.pre.clientBurst.limit ≤
      s.count .pre .client clientPseudonym (nowMs - admissionPolicy.pre.clientBurst.windowMs) nowMs ||
    admissionPolicy.pre.client.limit ≤
      s.count .pre .client clientPseudonym (nowMs - admissionPolicy.pre.client.windowMs) nowMs ||
    admissionPolicy.pre.global.limit ≤
      s.count .pre .global "*" (nowMs - admissionPolicy.pre.global.windowMs) nowMs

/-- Some limit of the second stage is reached. -/
def postLimited (clientPseudonym : String) (nowMs : ℤ) (s : Storage) : Bool :=
  admissionPolicy.post.client.limit ≤
      s.count .post .client clientPseudonym (nowMs - admissionPolicy.post.client.windowMs) nowMs ||
    admissionPolicy.post.global.limit ≤
      s.count .post .global "*" (nowMs - admissionPolicy.post.global.windowMs) nowMs

/-- The two observations of an allowed decision. -/
def observe (fault : Option Statement) (attempt : String) (stage : Stage) (clientPseudonym : String)
    (nowMs : ℤ) (s : Storage) : Except Failure Storage := do
  executes fault .insertClientObservation
  let s ← s.insertObservation (attempt ++ ":c") ⟨stage, .client, clientPseudonym, nowMs⟩
  executes fault .faultAfterObservation
  executes fault .insertGlobalObservation
  s.insertObservation (attempt ++ ":g") ⟨stage, .global, "*", nowMs⟩

/-- The nonce row of an allowed claim. -/
def claimedRow (input : ClaimPreInput) (permit : String) (nowMs : ℤ) : NonceRow where
  releaseId := input.releaseId
  clientId := input.clientPseudonym
  requestBinding := input.requestBinding
  permit := permit
  claimedMs := nowMs
  permitExpiresMs := nowMs + PRE_PERMIT_LIFETIME_MS
  retainUntilMs := nowMs + NONCE_RETENTION_MS

def claimPreBody (options : AuthorityOptions) (fault : Option Statement) (reading : ℤ)
    (permit attempt : String) (input : ClaimPreInput) (s : Storage) :
    Except Failure (PreDecision × Storage) := do
  let (now, s) ← s.authorityNow options fault input.releaseId reading
  match now with
  | none => return (.unavailable, s)
  | some nowMs =>
    match assertIngressFresh input.issuedAtMs nowMs with
    | .error _ => return (.unavailable, s)
    | .ok _ =>
      let s ← s.prune fault nowMs
      executes fault .selectNonce
      if (s.nonces.lookup input.nonce).isSome then return (.replay, s)
      else
        executes fault .countClientBurst
        executes fault .countClient
        executes fault .countGlobal
        if s.preLimited input.clientPseudonym nowMs then return (.limited, s)
        else
          let s ← s.observe fault attempt .pre input.clientPseudonym nowMs
          executes fault .insertNonce
          let s ← s.insertNonce input.nonce (claimedRow input permit nowMs)
          return (.allowed permit (nowMs + PRE_PERMIT_LIFETIME_MS), s)

/-- A decision that throws is undone and answers that it is unavailable. -/
def claimPre (options : AuthorityOptions) (fault : Option Statement) (reading : ℤ)
    (permit attempt : String) (input : ClaimPreInput) (s : Storage) : PreDecision × Storage :=
  if ¬ validPre input then (.unavailable, s)
  else
    match transaction s.createAuthoritySchema
        (claimPreBody options fault reading permit attempt input) with
    | (.ok decision, s') => (decision, s')
    | (.error _, s') => (.unavailable, s')

/-- Whether a nonce row is of the claim a consume presents, and its permit still valid. -/
def matchesClaim (input : ConsumePostInput) (nowMs : ℤ) (row : NonceRow) : Bool :=
  row.releaseId = input.releaseId && row.clientId = input.clientPseudonym &&
    row.requestBinding = input.requestBinding && row.permit = input.permit &&
    nowMs < row.permitExpiresMs

/-- `UPDATE nonces SET post_consumed=1 WHERE nonce=? AND post_consumed=0`. -/
def markConsumed (nonce : String) (s : Storage) : Storage :=
  match s.nonces.lookup nonce with
  | some row => { s with nonces := s.nonces.insert nonce { row with postConsumed := true } }
  | none => s

def consumePostBody (options : AuthorityOptions) (fault : Option Statement) (reading : ℤ)
    (attempt : String) (input : ConsumePostInput) (s : Storage) :
    Except Failure (PostDecision × Storage) := do
  let (now, s) ← s.authorityNow options fault input.releaseId reading
  match now with
  | none => return (.unavailable, s)
  | some nowMs =>
    let s ← s.prune fault nowMs
    executes fault .selectNonce
    match (s.nonces.lookup input.nonce).filter (matchesClaim input nowMs) with
    | none => return (.unavailable, s)
    | some row =>
      if row.postConsumed then return (.replay, s)
      else
        executes fault .countClient
        executes fault .countGlobal
        if s.postLimited input.clientPseudonym nowMs then return (.limited, s)
        else
          let s ← s.observe fault attempt .post input.clientPseudonym nowMs
          executes fault .updateNonce
          return (.allowed, s.markConsumed input.nonce)

def consumePost (options : AuthorityOptions) (fault : Option Statement) (reading : ℤ)
    (attempt : String) (input : ConsumePostInput) (s : Storage) : PostDecision × Storage :=
  if ¬ validPost input then (.unavailable, s)
  else
    match transaction s.createAuthoritySchema
        (consumePostBody options fault reading attempt input) with
    | (.ok decision, s') => (decision, s')
    | (.error _, s') => (.unavailable, s')

/-- The keys of the rows a cleanup removes. -/
def oldObservations (plan : CleanupPlan) (maximumRows : ℕ) (nowMs : ℤ) (s : Storage) :
    List String :=
  limitRows plan.observations
    ((s.observations.keep fun row => row.expired nowMs).entries.map Sigma.fst) maximumRows

def oldNonces (plan : CleanupPlan) (maximumRows : ℕ) (nowMs : ℤ) (s : Storage) : List String :=
  limitRows plan.nonces ((s.nonces.keep fun row => row.expired nowMs).entries.map Sigma.fst)
    maximumRows

/-- The rows a cleanup picks are removed. -/
def cleaned (plan : CleanupPlan) (maximumRows : ℕ) (nowMs : ℤ) (s : Storage) : Storage :=
  { s with
    observations := s.observations.without (s.oldObservations plan maximumRows nowMs)
    nonces := s.nonces.without (s.oldNonces plan maximumRows nowMs) }

def cleanupBody (options : AuthorityOptions) (fault : Option Statement) (reading : ℤ)
    (plan : CleanupPlan) (maximumRows : ℕ) (s : Storage) : Except Failure (Cleaned × Storage) := do
  executes fault .selectMeta
  match s.ownMeta options with
  | none => return (.unavailable, s)
  | some row =>
    if ¬ isSafeInteger reading ∨ reading < row.lastNowMs then return (.unavailable, s)
    else
      executes fault .countObservations
      executes fault .deleteObservations
      executes fault .deleteNonces
      executes fault .countRemaining
      let s' := s.cleaned plan maximumRows reading
      return (.deleted (s.observations.size - s'.observations.size), s')

def cleanup (options : AuthorityOptions) (fault : Option Statement) (reading : ℤ)
    (plan : CleanupPlan) (maximumRows : ℤ) (s : Storage) : Cleaned × Storage :=
  if maximumRows < 1 ∨ 500 < maximumRows then (.unavailable, s)
  else
    match transaction s.createAuthoritySchema
        (cleanupBody options fault reading plan maximumRows.toNat) with
    | (.ok answer, s') => (answer, s')
    | (.error _, s') => (.unavailable, s')

/-- A cleanup of 500 rows, and the time of the next alarm by a later reading of the clock. -/
def alarm (options : AuthorityOptions) (fault : Option Statement) (reading later : ℤ)
    (plan : CleanupPlan) (s : Storage) : ℤ × Storage :=
  (later + 60000, (s.cleanup options fault reading plan 500).2)

end Storage

/-! ## What a call does -/

/-- The authority takes a reading of its clock for a request of a release: it is initialised, its
clock has not stepped back, and the release is active. -/
structure Reads (options : AuthorityOptions) (releaseId : String) (reading : ℤ) (s : Storage)
    (row : MetaRow) : Prop where
  own : s.ownMeta options = some row
  safe : isSafeInteger reading = true
  nonneg : 0 ≤ reading
  notBack : row.lastNowMs ≤ reading
  active : ∃ release ∈ s.activeReleases, release.releaseId = releaseId ∧
    Storage.isActiveAt reading release = true

/-- A cleanup takes a reading of its clock: the authority is initialised, and its clock is not
behind the last time seen. -/
structure Sweeps (options : AuthorityOptions) (reading maximumRows : ℤ) (s : Storage)
    (row : MetaRow) : Prop where
  own : s.ownMeta options = some row
  safe : isSafeInteger reading = true
  notBack : row.lastNowMs ≤ reading
  bounded : 1 ≤ maximumRows ∧ maximumRows ≤ 500

/-- The test of `Reads`. -/
def Storage.reads (options : AuthorityOptions) (releaseId : String) (reading : ℤ) (s : Storage) :
    Bool :=
  match s.ownMeta options with
  | none => false
  | some row => isSafeInteger reading && 0 ≤ reading && row.lastNowMs ≤ reading &&
      s.activeReleases.any fun release =>
        release.releaseId = releaseId && Storage.isActiveAt reading release

/-- The test of `Sweeps`. -/
def Storage.sweeps (options : AuthorityOptions) (reading maximumRows : ℤ) (s : Storage) : Bool :=
  match s.ownMeta options with
  | none => false
  | some row => isSafeInteger reading && row.lastNowMs ≤ reading && 1 ≤ maximumRows &&
      maximumRows ≤ 500

theorem reads_iff {options : AuthorityOptions} {releaseId : String} {reading : ℤ} {s : Storage} :
    s.reads options releaseId reading = true ↔ ∃ row, Reads options releaseId reading s row := by
  unfold Storage.reads
  constructor
  · intro h
    split at h
    · cases h
    · next row hown =>
      simp only [Bool.and_eq_true, decide_eq_true_eq, List.any_eq_true] at h
      exact ⟨row, hown, h.1.1.1, h.1.1.2, h.1.2, h.2⟩
  · rintro ⟨row, h⟩
    rw [h.own]
    simp only [Bool.and_eq_true, decide_eq_true_eq, List.any_eq_true]
    exact ⟨⟨⟨h.safe, h.nonneg⟩, h.notBack⟩, h.active⟩

theorem sweeps_iff {options : AuthorityOptions} {reading maximumRows : ℤ} {s : Storage} :
    s.sweeps options reading maximumRows = true ↔
      ∃ row, Sweeps options reading maximumRows s row := by
  unfold Storage.sweeps
  constructor
  · intro h
    split at h
    · cases h
    · next row hown =>
      simp only [Bool.and_eq_true, decide_eq_true_eq] at h
      exact ⟨row, hown, h.1.1.1, h.1.1.2, h.1.2, h.2⟩
  · rintro ⟨row, h⟩
    rw [h.own]
    simp only [Bool.and_eq_true, decide_eq_true_eq]
    exact ⟨⟨⟨h.safe, h.notBack⟩, h.bounded.1⟩, h.bounded.2⟩

namespace Storage

variable {options : AuthorityOptions} {fault : Option Statement} {reading : ℤ} {s s' : Storage}

theorem authorityNow_eq_ok {releaseId : String} {now : Option ℤ}
    (h : s.authorityNow options fault releaseId reading = .ok (now, s')) :
    (now = none ∧ s' = s) ∨
      ∃ row, Reads options releaseId reading s row ∧ now = some reading ∧
        s' = s.seen row reading := by
  simp only [authorityNow, bind_eq_ok, executes_eq_ok, exists_const] at h
  obtain ⟨-, h⟩ := h
  cases hown : s.ownMeta options with
  | none =>
    rw [hown] at h
    cases h
    exact .inl ⟨rfl, rfl⟩
  | some row =>
    rw [hown] at h
    simp only at h
    split at h
    · cases h
      exact .inl ⟨rfl, rfl⟩
    · next hclock =>
      simp only [bind_eq_ok, executes_eq_ok, exists_const] at h
      obtain ⟨-, h⟩ := h
      split at h
      · cases h
        exact .inl ⟨rfl, rfl⟩
      · next hactive =>
        simp only [bind_eq_ok, executes_eq_ok, exists_const] at h
        obtain ⟨-, h⟩ := h
        cases h
        rw [Option.isNone_iff_eq_none, ← ne_eq, Option.ne_none_iff_exists'] at hactive
        obtain ⟨release, hrelease⟩ := hactive
        have hmem : release ∈ s.activeReleases.filter fun release =>
            release.releaseId = releaseId && isActiveAt reading release := by
          rw [exactlyOne_eq_some.1 hrelease]
          exact List.mem_singleton_self release
        simp only [List.mem_filter, Bool.and_eq_true, decide_eq_true_eq] at hmem
        simp only [not_or, not_not] at hclock
        exact .inr ⟨row, ⟨hown, hclock.1, by omega, by omega, release, hmem⟩, rfl, rfl⟩

theorem prune_eq_ok {nowMs : ℤ} (h : s.prune fault nowMs = .ok s') : s' = s.pruned nowMs := by
  simp only [prune, bind_eq_ok, executes_eq_ok, exists_const] at h
  obtain ⟨-, -, h⟩ := h
  cases h
  rfl

/-- The observations of an allowed decision, under ids that were free. -/
structure Observed (attempt : String) (stage : Stage) (clientPseudonym : String) (nowMs : ℤ)
    (s s' : Storage) : Prop where
  clientFree : s.observations.lookup (attempt ++ ":c") = none
  globalFree : (s.observations.insert (attempt ++ ":c")
    ⟨stage, .client, clientPseudonym, nowMs⟩).lookup (attempt ++ ":g") = none
  eq : s' = { s with observations := (s.observations.insert (attempt ++ ":c")
    ⟨stage, .client, clientPseudonym, nowMs⟩).insert (attempt ++ ":g") ⟨stage, .global, "*", nowMs⟩ }

theorem observe_eq_ok {attempt : String} {stage : Stage} {clientPseudonym : String} {nowMs : ℤ}
    (h : s.observe fault attempt stage clientPseudonym nowMs = .ok s') :
    Observed attempt stage clientPseudonym nowMs s s' := by
  simp only [observe, bind_eq_ok, executes_eq_ok, exists_const] at h
  obtain ⟨-, t, ht, -, -, h⟩ := h
  unfold insertObservation at ht h
  split at ht
  · cases ht
  · next hclient =>
    cases ht
    split at h
    · cases h
    · next hglobal =>
      cases h
      exact ⟨by simpa using hclient, by simpa using hglobal, rfl⟩

theorem insertNonce_eq_ok {nonce : String} {row : NonceRow} (h : s.insertNonce nonce row = .ok s') :
    s.nonces.lookup nonce = none ∧ s' = { s with nonces := s.nonces.insert nonce row } := by
  unfold insertNonce at h
  split at h
  · cases h
  · next hfree =>
    cases h
    simp only [not_or, Bool.not_eq_true, Option.isSome_eq_false_iff, Option.isNone_iff_eq_none]
      at hfree
    exact ⟨hfree.1, rfl⟩

/-- What an allowed claim found and did. -/
structure Claimed (options : AuthorityOptions) (reading : ℤ) (permit attempt : String)
    (input : ClaimPreInput) (row : MetaRow) (s s' : Storage) : Prop where
  fresh : assertIngressFresh input.issuedAtMs reading = .ok ()
  unclaimed : ((s.seen row reading).pruned reading).nonces.lookup input.nonce = none
  room : ((s.seen row reading).pruned reading).preLimited input.clientPseudonym reading = false
  effect : ∃ t, Observed attempt .pre input.clientPseudonym reading
    ((s.seen row reading).pruned reading) t ∧
      s' = { t with nonces := t.nonces.insert input.nonce (claimedRow input permit reading) }

theorem claimPreBody_cases {permit attempt : String} {input : ClaimPreInput} {d : PreDecision}
    (h : claimPreBody options fault reading permit attempt input s = .ok (d, s')) :
    (d = .unavailable ∧ s' = s) ∨
      ∃ row, Reads options input.releaseId reading s row ∧
        ((d = .unavailable ∧ s' = s.seen row reading) ∨
          ((d = .replay ∨ d = .limited) ∧ s' = (s.seen row reading).pruned reading) ∨
          d = .allowed permit (reading + PRE_PERMIT_LIFETIME_MS) ∧
            Claimed options reading permit attempt input row s s') := by
  simp only [claimPreBody, bind_eq_ok] at h
  obtain ⟨⟨now, t⟩, hnow, h⟩ := h
  obtain ⟨rfl, rfl⟩ | ⟨row, hreads, rfl, rfl⟩ := authorityNow_eq_ok hnow
  · cases h
    exact .inl ⟨rfl, rfl⟩
  · refine .inr ⟨row, hreads, ?_⟩
    simp only at h
    split at h
    · cases h
      exact .inl ⟨rfl, rfl⟩
    · next hfresh =>
      simp only [bind_eq_ok, executes_eq_ok, exists_const] at h
      obtain ⟨p, hprune, -, h⟩ := h
      obtain rfl := prune_eq_ok hprune
      split at h
      · cases h
        exact .inr (.inl ⟨.inl rfl, rfl⟩)
      · next hreplay =>
        simp only [bind_eq_ok, executes_eq_ok, exists_const] at h
        obtain ⟨-, -, -, h⟩ := h
        split at h
        · cases h
          exact .inr (.inl ⟨.inr rfl, rfl⟩)
        · next hroom =>
          simp only [bind_eq_ok, executes_eq_ok, exists_const] at h
          obtain ⟨t, hobserve, -, u, hinsert, h⟩ := h
          cases h
          obtain ⟨-, rfl⟩ := insertNonce_eq_ok hinsert
          exact .inr (.inr ⟨rfl, hfresh, by simpa using hreplay, by simpa using hroom, t,
            observe_eq_ok hobserve, rfl⟩)

/-- **What a claim does**: nothing, or it moves the last time seen, or it also prunes the tables, or
it is allowed and takes its nonce. -/
theorem claimPre_cases {permit attempt : String} {input : ClaimPreInput} {d : PreDecision}
    (h : s.claimPre options fault reading permit attempt input = (d, s')) :
    (d = .unavailable ∧ s'.SameRows s) ∨
      ∃ row, validPre input = true ∧ Reads options input.releaseId reading s row ∧
        ((d = .unavailable ∧ s' = s.createAuthoritySchema.seen row reading) ∨
          ((d = .replay ∨ d = .limited) ∧
            s' = (s.createAuthoritySchema.seen row reading).pruned reading) ∨
          d = .allowed permit (reading + PRE_PERMIT_LIFETIME_MS) ∧
            Claimed options reading permit attempt input row s.createAuthoritySchema s') := by
  unfold claimPre at h
  split at h
  · cases h
    exact .inl ⟨rfl, .refl s⟩
  · next hvalid =>
    split at h
    · next d' t htx =>
      cases h
      obtain ⟨rfl, rfl⟩ | ⟨row, hreads, hrest⟩ := claimPreBody_cases (transaction_eq_ok htx)
      · exact .inl ⟨rfl, s.sameRows_schema⟩
      · refine .inr ⟨row, not_not.1 hvalid, ?_, hrest⟩
        exact ⟨hreads.own, hreads.safe, hreads.nonneg, hreads.notBack, hreads.active⟩
    · next e t htx =>
      cases h
      rw [transaction_eq_error htx]
      exact .inl ⟨rfl, s.sameRows_schema⟩

/-- What an allowed consume found and did. -/
structure Consumed (reading : ℤ) (attempt : String) (input : ConsumePostInput) (row : MetaRow)
    (s s' : Storage) : Prop where
  granted : ∃ claim, ((s.seen row reading).pruned reading).nonces.lookup input.nonce = some claim ∧
    matchesClaim input reading claim = true ∧ claim.postConsumed = false
  room : ((s.seen row reading).pruned reading).postLimited input.clientPseudonym reading = false
  effect : ∃ t, Observed attempt .post input.clientPseudonym reading
    ((s.seen row reading).pruned reading) t ∧ s' = t.markConsumed input.nonce

theorem consumePostBody_cases {attempt : String} {input : ConsumePostInput} {d : PostDecision}
    (h : consumePostBody options fault reading attempt input s = .ok (d, s')) :
    (d = .unavailable ∧ s' = s) ∨
      ∃ row, Reads options input.releaseId reading s row ∧
        (d ≠ .allowed ∧ s' = (s.seen row reading).pruned reading ∨
          d = .allowed ∧ Consumed reading attempt input row s s') := by
  simp only [consumePostBody, bind_eq_ok] at h
  obtain ⟨⟨now, t⟩, hnow, h⟩ := h
  obtain ⟨rfl, rfl⟩ | ⟨row, hreads, rfl, rfl⟩ := authorityNow_eq_ok hnow
  · cases h
    exact .inl ⟨rfl, rfl⟩
  · refine .inr ⟨row, hreads, ?_⟩
    simp only [bind_eq_ok, executes_eq_ok, exists_const] at h
    obtain ⟨p, hprune, -, h⟩ := h
    obtain rfl := prune_eq_ok hprune
    split at h
    · cases h
      exact .inl ⟨by simp, rfl⟩
    · next claim hclaim =>
      rw [Option.filter_eq_some_iff] at hclaim
      split at h
      · cases h
        exact .inl ⟨by simp, rfl⟩
      · next hconsumed =>
        simp only [bind_eq_ok, executes_eq_ok, exists_const] at h
        obtain ⟨-, -, h⟩ := h
        split at h
        · cases h
          exact .inl ⟨by simp, rfl⟩
        · next hroom =>
          simp only [bind_eq_ok, executes_eq_ok, exists_const] at h
          obtain ⟨t, hobserve, -, h⟩ := h
          cases h
          exact .inr ⟨rfl, ⟨claim, hclaim.1, hclaim.2, by simpa using hconsumed⟩,
            by simpa using hroom, t, observe_eq_ok hobserve, rfl⟩

/-- **What a consume does**: nothing, or it moves the last time seen and prunes the tables, or it is
also allowed and marks its nonce. -/
theorem consumePost_cases {attempt : String} {input : ConsumePostInput} {d : PostDecision}
    (h : s.consumePost options fault reading attempt input = (d, s')) :
    (d = .unavailable ∧ s'.SameRows s) ∨
      ∃ row, validPost input = true ∧ Reads options input.releaseId reading s row ∧
        (d ≠ .allowed ∧ s' = (s.createAuthoritySchema.seen row reading).pruned reading ∨
          d = .allowed ∧ Consumed reading attempt input row s.createAuthoritySchema s') := by
  unfold consumePost at h
  split at h
  · cases h
    exact .inl ⟨rfl, .refl s⟩
  · next hvalid =>
    split at h
    · next d' t htx =>
      cases h
      obtain ⟨rfl, rfl⟩ | ⟨row, hreads, hrest⟩ := consumePostBody_cases (transaction_eq_ok htx)
      · exact .inl ⟨rfl, s.sameRows_schema⟩
      · refine .inr ⟨row, not_not.1 hvalid, ?_, hrest⟩
        exact ⟨hreads.own, hreads.safe, hreads.nonneg, hreads.notBack, hreads.active⟩
    · next e t htx =>
      cases h
      rw [transaction_eq_error htx]
      exact .inl ⟨rfl, s.sameRows_schema⟩

/-- **What a cleanup does**: nothing, or it removes some of the rows that have expired by its
reading of the clock. -/
theorem cleanup_cases {plan : CleanupPlan} {maximumRows : ℤ} {answer : Cleaned}
    (h : s.cleanup options fault reading plan maximumRows = (answer, s')) :
    s'.SameRows s ∨ ∃ row, Sweeps options reading maximumRows s row ∧
      s' = s.createAuthoritySchema.cleaned plan maximumRows.toNat reading := by
  unfold cleanup at h
  split at h
  · cases h
    exact .inl (.refl s)
  · next hrows =>
    split at h
    · next d t htx =>
      cases h
      have hbody := transaction_eq_ok htx
      simp only [cleanupBody, bind_eq_ok, executes_eq_ok, exists_const] at hbody
      obtain ⟨-, hbody⟩ := hbody
      split at hbody
      · cases hbody
        exact .inl s.sameRows_schema
      · next row hown =>
        split at hbody
        · cases hbody
          exact .inl s.sameRows_schema
        · next hclock =>
          simp only [bind_eq_ok, executes_eq_ok, exists_const] at hbody
          obtain ⟨-, -, -, -, hbody⟩ := hbody
          cases hbody
          simp only [not_or, not_not] at hclock
          exact .inr ⟨row, ⟨hown, hclock.1, by omega, by omega, by omega⟩, rfl⟩
    · next e t htx =>
      cases h
      rw [transaction_eq_error htx]
      exact .inl s.sameRows_schema

end Storage
end Limitmark.Authority
