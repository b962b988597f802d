import Limitmark.Authority.OperatorCommand
import Limitmark.Foundations.Run

/-!
# Runs of the admission authority

One authority object takes calls in any order, with any readings of its clock: claims, consumes,
cleanups, alarms, and signed commands. Each call is one transaction, so a run is a list of calls.

`step_effect` lists what a call can do. `decidedAt` is the reading at which the authority takes up a
request and `sweptAt` the one by which it removes old rows. The first is stored, and never steps back
(`Timely.snoc`).
-/

namespace Limitmark.Authority

open Limitmark.Foundations Limitmark.Ingress

inductive Op
  | claimPre (input : ClaimPreInput) (reading : ℤ) (permit attempt : String)
      (fault : Option Statement := none)
  | consumePost (input : ConsumePostInput) (reading : ℤ) (attempt : String)
      (fault : Option Statement := none)
  | cleanup (maximumRows reading : ℤ) (plan : CleanupPlan := {}) (fault : Option Statement := none)
  | alarm (reading later : ℤ) (plan : CleanupPlan := {}) (fault : Option Statement := none)
  | command (call : SignedCall AuthorityOperatorCommand)

inductive Answer
  | pre (decision : PreDecision)
  | post (decision : PostDecision)
  | cleaned (answer : Cleaned)
  | alarm (at_ : ℤ)
  | lifecycle (result : Except Failure LifecycleOutcome)

namespace Deployment

def options (deployment : Deployment) : AuthorityOptions where
  expectedAuthorityId := deployment.environment.authorityId

def step (deployment : Deployment) (s : Storage) : Op → Storage × Answer
  | .claimPre input reading permit attempt fault =>
    let (d, s') := s.claimPre deployment.options fault reading permit attempt input
    (s', .pre d)
  | .consumePost input reading attempt fault =>
    let (d, s') := s.consumePost deployment.options fault reading attempt input
    (s', .post d)
  | .cleanup maximumRows reading plan fault =>
    let (answer, s') := s.cleanup deployment.options fault reading plan maximumRows
    (s', .cleaned answer)
  | .alarm reading later plan fault =>
    let (time, s') := s.alarm deployment.options fault reading later plan
    (s', .alarm time)
  | .command call =>
    let (result, s') := deployment.execute call s
    (s', .lifecycle result)

end Deployment

/-! ## Frames -/

/-- A command leaves the tables of the decisions alone, and the last time seen, if there is one. -/
theorem execute_frame {deployment : Deployment} {call : SignedCall AuthorityOperatorCommand}
    {s s' : Storage} {result : Except Failure LifecycleOutcome}
    (h : deployment.execute call s = (result, s')) :
    s'.observations = s.observations ∧ s'.nonces = s.nonces ∧
      ∀ row, s.authorityMeta = some row → s'.authorityMeta = some row := by
  obtain ⟨hsame, -⟩ | ⟨receipt, status, -, -, -, hchanged⟩ := execute_cases h
  · refine ⟨hsame.observations, hsame.nonces, fun row hrow => ?_⟩
    rw [hsame.authorityMeta, hrow]
  · generalize call.command = command at hchanged
    cases hchanged with
    | initialization c hinit =>
      rw [hinit.effect]
      refine ⟨rfl, rfl, fun row hrow => ?_⟩
      have hempty : s.authorityMeta = none := hinit.empty
      rw [hempty] at hrow
      cases hrow
    | rotateRelease c row current hrotated =>
      rw [hrotated.effect]
      exact ⟨rfl, rfl, fun _ hrow => hrow⟩

/-! ## Times and decisions -/

/-- The release and the reading of a well-formed request. -/
def Op.request : Op → Option (String × ℤ)
  | .claimPre input reading _ _ _ =>
    if validPre input then some (input.releaseId, reading) else none
  | .consumePost input reading _ _ =>
    if validPost input then some (input.releaseId, reading) else none
  | _ => none

/-- The rows, the reading and the plan of a removal of old rows. -/
def Op.sweep : Op → Option (ℤ × ℤ × CleanupPlan)
  | .cleanup maximumRows reading plan _ => some (maximumRows, reading, plan)
  | .alarm reading _ plan _ => some (500, reading, plan)
  | _ => none

/-- The reading at which the authority takes a request up. -/
def Deployment.decidedAt (deployment : Deployment) (s : Storage) (op : Op) : Option ℤ :=
  match op.request with
  | some (releaseId, reading) =>
    if s.reads deployment.options releaseId reading then some reading else none
  | none => none

/-- The reading by which it removes old rows. -/
def Deployment.sweptAt (deployment : Deployment) (s : Storage) (op : Op) : Option ℤ :=
  match op.sweep with
  | some (maximumRows, reading, _) =>
    if s.sweeps deployment.options reading maximumRows then some reading else none
  | none => none

/-- An allowed decision. -/
structure Decision where
  stage : Stage
  client : String
  nowMs : ℤ
  deriving DecidableEq, Repr

def decisionOf : Op → Answer → Option Decision
  | .claimPre input reading _ _ _, .pre (.allowed _ _) => some ⟨.pre, input.clientPseudonym, reading⟩
  | .consumePost input reading _ _, .post .allowed => some ⟨.post, input.clientPseudonym, reading⟩
  | _, _ => none

/-! ## The effect of a call -/

/-- What a call did to the tables. -/
inductive Effect (deployment : Deployment) (s s' : Storage) : Op → Answer → Prop
  | idle {op answer} (undecided : decisionOf op answer = none) (same : s'.SameRows s) :
      Effect deployment s s' op answer
  | denied {op answer releaseId reading row} (request : op.request = some (releaseId, reading))
      (undecided : decisionOf op answer = none)
      (reads : Reads deployment.options releaseId reading s row)
      (eq : s' = s.createAuthoritySchema.seen row reading ∨
        s' = (s.createAuthoritySchema.seen row reading).pruned reading) :
      Effect deployment s s' op answer
  | claimed {input reading permit attempt fault row} (valid : validPre input = true)
      (reads : Reads deployment.options input.releaseId reading s row)
      (claimed : Storage.Claimed deployment.options reading permit attempt input row
        s.createAuthoritySchema s') :
      Effect deployment s s' (.claimPre input reading permit attempt fault)
        (.pre (.allowed permit (reading + PRE_PERMIT_LIFETIME_MS)))
  | consumed {input reading attempt fault row} (valid : validPost input = true)
      (reads : Reads deployment.options input.releaseId reading s row)
      (consumed : Storage.Consumed reading attempt input row s.createAuthoritySchema s') :
      Effect deployment s s' (.consumePost input reading attempt fault) (.post .allowed)
  | swept {op answer maximumRows reading plan row}
      (sweep : op.sweep = some (maximumRows, reading, plan))
      (undecided : decisionOf op answer = none)
      (sweeps : Sweeps deployment.options reading maximumRows s row)
      (eq : s' = s.createAuthoritySchema.cleaned plan maximumRows.toNat reading) :
      Effect deployment s s' op answer
  | command {call result} (executed : deployment.execute call s = (result, s')) :
      Effect deployment s s' (.command call) (.lifecycle result)

/-- **What a call can do.** -/
theorem step_effect (deployment : Deployment) (s : Storage) (op : Op) :
    Effect deployment s (deployment.step s op).1 op (deployment.step s op).2 := by
  cases op with
  | claimPre input reading permit attempt fault =>
    simp only [Deployment.step]
    rcases hcall : s.claimPre deployment.options fault reading permit attempt input with ⟨d, s'⟩
    obtain ⟨rfl, hsame⟩ | ⟨row, hvalid, hreads, ⟨rfl, rfl⟩ | ⟨hdenied, rfl⟩ | ⟨rfl, hclaimed⟩⟩ :=
      Storage.claimPre_cases hcall
    · exact .idle rfl hsame
    · exact .denied (by simp [Op.request, hvalid]) rfl hreads (.inl rfl)
    · refine .denied (by simp [Op.request, hvalid]) ?_ hreads (.inr rfl)
      rcases hdenied with rfl | rfl <;> rfl
    · exact .claimed hvalid hreads hclaimed
  | consumePost input reading attempt fault =>
    simp only [Deployment.step]
    rcases hcall : s.consumePost deployment.options fault reading attempt input with ⟨d, s'⟩
    obtain ⟨rfl, hsame⟩ | ⟨row, hvalid, hreads, ⟨hdenied, rfl⟩ | ⟨rfl, hconsumed⟩⟩ :=
      Storage.consumePost_cases hcall
    · exact .idle rfl hsame
    · refine .denied (by simp [Op.request, hvalid]) ?_ hreads (.inr rfl)
      cases d with
      | allowed => exact absurd rfl hdenied
      | limited | replay | unavailable => rfl
    · exact .consumed hvalid hreads hconsumed
  | cleanup maximumRows reading plan fault =>
    simp only [Deployment.step]
    rcases hcall : s.cleanup deployment.options fault reading plan maximumRows with ⟨answer, s'⟩
    obtain hsame | ⟨row, hsweeps, rfl⟩ := Storage.cleanup_cases hcall
    · exact .idle rfl hsame
    · exact .swept rfl rfl hsweeps rfl
  | alarm reading later plan fault =>
    simp only [Deployment.step, Storage.alarm]
    rcases hcall : s.cleanup deployment.options fault reading plan 500 with ⟨answer, s'⟩
    obtain hsame | ⟨row, hsweeps, rfl⟩ := Storage.cleanup_cases hcall
    · exact .idle rfl hsame
    · exact .swept rfl rfl hsweeps rfl
  | command call =>
    simp only [Deployment.step]
    rcases hcall : deployment.execute call s with ⟨result, s'⟩
    exact .command hcall

/-! ## The last time seen -/

/-- One call of a run. -/
abbrev Step := Entry Storage Op Answer

def Step.decision (e : Step) : Option Decision := decisionOf e.input e.out

theorem Reads.authorityMeta {options : AuthorityOptions} {releaseId : String} {reading : ℤ}
    {s : Storage} {row : MetaRow} (h : Reads options releaseId reading s row) :
    s.authorityMeta = some row :=
  (Option.filter_eq_some_iff.1 h.own).1

theorem decidedAt_eq_some {deployment : Deployment} {s : Storage} {op : Op} {releaseId : String}
    {reading : ℤ} {row : MetaRow} (hrequest : op.request = some (releaseId, reading))
    (hreads : Reads deployment.options releaseId reading s row) :
    deployment.decidedAt s op = some reading := by
  rw [Deployment.decidedAt, hrequest]
  exact if_pos (reads_iff.2 ⟨row, hreads⟩)

theorem sweptAt_eq_some {deployment : Deployment} {s : Storage} {op : Op} {row : MetaRow}
    {maximumRows reading : ℤ} {plan : CleanupPlan}
    (hsweep : op.sweep = some (maximumRows, reading, plan))
    (hsweeps : Sweeps deployment.options reading maximumRows s row) :
    deployment.sweptAt s op = some reading := by
  rw [Deployment.sweptAt, hsweep]
  exact if_pos (sweeps_iff.2 ⟨row, hsweeps⟩)

namespace Storage

variable {s s' : Storage} {row : MetaRow} {reading : ℤ} {attempt : String}

theorem Claimed.authorityMeta {options : AuthorityOptions} {permit : String} {input : ClaimPreInput}
    (h : Claimed options reading permit attempt input row s s') :
    s'.authorityMeta = some { row with lastNowMs := reading } := by
  obtain ⟨t, ht, rfl⟩ := h.effect
  rw [ht.eq]
  rfl

theorem markConsumed_authorityMeta (nonce : String) :
    (s.markConsumed nonce).authorityMeta = s.authorityMeta := by
  unfold markConsumed
  split <;> rfl

theorem markConsumed_observations (nonce : String) :
    (s.markConsumed nonce).observations = s.observations := by
  unfold markConsumed
  split <;> rfl

theorem markConsumed_activeReleases (nonce : String) :
    (s.markConsumed nonce).activeReleases = s.activeReleases := by
  unfold markConsumed
  split <;> rfl

theorem Consumed.authorityMeta {input : ConsumePostInput}
    (h : Consumed reading attempt input row s s') :
    s'.authorityMeta = some { row with lastNowMs := reading } := by
  obtain ⟨t, ht, rfl⟩ := h.effect
  rw [markConsumed_authorityMeta, ht.eq]
  rfl

end Storage

/-- The last time seen never steps back. -/
theorem Effect.lastNow_le {deployment : Deployment} {s s' : Storage} {op : Op} {answer : Answer}
    (h : Effect deployment s s' op answer) {row : MetaRow} (hrow : s.authorityMeta = some row) :
    ∃ row', s'.authorityMeta = some row' ∧ row.lastNowMs ≤ row'.lastNowMs := by
  cases h with
  | idle undecided same => exact ⟨row, same.authorityMeta.trans hrow, le_rfl⟩
  | denied request undecided reads eq =>
    cases hrow.symm.trans reads.authorityMeta
    rcases eq with rfl | rfl <;> exact ⟨_, rfl, reads.notBack⟩
  | claimed valid reads claimed =>
    cases hrow.symm.trans reads.authorityMeta
    exact ⟨_, claimed.authorityMeta, reads.notBack⟩
  | consumed valid reads consumed =>
    cases hrow.symm.trans reads.authorityMeta
    exact ⟨_, consumed.authorityMeta, reads.notBack⟩
  | swept sweep undecided sweeps eq =>
    rw [eq]
    exact ⟨row, hrow, le_rfl⟩
  | command executed => exact ⟨row, (execute_frame executed).2.2 row hrow, le_rfl⟩

/-- An allowed decision was taken at a reading that was taken up, and is now the last time seen. -/
theorem Effect.decision {deployment : Deployment} {s s' : Storage} {op : Op} {answer : Answer}
    (h : Effect deployment s s' op answer) {d : Decision} (hd : decisionOf op answer = some d) :
    deployment.decidedAt s op = some d.nowMs ∧ ∃ row, s.authorityMeta = some row ∧
      row.lastNowMs ≤ d.nowMs ∧ s'.authorityMeta = some { row with lastNowMs := d.nowMs } := by
  cases h with
  | idle undecided same | denied request undecided reads eq | swept sweep undecided sweeps eq =>
    rw [undecided] at hd
    cases hd
  | claimed valid reads claimed =>
    cases hd
    exact ⟨decidedAt_eq_some (by simp [Op.request, valid]) reads, _, reads.authorityMeta,
      reads.notBack, claimed.authorityMeta⟩
  | consumed valid reads consumed =>
    cases hd
    exact ⟨decidedAt_eq_some (by simp [Op.request, valid]) reads, _, reads.authorityMeta,
      reads.notBack, consumed.authorityMeta⟩
  | command executed => cases hd

/-- The allowed decisions of a run are all at times up to the last one seen. -/
def Timely (tr : List Step) (s : Storage) : Prop :=
  ∀ e ∈ tr, ∀ d ∈ e.decision, ∃ row, s.authorityMeta = some row ∧ d.nowMs ≤ row.lastNowMs

theorem Timely.snoc {deployment : Deployment} {tr : List Step} {s : Storage} (h : Timely tr s)
    (op : Op) : Timely (tr ++ [entry deployment.step s op]) (deployment.step s op).1 := by
  have heffect := step_effect deployment s op
  intro e he d hd
  rcases List.mem_append.1 he with he | he
  · obtain ⟨row, hrow, hle⟩ := h e he d hd
    obtain ⟨row', hrow', hle'⟩ := heffect.lastNow_le hrow
    exact ⟨row', hrow', hle.trans hle'⟩
  · rw [List.mem_singleton.1 he] at hd
    obtain ⟨-, row, -, -, hrow'⟩ := heffect.decision hd
    exact ⟨_, hrow', le_rfl⟩

/-! ## A sample authority -/

/-- The base64url of zero bytes. -/
def sampleText (n : ℕ) : String := String.ofList (List.replicate n 'A')

def sampleDeployment : Deployment where
  subtle :=
    { sha256 := fun _ => Vector.replicate 32 0
      importKey := fun _ => true
      verify := fun _ _ _ => true }
  publicKey := sampleText 43
  environment := .production

/-- The first release is active from time 0. -/
def sampleInitialization : SignedCall AuthorityOperatorCommand where
  command := .initialization
    { environment := .production
      authorityId := ADMISSION_AUTHORITY_ID
      releaseId := "r1"
      releaseKeyId := "k1"
      issuedAtMs := 0
      confirmProduction := true }
  signature := sampleText 86
  observed := 0

/-- What the first release leaves. -/
def sampleStorage : Storage where
  schema := true
  authorityMeta := some ⟨ADMISSION_AUTHORITY_ID, ADMISSION_POLICY_EPOCH, 0⟩
  activeReleases := [⟨"r1", "k1", 0, none⟩]
  lifecycleReceiptCoverage := true
  lifecycleReceipts :=
    [{ digest := String.ofList (List.replicate 64 '0')
       operation := .initialization
       environment := .production
       authorityId := ADMISSION_AUTHORITY_ID
       policyEpoch := ADMISSION_POLICY_EPOCH
       keyFingerprint := String.ofList (List.replicate 64 '0')
       currentReleaseId := "r1"
       nextReleaseId := "r1"
       nextKeyId := "k1"
       activatesMs := 0
       retiresMs := none
       appliedMs := 0
       sequence := 1 }]

theorem step_sampleInitialization :
    (sampleDeployment.step {} (.command sampleInitialization)).1 = sampleStorage := by
  decide +kernel

/-- A claim of the sample client, of an envelope issued at time 1000; its permit and the ids of its
observations derive from one text. -/
def sampleClaim (nonce drawn : String) (reading : ℤ) : Op :=
  .claimPre ⟨"r1", sampleText 43, sampleText 43, nonce, 1000⟩ reading drawn drawn

/-- Three claims at time 1000, a cleanup at 700000, and then a fourth claim and the first one again. -/
def sampleTraffic (later : ℤ) : List Op :=
  [sampleClaim "AAAAAAAAAAAAAAAAAAAAAA" "a" 1000, sampleClaim "BAAAAAAAAAAAAAAAAAAAAA" "b" 1000,
    sampleClaim "CAAAAAAAAAAAAAAAAAAAAA" "c" 1000, .cleanup 500 700000,
    sampleClaim "DAAAAAAAAAAAAAAAAAAAAA" "d" later, sampleClaim "AAAAAAAAAAAAAAAAAAAAAA" "e" later]

/-- The run of the sample traffic, after the first release. -/
theorem trace_sampleTraffic (later : ℤ) :
    trace sampleDeployment.step {} (.command sampleInitialization :: sampleTraffic later) =
      entry sampleDeployment.step {} (.command sampleInitialization) ::
        trace sampleDeployment.step sampleStorage (sampleTraffic later) := by
  rw [trace_cons, step_sampleInitialization]

end Limitmark.Authority
