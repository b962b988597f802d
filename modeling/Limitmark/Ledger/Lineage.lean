import Limitmark.Ledger.Lifecycle

/-!
# The lineage of one request

The lineage validator of `defense/core/lineage.ts`, over the plane, boundary and app streams of one
request. The boundary and the app each have an automaton of their own; the rules then ask that the
identifiers of the three streams agree, lane by lane, and at the end that nothing is left open.
-/

namespace Limitmark.Ledger

open Limitmark.Defense Limitmark.Foundations

/-! ## Texts -/

def reasonText : ObReason → String
  | .proofMissing => "ob.proof_missing"
  | .proofDuplicate => "ob.proof_duplicate"
  | .proofOversize => "ob.proof_oversize"
  | .proofMalformed => "ob.proof_malformed"
  | .wrongHop => "ob.wrong_hop"
  | .versionUnsupported => "ob.version_unsupported"
  | .keyUnknown => "ob.key_unknown"
  | .audienceMismatch => "ob.audience_mismatch"
  | .lifetimeInvalid => "ob.lifetime_invalid"
  | .notYetValid => "ob.not_yet_valid"
  | .expired => "ob.expired"
  | .beforeFence => "ob.before_fence"
  | .methodMismatch => "ob.method_mismatch"
  | .targetMismatch => "ob.target_mismatch"
  | .headerUnbound => "ob.header_unbound"
  | .headerDuplicate => "ob.header_duplicate"
  | .headerValueInvalid => "ob.header_value_invalid"
  | .headerMismatch => "ob.header_mismatch"
  | .lengthMismatch => "ob.length_mismatch"
  | .framingInvalid => "ob.framing_invalid"
  | .signatureInvalid => "ob.signature_invalid"
  | .lineageMissing => "ob.lineage_missing"
  | .lineageMismatch => "ob.lineage_mismatch"
  | .replayed => "ob.replayed"
  | .replayCacheFull => "ob.replay_cache_full"
  | .digestMismatch => "ob.digest_mismatch"
  | .contentIncomplete => "ob.content_incomplete"
  | .expectRefused => "ob.expect_refused"
  | .canonError => "ob.canon_error"

def BoundaryEventKind.text : BoundaryEventKind → String
  | .boundaryArrived => "BOUNDARY_ARRIVED"
  | .boundaryRejected => "BOUNDARY_REJECTED"
  | .boundaryAdmitted => "BOUNDARY_ADMITTED"
  | .appProofIssued => "APP_PROOF_ISSUED"
  | .boundaryForwarded => "BOUNDARY_FORWARDED"
  | .boundaryForwardResponded => "BOUNDARY_FORWARD_RESPONDED"
  | .boundaryForwardFailed => "BOUNDARY_FORWARD_FAILED"
  | .boundaryResponded => "BOUNDARY_RESPONDED"
  | .boundaryAborted => "BOUNDARY_ABORTED"
  | .boundaryParserRejected => "BOUNDARY_PARSER_REJECTED"
  | .boundaryProtocolRefused => "BOUNDARY_PROTOCOL_REFUSED"

def AppEventKind.text : AppEventKind → String
  | .appAdmitted => "APP_ADMITTED"
  | .appRefused => "APP_REFUSED"
  | .appExecuted => "APP_EXECUTED"
  | .appMutated => "APP_MUTATED"
  | .appCompleted => "APP_COMPLETED"
  | .appAborted => "APP_ABORTED"

/-! ## The automata of the hop gates -/

def NEXT_BOUNDARY_KINDS : Option BoundaryEventKind → List BoundaryEventKind
  | none => [.boundaryArrived]
  | some .boundaryArrived => [.boundaryRejected, .boundaryAdmitted]
  | some .boundaryRejected => [.boundaryResponded, .boundaryAborted]
  | some .boundaryAdmitted => [.appProofIssued, .boundaryResponded, .boundaryAborted]
  | some .appProofIssued => [.boundaryForwarded]
  | some .boundaryForwarded => [.boundaryForwardResponded, .boundaryForwardFailed]
  | some .boundaryForwardResponded | some .boundaryForwardFailed =>
    [.boundaryResponded, .boundaryAborted]
  | some .boundaryResponded | some .boundaryAborted => []
  | some .boundaryParserRejected | some .boundaryProtocolRefused => []

def NEXT_APP_KINDS : Option AppEventKind → List AppEventKind
  | none => [.appAdmitted, .appRefused]
  | some .appRefused => []
  | some .appAdmitted => [.appExecuted, .appCompleted, .appAborted]
  | some .appExecuted => [.appMutated, .appCompleted, .appAborted]
  | some .appMutated => [.appCompleted, .appAborted]
  | some .appCompleted | some .appAborted => []

def BOUNDARY_RANK : BoundaryEventKind → ℕ
  | .boundaryArrived => 1
  | .boundaryRejected | .boundaryAdmitted => 2
  | .appProofIssued => 3
  | .boundaryForwarded => 4
  | .boundaryForwardResponded | .boundaryForwardFailed => 5
  | .boundaryResponded | .boundaryAborted => 6
  | .boundaryParserRejected | .boundaryProtocolRefused => 0

def APP_RANK : AppEventKind → ℕ
  | .appAdmitted | .appRefused => 1
  | .appExecuted => 2
  | .appMutated => 3
  | .appCompleted | .appAborted => 4

section Automaton

variable {κ : Type} [DecidableEq κ] (view : LifecycleView) (text : κ → String)
  (next : Option κ → List κ) (rank : κ → ℕ)

/-- A stream of a hop gate, its kinds and numbers in order, against its successor table. -/
def automaton (previous : Option κ) (seen : List κ) (lastSeq : ℤ) : List (κ × ℤ) → List Anomaly
  | [] => []
  | (kind, seq) :: events =>
    let step := (previous.map text).getD "START" ++ ">" ++ text kind
    view.check (seq ≤ lastSeq) .impossibleOrder ("seq " ++ text kind) ++
    view.check (kind ∉ next previous)
      (if previous ≠ none ∧ next previous = [] then .duplicateTerminal
      else if kind ∈ seen then .duplicateEvent
      else if rank kind ≤ (previous.map rank).getD 0 then .impossibleOrder
      else .missingTransition) step ++
    automaton (some kind) (kind :: seen) seq events

/-- The automaton finds nothing exactly on the streams it accepts, numbered upwards. -/
theorem automaton_eq_nil (previous : Option κ) (seen : List κ) (lastSeq : ℤ)
    (events : List (κ × ℤ)) :
    automaton view text next rank previous seen lastSeq events = [] ↔
      Accepts next previous (events.map Prod.fst) ∧
        (lastSeq :: events.map Prod.snd).IsChain (· < ·) := by
  induction events generalizing previous seen lastSeq with
  | nil => simp [automaton]
  | cons event events ih =>
    simp only [automaton, List.append_eq_nil_iff, LifecycleView.check_eq_nil, ih, List.map_cons,
      accepts_cons, List.isChain_cons_cons, not_le, not_not]
    tauto

end Automaton

def boundaryWalk (view : LifecycleView) (boundary : List BoundaryEvent) : List Anomaly :=
  automaton view BoundaryEventKind.text NEXT_BOUNDARY_KINDS BOUNDARY_RANK none [] (-1)
    (boundary.map fun event => (event.kind, event.seq))

def appWalk (view : LifecycleView) (app : List AppEvent) : List Anomaly :=
  automaton view AppEventKind.text NEXT_APP_KINDS APP_RANK none [] (-1)
    (app.map fun event => (event.kind, event.seq))

theorem boundaryWalk_eq_nil (view : LifecycleView) (boundary : List BoundaryEvent) :
    boundaryWalk view boundary = [] ↔
      Accepts NEXT_BOUNDARY_KINDS none (boundary.map BoundaryEvent.kind) ∧
        (-1 :: boundary.map BoundaryEvent.seq).IsChain (· < ·) := by
  rw [boundaryWalk, automaton_eq_nil, List.map_map, List.map_map]
  rfl

theorem appWalk_eq_nil (view : LifecycleView) (app : List AppEvent) :
    appWalk view app = [] ↔ Accepts NEXT_APP_KINDS none (app.map AppEvent.kind) ∧
      (-1 :: app.map AppEvent.seq).IsChain (· < ·) := by
  rw [appWalk, automaton_eq_nil, List.map_map, List.map_map]
  rfl

/-! ## What the streams show -/

/-- The first boundary event of a kind. -/
def firstBoundary (boundary : List BoundaryEvent) (kind : BoundaryEventKind) :
    Option BoundaryEvent :=
  boundary.find? fun event => event.kind = kind

/-- The first app event of a kind. -/
def firstApp (app : List AppEvent) (kind : AppEventKind) : Option AppEvent :=
  app.find? fun event => event.kind = kind

/-- The identifiers of an admission by the app go back to the hop and the proof it starts from. -/
def chainAgrees (root : Option String) (hop : Option ℤ) (admitted issuedBa : Option BoundaryEvent)
    (appAdmitted : AppEvent) : Bool :=
  match root, hop, admitted, issuedBa with
  | some root, some hop, some admitted, some issuedBa =>
    admitted.hop = some hop && admitted.pbTag = some root && issuedBa.hop = some hop &&
      issuedBa.pbTag = some root && appAdmitted.hop = some hop && appAdmitted.pbTag = some root &&
      issuedBa.baTag.isSome && appAdmitted.baTag = issuedBa.baTag
  | _, _, _, _ => false

/-- The whole authenticated chain of a protected request is there, and its identifiers agree. -/
def protectedLineageComplete (view : LifecycleView) : Bool :=
  let boundary := view.boundary.getD []
  match first view.plane .proofIssued, firstApp (view.app.getD []) .appAdmitted with
  | some issuedPb, some appAdmitted =>
    chainAgrees issuedPb.pbTag ((first view.plane .egressAttempted).map PlaneEvent.seq)
      (firstBoundary boundary .boundaryAdmitted) (firstBoundary boundary .appProofIssued)
      appAdmitted
  | _, _ => false

/-! ## The validator -/

/-- A direct attempt, which no gate may admit. -/
def directRules (view : LifecycleView) (boundary : List BoundaryEvent) (app : List AppEvent) :
    List Anomaly :=
  view.check (view.expected = .directAppRejected ∧ boundary ≠ []) .boundaryLaneMismatch
    view.expected.text ++
  view.check ((firstBoundary boundary .boundaryAdmitted).isSome ∨
      (firstBoundary boundary .appProofIssued).isSome) .directNotRejected
    "boundary admitted a direct attempt" ++
  view.check ((firstApp app .appAdmitted).isSome ∨ (firstApp app .appExecuted).isSome ∨
      (firstApp app .appCompleted).isSome) .directAppExecution
    "application admitted or executed a direct attempt" ++
  view.check (firstApp app .appMutated).isSome .directAppMutation
    "application mutated state for a direct attempt"

def BoundaryEvent.hops (boundary : List BoundaryEvent) (app : List AppEvent) : List ℤ :=
  boundary.filterMap BoundaryEvent.hop ++ app.filterMap AppEvent.hop

/-- Where the chain of a request starts: at the plane on the protected lane, at the boundary on a
positive control. -/
def startRules (view : LifecycleView) (final : Bool) (boundary : List BoundaryEvent)
    (app : List AppEvent) : List Anomaly :=
  let hops := BoundaryEvent.hops boundary app
  let admitted := firstBoundary boundary .boundaryAdmitted
  let attempted := first view.plane .egressAttempted
  let issuedPb := first view.plane .proofIssued
  if view.expected = .protectedLane then
    view.check (∃ hop ∈ hops, ORACLE_HOP_BASE ≤ hop) .hopRangeViolation
      "oracle-range hop in a protected lane" ++
    view.check (final = true ∧ attempted.isSome ∧ issuedPb = none ∧
      first view.plane .egressFailed = none) .missingTransition "PROOF_ISSUED" ++
    (match firstBoundary boundary .boundaryRejected with
      | some rejected =>
        view.check True .boundaryRejectedPlaneEgress
          ((rejected.reason.map reasonText).getD "unknown")
      | none => []) ++
    view.check (admitted.any fun admitted =>
        attempted.all fun attempted => issuedPb.all fun issuedPb =>
          !(admitted.hop = some attempted.seq && admitted.pbTag = issuedPb.pbTag))
      .boundaryHopMismatch "ADMITTED does not match the plane's hop/proof" ++
    view.check (final = true ∧ (first view.plane .egressResponded).isSome ∧ admitted = none)
      .planeEgressNotAdmitted "plane saw a response with no boundary admission"
  else
    view.check (∃ hop ∈ hops, hop < ORACLE_HOP_BASE) .hopRangeViolation
      "plane-range hop in a positive control"

/-- Whether the app's admission has the complete chain behind it. -/
def lineageOf (view : LifecycleView) (boundary : List BoundaryEvent) (appAdmitted : AppEvent) :
    Bool :=
  let admitted := firstBoundary boundary .boundaryAdmitted
  if view.expected = .positiveControlApp then
    boundary = [] && appAdmitted.baTag.isSome && appAdmitted.pbTag.isSome
  else
    let root := if view.expected = .protectedLane then
      (first view.plane .proofIssued).bind PlaneEvent.pbTag else admitted.bind BoundaryEvent.pbTag
    let hop := if view.expected = .protectedLane then
      (first view.plane .egressAttempted).map PlaneEvent.seq else admitted.bind BoundaryEvent.hop
    chainAgrees root hop admitted (firstBoundary boundary .appProofIssued) appAdmitted

/-- The app acts only with the complete chain behind it. -/
def appRules (view : LifecycleView) (boundary : List BoundaryEvent) (app : List AppEvent) :
    List Anomaly :=
  let lineage := (firstApp app .appAdmitted).any (lineageOf view boundary)
  let executed := (firstApp app .appExecuted).isSome
  view.check ((firstApp app .appAdmitted).isSome ∧ ¬ lineage) .appAdmitWithoutLineage
    view.expected.text ++
  view.check (executed ∧ ¬ lineage) .appExecutionWithoutLineage view.expected.text ++
  view.check ((firstApp app .appMutated).isSome ∧ ¬ (executed ∧ lineage)) .appMutationWithoutLineage
    view.expected.text ++
  view.check (view.expected = .positiveControlApp ∧ boundary ≠ []) .boundaryLaneMismatch
    view.expected.text

/-- Nothing is left open at the end. -/
def finalRules (view : LifecycleView) (boundary : List BoundaryEvent) (app : List AppEvent) :
    List Anomaly :=
  let arrived := (firstBoundary boundary .boundaryArrived).isSome
  let appAdmitted := firstApp app .appAdmitted
  let lineage := appAdmitted.any (lineageOf view boundary)
  view.check (arrived ∧ firstBoundary boundary .boundaryRejected = none ∧
      firstBoundary boundary .boundaryAdmitted = none) .boundaryDecisionMissing
    "arrived without a decision" ++
  view.check (arrived ∧ firstBoundary boundary .boundaryResponded = none ∧
      firstBoundary boundary .boundaryAborted = none) .unresolvedAtFinalization "boundary" ++
  (match firstApp app .appRefused with
    | some refused =>
      view.check ((firstBoundary boundary .appProofIssued).isSome ∧ appAdmitted = none)
        .appRefusedBoundaryAdmitted ((refused.reason.map reasonText).getD "unknown")
    | none => []) ++
  view.check ((firstBoundary boundary .boundaryForwardResponded).isSome ∧ appAdmitted = none)
    .missingTransition "APP_ADMITTED" ++
  view.check (appAdmitted.isSome ∧ firstApp app .appCompleted = none ∧
      firstApp app .appAborted = none) .unresolvedAtFinalization "app" ++
  (match firstBoundary boundary .boundaryForwardResponded, firstApp app .appCompleted with
    | some responded, some completed =>
      view.check (responded.status ≠ completed.status) .originStatusMismatch
        (optionText "undefined" completed.status ++ ">" ++ optionText "undefined" responded.status)
    | _, _ => []) ++
  view.check ((view.expected = .positiveControlBoundary ∨ view.expected = .positiveControlApp) ∧
      ¬ lineage) .positiveControlFailed
    (view.expected.text ++ " was not admitted with a complete lineage")

/-- Validates the lineage of one request. A run without hop gates has no streams to validate. -/
def validateOriginLineage (view : LifecycleView) (final : Bool) : List Anomaly :=
  let boundary := view.boundary.getD []
  let app := view.app.getD []
  if view.boundary = none ∧ view.app = none then []
  else
    boundaryWalk view boundary ++ appWalk view app ++
    view.check (1 < app.countP fun event => event.kind = .appMutated) .duplicateEvent
      "APP_MUTATED" ++
    (match view.expected with
      | .controlLane | .preIngress =>
        view.check (boundary ≠ [] ∨ app ≠ []) .boundaryLaneMismatch view.expected.text
      | .directBoundaryRejected | .directAppRejected => directRules view boundary app
      | _ =>
        startRules view final boundary app ++ appRules view boundary app ++
          (if final then finalRules view boundary app else []))

/-! ## What an open boundary is -/

theorem LifecycleView.mem_check {view : LifecycleView} {fault : Prop} [Decidable fault]
    {code : AnomalyCode} {detail : String} {anomaly : Anomaly} :
    anomaly ∈ view.check fault code detail ↔ fault ∧ anomaly = ⟨code, view.nonce, detail⟩ := by
  by_cases h : fault <;> simp [check, h]

/-- What the walk of an automaton can find. -/
theorem code_of_mem_automaton {κ : Type} [DecidableEq κ] {view : LifecycleView}
    {text : κ → String} {next : Option κ → List κ} {rank : κ → ℕ} {previous : Option κ}
    {seen : List κ} {lastSeq : ℤ} {events : List (κ × ℤ)} {anomaly : Anomaly}
    (h : anomaly ∈ automaton view text next rank previous seen lastSeq events) :
    anomaly.code ∈ [AnomalyCode.impossibleOrder, .duplicateTerminal, .duplicateEvent,
      .missingTransition] := by
  induction events generalizing previous seen lastSeq with
  | nil => cases h
  | cons event events ih =>
    simp only [automaton, List.mem_append, LifecycleView.mem_check] at h
    rcases h with (⟨-, rfl⟩ | ⟨-, rfl⟩) | h
    · simp
    · dsimp only
      split_ifs <;> simp
    · exact ih h

/-- Only the final rules report a request left open or undecided. -/
theorem mem_finalRules {view : LifecycleView} {boundary : List BoundaryEvent}
    (hboundary : view.boundary = some boundary) {anomaly : Anomaly}
    (hcode : anomaly.code = .unresolvedAtFinalization ∨ anomaly.code = .boundaryDecisionMissing)
    (h : anomaly ∈ validateOriginLineage view true) :
    anomaly ∈ finalRules view boundary (view.app.getD []) := by
  have hwalk : anomaly ∉ boundaryWalk view boundary := fun hmem => by
    have hcodes := code_of_mem_automaton hmem
    rcases hcode with hcode | hcode <;> simp [hcode] at hcodes
  have happ : anomaly ∉ appWalk view (view.app.getD []) := fun hmem => by
    have hcodes := code_of_mem_automaton hmem
    rcases hcode with hcode | hcode <;> simp [hcode] at hcodes
  have hcheck {fault : Prop} [Decidable fault] {code : AnomalyCode} {detail : String}
      (hne : code ≠ .unresolvedAtFinalization) (hne' : code ≠ .boundaryDecisionMissing) :
      anomaly ∉ view.check fault code detail := fun hmem => by
    obtain ⟨-, rfl⟩ := LifecycleView.mem_check.1 hmem
    rcases hcode with hcode | hcode
    · exact hne hcode
    · exact hne' hcode
  have hdirect : anomaly ∉ directRules view boundary (view.app.getD []) := by
    simp [directRules, hcheck]
  have hstart : anomaly ∉ startRules view true boundary (view.app.getD []) := by
    rw [startRules]
    split_ifs
    · cases firstBoundary boundary .boundaryRejected <;> simp [hcheck]
    · simp [hcheck]
  have hrules : anomaly ∉ appRules view boundary (view.app.getD []) := by
    simp [appRules, hcheck]
  rw [validateOriginLineage] at h
  simp only [hboundary, Option.getD_some, reduceCtorEq, false_and, if_false, if_true,
    List.mem_append, hwalk, happ, false_or] at h
  rcases h with h | h
  · exact absurd h (hcheck (by decide) (by decide))
  · split at h
    · exact absurd h (hcheck (by decide) (by decide))
    · exact absurd h (hcheck (by decide) (by decide))
    · exact absurd h hdirect
    · exact absurd h hdirect
    · simpa [hstart, hrules] using h

/-- A boundary stream with a decision and a terminal event is neither undecided nor left open. -/
theorem resolved_of_mem_finalRules {view : LifecycleView} {boundary : List BoundaryEvent}
    {app : List AppEvent}
    (hdecision : firstBoundary boundary .boundaryRejected ≠ none ∨
      firstBoundary boundary .boundaryAdmitted ≠ none)
    (hterminal : firstBoundary boundary .boundaryResponded ≠ none ∨
      firstBoundary boundary .boundaryAborted ≠ none) {anomaly : Anomaly}
    (h : anomaly ∈ finalRules view boundary app) :
    anomaly ≠ ⟨.unresolvedAtFinalization, view.nonce, "boundary"⟩ ∧
      anomaly.code ≠ .boundaryDecisionMissing := by
  have hcheck {fault : Prop} [Decidable fault] {code : AnomalyCode} {detail : String}
      (hmem : anomaly ∈ view.check fault code detail)
      (hne : code ≠ .unresolvedAtFinalization ∨ detail ≠ "boundary")
      (hne' : code ≠ .boundaryDecisionMissing) :
      anomaly ≠ ⟨.unresolvedAtFinalization, view.nonce, "boundary"⟩ ∧
        anomaly.code ≠ .boundaryDecisionMissing := by
    obtain ⟨-, rfl⟩ := LifecycleView.mem_check.1 hmem
    refine ⟨fun heq => ?_, hne'⟩
    injection heq with hcode _ hdetail
    rcases hne with hne | hne
    · exact hne hcode
    · exact hne hdetail
  simp only [finalRules, List.mem_append] at h
  rcases h with (((((h | h) | h) | h) | h) | h) | h
  · obtain ⟨hfault, -⟩ := LifecycleView.mem_check.1 h
    tauto
  · obtain ⟨hfault, -⟩ := LifecycleView.mem_check.1 h
    tauto
  · split at h
    · exact hcheck h (Or.inl (by decide)) (by decide)
    · cases h
  · exact hcheck h (Or.inl (by decide)) (by decide)
  · exact hcheck h (Or.inr (by decide)) (by decide)
  · split at h
    · exact hcheck h (Or.inl (by decide)) (by decide)
    · cases h
  · exact hcheck h (Or.inl (by decide)) (by decide)

theorem boundary_resolved {view : LifecycleView} {boundary : List BoundaryEvent}
    (hboundary : view.boundary = some boundary)
    (hdecision : firstBoundary boundary .boundaryRejected ≠ none ∨
      firstBoundary boundary .boundaryAdmitted ≠ none)
    (hterminal : firstBoundary boundary .boundaryResponded ≠ none ∨
      firstBoundary boundary .boundaryAborted ≠ none) {anomaly : Anomaly}
    (h : anomaly ∈ validateOriginLineage view true) :
    anomaly ≠ ⟨.unresolvedAtFinalization, view.nonce, "boundary"⟩ ∧
      anomaly.code ≠ .boundaryDecisionMissing := by
  by_cases hcode : anomaly.code = .unresolvedAtFinalization ∨
      anomaly.code = .boundaryDecisionMissing
  · exact resolved_of_mem_finalRules hdecision hterminal (mem_finalRules hboundary hcode h)
  · rw [not_or] at hcode
    refine ⟨?_, hcode.2⟩
    rintro rfl
    exact hcode.1 rfl

end Limitmark.Ledger
