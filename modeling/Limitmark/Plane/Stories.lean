import Limitmark.Plane.Front
import Limitmark.Plane.StageDecision

/-!
# The streams of the front

Every stream the front emits for one request tells one of four stories: L1 refused, L2 refused, the
egress failed, or the upstream responded. A story, the enrollment disposition if there is one, and
the terminal event are a finite list of events (`Story.emissions`), on which the rules of the
validators are evaluated once and for all. They hold of every story, but for the rules of the
decision itself (`validateL2_story`).

The validators do not read the numbers and the nonces of events outside the walk, so the rules are
evaluated on plain events, which have neither (`PlaneEvent.plain`).
-/

namespace Limitmark.Plane

open Limitmark.Defense Limitmark.Lanes Limitmark.Foundations Limitmark.Ledger
open FrontState (event decisionEvent verdictEvent acceptedEvent refusalStatus egressStatus)

/-! ## Plain events -/

/-- An event without its number and its nonce. -/
def plain (e : PlaneEvent) : PlaneEvent := { e with seq := 0, nonce := "" }

variable {view : LifecycleView} {plane : List PlaneEvent}

theorem first_map_plain (plane : List PlaneEvent) (kind : PlaneEventKind) :
    first (plane.map plain) kind = (first plane kind).map plain := by
  rw [first, List.find?_map]
  rfl

theorem has_map_plain (plane : List PlaneEvent) (kind : PlaneEventKind) :
    has (plane.map plain) kind = has plane kind := by
  rw [has, List.any_map]
  rfl

theorem countP_map_plain (p : PlaneEventKind → Bool) (plane : List PlaneEvent) :
    (plane.map plain).countP (fun e => p e.kind) = plane.countP fun e => p e.kind := by
  rw [List.countP_map]
  rfl

theorem planeStatusFor_plain (view : LifecycleView) :
    planeStatusFor { view with plane := view.plane.map plain } = planeStatusFor view := by
  have hverdict : (view.plane.map plain).find? (fun e => e.kind.isLayerVerdict) =
      (view.plane.find? fun e => e.kind.isLayerVerdict).map plain := by
    rw [List.find?_map]
    rfl
  simp only [planeStatusFor, hverdict, first_map_plain]
  cases view.plane.find? fun e => e.kind.isLayerVerdict <;>
    cases first view.plane .l2Decided <;> cases first view.plane .egressFailed <;>
    cases first view.plane .egressResponded <;> rfl

/-- The rules on the plain events are the rules on the events. -/
theorem rules_plain (view : LifecycleView) :
    resolutionRules { view with plane := view.plane.map plain } = resolutionRules view ∧
    verdictRules { view with plane := view.plane.map plain } = verdictRules view ∧
    statusRules { view with plane := view.plane.map plain } = statusRules view := by
  refine ⟨?_, ?_, ?_⟩
  · simp only [resolutionRules, List.map_map, List.map_eq_nil_iff]
    rfl
  · have h := countP_map_plain PlaneEventKind.isLayerVerdict view.plane
    simp only [verdictRules, h]
    rfl
  · simp only [statusRules, planeStatusFor_plain, first_map_plain]
    cases first view.plane .ingressResponded <;> cases planeStatusFor view <;> rfl

theorem dispositionRules_plain (view : LifecycleView) (decision : Option LaneDecision)
    (e : PlaneEvent) :
    dispositionRules { view with plane := view.plane.map plain } decision (plain e) =
      dispositionRules view decision e := by
  have hsim : LifecycleView.simulated { view with plane := view.plane.map plain } =
      view.simulated := by
    rw [LifecycleView.simulated, List.any_map]
    rfl
  unfold dispositionRules
  rw [hsim]
  dsimp only
  rw [has_map_plain]
  rfl

theorem validateL2_plain (view : LifecycleView) (final : Bool) :
    validateL2Lifecycle { view with plane := view.plane.map plain } final =
      validateL2Lifecycle view final := by
  have hstage : stageRules { view with plane := view.plane.map plain } final =
      stageRules view final := by
    have hentered := countP_map_plain (fun kind => kind = .l2Entered) view.plane
    have hdecided := countP_map_plain (fun kind => kind = .l2Decided) view.plane
    simp only [stageRules, has_map_plain, hentered, hdecided]
    rfl
  have hdecided : decidedRules { view with plane := view.plane.map plain } final =
      decidedRules view final := by
    simp only [decidedRules, egressRules, first_map_plain, has_map_plain]
    cases first view.plane .l2Decided <;> rfl
  have henrollment : enrollmentRules { view with plane := view.plane.map plain } =
      enrollmentRules view := by
    have hfilter : (view.plane.map plain).filter PlaneEvent.isDisposition =
        (view.plane.filter PlaneEvent.isDisposition).map plain := by
      rw [List.filter_map]
      rfl
    have hdecision : (first (view.plane.map plain) .l2Decided).bind decisionOf =
        (first view.plane .l2Decided).bind decisionOf := by
      rw [first_map_plain]
      cases first view.plane .l2Decided <;> rfl
    simp only [enrollmentRules, hfilter, hdecision, List.flatMap_map, List.length_map,
      dispositionRules_plain]
    rfl
  rw [validateL2Lifecycle, hstage, hdecided, henrollment]
  rfl

/-! ## Stories -/

/-- What a request came to. -/
inductive Story
  | refused (outcome : LayerOutcome)
  | refusedL2 (decision : LaneDecision)
  | failed (decision : Option LaneDecision) (proof : Option String) (kind : EgressErrorKind)
      (stage : Option FailStage)
  | responded (decision : Option LaneDecision) (proof : Option String) (status : ℕ)

/-- The events of an approval: L1 passed and, where there is L2, its decision proceeds. -/
def approvalEvents (accepted : PlaneEvent) (decision : Option LaneDecision) : List PlaneEvent :=
  [accepted, event .l1Entered, event .l1Passed] ++
    (match decision with
      | none => []
      | some decision => [event .l2Entered, decisionEvent decision])

/-- The events of an egress, up to its result. -/
def egressEvents (accepted : PlaneEvent) (decision : Option LaneDecision) (proof : Option String) :
    List PlaneEvent :=
  approvalEvents accepted decision ++ [event .egressAttempted] ++
    (match proof with
      | none => []
      | some pbTag => [{ event .proofIssued with pbTag := some pbTag }])

namespace Story

/-- The events of a story, up to the answer. -/
def events (accepted : PlaneEvent) : Story → List PlaneEvent
  | refused outcome => [accepted, event .l1Entered, verdictEvent outcome]
  | refusedL2 decision => approvalEvents accepted (some decision)
  | failed decision proof kind stage => egressEvents accepted decision proof ++
      [{ event .egressFailed with egressError := some kind, failStage := stage }]
  | responded decision proof status => egressEvents accepted decision proof ++
      [{ event .egressResponded with status := some status }]

/-- The status a story is answered with. -/
def status : Story → ℕ
  | refused outcome => refusalStatus outcome
  | refusedL2 _ => 503
  | failed _ _ kind _ => egressStatus kind
  | responded _ _ status => status

/-- The L2 decision of a story. -/
def decision : Story → Option LaneDecision
  | refused _ => none
  | refusedL2 decision => some decision
  | failed decision _ _ _ => decision
  | responded decision _ _ => decision

def isResponded : Story → Prop
  | responded _ _ _ => True
  | _ => False

end Story

/-- The fields an event of a decision carries are those of the decision. -/
structure Ordinary (d : LaneDecision) : Prop where
  basis : d.basis = none
  shadow : d.shadow = none
  lvl : d.dt = none → d.lvl = none
  lseq : d.dt = none → d.lseq = none

/-- A story of a composition: L2 decides where there is L2, and only a decision that proceeds is
followed by egress. -/
inductive Story.Legal (l2 : Bool) : Story → Prop
  | refused {outcome} : outcome ≠ .pass → Legal l2 (.refused outcome)
  | refusedL2 {d} : l2 = true → Ordinary d → proceeds d = false → Legal l2 (.refusedL2 d)
  | failed {decision proof kind stage} : decision.isSome = l2 →
      (∀ d, decision = some d → Ordinary d ∧ proceeds d = true) →
      Legal l2 (.failed decision proof kind stage)
  | responded {decision proof status} : decision.isSome = l2 →
      (∀ d, decision = some d → Ordinary d ∧ proceeds d = true) →
      Legal l2 (.responded decision proof status)

/-- A disposition that fits the decision of its request. -/
inductive Disposed (d : LaneDecision) (responded : Prop) : PlaneEvent → Prop
  | enrolled {creditTag fill} : responded → d.outcome = .admitted →
      Disposed d responded
        { event .l2Enrolled with creditTag := some creditTag, fill := some fill }
  | skipped {reason} : (reason = .degraded ↔ d.outcome = .degraded) → reason ≠ .simulated →
      Disposed d responded { event .l2EnrollSkipped with skipReason := some reason }

/-- A disposition is made of an open operation that proceeded to egress. -/
def Disposes (story : Story) (e : PlaneEvent) : Prop :=
  ∃ d, story.decision = some d ∧ d.cls = .open ∧ proceeds d = true ∧
    Disposed d story.isResponded e

/-- The terminal event of a story, as the response was flushed or not. -/
def terminalEvent (story : Story) (flushed : Bool) : PlaneEvent :=
  if flushed then { event .ingressResponded with status := some story.status }
  else event .ingressAborted

/-- A finished story. -/
def finished (req : IncomingRequest) (story : Story) (disposition : Option PlaneEvent)
    (flushed : Bool) : List PlaneEvent :=
  story.events (acceptedEvent req) ++ disposition.toList ++ [terminalEvent story flushed]

/-! ## The rules of the plane hold of every finished story -/

section Rules

variable {req : IncomingRequest} {story : Story} {disposition : Option PlaneEvent} {flushed : Bool}
  {l2 : Bool}

/-- The last event of a story, before the answer. -/
def Story.last : Story → PlaneEventKind
  | .refused outcome => (verdictEvent outcome).kind
  | .refusedL2 _ => .l2Decided
  | .failed _ _ _ _ => .egressFailed
  | .responded _ _ _ => .egressResponded

theorem accepts_egress {decision : Option LaneDecision} {proof : Option String}
    (hl2 : decision.isSome = l2) {kind : PlaneEventKind}
    (hkind : kind = .egressFailed ∨ kind = .egressResponded) :
    Accepts (planeSuccessors l2) none
        ((egressEvents (acceptedEvent req) decision proof).map PlaneEvent.kind ++ [kind]) := by
  subst hl2
  rcases hkind with rfl | rfl <;> cases decision <;> cases proof <;>
    simp [egressEvents, approvalEvents, planeSuccessors, acceptedEvent, event, decisionEvent,
      NEXT_PLANE_KINDS, NEXT_PLANE_KINDS_L2]

/-- The automaton accepts every story, up to its last event. -/
theorem accepts_story (req : IncomingRequest) (hlegal : story.Legal l2) :
    Accepts (planeSuccessors l2) none
        ((story.events (acceptedEvent req)).map PlaneEvent.kind) ∧
      stateAfter none ((story.events (acceptedEvent req)).map PlaneEvent.kind) =
        some story.last := by
  cases hlegal with
  | @refused outcome hne =>
    refine ⟨?_, rfl⟩
    cases l2 <;> cases outcome <;>
      simp_all [Story.events, acceptedEvent, event, verdictEvent, planeSuccessors,
        NEXT_PLANE_KINDS, NEXT_PLANE_KINDS_L2]
  | refusedL2 hl2 =>
    subst hl2
    refine ⟨?_, rfl⟩
    simp [Story.events, approvalEvents, acceptedEvent, event, decisionEvent, planeSuccessors,
      NEXT_PLANE_KINDS_L2]
  | failed hl2 =>
    rw [Story.events, List.map_append]
    exact ⟨accepts_egress hl2 (Or.inl rfl), stateAfter_concat _ _ _⟩
  | responded hl2 =>
    rw [Story.events, List.map_append]
    exact ⟨accepts_egress hl2 (Or.inr rfl), stateAfter_concat _ _ _⟩

/-- A disposition follows the last event of its story, and only where there is L2. -/
theorem Disposes.mem_successors {e : PlaneEvent} (h : Disposes story e) (hlegal : story.Legal l2) :
    l2 = true ∧ e.kind ∈ NEXT_PLANE_KINDS_L2 (some story.last) ∧
      (e.kind = .l2Enrolled ∨ e.kind = .l2EnrollSkipped) := by
  obtain ⟨d, hd, -, hproceeds, hdisposed⟩ := h
  cases hlegal with
  | refused => cases hd
  | refusedL2 _ _ hrefused =>
    obtain rfl := Option.some.inj hd
    rw [hrefused] at hproceeds
    cases hproceeds
  | failed hl2 =>
    rw [Story.decision] at hd
    rw [hd] at hl2
    cases hdisposed with
    | enrolled hresponded => exact absurd hresponded id
    | skipped => exact ⟨hl2.symm, by simp [Story.last, event, NEXT_PLANE_KINDS_L2], Or.inr rfl⟩
  | responded hl2 =>
    rw [Story.decision] at hd
    rw [hd] at hl2
    cases hdisposed with
    | enrolled => exact ⟨hl2.symm, by simp [Story.last, event, NEXT_PLANE_KINDS_L2], Or.inl rfl⟩
    | skipped => exact ⟨hl2.symm, by simp [Story.last, event, NEXT_PLANE_KINDS_L2], Or.inr rfl⟩

theorem terminalEvent_kind (story : Story) (flushed : Bool) :
    (terminalEvent story flushed).kind = .ingressResponded ∨
      (terminalEvent story flushed).kind = .ingressAborted := by
  cases flushed
  · exact Or.inr rfl
  · exact Or.inl rfl

/-- A terminal event may follow the last event of every story. -/
theorem terminal_mem_successors (hlegal : story.Legal l2) {kind : PlaneEventKind}
    (hkind : kind = .ingressResponded ∨ kind = .ingressAborted) :
    kind ∈ planeSuccessors l2 (some story.last) := by
  cases hlegal with
  | @refused outcome hne =>
    cases l2 <;> cases outcome <;> rcases hkind with rfl | rfl <;>
      simp_all [Story.last, verdictEvent, event, planeSuccessors, NEXT_PLANE_KINDS,
        NEXT_PLANE_KINDS_L2]
  | refusedL2 hl2 =>
    subst hl2
    rcases hkind with rfl | rfl <;> simp [Story.last, planeSuccessors, NEXT_PLANE_KINDS_L2]
  | failed =>
    cases l2 <;> rcases hkind with rfl | rfl <;>
      simp [Story.last, planeSuccessors, NEXT_PLANE_KINDS, NEXT_PLANE_KINDS_L2]
  | responded =>
    cases l2 <;> rcases hkind with rfl | rfl <;>
      simp [Story.last, planeSuccessors, NEXT_PLANE_KINDS, NEXT_PLANE_KINDS_L2]

/-- **The automaton accepts every finished story.** -/
theorem accepts_finished (hlegal : story.Legal l2)
    (hdisposes : ∀ e, disposition = some e → Disposes story e) :
    Accepts (planeSuccessors l2) none
      ((finished req story disposition flushed).map PlaneEvent.kind) := by
  obtain ⟨haccepts, hstate⟩ := accepts_story req hlegal
  have hterminal := terminalEvent_kind story flushed
  rw [finished, List.append_assoc, List.map_append, accepts_append, hstate]
  refine ⟨haccepts, ?_⟩
  cases hdisp : disposition with
  | none => exact ⟨terminal_mem_successors hlegal hterminal, trivial⟩
  | some e =>
    obtain ⟨rfl, hmem, hkind⟩ := (hdisposes e hdisp).mem_successors hlegal
    refine ⟨hmem, ?_, trivial⟩
    rcases hkind with hkind | hkind <;> rcases hterminal with hterminal | hterminal <;>
      simp [hkind, hterminal, planeSuccessors, NEXT_PLANE_KINDS_L2]

end Rules

end Limitmark.Plane
