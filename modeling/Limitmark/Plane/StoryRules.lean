import Limitmark.Plane.Stories

/-!
# The rules of a finished story

The rules of the validators on a finished story, evaluated rule by rule: it has one terminal event
and one verdict of L1, it answers with the status its events prescribe, and, where there is L2, it
breaks no rule of the stage. What is left are the rules of the decision itself (`validate_finished`).
-/

namespace Limitmark.Plane

open Limitmark.Defense Limitmark.Lanes Limitmark.Foundations Limitmark.Ledger
open FrontState (event decisionEvent verdictEvent acceptedEvent refusalStatus egressStatus)

/-! ## The first event of a kind -/

theorem first_append (a b : List PlaneEvent) (kind : PlaneEventKind) :
    first (a ++ b) kind = (first a kind).or (first b kind) :=
  List.find?_append

theorem has_eq_isSome_first (plane : List PlaneEvent) (kind : PlaneEventKind) :
    has plane kind = (first plane kind).isSome := by
  rw [Bool.eq_iff_iff, has, first, List.any_eq_true, List.find?_isSome]

theorem first_eq_none {a : List PlaneEvent} {kind : PlaneEventKind}
    (h : ∀ e ∈ a, e.kind ≠ kind) : first a kind = none := by
  rw [first, List.find?_eq_none]
  intro e he
  simp [h e he]

section Finished

variable {req : IncomingRequest} {story : Story} {disposition : Option PlaneEvent} {flushed l2 : Bool}

/-- The events after the answer of a story. -/
def ending (story : Story) (disposition : Option PlaneEvent) (flushed : Bool) : List PlaneEvent :=
  disposition.toList ++ [terminalEvent story flushed]

theorem finished_eq :
    finished req story disposition flushed =
      story.events (acceptedEvent req) ++ ending story disposition flushed := by
  rw [finished, ending, List.append_assoc]

theorem Disposes.kind {e : PlaneEvent} (h : Disposes story e) :
    e.kind = .l2Enrolled ∨ e.kind = .l2EnrollSkipped := by
  obtain ⟨d, -, -, -, h⟩ := h
  cases h
  · exact Or.inl rfl
  · exact Or.inr rfl

/-- The events after the answer are a disposition and a terminal event. -/
theorem kind_of_mem_ending (hdisposes : ∀ e, disposition = some e → Disposes story e)
    {e : PlaneEvent} (he : e ∈ ending story disposition flushed) :
    e.kind = .l2Enrolled ∨ e.kind = .l2EnrollSkipped ∨ e.kind = .ingressResponded ∨
      e.kind = .ingressAborted := by
  rcases List.mem_append.1 he with he | he
  · rcases (hdisposes e (Option.mem_toList.1 he)).kind with h | h
    · exact Or.inl h
    · exact Or.inr (Or.inl h)
  · obtain rfl := List.mem_singleton.1 he
    exact Or.inr (Or.inr (terminalEvent_kind story flushed))

/-- What a story shows of a kind is not changed by its ending. -/
theorem first_finished (hdisposes : ∀ e, disposition = some e → Disposes story e)
    {kind : PlaneEventKind} (hkind : kind ≠ .l2Enrolled ∧ kind ≠ .l2EnrollSkipped ∧
      kind ≠ .ingressResponded ∧ kind ≠ .ingressAborted) :
    first (finished req story disposition flushed) kind =
      first (story.events (acceptedEvent req)) kind := by
  have hnone : first (ending story disposition flushed) kind = none := by
    apply first_eq_none
    rintro e he rfl
    rcases kind_of_mem_ending hdisposes he with h | h | h | h <;> simp [h] at hkind
  rw [finished_eq, first_append, hnone, Option.or_none]

theorem countP_ending {p : PlaneEvent → Bool}
    (hp : ∀ e, p e = true → e.kind ≠ .l2Enrolled ∧ e.kind ≠ .l2EnrollSkipped ∧
      e.kind ≠ .ingressResponded ∧ e.kind ≠ .ingressAborted)
    (hdisposes : ∀ e, disposition = some e → Disposes story e) :
    (finished req story disposition flushed).countP p =
      (story.events (acceptedEvent req)).countP p := by
  have hnone : (ending story disposition flushed).countP p = 0 := by
    rw [List.countP_eq_zero]
    intro e he htrue
    have h := hp e htrue
    rcases kind_of_mem_ending hdisposes he with h' | h' | h' | h' <;> simp [h'] at h
  rw [finished_eq, List.countP_append, hnone, Nat.add_zero]

/-! ## What a story shows -/

/-- The verdict of L1 in a story. -/
def Story.verdict : Story → PlaneEvent
  | .refused outcome => verdictEvent outcome
  | _ => verdictEvent .pass

/-- The failure of the egress in a story, if it failed. -/
def Story.failure : Story → Option PlaneEvent
  | .failed _ _ kind stage =>
    some { event .egressFailed with egressError := some kind, failStage := stage }
  | _ => none

/-- The answer of the upstream in a story, if it answered. -/
def Story.response : Story → Option PlaneEvent
  | .responded _ _ status => some { event .egressResponded with status := some status }
  | _ => none

/-- What the rules ask of the events of a story. -/
structure Shown (story : Story) (plane : List PlaneEvent) : Prop where
  verdict : plane.find? (fun e => e.kind.isLayerVerdict) = some story.verdict
  verdicts : plane.countP (fun e => e.kind.isLayerVerdict) = 1
  decided : first plane .l2Decided = story.decision.map decisionEvent
  failed : first plane .egressFailed = story.failure
  responded : first plane .egressResponded = story.response
  l1Entered : has plane .l1Entered = true
  l2Entered : has plane .l2Entered = story.decision.isSome
  attempted : has plane .egressAttempted = (story.failure.isSome || story.response.isSome)
  entries : plane.countP (fun e => e.kind = .l2Entered) =
    plane.countP fun e => e.kind = .l2Decided

theorem shown_egress {decision : Option LaneDecision} {proof : Option String} {last : PlaneEvent}
    (hlast : last.kind = .egressFailed ∨ last.kind = .egressResponded) {story : Story}
    (hverdict : story.verdict = verdictEvent .pass) (hdecision : story.decision = decision)
    (hfailure : story.failure = if last.kind = .egressFailed then some last else none)
    (hresponse : story.response = if last.kind = .egressResponded then some last else none) :
    Shown story (egressEvents (acceptedEvent req) decision proof ++ [last]) := by
  rcases hlast with hlast | hlast <;> cases decision <;> cases proof <;> constructor <;>
    simp [egressEvents, approvalEvents, acceptedEvent, event, decisionEvent, verdictEvent, first,
      has, PlaneEventKind.isLayerVerdict, hverdict, hdecision, hfailure, hresponse, hlast]

/-- The events of a story show it. -/
theorem shown_events (hlegal : story.Legal l2) :
    Shown story (story.events (acceptedEvent req)) := by
  cases hlegal with
  | @refused outcome =>
    cases outcome <;> constructor <;>
      simp_all [Story.events, Story.verdict, Story.decision, Story.failure, Story.response,
        acceptedEvent, event, verdictEvent, first, has, PlaneEventKind.isLayerVerdict]
  | refusedL2 =>
    constructor <;>
      simp [Story.events, Story.verdict, Story.decision, Story.failure, Story.response,
        approvalEvents, acceptedEvent, event, verdictEvent, decisionEvent, first, has,
        PlaneEventKind.isLayerVerdict]
  | failed => exact shown_egress (Or.inl rfl) rfl rfl rfl rfl
  | responded => exact shown_egress (Or.inr rfl) rfl rfl rfl rfl

/-- The events of a finished story show it. -/
theorem shown_finished (hlegal : story.Legal l2)
    (hdisposes : ∀ e, disposition = some e → Disposes story e) :
    Shown story (finished req story disposition flushed) := by
  have h : Shown story (story.events (acceptedEvent req)) := shown_events hlegal
  have hfirst {kind : PlaneEventKind} (hkind : kind ≠ .l2Enrolled ∧ kind ≠ .l2EnrollSkipped ∧
      kind ≠ .ingressResponded ∧ kind ≠ .ingressAborted) :
      first (finished req story disposition flushed) kind =
        first (story.events (acceptedEvent req)) kind := first_finished hdisposes hkind
  constructor
  · rw [finished_eq, List.find?_append, h.verdict, Option.some_or]
  · rw [countP_ending _ hdisposes, h.verdicts]
    intro e he
    cases hkind : e.kind <;> simp_all [PlaneEventKind.isLayerVerdict]
  · rw [hfirst (by decide), h.decided]
  · rw [hfirst (by decide), h.failed]
  · rw [hfirst (by decide), h.responded]
  · rw [has_eq_isSome_first, hfirst (by decide), ← has_eq_isSome_first, h.l1Entered]
  · rw [has_eq_isSome_first, hfirst (by decide), ← has_eq_isSome_first, h.l2Entered]
  · rw [has_eq_isSome_first, hfirst (by decide), ← has_eq_isSome_first, h.attempted]
  · rw [countP_ending _ hdisposes, countP_ending _ hdisposes, h.entries] <;>
    · intro e he
      simp_all

/-! ## The rules -/

/-- A view of a finished story. -/
def storyView (view : LifecycleView) (req : IncomingRequest) (story : Story)
    (disposition : Option PlaneEvent) (flushed : Bool) : LifecycleView :=
  { view with plane := finished req story disposition flushed }

theorem resolution_finished (view : LifecycleView) :
    resolutionRules (storyView view req story disposition flushed) = [] := by
  have hstate : stateAfter none ((finished req story disposition flushed).map PlaneEvent.kind) =
      some (terminalEvent story flushed).kind := by
    rw [finished, List.map_append]
    exact stateAfter_concat _ _ _
  have hne : finished req story disposition flushed ≠ [] := by simp [finished]
  have hterminal : (terminalEvent story flushed).kind.isTerminal = true := by
    cases flushed <;> rfl
  simp [resolutionRules, storyView, hne, hstate, hterminal]

theorem verdict_finished (view : LifecycleView)
    (hshown : Shown story (finished req story disposition flushed)) :
    verdictRules (storyView view req story disposition flushed) = [] := by
  simp [verdictRules, storyView, hshown.verdicts]

theorem decisionEvent_outcome (d : LaneDecision) : (decisionEvent d).outcome = some d.outcome := rfl

/-- The events of a story prescribe its status. -/
theorem planeStatusFor_finished (view : LifecycleView) (hl2 : view.l2 = l2)
    (hlegal : story.Legal l2)
    (hshown : Shown story (finished req story disposition flushed)) :
    planeStatusFor (storyView view req story disposition flushed) = some story.status := by
  simp only [planeStatusFor, storyView, hshown.verdict, hshown.decided, hshown.failed,
    hshown.responded, hl2]
  cases hlegal with
  | @refused outcome hne =>
    cases outcome with
    | pass => exact absurd rfl hne
    | _ => rfl
  | @refusedL2 d htrue _ hrefused =>
    cases houtcome : d.outcome <;>
      simp_all [Story.verdict, Story.decision, Story.status, verdictEvent, event, proceeds,
        decisionEvent_outcome]
  | @failed decision _ kind _ hdecision hproceeds =>
    cases decision with
    | none => cases kind <;> simp [Story.verdict, Story.decision, Story.failure, Story.status,
        verdictEvent, event, egressStatus]
    | some d =>
      have hgo := (hproceeds d rfl).2
      cases houtcome : d.outcome <;> cases kind <;>
        simp_all [Story.verdict, Story.decision, Story.failure, Story.status, verdictEvent, event,
          proceeds, decisionEvent_outcome, egressStatus]
  | @responded decision _ status hdecision hproceeds =>
    cases decision with
    | none => simp [Story.verdict, Story.decision, Story.failure, Story.response, Story.status,
        verdictEvent, event]
    | some d =>
      have hgo := (hproceeds d rfl).2
      cases houtcome : d.outcome <;>
        simp_all [Story.verdict, Story.decision, Story.failure, Story.response, Story.status,
          verdictEvent, event, proceeds, decisionEvent_outcome]

/-- What holds of each emission of the handler holds of the events of a story. -/
theorem forall_events {P : PlaneEvent → Prop} (haccepted : P (acceptedEvent req))
    (hentered : P (event .l1Entered)) (hverdict : ∀ outcome, P (verdictEvent outcome))
    (hl2 : P (event .l2Entered))
    (hdecided : ∀ d, story.decision = some d → P (decisionEvent d))
    (hattempted : P (event .egressAttempted))
    (hproof : ∀ pbTag, P { event .proofIssued with pbTag := some pbTag })
    (hfailed : ∀ kind stage,
      P { event .egressFailed with egressError := some kind, failStage := stage })
    (hresponded : ∀ status, P { event .egressResponded with status := some status }) :
    ∀ e ∈ story.events (acceptedEvent req), P e := by
  have hpassed : P (event .l1Passed) := hverdict .pass
  have hegress {decision : Option LaneDecision} {proof : Option String}
      (h : ∀ d, decision = some d → P (decisionEvent d)) :
      ∀ e ∈ egressEvents (acceptedEvent req) decision proof, P e := by
    cases decision <;> cases proof <;> simp_all [egressEvents, approvalEvents, event]
  cases story with
  | refused outcome => simp_all [Story.events, event]
  | refusedL2 d => simp_all [Story.events, Story.decision, approvalEvents, event]
  | failed | responded =>
    intro e he
    rcases List.mem_append.1 he with he | he
    · exact hegress hdecided e he
    · rw [List.mem_singleton.1 he]
      simp_all

/-- No event of a story is an answer. -/
theorem first_events_ingressResponded :
    first (story.events (acceptedEvent req)) .ingressResponded = none := by
  apply first_eq_none
  apply forall_events <;> try simp [acceptedEvent, event, decisionEvent]
  intro outcome
  cases outcome <;> simp [verdictEvent, event]

/-- The front answers with the status its events prescribe. -/
theorem status_finished (view : LifecycleView) (hl2 : view.l2 = l2) (hlegal : story.Legal l2)
    (hdisposes : ∀ e, disposition = some e → Disposes story e) :
    statusRules (storyView view req story disposition flushed) = [] := by
  have hshown : Shown story (finished req story disposition flushed) :=
    shown_finished hlegal hdisposes
  have hdisposition : first disposition.toList .ingressResponded = none := by
    apply first_eq_none
    intro e he
    rcases (hdisposes e (Option.mem_toList.1 he)).kind with h | h <;> simp [h]
  have hfirst : first (finished req story disposition flushed) .ingressResponded =
      first [terminalEvent story flushed] .ingressResponded := by
    rw [finished_eq, ending, first_append, first_append, first_events_ingressResponded,
      hdisposition, Option.none_or, Option.none_or]
  rw [statusRules, planeStatusFor_finished view hl2 hlegal hshown]
  simp only [storyView, hfirst]
  cases flushed <;> simp [first, terminalEvent, event]

/-! ## The rules of L2 -/

theorem stage_finished (view : LifecycleView) (final : Bool) (hl2 : l2 = true)
    (hlegal : story.Legal l2) (hshown : Shown story (finished req story disposition flushed)) :
    stageRules (storyView view req story disposition flushed) final = [] := by
  have hdecision : story.failure.isSome || story.response.isSome → story.decision.isSome := by
    cases hlegal with
    | refused => simp [Story.failure, Story.response]
    | refusedL2 => simp [Story.decision]
    | failed h => simp [Story.decision, h, hl2]
    | responded h => simp [Story.decision, h, hl2]
  simp only [stageRules, storyView, List.append_eq_nil_iff, LifecycleView.check_eq_nil,
    hshown.attempted, hshown.l1Entered, hshown.l2Entered, hshown.entries]
  refine ⟨⟨⟨by simp, ?_⟩, lt_irrefl _⟩, ?_⟩
  · rintro ⟨h, -, hnone⟩
    exact hnone (hdecision h)
  · rintro ⟨-, hone, hzero, -⟩
    omega

/-- An event reports the decision it was made of. -/
theorem decisionOf_decisionEvent {d : LaneDecision} (h : Ordinary d) :
    decisionOf (decisionEvent d) = some d := by
  obtain ⟨hbasis, hshadow, hlvl, hlseq⟩ := h
  cases d with
  | mk cls lane outcome shedReason errorKind creditTag spent touched dt lvl lseq basis shadow =>
    subst hbasis hshadow
    cases dt with
    | none =>
      obtain rfl := hlvl rfl
      obtain rfl := hlseq rfl
      rfl
    | some dt => rfl

theorem Story.Legal.ordinary {d : LaneDecision} (hlegal : story.Legal l2)
    (hd : story.decision = some d) : Ordinary d := by
  cases hlegal with
  | refused => cases hd
  | refusedL2 _ hordinary =>
    obtain rfl := Option.some.inj hd
    exact hordinary
  | failed _ h => exact (h d hd).1
  | responded _ h => exact (h d hd).1

/-- The rules of the decision are what is left of the rules of a decided request. -/
theorem decided_finished (view : LifecycleView) (final : Bool) (hlegal : story.Legal l2)
    (hshown : Shown story (finished req story disposition flushed)) :
    decidedRules (storyView view req story disposition flushed) final = [] ↔
      ∀ d, story.decision = some d → decisionRules view d = [] := by
  have hegress : ∀ d, story.decision = some d →
      egressRules (storyView view req story disposition flushed) final d = [] := by
    intro d hd
    simp only [egressRules, storyView, List.append_eq_nil_iff, LifecycleView.check_eq_nil,
      hshown.attempted]
    cases hlegal with
    | refused => cases hd
    | refusedL2 _ _ hrefused =>
      obtain rfl := Option.some.inj hd
      simp [Story.failure, Story.response, hrefused]
    | failed _ h => simp [Story.failure, (h d hd).2]
    | responded _ h => simp [Story.response, (h d hd).2]
  rw [decidedRules]
  simp only [storyView, hshown.decided]
  cases hd : story.decision with
  | none => simp
  | some d =>
    have hrules : decisionRules (storyView view req story disposition flushed) d =
        decisionRules view d := rfl
    have hnone := hegress d hd
    simp only [storyView] at hnone hrules
    simp [decisionOf_decisionEvent (hlegal.ordinary hd), hnone, hrules]

/-- No verdict of a story is a simulated one. -/
theorem simulated_finished (view : LifecycleView) (req : IncomingRequest) (flushed : Bool)
    (hlegal : story.Legal l2)
    (hdisposes : ∀ e, disposition = some e → Disposes story e) :
    (storyView view req story disposition flushed).simulated = false := by
  have hevents : ∀ e ∈ story.events (acceptedEvent req), ¬ e.basis = some .simulated := by
    apply forall_events <;> try simp [acceptedEvent, event]
    · intro outcome
      cases outcome <;> simp [verdictEvent, event]
    · intro d hd
      simp [decisionEvent, (hlegal.ordinary hd).basis]
  rw [LifecycleView.simulated, List.any_eq_false]
  intro e he
  rw [decide_eq_true_eq]
  rw [storyView, finished_eq] at he
  rcases List.mem_append.1 he with he | he
  · exact hevents e he
  · rcases List.mem_append.1 he with he | he
    · obtain ⟨d, -, -, -, h⟩ := hdisposes e (Option.mem_toList.1 he)
      cases h <;> simp [event]
    · rw [List.mem_singleton.1 he]
      cases flushed <;> simp [terminalEvent, event]

/-- The dispositions of a finished story. -/
theorem dispositions_finished (hdisposes : ∀ e, disposition = some e → Disposes story e) :
    (finished req story disposition flushed).filter PlaneEvent.isDisposition =
      disposition.toList := by
  have hevents : (story.events (acceptedEvent req)).filter PlaneEvent.isDisposition = [] := by
    rw [List.filter_eq_nil_iff]
    apply forall_events <;> try simp [acceptedEvent, event, decisionEvent, PlaneEvent.isDisposition]
    intro outcome
    cases outcome <;> simp [verdictEvent, event]
  have hdisposition : disposition.toList.filter PlaneEvent.isDisposition =
      disposition.toList := by
    rw [List.filter_eq_self]
    intro e he
    rcases (hdisposes e (Option.mem_toList.1 he)).kind with h | h <;>
      simp [PlaneEvent.isDisposition, h]
  have hterminal : [terminalEvent story flushed].filter PlaneEvent.isDisposition = [] := by
    cases flushed <;> rfl
  rw [finished, List.filter_append, List.filter_append, hevents, hdisposition, hterminal,
    List.nil_append, List.append_nil]

theorem disposition_finished (view : LifecycleView) (hlegal : story.Legal l2)
    (hdisposes : ∀ e, disposition = some e → Disposes story e)
    (hshown : Shown story (finished req story disposition flushed)) {e : PlaneEvent}
    (he : disposition = some e) :
    dispositionRules (storyView view req story disposition flushed) story.decision e = [] := by
  have hsim := simulated_finished view req flushed hlegal hdisposes
  obtain ⟨d, hd, hopen, hproceeds, hdisposed⟩ := hdisposes e he
  have hkept : story.decision.filter (fun d => decide (d.cls = .open) && proceeds d) = some d := by
    rw [hd]
    simp [hopen, hproceeds]
  rw [dispositionRules]
  simp only [hkept]
  cases hdisposed with
  | enrolled hresponded hadmitted =>
    have hhas : has (finished req story disposition flushed) .egressResponded = true := by
      rw [has_eq_isSome_first, hshown.responded]
      cases story with
      | responded => rfl
      | _ => exact absurd hresponded id
    simp only [storyView] at hsim
    simp [storyView, event, hsim, hadmitted, hhas]
  | @skipped reason hdegraded hne =>
    simp [storyView, event, hdegraded, hne]

/-- A finished story has one disposition at most, and for the right reason. -/
theorem enrollment_finished (view : LifecycleView) (hlegal : story.Legal l2)
    (hdisposes : ∀ e, disposition = some e → Disposes story e)
    (hshown : Shown story (finished req story disposition flushed)) :
    enrollmentRules (storyView view req story disposition flushed) = [] := by
  have hdecision : (first (finished req story disposition flushed) .l2Decided).bind decisionOf =
      story.decision := by
    rw [hshown.decided]
    cases hd : story.decision with
    | none => rfl
    | some d => exact decisionOf_decisionEvent (hlegal.ordinary hd)
  have hrules := fun e (he : disposition = some e) =>
    disposition_finished view hlegal hdisposes hshown he
  simp only [storyView] at hrules
  simp only [enrollmentRules, storyView, dispositions_finished hdisposes, hdecision]
  cases disposition with
  | none => simp
  | some e => simp [hrules e rfl]

/-- **The rules of a finished story.** A view of a finished story, whatever the numbers and the
nonces of its events, breaks no rule of the plane; the rules of L2 hold exactly when those of its
decision do. -/
theorem validate_finished {view : LifecycleView} (final : Bool)
    (hplane : view.plane.map plain = finished req story disposition flushed)
    (hl2 : view.l2 = l2) (hprotected : view.protectedLike = true) (hlegal : story.Legal l2)
    (hdisposes : ∀ e, disposition = some e → Disposes story e) :
    resolutionRules view = [] ∧ verdictRules view = [] ∧ statusRules view = [] ∧
      (validateL2Lifecycle view final = [] ↔
        ∀ d, story.decision = some d → decisionRules view d = []) := by
  have hshown : Shown story (finished req story disposition flushed) :=
    shown_finished hlegal hdisposes
  obtain ⟨hresolution, hverdict, hstatus⟩ := rules_plain view
  have hvalidate := validateL2_plain view final
  rw [hplane] at hresolution hverdict hstatus hvalidate
  refine ⟨?_, ?_, ?_, ?_⟩
  · rw [← hresolution]
    exact resolution_finished view
  · rw [← hverdict]
    exact verdict_finished view hshown
  · rw [← hstatus]
    exact status_finished view hl2 hlegal hdisposes
  · rw [← hvalidate, ← decided_finished view final hlegal hshown, validateL2Lifecycle]
    cases l2 with
    | false =>
      have hnone : story.decision = none := by
        cases hlegal with
        | refused => rfl
        | refusedL2 h => cases h
        | failed h | responded h => simpa [Story.decision] using h
      have hdecided := (decided_finished view final hlegal hshown).2 (by simp [hnone])
      rw [if_neg (by simp [hl2])]
      exact iff_of_true rfl hdecided
    | true =>
      have hstage := stage_finished view final rfl hlegal hshown
      have henrollment := enrollment_finished view hlegal hdisposes hshown
      simp only [storyView] at hstage henrollment
      rw [if_pos ⟨hl2, hprotected⟩]
      simp only [storyView, hstage, henrollment, List.nil_append, List.append_nil]

end Finished

end Limitmark.Plane
