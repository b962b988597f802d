import Limitmark.External.ReducerBounds
import Limitmark.Ledger.NoBypass

/-!
# Requests and their interleavings

A request of the external lane as its three streams, and the calls that deliver the streams of a set
of requests in any order (`Interleaves`). A clean request is one the validators find nothing in; what
the reducer needs of it is that its streams are accepted by their automata and its plane stream ends
(`Request.Clean.accepts`, `Request.Clean.terminal_iff`). An awaited request sends nothing downstream
that the reducer does not wait for, so that the reducer takes it for complete only when all of it has
come (`Request.complete_of_satisfied`).
-/

namespace Limitmark.External

open Limitmark.Defense Limitmark.Ledger Limitmark.Foundations

/-! ## Streams of events -/

def planes (events : List StreamEvent) : List PlaneEvent :=
  events.filterMap fun | .plane event => some event | _ => none

def boundaries (events : List StreamEvent) : List BoundaryEvent :=
  events.filterMap fun | .boundary event => some event | _ => none

def apps (events : List StreamEvent) : List AppEvent :=
  events.filterMap fun | .app event => some event | _ => none

@[simp] theorem planes_append (events events' : List StreamEvent) :
    planes (events ++ events') = planes events ++ planes events' := List.filterMap_append

@[simp] theorem boundaries_append (events events' : List StreamEvent) :
    boundaries (events ++ events') = boundaries events ++ boundaries events' :=
  List.filterMap_append

@[simp] theorem apps_append (events events' : List StreamEvent) :
    apps (events ++ events') = apps events ++ apps events' := List.filterMap_append

@[simp] theorem streams_events (orphan : Orphan) :
    planes orphan.events = [] ∧ boundaries orphan.events = orphan.boundary ∧
      apps orphan.events = orphan.app := by
  simp [Orphan.events, planes, boundaries, apps, List.filterMap_map]

/-- A record that holds these events. -/
structure Active.Shows (record : Active) (events : List StreamEvent) : Prop where
  plane : record.plane = planes events
  boundary : record.boundary = boundaries events
  app : record.app = apps events
  origin : record.origin = (apps events).filterMap originOf

theorem Active.Shows.push {record : Active} {events : List StreamEvent} (h : record.Shows events)
    (event : StreamEvent) : (record.push event).Shows (events ++ [event]) := by
  obtain ⟨hplane, hboundary, happ, horigin⟩ := h
  cases event with
  | plane event =>
    constructor <;>
      simp [Active.push, hplane, hboundary, happ, horigin, planes, boundaries, apps]
  | boundary event =>
    constructor <;>
      simp [Active.push, hplane, hboundary, happ, horigin, planes, boundaries, apps]
  | app event =>
    constructor
    case origin =>
      cases hlegacy : originOf event <;> simp [Active.push, horigin, apps, hlegacy]
    all_goals simp [Active.push, hplane, hboundary, happ, planes, boundaries, apps]

theorem Active.Shows.congr {record : Active} {old new : List StreamEvent} (h : record.Shows old)
    (hplane : planes new = planes old) (hboundary : boundaries new = boundaries old)
    (happ : apps new = apps old) : record.Shows new :=
  ⟨hplane ▸ h.plane, hboundary ▸ h.boundary, happ ▸ h.app, happ ▸ h.origin⟩

/-- The streams of the events are within the cap. -/
def Fitting (limits : ExternalLimits) (events : List StreamEvent) : Prop :=
  (planes events).length ≤ limits.maxEventsPerStream ∧
  (boundaries events).length ≤ limits.maxEventsPerStream ∧
  (apps events).length ≤ limits.maxEventsPerStream

theorem Fitting.of_append {limits : ExternalLimits} {events rest : List StreamEvent}
    (h : Fitting limits (events ++ rest)) : Fitting limits events := by
  obtain ⟨hplane, hboundary, happ⟩ := h
  simp only [planes_append, boundaries_append, apps_append, List.length_append]
    at hplane hboundary happ
  exact ⟨by omega, by omega, by omega⟩

/-- An event within the caps is appended without a report. -/
theorem Active.Shows.append {limits : ExternalLimits} {record : Active} {events : List StreamEvent}
    (h : record.Shows events) {event : StreamEvent} (hfit : Fitting limits (events ++ [event])) :
    record.append limits event = (record.push event, []) := by
  obtain ⟨hplane, hboundary, happ⟩ := hfit
  simp only [planes_append, boundaries_append, apps_append, List.length_append, ← h.plane,
    ← h.boundary, ← h.app] at hplane hboundary happ
  rw [Active.append, if_neg]
  cases event with
  | plane event => exact not_le.2 hplane
  | boundary event => exact not_le.2 hboundary
  | app event => exact not_le.2 happ

/-- Events within the caps are appended without a report. -/
theorem Active.Shows.appendAll {limits : ExternalLimits} {record : Active}
    {events rest : List StreamEvent} (h : record.Shows events)
    (hfit : Fitting limits (events ++ rest)) :
    (record.appendAll limits rest).1.Shows (events ++ rest) ∧
      (record.appendAll limits rest).2 = [] := by
  induction rest generalizing record events with
  | nil =>
    rw [List.append_nil]
    exact ⟨h, rfl⟩
  | cons event rest ih =>
    rw [List.append_cons] at hfit ⊢
    have happend := h.append hfit.of_append
    obtain ⟨hshows, hquiet⟩ := ih (h.push event) hfit
    simp only [Active.appendAll, happend, List.nil_append]
    exact ⟨hshows, hquiet⟩

/-! ## Requests -/

/-- A request of a remote peer: its nonce and its three streams. -/
structure Request where
  nonce : String
  plane : List PlaneEvent
  boundary : List BoundaryEvent
  app : List AppEvent
  deriving DecidableEq, Repr

def Active.request (record : Active) : Request :=
  ⟨record.nonce, record.plane, record.boundary, record.app⟩

/-- The record of a request when all of it has come. -/
def Request.whole (request : Request) : Active :=
  { rid := "x", nonce := request.nonce, plane := request.plane, boundary := request.boundary
    app := request.app, origin := request.app.filterMap originOf, openedAt := 0 }

/-- A completed request the validators find nothing in, opened by an external ingress. -/
structure Request.Clean (request : Request) : Prop where
  found : request.whole.found = []
  ingress : request.plane.head?.any fun event => event.ingress = some .external

instance (request : Request) : Decidable request.Clean :=
  decidable_of_iff (request.whole.found = [] ∧
    request.plane.head?.any fun event => event.ingress = some .external)
    ⟨fun h => ⟨h.1, h.2⟩, fun h => ⟨h.1, h.2⟩⟩

/-- An egress the boundary may have seen. -/
def reachesBoundary (plane : List PlaneEvent) : Bool :=
  has plane .egressAttempted &&
  !(plane.any fun event => event.kind = .egressFailed && event.failStage.isSome) &&
  !(plane.any fun event => event.kind = .egressFailed && event.egressError = some .refused)

def boundaryEnded (boundary : List BoundaryEvent) : Bool :=
  boundary.any fun event => event.kind = .boundaryResponded || event.kind = .boundaryAborted

/-- Nothing comes from downstream that the reducer does not wait for. -/
structure Request.Awaited (request : Request) : Prop where
  upstream : reachesBoundary request.plane = false → request.boundary = [] ∧ request.app = []
  forwarded : boundaryEnded request.boundary = true → request.app ≠ [] →
    request.boundary.any fun event => event.kind = .boundaryForwardResponded

instance (request : Request) : Decidable request.Awaited :=
  decidable_of_iff
    ((reachesBoundary request.plane = false → request.boundary = [] ∧ request.app = []) ∧
      (boundaryEnded request.boundary = true → request.app ≠ [] →
        request.boundary.any fun event => event.kind = .boundaryForwardResponded))
    ⟨fun h => ⟨h.1, h.2⟩, fun h => ⟨h.1, h.2⟩⟩

theorem Active.downstreamSatisfied_eq (record : Active) :
    record.downstreamSatisfied = (!reachesBoundary record.plane ||
      (boundaryEnded record.boundary &&
        (!(record.boundary.any fun event => event.kind = .boundaryForwardResponded) ||
          record.app.any fun event => event.kind = .appCompleted || event.kind = .appAborted ||
            event.kind = .appRefused))) := by
  simp only [downstreamSatisfied, reachesBoundary, boundaryEnded]
  generalize has record.plane .egressAttempted = attempted
  generalize (record.plane.any fun event => _ && event.failStage.isSome) = unsigned
  generalize (record.plane.any fun event => _ && _) = refused
  generalize (record.boundary.any fun event => _ || _) = ended
  generalize (record.boundary.any fun event => _) = forwarded
  cases attempted <;> cases unsigned <;> cases refused <;> cases ended <;> cases forwarded <;> simp

/-! ### What a clean request is -/

namespace Request

variable {request : Request}

theorem Clean.rules (h : request.Clean) :
    validateLifecycle request.whole.view true = [] ∧
    validateOriginLineage { request.whole.view with expected := .protectedLane } true = [] := by
  have hfound := h.found
  simp only [Active.found, List.append_eq_nil_iff] at hfound
  exact hfound.1

theorem Clean.accepts (h : request.Clean) :
    Accepts NEXT_PLANE_KINDS_L2 none (request.plane.map PlaneEvent.kind) :=
  have hlike : request.whole.view.protectedLike = true := rfl
  accepts_of_clean hlike rfl h.rules.1

/-- The plane stream of a clean request ends. -/
theorem Clean.ends (h : request.Clean) :
    ∃ events last, request.plane = events ++ [last] ∧ last.kind.isTerminal = true := by
  have hrules := h.rules.1
  simp only [validateLifecycle, List.append_eq_nil_iff] at hrules
  have hplane := hrules.1.1.2
  have hlike : request.whole.view.protectedLike = true := rfl
  simp only [planeRules, hlike, if_true, List.append_eq_nil_iff] at hplane
  have hresolved := hplane.1.1.2
  rw [resolutionRules] at hresolved
  change (if request.plane = [] then _ else _) = [] at hresolved
  split at hresolved
  · simp at hresolved
  · next hne =>
    simp only [List.append_eq_nil_iff, LifecycleView.check_eq_nil, not_not] at hresolved
    rcases List.eq_nil_or_concat request.plane with hnil | ⟨events, last, hlast⟩
    · exact absurd hnil hne
    · refine ⟨events, last, by rw [hlast, List.concat_eq_append], ?_⟩
      have hstate := hresolved.1
      change (stateAfter none (request.plane.map PlaneEvent.kind)).any _ = true at hstate
      rwa [hlast, List.concat_eq_append, List.map_append, List.map_singleton, stateAfter_concat]
        at hstate

/-- An event of the plane is terminal exactly when it is the last. -/
theorem Clean.terminal_iff (h : request.Clean) {events rest : List PlaneEvent} {event : PlaneEvent}
    (hplane : request.plane = events ++ event :: rest) : event.kind.isTerminal = true ↔ rest = [] := by
  constructor
  · intro hterminal
    have haccepts := h.accepts
    rw [hplane, List.append_cons] at haccepts
    refine eq_nil_of_accepts_final _ haccepts
      (List.mem_append_right _ (List.mem_singleton.2 rfl)) ?_
    revert hterminal
    cases event.kind <;> decide
  · rintro rfl
    obtain ⟨events', last, hends, hterminal⟩ := h.ends
    rw [hplane] at hends
    obtain ⟨-, heq⟩ := List.append_inj' hends rfl
    rw [List.cons.injEq] at heq
    rwa [heq.1]

/-- The first event of the plane, and no other, is the accepted ingress. -/
theorem Clean.ingress_iff (h : request.Clean) {events rest : List PlaneEvent} {event : PlaneEvent}
    (hplane : request.plane = events ++ event :: rest) :
    (event.kind = .ingressAccepted ∧ event.ingress = some .external) ↔ events = [] := by
  have haccepts := h.accepts
  rw [hplane] at haccepts
  constructor
  · rintro ⟨hkind, -⟩
    refine eq_nil_of_accepts _ haccepts ?_
    rw [hkind]
    exact fun state => predecessor_of_proofKinds.1
  · rintro rfl
    rw [List.nil_append, List.map_cons, accepts_cons] at haccepts
    have hingress := h.ingress
    rw [hplane] at hingress
    exact ⟨by simpa [NEXT_PLANE_KINDS_L2] using haccepts.1, by simpa using hingress⟩

theorem Clean.downstream (h : request.Clean) :
    Accepts NEXT_BOUNDARY_KINDS none (request.boundary.map BoundaryEvent.kind) ∧
    Accepts NEXT_APP_KINDS none (request.app.map AppEvent.kind) := by
  have hrules := h.rules.2
  simp only [validateOriginLineage] at hrules
  rw [if_neg (by rintro ⟨hnone, -⟩; cases hnone)] at hrules
  simp only [List.append_eq_nil_iff] at hrules
  exact ⟨((boundaryWalk_eq_nil _ _).1 hrules.1.1.1).1, ((appWalk_eq_nil _ _).1 hrules.1.1.2).1⟩

/-- **The reducer takes an awaited request for complete only when all of it has come.** -/
theorem complete_of_satisfied (h : request.Clean) (hawaited : request.Awaited) {record : Active}
    (hplane : record.plane = request.plane) (hboundary : record.boundary <+: request.boundary)
    (happ : record.app <+: request.app) (hsatisfied : record.downstreamSatisfied = true) :
    record.boundary = request.boundary ∧ record.app = request.app := by
  obtain ⟨boundaryRest, hboundary⟩ := hboundary
  obtain ⟨appRest, happ⟩ := happ
  rw [Active.downstreamSatisfied_eq, hplane, Bool.or_eq_true, Bool.not_eq_true'] at hsatisfied
  rcases hsatisfied with hunreached | hended
  · obtain ⟨hnoBoundary, hnoApp⟩ := hawaited.upstream hunreached
    rw [hnoBoundary, List.append_eq_nil_iff] at hboundary
    rw [hnoApp, List.append_eq_nil_iff] at happ
    exact ⟨hboundary.1.trans hnoBoundary.symm, happ.1.trans hnoApp.symm⟩
  · rw [Bool.and_eq_true, Bool.or_eq_true, Bool.not_eq_true'] at hended
    obtain ⟨hended, happs⟩ := hended
    obtain ⟨hacceptsBoundary, hacceptsApp⟩ := h.downstream
    have hboundaryRest : boundaryRest = [] := by
      obtain ⟨last, hmem, hlast⟩ := List.any_eq_true.1 hended
      rw [← hboundary] at hacceptsBoundary
      refine eq_nil_of_accepts_final _ hacceptsBoundary hmem ?_
      revert hlast
      cases last.kind <;> decide
    rw [hboundaryRest, List.append_nil] at hboundary
    refine ⟨hboundary, ?_⟩
    rcases happs with hnotForwarded | happs
    · have hnoApp : request.app = [] := by
        by_contra hne
        rw [hboundary] at hnotForwarded hended
        rw [hawaited.forwarded hended hne] at hnotForwarded
        cases hnotForwarded
      rw [hnoApp, List.append_eq_nil_iff] at happ
      exact happ.1.trans hnoApp.symm
    · have happRest : appRest = [] := by
        obtain ⟨last, hmem, hlast⟩ := List.any_eq_true.1 happs
        rw [← happ] at hacceptsApp
        refine eq_nil_of_accepts_final _ hacceptsApp hmem ?_
        revert hlast
        cases last.kind <;> decide
      rw [happRest, List.append_nil] at happ
      exact happ

end Request

end Limitmark.External
