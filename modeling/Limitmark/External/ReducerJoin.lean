import Limitmark.External.ReducerBooks

/-!
# Joining the streams of requests

Calls that interleave the streams of a set of clean requests in any order. Every request is in one of
three phases (`Phase`): its downstream events wait as an orphan, or it is open and holds all that has
come, or it is reduced and all of it has come. Each call moves the phase of the one request it is
about (`Joined.step`), so that at the end every request has been reduced once, whatever the order.
-/

namespace Limitmark.External

open Limitmark.Defense Limitmark.Ledger Limitmark.Foundations

namespace ExternalReducer

variable {options : ReducerOptions} {s : ExternalReducer} {requests : List Request} {final : Bool}

/-! ## Interleavings -/

/-- The event a call delivers to a nonce. -/
def Call.delivery (nonce : String) : Call → Option StreamEvent
  | .ingestPlane event _ _ => if event.nonce = nonce then some (.plane event) else none
  | .ingestBoundary event _ => if event.nonce = some nonce then some (.boundary event) else none
  | .ingestApp event _ => if event.nonce = some nonce then some (.app event) else none
  | .sweep _ | .finalize => none

def Call.isSweep : Call → Bool
  | .sweep _ => true
  | _ => false

def delivered (nonce : String) (calls : List Call) : List StreamEvent :=
  calls.filterMap (Call.delivery nonce)

/-- The calls deliver each stream of each request in order, in any interleaving, with sweeps between
them, and nothing else. -/
structure Interleaves (requests : List Request) (calls : List Call) : Prop where
  streams : ∀ request ∈ requests, planes (delivered request.nonce calls) = request.plane ∧
    boundaries (delivered request.nonce calls) = request.boundary ∧
    apps (delivered request.nonce calls) = request.app
  known : ∀ call ∈ calls, call.isSweep = true ∨
    ∃ request ∈ requests, (call.delivery request.nonce).isSome = true

def Call.readings : Call → List ℚ
  | .ingestPlane _ now later => [now, later]
  | .ingestBoundary _ now | .ingestApp _ now | .sweep now => [now]
  | .finalize => []

variable (options requests) in
/-- No clock reading of a call is past the grace of a request that is not all there yet, or of an
orphan. -/
def Timely (s : ExternalReducer) (call : Call) : Prop :=
  (∀ now ∈ call.readings,
    (∀ record ∈ s.active, ∀ terminalAt ∈ record.terminalAt, record.request ∉ requests →
      now - terminalAt < options.limits.downstreamGraceMs) ∧
    ∀ orphan ∈ s.orphans, now - orphan.firstAt < options.limits.orphanGraceMs) ∧
  match call with
  | .ingestPlane _ now later => later - now < options.limits.downstreamGraceMs
  | _ => True

variable (options) in
/-- The tables have room for the request a call opens or holds. -/
def Roomy (s : ExternalReducer) : Call → Prop
  | .ingestPlane event _ _ =>
    s.owns event.nonce = none → s.active.length < options.limits.maxActive
  | .ingestBoundary event _ => ∀ nonce ∈ event.nonce, s.owns nonce = none →
    s.orphanOf nonce = none → s.orphans.length < options.limits.maxOrphans
  | .ingestApp event _ => ∀ nonce ∈ event.nonce, s.owns nonce = none →
    s.orphanOf nonce = none → s.orphans.length < options.limits.maxOrphans
  | .sweep _ | .finalize => True

variable (options) in
/-- A set of clean requests whose streams and decisions are within the caps. -/
structure Workload (requests : List Request) : Prop where
  nonces : (requests.map Request.nonce).Nodup
  clean : ∀ request ∈ requests, request.Clean
  awaited : ∀ request ∈ requests, request.Awaited
  plane : ∀ request ∈ requests, request.plane.length ≤ options.limits.maxEventsPerStream
  boundary : ∀ request ∈ requests, request.boundary.length ≤ options.limits.maxEventsPerStream
  app : ∀ request ∈ requests, request.app.length ≤ options.limits.maxEventsPerStream
  decisions : requests.countP Request.decided ≤ options.limits.maxDecisions

/-- Of each stream of a request, a beginning. -/
structure Begins (request : Request) (events : List StreamEvent) : Prop where
  plane : planes events <+: request.plane
  boundary : boundaries events <+: request.boundary
  app : apps events <+: request.app

theorem Workload.fitting (hw : Workload options requests) {request : Request}
    (hmem : request ∈ requests) {events : List StreamEvent} (hbegins : Begins request events) :
    Fitting options.limits events :=
  ⟨hbegins.plane.length_le.trans (hw.plane request hmem),
    hbegins.boundary.length_le.trans (hw.boundary request hmem),
    hbegins.app.length_le.trans (hw.app request hmem)⟩

theorem Workload.eq_of_nonce (hw : Workload options requests) {request request' : Request}
    (hmem : request ∈ requests) (hmem' : request' ∈ requests)
    (h : request.nonce = request'.nonce) : request = request' :=
  eq_of_key hw.nonces hmem hmem' h

/-! ## Phases -/

/-- What is held for a nonce until its ingress comes. -/
def held (s : ExternalReducer) (nonce : String) : List BoundaryEvent × List AppEvent :=
  (s.orphanOf nonce).elim ([], []) fun orphan => (orphan.boundary, orphan.app)

def isClosed (s : ExternalReducer) (nonce : String) : Prop := nonce ∈ s.closed.map Active.nonce

/-- Where a request is, when these events of it have come. -/
inductive Phase (s : ExternalReducer) (request : Request) (events : List StreamEvent) : Prop
  | waiting (plane : planes events = []) (owns : s.owns request.nonce = none)
      (held : s.held request.nonce = (boundaries events, apps events))
      (closed : ¬ s.isClosed request.nonce)
  | opened (record : Active) (owns : s.owns request.nonce = some record)
      (orphan : s.orphanOf request.nonce = none) (shows_ : record.Shows events)
      (plane : planes events ≠ [])
      (terminal : record.terminalAt.isSome = true ↔ planes events = request.plane)
      (closed : ¬ s.isClosed request.nonce)
  | reduced (owns : s.owns request.nonce = none) (orphan : s.orphanOf request.nonce = none)
      (plane : planes events = request.plane) (boundary : boundaries events = request.boundary)
      (app : apps events = request.app) (closed : s.isClosed request.nonce)

/-- What the reducer knows of a nonce. -/
structure SameRow (s s' : ExternalReducer) (nonce : String) : Prop where
  owns : s'.owns nonce = s.owns nonce
  orphan : s'.orphanOf nonce = s.orphanOf nonce
  closed : s'.isClosed nonce ↔ s.isClosed nonce

theorem Phase.congr {s' : ExternalReducer} {request : Request} {events : List StreamEvent}
    (h : Phase s request events) (hrow : SameRow s s' request.nonce) : Phase s' request events := by
  cases h with
  | waiting plane owns hheld closed =>
    refine .waiting plane (hrow.owns.trans owns) ?_ (hrow.closed.not.2 closed)
    rw [held, hrow.orphan]
    exact hheld
  | opened record owns orphan hshows plane terminal closed =>
    exact .opened record (hrow.owns.trans owns) (hrow.orphan.trans orphan) hshows plane terminal
      (hrow.closed.not.2 closed)
  | reduced owns orphan plane boundary app closed =>
    exact .reduced (hrow.owns.trans owns) (hrow.orphan.trans orphan) plane boundary app
      (hrow.closed.2 closed)

variable (options requests) in
/-- Every request is in a phase, and the tables hold nothing else. -/
structure Joined (final : Bool) (events : String → List StreamEvent) (s : ExternalReducer) : Prop where
  sound : Sound options s
  books : Books options requests s
  finalized : s.finalized = final
  active : ∀ record ∈ s.active, ∃ request ∈ requests, request.nonce = record.nonce
  orphans : ∀ orphan ∈ s.orphans, ∃ request ∈ requests, request.nonce = orphan.nonce
  phase : ∀ request ∈ requests, Phase s request (events request.nonce)

theorem joined_initial : Joined options requests false (fun nonce => delivered nonce []) {} where
  sound := sound_initial
  books := books_initial
  finalized := rfl
  active := by simp
  orphans := by simp
  phase := fun request _ => .waiting rfl rfl rfl (by simp [isClosed])

/-! ### Reduction -/

/-- A record that shows its request is judged as its request is. -/
theorem found_of_shows {record : Active} {events : List StreamEvent} (h : record.Shows events) :
    record.found = record.request.whole.found := by
  have hview : record.view = record.request.whole.view := by
    rw [Active.view, Active.view, h.origin, ← h.app]
    rfl
  rw [Active.found, Active.found, hview]

theorem owns_dismiss (s : ExternalReducer) (record : Active) (nonce : String) :
    (dismiss s record).owns nonce = if nonce = record.nonce then none else s.owns nonce :=
  find_key_filter Active.nonce

/-- **A reduction moves an open request that is all there to the reduced.** -/
theorem Joined.reduce {events : String → List StreamEvent}
    (h : Joined options requests final events s) (hw : Workload options requests) {record : Active}
    (howns : s.owns record.nonce = some record) (hrequest : record.request ∈ requests)
    (hended : record.terminalAt.isSome = true) :
    Joined options requests final events (ExternalReducer.reduce options s record) := by
  have hphase := h.phase _ hrequest
  have hnonce : record.request.nonce = record.nonce := rfl
  cases hphase with
  | waiting _ hnone =>
    rw [hnonce, howns] at hnone
    cases hnone
  | reduced hnone =>
    rw [hnonce, howns] at hnone
    cases hnone
  | opened record' howns' horphan hshows hplane hterminal hclosed =>
    rw [hnonce, howns] at howns'
    obtain rfl := Option.some.inj howns'
    have hfound : record.found = [] :=
      (found_of_shows hshows).trans (hw.clean _ hrequest).found
    have hbooks := h.books.reduce hw.decisions h.sound.nonces howns hrequest hclosed hfound hended
    have heq := reduce_clean options (by rw [howns]; rfl) hfound hended
    have htables := tables_count options (dismiss s record) record false
    simp only [tables, Tables.mk.injEq] at htables
    obtain ⟨hactive, horphans, -, -, hcloses, hfinal⟩ := htables
    have hactive' : (ExternalReducer.reduce options s record).active = (dismiss s record).active := by
      rw [heq]
      exact hactive
    have horphans' : (ExternalReducer.reduce options s record).orphans = s.orphans :=
      orphans_reduce options s record
    have hcloses' : (ExternalReducer.reduce options s record).closed = s.closed ++ [record] := by
      rw [heq]
      exact hcloses
    refine ⟨h.sound.reduce record, hbooks, ?_, ?_, ?_, fun request hmem => ?_⟩
    · rw [heq]
      exact hfinal.trans h.finalized
    · rw [hactive']
      exact fun other hother => h.active other (List.mem_of_mem_filter hother)
    · rw [horphans']
      exact h.orphans
    · by_cases hsame : request.nonce = record.nonce
      · obtain rfl := hw.eq_of_nonce hmem hrequest hsame
        refine .reduced ?_ ?_ hshows.plane.symm hshows.boundary.symm hshows.app.symm ?_
        · rw [owns, hactive']
          exact (owns_dismiss s record record.nonce).trans (if_pos rfl)
        · rw [orphanOf, horphans']
          exact horphan
        · rw [isClosed, hcloses', List.map_append]
          exact List.mem_append_right _ (List.mem_singleton.2 rfl)
      · refine (h.phase request hmem).congr ⟨?_, ?_, ?_⟩
        · rw [owns, hactive']
          exact (owns_dismiss s record request.nonce).trans (if_neg hsame)
        · rw [orphanOf, horphans']
          rfl
        · rw [isClosed, hcloses', List.map_append, List.mem_append, List.map_singleton,
            List.mem_singleton, or_iff_left hsame]
          rfl

/-- Completion reduces a request only when it is all there. -/
theorem Joined.tryComplete {events : String → List StreamEvent}
    (h : Joined options requests final events s) (hw : Workload options requests) {request : Request}
    (hmem : request ∈ requests) {record : Active} (howns : s.owns request.nonce = some record)
    (hbegins : Begins request (events request.nonce)) {now : ℚ}
    (hgrace : ∀ terminalAt ∈ record.terminalAt,
      options.limits.downstreamGraceMs ≤ now - terminalAt → record.request ∈ requests) :
    Joined options requests final events (ExternalReducer.tryComplete options s record false now) := by
  have hnonce := (mem_of_owns howns).2
  have howns' : s.owns record.nonce = some record := by rw [hnonce, howns]
  rw [ExternalReducer.tryComplete]
  cases hterminalAt : record.terminalAt with
  | none => exact h
  | some terminalAt =>
    dsimp only
    split
    · next hcond =>
      refine h.reduce hw howns' ?_ (by rw [hterminalAt]; rfl)
      rcases hcond with hsatisfied | hfinal | hlate
      · have hphase := h.phase request hmem
        cases hphase with
        | waiting _ hnone =>
          rw [howns] at hnone
          cases hnone
        | reduced hnone =>
          rw [howns] at hnone
          cases hnone
        | opened record' howns'' horphan hshows hplane hterminal hclosed =>
          rw [howns] at howns''
          obtain rfl := Option.some.inj howns''
          have hfull : record.plane = request.plane :=
            hshows.plane.trans (hterminal.1 (by rw [hterminalAt]; rfl))
          obtain ⟨hboundary, happ⟩ := Request.complete_of_satisfied (hw.clean _ hmem)
            (hw.awaited _ hmem) hfull (hshows.boundary ▸ hbegins.boundary)
            (hshows.app ▸ hbegins.app) hsatisfied
          have hrequest : record.request = request := by
            rw [Active.request, hnonce, hfull, hboundary, happ]
          exact hrequest ▸ hmem
      · cases hfinal
      · exact hgrace terminalAt hterminalAt hlate
    · exact h

/-! ### Delivery -/

/-- One more event of a request comes, and there may be more. -/
structure Advances (request : Request) (event : StreamEvent) (events events' : String →
    List StreamEvent) : Prop where
  self : events' request.nonce = events request.nonce ++ [event]
  other : ∀ nonce, nonce ≠ request.nonce → events' nonce = events nonce
  whole : ∃ rest, planes (events request.nonce ++ event :: rest) = request.plane ∧
    boundaries (events request.nonce ++ event :: rest) = request.boundary ∧
    apps (events request.nonce ++ event :: rest) = request.app

variable {request : Request} {event : StreamEvent} {events events' : String → List StreamEvent}

theorem Advances.begins (h : Advances request event events events') :
    Begins request (events' request.nonce) := by
  obtain ⟨rest, hplane, hboundary, happ⟩ := h.whole
  rw [List.append_cons, ← h.self] at hplane hboundary happ
  rw [planes_append] at hplane
  rw [boundaries_append] at hboundary
  rw [apps_append] at happ
  exact ⟨⟨_, hplane⟩, ⟨_, hboundary⟩, ⟨_, happ⟩⟩

/-- A request that has an event to come is not all there. -/
theorem Advances.incomplete (h : Advances request event events events') :
    ¬ (planes (events request.nonce) = request.plane ∧
      boundaries (events request.nonce) = request.boundary ∧
      apps (events request.nonce) = request.app) := by
  rintro ⟨hplane, hboundary, happ⟩
  obtain ⟨rest, hplane', hboundary', happ'⟩ := h.whole
  rw [planes_append, hplane, List.append_right_eq_self] at hplane'
  rw [boundaries_append, hboundary, List.append_right_eq_self] at hboundary'
  rw [apps_append, happ, List.append_right_eq_self] at happ'
  cases event with
  | plane event => cases hplane'
  | boundary event => cases hboundary'
  | app event => cases happ'

/-- The rest of the requests stay in their phases. -/
theorem Joined.phase_other {s' : ExternalReducer} (h : Joined options requests final events s)
    (hw : Workload options requests) (hmem : request ∈ requests)
    (hadvances : Advances request event events events')
    (hrow : ∀ nonce, nonce ≠ request.nonce → SameRow s s' nonce)
    (hself : Phase s' request (events' request.nonce)) :
    ∀ other ∈ requests, Phase s' other (events' other.nonce) := by
  intro other hother
  by_cases hsame : other.nonce = request.nonce
  · obtain rfl := hw.eq_of_nonce hother hmem hsame
    exact hself
  · rw [hadvances.other _ hsame]
    exact (h.phase other hother).congr (hrow _ hsame)

theorem owns_put {record : Active} (s : ExternalReducer) (nonce : String) :
    (s.put record).owns nonce =
      if nonce = record.nonce then (s.owns nonce).map fun _ => record else s.owns nonce :=
  find_key_modify Active.nonce (fun _ => record) fun _ _ => rfl

theorem openingTally_concat {plane : List PlaneEvent} (hplane : plane ≠ []) (rest : List PlaneEvent) :
    openingTally (plane ++ rest) = openingTally plane := by
  rw [openingTally, openingTally, List.head?_append_of_ne_nil _ hplane]

theorem Books.put (h : Books options requests s) (hnonces : (s.active.map Active.nonce).Nodup)
    {record record' : Active} (howns : s.owns record'.nonce = some record)
    (hopening : openingTally record'.plane = openingTally record.plane) :
    Books options requests (s.put record') where
  reports := h.reports
  closed := h.closed
  nonces := h.nonces
  recent := h.recent
  decisions := h.decisions
  heads := h.heads
  traces := h.traces
  counters := by
    obtain ⟨hmem, hnonce⟩ := mem_of_owns howns
    refine Eq.trans (show (s.put record').unsampled = s.unsampled from rfl) (h.counters.trans ?_)
    congr 2
    rw [ExternalReducer.put, List.flatMap_map]
    refine (List.flatMap_congr fun other hother => ?_).symm
    split
    · next heq =>
      rw [hopening, eq_of_key hnonces hmem hother (hnonce.trans heq.symm)]
    · rfl

/-- **An event of an open request joins its record.** -/
theorem Joined.deliver (h : Joined options requests final events s) (hw : Workload options requests)
    (hmem : request ∈ requests) (hadvances : Advances request event events events')
    {record record' : Active} (howns : s.owns request.nonce = some record)
    (hnonce : record'.nonce = request.nonce) (hshows : record'.Shows (events' request.nonce))
    (hok : RecordOk options.limits record')
    (hterminal : record'.terminalAt.isSome = true ↔
      planes (events' request.nonce) = request.plane) :
    Joined options requests final events' (s.put record') := by
  have hphase := h.phase request hmem
  cases hphase with
  | waiting _ hnone =>
    rw [howns] at hnone
    cases hnone
  | reduced hnone =>
    rw [howns] at hnone
    cases hnone
  | opened old hold horphan hshows' hplane _ hclosed =>
    rw [howns] at hold
    obtain rfl := Option.some.inj hold
    have hopening : openingTally record'.plane = openingTally record.plane := by
      rw [hshows.plane, hadvances.self, planes_append, hshows'.plane]
      exact openingTally_concat hplane _
    have howns' : s.owns record'.nonce = some record := by rw [hnonce, howns]
    refine ⟨h.sound.put hok, h.books.put h.sound.nonces howns' hopening, h.finalized, ?_, h.orphans,
      h.phase_other hw hmem hadvances (fun nonce hne => ⟨?_, rfl, Iff.rfl⟩) ?_⟩
    · intro other hother
      rcases mem_put hother with rfl | hother
      · exact ⟨request, hmem, hnonce.symm⟩
      · exact h.active other hother
    · rw [owns_put, if_neg (hnonce ▸ hne)]
    · refine .opened record' ?_ horphan hshows ?_ hterminal hclosed
      · rw [owns_put, if_pos hnonce.symm, howns]
        rfl
      · rw [hadvances.self, planes_append]
        exact fun hnil => hplane (List.append_eq_nil_iff.1 hnil).1

/-! ### Opening -/

theorem shows_opened (s : ExternalReducer) (event : PlaneEvent) (now : ℚ) :
    (opened s event now).Shows [.plane event] := ⟨rfl, rfl, rfl, rfl⟩

theorem terminalAt_append (limits : ExternalLimits) (record : Active) (event : StreamEvent) :
    (record.append limits event).1.terminalAt = record.terminalAt := by
  rw [Active.append]
  split
  · rfl
  · cases event <;> rfl

theorem terminalAt_appendAll (limits : ExternalLimits) (record : Active)
    (events : List StreamEvent) :
    (record.appendAll limits events).1.terminalAt = record.terminalAt := by
  induction events generalizing record with
  | nil => rfl
  | cons event events ih =>
    exact (ih _).trans (terminalAt_append limits record event)

/-- An ingress opens a request with all that waited for it. -/
theorem accept_spec {event : PlaneEvent} (howns : s.owns event.nonce = none) (now : ℚ)
    {held : List StreamEvent}
    (hheld : s.held event.nonce = (boundaries held, apps held)) (hplane : planes held = [])
    (hfit : Fitting options.limits (held ++ [.plane event])) :
    ∃ record : Active, accept options s event now =
        (claimed s event now).put record ∧
      record.nonce = event.nonce ∧ record.Shows (held ++ [.plane event]) ∧
      record.terminalAt = none := by
  have hput : (claimed s event now).put (opened s event now) = claimed s event now := by
    have hactive : ((claimed s event now).active.map fun other =>
        if other.nonce = event.nonce then opened s event now else other) =
          (claimed s event now).active := by
      conv_rhs => rw [← List.map_id (claimed s event now).active]
      refine List.map_congr_left fun other hother => ?_
      rcases List.mem_append.1 hother with hother | hother
      · exact if_neg (nonce_ne_of_owns howns other hother)
      · rw [List.mem_singleton.1 hother]
        exact if_pos rfl
    exact congrArg (fun active => { claimed s event now with active }) hactive
  rw [accept]
  cases horphan : s.orphanOf event.nonce with
  | none =>
    have hnone : boundaries held = [] ∧ apps held = [] := by
      rw [ExternalReducer.held, horphan, Option.elim_none, Prod.mk.injEq] at hheld
      exact ⟨hheld.1.symm, hheld.2.symm⟩
    have hfilter : (s.orphans.filter fun other => other.nonce ≠ event.nonce) = s.orphans :=
      List.filter_eq_self.2 fun other hother => by
        simpa using nonce_ne_of_orphanOf horphan other hother
    refine ⟨opened s event now, ?_, rfl, (shows_opened s event now).congr ?_ ?_ ?_, rfl⟩
    · rw [hput, claimed, hfilter]
      rfl
    · rw [planes_append, hplane, List.nil_append]
    · rw [boundaries_append, hnone.1, List.nil_append]
    · rw [apps_append, hnone.2, List.nil_append]
  | some orphan =>
    have hevents : orphan.boundary = boundaries held ∧ orphan.app = apps held := by
      simpa [ExternalReducer.held, horphan] using hheld
    obtain ⟨hplanes, hboundaries, happs⟩ := streams_events orphan
    have hfit' : Fitting options.limits ([.plane event] ++ orphan.events) := by
      obtain ⟨h₁, h₂, h₃⟩ := hfit
      simp only [planes_append, boundaries_append, apps_append, hplane, List.nil_append] at h₁ h₂ h₃
      refine ⟨?_, ?_, ?_⟩
      · rwa [planes_append, hplanes, List.append_nil]
      · rw [boundaries_append, hboundaries, hevents.1, List.length_append, Nat.add_comm,
          ← List.length_append]
        exact h₂
      · rw [apps_append, happs, hevents.2, List.length_append, Nat.add_comm, ← List.length_append]
        exact h₃
    obtain ⟨hshows, hquiet⟩ := (shows_opened s event now).appendAll hfit'
    refine ⟨((opened s event now).appendAll options.limits orphan.events).1, ?_,
      nonce_appendAll _ _ _, hshows.congr ?_ ?_ ?_, terminalAt_appendAll _ _ _⟩
    · dsimp only
      rw [hquiet, report, List.append_nil]
    · rw [planes_append, planes_append, hplane, hplanes, List.nil_append, List.append_nil]
    · rw [boundaries_append, boundaries_append, hboundaries, hevents.1]
      exact List.append_nil _
    · rw [apps_append, apps_append, happs, hevents.2]
      exact List.append_nil _

/-- Opening a request enters it in the books. -/
theorem Books.claimed (h : Books options requests s) (event : PlaneEvent) (now : ℚ) :
    Books options requests (claimed s event now) where
  reports := h.reports
  closed := h.closed
  nonces := h.nonces
  recent := h.recent
  decisions := h.decisions
  heads := h.heads
  traces := fun hhead hroom => by
    obtain ⟨hlength, hsample⟩ := h.traces hhead hroom
    exact ⟨hlength, (sample_bump (not_isSample_openingTally [event])).trans hsample⟩
  counters := by
    have hbump := unsampled_bump (s := s) (not_isSample_openingTally [event])
    rw [h.counters] at hbump
    refine Eq.trans (show (ExternalReducer.claimed s event now).unsampled =
      (s.bump (openingTally [event])).unsampled from rfl) (hbump.trans ?_)
    have hactive : (ExternalReducer.claimed s event now).active = s.active ++ [opened s event now] :=
      rfl
    rw [add_assoc, hactive, List.flatMap_append, ← Multiset.coe_add, List.flatMap_singleton]
    rfl

/-- **The ingress of a waiting request opens it.** -/
theorem Joined.accept {first : PlaneEvent} (h : Joined options requests final events s)
    (hw : Workload options requests) (hmem : request ∈ requests)
    (hadvances : Advances request (.plane first) events events')
    (hnonce : first.nonce = request.nonce) (hplane : planes (events request.nonce) = [])
    (howns : s.owns request.nonce = none)
    (hheld : s.held request.nonce = (boundaries (events request.nonce), apps (events request.nonce)))
    (hclosed : ¬ s.isClosed request.nonce) (hroom : s.active.length < options.limits.maxActive)
    (hmore : planes (events' request.nonce) ≠ request.plane) (now : ℚ) :
    Joined options requests final events' (accept options s first now) := by
  have hfit := hw.fitting hmem hadvances.begins
  rw [hadvances.self] at hfit
  have howns' : s.owns first.nonce = none := hnonce ▸ howns
  obtain ⟨record, heq, hrecord, hshows, hterminalAt⟩ :=
    accept_spec howns' now (hnonce ▸ hheld) hplane hfit
  have hsound := h.sound.accept now howns' hroom
  have hopen := h.sound.openRequest now howns' hroom
  rw [heq] at hsound ⊢
  have hlookup (nonce : String) : (claimed s first now).owns nonce =
      (s.owns nonce).or (if first.nonce = nonce then some (opened s first now) else none) :=
    find_key_concat Active.nonce
  have hself : (claimed s first now).owns record.nonce = some (opened s first now) := by
    refine (hlookup record.nonce).trans ?_
    rw [hrecord, howns', if_pos rfl]
    rfl
  have hopening : openingTally record.plane = openingTally (opened s first now).plane := by
    rw [hshows.plane, planes_append, hplane]
    rfl
  refine ⟨hsound, (h.books.claimed first now).put hopen.nonces hself hopening, h.finalized,
    ?_, ?_, h.phase_other hw hmem hadvances (fun nonce hne => ⟨?_, ?_, Iff.rfl⟩) ?_⟩
  · intro other hother
    rcases mem_put hother with rfl | hother
    · exact ⟨request, hmem, (hrecord.trans hnonce).symm⟩
    · rcases List.mem_append.1 hother with hother | hother
      · exact h.active other hother
      · rw [List.mem_singleton.1 hother]
        exact ⟨request, hmem, hnonce.symm⟩
  · exact fun orphan horphan => h.orphans orphan (List.mem_of_mem_filter horphan)
  · rw [owns_put, if_neg (hrecord.trans hnonce ▸ hne)]
    refine (hlookup nonce).trans ?_
    rw [if_neg fun heq => hne (heq.symm.trans hnonce), Option.or_none]
  · exact (find_key_filter Orphan.nonce).trans (if_neg fun heq => hne (heq.trans hnonce))
  · refine .opened record ?_ ?_ (hadvances.self ▸ hshows) ?_ ?_ hclosed
    · rw [owns_put, if_pos (hrecord.trans hnonce).symm, ← hrecord.trans hnonce, hself]
      rfl
    · exact (find_key_filter Orphan.nonce).trans (if_pos hnonce.symm)
    · rw [hadvances.self, planes_append]
      exact fun hnil => by cases (List.append_eq_nil_iff.1 hnil).2
    · rw [hterminalAt]
      exact iff_of_false Bool.false_ne_true hmore

end ExternalReducer

end Limitmark.External
