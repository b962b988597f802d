import Limitmark.External.ReducerJoin

/-!
# The reducer does not depend on the interleaving

Whatever the order in which the streams of a workload come, within the graces and the room of the
tables, finalization leaves every request reduced once, nothing reported, and the counters at what
the requests spend (`Joined.finalize`). The counters of the sample of traces are the exception, as
the sample is taken in the order of reduction; they too are the same for as long as the requests are
no more than the head of the sample.
-/

namespace Limitmark.External

open Limitmark.Defense Limitmark.Ledger Limitmark.Foundations

namespace ExternalReducer

variable {options : ReducerOptions} {s : ExternalReducer} {requests : List Request} {final : Bool}
  {request : Request} {event : StreamEvent} {events events' : String → List StreamEvent}

/-! ## Calls about one request -/

theorem report_nil (s : ExternalReducer) : s.report [] = s := by
  rw [report, List.append_nil]

theorem Joined.not_recent (h : Joined options requests final events s) {nonce : String}
    (hclosed : ¬ s.isClosed nonce) : nonce ∉ s.recent :=
  fun hrecent => hclosed (h.books.recent nonce hrecent)

theorem streams_push (orphan : Orphan) (event : StreamEvent) :
    (orphan.push event).boundary = orphan.boundary ++ boundaries [event] ∧
      (orphan.push event).app = orphan.app ++ apps [event] := by
  cases event <;> simp [Orphan.push, boundaries, apps]

theorem streams_ofEvent (nonce : String) (now : ℚ) (event : StreamEvent) :
    (Orphan.ofEvent nonce now event).boundary = boundaries [event] ∧
      (Orphan.ofEvent nonce now event).app = apps [event] := by
  cases event <;> exact ⟨rfl, rfl⟩

theorem planes_downstream (hdown : ∀ plane, event ≠ .plane plane) : planes [event] = [] := by
  cases event with
  | plane event => exact absurd rfl (hdown event)
  | boundary event => rfl
  | app event => rfl

/-- A change of the orphans alone leaves the books. -/
theorem Books.withOrphans (h : Books options requests s) (orphans : List Orphan) :
    Books options requests { s with orphans } :=
  ⟨h.reports, h.closed, h.nonces, h.recent, h.decisions, h.counters, h.heads, h.traces⟩

/-- The orphans after one more event of a held nonce. -/
theorem find_hold (s : ExternalReducer) (key nonce : String) (event : StreamEvent) :
    ((s.orphans.map fun orphan => if orphan.nonce = key then orphan.push event else orphan).find?
      fun orphan => orphan.nonce = nonce) =
        if nonce = key then (s.orphanOf nonce).map fun orphan => orphan.push event
        else s.orphanOf nonce :=
  find_key_modify Orphan.nonce (fun orphan => orphan.push event)
    fun orphan heq => (nonce_push orphan event).trans heq

/-- The orphans after the first event of a nonce. -/
theorem find_park (s : ExternalReducer) (key nonce : String) (now : ℚ) (event : StreamEvent) :
    ((s.orphans ++ [Orphan.ofEvent key now event]).find? fun orphan => orphan.nonce = nonce) =
      (s.orphanOf nonce).or (if key = nonce then some (Orphan.ofEvent key now event) else none) := by
  refine (find_key_concat Orphan.nonce).trans ?_
  rw [nonce_ofEvent]
  rfl

/-- **A downstream event of a waiting request waits with it.** -/
theorem Joined.hold (h : Joined options requests final events s) (hw : Workload options requests)
    (hmem : request ∈ requests) (hadvances : Advances request event events events')
    (hdown : ∀ plane, event ≠ .plane plane) (hplane : planes (events request.nonce) = [])
    (howns : s.owns request.nonce = none)
    (hheld : s.held request.nonce = (boundaries (events request.nonce), apps (events request.nonce)))
    (hclosed : ¬ s.isClosed request.nonce)
    (hroom : s.orphanOf request.nonce = none → s.orphans.length < options.limits.maxOrphans)
    (now : ℚ) :
    Joined options requests final events'
      (ingestDownstream options s (some request.nonce) event now).1 := by
  have hsound := h.sound.ingestDownstream (some request.nonce) event now
  have hplane' : planes (events' request.nonce) = [] := by
    rw [hadvances.self, planes_append, hplane, planes_downstream hdown, List.append_nil]
  have hjoin (orphans : List Orphan)
      (hsound : Sound options { s with orphans })
      (horphans : ∀ orphan ∈ orphans, ∃ request ∈ requests, request.nonce = orphan.nonce)
      (hothers : ∀ nonce, nonce ≠ request.nonce →
        orphans.find? (fun orphan => orphan.nonce = nonce) = s.orphanOf nonce)
      (hself : ({ s with orphans } : ExternalReducer).held request.nonce =
        (boundaries (events' request.nonce), apps (events' request.nonce))) :
      Joined options requests final events' { s with orphans } :=
    ⟨hsound, h.books.withOrphans orphans, h.finalized, h.active, horphans,
      h.phase_other hw hmem hadvances (fun nonce hne => ⟨rfl, hothers nonce hne, Iff.rfl⟩)
        (.waiting hplane' howns hself hclosed)⟩
  have hevents : boundaries (events' request.nonce) =
        boundaries (events request.nonce) ++ boundaries [event] ∧
      apps (events' request.nonce) = apps (events request.nonce) ++ apps [event] := by
    rw [hadvances.self, boundaries_append, apps_append]
    exact ⟨rfl, rfl⟩
  rw [ingestDownstream.eq_def] at hsound ⊢
  simp only [howns, h.not_recent hclosed, if_false] at hsound ⊢
  cases horphan : s.orphanOf request.nonce with
  | some orphan =>
    simp only [horphan] at hsound
    rw [held, horphan, Option.elim_some, Prod.mk.injEq] at hheld
    refine hjoin _ hsound (fun other hother => ?_) (fun nonce hne => ?_) ?_
    · obtain ⟨old, hold, rfl⟩ := List.mem_map.1 hother
      split
      · rw [nonce_push]
        exact h.orphans old hold
      · exact h.orphans old hold
    · exact (find_hold s _ nonce event).trans (if_neg hne)
    · have hfind : ({ s with orphans := s.orphans.map fun orphan =>
          if orphan.nonce = request.nonce then orphan.push event else orphan } :
            ExternalReducer).orphanOf request.nonce = some (orphan.push event) := by
        refine (find_hold s _ _ event).trans ?_
        rw [if_pos rfl, horphan]
        rfl
      rw [held, hfind, Option.elim_some, (streams_push orphan event).1, (streams_push orphan event).2,
        hheld.1, hheld.2, hevents.1, hevents.2]
  | none =>
    simp only [horphan, if_neg (not_le.2 (hroom horphan))] at hsound ⊢
    rw [held, horphan, Option.elim_none, Prod.mk.injEq] at hheld
    refine hjoin _ hsound (fun other hother => ?_) (fun nonce hne => ?_) ?_
    · rcases List.mem_append.1 hother with hother | hother
      · exact h.orphans other hother
      · rw [List.mem_singleton.1 hother, nonce_ofEvent]
        exact ⟨request, hmem, rfl⟩
    · refine (find_park s _ nonce now event).trans ?_
      rw [if_neg (Ne.symm hne), Option.or_none]
    · have hfind : ({ s with orphans := s.orphans ++ [Orphan.ofEvent request.nonce now event] } :
          ExternalReducer).orphanOf request.nonce =
            some (Orphan.ofEvent request.nonce now event) := by
        refine (find_park s _ _ now event).trans ?_
        rw [if_pos rfl, horphan]
        rfl
      rw [held, hfind, Option.elim_some, (streams_ofEvent _ _ _).1, (streams_ofEvent _ _ _).2,
        hevents.1, hevents.2, ← hheld.1, ← hheld.2]
      rfl

/-- An open request that has an event to come is not one of the workload yet. -/
theorem not_mem_of_advances (hw : Workload options requests) (hmem : request ∈ requests)
    (hadvances : Advances request event events events') {record : Active}
    (hnonce : record.nonce = request.nonce) (hshows : record.Shows (events request.nonce)) :
    record.request ∉ requests := fun hrequest => by
  have heq : record.request = request := hw.eq_of_nonce hrequest hmem hnonce
  refine hadvances.incomplete ⟨?_, ?_, ?_⟩
  · rw [← hshows.plane, ← heq]
    rfl
  · rw [← hshows.boundary, ← heq]
    rfl
  · rw [← hshows.app, ← heq]
    rfl

theorem nonce_push_record (record : Active) (event : StreamEvent) :
    (record.push event).nonce = record.nonce := by
  cases event <;> rfl

theorem terminalAt_push (record : Active) (event : StreamEvent) :
    (record.push event).terminalAt = record.terminalAt := by
  cases event <;> rfl

/-- **A downstream event of a request in any phase.** -/
theorem Joined.ingestDownstream (h : Joined options requests final events s)
    (hw : Workload options requests) (hmem : request ∈ requests)
    (hadvances : Advances request event events events') (hdown : ∀ plane, event ≠ .plane plane)
    {now : ℚ}
    (htimely : ∀ record ∈ s.active, ∀ terminalAt ∈ record.terminalAt, record.request ∉ requests →
      now - terminalAt < options.limits.downstreamGraceMs)
    (hroom : s.owns request.nonce = none → s.orphanOf request.nonce = none →
      s.orphans.length < options.limits.maxOrphans) :
    Joined options requests final events'
      (ExternalReducer.ingestDownstream options s (some request.nonce) event now).1 := by
  have hphase := h.phase request hmem
  cases hphase with
  | waiting hplane howns hheld hclosed =>
    exact h.hold hw hmem hadvances hdown hplane howns hheld hclosed (hroom howns) now
  | reduced _ _ hplane hboundary happ =>
    exact absurd ⟨hplane, hboundary, happ⟩ hadvances.incomplete
  | opened record howns horphan hshows hplane hterminal hclosed =>
    obtain ⟨hrecord, hnonce⟩ := mem_of_owns howns
    have hfit := hw.fitting hmem hadvances.begins
    rw [hadvances.self] at hfit
    have happend := hshows.append hfit
    have hok := (h.sound.records record hrecord).append event
    rw [happend] at hok
    have hnonce' : (record.push event).nonce = request.nonce :=
      (nonce_push_record record event).trans hnonce
    have hdelivered := h.deliver hw hmem hadvances howns hnonce'
      (hadvances.self ▸ hshows.push event) hok (by
        rw [terminalAt_push, hadvances.self, planes_append, planes_downstream hdown,
          List.append_nil]
        exact hterminal)
    rw [ExternalReducer.ingestDownstream.eq_def]
    simp only [howns, happend, report_nil]
    refine hdelivered.tryComplete hw hmem ?_ hadvances.begins fun terminalAt hterminalAt hlate => ?_
    · rw [owns_put, if_pos hnonce'.symm, howns]
      rfl
    · rw [terminalAt_push] at hterminalAt
      exact absurd hlate (not_le.2 (htimely record hrecord terminalAt hterminalAt
        (not_mem_of_advances hw hmem hadvances hnonce hshows)))

/-- The plane stream around an event of it. -/
theorem Advances.plane {first : PlaneEvent}
    (h : Advances request (.plane first) events events') :
    ∃ rest, request.plane = planes (events request.nonce) ++ first :: rest ∧
      planes (events' request.nonce) = planes (events request.nonce) ++ [first] := by
  obtain ⟨rest, hplane, -, -⟩ := h.whole
  refine ⟨planes rest, ?_, ?_⟩
  · rw [← hplane, planes_append]
    rfl
  · rw [h.self, planes_append]
    rfl

/-- A plane stream is all there after its terminal event, and not before. -/
theorem planes_eq_iff (hclean : request.Clean) {first : PlaneEvent}
    (hadvances : Advances request (.plane first) events events') :
    planes (events' request.nonce) = request.plane ↔ first.kind.isTerminal = true := by
  obtain ⟨rest, hwhole, hnow⟩ := hadvances.plane
  rw [hclean.terminal_iff hwhole, hwhole, hnow]
  constructor
  · intro heq
    exact (List.cons.inj (List.append_cancel_left heq)).2.symm
  · rintro rfl
    rfl

/-- **A plane event of a request in any phase.** -/
theorem Joined.ingestPlane {first : PlaneEvent} (h : Joined options requests final events s)
    (hw : Workload options requests) (hmem : request ∈ requests)
    (hadvances : Advances request (.plane first) events events')
    (hnonce : first.nonce = request.nonce) {now later : ℚ}
    (hgrace : later - now < options.limits.downstreamGraceMs)
    (hroom : s.owns request.nonce = none → s.active.length < options.limits.maxActive) :
    Joined options requests final events'
      (ExternalReducer.ingestPlane options s first now later).1 := by
  have hclean := hw.clean request hmem
  obtain ⟨rest, hwhole, hnow⟩ := hadvances.plane
  have hingress := hclean.ingress_iff hwhole
  have hterminal' := planes_eq_iff hclean hadvances
  have hphase := h.phase request hmem
  rw [ExternalReducer.ingestPlane]
  cases hphase with
  | reduced _ _ hplane =>
    rw [hwhole, List.self_eq_append_right] at hplane
    cases hplane
  | waiting hplane howns hheld hclosed =>
    have hfirst := hingress.2 hplane
    have hopen : first.kind.isTerminal ≠ true := by rw [hfirst.1]; decide
    rw [if_pos hfirst, hnonce, howns, if_neg (by simpa using h.not_recent hclosed),
      if_neg (not_le.2 (hroom howns))]
    exact h.accept hw hmem hadvances hnonce hplane howns hheld hclosed (hroom howns)
      (fun hfull => hopen (hterminal'.1 hfull)) now
  | opened record howns horphan hshows hplane hterminal hclosed =>
    obtain ⟨hrecord, hnonce'⟩ := mem_of_owns howns
    have hopen : record.terminalAt = none := by
      rw [← Option.not_isSome_iff_eq_none, hterminal, hwhole, List.self_eq_append_right]
      exact List.cons_ne_nil _ _
    have hfit := hw.fitting hmem hadvances.begins
    rw [hadvances.self] at hfit
    have hok := (h.sound.records record hrecord).append (.plane first)
    rw [hshows.append hfit] at hok
    have hshows' := hshows.push (.plane first)
    rw [← hadvances.self] at hshows'
    rw [if_neg fun hfirst => hplane (hingress.1 hfirst), hnonce, howns]
    simp only [hshows.append hfit, report_nil, terminalAt_push, hopen, and_true]
    by_cases hlast : first.kind.isTerminal = true
    · rw [if_pos hlast]
      have hdelivered : Joined options requests final events'
          (s.put { record.push (.plane first) with terminalAt := some now }) :=
        h.deliver hw hmem hadvances howns hnonce' ⟨hshows'.plane, hshows'.boundary, hshows'.app, hshows'.origin⟩
        ⟨hok.boundary, hok.app, hok.origin, hok.plane, hok.opened⟩
        (iff_of_true rfl (hterminal'.2 hlast))
      refine hdelivered.tryComplete hw hmem ?_ hadvances.begins fun terminalAt hat hlate => ?_
      · refine (owns_put s request.nonce).trans ?_
        rw [howns]
        exact if_pos hnonce'.symm
      · obtain rfl : now = terminalAt := Option.some.inj hat
        exact absurd hlate (not_le.2 hgrace)
    · rw [if_neg hlast]
      have hdelivered : Joined options requests final events' (s.put (record.push (.plane first))) :=
        h.deliver hw hmem hadvances howns hnonce' hshows' hok (by
          rw [terminalAt_push, hopen]
          exact iff_of_false Bool.false_ne_true fun hfull => hlast (hterminal'.1 hfull))
      rw [ExternalReducer.tryComplete, terminalAt_push, hopen]
      exact hdelivered

/-! ## Sweeps and finalization -/

variable (options) in
theorem active_reduce (s : ExternalReducer) (record : Active) :
    (ExternalReducer.reduce options s record).active =
      s.active.filter fun other => other.nonce ≠ record.nonce := by
  by_cases hopen : (s.owns record.nonce).isSome
  · obtain ⟨t, heq, htables, -, -⟩ := reduce_of_owns options hopen
    simp only [tables, Tables.mk.injEq] at htables
    rw [heq]
    exact htables.1
  · rw [ExternalReducer.reduce, if_neg hopen]
    rw [Option.not_isSome_iff_eq_none] at hopen
    exact (List.filter_eq_self.2 fun other hother => by
      simpa using nonce_ne_of_owns hopen other hother).symm

theorem owns_reduce_of_ne {record : Active} {nonce : String} (hne : nonce ≠ record.nonce) :
    (ExternalReducer.reduce options s record).owns nonce = s.owns nonce := by
  rw [owns, active_reduce]
  exact (find_key_filter Active.nonce).trans (if_neg hne)

variable (options) in
theorem active_reduceAll (s : ExternalReducer) (records : List Active) :
    (records.foldl (ExternalReducer.reduce options) s).active =
      s.active.filter fun other => other.nonce ∉ records.map Active.nonce := by
  induction records generalizing s with
  | nil => simp
  | cons record records ih =>
    rw [List.foldl_cons, ih, active_reduce, List.filter_filter]
    refine List.filter_congr fun other _ => ?_
    rw [← Bool.decide_and]
    exact decide_eq_decide.2 (by rw [List.map_cons, List.mem_cons, not_or, and_comm])

/-- Reducing several requests that are all there. -/
theorem Joined.reduceAll (h : Joined options requests final events s)
    (hw : Workload options requests) (records : List Active)
    (hnonces : (records.map Active.nonce).Nodup)
    (hready : ∀ record ∈ records, s.owns record.nonce = some record ∧
      record.request ∈ requests ∧ record.terminalAt.isSome = true) :
    Joined options requests final events (records.foldl (ExternalReducer.reduce options) s) := by
  induction records generalizing s with
  | nil => exact h
  | cons record records ih =>
    rw [List.map_cons, List.nodup_cons] at hnonces
    obtain ⟨howns, hrequest, hended⟩ := hready record List.mem_cons_self
    refine ih (h.reduce hw howns hrequest hended) hnonces.2 fun other hother => ?_
    have hne : other.nonce ≠ record.nonce := fun heq =>
      hnonces.1 (List.mem_map.2 ⟨other, hother, heq⟩)
    rw [owns_reduce_of_ne hne]
    exact hready other (List.mem_cons_of_mem _ hother)

theorem owns_of_mem (hnonces : (s.active.map Active.nonce).Nodup) {record : Active}
    (hmem : record ∈ s.active) : s.owns record.nonce = some record := by
  cases howns : s.owns record.nonce with
  | none => exact absurd rfl (nonce_ne_of_owns howns record hmem)
  | some other =>
    obtain ⟨hother, hnonce⟩ := mem_of_owns howns
    rw [eq_of_key hnonces hother hmem hnonce]

/-- **A sweep within the graces reduces only what is all there.** -/
theorem Joined.sweep (h : Joined options requests final events s) (hw : Workload options requests)
    {now : ℚ}
    (htimely : ∀ record ∈ s.active, ∀ terminalAt ∈ record.terminalAt, record.request ∉ requests →
      now - terminalAt < options.limits.downstreamGraceMs)
    (horphans : ∀ orphan ∈ s.orphans, now - orphan.firstAt < options.limits.orphanGraceMs) :
    Joined options requests final events (ExternalReducer.sweep options s now) := by
  have hdue := h.reduceAll hw (s.active.filter fun record =>
    record.terminalAt.any fun terminalAt => options.limits.downstreamGraceMs ≤ now - terminalAt)
    (h.sound.nonces.sublist (List.filter_sublist.map _)) fun record hrecord => by
      obtain ⟨hmem, hlate⟩ := List.mem_filter.1 hrecord
      obtain ⟨terminalAt, hat, hlate⟩ := (Option.any_eq_true _ _).1 hlate
      refine ⟨owns_of_mem h.sound.nonces hmem, ?_, by rw [hat]; rfl⟩
      by_contra hmissing
      exact absurd (of_decide_eq_true hlate) (not_le.2 (htimely record hmem terminalAt hat hmissing))
  rw [ExternalReducer.sweep, orphans_reduceAll]
  have hkept : (s.orphans.filter fun orphan =>
      now - orphan.firstAt < options.limits.orphanGraceMs) = s.orphans :=
    List.filter_eq_self.2 fun orphan hmem => decide_eq_true (horphans orphan hmem)
  have hstale : (s.orphans.filter fun orphan =>
      ¬ now - orphan.firstAt < options.limits.orphanGraceMs) = [] :=
    List.filter_eq_nil_iff.2 fun orphan hmem => by simpa using horphans orphan hmem
  rw [hkept, hstale, List.foldl_nil]
  have hsame := orphans_reduceAll options s
    (s.active.filter fun record => record.terminalAt.any fun terminalAt =>
      options.limits.downstreamGraceMs ≤ now - terminalAt)
  rw [← hsame]
  exact hdue

/-- When all has come, nothing but complete requests is open, and no orphan is left. -/
theorem Joined.complete (h : Joined options requests final events s)
    (hw : Workload options requests)
    (hall : ∀ request ∈ requests, planes (events request.nonce) = request.plane ∧
      boundaries (events request.nonce) = request.boundary ∧
      apps (events request.nonce) = request.app) :
    (∀ record ∈ s.active, record.request ∈ requests ∧ record.terminalAt.isSome = true) ∧
      s.orphans = [] := by
  have hstarted : ∀ request ∈ requests, planes (events request.nonce) ≠ [] := by
    intro request hmem hnil
    obtain ⟨before, last, hends, -⟩ := (hw.clean request hmem).ends
    rw [(hall request hmem).1, hends] at hnil
    exact List.append_ne_nil_of_right_ne_nil _ (List.cons_ne_nil _ _) hnil
  refine ⟨fun record hrecord => ?_, ?_⟩
  · obtain ⟨request, hmem, hnonce⟩ := h.active record hrecord
    have howns := owns_of_mem h.sound.nonces hrecord
    rw [← hnonce] at howns
    have hphase := h.phase request hmem
    cases hphase with
    | waiting hnil => exact absurd hnil (hstarted request hmem)
    | reduced hnone =>
      rw [howns] at hnone
      cases hnone
    | opened other hother _ hshows _ hterminal =>
      rw [howns] at hother
      obtain rfl := Option.some.inj hother
      obtain ⟨hplane, hboundary, happ⟩ := hall request hmem
      refine ⟨?_, hterminal.2 hplane⟩
      rwa [Active.request, ← hnonce, hshows.plane, hshows.boundary, hshows.app, hplane, hboundary,
        happ]
  · by_contra hne
    obtain ⟨orphan, horphan⟩ := List.exists_mem_of_ne_nil _ hne
    obtain ⟨request, hmem, hnonce⟩ := h.orphans orphan horphan
    have hnone : s.orphanOf request.nonce = none := by
      have hphase := h.phase request hmem
      cases hphase with
      | waiting hnil => exact absurd hnil (hstarted request hmem)
      | opened _ _ hnone => exact hnone
      | reduced _ hnone => exact hnone
    exact nonce_ne_of_orphanOf hnone orphan horphan hnonce.symm

/-- **Finalization closes the books.** When all has come, every request is reduced once. -/
theorem Joined.finalize (h : Joined options requests false events s)
    (hw : Workload options requests)
    (hall : ∀ request ∈ requests, planes (events request.nonce) = request.plane ∧
      boundaries (events request.nonce) = request.boundary ∧
      apps (events request.nonce) = request.app) :
    Books options requests (ExternalReducer.finalize options s) ∧
      (ExternalReducer.finalize options s).active = [] ∧
      ((ExternalReducer.finalize options s).closed.map Active.request).Perm requests := by
  obtain ⟨hready, horphans⟩ := h.complete hw hall
  have hstart : Joined options requests true events { s with finalized := true } :=
    ⟨⟨h.sound.active, h.sound.orphans, h.sound.recent, h.sound.recentOrder, h.sound.nonces,
        h.sound.orphanNonces, h.sound.records, h.sound.accepted⟩,
      ⟨h.books.reports, h.books.closed, h.books.nonces, h.books.recent, h.books.decisions,
        h.books.counters, h.books.heads, h.books.traces⟩,
      rfl, h.active, h.orphans,
      fun request hmem => (h.phase request hmem).congr ⟨rfl, rfl, Iff.rfl⟩⟩
  have hend := hstart.reduceAll hw s.active h.sound.nonces fun record hrecord =>
    ⟨owns_of_mem (s := { s with finalized := true }) h.sound.nonces hrecord,
      (hready record hrecord).1, (hready record hrecord).2⟩
  have hactive := active_reduceAll options { s with finalized := true } s.active
  have horphans' := orphans_reduceAll options { s with finalized := true } s.active
  rw [ExternalReducer.finalize, if_neg (by rw [h.finalized]; exact Bool.false_ne_true)]
  dsimp only
  generalize s.active.foldl (ExternalReducer.reduce options) { s with finalized := true } = t at *
  have hnone : t.orphans = [] := horphans'.trans horphans
  have hempty : t.active = [] := by
    rw [hactive]
    exact List.filter_eq_nil_iff.2 fun other hother => by
      simpa using ⟨other, hother, rfl⟩
  rw [hnone, List.foldl_nil]
  refine ⟨hend.books.withOrphans [], hempty, ?_⟩
  refine (List.perm_ext_iff_of_nodup (nodup_requests_of_nonces hend.books.nonces)
    hw.nonces.of_map).2 fun request => ⟨fun hclosed => ?_, fun hmem => ?_⟩
  · obtain ⟨record, hrecord, rfl⟩ := List.mem_map.1 hclosed
    exact hend.books.closed record hrecord
  · have hphase := hend.phase request hmem
    cases hphase with
    | waiting hnil =>
      obtain ⟨before, last, hends, -⟩ := (hw.clean request hmem).ends
      rw [(hall request hmem).1, hends] at hnil
      exact absurd hnil (List.append_ne_nil_of_right_ne_nil _ (List.cons_ne_nil _ _))
    | opened record howns =>
      rw [owns, hempty] at howns
      cases howns
    | reduced _ _ _ _ _ hclosed =>
      obtain ⟨record, hrecord, hnonce⟩ := List.mem_map.1 hclosed
      rw [← hw.eq_of_nonce (hend.books.closed record hrecord) hmem hnonce]
      exact List.mem_map.2 ⟨record, hrecord, rfl⟩

/-! ## Runs -/

/-- A call delivers to one nonce. -/
theorem delivery_eq_none {call : Call} {nonce other : String} {event : StreamEvent}
    (h : call.delivery nonce = some event) (hne : other ≠ nonce) : call.delivery other = none := by
  cases call with
  | ingestPlane plane now later =>
    simp only [Call.delivery, Option.ite_none_right_eq_some] at h
    exact if_neg fun heq => hne (heq.symm.trans h.1)
  | ingestBoundary boundary now =>
    simp only [Call.delivery, Option.ite_none_right_eq_some] at h
    exact if_neg fun heq => hne (Option.some.inj (heq.symm.trans h.1))
  | ingestApp app now =>
    simp only [Call.delivery, Option.ite_none_right_eq_some] at h
    exact if_neg fun heq => hne (Option.some.inj (heq.symm.trans h.1))
  | sweep now => rfl
  | finalize => rfl

theorem delivered_concat (nonce : String) (calls : List Call) (call : Call) :
    delivered nonce (calls ++ [call]) = delivered nonce calls ++ (call.delivery nonce).toList := by
  rw [delivered, List.filterMap_append, ← delivered]
  cases hcall : call.delivery nonce <;> simp [hcall]

theorem advances_of_delivery {calls rest : List Call} {call : Call}
    (hinterleaves : Interleaves requests (calls ++ call :: rest)) (hmem : request ∈ requests)
    (hevent : call.delivery request.nonce = some event) :
    Advances request event (fun nonce => delivered nonce calls)
      fun nonce => delivered nonce (calls ++ [call]) := by
  refine ⟨?_, fun nonce hne => ?_, delivered request.nonce rest, ?_⟩
  · rw [delivered_concat, hevent]
    rfl
  · rw [delivered_concat, delivery_eq_none hevent hne]
    exact List.append_nil _
  · have hstreams := hinterleaves.streams request hmem
    have hall : delivered request.nonce (calls ++ call :: rest) =
        delivered request.nonce calls ++ event :: delivered request.nonce rest := by
      rw [delivered, List.filterMap_append, List.filterMap_cons_some hevent]
      rfl
    rwa [hall] at hstreams

/-- **One call of an interleaving.** -/
theorem Joined.step {calls rest : List Call} {call : Call}
    (h : Joined options requests false (fun nonce => delivered nonce calls) s)
    (hw : Workload options requests)
    (hinterleaves : Interleaves requests (calls ++ call :: rest))
    (htimely : Timely options requests s call) (hroomy : Roomy options s call) :
    Joined options requests false (fun nonce => delivered nonce (calls ++ [call]))
      (step options s call).1 := by
  rcases hinterleaves.known call (List.mem_append_right _ List.mem_cons_self) with hsweep | hknown
  · cases call with
    | sweep now =>
      have hsame : (fun nonce => delivered nonce (calls ++ [Call.sweep now])) =
          fun nonce => delivered nonce calls := by
        funext nonce
        rw [delivered_concat]
        exact List.append_nil _
      obtain ⟨hpending, horphans⟩ := htimely.1 now (List.mem_singleton.2 rfl)
      rw [hsame]
      exact h.sweep hw hpending horphans
    | ingestPlane event now later => cases hsweep
    | ingestBoundary event now => cases hsweep
    | ingestApp event now => cases hsweep
    | finalize => cases hsweep
  · obtain ⟨request, hmem, hdelivery⟩ := hknown
    obtain ⟨event, hevent⟩ := Option.isSome_iff_exists.1 hdelivery
    have hadvances := advances_of_delivery hinterleaves hmem hevent
    cases call with
    | ingestPlane plane now later =>
      simp only [Call.delivery, Option.ite_none_right_eq_some, Option.some.injEq] at hevent
      obtain ⟨hnonce, rfl⟩ := hevent
      exact h.ingestPlane hw hmem hadvances hnonce htimely.2 (hnonce ▸ hroomy)
    | ingestBoundary boundary now =>
      simp only [Call.delivery, Option.ite_none_right_eq_some, Option.some.injEq] at hevent
      obtain ⟨hnonce, rfl⟩ := hevent
      have hpending := (htimely.1 now (List.mem_singleton.2 rfl)).1
      rw [ExternalReducer.step, hnonce]
      exact h.ingestDownstream hw hmem hadvances (by simp) hpending (hroomy _ hnonce)
    | ingestApp app now =>
      simp only [Call.delivery, Option.ite_none_right_eq_some, Option.some.injEq] at hevent
      obtain ⟨hnonce, rfl⟩ := hevent
      have hpending := (htimely.1 now (List.mem_singleton.2 rfl)).1
      rw [ExternalReducer.step, hnonce]
      exact h.ingestDownstream hw hmem hadvances (by simp) hpending (hroomy _ hnonce)
    | sweep now => cases hevent
    | finalize => cases hevent

variable (options requests) in
/-- Every call of a run is within the graces and finds room in the tables. -/
def StaysWithin (calls : List Call) : Prop :=
  ∀ e ∈ trace (step options) {} calls,
    Timely options requests e.pre e.input ∧ Roomy options e.pre e.input

theorem joined_run (hw : Workload options requests) {calls : List Call}
    (hinterleaves : Interleaves requests calls) (hwithin : StaysWithin options requests calls) :
    Joined options requests false (fun nonce => delivered nonce calls)
      (exec (step options) {} calls) := by
  suffices hprefixes : ∀ begun rest, begun ++ rest = calls →
      Joined options requests false (fun nonce => delivered nonce begun)
        (exec (step options) {} begun) from
    hprefixes calls [] (List.append_nil calls)
  intro begun
  induction begun using List.reverseRecOn with
  | nil => exact fun _ _ => joined_initial
  | append_singleton begun call ih =>
    rintro rest rfl
    rw [← List.append_cons] at hinterleaves hwithin ih
    rw [exec_append]
    have hentry : entry (ExternalReducer.step options) (exec (ExternalReducer.step options) {} begun)
        call ∈ trace (ExternalReducer.step options) {} (begun ++ call :: rest) := by
      rw [trace_append]
      exact List.mem_append_right _ List.mem_cons_self
    obtain ⟨htimely, hroomy⟩ := hwithin _ hentry
    exact (ih (call :: rest) rfl).step hw hinterleaves htimely hroomy

/-- The state a run ends in, when it is finalized. -/
def finalState (options : ReducerOptions) (calls : List Call) : ExternalReducer :=
  exec (step options) {} (calls ++ [.finalize])

/-- **The reducer does not depend on the interleaving.** In every state accepted is reduced and open.
However the streams of a workload are interleaved within the graces and the caps, nothing is
reported, every request is reduced once, and every counter but those of the sample of traces comes to
what the requests spend. Those come to the same too when every request fits the sample. -/
theorem interleaving_irrelevant (options : ReducerOptions) :
    (∀ calls, (exec (step options) {} calls).counterState.count .accepted =
      (exec (step options) {} calls).counterState.count .reduced +
        (exec (step options) {} calls).active.length) ∧
    ∀ (requests : List Request) (calls : List Call), Workload options requests →
      Interleaves requests calls → StaysWithin options requests calls →
      (finalState options calls).reports = [] ∧
      (finalState options calls).active = [] ∧
      ((finalState options calls).closed.map Active.request).Perm requests ∧
      (finalState options calls).unsampled =
        (requests.flatMap (Request.spent options.allowedShed) : ExternalCounters) ∧
      (requests.length ≤ options.limits.headTraces → requests.length ≤ options.limits.maxTraces →
        (finalState options calls).counterState =
          (requests.flatMap (Request.spent options.allowedShed) : ExternalCounters) +
            Multiset.replicate requests.length .tracesRetained) := by
  refine ⟨fun calls => (sound_run options calls).accepted, fun requests calls hw hinterleaves
    hwithin => ?_⟩
  have hrun := joined_run hw hinterleaves hwithin
  obtain ⟨hbooks, hactive, hperm⟩ := hrun.finalize hw hinterleaves.streams
  have hfinal : finalState options calls =
      ExternalReducer.finalize options (exec (step options) {} calls) := by
    rw [finalState, exec_append]
    rfl
  rw [hfinal]
  have hcounters := hbooks.counters
  rw [hactive, List.flatMap_nil, Multiset.coe_nil, add_zero,
    Multiset.coe_eq_coe.2 (hperm.flatMap_right _)] at hcounters
  refine ⟨hbooks.reports, hactive, hperm, hcounters, fun hhead hroom => ?_⟩
  have hlength := hperm.length_eq
  rw [List.length_map] at hlength
  rw [← hlength] at hhead hroom ⊢
  rw [counterState_eq, hcounters, (hbooks.traces hhead hroom).2]

/-! ## Two requests of one kind, and one the reducer does not wait for -/

instance (calls : List Call) : Decidable (Interleaves requests calls) :=
  decidable_of_iff
    ((∀ request ∈ requests, planes (delivered request.nonce calls) = request.plane ∧
      boundaries (delivered request.nonce calls) = request.boundary ∧
      apps (delivered request.nonce calls) = request.app) ∧
    ∀ call ∈ calls, call.isSweep = true ∨
      ∃ request ∈ requests, (call.delivery request.nonce).isSome = true)
    ⟨fun h => ⟨h.1, h.2⟩, fun h => ⟨h.1, h.2⟩⟩

instance (call : Call) : Decidable (Timely options requests s call) :=
  match call with
  | .ingestPlane .. | .ingestBoundary .. | .ingestApp .. | .sweep _ | .finalize =>
    inferInstanceAs (Decidable (_ ∧ _))

instance (call : Call) : Decidable (Roomy options s call) :=
  match call with
  | .ingestPlane .. => inferInstanceAs (Decidable (_ → _))
  | .ingestBoundary .. | .ingestApp .. => inferInstanceAs (Decidable (∀ nonce ∈ _, _))
  | .sweep _ | .finalize => isTrue trivial

instance (calls : List Call) : Decidable (StaysWithin options requests calls) :=
  inferInstanceAs (Decidable (∀ e ∈ trace (step options) {} calls, _))

/-- A request the boundary forwards: how the forward ended, the status it came to, and what the app
did. -/
def forwarded (nonce : String) (relayed : BoundaryEvent) (status : ℕ) (acted : List AppEvent) :
    Request where
  nonce
  plane := [
    { seq := 1, nonce, kind := .ingressAccepted, ingress := some .external },
    { seq := 2, nonce, kind := .l1Entered },
    { seq := 3, nonce, kind := .l1Passed },
    { seq := 4, nonce, kind := .l2Entered },
    { seq := 5, nonce, kind := .l2Decided, cls := some .open, lane := some (some .open)
      outcome := some .admitted },
    { seq := 6, nonce, kind := .egressAttempted },
    { seq := 7, nonce, kind := .proofIssued, pbTag := some "pb" },
    { seq := 8, nonce, kind := .egressResponded, status := some status },
    { seq := 9, nonce, kind := .ingressResponded, status := some status }]
  boundary := [
    { seq := 1, nonce := some nonce, kind := .boundaryArrived },
    { seq := 2, nonce := some nonce, kind := .boundaryAdmitted, hop := some 6, pbTag := some "pb" },
    { seq := 3, nonce := some nonce, kind := .appProofIssued, hop := some 6, pbTag := some "pb"
      baTag := some "ba" },
    { seq := 4, nonce := some nonce, kind := .boundaryForwarded },
    relayed,
    { seq := 6, nonce := some nonce, kind := .boundaryResponded, status := some status }]
  app := { seq := 1, nonce := some nonce, kind := .appAdmitted, hop := some 6, pbTag := some "pb"
           baTag := some "ba" } :: acted

/-- The app answers without executing. -/
def idle : Request :=
  forwarded "idle" { seq := 5, nonce := some "idle", kind := .boundaryForwardResponded
                     status := some 200 } 200
    [{ seq := 2, nonce := some "idle", kind := .appCompleted, status := some 200 }]

/-- The app mutates and answers. -/
def mutating : Request :=
  forwarded "mutating" { seq := 5, nonce := some "mutating", kind := .boundaryForwardResponded
                         status := some 200 } 200
    [{ seq := 2, nonce := some "mutating", kind := .appExecuted },
      { seq := 3, nonce := some "mutating", kind := .appMutated },
      { seq := 4, nonce := some "mutating", kind := .appCompleted, status := some 200 }]

/-- The forward times out at the boundary after the app has admitted the request. -/
def timedOut : Request :=
  forwarded "timed out" { seq := 5, nonce := some "timed out", kind := .boundaryForwardFailed
                          forwardError := some .timeout } 502
    [{ seq := 2, nonce := some "timed out", kind := .appAborted }]

/-- The streams of a request, one after the other. -/
def deliveries (request : Request) : List Call :=
  request.plane.map (fun event => .ingestPlane event 0 0) ++
  request.boundary.map (fun event => .ingestBoundary event 0) ++
  request.app.map fun event => .ingestApp event 0

/-- The default limits, but for a sample of one trace of each kind. -/
def oneOfKind : ReducerOptions :=
  ⟨{ DEFAULT_EXTERNAL_LIMITS with headTraces := 0, perKindTraces := 1 }, []⟩

/-- A clean request whose app is not waited for is reduced too early, and two requests of one kind
leave as many traces as their order decides. -/
theorem interleaving_relevant :
    (timedOut.Clean ∧ Interleaves [timedOut] (deliveries timedOut) ∧
      StaysWithin ⟨DEFAULT_EXTERNAL_LIMITS, []⟩ [timedOut] (deliveries timedOut) ∧
      (finalState ⟨DEFAULT_EXTERNAL_LIMITS, []⟩ (deliveries timedOut)).reports.map Report.code =
        [.missingTransition, .externalLateEvent, .externalLateEvent]) ∧
    Workload oneOfKind [idle, mutating] ∧
    (∀ calls ∈ [deliveries idle ++ deliveries mutating, deliveries mutating ++ deliveries idle],
      Interleaves [idle, mutating] calls ∧ StaysWithin oneOfKind [idle, mutating] calls) ∧
    (finalState oneOfKind (deliveries idle ++ deliveries mutating)).counterState.count
      .tracesRetained = 2 ∧
    (finalState oneOfKind (deliveries mutating ++ deliveries idle)).counterState.count
      .tracesRetained = 1 := by
  refine ⟨⟨by decide, by decide, by decide +kernel, by decide +kernel⟩,
    ⟨by decide, by decide +kernel, by decide +kernel, by decide, by decide, by decide,
      by decide⟩, by decide +kernel, by decide +kernel, by decide +kernel⟩

theorem interleaving_irrelevant_of_two :
    (finalState oneOfKind (deliveries mutating ++ deliveries idle)).reports = [] ∧
    (finalState oneOfKind (deliveries mutating ++ deliveries idle)).unsampled =
      ([idle, mutating].flatMap (Request.spent []) : ExternalCounters) :=
  have h := (interleaving_irrelevant oneOfKind).2 [idle, mutating]
    (deliveries mutating ++ deliveries idle)
    ⟨by decide, by decide, by decide, by decide, by decide, by decide,
      by decide⟩
    (by decide) (by decide +kernel)
  ⟨h.1, h.2.2.2.1⟩

end ExternalReducer

end Limitmark.External
