import Limitmark.Plane.StoryRules

/-!
# What the front tells

Whatever L1 and the upstream answer, whenever the client leaves and whatever other requests do in
between, the events of one request are the beginning of a story: the invariant of the handler
(`Told`), with one case for each place it is suspended at, and kept by every input (`told_step`).

The invariant also says whether the decision of the story satisfies its rules. It does as long as
no step has discarded the verdict on an open operation that took too long.
-/

namespace Limitmark.Plane

open Limitmark.Defense Limitmark.Lanes Limitmark.Foundations Limitmark.Ledger
open FrontState (event decisionEvent verdictEvent acceptedEvent refusalStatus egressStatus)

/-! ## What is written -/

/-- The events tell `es`, numbered upwards, and the next number is above them all. -/
structure Written (events : List PlaneEvent) (nextSeq : ℤ) (es : List PlaneEvent) : Prop where
  plain : events.map Plane.plain = es
  numbered : (-1 :: (events.map PlaneEvent.seq ++ [nextSeq])).IsChain (· < ·)

theorem Written.emit {s : FrontState} {es : List PlaneEvent}
    (h : Written s.events s.nextSeq es) (e : PlaneEvent) (he : Plane.plain e = e) :
    Written (s.emit e).events (s.emit e).nextSeq (es ++ [e]) where
  plain := by
    have hnumbered : Plane.plain { e with seq := s.nextSeq, nonce := s.nonce } = e := he
    simp [FrontState.emit, h.plain, hnumbered]
  numbered := by
    simp only [FrontState.emit, List.map_append, List.map_cons, List.map_nil, List.append_assoc,
      List.cons_append, List.nil_append, List.isChain_cons_append_cons_cons]
    exact ⟨h.numbered, by omega, List.isChain_singleton _⟩

theorem Written.others {events es : List PlaneEvent} {nextSeq : ℤ} (n : ℕ)
    (h : Written events nextSeq es) : Written events (nextSeq + n) es where
  plain := h.plain
  numbered := by
    have hchain := h.numbered
    rw [← List.cons_append, List.isChain_append] at hchain ⊢
    refine ⟨hchain.1, List.isChain_singleton _, fun x hx y hy => ?_⟩
    have hlt := hchain.2.2 x hx nextSeq rfl
    obtain rfl := Option.some.inj hy
    omega

/-! ## The decision of a call -/

/-- The fields an event of a decision carries are those of the decision, whatever the stage made. -/
theorem ordinary_decision {call : Call} (timeoutMs elapsed : ℚ)
    (hmade : ∀ made, call.made = some made → MadeFor call.cls made) :
    Ordinary (call.decision timeoutMs elapsed) ∧
      (call.decision timeoutMs elapsed).cls = call.cls := by
  have hfailure (failure : L2Failure) : Ordinary (failureDecision call.cls failure) ∧
      (failureDecision call.cls failure).cls = call.cls := by
    cases h : call.cls <;> cases failure <;> refine ⟨⟨rfl, rfl, ?_, ?_⟩, rfl⟩ <;> intros <;> rfl
  rcases decision_cases timeoutMs elapsed hmade with
    ⟨-, hd⟩ | ⟨made, -, hfor, ⟨hd, -⟩ | ⟨-, hne, hd⟩⟩ <;> rw [hd]
  · exact hfailure .saturation
  · obtain ⟨s, s', h⟩ := hfor
    cases h with
    | opened h => exact ⟨⟨rfl, rfl, fun _ => rfl, fun _ => rfl⟩, h.symm⟩
    | ledgerFull => exact ⟨⟨rfl, rfl, fun _ => rfl, fun _ => rfl⟩, rfl⟩
    | taken => exact ⟨⟨rfl, rfl, by simp [takenDecision], by simp [takenDecision]⟩, rfl⟩
  · rcases discarded_cases hfor hne with ⟨hcls, h⟩ | ⟨lane, creditTag, k, -, -, -, h⟩ <;> rw [h]
    · exact ⟨⟨rfl, rfl, fun _ => rfl, fun _ => rfl⟩, hcls.symm⟩
    · exact ⟨⟨rfl, rfl, by simp, by simp⟩, rfl⟩

/-! ## The invariant -/

/-- The decision, if there is one, satisfies its rules exactly when `keeps` holds. -/
def Judged (decision : Option LaneDecision) (keeps : Prop) : Prop :=
  ∀ view, keeps ↔ ∀ d, decision = some d → decisionRules view d = []

theorem judged_none {keeps : Prop} : Judged none keeps ↔ keeps := by
  constructor
  · intro h
    exact (h ⟨"", .protectedLane, [], [], [], none, none, false⟩).2 (by simp)
  · intro h view
    simp [h]

/-- A decision that may be followed by egress. -/
structure Approves (req : IncomingRequest) (d : LaneDecision) : Prop where
  ordinary : Ordinary d
  proceeds : proceeds d = true
  cls : d.cls = operationClassOf req.method req.url

/-- What the observation of a story has become. -/
inductive Observed (story : Story) (disposition : Option PlaneEvent) : Option Observation → Prop
  | none : disposition = none → Observed story disposition none
  | some {o d} : story.decision = some d → d.cls = .open → proceeds d = true → Ordinary d →
      o.early = (Observation.create d).early → (o.verdict.isSome → story.isResponded) →
      o.done = disposition.isSome → Observed story disposition (some o)

/-- The events tell a whole story, and its disposition if there is one yet. -/
structure Tells (l2 : Bool) (keeps : Prop) (s : FrontState) (story : Story)
    (disposition : Option PlaneEvent) : Prop where
  legal : story.Legal l2
  judged : Judged story.decision keeps
  disposes : ∀ e, disposition = some e → Disposes story e
  written : Written s.events s.nextSeq
    (story.events (acceptedEvent s.incoming) ++ disposition.toList)
  observed : Observed story disposition s.observation

/-- What the events of a request tell, wherever its handler is suspended. -/
inductive Told (l2 : Bool) (keeps : Prop) (s : FrontState) : Prop
  | readingBody (hphase : s.phase = .readingBody) (hkeeps : keeps) (hobs : s.observation = none)
      (hwritten : Written s.events s.nextSeq [acceptedEvent s.incoming])
  | l1 (hphase : s.phase = .l1) (hkeeps : keeps) (hobs : s.observation = none)
      (hwritten : Written s.events s.nextSeq [acceptedEvent s.incoming, event .l1Entered])
  | l2 (hphase : s.phase = .l2) (hkeeps : keeps) (hobs : s.observation = none) (hl2 : l2 = true)
      (hwritten : Written s.events s.nextSeq
        ([acceptedEvent s.incoming, event .l1Entered] ++ [event .l1Passed] ++ [event .l2Entered]))
  | forwarding {decision : Option LaneDecision} {proof : Option String}
      (hphase : s.phase = .forwarding) (hl2 : decision.isSome = l2)
      (happroves : ∀ d, decision = some d → Approves s.incoming d)
      (hjudged : Judged decision keeps) (hobs : s.observation = decision.bind s.observe)
      (hwritten : Written s.events s.nextSeq
        (egressEvents (acceptedEvent s.incoming) decision proof))
  | closing {story : Story} {disposition : Option PlaneEvent} (hphase : s.phase = .closing)
      (htells : Tells l2 keeps s story disposition) (hstatus : s.res.statusCode = story.status)
  | done {story : Story} {disposition : Option PlaneEvent} {flushed : Bool}
      (hphase : s.phase = .done) (hlegal : story.Legal l2) (hjudged : Judged story.decision keeps)
      (hdisposes : ∀ e, disposition = some e → Disposes story e)
      (hwritten : Written s.events s.nextSeq
        (finished s.incoming story disposition flushed))

section Steps

variable {options : FrontOptions} {l2 : Bool} {keeps : Prop} {s : FrontState} {story : Story}
  {disposition : Option PlaneEvent}

/-! ## The end of the handler -/

/-- The reason an observation is closed with is `degraded` exactly for a degraded decision. -/
theorem finalReason_of_early {o : Observation} {d : LaneDecision} (hordinary : Ordinary d)
    (hearly : o.early = (Observation.create d).early) :
    (o.finalReason = .degraded ↔ d.outcome = .degraded) ∧ o.finalReason ≠ .simulated := by
  have hcreate : o.early = if d.outcome = .degraded then some .degraded else none := by
    rw [hearly, Observation.create, hordinary.basis]
    simp
  rw [Observation.finalReason, hcreate]
  by_cases hdegraded : d.outcome = .degraded
  · simp [hdegraded]
  · simp only [hdegraded, if_false, iff_false]
    rcases o.verdict with _ | _ | _ <;> simp [ObservationVerdict.skipReason]

theorem Tells.finalize (h : Tells l2 keeps s story disposition) :
    ∃ disposition', (∀ e, disposition' = some e → Disposes story e) ∧
      Written s.finalize.events s.finalize.nextSeq
        (story.events (acceptedEvent s.incoming) ++ disposition'.toList) := by
  rw [FrontState.finalize]
  cases hobs : s.observation with
  | none => exact ⟨disposition, h.disposes, h.written⟩
  | some o =>
    dsimp only
    split_ifs with hdone
    · exact ⟨disposition, h.disposes, h.written⟩
    · have hobserved := h.observed
      rw [hobs] at hobserved
      cases hobserved with
      | @some _ d hd hcls hproceeds hordinary hearly _ hdisp =>
        obtain rfl : disposition = none := by
          cases disposition with
          | none => rfl
          | some e => exact absurd hdisp hdone
        obtain ⟨hreason, hne⟩ := finalReason_of_early hordinary hearly
        refine ⟨some { event .l2EnrollSkipped with skipReason := some o.finalReason }, ?_, ?_⟩
        · intro e he
          obtain rfl := Option.some.inj he
          exact ⟨d, hd, hcls, hproceeds, .skipped hreason hne⟩
        · have hwritten := h.written
          rw [Option.toList_none, List.append_nil] at hwritten
          exact hwritten.emit _ rfl

theorem finalize_res (s : FrontState) : s.finalize.res = s.res := by
  rw [FrontState.finalize]
  cases s.observation with
  | none => rfl
  | some o =>
    dsimp only
    split_ifs <;> rfl

theorem finalize_incoming (s : FrontState) : s.finalize.incoming = s.incoming := by
  rw [FrontState.finalize]
  cases s.observation with
  | none => rfl
  | some o =>
    dsimp only
    split_ifs <;> rfl

/-- The disposition, if one is due, and the terminal event finish the story. -/
theorem Tells.terminate (h : Tells l2 keeps s story disposition) {flushed : Bool}
    (hstatus : s.res.ended = true → flushed = true → s.res.statusCode = story.status) :
    Told l2 keeps (s.terminate flushed) := by
  obtain ⟨disposition', hdisposes, hwritten⟩ := h.finalize
  rw [FrontState.terminate]
  simp only [finalize_res]
  by_cases hflushed : s.res.ended = true ∧ flushed = true
  · rw [if_pos hflushed, hstatus hflushed.1 hflushed.2]
    have hdone := hwritten.emit { event .ingressResponded with status := some story.status } rfl
    rw [← finalize_incoming s] at hdone
    exact @Told.done _ _ _ story disposition' true rfl h.legal h.judged hdisposes hdone
  · rw [if_neg hflushed]
    have hdone := hwritten.emit (event .ingressAborted) rfl
    rw [← finalize_incoming s] at hdone
    exact @Told.done _ _ _ story disposition' false rfl h.legal h.judged hdisposes hdone

/-- The answer of a story is written to the client, unless it has left. -/
theorem Tells.answer (h : Tells l2 keeps s story none) :
    Told l2 keeps (s.respond story.status).tail := by
  rw [FrontState.respond]
  by_cases hdestroyed : s.res.destroyed = true
  · rw [if_pos hdestroyed, FrontState.tail, if_pos hdestroyed]
    exact h.terminate (by simp)
  · rw [if_neg hdestroyed, FrontState.tail, if_neg hdestroyed]
    exact .closing rfl ⟨h.legal, h.judged, h.disposes, h.written, h.observed⟩ rfl

/-! ## The egress -/

/-- What is observed of a decision on the form route is on an open operation. -/
theorem observed_observe (hobs : s.observation = story.decision.bind s.observe)
    (happroves : ∀ d, story.decision = some d → Approves s.incoming d) :
    Observed story none s.observation := by
  rw [hobs]
  cases hdecision : story.decision with
  | none => exact .none rfl
  | some d =>
    obtain ⟨hordinary, hproceeds, hcls⟩ := happroves d hdecision
    rw [Option.bind_some, FrontState.observe]
    split_ifs with hroute
    · rw [operationClassOf_of_isFormRoute hroute] at hcls
      exact .some hdecision hcls hproceeds hordinary rfl (fun h => by cases h) rfl
    · exact .none rfl

/-- An egress that failed is answered. -/
theorem told_failed {decision : Option LaneDecision} {proof : Option String}
    (hl2 : decision.isSome = l2) (happroves : ∀ d, decision = some d → Approves s.incoming d)
    (hjudged : Judged decision keeps) (hobs : s.observation = decision.bind s.observe)
    (hwritten : Written s.events s.nextSeq (egressEvents (acceptedEvent s.incoming) decision proof))
    (kind : EgressErrorKind) (stage : Option FailStage) :
    Told l2 keeps ((s.emit { event .egressFailed with
      egressError := some kind, failStage := stage }).respond (egressStatus kind)).tail := by
  refine @Tells.answer _ _ _ (.failed decision proof kind stage)
    ⟨.failed hl2 ?_, hjudged, by simp, ?_, ?_⟩
  · intro d hd
    exact ⟨(happroves d hd).ordinary, (happroves d hd).proceeds⟩
  · rw [Story.events, Option.toList_none, List.append_nil]
    exact hwritten.emit { event .egressFailed with
      egressError := some kind, failStage := stage } rfl
  · have hobserved : Observed (.failed decision proof kind stage) none s.observation :=
      observed_observe hobs happroves
    exact hobserved

/-- An approved request is sent to the upstream, or its proof was not issued. -/
theorem told_egress {decision : Option LaneDecision} (hl2 : decision.isSome = l2)
    (happroves : ∀ d, decision = some d → Approves s.incoming d)
    (hjudged : Judged decision keeps)
    (hwritten : Written s.events s.nextSeq (approvalEvents (acceptedEvent s.incoming) decision)) :
    Told l2 keeps (s.egress options decision) := by
  have hattempted : Written (s.emit (event .egressAttempted)).events
      (s.emit (event .egressAttempted)).nextSeq
      (egressEvents (acceptedEvent s.incoming) decision none) := by
    rw [egressEvents, List.append_nil]
    exact hwritten.emit (event .egressAttempted) rfl
  rw [FrontState.egress]
  cases options.hop with
  | none => exact .forwarding rfl hl2 happroves hjudged rfl hattempted
  | some issue =>
    dsimp only
    cases issue _ _ _ with
    | ok pbTag =>
      have hissued := hattempted.emit { event .proofIssued with pbTag := some pbTag } rfl
      rw [egressEvents, List.append_nil] at hissued
      exact @Told.forwarding _ _ _ decision (some pbTag) rfl hl2 happroves hjudged rfl hissued
    | error stage =>
      exact @told_failed l2 keeps
        { s.emit (event .egressAttempted) with observation := decision.bind s.observe } decision
        none hl2 happroves hjudged rfl hattempted .error _

/-- The upstream answers, or fails, and the answer is written. -/
theorem told_upstream {decision : Option LaneDecision} {proof : Option String}
    (hl2 : decision.isSome = l2) (happroves : ∀ d, decision = some d → Approves s.incoming d)
    (hjudged : Judged decision keeps) (hobs : s.observation = decision.bind s.observe)
    (hwritten : Written s.events s.nextSeq (egressEvents (acceptedEvent s.incoming) decision proof))
    (result : Upstream) : Told l2 keeps (s.upstream result) := by
  cases result with
  | failed kind => exact told_failed hl2 happroves hjudged hobs hwritten kind none
  | responded status verdict =>
    have hobserved : Observed (.responded decision proof status) none
        (s.observation.map (Observation.onUpstream verdict)) := by
      have h : Observed (.responded decision proof status) none s.observation :=
        observed_observe hobs happroves
      cases hnone : s.observation with
      | none => exact .none rfl
      | some o =>
        rw [hnone] at h
        cases h with
        | some hd hcls hproceeds hordinary hearly _ hdone =>
          refine .some hd hcls hproceeds hordinary ?_ (fun _ => trivial) ?_
          · rw [← hearly, Observation.onUpstream]
            split_ifs <;> rfl
          · rw [← hdone, Observation.onUpstream]
            split_ifs <;> rfl
    rw [FrontState.upstream]
    refine @Tells.answer _ _ _ (.responded decision proof status)
      ⟨.responded hl2 ?_, hjudged, by simp, ?_, ?_⟩
    · intro d hd
      exact ⟨(happroves d hd).ordinary, (happroves d hd).proceeds⟩
    · rw [Story.events, Option.toList_none, List.append_nil]
      have hresponded := hwritten.emit { event .egressResponded with status := some status } rfl
      dsimp only
      split_ifs <;> exact hresponded
    · dsimp only
      split_ifs <;> exact hobserved

/-! ## The layers -/

theorem told_enterL1 (body : BodyStatus × Option (List UInt8)) (hkeeps : keeps)
    (hobs : s.observation = none) (hwritten : Written s.events s.nextSeq [acceptedEvent s.incoming]) :
    Told l2 keeps (s.enterL1 body) :=
  .l1 rfl hkeeps hobs (hwritten.emit (event .l1Entered) rfl)

theorem told_accept (req : IncomingRequest) (minted : String) {seq : ℤ} (hseq : 0 ≤ seq) :
    Told l2 True (FrontState.accept req minted seq) := by
  have hwritten {s : FrontState} (hevents : s.events = []) (hnext : s.nextSeq = seq) :
      Written (s.emit (acceptedEvent req)).events (s.emit (acceptedEvent req)).nextSeq
        ([] ++ [acceptedEvent req]) := by
    apply Written.emit
    · rw [hevents, hnext]
      exact ⟨rfl, by simpa using by omega⟩
    · rfl
  rw [FrontState.accept]
  cases bodyPlan req with
  | read declared => exact .readingBody rfl trivial rfl (hwritten rfl rfl)
  | settled status body => exact told_enterL1 _ trivial rfl (hwritten rfl rfl)

/-- L1 has its outcome: the request is refused, or passed on. -/
theorem told_afterL1 (hl2 : options.l2.isSome = l2) (hkeeps : keeps) (hobs : s.observation = none)
    (hwritten : Written s.events s.nextSeq [acceptedEvent s.incoming, event .l1Entered])
    (outcome : LayerOutcome) : Told l2 keeps (s.afterL1 options outcome) := by
  have hverdict : Written (s.emit (verdictEvent outcome)).events
      (s.emit (verdictEvent outcome)).nextSeq
      ([acceptedEvent s.incoming, event .l1Entered] ++ [verdictEvent outcome]) :=
    hwritten.emit _ (by cases outcome <;> rfl)
  have hrefused (hne : outcome ≠ .pass) :
      Told l2 keeps ((s.emit (verdictEvent outcome)).respond (refusalStatus outcome)).tail := by
    refine @Tells.answer _ _ _ (.refused outcome)
      ⟨.refused hne, judged_none.2 hkeeps, by simp, ?_, ?_⟩
    · rw [Story.events, Option.toList_none, List.append_nil]
      exact hverdict
    · rw [FrontState.emit, hobs]
      exact .none rfl
  cases outcome with
  | pass =>
    rw [FrontState.afterL1]
    dsimp only
    split_ifs with h
    · exact .l2 rfl hkeeps hobs (hl2.symm.trans h) (hverdict.emit (event .l2Entered) rfl)
    · refine told_egress (by rw [← hl2]; simpa using h) (by simp) (judged_none.2 hkeeps) ?_
      rw [approvalEvents, List.append_nil]
      exact hverdict
  | reject reason => exact hrefused (by simp)
  | shed => exact hrefused (by simp)
  | error kind => exact hrefused (by simp)

/-- L2 has its decision: the request is refused, or passed on. -/
theorem told_afterL2 {decision : LaneDecision} (hl2 : l2 = true) (hordinary : Ordinary decision)
    (hcls : decision.cls = operationClassOf s.incoming.method s.incoming.url)
    (hjudged : Judged (some decision) keeps) (hobs : s.observation = none)
    (hwritten : Written s.events s.nextSeq
      ([acceptedEvent s.incoming, event .l1Entered] ++ [event .l1Passed] ++ [event .l2Entered])) :
    Told l2 keeps (s.afterL2 options decision) := by
  have hplain : plain (decisionEvent decision) = decisionEvent decision := rfl
  have hdecided := hwritten.emit _ hplain
  rw [FrontState.afterL2]
  split_ifs with hproceeds
  · refine told_egress hl2.symm ?_ hjudged hdecided
    rintro d hd
    obtain rfl := Option.some.inj hd
    exact ⟨hordinary, hproceeds, hcls⟩
  · refine @Tells.answer _ _ _ (.refusedL2 decision)
      ⟨.refusedL2 hl2 hordinary (by simpa using hproceeds), hjudged, by simp, ?_, ?_⟩
    · rw [Story.events, Option.toList_none, List.append_nil]
      exact hdecided
    · rw [FrontState.emit, hobs]
      exact .none rfl

/-! ## The delivery -/

/-- A delivered response of an admitted render enrolls its token, or is skipped. -/
theorem Tells.delivered (h : Tells l2 keeps s story disposition) (C : Crypto)
    (lanes : JourneyLanes) (t : Readings) (later : ℚ) :
    ∃ disposition', Tells l2 keeps (s.delivered C lanes t later) story disposition' := by
  rw [FrontState.delivered]
  cases hobs : s.observation with
  | none => exact ⟨disposition, h⟩
  | some o =>
    dsimp only
    cases htoken : o.deliverable with
    | none => exact ⟨disposition, h⟩
    | some token =>
      rw [Observation.deliverable] at htoken
      split_ifs at htoken with hfresh
      have hobserved := h.observed
      rw [hobs] at hobserved
      cases hobserved with
      | @some _ d hd hcls hproceeds hordinary hearly hresponded hdone =>
        have hnone : disposition = none := by
          cases disposition with
          | none => rfl
          | some e => exact absurd (Or.inl hdone) hfresh
        have hout : d.outcome ≠ .degraded := by
          intro hdegraded
          have hearly' : o.early = some .degraded := by
            rw [hearly, Observation.create, hdegraded, if_pos rfl]
          exact hfresh (Or.inr (by simp [hearly']))
        have hadmitted : d.outcome = .admitted := by
          simpa [proceeds, hout] using hproceeds
        have htold : story.isResponded := by
          apply hresponded
          cases hverdict : o.verdict with
          | none => simp [hverdict] at htoken
          | some => rfl
        have hwritten := h.written
        rw [hnone, Option.toList_none, List.append_nil] at hwritten
        have hmade {e : PlaneEvent} (he : Disposed d story.isResponded e) (hplain : plain e = e) :
            Tells l2 keeps (FrontState.emit e { s with observation := some { o with done := true } })
              story (some e) := by
          refine ⟨h.legal, h.judged, ?_, hwritten.emit e hplain,
            .some hd hcls hproceeds hordinary hearly hresponded rfl⟩
          intro e' he'
          obtain rfl := Option.some.inj he'
          exact ⟨d, hd, hcls, hproceeds, he⟩
        dsimp only
        cases (lanes.enroll C t token).2 with
        | ok creditTag => exact ⟨_, hmade (.enrolled htold hadmitted) rfl⟩
        | alreadyEnrolled =>
          exact ⟨_, hmade (.skipped (by simp [hadmitted]) (by simp)) rfl⟩

/-- A delivery changes neither the phase nor the response. -/
theorem delivered_keeps (C : Crypto) (lanes : JourneyLanes) (t : Readings) (later : ℚ)
    (s : FrontState) :
    (s.delivered C lanes t later).phase = s.phase ∧ (s.delivered C lanes t later).res = s.res := by
  rw [FrontState.delivered]
  cases s.observation with
  | none => exact ⟨rfl, rfl⟩
  | some o =>
    dsimp only
    cases o.deliverable with
    | none => exact ⟨rfl, rfl⟩
    | some token =>
      dsimp only
      cases (lanes.enroll C t token).2 <;> exact ⟨rfl, rfl⟩

theorem told_delivered (C : Crypto) (lanes : JourneyLanes) (t : Readings) (later : ℚ)
    (hphase : s.phase = .closing) (htells : Tells l2 keeps s story disposition)
    (hstatus : s.res.statusCode = story.status) :
    Told l2 keeps (({ s with res := { s.res with finishListener := false } } : FrontState).delivered
      C lanes t later) := by
  have htells' : Tells l2 keeps { s with res := { s.res with finishListener := false } } story
      disposition :=
    ⟨htells.legal, htells.judged, htells.disposes, htells.written, htells.observed⟩
  obtain ⟨disposition', hdelivered⟩ := htells'.delivered C lanes t later
  obtain ⟨hp, hres⟩ := delivered_keeps C lanes t later
    { s with res := { s.res with finishListener := false } }
  exact .closing (hp.trans hphase) hdelivered (by rw [hres]; exact hstatus)

/-! ## Every step -/

/-- The step settles a discarded verdict on an open operation. -/
def FrontState.DiscardsOpen (options : FrontOptions) (s : FrontState) : Input → Prop
  | .l2 _ _ entered elapsed => s.phase = .l2 ∧ entered = true ∧
      operationClassOf s.incoming.method s.incoming.url = .open ∧
      ∃ composer, options.l2 = some composer ∧ composer.timeoutMs < elapsed
  | _ => False

/-- The phase that awaits an answer. -/
def Input.awaitedIn : Input → Option Phase
  | .body _ => some .readingBody
  | .l1 _ => some .l1
  | .l2 _ _ _ _ => some .l2
  | .upstream _ => some .forwarding
  | .finish _ _ _ => some .closing
  | .close _ | .others _ => none

/-- An answer that nothing awaits is not heard. -/
theorem step_unheard (C : Crypto) {input : Input} {phase : Phase}
    (h : input.awaitedIn = some phase) (hne : s.phase ≠ phase) :
    (FrontState.step C options s input).1 = s := by
  cases input with
  | close | others => cases h
  | _ =>
    obtain rfl := Option.some.inj h
    cases hphase : s.phase <;> simp_all [FrontState.step]

/-- What is told depends on the phase, the observation, the events and the status alone. -/
theorem Told.congr (h : Told l2 keeps s) {s' : FrontState} (hphase : s'.phase = s.phase)
    (hincoming : s'.incoming = s.incoming) (hobs : s'.observation = s.observation)
    (hstatus : s'.res.statusCode = s.res.statusCode)
    (hwritten : ∀ es, Written s.events s.nextSeq es → Written s'.events s'.nextSeq es) :
    Told l2 keeps s' := by
  have hobserve : s'.observe = s.observe := by
    funext d
    rw [FrontState.observe, hincoming]
    rfl
  cases h with
  | readingBody hp hkeeps ho hw =>
    exact .readingBody (hphase.trans hp) hkeeps (hobs.trans ho) (hincoming ▸ hwritten _ hw)
  | l1 hp hkeeps ho hw =>
    exact .l1 (hphase.trans hp) hkeeps (hobs.trans ho) (hincoming ▸ hwritten _ hw)
  | l2 hp hkeeps ho hl2 hw =>
    exact .l2 (hphase.trans hp) hkeeps (hobs.trans ho) hl2 (hincoming ▸ hwritten _ hw)
  | forwarding hp hl2 happroves hjudged ho hw =>
    exact .forwarding (hphase.trans hp) hl2 (hincoming ▸ happroves) hjudged
      (by rw [hobs, ho, hobserve]) (hincoming ▸ hwritten _ hw)
  | closing hp htells hs =>
    exact .closing (hphase.trans hp) ⟨htells.legal, htells.judged, htells.disposes,
      hincoming ▸ hwritten _ htells.written, hobs ▸ htells.observed⟩ (hstatus.trans hs)
  | done hp hlegal hjudged hdisposes hw =>
    exact .done (hphase.trans hp) hlegal hjudged hdisposes (hincoming ▸ hwritten _ hw)

theorem told_close (C : Crypto) (h : Told l2 keeps s) (flushed : Bool) :
    Told l2 keeps (FrontState.step C options s (.close flushed)).1 := by
  have hleft : Told l2 keeps { s with res := { s.res with destroyed := true } } :=
    h.congr rfl rfl rfl rfl fun _ hw => hw
  rw [FrontState.step_close]
  split_ifs with hdone hclosing
  · exact h
  · cases h with
    | closing hphase htells hstatus =>
      have htells' : Tells l2 keeps { s with res := { s.res with destroyed := true } } _ _ :=
        ⟨htells.legal, htells.judged, htells.disposes, htells.written, htells.observed⟩
      exact htells'.terminate (fun _ (_ : flushed = true) => hstatus)
    | readingBody hphase | l1 hphase | l2 hphase | forwarding hphase | done hphase =>
      rw [hclosing] at hphase
      cases hphase
  · exact hleft

/-- The call of a request, with the decision any lanes make of it. -/
theorem madeFor_call {C : Crypto} {lanes : JourneyLanes} {t : Readings} {entered : Bool} :
    ∀ made, (s.call C lanes t entered).made = some made →
      MadeFor (s.call C lanes t entered).cls made := by
  intro made hmade
  rw [FrontState.call] at hmade
  cases entered with
  | false => cases hmade
  | true =>
    obtain rfl := Option.some.inj hmade
    exact ⟨_, _, JourneyLanes.decide_shape C t s.layerRequest lanes⟩

/-- The front's condition on a step is the stage's condition on the call. -/
theorem discardsOpen_iff (C : Crypto) {lanes : JourneyLanes} {t : Readings} {entered : Bool}
    {elapsed : ℚ} {composer : ComposerOptions} (hphase : s.phase = .l2)
    (hcomposer : options.l2 = some composer) :
    s.DiscardsOpen options (.l2 lanes t entered elapsed) ↔
      (s.call C lanes t entered).DiscardsOpen composer.timeoutMs elapsed := by
  rw [FrontState.DiscardsOpen, Call.DiscardsOpen, FrontState.call]
  cases entered <;> simp [hphase, hcomposer, Call.cls, FrontState.layerRequest]

/-- The rules of the decision of a request hold exactly when its verdict is not a discarded one. -/
theorem judged_decision (C : Crypto) {lanes : JourneyLanes} {t : Readings} {entered : Bool}
    {elapsed : ℚ} {composer : ComposerOptions} (hkeeps : keeps) (hphase : s.phase = .l2)
    (hcomposer : options.l2 = some composer) :
    Judged (some ((s.call C lanes t entered).decision composer.timeoutMs elapsed))
      (keeps ∧ ¬ s.DiscardsOpen options (.l2 lanes t entered elapsed)) := by
  intro view
  rw [discardsOpen_iff C hphase hcomposer,
    ← decisionRules_decision view composer.timeoutMs elapsed madeFor_call]
  simp [hkeeps]

theorem told_l2 (C : Crypto) (lanes : JourneyLanes) (t : Readings) (entered : Bool) (elapsed : ℚ)
    (hphase : s.phase = .l2) (hkeeps : keeps) (hobs : s.observation = none)
    (hl2 : options.l2.isSome = true)
    (hwritten : Written s.events s.nextSeq
      ([acceptedEvent s.incoming, event .l1Entered] ++ [event .l1Passed] ++ [event .l2Entered])) :
    Told options.l2.isSome (keeps ∧ ¬ s.DiscardsOpen options (.l2 lanes t entered elapsed))
      (FrontState.step C options s (.l2 lanes t entered elapsed)).1 := by
  obtain ⟨composer, hcomposer⟩ := Option.isSome_iff_exists.1 hl2
  have hmade : ∀ made, (s.call C lanes t entered).made = some made →
      MadeFor (s.call C lanes t entered).cls made := madeFor_call
  obtain ⟨hordinary, hcls⟩ := ordinary_decision composer.timeoutMs elapsed hmade
  rw [FrontState.step_l2 C hphase hcomposer]
  exact told_afterL2 hl2 hordinary hcls (judged_decision C hkeeps hphase hcomposer) hobs hwritten

/-- An answer that is heard keeps the story told. -/
theorem told_heard (C : Crypto) (h : Told options.l2.isSome keeps s) {input : Input}
    (hheard : input.awaitedIn = some s.phase) :
    Told options.l2.isSome (keeps ∧ ¬ s.DiscardsOpen options input)
      (FrontState.step C options s input).1 := by
  cases h with
  | readingBody hphase hkeeps hobs hwritten =>
    cases input <;> rw [hphase] at hheard <;> cases hheard
    rw [FrontState.step_body C hphase]
    simp only [FrontState.DiscardsOpen, not_false_iff, and_true]
    exact told_enterL1 _ hkeeps hobs hwritten
  | l1 hphase hkeeps hobs hwritten =>
    cases input <;> rw [hphase] at hheard <;> cases hheard
    rw [FrontState.step_l1 C hphase]
    simp only [FrontState.DiscardsOpen, not_false_iff, and_true]
    exact told_afterL1 rfl hkeeps hobs hwritten _
  | l2 hphase hkeeps hobs hl2 hwritten =>
    cases input <;> rw [hphase] at hheard <;> cases hheard
    exact told_l2 C _ _ _ _ hphase hkeeps hobs hl2 hwritten
  | forwarding hphase hl2 happroves hjudged hobs hwritten =>
    cases input <;> rw [hphase] at hheard <;> cases hheard
    rw [FrontState.step_upstream C hphase]
    simp only [FrontState.DiscardsOpen, not_false_iff, and_true]
    exact told_upstream hl2 happroves hjudged hobs hwritten _
  | closing hphase htells hstatus =>
    cases input <;> rw [hphase] at hheard <;> cases hheard
    rw [FrontState.step_finish C hphase]
    simp only [FrontState.DiscardsOpen, not_false_iff, and_true]
    split_ifs
    · exact told_delivered C _ _ _ hphase htells hstatus
    · exact .closing hphase htells hstatus
  | done hphase =>
    cases input <;> rw [hphase] at hheard <;> cases hheard

/-- **One input keeps the story told.** -/
theorem told_step (C : Crypto) (h : Told options.l2.isSome keeps s) (input : Input) :
    Told options.l2.isSome (keeps ∧ ¬ s.DiscardsOpen options input)
      (FrontState.step C options s input).1 := by
  cases hawaited : input.awaitedIn with
  | none =>
    cases input with
    | close flushed =>
      simp only [FrontState.DiscardsOpen, not_false_iff, and_true]
      exact told_close C h flushed
    | others n =>
      simp only [FrontState.DiscardsOpen, not_false_iff, and_true]
      rw [FrontState.step_others]
      exact h.congr rfl rfl rfl rfl fun _ hw => hw.others n
    | _ => cases hawaited
  | some phase =>
    by_cases hphase : s.phase = phase
    · exact told_heard C h (by rw [hawaited, hphase])
    · rw [step_unheard C hawaited hphase]
      have hopen : ¬ s.DiscardsOpen options input := by
        cases input <;> simp only [FrontState.DiscardsOpen, not_false_iff]
        rintro ⟨hl2, -⟩
        obtain rfl := Option.some.inj hawaited
        exact hphase hl2
      simpa only [hopen, not_false_iff, and_true] using h

end Steps

end Limitmark.Plane
