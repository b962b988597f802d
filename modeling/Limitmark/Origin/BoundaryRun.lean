import Limitmark.Origin.Boundary

/-!
# Runs of the Boundary

A request's stream is one of a few stories, according to where it is (`Story`), its events are
numbered upwards, and the counters count the events of all requests. A request has lost its
connection unheard exactly if that closed while its admission was pending (`ClosedEarly`).

`sound_step` is the step of this invariant, `sound_exec` its run.
-/

namespace Limitmark.Origin

open Limitmark.Defense Limitmark.Plane Limitmark.Hop Limitmark.Ledger Limitmark.Foundations

/-! ## Stories -/

def Request.kinds (request : Request) : List BoundaryEventKind :=
  request.stream.map BoundaryEvent.kind

/-- The streams of an admitted request that waits for its connection to close. -/
def admittedStories : List (List BoundaryEventKind) :=
  [[.boundaryArrived, .boundaryAdmitted],
    [.boundaryArrived, .boundaryAdmitted, .appProofIssued, .boundaryForwarded,
      .boundaryForwardResponded],
    [.boundaryArrived, .boundaryAdmitted, .appProofIssued, .boundaryForwarded,
      .boundaryForwardFailed]]

def rejectedStory : List BoundaryEventKind := [.boundaryArrived, .boundaryRejected]

def terminals : List BoundaryEventKind := [.boundaryResponded, .boundaryAborted]

/-- The stream of a request, by where the request is. -/
def Story : Phase → List BoundaryEventKind → Prop
  | .admitting _, kinds => kinds = []
  | .refused, kinds => kinds = rejectedStory
  | .forwarding, kinds =>
    kinds = [.boundaryArrived, .boundaryAdmitted, .appProofIssued, .boundaryForwarded]
  | .waiting, kinds => kinds ∈ admittedStories
  | .resolved, kinds => ∃ front ∈ rejectedStory :: admittedStories, ∃ last ∈ terminals,
      kinds = front ++ [last]

/-- Who has heard of the close of the connection. -/
def Request.Hears (request : Request) : Prop :=
  match request.phase with
  | .admitting _ | .refused => request.heard = false
  | .forwarding | .waiting => True
  | .resolved => request.heard = true

/-- The invariant of a request; `early` says that its connection closed while its admission was
pending. -/
structure Request.Sound (early : Prop) (request : Request) : Prop where
  story : Story request.phase request.kinds
  hears : request.Hears
  closed : request.heard = true → request.res.closed = true
  lost : early ↔ request.res.closed = true ∧ request.heard = false

/-! ## Numbers -/

/-- The events of a stream are numbered upwards, up to the last number given out. -/
def Numbered (lastSeq : ℕ) (stream : List BoundaryEvent) : Prop :=
  (-1 :: stream.map BoundaryEvent.seq).IsChain (· < ·) ∧
    ∀ event ∈ stream, event.seq ≤ (lastSeq : ℤ)

theorem kinds_withSeq (seq : ℕ) (events : List BoundaryEvent) :
    (withSeq seq events).map BoundaryEvent.kind = events.map BoundaryEvent.kind := by
  induction events generalizing seq with
  | nil => rfl
  | cons event events ih => simp [withSeq, ih]

theorem seq_withSeq (seq : ℕ) (events : List BoundaryEvent) :
    (withSeq seq events).Pairwise (fun a b => a.seq < b.seq) ∧
      ∀ event ∈ withSeq seq events, (seq : ℤ) < event.seq ∧ event.seq ≤ seq + events.length := by
  induction events generalizing seq with
  | nil => simp [withSeq]
  | cons event events ih =>
    obtain ⟨hpairwise, hbounds⟩ := ih (seq + 1)
    constructor
    · refine List.pairwise_cons.2 ⟨fun b hb => ?_, hpairwise⟩
      exact (hbounds b hb).1
    · intro b hb
      rcases List.mem_cons.1 hb with rfl | hb
      · simp
      · have h := hbounds b hb
        push_cast at h
        simp only [List.length_cons]
        push_cast
        omega

theorem numbered_iff (lastSeq : ℕ) (stream : List BoundaryEvent) :
    Numbered lastSeq stream ↔ stream.Pairwise (fun a b => a.seq < b.seq) ∧
      ∀ event ∈ stream, -1 < event.seq ∧ event.seq ≤ (lastSeq : ℤ) := by
  rw [Numbered, List.isChain_iff_pairwise, List.pairwise_cons, List.pairwise_map]
  simp only [List.mem_map, forall_exists_index, and_imp, forall_apply_eq_imp_iff₂]
  constructor
  · rintro ⟨⟨hlow, hpairwise⟩, hhigh⟩
    exact ⟨hpairwise, fun event hevent => ⟨hlow event hevent, hhigh event hevent⟩⟩
  · rintro ⟨hpairwise, hbounds⟩
    exact ⟨⟨fun event hevent => (hbounds event hevent).1, hpairwise⟩,
      fun event hevent => (hbounds event hevent).2⟩

theorem Numbered.mono {lastSeq lastSeq' : ℕ} {stream : List BoundaryEvent}
    (h : Numbered lastSeq stream) (hle : lastSeq ≤ lastSeq') : Numbered lastSeq' stream :=
  ⟨h.1, fun event hevent => (h.2 event hevent).trans (by exact_mod_cast hle)⟩

theorem Numbered.append {lastSeq : ℕ} {stream : List BoundaryEvent} (h : Numbered lastSeq stream)
    (events : List BoundaryEvent) :
    Numbered (lastSeq + events.length) (stream ++ withSeq lastSeq events) := by
  obtain ⟨hpairwise, hbounds⟩ := (numbered_iff _ _).1 h
  obtain ⟨hnew, hlater⟩ := seq_withSeq lastSeq events
  refine (numbered_iff _ _).2 ⟨List.pairwise_append.2 ⟨hpairwise, hnew, ?_⟩, ?_⟩
  · intro a ha b hb
    exact (hbounds a ha).2.trans_lt (hlater b hb).1
  · intro event hevent
    rcases List.mem_append.1 hevent with hevent | hevent
    · have h := hbounds event hevent
      push_cast
      omega
    · have h := hlater event hevent
      push_cast
      omega

/-! ## Counters -/

/-- The counter of the events of a kind. -/
def Counters.of (counters : Counters) : BoundaryEventKind → ℕ
  | .boundaryArrived => counters.arrived
  | .boundaryRejected => counters.rejected
  | .boundaryAdmitted => counters.admitted
  | .appProofIssued => counters.appProofsIssued
  | .boundaryForwarded => counters.relayed
  | .boundaryForwardResponded => counters.forwardResponded
  | .boundaryForwardFailed => counters.forwardFailed
  | .boundaryResponded => counters.responded
  | .boundaryAborted => counters.aborted
  -- no request emits these
  | .boundaryParserRejected | .boundaryProtocolRefused => 0

/-- The events of a kind that the requests have emitted. -/
def Boundary.tally (v : Boundary) (kind : BoundaryEventKind) : ℕ :=
  (v.requests.map fun request => request.kinds.count kind).sum

theorem sum_map_set {α : Type} (f : α → ℕ) {l : List α} {i : ℕ} {old new : α} {n : ℕ}
    (hold : l[i]? = some old) (hnew : f new = f old + n) :
    ((l.set i new).map f).sum = (l.map f).sum + n := by
  induction l generalizing i with
  | nil => simp at hold
  | cons a l ih =>
    cases i with
    | zero =>
      simp only [List.getElem?_cons_zero, Option.some.injEq] at hold
      subst hold
      simp only [List.set_cons_zero, List.map_cons, List.sum_cons, hnew]
      omega
    | succ i =>
      simp only [List.set_cons_succ, List.map_cons, List.sum_cons, ih hold]
      omega

/-! ## Steps -/

/-- The invariant of the Boundary. -/
structure Boundary.Sound (early : ℕ → Prop) (v : Boundary) : Prop where
  requests : ∀ i request, v.requests[i]? = some request → Request.Sound (early i) request
  numbered : ∀ request ∈ v.requests, Numbered v.lastSeq request.stream
  counters : ∀ kind, v.counters.of kind = v.tally kind
  early_lt : ∀ i, early i → i < v.requests.length

namespace Boundary

variable {v : Boundary} {early early' : ℕ → Prop} {i : ℕ} {request : Request}

/-- A request that moves on soundly, its events counted. -/
theorem Sound.put (h : v.Sound early) (hi : v.requests[i]? = some request)
    (hothers : ∀ j, j ≠ i → (early' j ↔ early j)) {request' : Request} {counters : Counters}
    {events : List BoundaryEvent} (hstream : request'.stream = request.stream)
    (hstory : Story request'.phase (request.kinds ++ events.map BoundaryEvent.kind))
    (hhears : request'.Hears) (hclosed : request'.heard = true → request'.res.closed = true)
    (hlost : early' i ↔ request'.res.closed = true ∧ request'.heard = false)
    (hcounters : ∀ kind, counters.of kind =
      v.counters.of kind + (events.map BoundaryEvent.kind).count kind) :
    (v.put i request' counters events).Sound early' := by
  have hlt : i < v.requests.length := (List.getElem?_eq_some_iff.1 hi).1
  have hkinds : (request'.stream ++ withSeq v.lastSeq events).map BoundaryEvent.kind =
      request.kinds ++ events.map BoundaryEvent.kind := by
    rw [List.map_append, kinds_withSeq, hstream]
    rfl
  refine ⟨?_, ?_, ?_, ?_⟩
  · intro j r hj
    simp only [Boundary.put, List.getElem?_set] at hj
    split_ifs at hj with heq
    · subst heq
      obtain rfl := Option.some.inj hj
      exact ⟨by rw [Request.kinds, hkinds]; exact hstory, hhears, hclosed, hlost⟩
    · have hsoundj := h.requests j r hj
      rw [← hothers j (Ne.symm heq)] at hsoundj
      exact hsoundj
  · intro r hr
    rcases List.mem_or_eq_of_mem_set hr with hr | rfl
    · exact (h.numbered r hr).mono (Nat.le_add_right _ _)
    · rw [hstream]
      exact (h.numbered request (List.mem_of_getElem? hi)).append events
  · intro kind
    have hcount : ((v.requests.set i
        { request' with stream := request'.stream ++ withSeq v.lastSeq events }).map
          fun request => request.kinds.count kind).sum =
        v.tally kind + (events.map BoundaryEvent.kind).count kind := by
      refine sum_map_set _ hi ?_
      rw [Request.kinds, hkinds, List.count_append]
    rw [tally]
    simp only [Boundary.put]
    rw [hcount, hcounters, h.counters]
  · intro j hj
    simp only [Boundary.put, List.length_set]
    by_cases heq : j = i
    · rw [heq]
      exact hlt
    · exact h.early_lt j ((hothers j heq).1 hj)

theorem Sound.arrive (h : v.Sound early) : v.arrive.Sound early := by
  refine ⟨?_, ?_, ?_, ?_⟩
  · intro j r hj
    simp only [Boundary.arrive, List.getElem?_append] at hj
    split_ifs at hj with hlt
    · exact h.requests j r hj
    · have hnot : ¬ early j := fun hearly => hlt (h.early_lt j hearly)
      have hr : r = { phase := .admitting v.verifier.calls.length } := by
        cases hsub : j - v.requests.length with
        | zero => simpa [hsub] using hj.symm
        | succ n => simp [hsub] at hj
      subst hr
      exact ⟨rfl, rfl, by simp, by simp [hnot]⟩
  · intro r hr
    rcases List.mem_append.1 hr with hr | hr
    · exact h.numbered r hr
    · rw [List.mem_singleton.1 hr]
      exact ⟨by simp, by simp⟩
  · intro kind
    simp only [Boundary.arrive, tally, List.map_append, List.sum_append]
    rw [h.counters kind, tally]
    simp [Request.kinds]
  · intro j hj
    have hlt := h.early_lt j hj
    simp only [Boundary.arrive, List.length_append]
    omega

theorem Sound.of_iff (h : v.Sound early) (hiff : ∀ j, early' j ↔ early j) : v.Sound early' := by
  obtain rfl : early' = early := funext fun j => propext (hiff j)
  exact h

/-! ### The moves of a request -/

theorem Response.sendStatus_closed (status : ℕ) (res : Response) :
    (res.sendStatus status).closed = res.closed := by
  rw [Response.sendStatus]
  split_ifs <;> rfl

theorem Sound.refuse (h : v.Sound early) (hi : v.requests[i]? = some request) {call : ℕ}
    (hphase : request.phase = .admitting call) (refused : Refused) :
    (v.refuse i request refused).Sound early := by
  obtain ⟨hstory, hhears, hclosed, hlost⟩ := h.requests i request hi
  rw [hphase] at hstory
  rw [Request.Hears, hphase] at hhears
  refine h.put hi (fun _ _ => Iff.rfl) rfl ?_ hhears ?_ ?_ ?_
  · rw [hstory]
    rfl
  · simpa only [Response.sendStatus_closed] using hclosed
  · simpa only [Response.sendStatus_closed] using hlost
  · intro kind
    cases kind <;> simp [Counters.of]

theorem Sound.handle (h : v.Sound early) (hi : v.requests[i]? = some request) {call : ℕ}
    (hphase : request.phase = .admitting call) (outcome : Admitted) (issued : Option String) :
    (v.handle i request outcome issued).Sound early := by
  obtain ⟨hstory, -, hclosed, hlost⟩ := h.requests i request hi
  rw [hphase] at hstory
  cases issued with
  | none =>
    refine h.put hi (fun _ _ => Iff.rfl) rfl ?_ trivial ?_ ?_ ?_
    · rw [hstory]
      simp [Story, admittedStories]
    · simpa only [Response.sendStatus_closed] using hclosed
    · simpa only [Response.sendStatus_closed] using hlost
    · intro kind
      cases kind <;> simp [Counters.of]
  | some tag =>
    refine h.put hi (fun _ _ => Iff.rfl) rfl ?_ trivial hclosed hlost ?_
    · rw [hstory]
      rfl
    · intro kind
      cases kind <;> simp [Counters.of]

/-- What the forward came to. -/
theorem Sound.fail (h : v.Sound early) (hi : v.requests[i]? = some request)
    (hphase : request.phase = .forwarding) (kind : EgressErrorKind) :
    (v.fail i request kind).Sound early := by
  obtain ⟨hstory, -, hclosed, hlost⟩ := h.requests i request hi
  rw [hphase] at hstory
  refine h.put hi (fun _ _ => Iff.rfl) rfl ?_ trivial ?_ ?_ ?_
  · rw [hstory]
    simp [Story, admittedStories]
  · simpa only [Response.sendStatus_closed] using hclosed
  · simpa only [Response.sendStatus_closed] using hlost
  · intro kind
    cases kind <;> simp [Counters.of]

theorem Sound.relay (h : v.Sound early) (hi : v.requests[i]? = some request)
    (hphase : request.phase = .forwarding) (status : ℕ) :
    (v.relay i request status).Sound early := by
  obtain ⟨hstory, -, hclosed, hlost⟩ := h.requests i request hi
  rw [hphase] at hstory
  have hres : (if request.res.closed then request.res else
      { request.res with ended := some status }).closed = request.res.closed := by
    split_ifs <;> rfl
  refine h.put hi (fun _ _ => Iff.rfl) rfl ?_ trivial ?_ ?_ ?_
  · rw [hstory]
    simp [Story, admittedStories]
  · simpa only [hres] using hclosed
  · simpa only [hres] using hlost
  · intro kind
    cases kind <;> simp [Counters.of]

/-- A request whose stream is one of the stories reports its terminal event. -/
theorem Sound.finish (h : v.Sound early) (hi : v.requests[i]? = some request)
    (hothers : ∀ j, j ≠ i → (early' j ↔ early j)) {request' : Request} (hstream : request'.stream = request.stream)
    (hkinds : request.kinds ∈ rejectedStory :: admittedStories)
    (hheard : request'.heard = true) (hclosed : request'.res.closed = true) (hnot : ¬ early' i) :
    (v.finish i request').Sound early' := by
  refine h.put hi hothers hstream ?_ hheard (fun _ => hclosed) ?_ ?_
  · refine ⟨request.kinds, hkinds, (terminal request'.nonce request'.res).kind, ?_, rfl⟩
    by_cases hfinished : request'.res.finished = true <;> simp [terminal, terminals, hfinished]
  · simp [hnot, hheard]
  · intro kind
    by_cases hfinished : request'.res.finished = true <;>
      cases kind <;> simp [Counters.of, Counters.terminal, terminal, hfinished]

/-- An answer is written out. -/
theorem Sound.flush (h : v.Sound early) (hi : v.requests[i]? = some request) :
    (v.put i { request with res := { request.res with finished := true } } v.counters []).Sound
      early := by
  obtain ⟨hstory, hhears, hclosed, hlost⟩ := h.requests i request hi
  refine h.put hi (fun _ _ => Iff.rfl) rfl ?_ hhears hclosed hlost fun kind => by simp
  simpa using hstory

/-- A connection closes: too early if the admission is pending. -/
theorem Sound.close (h : v.Sound early) (hi : v.requests[i]? = some request)
    (hopen : request.res.closed = false) (hothers : ∀ j, j ≠ i → (early' j ↔ early j))
    (hearly : early' i ↔ early i ∨ ∃ call, request.phase = .admitting call) :
    (v.close i request).Sound early' := by
  obtain ⟨hstory, hhears, hclosed, hlost⟩ := h.requests i request hi
  have hnot : ¬ early i := by
    rw [hlost, hopen]
    simp
  have hstory' : Story request.phase
      (request.kinds ++ ([] : List BoundaryEvent).map BoundaryEvent.kind) := by
    simpa using hstory
  have hquiet (kind : BoundaryEventKind) : v.counters.of kind =
      v.counters.of kind + (([] : List BoundaryEvent).map BoundaryEvent.kind).count kind := by simp
  obtain ⟨phase, nonce, res, heard, stream⟩ := request
  cases phase with
  | admitting call =>
    refine h.put hi hothers rfl hstory' hhears (fun _ => rfl) ?_ hquiet
    have hunheard : heard = false := hhears
    rw [hearly]
    simp [hnot, hunheard]
  | refused =>
    refine h.finish hi hothers rfl ?_ rfl rfl ?_
    · rw [hstory]
      exact List.mem_cons_self
    · rw [hearly]
      simp [hnot]
  | forwarding =>
    refine h.put hi hothers rfl hstory' trivial (fun _ => rfl) ?_ hquiet
    rw [hearly]
    simp [hnot]
  | waiting =>
    refine h.put hi hothers rfl hstory' trivial (fun _ => rfl) ?_ hquiet
    rw [hearly]
    simp [hnot]
  | resolved =>
    rw [hclosed hhears] at hopen
    cases hopen

/-! ## Runs -/

variable {P : Platform} {config : AdmissionConfig} {fenceMs : ℚ}

/-- The connection of request `i` closed while its admission was pending. -/
def ClosedEarly (tr : List (Entry Boundary Op Unit)) (i : ℕ) : Prop :=
  ∃ e ∈ tr, e.input = .close i ∧
    ∃ request call, e.pre.requests[i]? = some request ∧ request.phase = .admitting call

theorem closedEarly_concat (tr : List (Entry Boundary Op Unit)) (e : Entry Boundary Op Unit)
    (i : ℕ) :
    ClosedEarly (tr ++ [e]) i ↔ ClosedEarly tr i ∨ (e.input = .close i ∧
      ∃ request call, e.pre.requests[i]? = some request ∧ request.phase = .admitting call) := by
  simp only [ClosedEarly, List.mem_append, List.mem_singleton, or_and_right, exists_or,
    exists_eq_left]

/-- A step that closes no connection keeps what is known of the closes. -/
theorem closedEarly_concat_of_ne (tr : List (Entry Boundary Op Unit)) (op : Op)
    (hop : ∀ j, op ≠ .close j) :
    ClosedEarly (tr ++ [entry (step P config fenceMs) v op]) = ClosedEarly tr := by
  funext i
  rw [closedEarly_concat, entry_input]
  simp [hop i]

theorem Sound.congr (h : v.Sound early) {v' : Boundary} (hrequests : v'.requests = v.requests)
    (hcounters : ∀ kind, v'.counters.of kind = v.counters.of kind) (hseq : v.lastSeq ≤ v'.lastSeq) :
    v'.Sound early := by
  refine ⟨?_, ?_, ?_, ?_⟩
  · rw [hrequests]
    exact h.requests
  · intro request hrequest
    rw [hrequests] at hrequest
    exact (h.numbered request hrequest).mono hseq
  · intro kind
    rw [hcounters, h.counters, tally, tally, hrequests]
  · rw [hrequests]
    exact h.early_lt

/-- A close that comes while the admission is pending is too early; any other is not. -/
theorem sound_close {tr : List (Entry Boundary Op Unit)} (h : v.Sound (ClosedEarly tr))
    (i : ℕ) : (step P config fenceMs v (.close i)).1.Sound
      (ClosedEarly (tr ++ [entry (step P config fenceMs) v (.close i)])) := by
  have hothers (j : ℕ) (hj : j ≠ i) :
      ClosedEarly (tr ++ [entry (step P config fenceMs) v (.close i)]) j ↔ ClosedEarly tr j := by
    rw [closedEarly_concat, entry_input]
    simp [Ne.symm hj]
  have hself : ClosedEarly (tr ++ [entry (step P config fenceMs) v (.close i)]) i ↔
      ClosedEarly tr i ∨ ∃ request call, v.requests[i]? = some request ∧
        request.phase = .admitting call := by
    rw [closedEarly_concat, entry_input, entry_pre]
    simp
  rw [step]
  cases hi : v.requests[i]? with
  | none =>
    rw [hi] at hself
    refine h.of_iff fun j => ?_
    by_cases heq : j = i
    · rw [heq, hself]
      simp
    · exact hothers j heq
  | some request =>
    rw [hi] at hself
    dsimp only
    split_ifs with hopen
    · refine h.close hi hopen hothers ?_
      rw [hself]
      simp
    · -- the connection had closed before
      have hclosed : request.res.closed = true := by simpa using hopen
      have hrequest := h.requests i request hi
      refine h.of_iff fun j => ?_
      by_cases heq : j = i
      · subst heq
        rw [hself]
        constructor
        · rintro (hearly | ⟨r, call, hr, hphase⟩)
          · exact hearly
          · obtain rfl := Option.some.inj hr
            refine hrequest.lost.2 ⟨hclosed, ?_⟩
            have hhears := hrequest.hears
            rw [Request.Hears, hphase] at hhears
            exact hhears
        · exact Or.inl
      · exact hothers j heq

/-- **A step of the Boundary.** -/
theorem sound_step {tr : List (Entry Boundary Op Unit)} (h : v.Sound (ClosedEarly tr)) (op : Op) :
    (step P config fenceMs v op).1.Sound
      (ClosedEarly (tr ++ [entry (step P config fenceMs) v op])) := by
  by_cases hclose : ∃ i, op = .close i
  · obtain ⟨i, rfl⟩ := hclose
    exact sound_close h i
  rw [closedEarly_concat_of_ne tr op fun j hj => hclose ⟨j, hj⟩]
  cases op with
  | arrive request nowMs => exact h.arrive.congr rfl (fun _ => rfl) le_rfl
  | expect rawHeaders =>
    exact h.arrive.refuse (by simp [arrive]) rfl _
  | parserReject =>
    exact h.congr rfl (fun kind => by cases kind <;> rfl) (Nat.le_succ _)
  | protocolRefuse =>
    exact h.congr rfl (fun kind => by cases kind <;> rfl) (Nat.le_succ _)
  | admission op => cases op <;> exact h.congr rfl (fun _ => rfl) le_rfl
  | resume i issued =>
    rw [step]
    cases hi : v.requests[i]? with
    | none => exact h
    | some request =>
      dsimp only
      split
      · next call hphase =>
        split
        · exact h.refuse hi hphase _
        · exact h.handle hi hphase _ issued
        · exact h
      · exact h
  | forwardResponded i status =>
    rw [step]
    cases hi : v.requests[i]? with
    | none => exact h
    | some request =>
      dsimp only
      split_ifs with hphase
      · exact h.relay hi hphase status
      · exact h
  | forwardFailed i kind =>
    rw [step]
    cases hi : v.requests[i]? with
    | none => exact h
    | some request =>
      dsimp only
      split_ifs with hphase
      · exact h.fail hi hphase kind
      · exact h
  | flush i =>
    rw [step]
    cases hi : v.requests[i]? with
    | none => exact h
    | some request =>
      dsimp only
      split_ifs with hended
      · exact h.flush hi
      · exact h
  | close i => exact absurd ⟨i, rfl⟩ hclose
  | finish i =>
    rw [step]
    cases hi : v.requests[i]? with
    | none => exact h
    | some request =>
      dsimp only
      split_ifs with hwaiting
      · obtain ⟨hstory, -, hclosed, hlost⟩ := h.requests i request hi
        rw [hwaiting.1] at hstory
        refine h.finish hi (fun _ _ => Iff.rfl) rfl (List.mem_cons_of_mem _ hstory) hwaiting.2
          (hclosed hwaiting.2) ?_
        rw [hlost, hwaiting.2]
        simp
      · exact h

theorem sound_exec (ops : List Op) (capacity : ℕ) :
    (exec (step P config fenceMs) { verifier := { guard := { capacity } } } ops).Sound
      (ClosedEarly (trace (step P config fenceMs) { verifier := { guard := { capacity } } } ops)) := by
  refine run_induction (step P config fenceMs) (P := fun tr v => v.Sound (ClosedEarly tr)) ?_
    (fun tr v op h => sound_step h op) ops
  exact ⟨fun i request hi => by simp at hi, fun request hrequest => by simp at hrequest,
    fun kind => by cases kind <;> rfl, fun i hi => by simp [ClosedEarly] at hi⟩

end Boundary

end Limitmark.Origin
