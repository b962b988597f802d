import Limitmark.Authority.Nonces
import Limitmark.PublicInquiry.Flow

/-!
# What handlers have been through

The history of a run is the list of its notes, and what an execution has been through is a sublist of
it (`Admitted`). A request was sent after what its call needs, a response that is read as allowed was
left by an allowed decision for the execution that sent the request, and an execution is in a phase
after what leads to it (`Flowing`). An execution that has called the repository, or has lost a
response, is finished (`Ended`).
-/

namespace Limitmark.PublicInquiry

open Limitmark.Foundations Limitmark.Authority
open scoped List

/-- A claim of the execution's own was granted with a permit, and then came the rest. -/
def Admitted (history : List Note) (id : ℕ) (ingress : VerifiedMutationIngress) (permit : String)
    (rest : List Note) : Prop :=
  ∃ op answer nowMs, grantOf op answer = some ⟨ingress.claim, permit, nowMs⟩ ∧
    (.claiming id ingress.claim :: .served id op answer :: rest) <+ history

/-- The permit was then spent by the execution, and then came the rest. -/
def Spent (history : List Note) (id : ℕ) (ingress : VerifiedMutationIngress) (permit : String)
    (rest : List Note) : Prop :=
  ∃ op answer nowMs, spendingOf op answer = some ⟨ingress.consume permit, nowMs⟩ ∧
    Admitted history id ingress permit
      (.claimed id permit :: .verified id (ingress.consume permit) :: .served id op answer :: rest)

section History

variable {history history' : List Note} {id : ℕ} {ingress : VerifiedMutationIngress} {permit : String}
  {rest rest' : List Note}

theorem Admitted.mono (h : Admitted history id ingress permit rest) (hle : history <+ history') :
    Admitted history' id ingress permit rest := by
  obtain ⟨op, answer, nowMs, hgrant, hsub⟩ := h
  exact ⟨op, answer, nowMs, hgrant, hsub.trans hle⟩

theorem Admitted.snoc (h : Admitted history id ingress permit rest) (note : Note) :
    Admitted (history ++ [note]) id ingress permit (rest ++ [note]) := by
  obtain ⟨op, answer, nowMs, hgrant, hsub⟩ := h
  exact ⟨op, answer, nowMs, hgrant, hsub.append (List.Sublist.refl [note])⟩

theorem Admitted.of_sublist (h : Admitted history id ingress permit rest) (hle : rest' <+ rest) :
    Admitted history id ingress permit rest' := by
  obtain ⟨op, answer, nowMs, hgrant, hsub⟩ := h
  exact ⟨op, answer, nowMs, hgrant, ((hle.cons_cons _).cons_cons _).trans hsub⟩

theorem Spent.mono (h : Spent history id ingress permit rest) (hle : history <+ history') :
    Spent history' id ingress permit rest := by
  obtain ⟨op, answer, nowMs, hspent, hadmitted⟩ := h
  exact ⟨op, answer, nowMs, hspent, hadmitted.mono hle⟩

theorem Spent.snoc (h : Spent history id ingress permit rest) (note : Note) :
    Spent (history ++ [note]) id ingress permit (rest ++ [note]) := by
  obtain ⟨op, answer, nowMs, hspent, hadmitted⟩ := h
  exact ⟨op, answer, nowMs, hspent, hadmitted.snoc note⟩

end History

/-! ## The parts of the state -/

/-- What was before a call. -/
def Preceded (history : List Note) (id : ℕ) (ingress : VerifiedMutationIngress) : RpcCall → Prop
  | .claimPre input => input = ingress.claim ∧ [.claiming id ingress.claim] <+ history
  | .consumePost input => ∃ permit, input = ingress.consume permit ∧
      Admitted history id ingress permit [.claimed id permit, .verified id input]

/-- What was before a response to a call that is read as allowed. -/
def Answered (history : List Note) (id : ℕ) (ingress : VerifiedMutationIngress) (response : Response) :
    RpcCall → Prop
  | .claimPre _ => ∀ permit expiresAtMs, readPre response = .allowed permit expiresAtMs →
      Admitted history id ingress permit []
  | .consumePost input => readPost response = .allowed → ∃ permit,
      input = ingress.consume permit ∧ Spent history id ingress permit []

def SentStory (P : Platform) (history : List Note) (s : FlowState) (m : SentRpc) : Prop :=
  (∃ client draw token, rpcRequest P.crypto client draw token m.call = some m.request) ∧
    ∃ x, s.executions.lookup m.execution = some x ∧ Preceded history m.execution x.ingress m.call

def ResponseStory (history : List Note) (s : FlowState) (r : ℕ × Response) : Prop :=
  ∃ m x, s.sent[r.1]? = some m ∧ s.executions.lookup m.execution = some x ∧
    Answered history m.execution x.ingress r.2 m.call

/-- What was before a phase. -/
def PhaseStory (history : List Note) (s : FlowState) (id : ℕ) (x : Execution) : Prop :=
  match x.phase with
  | .claiming n => ∃ request, s.sent[n]? = some ⟨id, .claimPre x.ingress.claim, request⟩
  | .verifying permit => Admitted history id x.ingress permit [.claimed id permit]
  | .consuming n => ∃ permit request,
      s.sent[n]? = some ⟨id, .consumePost (x.ingress.consume permit), request⟩
  | .creating => ∃ permit, Spent history id x.ingress permit [.consumed id]
  | .finished _ => True

structure Flowing (P : Platform) (history : List Note) (s : FlowState) : Prop where
  sent : ∀ m ∈ s.sent, SentStory P history s m
  responses : ∀ r ∈ s.responses, ResponseStory history s r
  phases : ∀ id x, s.executions.lookup id = some x → PhaseStory history s id x

/-- What no step takes back. -/
structure Keeps (s s' : FlowState) : Prop where
  ingress : ∀ id x, s.executions.lookup id = some x →
    ∃ x', s'.executions.lookup id = some x' ∧ x'.ingress = x.ingress
  sent : s.sent <+: s'.sent

theorem Keeps.getElem? {s s' : FlowState} (h : Keeps s s') {n : ℕ} {m : SentRpc}
    (hm : s.sent[n]? = some m) : s'.sent[n]? = some m := by
  obtain ⟨rest, hrest⟩ := h.sent
  rw [← hrest, List.getElem?_append_left (List.getElem?_eq_some_iff.1 hm).1]
  exact hm

section Monotone

variable {P : Platform} {history history' : List Note} {s s' : FlowState}

theorem Preceded.mono {id : ℕ} {ingress : VerifiedMutationIngress} {call : RpcCall}
    (h : Preceded history id ingress call) (hle : history <+ history') :
    Preceded history' id ingress call := by
  cases call with
  | claimPre input => exact ⟨h.1, h.2.trans hle⟩
  | consumePost input =>
    obtain ⟨permit, hinput, hadmitted⟩ := h
    exact ⟨permit, hinput, hadmitted.mono hle⟩

theorem Answered.mono {id : ℕ} {ingress : VerifiedMutationIngress} {response : Response}
    {call : RpcCall} (h : Answered history id ingress response call) (hle : history <+ history') :
    Answered history' id ingress response call := by
  cases call with
  | claimPre input => exact fun permit expiresAtMs hread => (h permit expiresAtMs hread).mono hle
  | consumePost input =>
    intro hread
    obtain ⟨permit, hinput, hspent⟩ := h hread
    exact ⟨permit, hinput, hspent.mono hle⟩

theorem SentStory.mono {m : SentRpc} (h : SentStory P history s m) (hle : history <+ history')
    (hkeeps : Keeps s s') : SentStory P history' s' m := by
  obtain ⟨hbuilt, x, hx, hpreceded⟩ := h
  obtain ⟨x', hx', hingress⟩ := hkeeps.ingress _ x hx
  exact ⟨hbuilt, x', hx', hingress ▸ hpreceded.mono hle⟩

theorem ResponseStory.mono {r : ℕ × Response} (h : ResponseStory history s r)
    (hle : history <+ history') (hkeeps : Keeps s s') : ResponseStory history' s' r := by
  obtain ⟨m, x, hm, hx, hanswered⟩ := h
  obtain ⟨x', hx', hingress⟩ := hkeeps.ingress _ x hx
  exact ⟨m, x', hkeeps.getElem? hm, hx', hingress ▸ hanswered.mono hle⟩

theorem PhaseStory.mono {id : ℕ} {x : Execution} (h : PhaseStory history s id x)
    (hle : history <+ history') (hkeeps : Keeps s s') : PhaseStory history' s' id x := by
  unfold PhaseStory at h ⊢
  split at h
  · obtain ⟨request, hsent⟩ := h
    exact ⟨request, hkeeps.getElem? hsent⟩
  · exact h.mono hle
  · obtain ⟨permit, request, hsent⟩ := h
    exact ⟨permit, request, hkeeps.getElem? hsent⟩
  · obtain ⟨permit, hspent⟩ := h
    exact ⟨permit, hspent.mono hle⟩
  · trivial

/-- A step keeps what was, and adds what has a story. -/
theorem Flowing.mono (h : Flowing P history s) (hle : history <+ history') (hkeeps : Keeps s s')
    (hsent : ∀ m ∈ s'.sent, m ∈ s.sent ∨ SentStory P history' s' m)
    (hresponses : ∀ r ∈ s'.responses, r ∈ s.responses ∨ ResponseStory history' s' r)
    (hphases : ∀ id x, s'.executions.lookup id = some x →
      s.executions.lookup id = some x ∨ PhaseStory history' s' id x) : Flowing P history' s' where
  sent m hm := (hsent m hm).elim (fun hold => (h.sent m hold).mono hle hkeeps) id
  responses r hr := (hresponses r hr).elim (fun hold => (h.responses r hold).mono hle hkeeps) id
  phases id x hx := (hphases id x hx).elim (fun hold => (h.phases id x hold).mono hle hkeeps) fun h => h

end Monotone

/-! ## The steps -/

section Steps

variable {P : Platform} {history : List Note} {s : FlowState}

theorem lookup_enter (id : ℕ) (x : Execution) (phase : Phase) (j : ℕ) :
    (s.enter id x phase).executions.lookup j =
      if j = id then some { x with phase } else s.executions.lookup j :=
  Table.lookup_insert_eq j id _ s.executions

theorem keeps_enter {id : ℕ} {x : Execution} {phase : Phase}
    (h : ∀ y, s.executions.lookup id = some y → y.ingress = x.ingress) :
    Keeps s (s.enter id x phase) := by
  refine ⟨fun j y hy => ?_, List.prefix_refl _⟩
  rw [lookup_enter]
  split
  · next hj => exact ⟨_, rfl, (h y (hj ▸ hy)).symm⟩
  · exact ⟨y, hy, rfl⟩

/-- An execution enters a phase, of which the history tells. -/
theorem Flowing.enter (h : Flowing P history s) (note : Note) {id : ℕ} {x : Execution} {phase : Phase}
    (hx : ∀ y, s.executions.lookup id = some y → y.ingress = x.ingress)
    (hphase : PhaseStory (history ++ [note]) (s.enter id x phase) id { x with phase }) :
    Flowing P (history ++ [note]) (s.enter id x phase) := by
  refine h.mono (List.sublist_append_left _ _) (keeps_enter hx) (fun m hm => .inl hm)
    (fun r hr => .inl hr) (fun j y hy => ?_)
  rw [lookup_enter] at hy
  split at hy
  · next hj =>
    obtain rfl := Option.some.inj hy
    exact .inr (hj ▸ hphase)
  · exact .inl hy

/-- A request is sent, and its sender waits for the answer. -/
theorem Flowing.send (h : Flowing P history s) (note : Note) {id : ℕ} {x : Execution} {call : RpcCall}
    {request : RpcRequest} {phase : Phase}
    (hx : ∀ y, s.executions.lookup id = some y → y.ingress = x.ingress)
    (hbuilt : ∃ client draw token, rpcRequest P.crypto client draw token call = some request)
    (hpreceded : Preceded (history ++ [note]) id x.ingress call)
    (hphase : PhaseStory (history ++ [note]) ((s.send id call request).enter id x phase) id
      { x with phase }) :
    Flowing P (history ++ [note]) ((s.send id call request).enter id x phase) := by
  have hself : ((s.send id call request).enter id x phase).executions.lookup id =
      some { x with phase } := (lookup_enter _ _ _ _).trans (if_pos rfl)
  have hkeeps : Keeps s ((s.send id call request).enter id x phase) :=
    ⟨(keeps_enter hx : Keeps s (s.enter id x phase)).ingress, List.prefix_append _ _⟩
  refine h.mono (List.sublist_append_left _ _) hkeeps (fun m hm => ?_) (fun r hr => .inl hr)
    (fun j y hy => ?_)
  · rcases List.mem_append.1 hm with hm | hm
    · exact .inl hm
    · obtain rfl := List.mem_singleton.1 hm
      exact .inr ⟨hbuilt, _, hself, hpreceded⟩
  · rw [lookup_enter] at hy
    split at hy
    · next hj =>
      obtain rfl := Option.some.inj hy
      exact .inr (hj ▸ hphase)
    · exact .inl hy

/-- A response is left, of which the history tells. -/
theorem Flowing.respond (h : Flowing P history s) (note : Note) (authority : Storage) {n : ℕ}
    {response : Response} {m : SentRpc} (hm : s.sent[n]? = some m)
    (hanswered : ∀ x, Preceded history m.execution x m.call →
      Answered (history ++ [note]) m.execution x response m.call) :
    Flowing P (history ++ [note]) ({ s with authority }.respond n response) := by
  have hkeeps : Keeps s ({ s with authority }.respond n response) :=
    ⟨fun id x hx => ⟨x, hx, rfl⟩, List.prefix_refl _⟩
  refine h.mono (List.sublist_append_left _ _) hkeeps (fun m hm => .inl hm) (fun r hr => ?_)
    (fun j y hy => .inl hy)
  rcases List.mem_append.1 hr with hr | hr
  · exact .inl hr
  · obtain rfl := List.mem_singleton.1 hr
    obtain ⟨-, x, hx, hpreceded⟩ := h.sent m (List.mem_of_getElem? hm)
    exact .inr ⟨m, x, hm, hx, hanswered x.ingress hpreceded⟩

theorem Flowing.same (h : Flowing P history s) (note : Note) (authority : Storage) :
    Flowing P (history ++ [note]) { s with authority } :=
  h.mono (List.sublist_append_left _ _) ⟨fun _ x hx => ⟨x, hx, rfl⟩, List.prefix_refl _⟩
    (fun _ hm => .inl hm) (fun _ hr => .inl hr) (fun _ _ hx => .inl hx)

/-- A refusal is read as no allowed decision. -/
theorem answered_unavailable {id : ℕ} {ingress : VerifiedMutationIngress} {status : ℕ}
    {call : RpcCall} : Answered history id ingress (unavailableResponse status) call := by
  cases call with
  | claimPre input => exact fun permit expiresAtMs h => absurd h (readPre_decisionJson _ _ _ _)
  | consumePost input =>
    intro h
    have hallowed : PostDecision.unavailable = .allowed := allowed_of_readPost h
    cases hallowed

/-- An allowed decision of the authority is told by the note of its call. -/
theorem answered_served {id : ℕ} {ingress : VerifiedMutationIngress} {call : RpcCall} {a : Storage}
    {reading : ℤ} {permit attempt : String} {fault : Option Statement}
    (h : Preceded history id ingress call) :
    Answered (history ++ [.served id (call.op reading permit attempt fault)
        (P.deployment.step a (call.op reading permit attempt fault)).2]) id ingress
      (decisionResponse (P.deployment.step a (call.op reading permit attempt fault)).2) call := by
  cases call with
  | claimPre input =>
    obtain ⟨rfl, hclaiming⟩ := h
    intro permit' expiresAtMs hread
    simp only [RpcCall.op, Deployment.step] at hread ⊢
    have heffect := Authority.step_effect P.deployment a
      (.claimPre ingress.claim reading permit attempt fault)
    simp only [Deployment.step] at heffect
    have hdecision := allowed_of_readPre hread
    rw [hdecision] at heffect ⊢
    cases heffect with
    | claimed valid reads claimed =>
      exact ⟨_, _, reading, rfl, hclaiming.append (List.Sublist.refl _)⟩
    | idle undecided same => cases undecided
    | denied request undecided reads eq => cases undecided
    | swept sweep undecided sweeps eq => cases undecided
  | consumePost input =>
    obtain ⟨permit', rfl, hadmitted⟩ := h
    intro hread
    simp only [RpcCall.op, Deployment.step] at hread ⊢
    rw [allowed_of_readPost hread]
    exact ⟨permit', rfl, _, _, reading, rfl, hadmitted.snoc _⟩

/-- **What every step keeps.** -/
theorem Flowing.step (h : Flowing P history s) {event : Event} {note : Note} {s' : FlowState}
    (heffect : FlowEffect P s event note s') : Flowing P (history ++ [note]) s' := by
  have hsame {id : ℕ} {x : Execution} (hx : s.executions.lookup id = some x) :
      ∀ y, s.executions.lookup id = some y → y.ingress = x.ingress := fun y hy => by
    rw [Option.some.inj (hy.symm.trans hx)]
  cases heffect with
  | kept quiet => exact h.same note s.authority
  | @ended event note id x result unfinished quiet =>
    exact h.enter note (fun y hy => by rw [(unfinished y hy).1]) trivial
  | @started event id x request unknown built =>
    refine h.send _ (fun y hy => by rw [unknown] at hy; cases hy) ⟨x.client, built⟩
      ⟨rfl, List.sublist_append_right _ _⟩ ⟨request, ?_⟩
    exact List.getElem?_concat_length
  | @refused event rpc sent status found =>
    exact h.respond _ s.authority found fun x _ => answered_unavailable
  | @served rpc sent service nowMs reading permit attempt fault throws call response found handled
      answered =>
    obtain ⟨⟨client, draw, token, hbuilt⟩, -⟩ := h.sent sent (List.mem_of_getElem? found)
    obtain rfl := handle_rpcRequest hbuilt handled
    refine h.respond _ _ found fun x hpreceded => ?_
    rcases answered with rfl | rfl
    · exact answered_unavailable
    · exact answered_served hpreceded
  | other => exact h.same _ _
  | @claimed event id x rpc k response permit expiresAtMs found phase received allowed =>
    have hphase := h.phases id x found
    rw [PhaseStory, phase] at hphase
    obtain ⟨request, hsent⟩ := hphase
    obtain ⟨m, x', hm, hx', hanswered⟩ := h.responses _ (List.mem_of_getElem? received)
    cases hsent.symm.trans hm
    cases found.symm.trans hx'
    exact h.enter _ (hsame found) ((hanswered permit expiresAtMs allowed).snoc _)
  | @verified event id x permit request found phase built =>
    have hphase := h.phases id x found
    rw [PhaseStory, phase] at hphase
    refine h.send _ (hsame found) ⟨x.client, built⟩ ⟨permit, rfl, hphase.snoc _⟩
      ⟨permit, request, ?_⟩
    exact List.getElem?_concat_length
  | @consumed event id x rpc k response found phase received allowed =>
    have hphase := h.phases id x found
    rw [PhaseStory, phase] at hphase
    obtain ⟨permit, request, hsent⟩ := hphase
    obtain ⟨m, x', hm, hx', hanswered⟩ := h.responses _ (List.mem_of_getElem? received)
    cases hsent.symm.trans hm
    cases found.symm.trans hx'
    obtain ⟨permit', -, hspent⟩ := hanswered allowed
    exact h.enter _ (hsame found) ⟨permit', hspent.snoc _⟩
  | @created event id x result found phase => exact h.enter _ (hsame found) trivial

end Steps

end Limitmark.PublicInquiry
