import Limitmark.PublicInquiry.FlowHistory

/-!
# An ingress envelope is persisted at most once

The calls that the authority takes in a run of the handlers are a run of the authority
(`FlowStep.authorityStep`), and where its clock never steps back no removal of old rows is ahead of it;
so it grants an envelope once, to the execution that sent the claim. An execution that calls the
repository was granted its envelope, and calls it once.
-/

namespace Limitmark.PublicInquiry

open Limitmark.Foundations Limitmark.Authority
open scoped List

abbrev FlowStep := Entry FlowState Event Note

/-! ## Executions that have ended -/

/-- An execution that has called the repository, or has lost a response, is finished; and none has
done both. -/
structure Ended (history : List Note) (s : FlowState) : Prop where
  created : ∀ id envelope input, .created id envelope input ∈ history →
    ∃ x result permit, s.executions.lookup id = some x ∧ x.phase = .finished result ∧
      x.ingress.envelope = envelope ∧ Admitted history id x.ingress permit []
  lost : ∀ id, .lost id ∈ history →
    ∃ x result, s.executions.lookup id = some x ∧ x.phase = .finished result
  apart : ∀ id envelope input, .created id envelope input ∈ history → .lost id ∉ history

section Ended

variable {P : Platform} {history : List Note} {s s' : FlowState} {event : Event} {note : Note}

theorem lookup_enter_of_ne {id j : ℕ} {x : Execution} {phase : Phase} (h : j ≠ id) :
    (s.enter id x phase).executions.lookup j = s.executions.lookup j :=
  (lookup_enter _ _ _ _).trans (if_neg h)

/-- A finished execution stays as it is. -/
theorem FlowEffect.finished (h : FlowEffect P s event note s') {id : ℕ} {x : Execution}
    {result : PublicInquiryFlowResult} (hx : s.executions.lookup id = some x)
    (hphase : x.phase = .finished result) : s'.executions.lookup id = some x := by
  have hne {id' : ℕ} {x' : Execution} (hx' : s.executions.lookup id' = some x')
      (hphase' : x'.phase ≠ .finished result) : id ≠ id' := by
    rintro rfl
    cases hx.symm.trans hx'
    exact hphase' hphase
  cases h with
  | kept quiet => exact hx
  | @ended event note id' x' result' unfinished quiet =>
    refine (lookup_enter_of_ne ?_).trans hx
    rintro rfl
    obtain ⟨rfl, hopen⟩ := unfinished x hx
    rw [hphase] at hopen
    cases hopen
  | @started event id' x' request unknown built =>
    refine (lookup_enter_of_ne ?_).trans hx
    rintro rfl
    cases unknown.symm.trans hx
  | refused found => exact hx
  | served found handled answered => exact hx
  | other => exact hx
  | claimed found phase received allowed =>
    exact (lookup_enter_of_ne (hne found (by rw [phase]; exact nofun))).trans hx
  | verified found phase built =>
    exact (lookup_enter_of_ne (hne found (by rw [phase]; exact nofun))).trans hx
  | consumed found phase received allowed =>
    exact (lookup_enter_of_ne (hne found (by rw [phase]; exact nofun))).trans hx
  | created found phase =>
    exact (lookup_enter_of_ne (hne found (by rw [phase]; exact nofun))).trans hx

/-- What a call of the repository finds and leaves. -/
theorem FlowEffect.of_created {id : ℕ} {envelope : String × ℤ} {input : Inquiries.CreateInquiryInput}
    (h : FlowEffect P s event (.created id envelope input) s') :
    ∃ x result, s.executions.lookup id = some x ∧ x.phase = .creating ∧
      x.ingress.envelope = envelope ∧ s' = s.enter id x (.finished result) := by
  generalize hnote : Note.created id envelope input = note at h
  cases h with
  | created found phase =>
    cases hnote
    exact ⟨_, _, found, phase, rfl, rfl⟩
  | kept quiet => rcases quiet with rfl | ⟨id', result, rfl⟩ <;> cases hnote
  | ended unfinished quiet => rcases quiet with rfl | rfl <;> cases hnote
  | _ => cases hnote

/-- What the loss of a response finds and leaves. -/
theorem FlowEffect.of_lost {id : ℕ} (h : FlowEffect P s event (.lost id) s') :
    ∃ x result, (∀ y, s.executions.lookup id = some y → y = x ∧ x.phase.isOpen = true) ∧
      s' = s.enter id x (.finished result) := by
  generalize hnote : Note.lost id = note at h
  cases h with
  | ended unfinished quiet =>
    rcases quiet with rfl | rfl
    · cases hnote
    · cases hnote
      exact ⟨_, _, unfinished, rfl⟩
  | kept quiet => rcases quiet with rfl | ⟨id', result, rfl⟩ <;> cases hnote
  | _ => cases hnote

/-- The permit of an execution that is about to call the repository. -/
theorem Flowing.creating (h : Flowing P history s) {id : ℕ} {x : Execution}
    (hx : s.executions.lookup id = some x) (hphase : x.phase = .creating) :
    ∃ permit, Spent history id x.ingress permit [.consumed id] := by
  have hstory := h.phases id x hx
  rwa [PhaseStory, hphase] at hstory

theorem Spent.admitted {id : ℕ} {ingress : VerifiedMutationIngress} {permit : String}
    {rest : List Note} (h : Spent history id ingress permit rest) :
    Admitted history id ingress permit [] := by
  obtain ⟨op, answer, nowMs, -, hadmitted⟩ := h
  exact hadmitted.of_sublist (List.nil_sublist _)

theorem Ended.step (h : Ended history s) (hflowing : Flowing P history s)
    (heffect : FlowEffect P s event note s') : Ended (history ++ [note]) s' := by
  have hself {id : ℕ} {x : Execution} {phase : Phase} :
      (s.enter id x phase).executions.lookup id = some { x with phase } :=
    (lookup_enter _ _ _ _).trans (if_pos rfl)
  refine ⟨fun id envelope input hmem => ?_, fun id hmem => ?_, fun id envelope input hmem => ?_⟩
  · rcases List.mem_append.1 hmem with hmem | hmem
    · obtain ⟨x, result, permit, hx, hphase, henvelope, hadmitted⟩ := h.created id envelope input hmem
      exact ⟨x, result, permit, heffect.finished hx hphase, hphase, henvelope,
        hadmitted.mono (List.sublist_append_left _ _)⟩
    · obtain rfl := List.mem_singleton.1 hmem
      obtain ⟨x, result, hx, hphase, henvelope, rfl⟩ := heffect.of_created
      obtain ⟨permit, hspent⟩ := hflowing.creating hx hphase
      exact ⟨_, result, permit, hself, rfl, henvelope,
        hspent.admitted.mono (List.sublist_append_left _ _)⟩
  · rcases List.mem_append.1 hmem with hmem | hmem
    · obtain ⟨x, result, hx, hphase⟩ := h.lost id hmem
      exact ⟨x, result, heffect.finished hx hphase, hphase⟩
    · obtain rfl := List.mem_singleton.1 hmem
      obtain ⟨x, result, -, rfl⟩ := heffect.of_lost
      exact ⟨_, result, hself, rfl⟩
  · intro hmem'
    obtain hcreated | hcreated := List.mem_append.1 hmem <;>
      obtain hlost | hlost := List.mem_append.1 hmem'
    · exact h.apart id envelope input hcreated hlost
    · obtain rfl := List.mem_singleton.1 hlost
      obtain ⟨x, result, permit, hx, hphase, -⟩ := h.created id envelope input hcreated
      obtain ⟨x', result', hopen, -⟩ := heffect.of_lost
      obtain ⟨rfl, hopen⟩ := hopen x hx
      rw [hphase] at hopen
      cases hopen
    · obtain rfl := List.mem_singleton.1 hcreated
      obtain ⟨x, result, hx, hphase, -⟩ := heffect.of_created
      obtain ⟨x', result', hx', hphase'⟩ := h.lost id hlost
      cases hx.symm.trans hx'
      cases hphase.symm.trans hphase'
    · rw [← List.mem_singleton.1 hcreated] at hlost
      cases List.mem_singleton.1 hlost

end Ended

/-! ## The calls of the authority -/

/-- The reading of the authority's clock that a call comes with. -/
def opClock : Op → Option ℤ
  | .claimPre _ reading _ _ _ | .consumePost _ reading _ _ | .cleanup _ reading _ _
  | .alarm reading _ _ _ => some reading
  | .command _ => none

def Event.clock : Event → Option ℤ
  | .serve _ _ _ reading _ _ _ _ => some reading
  | .traffic op => opClock op
  | _ => none

def Note.call : Note → Option (Op × Answer)
  | .served _ op answer | .other op answer => some (op, answer)
  | _ => none

/-- The step that the authority takes in a step of the handlers. -/
def FlowStep.authorityStep (e : FlowStep) : Option Authority.Step :=
  e.out.call.map fun (op, answer) => ⟨e.pre.authority, op, answer, e.post.authority⟩

/-- The envelope that is granted in a step. -/
def FlowStep.granted (e : FlowStep) : Option (String × ℤ) :=
  e.authorityStep.bind Authority.Step.claimedEnvelope

def authoritySteps (tr : List FlowStep) : List Authority.Step := tr.filterMap FlowStep.authorityStep

/-- The readings of the authority's clock never step back. -/
def Clocked (tr : List FlowStep) : Prop :=
  tr.Pairwise fun e f => ∀ a ∈ e.input.clock, ∀ b ∈ f.input.clock, a ≤ b

section Authority

variable {P : Platform} {s s' : FlowState} {event : Event} {note : Note}

/-- In a step the authority takes the call that is noted, or none. -/
theorem FlowEffect.authority (h : FlowEffect P s event note s') :
    note.call = none ∧ s'.authority = s.authority ∨
      ∃ op, note.call = some (op, (P.deployment.step s.authority op).2) ∧
        s'.authority = (P.deployment.step s.authority op).1 ∧ event.clock = opClock op := by
  cases h with
  | kept quiet =>
    rcases quiet with rfl | ⟨id, result, rfl⟩
    · exact .inl ⟨rfl, rfl⟩
    · exact .inl ⟨rfl, rfl⟩
  | ended unfinished quiet =>
    rcases quiet with rfl | rfl
    · exact .inl ⟨rfl, rfl⟩
    · exact .inl ⟨rfl, rfl⟩
  | started unknown built => exact .inl ⟨rfl, rfl⟩
  | refused found => exact .inl ⟨rfl, rfl⟩
  | @served rpc sent service nowMs reading permit attempt fault throws call response found handled
      answered =>
    refine .inr ⟨_, rfl, rfl, ?_⟩
    cases call with
    | claimPre input => rfl
    | consumePost input => rfl
  | other => exact .inr ⟨_, rfl, rfl, rfl⟩
  | claimed found phase received allowed => exact .inl ⟨rfl, rfl⟩
  | verified found phase built => exact .inl ⟨rfl, rfl⟩
  | consumed found phase received allowed => exact .inl ⟨rfl, rfl⟩
  | created found phase => exact .inl ⟨rfl, rfl⟩

theorem clock_of_sweptAt {deployment : Deployment} {a : Storage} {op : Op} {c : ℤ}
    (h : deployment.sweptAt a op = some c) : opClock op = some c := by
  cases op with
  | cleanup maximumRows reading plan fault | alarm reading later plan fault =>
    simp only [Deployment.sweptAt, Op.sweep] at h
    split at h
    · exact h
    · cases h
  | claimPre | consumePost | command => cases h

theorem clock_of_decidedAt {deployment : Deployment} {a : Storage} {op : Op} {c : ℤ}
    (h : deployment.decidedAt a op = some c) : opClock op = some c := by
  cases op with
  | claimPre input reading permit attempt fault | consumePost input reading attempt fault =>
    simp only [Deployment.decidedAt, Op.request] at h
    split at h
    · next heq =>
      split at heq
      · cases heq
        split at h
        · exact h
        · cases h
      · cases heq
    · cases h
  | cleanup | alarm | command => cases h

/-- A step of the handlers, seen from the authority. -/
theorem authorityStep_entry (P : Platform) (s : FlowState) (event : Event) :
    FlowStep.authorityStep (entry P.step s event) = none ∧
        (P.step s event).1.authority = s.authority ∨
      ∃ op, FlowStep.authorityStep (entry P.step s event) =
          some (entry P.deployment.step s.authority op) ∧
        (P.step s event).1.authority = (P.deployment.step s.authority op).1 ∧
        event.clock = opClock op := by
  obtain ⟨hcall, hsame⟩ | ⟨op, hcall, hstep, hclock⟩ := (step_effect P s event).authority
  · exact .inl ⟨by rw [FlowStep.authorityStep, entry_out, hcall]; rfl, hsame⟩
  · refine .inr ⟨op, ?_, hstep, hclock⟩
    rw [FlowStep.authorityStep, entry_out, hcall, Option.map_some, entry_pre, entry_post, hstep]
    rfl

/-- The authority's clock is that of the steps. -/
def Timed (tr : List FlowStep) : Prop :=
  ∀ e ∈ tr, ∀ a ∈ e.authorityStep, e.input.clock = opClock a.input

/-- **Where the clock never steps back no removal of old rows is ahead of it.** -/
theorem Clocked.cleanupsBehind {tr : List FlowStep} (h : Clocked tr) (htimed : Timed tr)
    (deployment : Deployment) : CleanupsBehind deployment (authoritySteps tr) := by
  rw [CleanupsBehind, authoritySteps, List.pairwise_filterMap]
  refine List.Pairwise.imp_of_mem ?_ h
  intro e f he hf hle a ha b hb c hc r hr
  refine hle c ?_ r ?_
  · rw [htimed e he a ha, clock_of_sweptAt hc]
    rfl
  · rw [htimed f hf b hb, clock_of_decidedAt hr]
    rfl

end Authority

/-! ## Runs -/

/-- The envelope with which the repository is called in a step. -/
def FlowStep.persisted (e : FlowStep) : Option (String × ℤ) :=
  match e.out with
  | .created _ envelope _ => some envelope
  | _ => none

section Runs

variable {P : Platform} {tr : List FlowStep} {s : FlowState}

/-- What a run of the handlers keeps. -/
structure FlowRun (P : Platform) (tr : List FlowStep) (s : FlowState) : Prop where
  flowing : Flowing P (tr.map Entry.out) s
  ended : Ended (tr.map Entry.out) s
  timed : Timed tr
  held : Held P.deployment (authoritySteps tr) s.authority
  granted : Clocked tr → (tr.filterMap FlowStep.granted).Nodup
  persisted : Clocked tr → (tr.filterMap FlowStep.persisted).Nodup

theorem FlowRun.nil (P : Platform) : FlowRun P [] {} where
  flowing := ⟨fun _ h => absurd h List.not_mem_nil, fun _ h => absurd h List.not_mem_nil,
    fun _ _ h => by cases h⟩
  ended := ⟨fun _ _ _ h => absurd h List.not_mem_nil, fun _ h => absurd h List.not_mem_nil,
    fun _ _ _ h => absurd h List.not_mem_nil⟩
  timed := fun _ h => absurd h List.not_mem_nil
  held := fun _ h => absurd h List.not_mem_nil
  granted := fun _ => List.nodup_nil
  persisted := fun _ => List.nodup_nil

/-- An execution that was admitted was granted its envelope in a step of the run. -/
theorem Admitted.granted {id : ℕ} {ingress : VerifiedMutationIngress} {permit : String}
    {rest : List Note} (h : Admitted (tr.map Entry.out) id ingress permit rest) :
    ∃ e ∈ tr, FlowStep.granted e = some ingress.envelope ∧ ∃ op answer, e.out = .served id op answer := by
  obtain ⟨op, answer, nowMs, hgrant, hsub⟩ := h
  have hmem : Note.served id op answer ∈ tr.map Entry.out :=
    hsub.subset (List.mem_cons_of_mem _ List.mem_cons_self)
  obtain ⟨e, he, hout⟩ := List.mem_map.1 hmem
  refine ⟨e, he, ?_, op, answer, hout⟩
  rw [FlowStep.granted, FlowStep.authorityStep, hout]
  simp only [Note.call, Option.map_some, Option.bind_some, Step.claimedEnvelope, Step.grant, hgrant]
  rfl

theorem Timed.snoc (h : Timed tr) (event : Event) : Timed (tr ++ [entry P.step s event]) := by
  intro e he a ha
  rcases List.mem_append.1 he with he | he
  · exact h e he a ha
  · obtain rfl := List.mem_singleton.1 he
    obtain ⟨hnone, -⟩ | ⟨op, hsome, -, hclock⟩ := authorityStep_entry P s event
    · rw [hnone] at ha
      cases ha
    · rw [hsome] at ha
      cases ha
      exact hclock

/-- An envelope that is granted was not granted before. -/
theorem FlowRun.not_granted_again (h : FlowRun P tr s) {event : Event}
    (hclocked : Clocked (tr ++ [entry P.step s event])) {envelope : String × ℤ}
    (hgranted : FlowStep.granted (entry P.step s event) = some envelope) {e : FlowStep}
    (he : e ∈ tr) : e.granted ≠ some envelope := by
  intro hsame
  have hbehind := hclocked.cleanupsBehind (h.timed.snoc event) P.deployment
  obtain ⟨hnone, -⟩ | ⟨op, hsome, -, -⟩ := authorityStep_entry P s event
  · rw [FlowStep.granted, hnone] at hgranted
    cases hgranted
  · rw [authoritySteps, List.filterMap_append, List.filterMap_cons_some hsome, List.filterMap_nil]
      at hbehind
    rw [FlowStep.granted, hsome] at hgranted
    obtain ⟨g, hg, rfl⟩ := Option.map_eq_some_iff.1 hgranted
    obtain ⟨a, ha, hclaimed⟩ := Option.bind_eq_some_iff.1 hsame
    exact h.held.not_claimed_again hbehind hg (List.mem_filterMap.2 ⟨e, he, ha⟩) hclaimed

/-- The repository is not called again with an envelope. -/
theorem FlowRun.not_persisted_again (h : FlowRun P tr s) {event : Event}
    (hclocked : Clocked tr) {envelope : String × ℤ}
    (hpersisted : FlowStep.persisted (entry P.step s event) = some envelope) {e : FlowStep}
    (he : e ∈ tr) : e.persisted ≠ some envelope := by
  intro hsame
  have heffect := step_effect P s event
  unfold FlowStep.persisted at hpersisted hsame
  split at hpersisted
  · next id envelope' input hout =>
    obtain rfl := Option.some.inj hpersisted
    rw [entry_out] at hout
    rw [hout] at heffect
    obtain ⟨x, result, hx, hphase, rfl, -⟩ := heffect.of_created
    obtain ⟨permit, hspent⟩ := h.flowing.creating hx hphase
    split at hsame
    · next id' envelope' input' hout' =>
      obtain rfl := Option.some.inj hsame
      obtain ⟨x', result', permit', hx', hphase', henvelope, hadmitted⟩ :=
        h.ended.created id' _ input' (List.mem_map.2 ⟨e, he, hout'⟩)
      -- Both executions were granted the envelope, and it was granted once.
      obtain ⟨e₁, he₁, hgranted₁, op₁, answer₁, hout₁⟩ := hspent.admitted.granted
      obtain ⟨e₂, he₂, hgranted₂, op₂, answer₂, hout₂⟩ := hadmitted.granted
      rw [henvelope] at hgranted₂
      obtain rfl := eq_of_nodup_filterMap (h.granted hclocked) he₁ he₂ hgranted₁ hgranted₂
      cases hout₁.symm.trans hout₂
      cases hx.symm.trans hx'
      cases hphase.symm.trans hphase'
    · cases hsame
  · cases hpersisted

theorem FlowRun.snoc (h : FlowRun P tr s) (event : Event) :
    FlowRun P (tr ++ [entry P.step s event]) (P.step s event).1 := by
  have heffect := step_effect P s event
  refine ⟨?_, ?_, h.timed.snoc event, ?_, fun hclocked => ?_, fun hclocked => ?_⟩
  · rw [List.map_append]
    exact h.flowing.step heffect
  · rw [List.map_append]
    exact h.ended.step h.flowing heffect
  · rw [authoritySteps, List.filterMap_append]
    obtain ⟨hnone, hsame⟩ | ⟨op, hsome, hstep, -⟩ := authorityStep_entry P s event
    · rw [List.filterMap_cons_none hnone, List.filterMap_nil, List.append_nil, hsame]
      exact h.held
    · rw [List.filterMap_cons_some hsome, List.filterMap_nil, hstep]
      exact h.held.snoc op
  · have hbefore := (List.pairwise_append.1 hclocked).1
    exact nodup_filterMap_append (h.granted hbefore) fun envelope hgranted e he =>
      h.not_granted_again hclocked hgranted he
  · have hbefore := (List.pairwise_append.1 hclocked).1
    exact nodup_filterMap_append (h.persisted hbefore) fun envelope hpersisted e he =>
      h.not_persisted_again hbefore hpersisted he

theorem flowRun (P : Platform) (events : List Event) :
    FlowRun P (trace P.step {} events) (exec P.step {} events) :=
  run_induction P.step (FlowRun.nil P) (fun _ _ event h => h.snoc event) events

end Runs

theorem map_input_trace {σ ι ο : Type*} (step : σ → ι → σ × ο) (s : σ) (is : List ι) :
    (trace step s is).map Entry.input = is := by
  induction is generalizing s with
  | nil => rfl
  | cons i is ih => rw [trace_cons, List.map_cons, ih, entry_input]

theorem clocked_iff {P : Platform} {events : List Event} :
    Clocked (trace P.step {} events) ↔ (events.filterMap Event.clock).Pairwise (· ≤ ·) := by
  conv_rhs => rw [← map_input_trace P.step {} events]
  rw [List.pairwise_filterMap, List.pairwise_map]
  rfl

/-- **An ingress envelope is persisted at most once**, by an execution that was admitted. Where the
authority's clock never steps back the repository is called at most once with an envelope. It is
called after the execution's own claim was granted, Turnstile has verified, and the permit of that
claim was spent with it; and an execution that has lost a response does not call it. -/
theorem persisted_once (P : Platform) (events : List Event)
    (hclock : (events.filterMap Event.clock).Pairwise (· ≤ ·)) :
    ((trace P.step {} events).filterMap FlowStep.persisted).Nodup ∧
      (∀ pre e post, trace P.step {} events = pre ++ e :: post → ∀ id envelope input,
        e.out = .created id envelope input → ∃ ingress permit, envelope = ingress.envelope ∧
          Spent (pre.map Entry.out) id ingress permit [.consumed id]) ∧
      ∀ id, Note.lost id ∈ (trace P.step {} events).map Entry.out → ∀ envelope input,
        Note.created id envelope input ∉ (trace P.step {} events).map Entry.out := by
  refine ⟨(flowRun P events).persisted (clocked_iff.2 hclock), ?_, ?_⟩
  · intro pre e post hsplit id envelope input hout
    obtain ⟨before, event, after, rfl, rfl, rfl, -⟩ := trace_eq_append_cons P.step hsplit
    have heffect := step_effect P (exec P.step {} before) event
    rw [entry_out] at hout
    rw [hout] at heffect
    obtain ⟨x, result, hx, hphase, rfl, -⟩ := heffect.of_created
    obtain ⟨permit, hspent⟩ := (flowRun P before).flowing.creating hx hphase
    exact ⟨x.ingress, permit, rfl, hspent⟩
  · intro id hlost envelope input hcreated
    exact (flowRun P events).ended.apart id envelope input hcreated hlost

/-! ## A sample run -/

def samplePlatform : Platform where
  deployment := sampleDeployment
  crypto := ⟨fun _ _ => Vector.replicate 32 0, fun _ => Vector.replicate 32 0⟩
  createPayloadFingerprint := fun _ => String.ofList (List.replicate 64 '0')

def sampleIngress : VerifiedMutationIngress where
  clientPseudonym := sampleText 43
  nonce := sampleText 22
  requestBinding := sampleText 43
  releaseId := "r1"
  issuedAtMs := 1000

def sampleForm : InquiryForm where
  request := some ⟨"a", "a@b.c", "", "web", "s", "o", "unknown", "owner", "none", "", ""⟩
  submissionToken := some (sampleText 43)
  turnstileToken := some "t"

def sampleService : AdmissionService where
  releases := [⟨.current, "r1", "k1", List.replicate 32 0, 0, none⟩]
  authenticate := fun token _ => token = "t"
  crypto := samplePlatform.crypto

def sampleStart (id : ℕ) : Event :=
  .start id sampleIngress sampleForm ⟨"k1", List.replicate 32 0⟩ ⟨sampleText 22, 1000⟩ (some "t")

def sampleServe (rpc : ℕ) (attempt : String) : Event :=
  .serve rpc sampleService 1000 1000 (sampleText 43) attempt none false

/-- Two handlers hold the same envelope. The first claim comes to the service twice, and the second
handler's once; then the first handler goes through, while the second is refused. -/
def sampleEvents : List Event :=
  [.traffic (.command sampleInitialization), sampleStart 0, sampleStart 1, sampleServe 0 "a",
    sampleServe 1 "b", sampleServe 0 "c", .answer 1 1, .answer 0 0,
    .turnstile 0 .verified ⟨sampleText 22, 1000⟩ (some "t"), sampleServe 2 "d", sampleServe 2 "e",
    .answer 0 3, .create 0 .created]

theorem persisted_once_sample :
    ((trace samplePlatform.step {} sampleEvents).filterMap FlowStep.persisted).Nodup :=
  (persisted_once samplePlatform sampleEvents (by decide)).1

end Limitmark.PublicInquiry
