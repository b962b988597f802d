import Limitmark.Authority.AuthorityRun
import Limitmark.Mailbox.DispatchGuard

/-!
# A digest is dispatched at most once

A call that wins the claim of a digest holds it alone until it dispatches (`Call.winner`), and
dispatches only once the claim is durable. From then on every version of the ledger that a crash may
leave has the claim, and either its settlement or its latch (`Ledger.Held`), so that the digest is not
won again, and no other one is won before it is settled.

The latch is not asked for again before the dispatch. A digest whose receipt is presented between its
claim and its dispatch is settled by then, and another one may be active
(`dispatched_while_unsettled`).
-/

namespace Limitmark.Mailbox

open Limitmark.Authority Limitmark.Foundations Limitmark.Ingress

/-! ## The ledger -/

namespace Ledger

variable {l l' : Ledger} {digest d : String}

/-- A claimed digest that is settled or active. -/
structure Held (d : String) (l : Ledger) : Prop where
  claimed : l.isClaimed d = true
  active : l.isSettled d = true ∨ l.latch = some d

/-- The latch names a claimed digest that is not settled, and what is settled was claimed. -/
structure Coherent (l : Ledger) : Prop where
  latch : ∀ d, l.latch = some d → l.isClaimed d = true ∧ l.isSettled d = false
  settled : ∀ d, l.isSettled d = true → l.isClaimed d = true

/-- How a transaction changes the ledger; `news` are the digests it may settle. -/
structure Next (news : List String) (l l' : Ledger) : Prop where
  claimed : ∀ d, l.isClaimed d = true → l'.isClaimed d = true
  held : ∀ d, l.Held d → l'.Held d
  coherent : l.Coherent → l'.Coherent
  settled : ∀ d, l'.isSettled d = true → l.isSettled d = true ∨ d ∈ news

theorem Next.refl (news : List String) (l : Ledger) : Next news l l :=
  ⟨fun _ h => h, fun _ h => h, fun h => h, fun _ h => .inl h⟩

/-- A claim that is won was not there before; the digest is active. -/
theorem claim_won {operation : LifecycleOperation} (h : l.claim digest operation = .won l') :
    l.isClaimed digest = false ∧ l'.Held digest ∧ ∀ news, Next news l l' := by
  unfold claim at h
  split at h
  · cases h
  · next hnew =>
    split at h
    · cases h
    · next hfree =>
      cases h
      simp only [not_or, Bool.not_eq_true, Option.isSome_eq_false_iff, Option.isNone_iff_eq_none]
        at hnew hfree
      have hclaimed (d : String) : isClaimed d { l with
          claims := l.claims ++ [⟨digest, operation, .claimed⟩], latch := some digest } =
            (l.isClaimed d || decide (digest = d)) := by
        simp [isClaimed, List.any_append]
      refine ⟨hnew, ⟨by simp [hclaimed], .inr rfl⟩, fun news => ⟨fun d hd => ?_, fun d hd => ?_,
        fun hl => ⟨fun d hd => ?_, fun d hd => ?_⟩, fun d hd => .inl hd⟩⟩
      · rw [hclaimed, hd, Bool.true_or]
      · refine ⟨by rw [hclaimed, hd.claimed, Bool.true_or], ?_⟩
        rcases hd.active with hsettled | hlatch
        · exact .inl hsettled
        · rw [hfree.1] at hlatch
          cases hlatch
      · obtain rfl := Option.some.inj hd
        refine ⟨by simp [hclaimed], ?_⟩
        by_contra hsettled
        rw [Bool.not_eq_false] at hsettled
        rw [hl.settled digest hsettled] at hnew
        cases hnew
      · rw [hclaimed, hl.settled d hd, Bool.true_or]

theorem next_record (news : List String) (status : ClaimStatus) :
    Next news l (l.record digest status) := by
  have hclaimed (d : String) : (l.record digest status).isClaimed d = l.isClaimed d := by
    simp only [isClaimed, record, List.any_map]
    congr 1
    funext c
    by_cases hc : c.digest = digest <;> simp [hc]
  refine ⟨fun d hd => (hclaimed d).trans hd, fun d hd => ⟨(hclaimed d).trans hd.claimed, hd.active⟩,
    fun hl => ⟨fun d hd => ?_, fun d hd => ?_⟩, fun d hd => .inl hd⟩
  · rw [hclaimed]
    exact hl.latch d hd
  · rw [hclaimed]
    exact hl.settled d hd

theorem next_settle {nowMs : ℤ} (h : l.settle digest nowMs = some l') : Next [digest] l l' := by
  unfold settle at h
  split at h
  · cases h
    exact .refl _ l
  · split at h
    · cases h
      exact .refl _ l
    · next hactive =>
      split at h
      · cases h
      · cases h
        rw [not_not] at hactive
        have hsettled (d : String) : isSettled d { l with
            settlements := l.settlements ++ [⟨digest, l.nextSequence, nowMs⟩], latch := none } =
              (l.isSettled d || decide (digest = d)) := by
          simp [isSettled, List.any_append]
        refine ⟨fun d hd => hd, fun d hd => ⟨hd.claimed, .inl ?_⟩,
          fun hl => ⟨fun d hd => ?_, fun d hd => ?_⟩, fun d hd => ?_⟩
        · rw [hsettled]
          rcases hd.active with hold | hlatch
          · rw [hold, Bool.true_or]
          · rw [hactive] at hlatch
            simp [Option.some.inj hlatch]
        · cases hd
        · rw [hsettled, Bool.or_eq_true, decide_eq_true_eq] at hd
          rcases hd with hd | rfl
          · exact hl.settled d hd
          · exact (hl.latch digest hactive).1
        · rw [hsettled, Bool.or_eq_true, decide_eq_true_eq] at hd
          rcases hd with hd | rfl
          · exact .inl hd
          · exact .inr (List.mem_singleton_self _)

end Ledger

/-! ## What a step does -/

/-- The digest whose claim a call has won and which it has not dispatched. -/
def Call.winner : Call → Option String
  | .claiming _ _ digest _ => some digest
  | .claimed _ _ digest => some digest
  | .dispatching _ digest => some digest
  | _ => none

/-- The position from which on the claim of a winner is there. -/
def Call.since : Call → ℕ
  | .claiming _ _ _ position => position
  | _ => 0

/-- The digest whose exact receipt a step is presented with. -/
def presented (g : Guard) : GuardInput → List String
  | .resume id (.inspected snapshot _ _) =>
    match g.calls.lookup id with
    | some (.inspecting digest) => if Guard.isExactReceipt digest snapshot then [digest] else []
    | _ => []
  | _ => []

/-- A step that touches one call and goes on from the current version. -/
structure Turn (news : List String) (id : ℕ) (after : Option Call) (g g' : Guard) : Prop where
  calls : ∀ j, g'.calls.lookup j = if j = id then after else g.calls.lookup j
  ledger : g.ledger.Moved (Ledger.Next news) g'.ledger

/-- What a step does. -/
inductive Effect (g : Guard) (input : GuardInput) (out : GuardOutput) (g' : Guard) : Prop
  | idle (same : g' = g) (silent : out.dispatched = none)
  | quiet {id : ℕ} {after : Option Call} (turn : Turn (presented g input) id after g g')
      (other : after.bind Call.winner = none) (silent : out.dispatched = none)
  | won {id : ℕ} {after : Call} {digest : String} {operation : LifecycleOperation} {l : Ledger}
      (turn : Turn (presented g input) id (some after) g g') (winner : after.winner = some digest)
      (claim : g.current.claim digest operation = .won l) (write : g'.ledger = g.ledger.write l)
      (since : after.since = g'.ledger.position) (silent : out.dispatched = none)
  | advanced {id : ℕ} {before after : Call} {digest : String}
      (turn : Turn (presented g input) id (some after) g g') (call : g.calls.lookup id = some before)
      (winner : before.winner = some digest) (same : after.winner = some digest)
      (synced : g'.ledger = g.ledger.acknowledge before.since) (since : after.since = 0)
      (silent : out.dispatched = none)
  | dispatched {id : ℕ} {before : Call} {after : Option Call} {digest : String}
      (turn : Turn (presented g input) id after g g') (call : g.calls.lookup id = some before)
      (winner : before.winner = some digest) (since : before.since = 0)
      (other : after.bind Call.winner = none) (ledger : g'.ledger = g.ledger)
      (out : out.dispatched = some digest)
  | crashed {kept : ℕ} (crash : input = .crash kept) (ledger : g'.ledger = g.ledger.crash kept)
      (calls : g'.calls = ∅) (silent : out.dispatched = none)

namespace Guard

variable {g : Guard} {input : GuardInput} {env : GuardEnvironment} {id : ℕ} {digest : String}

theorem turn_suspend {news : List String} {call : Call} {ledger : Journal Ledger}
    (h : g.ledger.Moved (Ledger.Next news) ledger) :
    Turn news id (some call) g (suspend id call { g with ledger }).1 :=
  ⟨fun j => Table.lookup_insert_eq j id call g.calls, h⟩

theorem turn_finish {news : List String} {answer : GuardAnswer} {ledger : Journal Ledger}
    (h : g.ledger.Moved (Ledger.Next news) ledger) :
    Turn news id none g (finish id answer { g with ledger }).1 :=
  ⟨fun j => Table.lookup_erase_eq j id g.calls, h⟩

theorem turn_start {news : List String} (call : Call) :
    Turn news g.nextCall (some call) g (g.start call).1 :=
  ⟨fun j => Table.lookup_insert_eq j g.nextCall call g.calls, .same⟩

theorem effect_suspend {call : Call} {ledger : Journal Ledger} (hcall : call.winner = none)
    (h : g.ledger.Moved (Ledger.Next (presented g input)) ledger) :
    Effect g input (suspend id call { g with ledger }).2 (suspend id call { g with ledger }).1 :=
  .quiet (turn_suspend h) hcall rfl

theorem effect_finish {answer : GuardAnswer} {ledger : Journal Ledger}
    (h : g.ledger.Moved (Ledger.Next (presented g input)) ledger) :
    Effect g input (finish id answer { g with ledger }).2 (finish id answer { g with ledger }).1 :=
  .quiet (turn_finish h) rfl rfl

theorem effect_start {call : Call} (hcall : call.winner = none) :
    Effect g input (g.start call).2 (g.start call).1 :=
  .quiet (turn_start call) hcall rfl

theorem effect_process (env : GuardEnvironment) (operation : LifecycleOperation)
    (sealedJson : String) (nowMs : ℤ) :
    Effect g input (process env operation sealedJson nowMs g).2
      (process env operation sealedJson nowMs g).1 := by
  unfold process
  split
  · exact .idle rfl rfl
  · split
    · exact .idle rfl rfl
    · exact effect_start rfl

theorem effect_settle : Effect g input (settle digest g).2 (settle digest g).1 := by
  unfold settle
  split
  · exact .idle rfl rfl
  · split
    · exact effect_start rfl
    · split
      · exact .idle rfl rfl
      · exact effect_start rfl

theorem effect_probed {sealedJson : String} {operation : LifecycleOperation}
    {answer : LifecycleRelayResult} {fault : Bool} :
    Effect g input (probed id sealedJson operation digest answer fault g).2
      (probed id sealedJson operation digest answer fault g).1 := by
  unfold probed
  split
  · exact effect_finish .same
  · split
    · exact effect_finish .same
    · split
      · exact effect_finish .same
      · exact effect_finish .same
      · next l hclaim =>
        have hnext := (Ledger.claim_won hclaim).2.2
        exact .won (turn_suspend (.written (hnext _))) rfl hclaim rfl rfl rfl
  · exact effect_finish .same

theorem effect_executed {answer : LifecycleRelayResult} {fault : Bool} :
    Effect g input (executed id digest answer fault g).2 (executed id digest answer fault g).1 := by
  unfold executed
  dsimp only
  split
  · exact effect_finish .same
  · exact effect_suspend rfl (.written (Ledger.next_record _ _))

theorem effect_inspected {snapshot : Snapshot} {nowMs : ℤ} {fault : Bool}
    (hcall : g.calls.lookup id = some (.inspecting digest)) :
    Effect g (.resume id (.inspected snapshot nowMs fault))
      (inspected id digest snapshot nowMs fault g).2
      (inspected id digest snapshot nowMs fault g).1 := by
  unfold inspected
  split
  · exact effect_finish .same
  · next hexact =>
    simp only [not_or, not_not] at hexact
    split
    · exact effect_finish .same
    · next l hsettle =>
      refine effect_suspend rfl (.written ?_)
      have hnews : presented g (.resume id (.inspected snapshot nowMs fault)) = [digest] := by
        rw [presented, hcall]
        exact if_pos hexact.1
      rw [hnews]
      exact Ledger.next_settle hsettle

theorem effect_resume {call : Call} {resumption : Resumption}
    (hcall : g.calls.lookup id = some call) :
    Effect g (.resume id resumption) (resume env id call resumption g).2
      (resume env id call resumption g).1 := by
  unfold resume
  split
  · split
    · exact effect_finish .same
    · exact effect_suspend rfl .same
  · exact effect_finish .same
  · split
    · exact effect_finish .same
    · split
      · exact effect_finish .same
      · exact effect_suspend rfl .same
  · exact effect_finish .same
  · exact effect_probed
  · exact effect_finish .same
  · exact .advanced (turn_suspend (.flushed _)) hcall rfl rfl rfl rfl rfl
  · exact effect_finish .same
  · split
    · exact effect_finish .same
    · exact .advanced (turn_suspend .same) hcall rfl rfl Journal.acknowledge_zero.symm rfl rfl
  · exact effect_finish .same
  · exact .dispatched (turn_suspend .same) hcall rfl rfl rfl rfl rfl
  · exact effect_finish .same
  · exact effect_executed
  · exact effect_finish .same
  · exact effect_finish (.flushed _)
  · exact effect_finish .same
  · exact effect_finish (.flushed _)
  · exact effect_finish .same
  · exact effect_inspected hcall
  · exact effect_finish .same
  · exact effect_finish (.flushed _)
  · exact effect_finish .same
  · exact .idle rfl rfl

theorem step_effect (env : GuardEnvironment) (g : Guard) (input : GuardInput) :
    Effect g input (step env g input).2 (step env g input).1 := by
  unfold step
  split
  · exact effect_process env _ _ _
  · exact effect_settle
  · split
    · exact .idle rfl rfl
    · next hcall => exact effect_resume hcall
  · exact .crashed rfl rfl rfl rfl

end Guard

/-! ## Runs -/

abbrev Turns := List (Entry Guard GuardInput GuardOutput)

/-- The digests the executor was called with. -/
def dispatches (tr : Turns) : List String := tr.filterMap fun e => e.out.dispatched

/-- The digests whose exact receipt was presented. -/
def receipts (tr : Turns) : List String := tr.flatMap fun e => presented e.pre e.input

/-- The invariant of the guard after the steps `tr`. -/
structure Guard.Safe (tr : Turns) (g : Guard) : Prop where
  coherent : g.ledger.From 0 Ledger.Coherent
  once : (dispatches tr).Nodup
  held : ∀ d ∈ dispatches tr, g.ledger.From 0 (Ledger.Held d)
  fresh : ∀ id call d, g.calls.lookup id = some call → call.winner = some d → d ∉ dispatches tr
  since : ∀ id call d, g.calls.lookup id = some call → call.winner = some d →
    call.since ≤ g.ledger.position ∧ g.ledger.From call.since (Ledger.Held d)
  alone : ∀ id id' call call' d, g.calls.lookup id = some call → g.calls.lookup id' = some call' →
    call.winner = some d → call'.winner = some d → id = id'
  settled : g.ledger.From 0 fun l => ∀ d, l.isSettled d = true → d ∈ receipts tr

namespace Guard.Safe

variable {tr : Turns} {g g' : Guard} {e : Entry Guard GuardInput GuardOutput} {d : String}

theorem empty : Safe [] {} where
  coherent := ⟨fun _ => ⟨fun _ h => (by cases h), fun _ h => by cases h⟩, fun _ _ h => by cases h⟩
  once := .nil
  held := fun _ h => by cases h
  fresh := fun _ _ _ h => by cases h
  since := fun _ _ _ h => by cases h
  alone := fun _ _ _ _ _ h => by cases h
  settled := ⟨fun _ _ h => (by cases h), fun _ _ h => by cases h⟩

theorem current_held (h : Safe tr g) {id : ℕ} {call : Call} (hcall : g.calls.lookup id = some call)
    (hwinner : call.winner = some d) : g.current.Held d :=
  (h.since id call d hcall hwinner).2.current (h.since id call d hcall hwinner).1

/-- What a turn keeps of every version and of the winners that it does not touch. -/
structure Kept (news : List String) (id : ℕ) (tr : Turns) (g g' : Guard) : Prop where
  coherent : g'.ledger.From 0 Ledger.Coherent
  held : ∀ d ∈ dispatches tr, g'.ledger.From 0 (Ledger.Held d)
  since : ∀ j call d, j ≠ id → g'.calls.lookup j = some call → call.winner = some d →
    g.calls.lookup j = some call ∧ call.since ≤ g'.ledger.position ∧
      g'.ledger.From call.since (Ledger.Held d)
  settled : g'.ledger.From 0 fun l => ∀ d, l.isSettled d = true → d ∈ receipts tr ∨ d ∈ news

theorem kept (h : Safe tr g) {news : List String} {id : ℕ} {after : Option Call}
    (turn : Turn news id after g g') : Kept news id tr g g' where
  coherent := h.coherent.moved (Nat.zero_le _) turn.ledger fun _ _ hnext => hnext.coherent
  held := fun d hd => (h.held d hd).moved (Nat.zero_le _) turn.ledger fun _ _ hnext => hnext.held d
  since := fun j call d hj hcall hwinner => by
    rw [turn.calls, if_neg hj] at hcall
    obtain ⟨hle, hfrom⟩ := h.since j call d hcall hwinner
    exact ⟨hcall, hle.trans turn.ledger.position_le,
      hfrom.moved hle turn.ledger fun _ _ hnext => hnext.held d⟩
  settled := by
    refine (h.settled.mono fun l hl d hd => Or.inl (hl d hd)).moved (Nat.zero_le _) turn.ledger ?_
    intro l l' hnext hl d hd
    rcases hnext.settled d hd with hold | hnew
    · exact hl d hold
    · exact .inr hnew

theorem receipts_snoc : receipts (tr ++ [e]) = receipts tr ++ presented e.pre e.input := by
  rw [receipts, List.flatMap_append, List.flatMap_singleton, receipts]

theorem dispatches_snoc : dispatches (tr ++ [e]) = dispatches tr ++ e.out.dispatched.toList := by
  rw [dispatches, List.filterMap_append, dispatches]
  rcases hout : e.out.dispatched with _ | d <;> simp [hout]

theorem dispatches_silent (h : e.out.dispatched = none) :
    dispatches (tr ++ [e]) = dispatches tr := by
  rw [dispatches_snoc, h]
  exact List.append_nil _

theorem settled_snoc {l : Ledger}
    (h : ∀ d, l.isSettled d = true → d ∈ receipts tr ∨ d ∈ presented e.pre e.input) :
    ∀ d, l.isSettled d = true → d ∈ receipts (tr ++ [e]) := by
  intro d hd
  rw [receipts_snoc, List.mem_append]
  exact h d hd

theorem idle (h : Safe tr g) (silent : e.out.dispatched = none) : Safe (tr ++ [e]) g where
  coherent := h.coherent
  once := by
    rw [dispatches_silent silent]
    exact h.once
  held := by
    rw [dispatches_silent silent]
    exact h.held
  fresh := by
    rw [dispatches_silent silent]
    exact h.fresh
  since := h.since
  alone := h.alone
  settled := h.settled.mono fun l hl => settled_snoc fun d hd => .inl (hl d hd)

theorem crashed (h : Safe tr g) {kept : ℕ} (ledger : g'.ledger = g.ledger.crash kept)
    (calls : g'.calls = ∅) (silent : e.out.dispatched = none) : Safe (tr ++ [e]) g' := by
  have hempty (j : ℕ) (call : Call) : g'.calls.lookup j ≠ some call := by
    rw [calls]
    exact fun h => by cases h
  constructor
  · rw [ledger]
    exact h.coherent.crash
  · rw [dispatches_silent silent]
    exact h.once
  · intro d hd
    rw [dispatches_silent silent] at hd
    rw [ledger]
    exact (h.held d hd).crash
  · exact fun j call _ hcall => absurd hcall (hempty j call)
  · exact fun j call _ hcall => absurd hcall (hempty j call)
  · exact fun j _ call _ _ hcall => absurd hcall (hempty j call)
  · rw [ledger]
    exact h.settled.crash.mono fun l hl => settled_snoc fun d hd => .inl (hl d hd)

theorem quiet (h : Safe tr g) {id : ℕ} {after : Option Call}
    (turn : Turn (presented e.pre e.input) id after g g') (other : after.bind Call.winner = none)
    (silent : e.out.dispatched = none) : Safe (tr ++ [e]) g' := by
  have hkept := h.kept turn
  have hne {j : ℕ} {call : Call} {d : String} (hcall : g'.calls.lookup j = some call)
      (hwinner : call.winner = some d) : j ≠ id := by
    rintro rfl
    rw [turn.calls, if_pos rfl] at hcall
    rw [hcall, Option.bind_some, hwinner] at other
    cases other
  constructor
  · exact hkept.coherent
  · rw [dispatches_silent silent]
    exact h.once
  · rw [dispatches_silent silent]
    exact hkept.held
  · intro j call d hcall hwinner
    rw [dispatches_silent silent]
    exact h.fresh j call d (hkept.since j call d (hne hcall hwinner) hcall hwinner).1 hwinner
  · intro j call d hcall hwinner
    exact (hkept.since j call d (hne hcall hwinner) hcall hwinner).2
  · intro j j' call call' d hcall hcall' hwinner hwinner'
    exact h.alone j j' call call' d (hkept.since j call d (hne hcall hwinner) hcall hwinner).1
      (hkept.since j' call' d (hne hcall' hwinner') hcall' hwinner').1 hwinner hwinner'
  · exact hkept.settled.mono fun l => settled_snoc

/-- After a step that leaves the winner `after` of `digest` at `id`. -/
theorem winning (h : Safe tr g) {id : ℕ} {after : Call} {digest : String}
    (turn : Turn (presented e.pre e.input) id (some after) g g')
    (winner : after.winner = some digest) (silent : e.out.dispatched = none)
    (hfresh : digest ∉ dispatches tr)
    (hsince : after.since ≤ g'.ledger.position ∧ g'.ledger.From after.since (Ledger.Held digest))
    (halone : ∀ j call, j ≠ id → g.calls.lookup j = some call → call.winner ≠ some digest) :
    Safe (tr ++ [e]) g' := by
  have hkept := h.kept turn
  have hafter {call : Call} {d : String} (hcall : g'.calls.lookup id = some call)
      (hwinner : call.winner = some d) : call = after ∧ d = digest := by
    rw [turn.calls, if_pos rfl] at hcall
    cases hcall
    rw [winner] at hwinner
    exact ⟨rfl, (Option.some.inj hwinner).symm⟩
  constructor
  · exact hkept.coherent
  · rw [dispatches_silent silent]
    exact h.once
  · rw [dispatches_silent silent]
    exact hkept.held
  · intro j call d hcall hwinner
    rw [dispatches_silent silent]
    by_cases hj : j = id
    · subst hj
      rw [(hafter hcall hwinner).2]
      exact hfresh
    · exact h.fresh j call d (hkept.since j call d hj hcall hwinner).1 hwinner
  · intro j call d hcall hwinner
    by_cases hj : j = id
    · subst hj
      rw [(hafter hcall hwinner).1, (hafter hcall hwinner).2]
      exact hsince
    · exact (hkept.since j call d hj hcall hwinner).2
  · have hout {j : ℕ} {call call' : Call} {d : String} (hj : j ≠ id)
        (hcall : g'.calls.lookup j = some call) (hwinner : call.winner = some d)
        (hcall' : g'.calls.lookup id = some call') (hwinner' : call'.winner = some d) : False := by
      rw [(hafter hcall' hwinner').2] at hwinner
      exact halone j call hj (hkept.since j call digest hj hcall hwinner).1 hwinner
    intro j j' call call' d hcall hcall' hwinner hwinner'
    by_cases hj : j = id
    · by_cases hj' : j' = id
      · rw [hj, hj']
      · subst hj
        exact (hout hj' hcall' hwinner' hcall hwinner).elim
    · by_cases hj' : j' = id
      · subst hj'
        exact (hout hj hcall hwinner hcall' hwinner').elim
      · exact h.alone j j' call call' d (hkept.since j call d hj hcall hwinner).1
          (hkept.since j' call' d hj' hcall' hwinner').1 hwinner hwinner'
  · exact hkept.settled.mono fun l => settled_snoc

theorem won (h : Safe tr g) {id : ℕ} {after : Call} {digest : String}
    {operation : LifecycleOperation} {l : Ledger}
    (turn : Turn (presented e.pre e.input) id (some after) g g')
    (winner : after.winner = some digest) (claim : g.current.claim digest operation = .won l)
    (write : g'.ledger = g.ledger.write l) (since : after.since = g'.ledger.position)
    (silent : e.out.dispatched = none) : Safe (tr ++ [e]) g' := by
  obtain ⟨hnew, hheld, -⟩ := Ledger.claim_won claim
  have hunheld : ¬ g.current.Held digest := by
    intro hold
    rw [hold.claimed] at hnew
    cases hnew
  refine h.winning turn winner silent ?_ ?_ ?_
  · exact fun hd => hunheld ((h.held digest hd).current (Nat.zero_le _))
  · rw [since, write, Journal.position_write]
    exact ⟨Nat.le_refl _, Journal.from_write hheld⟩
  · exact fun j call _ hcall hwinner => hunheld (h.current_held hcall hwinner)

theorem advanced (h : Safe tr g) {id : ℕ} {before after : Call} {digest : String}
    (turn : Turn (presented e.pre e.input) id (some after) g g')
    (call : g.calls.lookup id = some before) (winner : before.winner = some digest)
    (same : after.winner = some digest) (synced : g'.ledger = g.ledger.acknowledge before.since)
    (since : after.since = 0) (silent : e.out.dispatched = none) : Safe (tr ++ [e]) g' := by
  obtain ⟨hle, hfrom⟩ := h.since id before digest call winner
  refine h.winning turn same silent (h.fresh id before digest call winner) ?_ ?_
  · rw [since, synced]
    exact ⟨Nat.zero_le _, hfrom.acknowledge hle⟩
  · exact fun j _ hj hcall hwinner =>
      hj (h.alone j id _ before digest hcall call hwinner winner)

theorem dispatched (h : Safe tr g) {id : ℕ} {before : Call} {after : Option Call} {digest : String}
    (turn : Turn (presented e.pre e.input) id after g g')
    (call : g.calls.lookup id = some before) (winner : before.winner = some digest)
    (since : before.since = 0) (other : after.bind Call.winner = none)
    (ledger : g'.ledger = g.ledger) (out : e.out.dispatched = some digest) :
    Safe (tr ++ [e]) g' := by
  -- but for the dispatch itself the step is a quiet one
  have hquiet : Safe (tr ++ [{ e with out := ⟨none, none⟩ }]) g' := h.quiet turn other rfl
  have hdispatches : dispatches (tr ++ [e]) = dispatches tr ++ [digest] := by
    rw [dispatches_snoc, out]
    rfl
  have hsame : dispatches (tr ++ [{ e with out := ⟨none, none⟩ }]) = dispatches tr := dispatches_silent rfl
  have hreceipts : receipts (tr ++ [{ e with out := ⟨none, none⟩ }]) = receipts (tr ++ [e]) := by
    rw [receipts_snoc, receipts_snoc]
  constructor
  · exact hquiet.coherent
  · rw [hdispatches]
    exact List.Nodup.append h.once (List.nodup_singleton _)
      (List.disjoint_singleton.2 (h.fresh id before digest call winner))
  · intro d hd
    rw [hdispatches, List.mem_append, List.mem_singleton] at hd
    rcases hd with hd | rfl
    · exact hquiet.held d (hsame ▸ hd)
    · have hfrom := (h.since id before d call winner).2
      rw [ledger, ← since]
      exact hfrom
  · intro j call' d hcall hwinner
    rw [hdispatches, List.mem_append, List.mem_singleton, not_or]
    refine ⟨hsame ▸ hquiet.fresh j call' d hcall hwinner, ?_⟩
    rintro rfl
    have hj : j ≠ id := by
      rintro rfl
      rw [turn.calls, if_pos rfl] at hcall
      rw [hcall, Option.bind_some, hwinner] at other
      cases other
    rw [turn.calls, if_neg hj] at hcall
    exact hj (h.alone j id call' before d hcall call hwinner winner)
  · exact hquiet.since
  · exact hquiet.alone
  · rw [← hreceipts]
    exact hquiet.settled

theorem step (h : Safe tr g) {env : GuardEnvironment} (input : GuardInput) :
    Safe (tr ++ [entry (Guard.step env) g input]) (Guard.step env g input).1 := by
  cases step_effect env g input with
  | idle same silent =>
    rw [same]
    exact h.idle silent
  | quiet turn other silent => exact h.quiet turn other silent
  | won turn winner claim write since silent => exact h.won turn winner claim write since silent
  | advanced turn call winner same synced since silent =>
    exact h.advanced turn call winner same synced since silent
  | dispatched turn call winner since other ledger out =>
    exact h.dispatched turn call winner since other ledger out
  | crashed _ ledger calls silent => exact h.crashed ledger calls silent

end Guard.Safe

theorem safe_exec (env : GuardEnvironment) (inputs : List GuardInput) :
    Guard.Safe (trace (Guard.step env) {} inputs) (exec (Guard.step env) {} inputs) :=
  run_induction (Guard.step env) .empty (fun _ _ input h => h.step input) inputs

/-! ## At most once -/

/-- What a guard guarantees of its runs. -/
structure DispatchedSafely (env : GuardEnvironment) (inputs : List GuardInput) : Prop where
  /-- The executor is called at most once for a digest. -/
  once : (dispatches (trace (Guard.step env) {} inputs)).Nodup
  /-- A digest that is dispatched while an earlier one is not settled is settled itself. -/
  exclusive : ∀ pre e post, trace (Guard.step env) {} inputs = pre ++ e :: post →
    ∀ d, e.out.dispatched = some d → e.pre.current.isSettled d = true ∨
      ∀ d' ∈ dispatches pre, e.pre.current.isSettled d' = true
  /-- In every version that a crash may leave, the latch names a claimed digest that is not settled. -/
  latch : (exec (Guard.step env) {} inputs).ledger.From 0 fun l =>
    ∀ d, l.latch = some d → l.isClaimed d = true ∧ l.isSettled d = false
  /-- What is settled is what a receipt was presented of. -/
  settled : (exec (Guard.step env) {} inputs).ledger.From 0 fun l =>
    ∀ d, l.isSettled d = true → d ∈ receipts (trace (Guard.step env) {} inputs)
  /-- No step but a crash removes a claim, and a crash none that is durable. -/
  kept : ∀ e ∈ trace (Guard.step env) {} inputs, ∀ d,
    ((∀ n, e.input ≠ .crash n) → e.pre.current.isClaimed d = true →
      e.post.current.isClaimed d = true) ∧
    (e.pre.ledger.From 0 (fun l => l.isClaimed d = true) →
      e.post.ledger.From 0 fun l => l.isClaimed d = true)

theorem Turn.claimed {news : List String} {id : ℕ} {after : Option Call} {g g' : Guard}
    (turn : Turn news id after g g') {d : String} {p : ℕ} (hp : p ≤ g.ledger.position)
    (h : g.ledger.From p fun l => l.isClaimed d = true) :
    g'.ledger.From p fun l => l.isClaimed d = true :=
  h.moved hp turn.ledger fun _ _ hnext => hnext.claimed d

theorem Turn.current_claimed {news : List String} {id : ℕ} {after : Option Call} {g g' : Guard}
    (turn : Turn news id after g g') {d : String} (h : g.current.isClaimed d = true) :
    g'.current.isClaimed d = true := by
  unfold Guard.current at h ⊢
  have hledger := turn.ledger
  generalize g'.ledger = j at hledger ⊢
  cases hledger with
  | same => exact h
  | flushed n =>
    rw [Journal.current_flush]
    exact h
  | written hnext =>
    rw [Journal.current_write]
    exact hnext.claimed d h

theorem step_kept (env : GuardEnvironment) (g : Guard) (input : GuardInput) (d : String) :
    ((∀ n, input ≠ .crash n) → g.current.isClaimed d = true →
      (Guard.step env g input).1.current.isClaimed d = true) ∧
    (g.ledger.From 0 (fun l => l.isClaimed d = true) →
      (Guard.step env g input).1.ledger.From 0 fun l => l.isClaimed d = true) := by
  have hturn {news : List String} {id : ℕ} {after : Option Call}
      (turn : Turn news id after g (Guard.step env g input).1) :=
    And.intro (fun (_ : ∀ n, input ≠ .crash n) => turn.current_claimed (d := d))
      (turn.claimed (d := d) (Nat.zero_le _))
  cases Guard.step_effect env g input with
  | idle same =>
    rw [same]
    exact ⟨fun _ h => h, fun h => h⟩
  | quiet turn => exact hturn turn
  | won turn => exact hturn turn
  | advanced turn => exact hturn turn
  | dispatched turn => exact hturn turn
  | crashed hcrash ledger =>
    refine ⟨fun h => absurd hcrash (h _), fun h => ?_⟩
    rw [ledger]
    exact h.crash

/-- Of a digest that is dispatched and those dispatched before it, the latch names one at most. -/
theorem Guard.Safe.exclusive {tr : Turns} {g : Guard} (h : Guard.Safe tr g) {env : GuardEnvironment}
    {input : GuardInput} {d : String} (hd : (Guard.step env g input).2.dispatched = some d) :
    g.current.isSettled d = true ∨ ∀ d' ∈ dispatches tr, g.current.isSettled d' = true := by
  cases Guard.step_effect env g input with
  | dispatched _ call winner _ _ _ out =>
    obtain rfl := Option.some.inj (hd.symm.trans out)
    rcases (h.current_held call winner).active with hsettled | hlatch
    · exact .inl hsettled
    · refine .inr fun d' hd' => ?_
      rcases ((h.held d' hd').current (Nat.zero_le _)).active with hsettled | hlatch'
      · exact hsettled
      · have heq : d = d' := Option.some.inj (hlatch.symm.trans hlatch')
        exact absurd hd' (heq ▸ h.fresh _ _ d call winner)
  | idle _ silent => exact absurd (hd.symm.trans silent) (by simp)
  | quiet _ _ silent => exact absurd (hd.symm.trans silent) (by simp)
  | won _ _ _ _ _ silent => exact absurd (hd.symm.trans silent) (by simp)
  | advanced _ _ _ _ _ _ silent => exact absurd (hd.symm.trans silent) (by simp)
  | crashed _ _ _ silent => exact absurd (hd.symm.trans silent) (by simp)

/-- **A digest is dispatched at most once**, however the calls of a guard interleave and wherever it
crashes. -/
theorem dispatched_safely (env : GuardEnvironment) (inputs : List GuardInput) :
    DispatchedSafely env inputs where
  once := (safe_exec env inputs).once
  exclusive pre e post h d hd := by
    obtain ⟨js, i, ks, -, rfl, rfl, -⟩ := trace_eq_append_cons _ h
    exact (safe_exec env js).exclusive hd
  latch := (safe_exec env inputs).coherent.mono fun _ h => h.latch
  settled := (safe_exec env inputs).settled
  kept e he d := by
    obtain ⟨pre, post, h⟩ := List.append_of_mem he
    obtain ⟨js, i, ks, -, -, rfl, -⟩ := trace_eq_append_cons _ h
    exact step_kept env _ i d

/-! ## A dispatch while another one is not settled -/

def sampleArtifact (releaseId : String) : SealedLifecycleArtifact where
  command := .initialization
    { environment := .production
      authorityId := ADMISSION_AUTHORITY_ID
      releaseId
      releaseKeyId := "k1"
      issuedAtMs := 0
      confirmProduction := true }
  signature := sampleText 86

/-- An artifact is read as the initialisation with the release it names; the digest of a command tells
its length. -/
def sampleEnvironment : GuardEnvironment where
  subtle :=
    { sha256 := fun bytes => Vector.replicate 32 (UInt8.ofNat bytes.length)
      importKey := fun _ => true
      verify := fun _ _ _ => true }
  operatorPublicKey := sampleText 43
  readArtifact := fun sealedJson => some (sampleArtifact sealedJson)

/-- A call up to the end of its sync. -/
def sampleCall (id : ℕ) (sealedJson : String) : List GuardInput :=
  [.process .initialization sealedJson 0, .resume id (.resolved 0), .resume id (.resolved 0),
    .resume id (.relayed (.unavailable "receipt-not-found")), .resume id (.resolved 0)]

/-- The digest of the sample artifact of "r1". -/
def sampleDigest : String := String.ofList (List.replicate 64 'a')

/-- The first digest is settled between its claim and its dispatch; a second one is claimed and
dispatched, and then the first one. -/
def sampleOvertaken : List GuardInput :=
  sampleCall 0 "r1" ++
    [.settle sampleDigest,
      .resume 1 (.inspected ⟨"EXACT_RECEIPT", some sampleDigest, "production",
        "production-public-inquiries-v1", "phase5c-i1-epoch-1"⟩ 0)] ++
    sampleCall 2 "r22" ++ [.resume 2 (.resolved 0), .resume 2 (.resolved 0), .resume 0 (.resolved 0)]

theorem dispatched_while_unsettled :
    ¬ ∀ (env : GuardEnvironment) (inputs : List GuardInput) pre e post,
      trace (Guard.step env) {} inputs = pre ++ e :: post → ∀ d, e.out.dispatched = some d →
        ∀ d' ∈ dispatches pre, e.pre.current.isSettled d' = true := by
  intro h
  have hrun : trace (Guard.step sampleEnvironment) {} (sampleOvertaken ++ [.resume 0 (.resolved 0)]) =
      trace (Guard.step sampleEnvironment) {} sampleOvertaken ++
        entry (Guard.step sampleEnvironment) (exec (Guard.step sampleEnvironment) {} sampleOvertaken)
          (.resume 0 (.resolved 0)) :: [] := by
    rw [trace_append, trace_cons, trace_nil]
  have hovertaken : (Guard.step sampleEnvironment
      (exec (Guard.step sampleEnvironment) {} sampleOvertaken) (.resume 0 (.resolved 0))).2.dispatched =
        some sampleDigest ∧
      ∃ d ∈ dispatches (trace (Guard.step sampleEnvironment) {} sampleOvertaken),
        (exec (Guard.step sampleEnvironment) {} sampleOvertaken).current.isSettled d = false := by
    decide +kernel
  obtain ⟨hfirst, d, hd, hopen⟩ := hovertaken
  refine absurd (h sampleEnvironment _ _ _ _ hrun sampleDigest ?_ d hd) ?_
  · rw [entry_out]
    exact hfirst
  · rw [entry_pre, hopen]
    exact Bool.false_ne_true

end Limitmark.Mailbox
