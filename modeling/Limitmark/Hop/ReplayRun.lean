import Limitmark.Foundations.Run
import Limitmark.Hop.ReplayCounters

/-!
# Runs of the replay guard

A guard and the tickets it has handed out, under reservations and settlements in any order; a ticket
may be settled again and again, also after its ids have been purged and reserved anew. The ids of a
ticket that is not settled are reserved, and no other ticket that is not settled has them
(`Sound.owned`, `Sound.disjoint`); this is why only a second settlement is counted as a violation.
-/

namespace Limitmark.Hop

open Limitmark.Defense Limitmark.Foundations

namespace ReplayGuard

/-- A guard with its tickets, in the order of their reservations. -/
structure GuardRun where
  guard : ReplayGuard
  tickets : List ReplayTicket := []

/-- A ticket is named by its number. -/
inductive GuardCall
  | reserve (now : ℚ) (requests : List ReserveRequest)
  | commit (i : ℕ)
  | burn (i : ℕ)

/-- The ticket a settlement is called on. -/
def GuardCall.ticket? (s : GuardRun) : GuardCall → Option ReplayTicket
  | .reserve _ _ => none
  | .commit i | .burn i => s.tickets[i]?

def GuardRun.settleAt (s : GuardRun) (next : ReplayEntryState) (i : ℕ) : GuardRun :=
  match s.tickets[i]? with
  | none => s
  | some ticket =>
    { guard := (s.guard.settle next ticket).1
      tickets := s.tickets.set i (s.guard.settle next ticket).2 }

/-- One call, and the answer of a reservation. -/
def GuardRun.step (s : GuardRun) :
    GuardCall → GuardRun × Option (Except ReserveRefusal ReplayTicket)
  | .reserve now requests =>
    match s.guard.reserve now requests with
    | (guard, .ok ticket) => ({ guard, tickets := s.tickets ++ [ticket] }, some (.ok ticket))
    | (guard, .error refusal) => ({ s with guard }, some (.error refusal))
  | .commit i => (s.settleAt .committed i, none)
  | .burn i => (s.settleAt .burned i, none)

/-- The reading of a call's clock, if it reads one. -/
def GuardCall.now? : GuardCall → Option ℚ
  | .reserve now _ => some now
  | _ => none

/-- The clock never steps back. -/
def Clocked (t : ℚ) (calls : List GuardCall) : Prop :=
  Paced (fun t (c : GuardCall) => ∀ now ∈ c.now?, t ≤ now) (fun t c => c.now?.getD t) t calls

/-- The call settles a ticket that was settled before. -/
def settlesAgain (e : Entry GuardRun GuardCall (Option (Except ReserveRefusal ReplayTicket))) : Bool :=
  (e.input.ticket? e.pre).any ReplayTicket.settled

/-! ## The tickets -/

/-- The ids of a ticket that is not settled are reserved, and no other such ticket has them. -/
structure Sound (s : GuardRun) : Prop where
  counted : Counted s.guard
  nodup : ∀ ticket ∈ s.tickets, ticket.settled = false → ticket.keys.Nodup
  owned : ∀ ticket ∈ s.tickets, ticket.settled = false →
    ∀ key ∈ ticket.keys, s.guard.Reserves key
  disjoint : ∀ (i j : ℕ) (ticket ticket' : ReplayTicket), s.tickets[i]? = some ticket → s.tickets[j]? = some ticket' →
    i ≠ j → ticket.settled = false → ticket'.settled = false →
      ∀ key ∈ ticket.keys, key ∉ ticket'.keys

variable {s : GuardRun}

/-- A ticket that is handed out: its keys were nobody's. -/
theorem Sound.handOut (h : Sound s) {guard : ReplayGuard} {keys : List String}
    (hcounted : Counted guard) (hnodup : keys.Nodup) (hnew : ∀ key ∈ keys, guard.Reserves key)
    (hkeep : ∀ key, s.guard.Reserves key → guard.Reserves key ∧ key ∉ keys) :
    Sound { guard, tickets := s.tickets ++ [⟨keys, false⟩] } := by
  have hold : ∀ {i : ℕ} {ticket : ReplayTicket},
      (s.tickets ++ [⟨keys, false⟩])[i]? = some ticket → s.tickets[i]? = some ticket ∨
        i = s.tickets.length ∧ ticket = ⟨keys, false⟩ := by
    intro i ticket hi
    rw [List.getElem?_append] at hi
    split_ifs at hi with hlt
    · exact Or.inl hi
    · rw [List.getElem?_singleton] at hi
      split_ifs at hi with heq
      exact Or.inr ⟨by omega, (Option.some.inj hi).symm⟩
  refine ⟨hcounted, ?_, ?_, ?_⟩
  · intro ticket hmem hopen
    rcases List.mem_append.1 hmem with hmem | hmem
    · exact h.nodup ticket hmem hopen
    · rw [List.mem_singleton.1 hmem]
      exact hnodup
  · intro ticket hmem hopen key hkey
    rcases List.mem_append.1 hmem with hmem | hmem
    · exact (hkeep key (h.owned ticket hmem hopen key hkey)).1
    · rw [List.mem_singleton.1 hmem] at hkey
      exact hnew key hkey
  · intro i j ticket ticket' hi hj hne hopen hopen' key hkey hkey'
    rcases hold hi with hi | ⟨hi, rfl⟩ <;> rcases hold hj with hj | ⟨hj, rfl⟩
    · exact h.disjoint i j ticket ticket' hi hj hne hopen hopen' key hkey hkey'
    · exact (hkeep key (h.owned ticket (List.mem_of_getElem? hi) hopen key hkey)).2 hkey'
    · exact (hkeep key (h.owned ticket' (List.mem_of_getElem? hj) hopen' key hkey')).2 hkey
    · omega

/-- An update of the guard that keeps what is reserved. -/
theorem Sound.update (h : Sound s) {guard : ReplayGuard} (hcounted : Counted guard)
    (hkeep : ∀ key, s.guard.Reserves key → guard.Reserves key) : Sound { s with guard } :=
  ⟨hcounted, h.nodup, fun ticket hmem hopen key hkey => hkeep key (h.owned ticket hmem hopen key hkey),
    h.disjoint⟩

/-- The ticket at a place is settled: the reserved ids of the others stay reserved. -/
theorem Sound.settleTicket (h : Sound s) {i : ℕ} {ticket : ReplayTicket}
    (hi : s.tickets[i]? = some ticket) {guard : ReplayGuard} (hcounted : Counted guard)
    (hkeep : ∀ key, s.guard.Reserves key → key ∉ ticket.keys → guard.Reserves key)
    (hopen : ticket.settled = false) :
    Sound { guard, tickets := s.tickets.set i { ticket with settled := true } } := by
  have hold : ∀ {j : ℕ} {t : ReplayTicket},
      (s.tickets.set i { ticket with settled := true })[j]? = some t → t.settled = false →
        j ≠ i ∧ s.tickets[j]? = some t := by
    intro j t hj ht
    rw [List.getElem?_set] at hj
    split_ifs at hj with heq hlt
    · obtain rfl := Option.some.inj hj
      cases ht
    · exact ⟨Ne.symm heq, hj⟩
  refine ⟨hcounted, ?_, ?_, ?_⟩
  · intro t hmem ht
    obtain ⟨j, hj⟩ := List.getElem?_of_mem hmem
    exact h.nodup t (List.mem_of_getElem? (hold hj ht).2) ht
  · intro t hmem ht key hkey
    obtain ⟨j, hj⟩ := List.getElem?_of_mem hmem
    obtain ⟨hne, hj⟩ := hold hj ht
    exact hkeep key (h.owned t (List.mem_of_getElem? hj) ht key hkey)
      (h.disjoint j i t ticket hj hi hne ht hopen key hkey)
  · intro j k t t' hj hk hne ht ht'
    exact h.disjoint j k t t' (hold hj ht).2 (hold hk ht').2 hne ht ht'

/-- A settlement counts a violation exactly when its ticket was settled before. -/
theorem Sound.settleAt (h : Sound s) {next : ReplayEntryState} (hnext : next ≠ .reserved) (i : ℕ) :
    Sound (s.settleAt next i) ∧
      (s.settleAt next i).guard.counters.stateViolations = s.guard.counters.stateViolations +
        if (s.tickets[i]?).any ReplayTicket.settled then 1 else 0 := by
  unfold GuardRun.settleAt
  cases hi : s.tickets[i]? with
  | none => exact ⟨h, rfl⟩
  | some ticket =>
    dsimp only
    rw [settle, Option.any_some]
    cases hsettled : ticket.settled with
    | true =>
      obtain ⟨hcounted, hviolations, hreserves⟩ := violation_spec ticket.keys h.counted
      rw [if_pos rfl, if_pos rfl]
      refine ⟨?_, hviolations⟩
      have hset : s.tickets.set i ticket = s.tickets := by
        obtain ⟨hlt, rfl⟩ := List.getElem?_eq_some_iff.1 hi
        exact List.set_getElem_self hlt
      dsimp only
      rw [hset]
      exact h.update hcounted hreserves
    | false =>
      have hmem := List.mem_of_getElem? hi
      obtain ⟨hcounted, hviolations⟩ := transition_owned hnext (h.nodup ticket hmem hsettled)
        (h.owned ticket hmem hsettled) h.counted
      rw [if_neg Bool.false_ne_true, if_neg Bool.false_ne_true]
      refine ⟨h.settleTicket hi hcounted ?_ hsettled, hviolations⟩
      rintro key ⟨entry, hkey, hentry⟩ hnot
      exact ⟨entry, (lookup_transition_of_not_mem next hnot).trans hkey, hentry⟩

/-- **What every call does to the entries.** -/
structure Lawful (e : Entry GuardRun GuardCall (Option (Except ReserveRefusal ReplayTicket))) :
    Prop where
  /-- No reserved entry is purged. -/
  reservedStays : ∀ key, e.pre.guard.Reserves key → (e.post.guard.entries.lookup key).isSome
  /-- No key is reserved that is reserved or still to be retained. -/
  reserves : ∀ ticket, e.out = some (.ok ticket) → ∀ key ∈ ticket.keys, ∀ entry,
    e.pre.guard.entries.lookup key = some entry →
      entry.state ≠ .reserved ∧ ∀ now ∈ e.input.now?, entry.retainUntil ≤ now
  /-- A refused reservation adds no key and leaves every entry that is to be retained. -/
  refuses : ∀ refusal, e.out = some (.error refusal) → ∀ key entry,
    (e.post.guard.entries.lookup key = some entry → e.pre.guard.entries.lookup key = some entry) ∧
      (e.pre.guard.entries.lookup key = some entry →
        entry.state = .reserved ∨ (∀ now ∈ e.input.now?, now < entry.retainUntil) →
          e.post.guard.entries.lookup key = some entry)
  /-- No settlement forgets an id or makes one reserved. -/
  settles : e.input.now? = none → Settles e.pre.guard e.post.guard

/-- The step of a reservation. -/
theorem Sound.reserve (h : Sound s) (now : ℚ) (requests : List ReserveRequest) :
    Sound (s.step (.reserve now requests)).1 ∧
      (s.step (.reserve now requests)).1.guard.counters.stateViolations =
        s.guard.counters.stateViolations ∧
      Lawful (entry GuardRun.step s (.reserve now requests)) := by
  have hdue : ∀ {key}, s.guard.Reserves key →
      (s.guard.due now requests.length).Reserves key := by
    rintro key ⟨entry, hkey, hentry⟩
    exact ⟨entry, lookup_due_of_kept hkey (kept_of_isReserved hentry), hentry⟩
  rcases reserve_cases now requests s.guard with ⟨refusal, heq⟩ |
    ⟨hout, hnodup, hfree, hentries, hviolations, hcounted⟩
  · obtain ⟨hout, hentries, hviolations, hcounted⟩ :=
      refuse_eq refusal (s.guard.due now requests.length)
    have hstep : s.step (.reserve now requests) =
        ({ s with guard := ((s.guard.due now requests.length).refuse refusal).1 },
          some (.error refusal)) := by
      rw [GuardRun.step, heq, ← hout]
      rfl
    have hkeep : ∀ key, s.guard.Reserves key →
        ((s.guard.due now requests.length).refuse refusal).1.Reserves key := by
      intro key hkey
      unfold Reserves
      rw [hentries]
      exact hdue hkey
    rw [hstep]
    refine ⟨h.update (hcounted (h.counted.due now _)) hkeep,
      hviolations.trans (due_stateViolations _ _ _), ?_⟩
    constructor
    · intro key hkey
      rw [entry_post, hstep]
      obtain ⟨entry, hlookup, -⟩ := hkeep key hkey
      rw [hlookup]
      rfl
    · intro ticket hok
      rw [entry_out, hstep] at hok
      cases hok
    · intro r _ key entry
      rw [entry_post, hstep, entry_pre]
      dsimp only
      rw [hentries]
      refine ⟨lookup_of_lookup_due, fun hkey hlive => lookup_due_of_kept hkey ?_⟩
      rcases hlive with hstate | hlive
      · exact kept_of_isReserved (by rw [isReserved, hstate]; rfl)
      · rw [kept, decide_eq_true (hlive now rfl)]
        rfl
    · rintro ⟨⟩
  · have hstep : s.step (.reserve now requests) =
        ({ guard := (s.guard.reserve now requests).1
           tickets := s.tickets ++ [{ keys := requests.map ReserveRequest.key }] },
          some (.ok { keys := requests.map ReserveRequest.key })) := by
      rw [GuardRun.step]
      generalize s.guard.reserve now requests = r at hout
      obtain ⟨guard, out⟩ := r
      obtain rfl : out = _ := hout
      rfl
    have hfree' : ∀ key, (s.guard.due now requests.length).Reserves key →
        key ∉ requests.map ReserveRequest.key := by
      rintro key ⟨entry, hkey, -⟩ hmem
      obtain ⟨request, hrequest, rfl⟩ := List.mem_map.1 hmem
      rw [hfree request hrequest] at hkey
      cases hkey
    have hkeep : ∀ key, s.guard.Reserves key → (s.guard.reserve now requests).1.Reserves key ∧
        key ∉ requests.map ReserveRequest.key := by
      intro key hkey
      have hnot := hfree' key (hdue hkey)
      refine ⟨?_, hnot⟩
      unfold Reserves
      rw [hentries, lookup_foldl_insertReserved now _ _ _ hnot]
      exact hdue hkey
    have hnew : ∀ key ∈ requests.map ReserveRequest.key,
        (s.guard.reserve now requests).1.Reserves key := by
      intro key hmem
      obtain ⟨request, hrequest, rfl⟩ := List.mem_map.1 hmem
      unfold Reserves
      rw [hentries, lookup_foldl_insertReserved_of_mem now _ hnodup hrequest]
      exact ⟨_, rfl, rfl⟩
    rw [hstep]
    refine ⟨h.handOut (hcounted h.counted) hnodup hnew hkeep, hviolations, ?_⟩
    constructor
    · intro key hkey
      rw [entry_post, hstep]
      obtain ⟨⟨entry, hlookup, -⟩, -⟩ := hkeep key hkey
      dsimp only
      rw [hlookup]
      rfl
    · intro ticket hok key hmem entry hkey
      rw [entry_out, hstep] at hok
      obtain rfl : { keys := requests.map ReserveRequest.key } = ticket :=
        Except.ok.inj (Option.some.inj hok)
      have hnot : ¬ kept now entry = true := by
        intro hkept
        obtain ⟨request, hrequest, rfl⟩ := List.mem_map.1 hmem
        have hstill := lookup_due_of_kept (g := s.guard) (n := requests.length) hkey hkept
        rw [hfree request hrequest] at hstill
        cases hstill
      simp only [kept, Bool.or_eq_true, decide_eq_true_eq, not_or, not_lt] at hnot
      refine ⟨hnot.2, ?_⟩
      rintro _ ⟨⟩
      exact hnot.1
    · intro r hr
      rw [entry_out, hstep] at hr
      cases hr
    · rintro ⟨⟩

/-- The step of a settlement. -/
theorem lawful_settlement {next : ReplayEntryState} (hnext : next ≠ .reserved) {i : ℕ}
    {call : GuardCall} (hcall : s.step call = (s.settleAt next i, none)) :
    Lawful (entry GuardRun.step s call) := by
  have hsettles : Settles s.guard (s.settleAt next i).guard := by
    unfold GuardRun.settleAt
    cases s.tickets[i]? with
    | none => exact Settles.refl _
    | some ticket => exact settles_settle hnext ticket _
  constructor
  · rintro key ⟨entry, hkey, -⟩
    rw [entry_post, hcall]
    apply hsettles.1
    rw [entry_pre] at hkey
    rw [hkey]
    rfl
  · intro ticket hok
    rw [entry_out, hcall] at hok
    cases hok
  · intro r hr
    rw [entry_out, hcall] at hr
    cases hr
  · intro _
    rw [entry_post, hcall]
    exact hsettles

/-- **Every step.** -/
theorem Sound.step (h : Sound s) (call : GuardCall) :
    Sound (s.step call).1 ∧
      (s.step call).1.guard.counters.stateViolations = s.guard.counters.stateViolations +
        (if settlesAgain (entry GuardRun.step s call) then 1 else 0) ∧
      Lawful (entry GuardRun.step s call) := by
  cases call with
  | reserve now requests => exact h.reserve now requests
  | commit i =>
    have hnext : ReplayEntryState.committed ≠ .reserved := by decide
    obtain ⟨hsound, hviolations⟩ := h.settleAt hnext i
    exact ⟨hsound, hviolations, lawful_settlement hnext rfl⟩
  | burn i =>
    have hnext : ReplayEntryState.burned ≠ .reserved := by decide
    obtain ⟨hsound, hviolations⟩ := h.settleAt hnext i
    exact ⟨hsound, hviolations, lawful_settlement hnext rfl⟩

/-- A guard before its first call. -/
theorem sound_new (capacity : ℕ) : Sound { guard := { capacity } } :=
  ⟨⟨rfl, rfl, rfl, Nat.zero_le _⟩, fun _ hmem => absurd hmem List.not_mem_nil,
    fun _ hmem => absurd hmem List.not_mem_nil,
    fun _ _ _ _ hi => absurd (List.mem_of_getElem? hi) List.not_mem_nil⟩

/-- Every run: what holds in the state it ends in, and what every call of it did. -/
theorem sound_run (capacity : ℕ) (calls : List GuardCall) :
    Sound (exec GuardRun.step { guard := { capacity } } calls) ∧
      (exec GuardRun.step { guard := { capacity } } calls).guard.counters.stateViolations =
        (trace GuardRun.step { guard := { capacity } } calls).countP settlesAgain ∧
      ∀ e ∈ trace GuardRun.step { guard := { capacity } } calls, Lawful e := by
  refine run_induction GuardRun.step (P := fun tr s => Sound s ∧
    s.guard.counters.stateViolations = tr.countP settlesAgain ∧ ∀ e ∈ tr, Lawful e) ?_ ?_ calls
  · exact ⟨sound_new capacity, rfl, fun e he => by cases he⟩
  · rintro tr s call ⟨hsound, hviolations, hlawful⟩
    obtain ⟨hsound', hviolations', hlawful'⟩ := hsound.step call
    refine ⟨hsound', ?_, ?_⟩
    · rw [hviolations', hviolations, List.countP_append, List.countP_singleton]
    · rw [List.forall_mem_append, List.forall_mem_singleton]
      exact ⟨hlawful, hlawful'⟩

/-! ## Two reservations of one id -/

/-- The call made a reservation of the id, to be retained until `limit`. -/
def Retains (e : Entry GuardRun GuardCall (Option (Except ReserveRefusal ReplayTicket)))
    (key : String) (limit : ℚ) : Prop :=
  ∃ now requests ticket, e.input = .reserve now requests ∧ e.out = some (.ok ticket) ∧
    ∃ request ∈ requests, key = request.key ∧ limit = now + request.retainMs

theorem GuardRun.step_reserve (s : GuardRun) (now : ℚ) (requests : List ReserveRequest) :
    (s.step (.reserve now requests)).1.guard = (s.guard.reserve now requests).1 ∧
      (s.step (.reserve now requests)).2 = some (s.guard.reserve now requests).2 := by
  rw [GuardRun.step]
  rcases s.guard.reserve now requests with ⟨guard, _ | _⟩ <;> exact ⟨rfl, rfl⟩

theorem GuardRun.holds_settleAt {clock limit : ℚ} (next : ReplayEntryState) (i : ℕ)
    (h : s.guard.Holds clock key limit) : (s.settleAt next i).guard.Holds clock key limit := by
  unfold GuardRun.settleAt
  cases s.tickets[i]? with
  | none => exact h
  | some ticket => exact h.settle next ticket

theorem GuardRun.settleAt_capacity (s : GuardRun) (next : ReplayEntryState) (i : ℕ) :
    (s.settleAt next i).guard.capacity = s.guard.capacity := by
  unfold GuardRun.settleAt
  cases s.tickets[i]? with
  | none => rfl
  | some ticket => exact settle_capacity next ticket s.guard

/-- No call loses an id before its time. -/
theorem GuardRun.holds_step {t limit : ℚ} {call : GuardCall} (h : s.guard.Holds t key limit)
    (hclock : ∀ now ∈ call.now?, t ≤ now) :
    (s.step call).1.guard.Holds (call.now?.getD t) key limit := by
  cases call with
  | reserve now requests =>
    rw [(s.step_reserve now requests).1]
    exact h.reserve (hclock now rfl) requests
  | commit i => exact GuardRun.holds_settleAt _ i h
  | burn i => exact GuardRun.holds_settleAt _ i h

/-- A call that reserves an id holds it from then on, and what was held of it before is over. -/
theorem Retains.step {call : GuardCall} {limit : ℚ} (h : Retains (entry GuardRun.step s call) key limit) :
    ∃ now, call.now? = some now ∧ (s.step call).1.guard.Holds now key limit ∧
      ∀ t l, t ≤ now → s.guard.Holds t key l → l ≤ now := by
  obtain ⟨now, requests, ticket, hinput, hout, request, hmem, rfl, rfl⟩ := h
  obtain rfl : call = .reserve now requests := hinput
  obtain ⟨hguard, hstep⟩ := s.step_reserve now requests
  rw [entry_out, hstep] at hout
  obtain ⟨hholds, hfree⟩ := reserve_ok (Option.some.inj hout) hmem
  rw [← hguard] at hholds
  exact ⟨now, rfl, hholds, hfree⟩

/-- The second call comes after what the first retains is over. -/
def Apart (e e' : Entry GuardRun GuardCall (Option (Except ReserveRefusal ReplayTicket))) : Prop :=
  ∀ key limit limit', Retains e key limit → Retains e' key limit' →
    ∀ now ∈ e'.input.now?, limit ≤ now

/-- No id is reserved again before its time. -/
theorem pairwise_apart {t : ℚ} {capacity : ℕ} {calls : List GuardCall} (h : Clocked t calls) :
    (trace GuardRun.step { guard := { capacity } } calls).Pairwise Apart := by
  refine (Paced.run_induction GuardRun.step (P := fun tr s t => tr.Pairwise Apart ∧
    ∀ e ∈ tr, ∀ key limit, Retains e key limit → s.guard.Holds t key limit) ?_ ?_ h).1
  · exact ⟨List.Pairwise.nil, fun e he => absurd he List.not_mem_nil⟩
  · rintro tr s t call ⟨hapart, hholds⟩ hclock
    constructor
    · rw [List.pairwise_append]
      refine ⟨hapart, List.pairwise_singleton _ _, ?_⟩
      intro e he e' he' key limit limit' hretains hretains' now hnow
      rw [List.mem_singleton.1 he'] at hretains' hnow
      obtain ⟨now', hnow', -, hfree⟩ := hretains'.step
      obtain rfl : now' = now := Option.some.inj (hnow'.symm.trans hnow)
      exact hfree t limit (hclock now' hnow') (hholds e he key limit hretains)
    · intro e he key limit hretains
      rcases List.mem_append.1 he with he | he
      · exact GuardRun.holds_step (hholds e he key limit hretains) hclock
      · rw [List.mem_singleton.1 he] at hretains
        obtain ⟨now, hnow, hstep, -⟩ := hretains.step
        rw [hnow]
        exact hstep

/-- **The replay guard as a state machine.** Over every run of reservations and settlements with a
clock that never steps back: the counters count what they name, a violation is a second settlement
of a ticket, every call leaves the entries as it should, and no id is reserved again before its
time. -/
theorem guard_run {t : ℚ} (capacity : ℕ) {calls : List GuardCall} (hclock : Clocked t calls) :
    Counted (exec GuardRun.step { guard := { capacity } } calls).guard ∧
      (exec GuardRun.step { guard := { capacity } } calls).guard.capacity = capacity ∧
      (exec GuardRun.step { guard := { capacity } } calls).guard.counters.stateViolations =
        (trace GuardRun.step { guard := { capacity } } calls).countP settlesAgain ∧
      (∀ e ∈ trace GuardRun.step { guard := { capacity } } calls, Lawful e) ∧
      (trace GuardRun.step { guard := { capacity } } calls).Pairwise Apart := by
  obtain ⟨hsound, hviolations, hlawful⟩ := sound_run capacity calls
  refine ⟨hsound.counted, ?_, hviolations, hlawful, pairwise_apart hclock⟩
  refine exec_invariant GuardRun.step (I := fun s => s.guard.capacity = capacity) rfl ?_ calls
  intro s call h
  rw [← h]
  cases call with
  | reserve now requests =>
    rw [(s.step_reserve now requests).1]
    exact (reserve_capacity now requests s.guard).1
  | commit i => exact s.settleAt_capacity _ i
  | burn i => exact s.settleAt_capacity _ i

/-- A ticket settled twice, its id reserved anew after its time, and settled a third time. -/
def settledThrice : List GuardCall :=
  [.reserve 0 [⟨"a", 300⟩, ⟨"b", 900⟩], .commit 0, .burn 0, .reserve 400 [⟨"a", 300⟩], .commit 0]

theorem guard_run_settledThrice :
    Clocked 0 settledThrice ∧
      (trace GuardRun.step { guard := { capacity := 2 } } settledThrice).countP settlesAgain = 2 ∧
      (exec GuardRun.step { guard := { capacity := 2 } }
        settledThrice).guard.counters.stateViolations = 2 := by
  have hclock : Clocked 0 settledThrice := by
    simp [settledThrice, Clocked, GuardCall.now?]
  have hrun := (guard_run 2 hclock).2.2.1
  have hcount : (trace GuardRun.step { guard := { capacity := 2 } }
      settledThrice).countP settlesAgain = 2 := by decide +kernel
  exact ⟨hclock, hcount, hrun.trans hcount⟩

end ReplayGuard

end Limitmark.Hop
