import Mathlib.Algebra.Order.Field.Rat
import Limitmark.Defense.Vocabulary
import Limitmark.Foundations.Table

/-!
# The replay guard

`ReplayGuard` of `defense/core/replay-guard.ts`: the ids of the verified proofs a verifier has seen.
An id is reserved before its request's body is read, and then committed or burned; both leave it in
the set until its retention is over. A reserved id is never purged.

`Holds` is what the guard still knows of an id that was reserved to be retained until some time: it
has it, or that time is over. No operation loses it, and a new reservation of the id refutes its
first half (`reserve_ok`).
-/

namespace Limitmark.Hop

open Limitmark.Defense Limitmark.Foundations

inductive ReplayEntryState
  | reserved
  | committed
  | burned
  deriving DecidableEq, Repr

structure ReserveRequest where
  key : String
  retainMs : ℕ
  deriving DecidableEq, Repr

inductive ReserveRefusal
  | replayed
  | full
  deriving DecidableEq, Repr

structure ReplayEntry where
  state : ReplayEntryState
  retainUntil : ℚ
  deriving DecidableEq, Repr

structure ReplayCounters where
  reserved : ℕ := 0
  committed : ℤ := 0
  burned : ℕ := 0
  replayRejected : ℕ := 0
  capacityRejected : ℕ := 0
  purged : ℕ := 0
  openCount : ℤ := 0
  highWater : ℕ := 0
  stateViolations : ℕ := 0
  deriving DecidableEq, Repr

/-- The guard; `lastPurge` is `none` before the first purge. -/
structure ReplayGuard where
  capacity : ℕ
  entries : Table String ReplayEntry := ∅
  lastPurge : Option ℚ := none
  counters : ReplayCounters := {}

structure ReplayTicket where
  keys : List String
  settled : Bool := false
  deriving DecidableEq, Repr

namespace ReplayGuard

/-- `new ReplayGuard(capacity, mono)`. -/
def create (capacity : ℚ) : Except String ReplayGuard :=
  match positiveInteger? capacity with
  | none => .error "replay capacity must be a positive integer"
  | some capacity => .ok { capacity }

/-- An entry survives a purge while its retention lasts or it is reserved. -/
def kept (now : ℚ) (entry : ReplayEntry) : Bool :=
  decide (now < entry.retainUntil) || entry.state = .reserved

def purge (now : ℚ) (g : ReplayGuard) : ReplayGuard :=
  let entries := Table.keep (kept now) g.entries
  { g with
    lastPurge := some now
    entries
    counters := { g.counters with purged := g.counters.purged + (g.entries.size - entries.size) } }

/-- A purge is due every 250 ms, and when the set is full. -/
def purgeDue (now : ℚ) (n : ℕ) (g : ReplayGuard) : Bool :=
  (match g.lastPurge with
    | none => true
    | some last => decide (250 ≤ now - last)) ||
    decide (g.capacity < g.entries.size + n)

/-- The entry of a new reservation. -/
def insertReserved (now : ℚ) (entries : Table String ReplayEntry) (request : ReserveRequest) :
    Table String ReplayEntry :=
  entries.insert request.key ⟨.reserved, now + request.retainMs⟩

def refuse (refusal : ReserveRefusal) (g : ReplayGuard) :
    ReplayGuard × Except ReserveRefusal ReplayTicket :=
  ({ g with counters :=
      match refusal with
      | .replayed => { g.counters with replayRejected := g.counters.replayRejected + 1 }
      | .full => { g.counters with capacityRejected := g.counters.capacityRejected + 1 } },
    .error refusal)

/-- All or nothing across the requests. -/
def reserve (now : ℚ) (requests : List ReserveRequest) (g : ReplayGuard) :
    ReplayGuard × Except ReserveRefusal ReplayTicket :=
  let g := if g.purgeDue now requests.length then g.purge now else g
  if requests.any fun request => (g.entries.lookup request.key).isSome then g.refuse .replayed
  else if ¬ (requests.map ReserveRequest.key).Nodup then g.refuse .replayed
  else if g.capacity < g.entries.size + requests.length then g.refuse .full
  else
    let entries := requests.foldl (insertReserved now) g.entries
    ({ g with
        entries
        counters := { g.counters with
          reserved := g.counters.reserved + requests.length
          openCount := g.counters.openCount + requests.length
          highWater := max g.counters.highWater entries.size } },
      .ok { keys := requests.map ReserveRequest.key })

/-- One key of a settled ticket. -/
def transitionKey (next : ReplayEntryState) (g : ReplayGuard) (key : String) : ReplayGuard :=
  match g.entries.lookup key with
  | none =>
    { g with counters := { g.counters with stateViolations := g.counters.stateViolations + 1 } }
  | some entry =>
    if entry.state = .reserved then
      { g with
        entries := g.entries.insert key { entry with state := next }
        counters :=
          if next = .committed then { g.counters with
            openCount := g.counters.openCount - 1, committed := g.counters.committed + 1 }
          else { g.counters with
            openCount := g.counters.openCount - 1, burned := g.counters.burned + 1 } }
    else
      { g with counters := { g.counters with stateViolations := g.counters.stateViolations + 1 } }

def transition (keys : List String) (next : ReplayEntryState) (g : ReplayGuard) : ReplayGuard :=
  keys.foldl (transitionKey next) g

/-- One key of a ticket that was settled twice. -/
def violationKey (g : ReplayGuard) (key : String) : ReplayGuard :=
  match g.entries.lookup key with
  | none => g
  | some entry =>
    if entry.state = .committed then
      { g with
        entries := g.entries.insert key { entry with state := .burned }
        counters := { g.counters with
          committed := g.counters.committed - 1, burned := g.counters.burned + 1 } }
    else g

/-- A second transition of a ticket burns its ids. -/
def violation (keys : List String) (g : ReplayGuard) : ReplayGuard :=
  keys.foldl violationKey
    { g with counters := { g.counters with stateViolations := g.counters.stateViolations + 1 } }

/-- A ticket is settled once. -/
def settle (next : ReplayEntryState) (ticket : ReplayTicket) (g : ReplayGuard) :
    ReplayGuard × ReplayTicket :=
  if ticket.settled then (g.violation ticket.keys, ticket)
  else (g.transition ticket.keys next, { ticket with settled := true })

/-! ## What the guard still knows of an id -/

variable {g : ReplayGuard} {clock now limit : ℚ} {key : String}

/-- The id is in the set, to be retained until `limit` at least, or `limit` is over. -/
def Holds (g : ReplayGuard) (clock : ℚ) (key : String) (limit : ℚ) : Prop :=
  (∃ entry, g.entries.lookup key = some entry ∧ limit ≤ entry.retainUntil) ∨ limit ≤ clock

theorem Holds.tick (h : g.Holds clock key limit) (hclock : clock ≤ now) : g.Holds now key limit :=
  h.imp_right fun hle => hle.trans hclock

/-- An update that keeps the retention of every id keeps what is known of them. -/
theorem Holds.of_lookup {g' : ReplayGuard} (h : g.Holds clock key limit)
    (hkeep : ∀ entry, g.entries.lookup key = some entry →
      ∃ entry', g'.entries.lookup key = some entry' ∧ entry'.retainUntil = entry.retainUntil) :
    g'.Holds clock key limit := by
  rcases h with ⟨entry, hentry, hle⟩ | hle
  · obtain ⟨entry', hentry', heq⟩ := hkeep entry hentry
    exact Or.inl ⟨entry', hentry', heq ▸ hle⟩
  · exact Or.inr hle

theorem Holds.purge (h : g.Holds clock key limit) (hclock : clock ≤ now) :
    (g.purge now).Holds now key limit := by
  rcases h.tick hclock with ⟨entry, hentry, hle⟩ | hle
  · by_cases hkept : kept now entry = true
    · refine Or.inl ⟨entry, ?_, hle⟩
      simp only [ReplayGuard.purge, Table.lookup_keep, hentry]
      simp [hkept]
    · -- an entry that was purged had its retention over
      simp only [kept, Bool.or_eq_true, decide_eq_true_eq, not_or, not_lt] at hkept
      exact Or.inr (hle.trans hkept.1)
  · exact Or.inr hle

/-- A change of state keeps the retention of every row. -/
theorem retainUntil_insert {entries : Table String ReplayEntry} {k : String} {old entry : ReplayEntry}
    (hk : entries.lookup k = some old) (state : ReplayEntryState)
    (hentry : entries.lookup key = some entry) :
    ∃ entry', (entries.insert k { old with state }).lookup key = some entry' ∧
      entry'.retainUntil = entry.retainUntil := by
  rw [Table.lookup_insert_eq]
  split_ifs with heq
  · subst heq
    rw [hk] at hentry
    obtain rfl := Option.some.inj hentry
    exact ⟨_, rfl, rfl⟩
  · exact ⟨entry, hentry, rfl⟩

theorem Holds.transitionKey (next : ReplayEntryState) (k : String)
    (h : g.Holds clock key limit) : (g.transitionKey next k).Holds clock key limit := by
  apply h.of_lookup
  intro entry hentry
  rw [ReplayGuard.transitionKey]
  cases hk : g.entries.lookup k with
  | none => exact ⟨entry, hentry, rfl⟩
  | some old =>
    dsimp only
    by_cases hstate : old.state = .reserved
    · rw [if_pos hstate]
      exact retainUntil_insert hk next hentry
    · rw [if_neg hstate]
      exact ⟨entry, hentry, rfl⟩

theorem Holds.violationKey (k : String) (h : g.Holds clock key limit) :
    (g.violationKey k).Holds clock key limit := by
  apply h.of_lookup
  intro entry hentry
  rw [ReplayGuard.violationKey]
  cases hk : g.entries.lookup k with
  | none => exact ⟨entry, hentry, rfl⟩
  | some old =>
    dsimp only
    by_cases hstate : old.state = .committed
    · rw [if_pos hstate]
      exact retainUntil_insert hk .burned hentry
    · rw [if_neg hstate]
      exact ⟨entry, hentry, rfl⟩

/-- Settling a ticket loses no id. -/
theorem Holds.settle (next : ReplayEntryState) (ticket : ReplayTicket)
    (h : g.Holds clock key limit) : (g.settle next ticket).1.Holds clock key limit := by
  rw [ReplayGuard.settle]
  split_ifs
  · exact List.foldlRecOn (motive := fun g : ReplayGuard => g.Holds clock key limit) ticket.keys _ h
      fun _ hg k _ => hg.violationKey k
  · exact List.foldlRecOn (motive := fun g : ReplayGuard => g.Holds clock key limit) ticket.keys _ h
      fun _ hg k _ => hg.transitionKey next k

/-- The rows of new reservations. -/
theorem lookup_foldl_insertReserved (now : ℚ) (requests : List ReserveRequest)
    (entries : Table String ReplayEntry) (key : String)
    (hkey : key ∉ requests.map ReserveRequest.key) :
    (requests.foldl (insertReserved now) entries).lookup key = entries.lookup key := by
  induction requests generalizing entries with
  | nil => rfl
  | cons request requests ih =>
    rw [List.map_cons, List.mem_cons, not_or] at hkey
    rw [List.foldl_cons, ih _ hkey.2, insertReserved, Table.lookup_insert_eq, if_neg hkey.1]

theorem lookup_foldl_insertReserved_of_mem (now : ℚ) {requests : List ReserveRequest}
    (entries : Table String ReplayEntry) (hnodup : (requests.map ReserveRequest.key).Nodup)
    {request : ReserveRequest} (hmem : request ∈ requests) :
    (requests.foldl (insertReserved now) entries).lookup request.key =
      some ⟨.reserved, now + request.retainMs⟩ := by
  induction requests generalizing entries with
  | nil => cases hmem
  | cons first requests ih =>
    rw [List.map_cons, List.nodup_cons] at hnodup
    rw [List.foldl_cons]
    rcases List.mem_cons.1 hmem with rfl | hmem
    · rw [lookup_foldl_insertReserved now _ _ _ hnodup.1, insertReserved, AList.lookup_insert]
    · exact ih _ hnodup.2 hmem

/-- What a guard that reserves looks like after the purge. -/
theorem Holds.purged (h : g.Holds clock key limit) (hclock : clock ≤ now) (n : ℕ) :
    (if g.purgeDue now n then g.purge now else g).Holds now key limit := by
  split_ifs
  · exact h.purge hclock
  · exact h.tick hclock

/-- A reservation loses no id, whatever it answers. -/
theorem Holds.reserve (h : g.Holds clock key limit) (hclock : clock ≤ now)
    (requests : List ReserveRequest) : (g.reserve now requests).1.Holds now key limit := by
  have hpurged := h.purged hclock requests.length
  rw [ReplayGuard.reserve]
  generalize (if g.purgeDue now requests.length then g.purge now else g) = g' at hpurged ⊢
  dsimp only
  split_ifs with hany hnodup hfull
  · exact hpurged
  · exact hpurged
  · apply hpurged.of_lookup
    intro entry hentry
    refine ⟨entry, ?_, rfl⟩
    rw [lookup_foldl_insertReserved, hentry]
    intro hmem
    obtain ⟨request, hrequest, rfl⟩ := List.mem_map.1 hmem
    exact hany (List.any_eq_true.2 ⟨request, hrequest, by simp [hentry]⟩)
  · exact hpurged

/-- **A reservation.** The ids it takes were free, so that whatever was known of them is over; from
now on they are held for their retention. -/
theorem reserve_ok {requests : List ReserveRequest} {ticket : ReplayTicket}
    (hok : (g.reserve now requests).2 = .ok ticket) {request : ReserveRequest}
    (hmem : request ∈ requests) :
    (g.reserve now requests).1.Holds now request.key (now + request.retainMs) ∧
      ∀ clock limit, clock ≤ now → g.Holds clock request.key limit → limit ≤ now := by
  have hpurged : ∀ clock limit, clock ≤ now → g.Holds clock request.key limit →
      (if g.purgeDue now requests.length then g.purge now else g).Holds now request.key limit :=
    fun clock limit hclock h => h.purged hclock _
  rw [ReplayGuard.reserve] at hok ⊢
  generalize (if g.purgeDue now requests.length then g.purge now else g) = g' at hpurged hok ⊢
  dsimp only at hok ⊢
  split_ifs at hok ⊢ with hany hnodup hfull
  · cases hok
  · cases hok
  · have hfree : g'.entries.lookup request.key = none := by
      rw [← Option.not_isSome_iff_eq_none]
      intro hsome
      exact hany (List.any_eq_true.2 ⟨request, hmem, hsome⟩)
    refine ⟨Or.inl ⟨_, lookup_foldl_insertReserved_of_mem now _ hnodup hmem, le_rfl⟩, ?_⟩
    intro clock limit hclock h
    rcases hpurged clock limit hclock h with ⟨entry, hentry, -⟩ | hle
    · rw [hfree] at hentry
      cases hentry
    · exact hle
  · cases hok

/-! ## Capacity -/

theorem transition_capacity (keys : List String) (next : ReplayEntryState) (g : ReplayGuard) :
    (g.transition keys next).capacity = g.capacity := by
  refine List.foldlRecOn (motive := fun g' : ReplayGuard => g'.capacity = g.capacity) keys _ rfl ?_
  intro g' hg key _
  rw [transitionKey]
  split
  · exact hg
  · split_ifs <;> exact hg

theorem violation_capacity (keys : List String) (g : ReplayGuard) :
    (g.violation keys).capacity = g.capacity := by
  refine List.foldlRecOn (motive := fun g' : ReplayGuard => g'.capacity = g.capacity) keys _ rfl ?_
  intro g' hg key _
  rw [violationKey]
  split
  · exact hg
  · split_ifs <;> exact hg

theorem settle_capacity (next : ReplayEntryState) (ticket : ReplayTicket) (g : ReplayGuard) :
    (g.settle next ticket).1.capacity = g.capacity := by
  rw [settle]
  split_ifs
  · exact violation_capacity _ _
  · exact transition_capacity _ _ _

/-- No reservation changes the capacity, and one that is made fits in it. -/
theorem reserve_capacity (now : ℚ) (requests : List ReserveRequest) (g : ReplayGuard) :
    (g.reserve now requests).1.capacity = g.capacity ∧
      ∀ ticket, (g.reserve now requests).2 = .ok ticket → requests.length ≤ g.capacity := by
  have hpurged : (if g.purgeDue now requests.length then g.purge now else g).capacity =
      g.capacity := by split_ifs <;> rfl
  rw [reserve]
  generalize (if g.purgeDue now requests.length then g.purge now else g) = g' at hpurged ⊢
  dsimp only
  split_ifs with hany hnodup hfull
  · exact ⟨hpurged, fun ticket h => by cases h⟩
  · exact ⟨hpurged, fun ticket h => by cases h⟩
  · refine ⟨hpurged, fun ticket _ => ?_⟩
    rw [← hpurged]
    omega
  · exact ⟨hpurged, fun ticket h => by cases h⟩

/-- A new guard reserves what fits in it. -/
theorem reserve_new {capacity : ℕ} (now : ℚ) {requests : List ReserveRequest}
    (hnodup : (requests.map ReserveRequest.key).Nodup) (hroom : requests.length ≤ capacity) :
    (reserve now requests { capacity }).2 = .ok { keys := requests.map ReserveRequest.key } := by
  have hpurge : (purge now { capacity }).entries = ∅ := rfl
  have hnew (g : ReplayGuard) (hentries : g.entries = ∅) (hcapacity : g.capacity = capacity) :
      ¬ (requests.any fun request => (g.entries.lookup request.key).isSome) = true ∧
        ¬ g.capacity < g.entries.size + requests.length := by
    rw [hentries, hcapacity, Table.size_empty]
    refine ⟨?_, by omega⟩
    simp
  rw [reserve]
  dsimp only
  split_ifs with hdue hany hfull hany hfull
  · exact absurd hany (hnew _ hpurge rfl).1
  · exact absurd hfull (hnew _ hpurge rfl).2
  · rfl
  · exact absurd hany (hnew _ rfl rfl).1
  · exact absurd hfull (hnew _ rfl rfl).2
  · rfl

end ReplayGuard

end Limitmark.Hop
