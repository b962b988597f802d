import Limitmark.Hop.ReplayGuard

/-!
# What the counters of the replay guard count

One lemma for each operation: a purge, a reservation (`reserve_cases`), the first settlement of a
ticket whose ids are reserved (`transition_owned`) and a second one (`violation_spec`) keep what the
counters count (`Counted`). No settlement, of a ticket old or new, forgets an id or makes one
reserved (`settles_settle`).
-/

namespace Limitmark.Hop

open Limitmark.Defense Limitmark.Foundations

namespace ReplayGuard

def isReserved (entry : ReplayEntry) : Bool := entry.state = .reserved

/-- What the counters of a guard count. -/
structure Counted (g : ReplayGuard) : Prop where
  openCount : g.counters.openCount = g.entries.tally isReserved
  reserved : g.counters.reserved =
    g.counters.openCount + g.counters.committed + g.counters.burned
  size : g.entries.size + g.counters.purged = g.counters.reserved
  room : g.entries.size ≤ g.capacity

variable {g : ReplayGuard} {key : String} {entry : ReplayEntry} {now : ℚ}

theorem kept_of_isReserved (h : isReserved entry = true) : kept now entry = true := by
  rw [isReserved, decide_eq_true_eq] at h
  rw [kept, h]
  simp

theorem lookup_purge : (g.purge now).entries.lookup key = (g.entries.lookup key).filter (kept now) :=
  Table.lookup_keep _ _ _

theorem Counted.purge (h : Counted g) (now : ℚ) : Counted (g.purge now) := by
  have hreserved : Table.tally isReserved (Table.keep (kept now) g.entries) =
      Table.tally isReserved g.entries := by
    rw [Table.tally_keep]
    congr 1
    funext entry
    by_cases hentry : isReserved entry = true
    · rw [hentry, kept_of_isReserved hentry]
      rfl
    · rw [Bool.not_eq_true] at hentry
      rw [hentry]
      rfl
  have hsize : (Table.keep (kept now) g.entries).size ≤ g.entries.size := by
    rw [Table.size_keep]
    exact Table.tally_le_size _ _
  refine ⟨?_, h.reserved, ?_, hsize.trans h.room⟩
  · rw [ReplayGuard.purge]
    dsimp only
    rw [hreserved]
    exact h.openCount
  · have := h.size
    rw [ReplayGuard.purge]
    dsimp only
    omega

/-- A row that changes its state stays a row. -/
theorem size_insert_of_lookup {old new : ReplayEntry} (h : g.entries.lookup key = some old) :
    Table.size (g.entries.insert key new) = g.entries.size := by
  rw [Table.size_eq_tally, Table.size_eq_tally]
  exact Table.tally_insert_of_lookup_eq_some _ h rfl

/-- The transition of a reserved id. -/
theorem transitionKey_of_reserved (next : ReplayEntryState)
    (h : g.entries.lookup key = some entry) (hentry : isReserved entry = true) :
    g.transitionKey next key = { g with
      entries := g.entries.insert key { entry with state := next }
      counters :=
        if next = .committed then { g.counters with
          openCount := g.counters.openCount - 1, committed := g.counters.committed + 1 }
        else { g.counters with
          openCount := g.counters.openCount - 1, burned := g.counters.burned + 1 } } := by
  rw [isReserved, decide_eq_true_eq] at hentry
  simp only [transitionKey, h, if_pos hentry]

theorem Counted.transitionKey (h : Counted g) {next : ReplayEntryState} (hnext : next ≠ .reserved)
    (hkey : g.entries.lookup key = some entry) (hentry : isReserved entry = true) :
    Counted (g.transitionKey next key) := by
  have hsize : Table.size (g.entries.insert key { entry with state := next }) = g.entries.size :=
    size_insert_of_lookup hkey
  have htally : Table.tally isReserved (g.entries.insert key { entry with state := next }) + 1 =
      Table.tally isReserved g.entries := by
    have herase := Table.tally_erase isReserved key g.entries
    rw [hkey, Option.filter_some, if_pos hentry] at herase
    have hnew : isReserved { entry with state := next } = false := by
      simp [isReserved, hnext]
    rw [Table.tally_insert, hnew]
    simpa using herase
  obtain ⟨hopen, hreserved, hpurged, hroom⟩ := h
  rw [transitionKey_of_reserved next hkey hentry]
  constructor
  · dsimp only
    split_ifs <;> dsimp only <;> omega
  · dsimp only
    split_ifs <;> dsimp only <;> omega
  · dsimp only
    rw [hsize]
    split_ifs <;> exact hpurged
  · exact hsize.le.trans hroom

theorem Counted.violationKey (h : Counted g) (key : String) : Counted (g.violationKey key) := by
  unfold ReplayGuard.violationKey
  split
  · exact h
  · next entry hkey =>
    split_ifs with hstate
    · have hsize : Table.size (g.entries.insert key { entry with state := .burned }) =
          g.entries.size := size_insert_of_lookup hkey
      have htally : Table.tally isReserved (g.entries.insert key { entry with state := .burned }) =
          Table.tally isReserved g.entries :=
        Table.tally_insert_of_lookup_eq_some _ hkey (by simp [isReserved, hstate])
      obtain ⟨hopen, hreserved, hpurged, hroom⟩ := h
      refine ⟨?_, ?_, ?_, hsize.le.trans hroom⟩
      · dsimp only
        rw [htally]
        exact hopen
      · dsimp only
        omega
      · dsimp only
        rw [hsize]
        exact hpurged
    · exact h

/-- New rows under new keys are counted on top of the others. -/
theorem tally_foldl_insertReserved (now : ℚ) (p : ReplayEntry → Bool)
    (hp : ∀ limit, p ⟨.reserved, limit⟩ = true) (requests : List ReserveRequest)
    (entries : Table String ReplayEntry) (hnodup : (requests.map ReserveRequest.key).Nodup)
    (hfree : ∀ request ∈ requests, entries.lookup request.key = none) :
    Table.tally p (requests.foldl (insertReserved now) entries) =
      Table.tally p entries + requests.length := by
  induction requests generalizing entries with
  | nil => rfl
  | cons request requests ih =>
    rw [List.map_cons, List.nodup_cons] at hnodup
    rw [List.forall_mem_cons] at hfree
    have hfree' : ∀ r ∈ requests, (insertReserved now entries request).lookup r.key = none := by
      intro r hr
      have hne : r.key ≠ request.key := fun heq =>
        hnodup.1 (heq ▸ List.mem_map_of_mem hr)
      rw [insertReserved, Table.lookup_insert_eq, if_neg hne]
      exact hfree.2 r hr
    rw [List.foldl_cons, ih _ hnodup.2 hfree', insertReserved,
      Table.tally_insert_of_lookup_eq_none _ hfree.1, hp, List.length_cons]
    simp only [if_true]
    omega

/-! ## What a reservation does -/

/-- The guard a reservation looks its keys up in. -/
def due (now : ℚ) (n : ℕ) (g : ReplayGuard) : ReplayGuard :=
  if g.purgeDue now n then g.purge now else g

theorem Counted.due (h : Counted g) (now : ℚ) (n : ℕ) : Counted (g.due now n) := by
  unfold ReplayGuard.due
  split_ifs
  · exact h.purge now
  · exact h

/-- What a purge keeps of an entry that is still to be retained, or is reserved. -/
theorem lookup_due_of_kept {n : ℕ} (hkey : g.entries.lookup key = some entry)
    (hkept : kept now entry = true) : (g.due now n).entries.lookup key = some entry := by
  unfold due
  split_ifs
  · rw [lookup_purge, hkey, Option.filter_some, if_pos hkept]
  · exact hkey

/-- A purge adds nothing and changes nothing it leaves. -/
theorem lookup_of_lookup_due {n : ℕ} (hkey : (g.due now n).entries.lookup key = some entry) :
    g.entries.lookup key = some entry := by
  unfold due at hkey
  split_ifs at hkey
  · rw [lookup_purge, Option.filter_eq_some_iff] at hkey
    exact hkey.1
  · exact hkey

theorem due_stateViolations (now : ℚ) (n : ℕ) (g : ReplayGuard) :
    (g.due now n).counters.stateViolations = g.counters.stateViolations := by
  unfold due
  split_ifs <;> rfl

theorem due_capacity (now : ℚ) (n : ℕ) (g : ReplayGuard) :
    (g.due now n).capacity = g.capacity := by
  unfold due
  split_ifs <;> rfl

theorem refuse_eq (refusal : ReserveRefusal) (g : ReplayGuard) :
    (g.refuse refusal).2 = .error refusal ∧ (g.refuse refusal).1.entries = g.entries ∧
      (g.refuse refusal).1.counters.stateViolations = g.counters.stateViolations ∧
      (Counted g → Counted (g.refuse refusal).1) := by
  refine ⟨rfl, rfl, by cases refusal <;> rfl, ?_⟩
  rintro ⟨hopen, hreserved, hsize, hroom⟩
  cases refusal <;> exact ⟨hopen, hreserved, hsize, hroom⟩

/-- **A reservation**, either way: it is refused and leaves what the purge leaves, or it adds the
rows of its keys, none of which was there. -/
theorem reserve_cases (now : ℚ) (requests : List ReserveRequest) (g : ReplayGuard) :
    (∃ refusal, g.reserve now requests = (g.due now requests.length).refuse refusal) ∨
      ((g.reserve now requests).2 = .ok { keys := requests.map ReserveRequest.key } ∧
        (requests.map ReserveRequest.key).Nodup ∧
        (∀ request ∈ requests, (g.due now requests.length).entries.lookup request.key = none) ∧
        (g.reserve now requests).1.entries =
          requests.foldl (insertReserved now) (g.due now requests.length).entries ∧
        (g.reserve now requests).1.counters.stateViolations = g.counters.stateViolations ∧
        (Counted g → Counted (g.reserve now requests).1)) := by
  have hcounted := fun h : Counted g => h.due now requests.length
  have hviolations := due_stateViolations now requests.length g
  rw [reserve]
  change (∃ refusal, (let g' := g.due now requests.length; _) = _) ∨ _
  unfold due at hcounted hviolations ⊢
  generalize (if g.purgeDue now requests.length then g.purge now else g) = g'
    at hcounted hviolations ⊢
  dsimp only
  split_ifs with hany hnodup hfull
  · exact Or.inl ⟨_, rfl⟩
  · exact Or.inl ⟨_, rfl⟩
  · have hfree : ∀ request ∈ requests, g'.entries.lookup request.key = none := by
      intro request hmem
      rw [← Option.not_isSome_iff_eq_none]
      exact fun hsome => hany (List.any_eq_true.2 ⟨request, hmem, hsome⟩)
    refine Or.inr ⟨rfl, hnodup, hfree, rfl, hviolations, fun h => ?_⟩
    obtain ⟨hopen, hreserved, hpurged, -⟩ := hcounted h
    have htally := tally_foldl_insertReserved now isReserved (fun _ => rfl) requests
      g'.entries hnodup hfree
    have hsize : (requests.foldl (insertReserved now) g'.entries).size =
        g'.entries.size + requests.length := by
      rw [Table.size_eq_tally, Table.size_eq_tally]
      exact tally_foldl_insertReserved _ _ (fun _ => rfl) requests _ hnodup hfree
    refine ⟨?_, ?_, ?_, ?_⟩
    · dsimp only
      omega
    · dsimp only
      omega
    · dsimp only
      omega
    · dsimp only
      omega
  · exact Or.inl ⟨_, rfl⟩

/-! ## What a settlement does -/

theorem lookup_transitionKey_of_ne {key' : String} (next : ReplayEntryState) (hne : key' ≠ key) :
    (g.transitionKey next key).entries.lookup key' = g.entries.lookup key' := by
  unfold transitionKey
  split
  · rfl
  · split_ifs
    · exact AList.lookup_insert_ne hne
    · exact AList.lookup_insert_ne hne
    · rfl

/-- A transition leaves the other keys alone. -/
theorem lookup_transition_of_not_mem {keys : List String} (next : ReplayEntryState)
    (hkey : key ∉ keys) : (g.transition keys next).entries.lookup key = g.entries.lookup key := by
  induction keys generalizing g with
  | nil => rfl
  | cons k keys ih =>
    rw [List.mem_cons, not_or] at hkey
    exact (ih hkey.2).trans (lookup_transitionKey_of_ne next hkey.1)

/-- The id is in the set and reserved. -/
def Reserves (g : ReplayGuard) (key : String) : Prop :=
  ∃ entry, g.entries.lookup key = some entry ∧ isReserved entry = true

/-- The first settlement of a ticket whose keys are reserved counts no violation. -/
theorem transition_owned {keys : List String} {next : ReplayEntryState} (hnext : next ≠ .reserved)
    (hnodup : keys.Nodup) (howned : ∀ key ∈ keys, g.Reserves key) (h : Counted g) :
    Counted (g.transition keys next) ∧
      (g.transition keys next).counters.stateViolations = g.counters.stateViolations := by
  induction keys generalizing g with
  | nil => exact ⟨h, rfl⟩
  | cons key keys ih =>
    rw [List.nodup_cons] at hnodup
    rw [List.forall_mem_cons] at howned
    obtain ⟨⟨entry, hkey, hentry⟩, howned⟩ := howned
    have hrest : ∀ k ∈ keys, (g.transitionKey next key).Reserves k := by
      intro k hk
      have hne : k ≠ key := fun heq => hnodup.1 (heq ▸ hk)
      obtain ⟨e, he, hreserved⟩ := howned k hk
      exact ⟨e, (lookup_transitionKey_of_ne next hne).trans he, hreserved⟩
    obtain ⟨hcounted, hviolations⟩ := ih hnodup.2 hrest (h.transitionKey hnext hkey hentry)
    refine ⟨hcounted, hviolations.trans ?_⟩
    rw [transitionKey_of_reserved next hkey hentry]
    dsimp only
    split_ifs <;> rfl

/-- What no settlement does: forget an id, or make one reserved. -/
def Settles (g g' : ReplayGuard) : Prop :=
  (∀ key, (g.entries.lookup key).isSome → (g'.entries.lookup key).isSome) ∧
    ∀ key entry, g'.entries.lookup key = some entry → isReserved entry = true →
      g.entries.lookup key = some entry

theorem Settles.refl (g : ReplayGuard) : Settles g g := ⟨fun _ => id, fun _ _ h _ => h⟩

theorem Settles.trans {g' g'' : ReplayGuard} (h : Settles g g') (h' : Settles g' g'') :
    Settles g g'' :=
  ⟨fun key hkey => h'.1 key (h.1 key hkey),
    fun key entry hkey hentry => h.2 key entry (h'.2 key entry hkey hentry) hentry⟩

/-- An entry that is overwritten by one that is not reserved. -/
theorem settles_insert {g' : ReplayGuard} {new : ReplayEntry} (hnew : isReserved new = false)
    (hentries : g'.entries = g.entries.insert key new) : Settles g g' := by
  rw [Settles, hentries]
  constructor
  · intro k hk
    rw [Table.lookup_insert_eq]
    split_ifs
    · rfl
    · exact hk
  · intro k e hk he
    rw [Table.lookup_insert_eq] at hk
    split_ifs at hk
    · obtain rfl := Option.some.inj hk
      rw [hnew] at he
      cases he
    · exact hk

theorem settles_transitionKey {next : ReplayEntryState} (hnext : next ≠ .reserved) (g : ReplayGuard)
    (key : String) : Settles g (g.transitionKey next key) := by
  unfold transitionKey
  split
  · exact Settles.refl g
  · split_ifs
    · exact settles_insert (by simp [isReserved, hnext]) rfl
    · exact settles_insert (by simp [isReserved, hnext]) rfl
    · exact Settles.refl g

theorem settles_violationKey (g : ReplayGuard) (key : String) : Settles g (g.violationKey key) := by
  unfold violationKey
  split
  · exact Settles.refl g
  · split_ifs
    · exact settles_insert rfl rfl
    · exact Settles.refl g

/-- **A settlement**, of a ticket old or new, forgets no id and makes none reserved. -/
theorem settles_settle {next : ReplayEntryState} (hnext : next ≠ .reserved) (ticket : ReplayTicket)
    (g : ReplayGuard) : Settles g (g.settle next ticket).1 := by
  unfold settle
  split_ifs
  · exact List.foldlRecOn (motive := fun g' : ReplayGuard => Settles g g') ticket.keys _
      (Settles.refl g) fun _ hg key _ => hg.trans (settles_violationKey _ key)
  · exact List.foldlRecOn (motive := fun g' : ReplayGuard => Settles g g') ticket.keys _
      (Settles.refl g) fun _ hg key _ => hg.trans (settles_transitionKey hnext _ key)

theorem reserves_violationKey (h : g.Reserves key) (k : String) :
    (g.violationKey k).Reserves key := by
  obtain ⟨entry, hkey, hentry⟩ := h
  refine ⟨entry, ?_, hentry⟩
  unfold violationKey
  split
  · exact hkey
  · next old hold =>
    split_ifs with hstate
    · refine (AList.lookup_insert_ne ?_).trans hkey
      rintro rfl
      rw [hkey] at hold
      obtain rfl := Option.some.inj hold
      rw [isReserved, hstate] at hentry
      cases hentry
    · exact hkey

/-- A second settlement counts one violation, and no reserved id is touched. -/
theorem violation_spec (keys : List String) (h : Counted g) :
    Counted (g.violation keys) ∧
      (g.violation keys).counters.stateViolations = g.counters.stateViolations + 1 ∧
      ∀ key, g.Reserves key → (g.violation keys).Reserves key := by
  unfold violation
  refine List.foldlRecOn (motive := fun g' : ReplayGuard => Counted g' ∧
    g'.counters.stateViolations = g.counters.stateViolations + 1 ∧
    ∀ key, g.Reserves key → g'.Reserves key) keys _ ?_ ?_
  · obtain ⟨hopen, hreserved, hsize, hroom⟩ := h
    exact ⟨⟨hopen, hreserved, hsize, hroom⟩, rfl, fun _ h => h⟩
  · rintro g' ⟨hcounted, hviolations, hreserves⟩ key -
    refine ⟨hcounted.violationKey key, ?_, fun k hk => reserves_violationKey (hreserves k hk) key⟩
    rw [← hviolations]
    unfold violationKey
    split
    · rfl
    · split_ifs <;> rfl

end ReplayGuard

end Limitmark.Hop
