import Limitmark.Foundations.Table
import Limitmark.Defense.Vocabulary

/-!
# The use ledger

`UseLedger` of `defense/core/lanes.ts`: how many credited uses each token has committed, kept for
the whole life of its filter generation. A record lives for two epochs, the one of its first use
and the next; past that it is treated as absent whether or not it has been purged yet.

What the ledger answers at an epoch is therefore `live`: the record of a key, if its window is
still open. `lookup_commit` says what a commit does to every key in terms of it, and the purges
leave it alone (`live_purge`).
-/

namespace Limitmark.Lanes

open Limitmark.Defense Limitmark.Foundations

structure LedgerEntry where
  committed : ℕ
  firstEpoch : ℕ
  deriving DecidableEq, Repr

/-- The window of a record is over two epochs after its first use. -/
def LedgerEntry.expired (epoch : ℕ) (entry : LedgerEntry) : Bool := entry.firstEpoch + 2 ≤ epoch

/-- The parameters the constructor accepts. -/
structure LedgerParams where
  capacity : ℕ
  maxUses : ℕ
  one_le_capacity : 1 ≤ capacity
  one_le_maxUses : 1 ≤ maxUses
  deriving Repr

instance : DecidableEq LedgerParams := fun p q =>
  decidable_of_iff (p.capacity = q.capacity ∧ p.maxUses = q.maxUses) <| by
    cases p
    cases q
    simp

/-- The checks of the constructor. -/
def LedgerParams.make (capacity maxUses : ℚ) : Except String LedgerParams :=
  match hc : positiveInteger? capacity with
  | none => .error "ledger capacity must be a positive integer"
  | some c =>
    match hm : positiveInteger? maxUses with
    | none => .error "maxUses must be a positive integer"
    | some m => .ok ⟨c, m, one_le_of_positiveInteger? hc, one_le_of_positiveInteger? hm⟩

theorem LedgerParams.make_eq_ok {capacity maxUses : ℚ} {p : LedgerParams}
    (h : make capacity maxUses = .ok p) : capacity = p.capacity ∧ maxUses = p.maxUses := by
  unfold make at h
  split at h
  · cases h
  · next c hc =>
    split at h
    · cases h
    · next m hm =>
      cases h
      exact ⟨(positiveInteger?_eq_some hc).1, (positiveInteger?_eq_some hm).1⟩

structure UseLedger where
  params : LedgerParams
  entries : Table String LedgerEntry := ∅
  lastPurgeEpoch : ℕ := 0
  highWater : ℕ := 0
  allocated : ℕ := 0
  purgedCount : ℕ := 0
  fullRefusals : ℕ := 0
  violations : ℕ := 0

structure LedgerSnapshot where
  size : ℕ
  capacity : ℕ
  highWater : ℕ
  committedLive : ℕ
  allocated : ℕ
  purged : ℕ
  fullRefusals : ℕ
  stateViolations : ℕ
  deriving DecidableEq, Repr

namespace UseLedger

/-- Uses already committed for the token, or `none` when there is no live record. -/
def committed (l : UseLedger) (key : String) (epoch : ℕ) : Option ℕ :=
  match l.entries.lookup key with
  | none => none
  | some entry => if epoch ≥ entry.firstEpoch + 2 then none else some entry.committed

/-- Removes only the records whose epoch window ended. -/
def purge (l : UseLedger) (epoch : ℕ) : UseLedger :=
  { l with
    lastPurgeEpoch := epoch
    entries := l.entries.keep fun entry => !entry.expired epoch
    purgedCount := l.purgedCount + l.entries.tally fun entry => entry.expired epoch }

def maybePurge (l : UseLedger) (epoch : ℕ) : UseLedger :=
  if epoch ≠ l.lastPurgeEpoch then l.purge epoch else l

/-- Whether a new record can be allocated; a full ledger is purged first. -/
def canAllocate (l : UseLedger) (epoch : ℕ) : UseLedger × Bool :=
  if l.entries.size < l.params.capacity then (l, true)
  else
    let l := l.purge epoch
    if l.entries.size < l.params.capacity then (l, true)
    else ({ l with fullRefusals := l.fullRefusals + 1 }, false)

/-- Room for the next use of a token: only a token without a live record needs a new one. -/
def roomFor (l : UseLedger) (used : Option ℕ) (epoch : ℕ) : UseLedger × Bool :=
  if used.isNone then l.canAllocate epoch else (l, true)

/-- A first use, in place of whatever aged-out record the key had. -/
def allocate (l : UseLedger) (key : String) (epoch : ℕ) : UseLedger :=
  let l := match l.entries.lookup key with
    | some _ => { l with entries := l.entries.erase key, purgedCount := l.purgedCount + 1 }
    | none => l
  let l := { l with
    entries := l.entries.insert key ⟨1, epoch⟩
    allocated := l.allocated + 1 }
  if l.entries.size > l.highWater then { l with highWater := l.entries.size } else l

/-- Consumes one use. There is no inverse. -/
def commit (l : UseLedger) (key : String) (epoch : ℕ) : UseLedger :=
  match l.entries.lookup key with
  | some entry =>
    if epoch < entry.firstEpoch + 2 then
      if entry.committed ≥ l.params.maxUses then { l with violations := l.violations + 1 }
      else { l with
        entries := l.entries.insert key { entry with committed := entry.committed + 1 } }
    else l.allocate key epoch
  | none => l.allocate key epoch

def snapshot (l : UseLedger) : LedgerSnapshot where
  size := l.entries.size
  capacity := l.params.capacity
  highWater := l.highWater
  committedLive := (l.entries.values.map LedgerEntry.committed).sum
  allocated := l.allocated
  purged := l.purgedCount
  fullRefusals := l.fullRefusals
  stateViolations := l.violations

/-! ## The live records -/

/-- The record of a key, if its window is open at the epoch. -/
def live (l : UseLedger) (epoch : ℕ) (key : String) : Option LedgerEntry :=
  (l.entries.lookup key).filter fun entry => !entry.expired epoch

variable {l : UseLedger} {epoch e : ℕ} {key k : String}

theorem live_eq_some {entry : LedgerEntry} :
    l.live epoch key = some entry ↔
      l.entries.lookup key = some entry ∧ epoch < entry.firstEpoch + 2 := by
  simp [live, Option.filter_eq_some_iff, LedgerEntry.expired]

/-- A record whose window is over is not live. -/
theorem live_eq_none {entry : LedgerEntry} (h : l.entries.lookup key = some entry)
    (hw : entry.firstEpoch + 2 ≤ epoch) : l.live epoch key = none := by
  rw [Option.eq_none_iff_forall_ne_some]
  intro other hother
  rw [live_eq_some, h] at hother
  obtain ⟨heq, hlt⟩ := hother
  cases heq
  omega

/-- The ledger answers from the live records alone. -/
theorem committed_eq : l.committed key epoch = (l.live epoch key).map LedgerEntry.committed := by
  unfold committed live
  cases h : l.entries.lookup key with
  | none => rfl
  | some entry =>
    by_cases hw : entry.firstEpoch + 2 ≤ epoch <;> simp [LedgerEntry.expired, hw, Option.filter]

/-- A record that is live later is live now. -/
theorem live_of_le {entry : LedgerEntry} (he : epoch ≤ e) (h : l.live e key = some entry) :
    l.live epoch key = some entry := by
  rw [live_eq_some] at h ⊢
  exact ⟨h.1, by omega⟩

/-! ## Purging -/

theorem lookup_purge :
    (l.purge epoch).entries.lookup key = l.live epoch key :=
  Table.lookup_keep _ _ _

/-- A purge takes away no record whose window is open. -/
theorem live_purge (he : epoch ≤ e) : (l.purge epoch).live e key = l.live e key := by
  apply Option.ext
  intro entry
  rw [live_eq_some, live_eq_some, lookup_purge, live_eq_some]
  constructor
  · exact fun h => ⟨h.1.1, h.2⟩
  · exact fun h => ⟨⟨h.1, by omega⟩, h.2⟩

theorem live_maybePurge (he : epoch ≤ e) : (l.maybePurge epoch).live e key = l.live e key := by
  unfold maybePurge
  split
  · exact live_purge he
  · rfl

@[simp] theorem params_purge : (l.purge epoch).params = l.params := rfl

@[simp] theorem params_maybePurge : (l.maybePurge epoch).params = l.params := by
  unfold maybePurge; split <;> rfl

@[simp] theorem fullRefusals_maybePurge :
    (l.maybePurge epoch).fullRefusals = l.fullRefusals := by
  unfold maybePurge; split <;> rfl

theorem lastPurgeEpoch_maybePurge : (l.maybePurge epoch).lastPurgeEpoch = epoch := by
  unfold maybePurge
  split
  · rfl
  · next h => exact (not_not.1 h).symm

theorem tally_maybePurge_le (p : LedgerEntry → Bool) :
    (l.maybePurge epoch).entries.tally p ≤ l.entries.tally p := by
  unfold maybePurge
  split
  · exact Table.tally_keep_le _ _ _
  · exact le_rfl

/-! ## Allocating -/

@[simp] theorem params_canAllocate : (l.canAllocate epoch).1.params = l.params := by
  unfold canAllocate
  split
  · rfl
  · dsimp only; split <;> rfl

theorem live_canAllocate (he : epoch ≤ e) :
    (l.canAllocate epoch).1.live e key = l.live e key := by
  unfold canAllocate
  split
  · rfl
  · dsimp only
    split
    · exact live_purge he
    · exact live_purge he

theorem canAllocate_of_lt (h : l.entries.size < l.params.capacity) :
    l.canAllocate epoch = (l, true) := if_pos h

/-- Whether there is room for a new record depends on the number of live records alone. -/
theorem canAllocate_snd : (l.canAllocate epoch).2 =
    decide (l.entries.tally (fun entry => !entry.expired epoch) < l.params.capacity) := by
  have hle := Table.tally_le_size (fun entry => !entry.expired epoch) l.entries
  unfold canAllocate
  split
  · next h => exact (decide_eq_true (hle.trans_lt h)).symm
  · simp only [purge, Table.size_keep]
    split
    · next h => exact (decide_eq_true h).symm
    · next h => exact (decide_eq_false h).symm

theorem live_roomFor (used : Option ℕ) (he : epoch ≤ e) :
    (l.roomFor used epoch).1.live e key = l.live e key := by
  unfold roomFor
  split
  · exact live_canAllocate he
  · rfl

@[simp] theorem params_roomFor (used : Option ℕ) :
    (l.roomFor used epoch).1.params = l.params := by
  unfold roomFor
  split
  · exact params_canAllocate
  · rfl

/-- With a slot free there is room, and nothing is purged. -/
theorem roomFor_of_lt (used : Option ℕ) (h : l.entries.size < l.params.capacity) :
    l.roomFor used epoch = (l, true) := by
  unfold roomFor
  split
  · exact canAllocate_of_lt h
  · rfl

/-! ## Committing -/

/-- The record a commit leaves, given the live record it found. -/
def bump (maxUses epoch : ℕ) : Option LedgerEntry → LedgerEntry
  | none => ⟨1, epoch⟩
  | some entry =>
    if entry.committed ≥ maxUses then entry
    else { entry with committed := entry.committed + 1 }

variable (l epoch key) in
/-- The record a commit leaves is live at the epoch of the commit. -/
theorem bump_live (maxUses : ℕ) :
    (some (bump maxUses epoch (l.live epoch key))).filter (fun r => !r.expired epoch) =
      some (bump maxUses epoch (l.live epoch key)) := by
  rw [Option.filter_eq_some_iff]
  refine ⟨rfl, ?_⟩
  cases h : l.live epoch key with
  | none => simp [bump, LedgerEntry.expired]
  | some r =>
    have hw := (live_eq_some.1 h).2
    rw [bump]
    split <;> simpa [LedgerEntry.expired] using hw

@[simp] theorem params_allocate : (l.allocate key epoch).params = l.params := by
  unfold allocate
  cases l.entries.lookup key <;> dsimp only <;> split <;> rfl

@[simp] theorem params_commit : (l.commit key epoch).params = l.params := by
  unfold commit
  split
  · split
    · split <;> rfl
    · exact params_allocate
  · exact params_allocate

variable (l key epoch) in
theorem entries_allocate :
    (l.allocate key epoch).entries = l.entries.insert key ⟨1, epoch⟩ ∨
      (l.allocate key epoch).entries = (l.entries.erase key).insert key ⟨1, epoch⟩ := by
  unfold allocate
  cases l.entries.lookup key <;> dsimp only <;> split <;> simp

theorem lookup_allocate : (l.allocate key epoch).entries.lookup k =
    if k = key then some ⟨1, epoch⟩ else l.entries.lookup k := by
  rcases entries_allocate l epoch key with h | h <;> rw [h]
  · rw [Table.lookup_insert_eq]
  · rw [Table.lookup_insert_eq, Table.lookup_erase_eq]
    split <;> rfl

/-- What a commit does to every key. -/
theorem lookup_commit : (l.commit key epoch).entries.lookup k =
    if k = key then some (bump l.params.maxUses epoch (l.live epoch key))
    else l.entries.lookup k := by
  unfold commit
  cases h : l.entries.lookup key with
  | none =>
    have hlive : l.live epoch key = none := by simp [live, h]
    dsimp only
    rw [lookup_allocate, hlive, bump]
  | some entry =>
    dsimp only
    split
    · next hw =>
      have hlive : l.live epoch key = some entry := live_eq_some.2 ⟨h, hw⟩
      rw [hlive, bump]
      split
      · split
        · next hk => rw [hk, h]
        · rfl
      · rw [Table.lookup_insert_eq]
    · next hw =>
      have hlive : l.live epoch key = none := live_eq_none h (by omega)
      rw [lookup_allocate, hlive, bump]

/-- The live records after a commit. -/
theorem live_commit : (l.commit key epoch).live e k =
    if k = key then
      (some (bump l.params.maxUses epoch (l.live epoch key))).filter fun r => !r.expired e
    else l.live e k := by
  rw [live, lookup_commit]
  split <;> rfl

variable (l key epoch) in
/-- A commit adds at most one record, in the epoch it is made in. -/
theorem tally_commit_le (w : ℕ) :
    (l.commit key epoch).entries.tally (fun entry => w ≤ entry.firstEpoch) ≤
      l.entries.tally (fun entry => w ≤ entry.firstEpoch) + if w ≤ epoch then 1 else 0 := by
  have hallocate : (l.allocate key epoch).entries.tally (fun entry => w ≤ entry.firstEpoch) ≤
      l.entries.tally (fun entry => w ≤ entry.firstEpoch) + if w ≤ epoch then 1 else 0 := by
    rcases entries_allocate l epoch key with h | h <;> rw [h]
    · simpa using Table.tally_insert_le (fun entry : LedgerEntry => w ≤ entry.firstEpoch) key
        ⟨1, epoch⟩ l.entries
    · have h1 := Table.tally_insert_le (fun entry : LedgerEntry => w ≤ entry.firstEpoch) key
        ⟨1, epoch⟩ (l.entries.erase key)
      have h2 := Table.tally_erase_le (fun entry : LedgerEntry => w ≤ entry.firstEpoch) key
        l.entries
      simp only [decide_eq_true_eq] at h1
      omega
  unfold commit
  split
  · next entry h =>
    split
    · split
      · exact Nat.le_add_right _ _
      · refine le_of_eq_of_le ?_ (Nat.le_add_right _ _)
        exact Table.tally_insert_of_lookup_eq_some _ h rfl
    · exact hallocate
  · exact hallocate

theorem size_commit_le : (l.commit key epoch).entries.size ≤ l.entries.size + 1 := by
  have h := tally_commit_le l epoch key 0
  simpa [← Table.size_eq_tally] using h

theorem fullRefusals_commit : (l.commit key epoch).fullRefusals = l.fullRefusals := by
  unfold commit allocate
  cases l.entries.lookup key with
  | none => dsimp only; split <;> rfl
  | some r =>
    dsimp only
    split
    · split <;> rfl
    · split <;> rfl

theorem lastPurgeEpoch_commit : (l.commit key epoch).lastPurgeEpoch = l.lastPurgeEpoch := by
  unfold commit allocate
  cases l.entries.lookup key with
  | none => dsimp only; split <;> rfl
  | some r =>
    dsimp only
    split
    · split <;> rfl
    · split <;> rfl

/-! ## The purge discipline -/

/-- No record is older than the last purge allowed. -/
def Purged (l : UseLedger) : Prop :=
  ∀ k r, l.entries.lookup k = some r → l.lastPurgeEpoch < r.firstEpoch + 2

theorem Purged.maybePurge (h : l.Purged) : (l.maybePurge epoch).Purged := by
  intro k r hr
  rw [lastPurgeEpoch_maybePurge]
  unfold UseLedger.maybePurge at hr
  split at hr
  · rw [lookup_purge, live_eq_some] at hr
    exact hr.2
  · next he => exact (not_not.1 he) ▸ h k r hr

theorem Purged.commit (h : l.Purged) (he : epoch = l.lastPurgeEpoch) :
    (l.commit key epoch).Purged := by
  intro k r hr
  rw [lastPurgeEpoch_commit]
  rw [lookup_commit] at hr
  split at hr
  · cases hr
    have hb := (Option.filter_eq_some_iff.1 (bump_live l epoch key
      l.params.maxUses)).2
    simp only [LedgerEntry.expired, Bool.not_eq_true', decide_eq_false_iff_not, not_le] at hb
    omega
  · exact h k r hr

/-- Right after a purge every record is at most one epoch old. -/
theorem Purged.size_eq (h : l.Purged) :
    l.entries.tally (fun r => l.lastPurgeEpoch - 1 ≤ r.firstEpoch) = l.entries.size := by
  refine Table.tally_eq_size fun k r hr => ?_
  have := h k r hr
  simp only [decide_eq_true_eq]
  omega

end UseLedger

end Limitmark.Lanes
