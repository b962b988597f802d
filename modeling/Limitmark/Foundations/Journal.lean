import Mathlib.Data.List.Basic

/-!
# Stores with delayed durability

A store whose writes are seen at once and become durable later, in the order in which they were made.
A `sync` that was called at a position is acknowledged once every write up to there is durable; a
crash keeps the durable writes, and possibly some of the next ones, and loses the others.

What is asked of a store is asked of its versions: of all those that a crash may leave
(`From 0`), or of those from a position on (`From`). A write keeps it if the current version hands it
on (`From.write`), an acknowledgement makes it hold of every version (`From.acknowledge`).
-/

namespace Limitmark.Foundations

/-- A store: its durable version, the versions of the later writes, oldest first, and the number of
the durable writes. -/
structure Journal (σ : Type*) where
  durable : σ
  pending : List σ := []
  flushed : ℕ := 0

namespace Journal

variable {σ : Type*}

/-- The version that is read. -/
def current (j : Journal σ) : σ := j.pending.getLast?.getD j.durable

/-- The number of writes made. -/
def position (j : Journal σ) : ℕ := j.flushed + j.pending.length

def write (s : σ) (j : Journal σ) : Journal σ := { j with pending := j.pending ++ [s] }

/-- The next `n` writes become durable. -/
def flush : ℕ → Journal σ → Journal σ
  | 0, j => j
  | n + 1, j =>
    match j.pending with
    | [] => j
    | s :: rest => flush n ⟨s, rest, j.flushed + 1⟩

/-- A sync that was called at a position is acknowledged. -/
def acknowledge (position : ℕ) (j : Journal σ) : Journal σ := j.flush (position - j.flushed)

/-- A crash at which the next `kept` writes had become durable. -/
def crash (kept : ℕ) (j : Journal σ) : Journal σ := { j.flush kept with pending := [] }

/-- Every version from a position on has the property. -/
def From (p : ℕ) (P : σ → Prop) (j : Journal σ) : Prop :=
  (p ≤ j.flushed → P j.durable) ∧ ∀ i s, j.pending[i]? = some s → p ≤ j.flushed + i + 1 → P s

variable {j : Journal σ} {P Q : σ → Prop} {p q n : ℕ} {s : σ}

@[simp] theorem current_write : (j.write s).current = s := by
  rw [current, write, List.getLast?_append]
  rfl

@[simp] theorem durable_write : (j.write s).durable = j.durable := rfl

@[simp] theorem position_write : (j.write s).position = j.position + 1 := by
  simp [position, write]
  omega

@[simp] theorem current_flush : (j.flush n).current = j.current := by
  induction n generalizing j with
  | zero => rfl
  | succ n ih =>
    rw [flush]
    split
    · rfl
    · next s rest hpending =>
      rw [ih, current, current, hpending]
      cases rest with
      | nil => rfl
      | cons t rest => rw [List.getLast?_cons_cons, List.getLast?_cons]; rfl

@[simp] theorem position_flush : (j.flush n).position = j.position := by
  induction n generalizing j with
  | zero => rfl
  | succ n ih =>
    rw [flush]
    split
    · rfl
    · next s rest hpending =>
      rw [ih]
      simp only [position, hpending, List.length_cons]
      omega

theorem le_flushed_flush (h : n ≤ j.pending.length) : j.flushed + n ≤ (j.flush n).flushed := by
  induction n generalizing j with
  | zero => exact Nat.le_refl _
  | succ n ih =>
    rw [flush]
    split
    · next hpending =>
      rw [hpending] at h
      exact absurd h (Nat.not_succ_le_zero n)
    · next s rest hpending =>
      rw [hpending] at h
      have hle := ih (j := ⟨s, rest, j.flushed + 1⟩) (Nat.le_of_succ_le_succ h)
      simp only at hle ⊢
      omega

theorem acknowledge_zero : j.acknowledge 0 = j := by
  rw [acknowledge, Nat.zero_sub, flush]

theorem From.mono (h : From p P j) (hPQ : ∀ s, P s → Q s) : From p Q j :=
  ⟨fun hp => hPQ _ (h.1 hp), fun i s hs hp => hPQ s (h.2 i s hs hp)⟩

/-- The current version is one of those from any position that was reached. -/
theorem From.current (h : From p P j) (hp : p ≤ j.position) : P j.current := by
  rcases hlast : j.pending.getLast? with _ | s
  · rw [Journal.current, hlast]
    rw [List.getLast?_eq_none_iff] at hlast
    rw [position, hlast] at hp
    exact h.1 hp
  · rw [Journal.current, hlast]
    rw [List.getLast?_eq_getElem?] at hlast
    have hlt := (List.getElem?_eq_some_iff.1 hlast).1
    refine h.2 _ s hlast ?_
    rw [position] at hp
    omega

theorem From.durable (h : From 0 P j) : P j.durable := h.1 (Nat.zero_le _)

/-- A write keeps what the current version hands on. -/
theorem From.write (h : From p P j) (hs : p ≤ j.position + 1 → (p ≤ j.position → P j.current) → P s) :
    From p P (j.write s) := by
  refine ⟨h.1, fun i t ht hp => ?_⟩
  rw [Journal.write, List.getElem?_append] at ht
  split at ht
  · exact h.2 i t ht hp
  · next hi =>
    obtain ⟨hzero, rfl⟩ : i - j.pending.length = 0 ∧ s = t := by
      rcases hk : i - j.pending.length with _ | k
      · rw [hk] at ht
        exact ⟨rfl, Option.some.inj ht⟩
      · rw [hk] at ht
        cases ht
    refine hs ?_ h.current
    have hflushed : (j.write s).flushed = j.flushed := rfl
    rw [position]
    omega

/-- What a write brings holds from its position on. -/
theorem from_write (hs : P s) : From (j.position + 1) P (j.write s) := by
  refine ⟨fun hp => ?_, fun i t ht hp => ?_⟩
  · rw [position] at hp
    have hflushed : (j.write s).flushed = j.flushed := rfl
    omega
  · rw [Journal.write, List.getElem?_append] at ht
    have hflushed : (j.write s).flushed = j.flushed := rfl
    rw [position] at hp
    split at ht
    · omega
    · have hi := (List.getElem?_eq_some_iff.1 ht).1
      rw [List.length_singleton, Nat.lt_one_iff] at hi
      rw [hi] at ht
      cases ht
      exact hs

theorem From.flush (h : From p P j) : From p P (j.flush n) := by
  induction n generalizing j with
  | zero => exact h
  | succ n ih =>
    rw [Journal.flush]
    split
    · exact h
    · next s rest hpending =>
      refine ih ⟨fun hp => ?_, fun i t ht hp => ?_⟩
      · exact h.2 0 s (by rw [hpending]; rfl) hp
      · refine h.2 (i + 1) t (by rw [hpending]; exact ht) ?_
        simp only at hp
        omega

/-- Once a sync is acknowledged, what held from its position on holds of every version. -/
theorem From.acknowledge (h : From p P j) (hp : p ≤ j.position) : From 0 P (j.acknowledge p) := by
  have hflushed : p ≤ (j.acknowledge p).flushed := by
    rw [position] at hp
    have hle := le_flushed_flush (j := j) (n := p - j.flushed) (by omega)
    rw [Journal.acknowledge]
    omega
  have hfrom : From p P (j.acknowledge p) := h.flush
  exact ⟨fun _ => hfrom.1 hflushed, fun i s hs _ => hfrom.2 i s hs (by omega)⟩

/-- How a journal goes on without a crash: it stays, some writes become durable, or a write is made
that is related to the version it replaces. -/
inductive Moved (R : σ → σ → Prop) (j : Journal σ) : Journal σ → Prop
  | same : Moved R j j
  | flushed (n : ℕ) : Moved R j (j.flush n)
  | written {s : σ} (h : R j.current s) : Moved R j (j.write s)

theorem Moved.position_le {R : σ → σ → Prop} {j' : Journal σ} (h : Moved R j j') :
    j.position ≤ j'.position := by
  cases h with
  | same => exact Nat.le_refl _
  | flushed n => exact Nat.le_of_eq position_flush.symm
  | written _ => exact Nat.le_of_lt (by rw [position_write]; exact Nat.lt_succ_self _)

/-- What related versions hand on is kept from every position that was reached. -/
theorem From.moved {R : σ → σ → Prop} {j' : Journal σ} (h : From p P j) (hp : p ≤ j.position)
    (hmoved : Moved R j j') (hR : ∀ s s', R s s' → P s → P s') : From p P j' := by
  cases hmoved with
  | same => exact h
  | flushed n => exact h.flush
  | written hs => exact h.write fun _ hcurrent => hR _ _ hs (hcurrent hp)

theorem From.crash (h : From 0 P j) : From 0 P (j.crash n) :=
  ⟨fun _ => h.flush.durable, fun _ _ ht _ => by cases ht⟩

end Journal

end Limitmark.Foundations
