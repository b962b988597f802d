import Limitmark.Authority.Nonces

/-!
# Decisions are atomic

A claim or a consume that is not allowed, whatever refused it and whatever statement failed, leaves
the tables as they were but for rows that have expired and for the last time seen (`Undecided`). One
that is allowed adds the two observations of its stage and client (`Recorded`) and touches the row of
its own nonce and no other (`decisions_atomic`).
-/

namespace Limitmark.Authority

open Limitmark.Foundations Limitmark.Ingress

namespace Storage

variable {reading : ℤ} {attempt : String} {row : MetaRow} {s s' : Storage}

/-- Every row of one table is in the other, unchanged, or is gone and had expired; and no row is
new. -/
def Swept {ν : Type} (expired : ν → Bool) (before after : Table String ν) : Prop :=
  ∀ key, after.lookup key = before.lookup key ∨
    after.lookup key = none ∧ ∃ row, before.lookup key = some row ∧ expired row = true

theorem Swept.refl {ν : Type} (expired : ν → Bool) (table : Table String ν) :
    Swept expired table table :=
  fun _ => Or.inl rfl

theorem swept_keep {ν : Type} (expired : ν → Bool) (table : Table String ν) :
    Swept expired table (table.keep fun row => !expired row) := by
  intro key
  rw [Table.lookup_keep]
  cases hrow : table.lookup key with
  | none => exact Or.inl rfl
  | some row =>
    rw [Option.filter_some]
    cases hexpired : expired row with
    | true => exact Or.inr ⟨rfl, row, rfl, hexpired⟩
    | false => exact Or.inl rfl

/-- The last time seen is as it was, or has moved forward to the reading. -/
def MetaMoves (reading : ℤ) (before after : Option MetaRow) : Prop :=
  after = before ∨
    ∃ row, before = some row ∧ row.lastNowMs ≤ reading ∧
      after = some { row with lastNowMs := reading }

/-- The tables no decision writes are as they were. -/
structure Framed (s s' : Storage) : Prop where
  activeReleases : s'.activeReleases = s.activeReleases
  lifecycleReceipts : s'.lifecycleReceipts = s.lifecycleReceipts
  lifecycleReceiptCoverage : s'.lifecycleReceiptCoverage = s.lifecycleReceiptCoverage

/-- What a decision that is not allowed leaves. -/
structure Undecided (reading : ℤ) (s s' : Storage) : Prop extends Framed s s' where
  observations : Swept (Observation.expired reading) s.observations s'.observations
  nonces : Swept (NonceRow.expired reading) s.nonces s'.nonces
  authorityMeta : MetaMoves reading s.authorityMeta s'.authorityMeta

/-- What an allowed decision leaves but for the nonces: beside what a sweep leaves, one observation
of the client and one of all clients, under two new ids. -/
structure Recorded (stage : Stage) (clientPseudonym : String) (reading : ℤ) (s s' : Storage) : Prop
    extends Framed s s' where
  authorityMeta : MetaMoves reading s.authorityMeta s'.authorityMeta
  observations : ∃ swept : Table String Observation,
    Swept (Observation.expired reading) s.observations swept ∧
      ∃ client global : String, client ≠ global ∧
        swept.lookup client = none ∧ swept.lookup global = none ∧
          ∀ id, s'.observations.lookup id =
            if id = global then some ⟨stage, .global, "*", reading⟩
            else if id = client then some ⟨stage, .client, clientPseudonym, reading⟩
            else swept.lookup id

/-- One row of the nonces is new, or its own; the others are what a sweep leaves. -/
def Writes (nonce : String) (written : NonceRow) (reading : ℤ) (s s' : Storage) : Prop :=
  ∃ swept : Table String NonceRow, Swept (NonceRow.expired reading) s.nonces swept ∧
    ∀ key, s'.nonces.lookup key = if key = nonce then some written else swept.lookup key

theorem Framed.of_sameRows (h : s'.SameRows s) : Framed s s' :=
  ⟨h.activeReleases, h.lifecycleReceipts, h.lifecycleReceiptCoverage⟩

theorem Undecided.of_sameRows (reading : ℤ) (h : s'.SameRows s) : Undecided reading s s' :=
  { Framed.of_sameRows h with
    observations := h.observations ▸ Swept.refl _ _
    nonces := h.nonces ▸ Swept.refl _ _
    authorityMeta := Or.inl h.authorityMeta }

theorem metaMoves_reads {options : AuthorityOptions} {releaseId : String}
    (h : Reads options releaseId reading s row) :
    MetaMoves reading s.authorityMeta (some { row with lastNowMs := reading }) :=
  Or.inr ⟨row, h.authorityMeta, h.notBack, rfl⟩

/-- A decision that only moved the last time seen. -/
theorem undecided_seen {options : AuthorityOptions} {releaseId : String}
    (h : Reads options releaseId reading s row) :
    Undecided reading s (s.createAuthoritySchema.seen row reading) where
  activeReleases := rfl
  lifecycleReceipts := rfl
  lifecycleReceiptCoverage := rfl
  observations := Swept.refl _ _
  nonces := Swept.refl _ _
  authorityMeta := metaMoves_reads h

/-- A decision that also removed what had expired. -/
theorem undecided_pruned {options : AuthorityOptions} {releaseId : String}
    (h : Reads options releaseId reading s row) :
    Undecided reading s ((s.createAuthoritySchema.seen row reading).pruned reading) where
  activeReleases := rfl
  lifecycleReceipts := rfl
  lifecycleReceiptCoverage := rfl
  observations := swept_keep _ s.observations
  nonces := swept_keep _ s.nonces
  authorityMeta := metaMoves_reads h

/-- The two ids of a decision differ. -/
theorem ids_ne (attempt : String) : attempt ++ ":c" ≠ attempt ++ ":g" := by
  intro h
  have hlist := congrArg String.toList h
  rw [String.toList_append, String.toList_append] at hlist
  exact absurd (List.append_cancel_left hlist) (by decide)

/-- The observations of an allowed decision. -/
theorem Observed.lookup {stage : Stage} {clientPseudonym : String} {t : Storage}
    (h : Observed attempt stage clientPseudonym reading s t) :
    s.observations.lookup (attempt ++ ":g") = none ∧
      ∀ id, t.observations.lookup id =
        if id = attempt ++ ":g" then some ⟨stage, .global, "*", reading⟩
        else if id = attempt ++ ":c" then some ⟨stage, .client, clientPseudonym, reading⟩
        else s.observations.lookup id := by
  have hglobal := h.globalFree
  rw [Table.lookup_insert_eq, if_neg (Ne.symm (ids_ne attempt))] at hglobal
  refine ⟨hglobal, fun id => ?_⟩
  rw [h.eq]
  dsimp only
  rw [Table.lookup_insert_eq, Table.lookup_insert_eq]

theorem recorded_of_observed {options : AuthorityOptions} {releaseId : String} {stage : Stage}
    {clientPseudonym : String} {t : Storage} (hreads : Reads options releaseId reading s row)
    (h : Observed attempt stage clientPseudonym reading
      ((s.createAuthoritySchema.seen row reading).pruned reading) t)
    (hobservations : s'.observations = t.observations)
    (hmeta : s'.authorityMeta = some { row with lastNowMs := reading }) (hframed : Framed t s') :
    Recorded stage clientPseudonym reading s s' := by
  obtain ⟨hglobal, hlookup⟩ := h.lookup
  have ht : Framed s t := by
    rw [h.eq]
    exact ⟨rfl, rfl, rfl⟩
  refine ⟨⟨hframed.1.trans ht.1, hframed.2.trans ht.2, hframed.3.trans ht.3⟩, ?_, ?_⟩
  · rw [hmeta]
    exact metaMoves_reads hreads
  · rw [hobservations]
    exact ⟨_, swept_keep _ s.observations, attempt ++ ":c", attempt ++ ":g", ids_ne attempt,
      h.clientFree, hglobal, hlookup⟩

theorem framed_markConsumed (nonce : String) (t : Storage) : Framed t (t.markConsumed nonce) := by
  unfold markConsumed
  split <;> exact ⟨rfl, rfl, rfl⟩

/-- **Decisions are atomic.** A claim or a consume, with a failure at any statement or none, either
is not allowed and leaves the tables as a sweep does; or it is allowed, records one observation of
its client and one of all clients at its reading, and makes the row of its nonce, which no live row
had, or marks the row of its nonce, which was not consumed. -/
theorem decisions_atomic (options : AuthorityOptions) (fault : Option Statement) (reading : ℤ)
    (permit attempt : String) (claim : ClaimPreInput) (consume : ConsumePostInput) (s : Storage) :
    (match s.claimPre options fault reading permit attempt claim with
      | (.allowed _ _, s') =>
        Recorded .pre claim.clientPseudonym reading s s' ∧
          (∀ old, s.nonces.lookup claim.nonce = some old → old.expired reading = true) ∧
          Writes claim.nonce (claimedRow claim permit reading) reading s s'
      | (_, s') => Undecided reading s s') ∧
    (match s.consumePost options fault reading attempt consume with
      | (.allowed, s') =>
        Recorded .post consume.clientPseudonym reading s s' ∧
          ∃ old, s.nonces.lookup consume.nonce = some old ∧ old.postConsumed = false ∧
            Writes consume.nonce { old with postConsumed := true } reading s s'
      | (_, s') => Undecided reading s s') := by
  constructor
  · rcases hcall : s.claimPre options fault reading permit attempt claim with ⟨d, s'⟩
    rcases claimPre_cases hcall with ⟨rfl, hsame⟩ | ⟨row, -, hreads, hrest⟩
    · exact Undecided.of_sameRows reading hsame
    · rcases hrest with ⟨rfl, rfl⟩ | ⟨rfl | rfl, rfl⟩ | ⟨rfl, hclaimed⟩
      · exact undecided_seen hreads
      · exact undecided_pruned hreads
      · exact undecided_pruned hreads
      · obtain ⟨t, ht, hs'⟩ := hclaimed.effect
        refine ⟨recorded_of_observed hreads ht (by rw [hs']) hclaimed.authorityMeta
          (by rw [hs']; exact ⟨rfl, rfl, rfl⟩), fun old hold => ?_,
          s.nonces.keep fun r => !r.expired reading, swept_keep _ s.nonces, fun key => ?_⟩
        · exact decide_eq_true (hclaimed.expired hold)
        · rw [hclaimed.lookup, Table.lookup_keep]
          rfl
  · rcases hcall : s.consumePost options fault reading attempt consume with ⟨d, s'⟩
    rcases consumePost_cases hcall with ⟨rfl, hsame⟩ | ⟨row, -, hreads, hrest⟩
    · exact Undecided.of_sameRows reading hsame
    · rcases hrest with ⟨hd, rfl⟩ | ⟨rfl, hconsumed⟩
      · cases d with
        | allowed => exact absurd rfl hd
        | _ => exact undecided_pruned hreads
      · obtain ⟨t, ht, hs'⟩ := hconsumed.effect
        obtain ⟨old, hold, -, hunconsumed, hlookup⟩ := hconsumed.lookup
        refine ⟨recorded_of_observed hreads ht (by rw [hs', markConsumed_observations])
          hconsumed.authorityMeta (hs' ▸ framed_markConsumed _ t), old, hold, hunconsumed,
          s.nonces.keep fun r => !r.expired reading, swept_keep _ s.nonces, fun key => ?_⟩
        rw [hlookup, Table.lookup_keep]
        rfl

end Storage

end Limitmark.Authority
