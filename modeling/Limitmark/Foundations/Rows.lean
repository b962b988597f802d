import Mathlib.Data.List.Nodup
import Mathlib.Data.List.Pairwise
import Mathlib.Data.List.Sort

/-!
# Rows of a relational table

A table is a list of rows with a key that no two of them share. `updateWhere` is the `UPDATE` statement:
it keeps the keys, and the rows that its condition does not select.
-/

namespace Limitmark.Foundations

variable {α κ : Type*} {p : α → Bool} {f : α → α} {rows : List α} {key : α → κ} {r r' : α}

/-- `UPDATE … SET f WHERE p`. -/
def updateWhere (p : α → Bool) (f : α → α) (rows : List α) : List α :=
  rows.map fun r => if p r then f r else r

theorem mem_updateWhere :
    r ∈ updateWhere p f rows ↔ (r ∈ rows ∧ p r = false) ∨ ∃ r₀ ∈ rows, p r₀ = true ∧ f r₀ = r := by
  rw [updateWhere, List.mem_map]
  constructor
  · rintro ⟨r₀, hr₀, rfl⟩
    by_cases hp : p r₀ = true
    · exact .inr ⟨r₀, hr₀, hp, (if_pos hp).symm⟩
    · rw [if_neg hp]
      exact .inl ⟨hr₀, Bool.eq_false_iff.2 hp⟩
  · rintro (⟨hr, hp⟩ | ⟨r₀, hr₀, hp, rfl⟩)
    · exact ⟨r, hr, if_neg (by rw [hp]; exact Bool.false_ne_true)⟩
    · exact ⟨r₀, hr₀, if_pos hp⟩

theorem mem_updateWhere_of_not (hr : r ∈ rows) (hp : p r = false) : r ∈ updateWhere p f rows :=
  mem_updateWhere.2 (.inl ⟨hr, hp⟩)

/-- A statement that selects no row changes nothing. -/
theorem updateWhere_eq_self (h : ∀ r ∈ rows, p r = false) : updateWhere p f rows = rows := by
  rw [updateWhere]
  conv_rhs => rw [← List.map_id rows]
  refine List.map_congr_left fun r hr => ?_
  rw [h r hr]
  rfl

theorem map_key_updateWhere (h : ∀ r, p r = true → key (f r) = key r) :
    (updateWhere p f rows).map key = rows.map key := by
  rw [updateWhere, List.map_map]
  refine List.map_congr_left fun r _ => ?_
  rw [Function.comp_apply]
  split
  · next hp => exact h r hp
  · rfl

/-- Two rows with one key are the same. -/
theorem eq_of_key (h : (rows.map key).Nodup) (hr : r ∈ rows) (hr' : r' ∈ rows)
    (hkey : key r = key r') : r = r' :=
  List.inj_on_of_nodup_map h hr hr' hkey

/-- A condition on the key alone selects one row at most. -/
theorem countP_le_one [DecidableEq κ] (h : (rows.map key).Nodup) {k : κ}
    (hp : ∀ r, p r = true → key r = k) : rows.countP p ≤ 1 := by
  have hcount : rows.countP (fun r => key r = k) = (rows.map key).count k := by
    rw [List.count, List.countP_map]
    refine List.countP_congr fun r _ => ?_
    simp
  have hle : rows.countP p ≤ rows.countP (fun r => key r = k) :=
    List.countP_mono_left fun r _ hr => decide_eq_true (hp r hr)
  have hone := List.nodup_iff_count_le_one.1 h k
  omega

theorem nodup_append_key (h : (rows.map key).Nodup) (hnew : ∀ r' ∈ rows, key r' ≠ key r) :
    ((rows ++ [r]).map key).Nodup := by
  rw [List.map_append, List.map_singleton]
  refine List.Nodup.append h (List.nodup_singleton _) ?_
  rw [List.disjoint_singleton, List.mem_map]
  rintro ⟨r', hr', hkey⟩
  exact hnew r' hr' hkey

/-! ## The row of a key -/

section Find

variable [DecidableEq κ] {k k' : κ} (key)

/-- A row under a key, changed in place. -/
theorem find_key_modify (f : α → α) (hf : ∀ r, key r = k' → key (f r) = k') :
    ((rows.map fun r => if key r = k' then f r else r).find? fun r => key r = k) =
      if k = k' then (rows.find? fun r => key r = k).map f
      else rows.find? fun r => key r = k := by
  induction rows with
  | nil => simp
  | cons r rows ih =>
    rw [List.map_cons, List.find?_cons, List.find?_cons, ih]
    by_cases hr : key r = k'
    · rw [if_pos hr, hf r hr, hr]
      by_cases hk : k' = k
      · simp [hk]
      · simp [hk, Ne.symm hk]
    · rw [if_neg hr]
      by_cases hk : key r = k
      · simp [hk, show ¬ k = k' from fun h => hr (hk.trans h)]
      · simp [hk]

theorem find_key_filter :
    ((rows.filter fun r => key r ≠ k').find? fun r => key r = k) =
      if k = k' then none else rows.find? fun r => key r = k := by
  induction rows with
  | nil => simp
  | cons r rows ih =>
    rw [List.filter_cons, List.find?_cons]
    by_cases hr : key r = k'
    · rw [if_neg (by simp [hr]), ih]
      by_cases hk : k = k'
      · simp [hk]
      · simp [hk, hr, Ne.symm hk]
    · rw [if_pos (by simp [hr]), List.find?_cons, ih]
      by_cases hk : key r = k
      · simp [hk, show ¬ k = k' from fun h => hr (hk.trans h)]
      · simp [hk]

theorem find_key_concat :
    ((rows ++ [r]).find? fun r => key r = k) =
      (rows.find? fun r => key r = k).or (if key r = k then some r else none) := by
  rw [List.find?_append]
  by_cases hk : key r = k <;> simp [hk]

end Find

/-! ## Keys that only some rows have -/

variable {mark : α → Option κ} {k : κ}

/-- Where a key that some rows have is unique, a row is determined by it. -/
theorem eq_of_nodup_filterMap (h : (rows.filterMap mark).Nodup) (hr : r ∈ rows) (hr' : r' ∈ rows)
    (hk : mark r = some k) (hk' : mark r' = some k) : r = r' := by
  have hpairs := List.pairwise_filterMap.1 h
  by_contra hne
  have hsymm : Std.Symm fun a a' => ∀ b, mark a = some b → ∀ b', mark a' = some b' → b ≠ b' :=
    ⟨fun a a' hab b hb b' hb' heq => hab b' hb' b hb heq.symm⟩
  exact hpairs.forall hr hr' hne k hk k hk' rfl

theorem nodup_filterMap_append (h : (rows.filterMap mark).Nodup)
    (hnew : ∀ k, mark r = some k → ∀ r' ∈ rows, mark r' ≠ some k) :
    ((rows ++ [r]).filterMap mark).Nodup := by
  rw [List.filterMap_append]
  cases hk : mark r with
  | none => rwa [List.filterMap_cons_none hk, List.filterMap_nil, List.append_nil]
  | some k =>
    rw [List.filterMap_cons_some hk, List.filterMap_nil]
    refine List.Nodup.append h (List.nodup_singleton k) ?_
    rw [List.disjoint_singleton, List.mem_filterMap]
    rintro ⟨r', hr', hkey⟩
    exact hnew k hk r' hr' hkey

end Limitmark.Foundations
