import Mathlib.Data.Finmap

/-!
# Finite tables

The maps the programs keep: `Mathlib`'s association lists, with the two operations they lack,
the removal of every row whose value fails a test (`keep`) or whose key is listed (`without`), and
the number of rows whose value passes one (`tally`). The order of the rows is never read.

`tally` is what bounds on the size of a table are stated with. It follows every update
(`tally_insert`, `tally_erase`, `tally_keep`) and depends on the lookups alone (`tally_congr`).
-/

namespace Limitmark.Foundations

/-- A finite table from keys to values. -/
abbrev Table (κ ν : Type*) := AList fun _ : κ => ν

namespace Table

variable {κ ν : Type*}

/-- Equality of tables, by an instance that evaluates. -/
instance [DecidableEq κ] [DecidableEq ν] : DecidableEq (Table κ ν) := fun m m' =>
  decidable_of_iff (m.entries = m'.entries) AList.ext_iff.symm

/-- The number of rows. -/
def size (m : Table κ ν) : ℕ := m.entries.length

/-- The number of rows whose value passes `p`. -/
def tally (p : ν → Bool) (m : Table κ ν) : ℕ := m.entries.countP fun e => p e.2

/-- The table of the rows whose value passes `p`. -/
def keep (p : ν → Bool) (m : Table κ ν) : Table κ ν where
  entries := m.entries.filter fun e => p e.2
  nodupKeys := m.nodupKeys.sublist List.filter_sublist

/-- The table of the rows whose key is not in `ks`. -/
def without [DecidableEq κ] (ks : List κ) (m : Table κ ν) : Table κ ν where
  entries := m.entries.filter fun e => decide (e.1 ∉ ks)
  nodupKeys := m.nodupKeys.sublist List.filter_sublist

/-- The values, in the order of the rows. -/
def values (m : Table κ ν) : List ν := m.entries.map Sigma.snd

theorem size_eq_tally (m : Table κ ν) : m.size = tally (fun _ => true) m := by
  simp [size, tally]

theorem tally_le_size (p : ν → Bool) (m : Table κ ν) : tally p m ≤ m.size :=
  List.countP_le_length

/-- A test that every value passes counts every row. -/
theorem tally_eq_size [DecidableEq κ] {p : ν → Bool} {m : Table κ ν}
    (h : ∀ k v, m.lookup k = some v → p v = true) : tally p m = m.size := by
  rw [tally, size, List.countP_eq_length]
  rintro ⟨k, v⟩ he
  exact h k v (AList.mem_lookup_iff.2 he)

theorem tally_mono {p q : ν → Bool} (h : ∀ v, p v = true → q v = true) (m : Table κ ν) :
    tally p m ≤ tally q m :=
  List.countP_mono_left fun e _ => h e.2

@[simp] theorem tally_empty (p : ν → Bool) : tally p (∅ : Table κ ν) = 0 := rfl

@[simp] theorem size_empty : size (∅ : Table κ ν) = 0 := rfl

theorem tally_keep (p q : ν → Bool) (m : Table κ ν) :
    tally p (keep q m) = tally (fun v => p v && q v) m := by
  simp only [tally, keep, List.countP_filter]

theorem size_keep (q : ν → Bool) (m : Table κ ν) : (keep q m).size = tally q m := by
  rw [size_eq_tally, tally_keep]
  simp only [Bool.true_and]

theorem tally_keep_le (p q : ν → Bool) (m : Table κ ν) : tally p (keep q m) ≤ tally p m := by
  rw [tally_keep]
  exact tally_mono (fun v h => (Bool.and_eq_true_iff.1 h).1) m

variable [DecidableEq κ]

theorem mem_values_of_lookup {k : κ} {v : ν} {m : Table κ ν} (h : m.lookup k = some v) :
    v ∈ m.values :=
  List.mem_map.2 ⟨⟨k, v⟩, AList.mem_lookup_iff.1 h, rfl⟩

theorem lookup_insert_eq (k k' : κ) (v : ν) (m : Table κ ν) :
    (m.insert k' v).lookup k = if k = k' then some v else m.lookup k := by
  split
  · next h => rw [h, AList.lookup_insert]
  · next h => rw [AList.lookup_insert_ne h]

theorem lookup_erase_eq (k k' : κ) (m : Table κ ν) :
    (m.erase k').lookup k = if k = k' then none else m.lookup k := by
  split
  · next h => rw [h, AList.lookup_erase]
  · next h => rw [AList.lookup_erase_ne h]

/-- Looking a key up among the rows that pass `p`. -/
theorem lookup_keep (p : ν → Bool) (k : κ) (m : Table κ ν) :
    (keep p m).lookup k = (m.lookup k).filter p := by
  have key (v : ν) : (keep p m).lookup k = some v ↔ m.lookup k = some v ∧ p v = true := by
    rw [← Option.mem_def, ← Option.mem_def, AList.mem_lookup_iff, AList.mem_lookup_iff]
    simp [keep]
  apply Option.ext
  intro v
  rw [key, Option.filter_eq_some_iff]

theorem lookup_without (ks : List κ) (k : κ) (m : Table κ ν) :
    (without ks m).lookup k = if k ∈ ks then none else m.lookup k := by
  have key (v : ν) : (without ks m).lookup k = some v ↔ k ∉ ks ∧ m.lookup k = some v := by
    rw [← Option.mem_def, ← Option.mem_def, AList.mem_lookup_iff, AList.mem_lookup_iff]
    simp [without, and_comm]
  apply Option.ext
  intro v
  rw [key]
  by_cases h : k ∈ ks <;> simp [h]

/-- Removing rows that fail a test leaves the number of those that pass it. -/
theorem tally_without (p : ν → Bool) {ks : List κ} {m : Table κ ν}
    (h : ∀ k ∈ ks, ∀ v, m.lookup k = some v → p v = false) :
    tally p (without ks m) = tally p m := by
  rw [tally, tally, without, List.countP_filter]
  apply List.countP_congr
  rintro ⟨k, v⟩ he
  simp only [Bool.and_eq_true, decide_eq_true_eq]
  refine ⟨And.left, fun hp => ⟨hp, fun hk => ?_⟩⟩
  rw [h k hk v (AList.mem_lookup_iff.2 he)] at hp
  exact Bool.false_ne_true hp

theorem tally_erase (p : ν → Bool) (k : κ) (m : Table κ ν) :
    tally p (m.erase k) + ((m.lookup k).filter p).toList.length = tally p m := by
  obtain ⟨l, hl⟩ := m
  simp only [tally, AList.erase, AList.lookup]
  clear hl
  induction l with
  | nil => rfl
  | cons e l ih =>
    by_cases h : k = e.1
    · subst h
      rw [List.kerase_cons_eq rfl, List.dlookup_cons_eq, List.countP_cons]
      by_cases hp : p e.2 = true <;> simp [hp, Option.filter]
    · rw [List.kerase_cons_ne h, List.dlookup_cons_ne _ _ h, List.countP_cons, List.countP_cons]
      omega

theorem tally_insert (p : ν → Bool) (k : κ) (v : ν) (m : Table κ ν) :
    tally p (m.insert k v) = tally p (m.erase k) + if p v then 1 else 0 := by
  simp only [tally, AList.entries_insert, AList.erase, List.countP_cons]

theorem tally_erase_le (p : ν → Bool) (k : κ) (m : Table κ ν) :
    tally p (m.erase k) ≤ tally p m := by
  have := tally_erase p k m
  omega

theorem tally_insert_le (p : ν → Bool) (k : κ) (v : ν) (m : Table κ ν) :
    tally p (m.insert k v) ≤ tally p m + if p v then 1 else 0 := by
  rw [tally_insert]
  exact Nat.add_le_add_right (tally_erase_le p k m) _

/-- A row under a new key is counted on top of the others. -/
theorem tally_insert_of_lookup_eq_none (p : ν → Bool) {k : κ} {m : Table κ ν}
    (h : m.lookup k = none) (v : ν) :
    tally p (m.insert k v) = tally p m + if p v then 1 else 0 := by
  have := tally_erase p k m
  rw [h] at this
  rw [tally_insert, ← this]
  rfl

/-- A new value that passes the same test as the old one is counted the same. -/
theorem tally_insert_of_lookup_eq_some (p : ν → Bool) {k : κ} {u : ν} {m : Table κ ν}
    (h : m.lookup k = some u) {v : ν} (hv : p v = p u) : tally p (m.insert k v) = tally p m := by
  have := tally_erase p k m
  rw [h] at this
  rw [tally_insert, hv, ← this]
  by_cases hp : p u = true <;> simp [hp, Option.filter]

/-- The number of rows that pass a test depends on the lookups of those rows alone. -/
theorem tally_congr (p : ν → Bool) {m m' : Table κ ν}
    (h : ∀ k, (m.lookup k).filter p = (m'.lookup k).filter p) : tally p m = tally p m' := by
  rw [← size_keep, ← size_keep]
  refine List.Perm.length_eq (List.lookup_ext (keep p m).nodupKeys (keep p m').nodupKeys ?_)
  intro k v
  change v ∈ (keep p m).lookup k ↔ v ∈ (keep p m').lookup k
  rw [lookup_keep, lookup_keep, h]

end Table

end Limitmark.Foundations
