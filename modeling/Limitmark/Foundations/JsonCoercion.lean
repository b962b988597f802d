import Limitmark.Foundations.JsonRoundTrip

/-!
# The text of a JSON value

`String(value)`: an array has the text of its elements, joined by commas. So an array of one element
has the text of the element, and a text that is a word is that of the word and of the word within any
number of arrays, and of nothing else (`toText_eq_word`).
-/

namespace Limitmark.Foundations

namespace Json

def isNull : Json → Bool
  | .null => true
  | _ => false

mutual

/-- `String(value)`, for a value whose objects have no prototype: these have no text. A number has the
text it is serialised to. -/
def toText : Json → Option JsString
  | .null => some (.ofString "null")
  | .bool true => some (.ofString "true")
  | .bool false => some (.ofString "false")
  | .num q => some (.ofString (String.ofList (write (.num q))))
  | .str s => some s
  | .arr values => joinTexts values
  | .obj _ => none

/-- `values.join(",")`, where null has the empty text. -/
def joinTexts : List Json → Option JsString
  | [] => some []
  | [v] => if v.isNull then some [] else toText v
  | v :: w :: rest =>
    (if v.isNull then some [] else toText v).bind fun text =>
      (joinTexts (w :: rest)).map fun texts => text ++ 0x2C :: texts

end

/-- A value within so many arrays of one element. -/
def within (v : Json) : ℕ → Json
  | 0 => v
  | n + 1 => .arr [within v n]

/-- A word of capital letters. -/
structure IsWord (word : JsString) : Prop where
  ne_nil : word ≠ []
  capital : ∀ u ∈ word, (0x41 ≤ u.toNat ∧ u.toNat ≤ 0x5A) ∨ u.toNat = 0x5F

instance (word : JsString) : Decidable (IsWord word) :=
  decidable_of_iff (word ≠ [] ∧
      (word.all fun u => (0x41 ≤ u.toNat ∧ u.toNat ≤ 0x5A) ∨ u.toNat = 0x5F) = true)
    ⟨fun h => ⟨h.1, forall_mem_of_all h.2⟩, fun h => ⟨h.ne_nil, by simpa using h.capital⟩⟩

theorem IsWord.notMem {word : JsString} (h : IsWord word) {u : UInt16}
    (hu : ¬ (0x41 ≤ u.toNat ∧ u.toNat ≤ 0x5A) ∧ u.toNat ≠ 0x5F) : u ∉ word := by
  intro hmem
  rcases h.capital u hmem with hcapital | hline
  · exact hu.1 hcapital
  · exact hu.2 hline

theorem isWord_not_int {n : ℤ} : ¬ IsWord (.ofString (String.ofList (intText n))) := by
  intro h
  obtain ⟨c, cs, hcons, hc⟩ : ∃ c cs, intText n = c :: cs ∧ (c = '-' ∨ isDigit c = true) := by
    unfold intText
    split
    · exact ⟨_, _, rfl, .inl rfl⟩
    · obtain ⟨c, cs, hcons, -⟩ := toDigits_eq_cons n.natAbs
      exact ⟨c, cs, hcons, .inr (all_toDigits _ c (by rw [hcons]; exact List.mem_cons_self))⟩
  have hsmall : c.toNat < 0x41 := by
    rcases hc with rfl | hc
    · decide
    · rw [isDigit, Bool.and_eq_true, decide_eq_true_eq, decide_eq_true_eq] at hc
      omega
  have hunits : Char.units c = [c.toNat.toUInt16] := if_pos (by omega)
  have hmem : c.toNat.toUInt16 ∈ JsString.ofString (String.ofList (intText n)) := by
    rw [JsString.ofString, String.toList_ofList, hcons, unitsOf, List.flatMap_cons, hunits]
    exact List.mem_cons_self
  have htoNat : c.toNat.toUInt16.toNat = c.toNat := toUInt16_toNat (by omega)
  have hcapital := h.capital _ hmem
  omega

theorem isWord_not_num {q : ℚ} : ¬ IsWord (.ofString (String.ofList (write (.num q)))) := by
  rw [write]
  split
  · exact isWord_not_int
  · exact fun h => h.ne_nil rfl

/-- **A word is the text of itself, and of itself within arrays of one element.** -/
theorem toText_eq_word {word : JsString} (h : IsWord word) :
    ∀ v : Json, v.toText = some word ↔ ∃ n, v = within (.str word) n
  | .null => by
    have hne : JsString.ofString "null" ≠ word := by
      rintro rfl
      exact absurd h (by decide)
    simp only [toText, Option.some.injEq, hne, false_iff, not_exists]
    rintro (_ | n) hv <;> cases hv
  | .bool b => by
    have hne : (Json.bool b).toText ≠ some word := by
      cases b <;> (intro hb; cases hb; exact absurd h (by decide))
    simp only [hne, false_iff, not_exists]
    rintro (_ | n) hv <;> cases hv
  | .num q => by
    have hne : JsString.ofString (String.ofList (write (.num q))) ≠ word := by
      rintro rfl
      exact isWord_not_num h
    simp only [toText, Option.some.injEq, hne, false_iff, not_exists]
    rintro (_ | n) hv <;> cases hv
  | .str s => by
    simp only [toText, Option.some.injEq]
    constructor
    · rintro rfl
      exact ⟨0, rfl⟩
    · rintro ⟨_ | n, hv⟩
      · exact (Json.str.injEq _ _).mp hv
      · cases hv
  | .arr [] => by
    have hne : ([] : JsString) ≠ word := fun hnil => h.ne_nil hnil.symm
    simp only [toText, joinTexts, Option.some.injEq, hne, false_iff, not_exists]
    rintro (_ | n) hv <;> cases hv
  | .arr [v] => by
    have ih := toText_eq_word h v
    have hne : ([] : JsString) ≠ word := fun hnil => h.ne_nil hnil.symm
    have harr : (Json.arr [v]).toText = some word ↔ v.toText = some word := by
      rw [toText, joinTexts]
      cases v with
      | null =>
        have hnull : JsString.ofString "null" ≠ word := by
          rintro rfl
          exact absurd h (by decide)
        simp [isNull, toText, hne, hnull]
      | bool b | num q | str s | arr values | obj members => simp [isNull]
    rw [harr, ih]
    constructor
    · rintro ⟨n, rfl⟩
      exact ⟨n + 1, rfl⟩
    · rintro ⟨_ | n, hv⟩
      · cases hv
      · exact ⟨n, (List.cons.inj (Json.arr.inj hv)).1⟩
  | .arr (v :: w :: rest) => by
    have hcomma : (0x2C : UInt16) ∉ word := h.notMem (by decide)
    constructor
    · intro hv
      rw [toText, joinTexts] at hv
      obtain ⟨text, -, hv⟩ := Option.bind_eq_some_iff.1 hv
      obtain ⟨texts, -, rfl⟩ := Option.map_eq_some_iff.1 hv
      simp at hcomma
    · rintro ⟨_ | n, hv⟩
      · cases hv
      · cases hv
  | .obj members => by
    simp only [toText, reduceCtorEq, false_iff, not_exists]
    rintro (_ | n) hv <;> cases hv

end Json

end Limitmark.Foundations
