import Mathlib.Data.Nat.Basic
import Limitmark.Defense.Bytes

/-!
# Canonical base64url

The strict decoder of `defense/core/hop-proof.ts`: a text is decoded only when it is the encoding of
what it decodes to. It is the left inverse of the encoder on every non-empty byte string
(`decodeCanonicalB64_base64url`).
-/

namespace Limitmark.Hop

open Limitmark.Defense

def sextetOf (c : Char) : ℕ := BASE64URL_ALPHABET.idxOf c

def base64Bytes : List Char → List UInt8
  | a :: b :: c :: d :: rest =>
    (sextetOf a * 4 + sextetOf b / 16).toUInt8 :: (sextetOf b * 16 + sextetOf c / 4).toUInt8 ::
      (sextetOf c * 64 + sextetOf d).toUInt8 :: base64Bytes rest
  | [a, b, c] =>
    [(sextetOf a * 4 + sextetOf b / 16).toUInt8, (sextetOf b * 16 + sextetOf c / 4).toUInt8]
  | [a, b] => [(sextetOf a * 4 + sextetOf b / 16).toUInt8]
  | _ => []

/-- Canonical base64url only: what would not re-encode to the same text is refused. -/
def decodeCanonicalB64 (value : String) : Option (List UInt8) :=
  if value.toList = [] ∨ ¬ value.toList.all isBase64url ∨ value.length % 4 = 1 then none
  else
    let bytes := base64Bytes value.toList
    if base64url bytes ≠ value then none else some bytes

/-- The same, of a known length. -/
def decodeCanonicalB64Of (length : ℕ) (value : String) : Option (List UInt8) :=
  (decodeCanonicalB64 value).filter fun bytes => bytes.length = length

/-! ## The decoder inverts the encoder -/

theorem sextetOf_sextet (n : ℕ) : sextetOf (sextet n) = n % 64 := by
  have h : ∀ k < 64, sextetOf (BASE64URL_ALPHABET.getD k 'A') = k := by decide +kernel
  exact h _ (Nat.mod_lt _ (by decide))

theorem isBase64url_sextet (n : ℕ) : isBase64url (sextet n) = true := by
  have h : ∀ k < 64, isBase64url (BASE64URL_ALPHABET.getD k 'A') = true := by decide +kernel
  exact h _ (Nat.mod_lt _ (by decide))

theorem toUInt8_eq {n : ℕ} {a : UInt8} (h : n % 256 = a.toNat) : n.toUInt8 = a := by
  apply UInt8.toNat_inj.1
  simpa using h

/-- Decoding the characters of an encoding. -/
theorem base64Bytes_base64urlChars (bytes : List UInt8) :
    base64Bytes (base64urlChars bytes) = bytes := by
  induction bytes using base64urlChars.induct with
  | case1 => rfl
  | case2 a =>
    have ha := a.toNat_lt
    simp only [base64urlChars, base64Bytes, sextetOf_sextet]
    rw [toUInt8_eq (a := a) (by omega)]
  | case3 a b =>
    have ha := a.toNat_lt
    have hb := b.toNat_lt
    simp only [base64urlChars, base64Bytes, sextetOf_sextet]
    rw [toUInt8_eq (a := a) (by omega), toUInt8_eq (a := b) (by omega)]
  | case4 a b c rest ih =>
    have ha := a.toNat_lt
    have hb := b.toNat_lt
    have hc := c.toNat_lt
    simp only [base64urlChars, base64Bytes, sextetOf_sextet, ih]
    rw [toUInt8_eq (a := a) (by omega), toUInt8_eq (a := b) (by omega),
      toUInt8_eq (a := c) (by omega)]

theorem all_base64urlChars (bytes : List UInt8) : (base64urlChars bytes).all isBase64url = true := by
  induction bytes using base64urlChars.induct with
  | case1 => rfl
  | case2 a => simp [base64urlChars, isBase64url_sextet]
  | case3 a b => simp [base64urlChars, isBase64url_sextet]
  | case4 a b c rest ih => simp [base64urlChars, isBase64url_sextet, ih]

theorem length_base64urlChars (bytes : List UInt8) :
    (base64urlChars bytes).length = (bytes.length * 4 + 2) / 3 := by
  induction bytes using base64urlChars.induct with
  | case1 => rfl
  | case2 a => simp [base64urlChars]
  | case3 a b => simp [base64urlChars]
  | case4 a b c rest ih =>
    simp only [base64urlChars, List.length_cons, ih]
    omega

/-- **The decoder inverts the encoder.** -/
theorem decodeCanonicalB64_base64url {bytes : List UInt8} (h : bytes ≠ []) :
    decodeCanonicalB64 (base64url bytes) = some bytes := by
  have hchars : (base64url bytes).toList = base64urlChars bytes := String.toList_ofList
  have hlength : (base64url bytes).length = (base64urlChars bytes).length := String.length_ofList
  have hpos : 0 < bytes.length := List.length_pos_iff.2 h
  have hne : base64urlChars bytes ≠ [] := by
    intro hnil
    have := length_base64urlChars bytes
    rw [hnil, List.length_nil] at this
    omega
  rw [decodeCanonicalB64, hchars, hlength, length_base64urlChars, base64Bytes_base64urlChars,
    if_neg, if_neg (not_not.2 rfl)]
  rintro (hnil | hall | hmod)
  · exact hne hnil
  · exact hall (all_base64urlChars bytes)
  · omega

/-- **A text is decoded exactly when it is the encoding of some bytes**, and to them. -/
theorem decodeCanonicalB64_eq_some {value : String} {bytes : List UInt8} :
    decodeCanonicalB64 value = some bytes ↔ bytes ≠ [] ∧ base64url bytes = value := by
  constructor
  · intro h
    unfold decodeCanonicalB64 at h
    split at h
    · cases h
    · next hrefused =>
      dsimp only at h
      split at h
      · cases h
      · next hcanonical =>
        obtain rfl := Option.some.inj h
        have hencoded := not_not.1 hcanonical
        refine ⟨fun hnil => hrefused (.inl ?_), hencoded⟩
        rw [← hencoded, hnil]
        rfl
  · rintro ⟨hne, rfl⟩
    exact decodeCanonicalB64_base64url hne

theorem decodeCanonicalB64Of_eq_some {length : ℕ} {value : String} {bytes : List UInt8} :
    decodeCanonicalB64Of length value = some bytes ↔
      (bytes ≠ [] ∧ base64url bytes = value) ∧ bytes.length = length := by
  rw [decodeCanonicalB64Of, Option.filter_eq_some_iff, decodeCanonicalB64_eq_some, decide_eq_true_eq]

/-- Two encodings are found on the sides of a dot. -/
theorem splitOn_dot {a b : List UInt8} :
    (base64urlChars a ++ '.' :: base64urlChars b).splitOn '.' =
      [base64urlChars a, base64urlChars b] := by
  have hdot (bytes : List UInt8) : '.' ∉ base64urlChars bytes := by
    intro hc
    have h := List.all_eq_true.1 (all_base64urlChars bytes) '.' hc
    revert h
    decide
  rw [List.splitOn_append_cons_self, List.splitOn_eq_singleton (hdot a),
    List.splitOn_eq_singleton (hdot b)]
  rfl

end Limitmark.Hop
