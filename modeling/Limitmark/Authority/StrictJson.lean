import Limitmark.Foundations.JsonRoundTrip

/-!
# Strict JSON

`parseStrictJsonText` of `src/lib/authority-result-attestation.ts`: JSON without repeated members,
whose numbers are whole and within 32 characters, and not `-0`, and whose values are nested at most 16
deep. A text that is read is well-formed, as it comes from UTF-8; for all strings see `StrictJsonText`.

What the serialiser writes of strings, booleans, nulls and not too long numbers is read back
(`reads_strict_int`, `reads_strict_bool`, `reads_strict_null`).
-/

namespace Limitmark.Authority

open Limitmark.Foundations Limitmark.Foundations.Json

/-- `^(?:true|false|null|-?(?:0|[1-9][0-9]*))`, within the next 32 characters. -/
def strictScalar (text : List Char) : Option (Json × List Char) :=
  (readLiteral text).or
    (match readInt (text.take 32) with
    | none => none
    | some (n, rest) =>
      if n = 0 ∧ (expect '-' text).isSome then none
      else some (int n, text.drop ((text.take 32).length - rest.length)))

def STRICT_MAX_DEPTH : ℕ := 16

def strict : Dialect where
  scalar := strictScalar
  maxDepth := some STRICT_MAX_DEPTH
  repeats := false

def parseStrictJsonText (source : String) : Option Json := read strict source

/-! ## Scalars are read back -/

theorem readWord_self (word : String) (value : Json) (rest : List Char) :
    readWord word value (word.toList ++ rest) = some (value, rest) := by
  rw [readWord, if_pos (List.isPrefixOf_iff_prefix.2 (List.prefix_append _ _)), ← String.length_toList,
    List.drop_left]

theorem reads_strict_null : strict.Reads .null := by
  intro rest _
  have htrue : readWord "true" (.bool true) ("null".toList ++ rest) = none :=
    readWord_of_ne (show "true".toList = 't' :: ['r', 'u', 'e'] from rfl) (by decide)
  have hfalse : readWord "false" (.bool false) ("null".toList ++ rest) = none :=
    readWord_of_ne (show "false".toList = 'f' :: ['a', 'l', 's', 'e'] from rfl) (by decide)
  show strictScalar (write .null ++ rest) = _
  rw [write, strictScalar, readLiteral, htrue, hfalse, readWord_self]
  rfl

theorem reads_strict_bool (b : Bool) : strict.Reads (.bool b) := by
  intro rest _
  show strictScalar (write (.bool b) ++ rest) = _
  cases b with
  | true =>
    rw [write, strictScalar, readLiteral, readWord_self]
    rfl
  | false =>
    have htrue : readWord "true" (.bool true) ("false".toList ++ rest) = none :=
      readWord_of_ne (show "true".toList = 't' :: ['r', 'u', 'e'] from rfl) (by decide)
    rw [write, strictScalar, readLiteral, htrue, readWord_self]
    rfl

/-- **A number of at most 31 digits is read back.** -/
theorem reads_strict_int {n : ℤ} (h : 0 ≤ n) (hlt : n < 10 ^ 31) : strict.Reads (int n) := by
  intro rest hstops
  show strictScalar (write (int n) ++ rest) = _
  have hlength := length_write_int (by decide) h hlt
  rw [write_int] at hlength ⊢
  have htake : (intText n ++ rest).take 32 = intText n ++ rest.take (32 - (intText n).length) := by
    rw [List.take_append, List.take_of_length_le (by omega)]
  have hends : Ends (rest.take (32 - (intText n).length)) := by
    intro c hc
    rw [List.head?_take] at hc
    split at hc
    · cases hc
    · exact hstops.ends c hc
  have hminus : (expect '-' (intText n ++ rest)).isSome = false := by
    rw [intText, if_neg (not_lt.2 h), expect_minus_toDigits]
    rfl
  rw [strictScalar, readLiteral_intText, htake, readInt_intText n hends]
  simp only [hminus, Option.none_or]
  rw [if_neg (by simp), List.length_append, Nat.add_sub_cancel, List.drop_left]

end Limitmark.Authority
