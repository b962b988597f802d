import Limitmark.Foundations.JsonAgreement
import Limitmark.Authority.StrictJson

/-!
# Strict JSON, over code units

`parseStrictJsonText` of `src/lib/authority-result-attestation.ts`, for every string of the platform. It
accepts the texts of JSON whose numbers are integers of at most 32 characters and not `-0`, whose
objects do not repeat a name, and which are nested within the bound; their value is the one of
`JSON.parse` (`parseStrictJsonText_accepts`).

What comes from UTF-8 is a well-formed text, which the attestation codec reads by its characters
(`Authority.parseStrictJsonText`). The two readers are one there (`parseStrictJsonText_ofString`).
-/

namespace Limitmark.Authority.StrictJsonText

open Limitmark.Foundations Limitmark.Foundations.JsonGrammar

/-- `^(?:true|false|null|-?(?:0|[1-9][0-9]*))`, found in the next 32 characters. -/
def scalar (text : JsString) : Option (Json × JsString) :=
  match matchScalar matchInteger (text.take 32) with
  | none => none
  | some found =>
    if found = ascii "-0" then none
    else some (jsonAlgebra.scalar found, text.drop found.length)

def reader (maxDepth : ℕ) : Reader Json where
  algebra := jsonAlgebra
  space := isSpace
  string := quotedBy scanBody
  scalar := scalar
  maxDepth := some maxDepth
  repeats := false

/-- `parseStrictJsonText`: every refusal has the given code. There is no result if it does not end. -/
def parseStrictJsonText (source : JsString) (code : String) (maxDepth : ℕ) :
    Option (Except String Json) :=
  match (reader maxDepth).read source with
  | .ok v => some (.ok v)
  | .error .refused => some (.error code)
  | .error .exhausted => none

/-- The form of a number. -/
def IsStrictNumber (digits : JsString) : Prop :=
  IsInteger digits ∧ digits.length ≤ 32 ∧ digits ≠ ascii "-0"

theorem scalar_sound {text rest : JsString} {v : Json} (h : scalar text = some (v, rest)) :
    ∃ d, Scalar text d rest ∧ (∀ digits ∈ d.numbers, IsStrictNumber digits) ∧
      v = d.fold jsonAlgebra := by
  unfold scalar at h
  split at h
  · cases h
  · next found hfound =>
    obtain ⟨hstart, hlexeme, hnumeral⟩ := matchScalar_sound
      (fun hn => ⟨(matchInteger_sound hn).1, (matchInteger_sound hn).2.numeral⟩) hfound
    obtain ⟨after, rfl⟩ := hstart.trans (List.take_prefix 32 text)
    split at h
    · cases h
    · next hzero =>
      rw [List.drop_left] at h
      obtain ⟨rfl, rfl⟩ : jsonAlgebra.scalar found = v ∧ after = rest := by simpa using h
      refine ⟨_, scalar_iff.2 ⟨found, hlexeme, rfl, rfl⟩, fun digits hdigits => ?_,
        (fold_scalar jsonAlgebra found).symm⟩
      obtain ⟨rfl, hisNumeral⟩ := (mem_numbers_scalar hlexeme).1 hdigits
      have hlength := hstart.length_le
      rw [List.length_take] at hlength
      exact ⟨(matchInteger_sound (hnumeral hisNumeral)).2, by omega, hzero⟩

theorem scalar_complete {text rest : JsString} {d : Doc} (h : Scalar text d rest)
    (hends : Reader.Ends rest) (hstrict : ∀ digits ∈ d.numbers, IsStrictNumber digits) :
    scalar text = some (d.fold jsonAlgebra, rest) := by
  obtain ⟨found, hlexeme, rfl, rfl⟩ := scalar_iff.1 h
  have hnumber (hnumeral : IsNumeral found) : IsStrictNumber found :=
    hstrict found ((mem_numbers_scalar hlexeme).2 ⟨rfl, hnumeral⟩)
  have hlength : found.length ≤ 32 := by
    rcases hlexeme with rfl | rfl | rfl | hnumeral
    · decide
    · decide
    · decide
    · exact (hnumber hnumeral).2.1
  have htake : (found ++ rest).take 32 = found ++ rest.take (32 - found.length) := by
    rw [List.take_append, List.take_of_length_le hlength]
  have hmatch : matchScalar matchInteger (found ++ rest.take (32 - found.length)) = some found :=
    matchScalar_complete hlexeme fun hnumeral =>
      matchInteger_complete (hnumber hnumeral).1 fun u hu => by
        rw [List.head?_take] at hu
        split at hu
        · cases hu
        · exact (hends u hu).1
  have hzero : found ≠ ascii "-0" := by
    rcases hlexeme with rfl | rfl | rfl | hnumeral
    · decide
    · decide
    · decide
    · exact (hnumber hnumeral).2.2
  unfold scalar
  rw [htake, hmatch]
  simp only [if_neg hzero, List.drop_left, fold_scalar]

theorem reader_lawful (maxDepth : ℕ) : (reader maxDepth).Lawful IsStrictNumber where
  space := isSpace_plain
  string := quotedBy_eq_some scanBody_sound scanBody_complete
  scalar_sound := scalar_sound
  scalar_complete := scalar_complete

/-- **`parseStrictJsonText` ends on every string, and accepts exactly its grammar**: the texts of JSON
with strict numbers and without repeated names, nested within the bound, each with the value of
`JSON.parse`. -/
theorem parseStrictJsonText_accepts (source : JsString) (code : String) (maxDepth : ℕ) :
    ∃ result, parseStrictJsonText source code maxDepth = some result ∧
      ∀ v, result = .ok v ↔
        (∃ d, Spells isSpace source d ∧ (∀ digits ∈ d.numbers, IsStrictNumber digits) ∧
          d.Distinct ∧ d.depth ≤ maxDepth) ∧ JsonGrammar.parse source = some v := by
  have hends := Reader.read_ne_exhausted (reader_lawful maxDepth) source
  have haccepts (v : Json) : (reader maxDepth).read source = .ok v ↔
      (∃ d, Spells isSpace source d ∧ (∀ digits ∈ d.numbers, IsStrictNumber digits) ∧
        d.Distinct ∧ d.depth ≤ maxDepth) ∧ JsonGrammar.parse source = some v := by
    rw [Reader.read_eq_ok (reader_lawful maxDepth), parse_eq_some]
    constructor
    · rintro ⟨d, hspells, ⟨hdepth, hdistinct, hnumbers⟩, rfl⟩
      have hbound := hdepth maxDepth rfl
      rw [Nat.zero_add] at hbound
      exact ⟨⟨d, hspells, hnumbers, hdistinct rfl, hbound⟩, d, hspells, rfl⟩
    · rintro ⟨⟨d, hspells, hnumbers, hdistinct, hdepth⟩, d', hspells', rfl⟩
      obtain rfl := spells_unique isSpace_plain hspells hspells'
      refine ⟨d, hspells, ⟨fun limit hlimit => ?_, fun _ => hdistinct, hnumbers⟩, rfl⟩
      obtain rfl := Option.some.inj hlimit
      omega
  unfold parseStrictJsonText
  cases hread : (reader maxDepth).read source with
  | ok v =>
    refine ⟨_, rfl, fun w => ?_⟩
    rw [← haccepts, hread, Except.ok.injEq, Except.ok.injEq]
  | error fault =>
    cases fault with
    | exhausted => exact absurd hread hends
    | refused =>
      refine ⟨_, rfl, fun w => ?_⟩
      rw [← haccepts, hread]
      exact iff_of_false nofun nofun

/-! ## The reader of texts -/

theorem scalar_word {word : String} {value : Json} (hword : ∀ c ∈ word.toList, IsAscii c)
    {text : List Char} (hstart : word.toList <+: text) :
    Json.readWord word value text = some (value, text.drop word.length) ∧
      (unitsOf text).drop (ascii word).length = unitsOf (text.drop word.length) := by
  have hlength : word.length = word.toList.length := String.length_toList.symm
  refine ⟨if_pos (List.isPrefixOf_iff_prefix.2 hstart), ?_⟩
  obtain ⟨rest, rfl⟩ := hstart
  rw [ascii, List.length_map, drop_unitsOf hword, hlength, List.drop_left]

theorem isPrefixOf_take {word : String} (hword : ∀ c ∈ word.toList, IsAscii c)
    (hlength : word.toList.length ≤ 32) (text : List Char) :
    (ascii word).isPrefixOf ((unitsOf text).take 32) = true ↔ word.toList <+: text := by
  rw [List.isPrefixOf_iff_prefix, ← prefix_unitsOf hword, ascii]
  constructor
  · exact fun h => h.trans (List.take_prefix _ _)
  · intro h
    rw [List.prefix_take_iff]
    exact ⟨h, by rwa [List.length_map]⟩

/-- **A scalar is found in the units of a text as in its characters.** -/
theorem scalar_unitsOf (text : List Char) : scalar (unitsOf text) = inUnits (strictScalar text) := by
  have hword {word : String} (h : ¬ word.toList <+: text) (value : Json) :
      Json.readWord word value text = none :=
    if_neg fun hstart => h (List.isPrefixOf_iff_prefix.1 hstart)
  rw [scalar, matchScalar, strictScalar, Json.readLiteral]
  have htrueAscii : ∀ c ∈ "true".toList, IsAscii c := forall_mem_of_all (by decide)
  have hfalseAscii : ∀ c ∈ "false".toList, IsAscii c := forall_mem_of_all (by decide)
  have hnullAscii : ∀ c ∈ "null".toList, IsAscii c := forall_mem_of_all (by decide)
  simp only [isPrefixOf_take htrueAscii (by decide), isPrefixOf_take hfalseAscii (by decide),
    isPrefixOf_take hnullAscii (by decide)]
  by_cases htrue : "true".toList <+: text
  · obtain ⟨hread, hdrop⟩ := @scalar_word "true" (.bool true) htrueAscii text htrue
    rw [if_pos htrue, hread]
    dsimp only
    rw [if_neg (by decide), hdrop]
    rfl
  rw [if_neg htrue, hword htrue, Option.none_or]
  by_cases hfalse : "false".toList <+: text
  · obtain ⟨hread, hdrop⟩ := @scalar_word "false" (.bool false) hfalseAscii text hfalse
    rw [if_pos hfalse, hread]
    dsimp only
    rw [if_neg (by decide), hdrop]
    rfl
  rw [if_neg hfalse, hword hfalse, Option.none_or]
  by_cases hnull : "null".toList <+: text
  · obtain ⟨hread, hdrop⟩ := @scalar_word "null" .null hnullAscii text hnull
    rw [if_pos hnull, hread]
    dsimp only
    rw [if_neg (by decide), hdrop]
    rfl
  rw [if_neg hnull, hword hnull, Option.none_or]
  have hinteger := matchInteger_take 32 text
  cases hread : Json.readInt (text.take 32) with
  | none =>
    rw [hread] at hinteger
    rw [hinteger]
    rfl
  | some found =>
    obtain ⟨k, rest⟩ := found
    rw [hread] at hinteger
    obtain ⟨word, htext, hne, hascii, hmatch, hnumber, hzero⟩ := hinteger
    have hminus : Json.expect '-' (text.take 32) = (Json.expect '-' text).map (List.take 31) := by
      cases text with
      | nil => rfl
      | cons c text =>
        rw [List.take_succ_cons, Json.expect, Json.expect]
        split <;> rfl
    rw [hminus, Option.isSome_map] at hzero
    rw [hmatch]
    dsimp only
    simp only [hzero]
    split
    · rfl
    · have hwhole : text = word ++ (rest ++ text.drop 32) := by
        rw [← List.append_assoc, ← htext, List.take_append_drop]
      have hdrop : (text.take 32).length - rest.length = word.length := by
        rw [htext, List.length_append, Nat.add_sub_cancel]
      have hvalue : jsonAlgebra.scalar (word.map unit) = Json.int k := by
        rw [scalar_numeral jsonAlgebra (matchInteger_sound hmatch).2.numeral]
        exact congrArg Json.num hnumber
      have hleft : text.drop word.length = rest ++ text.drop 32 := by
        conv_lhs => rw [hwhole, List.drop_left]
      have hunits : (unitsOf text).drop word.length = unitsOf (rest ++ text.drop 32) := by
        conv_lhs => rw [hwhole, drop_unitsOf hascii]
      rw [hdrop, hvalue, List.length_map, hunits, hleft]
      rfl

theorem length_of_readWord {word : String} {value v : Json} {text rest : List Char}
    (hword : 0 < word.length) (h : Json.readWord word value text = some (v, rest)) :
    rest.length < text.length := by
  rw [Json.readWord] at h
  split at h
  · next hstart =>
    obtain ⟨-, rfl⟩ : value = v ∧ text.drop word.length = rest := by simpa using h
    have hle := (List.isPrefixOf_iff_prefix.1 hstart).length_le
    rw [String.length_toList] at hle
    rw [List.length_drop]
    omega
  · cases h

theorem length_of_strictScalar {text rest : List Char} {v : Json}
    (h : strictScalar text = some (v, rest)) : rest.length < text.length := by
  rw [strictScalar, Option.or_eq_some_iff] at h
  rcases h with hliteral | ⟨-, h⟩
  · rw [Json.readLiteral, Option.or_eq_some_iff, Option.or_eq_some_iff] at hliteral
    rcases hliteral with hword | ⟨-, hword | ⟨-, hword⟩⟩ <;>
      exact length_of_readWord (by decide) hword
  · have hinteger := matchInteger_take 32 text
    cases hread : Json.readInt (text.take 32) with
    | none =>
      rw [hread] at h
      cases h
    | some found =>
      obtain ⟨k, after⟩ := found
      rw [hread] at h hinteger
      obtain ⟨word, htext, hne, -⟩ := hinteger
      dsimp only at h
      split at h
      · cases h
      · obtain ⟨-, rfl⟩ : Json.int k = v ∧
            text.drop ((text.take 32).length - after.length) = rest := by simpa using h
        have hword : 0 < word.length := List.length_pos_of_ne_nil hne
        have hlength := congrArg List.length htext
        rw [List.length_append] at hlength
        have hle : (text.take 32).length ≤ text.length := (List.take_prefix 32 text).length_le
        rw [List.length_drop]
        omega

theorem strict_agrees : Agrees strict (reader STRICT_MAX_DEPTH) where
  algebra := rfl
  space := rfl
  maxDepth := rfl
  repeats := rfl
  string := quotedBy_eq_some scanBody_sound scanBody_complete
  scalar := scalar_unitsOf
  consumes := length_of_strictScalar

/-- **The strict reader of texts is the strict reader of strings**, on the strings that are texts. -/
theorem parseStrictJsonText_ofString (source code : String) :
    parseStrictJsonText (.ofString source) code STRICT_MAX_DEPTH =
      some ((Authority.parseStrictJsonText source).elim (.error code) .ok) := by
  have hread := read_agrees strict_agrees source
  rw [parseStrictJsonText, Authority.parseStrictJsonText, ← hread]
  cases hrun : (reader STRICT_MAX_DEPTH).read (.ofString source) with
  | ok v => rfl
  | error fault =>
    cases fault with
    | exhausted => exact absurd hrun (Reader.read_ne_exhausted (reader_lawful _) _)
    | refused => rfl

end Limitmark.Authority.StrictJsonText
