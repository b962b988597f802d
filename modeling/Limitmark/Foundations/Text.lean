import Mathlib.Data.List.Basic
import Mathlib.Data.UInt

/-!
# Texts: UTF-16 and UTF-8

A string of the platform is a list of UTF-16 code units, and need not be well-formed: a surrogate may
stand alone. Its code points are characters and lone surrogates, and the string is made of them
(`units_codePoints`); a well-formed text is read back from its units (`codePoints_unitsOf`).

The UTF-8 of a well-formed text is decoded to that text and to no other (`decodeUtf8_eq_some`).
-/

namespace Limitmark.Foundations

/-- A test of the elements of a list, run along the list. -/
theorem forall_mem_of_all {α : Type*} {p : α → Prop} [DecidablePred p] {l : List α}
    (h : (l.all fun a => decide (p a)) = true) : ∀ a ∈ l, p a := by
  simpa using h

/-! ## UTF-16 -/

/-- A string, as its code units. -/
abbrev JsString := List UInt16

instance instLawfulBEqJsString : LawfulBEq JsString := inferInstanceAs (LawfulBEq (List UInt16))

def isHighSurrogate (u : UInt16) : Bool := 0xD800 ≤ u.toNat && u.toNat < 0xDC00

def isLowSurrogate (u : UInt16) : Bool := 0xDC00 ≤ u.toNat && u.toNat < 0xE000

def Char.units (c : Char) : JsString :=
  if c.toNat < 0x10000 then [c.toNat.toUInt16]
  else
    [(0xD800 + (c.toNat - 0x10000) / 0x400).toUInt16,
      (0xDC00 + (c.toNat - 0x10000) % 0x400).toUInt16]

inductive CodePoint
  | char (c : Char)
  | lone (unit : UInt16)
  deriving DecidableEq, Repr

def CodePoint.units : CodePoint → JsString
  | .char c => Char.units c
  | .lone u => [u]

/-- The character of a surrogate pair. -/
def pairChar (u v : UInt16) : Char :=
  Char.ofNat (0x10000 + (u.toNat - 0xD800) * 0x400 + (v.toNat - 0xDC00))

def unitPoint (u : UInt16) : CodePoint :=
  if isHighSurrogate u || isLowSurrogate u then .lone u else .char (Char.ofNat u.toNat)

/-- The code points of a string: a high surrogate followed by a low one is one character. -/
def codePoints : JsString → List CodePoint
  | [] => []
  | [u] => [unitPoint u]
  | u :: v :: rest =>
    if isHighSurrogate u && isLowSurrogate v then .char (pairChar u v) :: codePoints rest
    else unitPoint u :: codePoints (v :: rest)

def unitsOf (text : List Char) : JsString := text.flatMap Char.units

/-- The string of a well-formed text. -/
def JsString.ofString (text : String) : JsString := unitsOf text.toList

theorem JsString.ofString_ofList (text : List Char) :
    JsString.ofString (String.ofList text) = unitsOf text := by
  rw [JsString.ofString, String.toList_ofList]

def CodePoint.char? : CodePoint → Option Char
  | .char c => some c
  | .lone _ => none

/-- The text of a string that is well-formed. -/
def JsString.string? (s : JsString) : Option String :=
  ((codePoints s).mapM CodePoint.char?).map String.ofList

theorem toNat_ofNat {n : ℕ} (h : n < 0xD800 ∨ 0xDFFF < n ∧ n < 0x110000) :
    (Char.ofNat n).toNat = n := by
  have hvalid : n.isValidChar := h
  rw [Char.ofNat, dif_pos hvalid]
  rfl

theorem toNat_cases (c : Char) : c.toNat < 0xD800 ∨ 0xDFFF < c.toNat ∧ c.toNat < 0x110000 := c.valid

theorem toUInt16_toNat {n : ℕ} (h : n < 0x10000) : n.toUInt16.toNat = n := Nat.mod_eq_of_lt h

theorem toNat_toUInt16 (u : UInt16) : u.toNat.toUInt16 = u := UInt16.toNat_inj.1 (by simp)

theorem units_unitPoint (u : UInt16) : (unitPoint u).units = [u] := by
  have hu := u.toNat_lt
  unfold unitPoint
  split
  · rfl
  · next h =>
    simp only [isHighSurrogate, isLowSurrogate, Bool.or_eq_true, Bool.and_eq_true,
      decide_eq_true_eq] at h
    have hchar : (Char.ofNat u.toNat).toNat = u.toNat := toNat_ofNat (by omega)
    rw [CodePoint.units, Char.units, hchar, if_pos hu, toNat_toUInt16]

theorem units_pairChar {u v : UInt16} (hu : isHighSurrogate u = true) (hv : isLowSurrogate v = true) :
    Char.units (pairChar u v) = [u, v] := by
  simp only [isHighSurrogate, isLowSurrogate, Bool.and_eq_true, decide_eq_true_eq] at hu hv
  have hchar : (pairChar u v).toNat =
      0x10000 + (u.toNat - 0xD800) * 0x400 + (v.toNat - 0xDC00) := toNat_ofNat (by omega)
  have hhigh : 0xD800 + ((pairChar u v).toNat - 0x10000) / 0x400 = u.toNat := by omega
  have hlow : 0xDC00 + ((pairChar u v).toNat - 0x10000) % 0x400 = v.toNat := by omega
  rw [Char.units, if_neg (by omega), hhigh, hlow, toNat_toUInt16, toNat_toUInt16]

/-- **A string is made of its code points.** -/
theorem units_codePoints (s : JsString) : (codePoints s).flatMap CodePoint.units = s := by
  induction s using codePoints.induct with
  | case1 => rfl
  | case2 u => rw [codePoints, List.flatMap_singleton, units_unitPoint]
  | case3 u v rest hpair ih =>
    rw [codePoints, if_pos hpair, List.flatMap_cons, ih]
    rw [Bool.and_eq_true] at hpair
    rw [CodePoint.units, units_pairChar hpair.1 hpair.2]
    rfl
  | case4 u v rest hpair ih =>
    rw [codePoints, if_neg hpair, List.flatMap_cons, ih, units_unitPoint]
    rfl

/-- The first unit of a character is no low surrogate, and one that is a high surrogate is followed
by a low one. -/
theorem codePoints_units_append (c : Char) (rest : JsString) :
    codePoints (Char.units c ++ rest) = .char c :: codePoints rest := by
  have hc := toNat_cases c
  unfold Char.units
  split
  · next hsmall =>
    have hunit : isHighSurrogate c.toNat.toUInt16 = false ∧ isLowSurrogate c.toNat.toUInt16 = false := by
      simp only [isHighSurrogate, isLowSurrogate, toUInt16_toNat hsmall, Bool.and_eq_false_iff,
        decide_eq_false_iff_not]
      omega
    have hpoint : unitPoint c.toNat.toUInt16 = .char c := by
      rw [unitPoint, hunit.1, hunit.2, toUInt16_toNat hsmall, Char.ofNat_toNat]
      rfl
    cases rest with
    | nil => simp [codePoints, hpoint]
    | cons v rest => simp [codePoints, hunit.1, hpoint]
  · next hlarge =>
    have hhigh : (0xD800 + (c.toNat - 0x10000) / 0x400) < 0x10000 := by omega
    have hlow : (0xDC00 + (c.toNat - 0x10000) % 0x400) < 0x10000 := by omega
    rw [List.cons_append, List.cons_append, List.nil_append, codePoints, if_pos, pairChar,
      toUInt16_toNat hhigh, toUInt16_toNat hlow]
    · rw [show 0x10000 + (0xD800 + (c.toNat - 0x10000) / 0x400 - 0xD800) * 0x400 +
        (0xDC00 + (c.toNat - 0x10000) % 0x400 - 0xDC00) = c.toNat by omega, Char.ofNat_toNat]
    · simp only [isHighSurrogate, isLowSurrogate, toUInt16_toNat hhigh, toUInt16_toNat hlow,
        Bool.and_eq_true, decide_eq_true_eq]
      omega

/-- **A well-formed text is read back** from its units. -/
theorem codePoints_unitsOf (text : List Char) : codePoints (unitsOf text) = text.map .char := by
  induction text with
  | nil => rfl
  | cons c text ih =>
    rw [unitsOf, List.flatMap_cons, codePoints_units_append, List.map_cons]
    exact congrArg _ ih

theorem mapM_char (text : List Char) :
    (text.map CodePoint.char).mapM CodePoint.char? = some text := by
  induction text with
  | nil => rfl
  | cons c text ih => simp [List.mapM_cons, ih, CodePoint.char?]

@[simp] theorem JsString.string?_ofString (text : String) :
    (JsString.ofString text).string? = some text := by
  rw [string?, ofString, codePoints_unitsOf, mapM_char, Option.map_some, String.ofList_toList]

theorem map_char_of_mapM {points : List CodePoint} {text : List Char}
    (h : points.mapM CodePoint.char? = some text) : points = text.map .char := by
  induction points generalizing text with
  | nil =>
    obtain rfl : [] = text := by simpa using h
    rfl
  | cons p points ih =>
    rw [List.mapM_cons] at h
    simp only [Option.bind_eq_bind, Option.bind_eq_some_iff] at h
    obtain ⟨c, hc, text', htext, hcons⟩ := h
    obtain rfl : c :: text' = text := by simpa using hcons
    cases p with
    | char d =>
      cases hc
      rw [ih htext, List.map_cons]
    | lone u => cases hc

theorem flatMap_units_map_char (text : List Char) :
    (text.map CodePoint.char).flatMap CodePoint.units = unitsOf text := by
  rw [List.flatMap_map, unitsOf]
  rfl

theorem JsString.ofString_of_string? {s : JsString} {text : String} (h : s.string? = some text) :
    JsString.ofString text = s := by
  obtain ⟨chars, hchars, rfl⟩ := Option.map_eq_some_iff.1 h
  rw [ofString, String.toList_ofList, ← flatMap_units_map_char, ← map_char_of_mapM hchars,
    units_codePoints]

theorem JsString.ofString_injective : Function.Injective JsString.ofString := by
  intro a b h
  have ha := JsString.string?_ofString a
  rw [h, JsString.string?_ofString] at ha
  exact (Option.some.inj ha).symm

/-! ## UTF-8 -/

/-- `TextEncoder.encode`. -/
def utf8 (text : String) : List UInt8 := text.toByteArray.data.toList

/-- `TextDecoder.decode`, with no byte order mark removed; what is no UTF-8 is refused. -/
def decodeUtf8 (bytes : List UInt8) : Option String := String.fromUTF8? ⟨bytes.toArray⟩

@[simp] theorem decodeUtf8_utf8 (text : String) : decodeUtf8 (utf8 text) = some text := by
  rw [decodeUtf8, utf8, String.fromUTF8?, Array.toArray_toList, dif_pos text.isValidUTF8]
  rfl

theorem utf8_of_decodeUtf8 {bytes : List UInt8} {text : String} (h : decodeUtf8 bytes = some text) :
    utf8 text = bytes := by
  rw [decodeUtf8, String.fromUTF8?] at h
  split at h
  · obtain rfl := Option.some.inj h
    simp [utf8, String.fromUTF8]
  · cases h

/-- **Bytes are decoded to a text exactly when they are its encoding.** -/
theorem decodeUtf8_eq_some {bytes : List UInt8} {text : String} :
    decodeUtf8 bytes = some text ↔ utf8 text = bytes :=
  ⟨utf8_of_decodeUtf8, fun h => h ▸ decodeUtf8_utf8 text⟩

theorem utf8_injective : Function.Injective utf8 := by
  intro a b h
  have ha := decodeUtf8_utf8 a
  rw [h, decodeUtf8_utf8] at ha
  exact (Option.some.inj ha).symm

/-- A character of one byte. -/
def IsAscii (c : Char) : Prop := c.toNat < 0x80

instance (c : Char) : Decidable (IsAscii c) := inferInstanceAs (Decidable (c.toNat < 0x80))

theorem utf8Encode_singleton_of_ascii {c : Char} (h : IsAscii c) :
    [c].utf8Encode.data.toList = [c.toNat.toUInt8] := by
  have hc : c.val.toNat ≤ 0x7f := Nat.le_of_lt_succ h
  rw [List.utf8Encode_singleton, String.utf8EncodeChar, if_pos hc]
  rfl

/-- The UTF-8 of an ASCII text has one byte for each character. -/
theorem utf8_ofList_of_ascii {text : List Char} (h : ∀ c ∈ text, IsAscii c) :
    utf8 (String.ofList text) = text.map fun c => c.toNat.toUInt8 := by
  induction text with
  | nil => rfl
  | cons c text ih =>
    have htail := ih fun d hd => h d (List.mem_cons_of_mem c hd)
    rw [utf8, String.toByteArray_ofList] at htail ⊢
    rw [List.utf8Encode_cons, ByteArray.data_append, Array.toList_append, htail,
      utf8Encode_singleton_of_ascii (h c List.mem_cons_self)]
    rfl

theorem length_utf8_ofList {text : List Char} (h : ∀ c ∈ text, IsAscii c) :
    (utf8 (String.ofList text)).length = text.length := by
  rw [utf8_ofList_of_ascii h, List.length_map]

end Limitmark.Foundations
