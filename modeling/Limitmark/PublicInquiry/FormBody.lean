import Mathlib
import Limitmark.Foundations.Lists
import Limitmark.Lanes.JourneyLanes
import Limitmark.Plane.ShapeGate

/-!
# Reading a form

The strict readers of an urlencoded body that act on it: `parseStrictUrlEncodedForm` of
`src/lib/public-inquiry-body.ts` and `parseStrictForm` of `defense/origin/synthetic-origin.ts`. They
accept the same bodies with the same fields (`parseStrictForm_eq`).

What the shape gate passes they read as the gate did, unless the gate dropped a byte order mark from
the name of a field or from the token (`admitted_reread_iff`).
-/

namespace Limitmark.PublicInquiry

open Limitmark.Defense Limitmark.Foundations Limitmark.Lanes Limitmark.Plane Limitmark.Plane.ShapeGate

/-! ## Decoding -/

/-- No `%` without two hexadecimal digits after it. -/
def percentsComplete : List Char → Bool
  | [] => true
  | c :: rest =>
    (c ≠ '%' || (rest.take 2).length = 2 && (rest.take 2).all fun d => (Json.hexValue d).isSome) &&
      percentsComplete rest

/-- The bytes of a text whose escapes stand for bytes. -/
def percentBytes : List Char → Option (List UInt8)
  | [] => some []
  | c :: rest =>
    if c = '%' then
      match rest with
      | a :: b :: rest => (hexByte a b).bind fun byte => (percentBytes rest).map (byte :: ·)
      | _ => none
    else (percentBytes rest).map (utf8 (String.singleton c) ++ ·)

/-- `decodeURIComponent`: escapes stand for the UTF-8 of the text. -/
def decodeURIComponent (text : List Char) : Option String := (percentBytes text).bind decodeUtf8

/-- `value.replace(/\+/g, " ")` -/
def plusToSpace (value : List Char) : List Char := value.map fun c => if c = '+' then ' ' else c

inductive FormError
  | percent | utf8 | bodyUtf8 | field | duplicate
  deriving DecidableEq, Repr

def FormError.text : FormError → String
  | .percent => "public-form-percent"
  | .utf8 => "public-form-utf8"
  | .bodyUtf8 => "public-body-utf8"
  | .field => "public-form-field"
  | .duplicate => "public-form-duplicate"

def decodePart (value : List Char) : Except FormError String :=
  if ¬ percentsComplete value then .error .percent
  else
    match decodeURIComponent (plusToSpace value) with
    | none => .error .utf8
    | some text => .ok text

abbrev Fields := List (String × String)

/-! ## The reader of the application -/

def allowedFields : List String :=
  ["name", "email", "company", "service", "system", "objective", "environment", "authority",
    "protection", "provider", "notes"] ++ ["submissionToken", "cf-turnstile-response"]

/-- A field without `=` has the empty value. -/
def decodeField (pair : List Char) : Except FormError (String × String) := do
  let name ← decodePart (splitField pair).1
  let value ← decodePart (splitField pair).2
  return (name, value)

def formFields (form : Fields) : List (List Char) → Except FormError Fields
  | [] => .ok form
  | pair :: pairs => do
    let field ← decodeField pair
    if field.1 ∉ allowedFields then .error .field
    else if field.1 ∈ form.map Prod.fst then .error .duplicate
    else formFields (form ++ [field]) pairs

def parseStrictUrlEncodedForm (body : List UInt8) : Except FormError Fields :=
  match decodeUtf8 body with
  | none => .error .bodyUtf8
  | some text => if text = "" then .ok [] else formFields [] (text.toList.splitOn '&')

/-! ## The reader of the origin -/

def FIELD_NAMES : List String :=
  ["name", "email", "company", "service", "system", "objective", "environment", "authority",
    "protection", "provider", "notes", "submissionToken", "cf-turnstile-response"]

def decodeOrigin (value : List Char) : Option String :=
  if ¬ percentsComplete value then none else decodeURIComponent (plusToSpace value)

def originFields (fields : Fields) : List (List Char) → Option Fields
  | [] => some fields
  | pair :: pairs =>
    match decodeOrigin (splitField pair).1, decodeOrigin (splitField pair).2 with
    | some name, some value =>
      if name ∉ FIELD_NAMES ∨ name ∈ fields.map Prod.fst then none
      else originFields (fields ++ [(name, value)]) pairs
    | _, _ => none

def parseStrictForm (body : List UInt8) : Option Fields :=
  match decodeUtf8 body with
  | none => none
  | some text => if text = "" then some [] else originFields [] (text.toList.splitOn '&')

/-! ## The two readers agree -/

theorem decodeOrigin_eq (value : List Char) : decodeOrigin value = (decodePart value).toOption := by
  unfold decodeOrigin decodePart
  split
  · rfl
  · cases decodeURIComponent (plusToSpace value) <;> rfl

theorem originFields_eq (fields : Fields) (pairs : List (List Char)) :
    originFields fields pairs = (formFields fields pairs).toOption := by
  induction pairs generalizing fields with
  | nil => rfl
  | cons pair pairs ih =>
    rw [originFields, formFields, decodeOrigin_eq, decodeOrigin_eq, decodeField]
    cases hname : decodePart (splitField pair).1 with
    | error e => rfl
    | ok name =>
      cases hvalue : decodePart (splitField pair).2 with
      | error e => rfl
      | ok value =>
        change (if name ∉ FIELD_NAMES ∨ name ∈ fields.map Prod.fst then none
            else originFields (fields ++ [(name, value)]) pairs) =
          (if name ∉ allowedFields then Except.error FormError.field
            else if name ∈ fields.map Prod.fst then .error .duplicate
            else formFields (fields ++ [(name, value)]) pairs).toOption
        have hallowed : FIELD_NAMES = allowedFields := rfl
        rw [hallowed, ih]
        by_cases hfield : name ∈ allowedFields <;> by_cases hseen : name ∈ fields.map Prod.fst <;>
          simp only [hfield, hseen, not_true, not_false_iff, or_true, or_false, if_true, if_false] <;> rfl

/-- **The origin accepts what the application accepts, with the same fields.** -/
theorem parseStrictForm_eq (body : List UInt8) :
    parseStrictForm body = (parseStrictUrlEncodedForm body).toOption := by
  unfold parseStrictForm parseStrictUrlEncodedForm
  cases decodeUtf8 body with
  | none => rfl
  | some text =>
    dsimp only
    split
    · rfl
    · exact originFields_eq [] _

/-! ## The gate decodes as they do -/

theorem hexByte_plusToSpace (a b : Char) :
    hexByte (if a = '+' then ' ' else a) (if b = '+' then ' ' else b) = hexByte a b := by
  have hplus : Json.hexValue '+' = Json.hexValue ' ' := by decide
  split <;> split <;> simp_all [hexByte]

theorem percentBytes_cons {c : Char} (h : c ≠ '%') (rest : List Char) :
    percentBytes (c :: rest) = (percentBytes rest).map (utf8 (String.singleton c) ++ ·) := by
  match rest with
  | [] => simp [percentBytes, h]
  | [_] => simp [percentBytes, h]
  | _ :: _ :: _ => simp [percentBytes, h]

theorem percentBytes_eq {raw : List Char} (h : ∀ c ∈ raw, IsAscii c) :
    percentBytes (plusToSpace raw) = decodeComponent raw := by
  fun_induction decodeComponent raw with
  | case1 => rfl
  | case2 a b rest ih =>
    have hrest := ih fun c hc => h c (by simp [hc])
    rw [plusToSpace] at hrest ⊢
    rw [List.map_cons, List.map_cons, List.map_cons, if_neg (by decide), percentBytes, if_pos rfl,
      hrest, hexByte_plusToSpace]
  | case3 rest hshort =>
    match rest, hshort with
    | [], _ => rfl
    | [_], _ => rfl
    | a :: b :: rest, hshort => exact (hshort a b rest rfl).elim
  | case4 rest _ ih =>
    have hrest := ih fun c hc => h c (by simp [hc])
    rw [plusToSpace] at hrest ⊢
    rw [List.map_cons, if_pos rfl, percentBytes_cons (by decide), hrest]
    rfl
  | case5 c rest hpercent hplus ih =>
    have hrest := ih fun d hd => h d (by simp [hd])
    have hascii : utf8 (String.singleton c) = [c.toNat.toUInt8] :=
      utf8_ofList_of_ascii (List.forall_mem_singleton.2 (h c List.mem_cons_self))
    rw [plusToSpace] at hrest ⊢
    rw [List.map_cons, if_neg hplus, percentBytes_cons hpercent, hrest, hascii]
    rfl

theorem percentsComplete_eq (raw : List Char) :
    percentsComplete raw = (decodeComponent raw).isSome := by
  have hhex (d : Char) (h : (Json.hexValue d).isSome = true) : d ≠ '%' := by
    rintro rfl
    cases h
  fun_induction decodeComponent raw with
  | case1 => rfl
  | case2 a b rest ih =>
    rw [percentsComplete, percentsComplete, percentsComplete, ih, hexByte]
    cases ha : Json.hexValue a with
    | none => simp [ha]
    | some m =>
      cases hb : Json.hexValue b with
      | none => simp [hb]
      | some n => simp [ha, hb, hhex a (by rw [ha]; rfl), hhex b (by rw [hb]; rfl)]
  | case3 rest hshort =>
    match rest, hshort with
    | [], _ => rfl
    | [_], _ => rfl
    | a :: b :: rest, hshort => exact (hshort a b rest rfl).elim
  | case4 rest _ ih => simp [percentsComplete, ih]
  | case5 c rest hpercent hplus ih => simp [percentsComplete, ih, hpercent]

/-- On the alphabet of a body a part is decoded as the gate decodes a component. -/
theorem decodePart_eq {raw : List Char} (h : ∀ c ∈ raw, IsAscii c) :
    decodePart raw = match decodeComponent raw with
      | none => .error .percent
      | some bytes =>
        match decodeUtf8 bytes with
        | none => .error .utf8
        | some text => .ok text := by
  rw [decodePart, percentsComplete_eq, decodeURIComponent, percentBytes_eq h]
  cases decodeComponent raw with
  | none => rfl
  | some bytes =>
    change (match decodeUtf8 bytes with
      | none => Except.error FormError.utf8
      | some text => .ok text) = _
    rfl

/-! ## What the gate passes -/

theorem isAscii_of_isBodyChar {c : Char} (h : isBodyChar c = true) : IsAscii c := by
  rw [isBodyChar, Bool.or_eq_true] at h
  rcases h with h | h
  · simp only [Char.isAlphanum, Char.isAlpha, Char.isUpper, Char.isLower, Char.isDigit,
      Bool.or_eq_true, Bool.and_eq_true, decide_eq_true_eq, ge_iff_le, UInt32.le_iff_toNat_le] at h
    have hletters : 'Z'.val.toNat = 90 ∧ 'z'.val.toNat = 122 ∧ '9'.val.toNat = 57 := ⟨rfl, rfl, rfl⟩
    change c.val.toNat < 0x80
    omega
  · exact forall_mem_of_all (p := IsAscii) (by decide) c (List.contains_iff_mem.1 h)

/-- The body of a form, as the gate reads it. -/
theorem decodeUtf8_of_body {body : List UInt8} (h : (latin1 body).all isBodyChar = true) :
    decodeUtf8 body = some (String.ofList (latin1 body)) := by
  rw [decodeUtf8_eq_some, utf8_ofList_of_ascii fun c hc =>
    isAscii_of_isBodyChar (List.all_eq_true.1 h c hc), latin1, List.map_map]
  refine (List.map_congr_left fun b _ => ?_).trans (List.map_id body)
  have hb := b.toNat_lt
  rw [Function.comp_apply, toNat_ofNat (by omega)]
  simp

/-- The components of a field, as the gate decodes them. -/
def decodeComponents (pair : List Char) : Option (List UInt8 × List UInt8) :=
  (decodeComponent (splitField pair).1).bind fun name =>
    (decodeComponent (splitField pair).2).map fun value => (name, value)

/-- A field as the gate decodes it: its name, the bytes of its value and, of a token, the text. -/
structure GateField where
  name : String
  value : List UInt8
  token : Option String
  deriving DecidableEq, Repr

def gateField (pair : List Char) : Option GateField :=
  (decodeComponents pair).bind fun bytes =>
    (textDecoder bytes.1).bind fun name =>
      (textDecoder bytes.2).map fun text =>
        ⟨name, bytes.2, if name = "submissionToken" then some text else none⟩

/-- What the gate decodes of a body, field by field. -/
def gateFields (body : List UInt8) : Option (List GateField) :=
  if latin1 body = [] then some [] else ((latin1 body).splitOn '&').mapM gateField

/-- A field that was read with this name and this value, as the gate would decode it. -/
def asGate (field : String × String) : GateField :=
  ⟨field.1, utf8 field.2, if field.1 = "submissionToken" then some field.2 else none⟩

/-- The gate drops a byte order mark from what it reads of a field: from the name, or from the value of
the token. -/
def Marked (pair : List Char) : Prop :=
  ∃ name value, decodeComponents pair = some (name, value) ∧
    (byteOrderMark <+: name ∨
      textDecoder name = some "submissionToken" ∧ byteOrderMark <+: value)

theorem parseField_eq_ok {seen : List String} {pair : List Char} {name : String}
    (h : parseField seen pair = .ok name) :
    ∃ nameBytes valueBytes value, decodeComponents pair = some (nameBytes, valueBytes) ∧
      textDecoder nameBytes = some name ∧ textDecoder valueBytes = some value ∧
      name ∈ ALLOWED_FORM_FIELDS ∧ name ∉ seen ∧ (name = "submissionToken" → isToken value = true) := by
  unfold parseField at h
  dsimp only at h
  split at h
  · cases h
  · split at h
    · cases h
    · split at h
      · cases h
      · split at h
        · next name' value hname hvalue =>
          obtain ⟨nameBytes, hnameBytes, hname⟩ := Option.bind_eq_some_iff.1 hname
          obtain ⟨valueBytes, hvalueBytes, hvalue⟩ := Option.bind_eq_some_iff.1 hvalue
          split at h
          · cases h
          · next hallowed =>
            split at h
            · cases h
            · next hseen =>
              split at h
              · cases h
              · next htoken =>
                obtain rfl : name' = name := by simpa using h
                refine ⟨nameBytes, valueBytes, value, ?_, hname, hvalue, not_not.1 hallowed, hseen,
                  fun hsubmission => ?_⟩
                · rw [decodeComponents, hnameBytes, hvalueBytes]
                  rfl
                · by_contra hbad
                  exact htoken ⟨hsubmission, hbad⟩
        · cases h

theorem utf8_append (a b : String) : utf8 (a ++ b) = utf8 a ++ utf8 b := by
  simp [utf8, String.toByteArray_append]

/-- A text the decoder gives after a byte order mark is one with the mark too. -/
theorem decodeUtf8_of_textDecoder {bytes : List UInt8} {text : String}
    (h : textDecoder bytes = some text) : ∃ whole, decodeUtf8 bytes = some whole ∧
      (¬ byteOrderMark <+: bytes → whole = text) := by
  unfold textDecoder at h
  split at h
  · next hmark =>
    obtain ⟨rest, rfl⟩ := List.isPrefixOf_iff_prefix.1 hmark
    have hdrop : (byteOrderMark ++ rest).drop 3 = rest := rfl
    rw [hdrop] at h
    have hmark' : utf8 "\uFEFF" = byteOrderMark := by decide
    refine ⟨"\uFEFF" ++ text, decodeUtf8_eq_some.2 ?_, fun hno => absurd (List.prefix_append _ _) hno⟩
    rw [utf8_append, utf8_of_decodeUtf8 h, hmark']
  · exact ⟨text, h, fun _ => rfl⟩

/-- No text the decoder gives back whole starts with a byte order mark. -/
theorem not_marked_of_textDecoder {text : String} (h : textDecoder (utf8 text) = some text) :
    ¬ byteOrderMark <+: utf8 text := by
  intro hmark
  rw [textDecoder, if_pos (List.isPrefixOf_iff_prefix.2 hmark)] at h
  have hlength := congrArg List.length (utf8_of_decodeUtf8 h)
  have hthree : byteOrderMark.length = 3 := rfl
  have hle := hmark.length_le
  rw [List.length_drop] at hlength
  omega

/-- What the application reads of a field the gate passes: the same, unless the gate drops a mark. -/
theorem decodeField_of_parseField {seen : List String} {pair : List Char} {name : String}
    (hascii : ∀ c ∈ pair, IsAscii c) (h : parseField seen pair = .ok name)
    (hunmarked : ¬ Marked pair) :
    ∃ value, decodeField pair = .ok (name, value) ∧ gateField pair = some (asGate (name, value)) := by
  obtain ⟨nameBytes, valueBytes, text, hcomponents, hname, htext, -, -, -⟩ := parseField_eq_ok h
  obtain ⟨wholeName, hwholeName, hsameName⟩ := decodeUtf8_of_textDecoder hname
  obtain ⟨wholeText, hwholeText, hsameText⟩ := decodeUtf8_of_textDecoder htext
  obtain rfl := hsameName fun hmark => hunmarked ⟨nameBytes, valueBytes, hcomponents, .inl hmark⟩
  have htoken : wholeName = "submissionToken" → wholeText = text := fun hsubmission =>
    hsameText fun hmark =>
      hunmarked ⟨nameBytes, valueBytes, hcomponents, .inr ⟨hsubmission ▸ hname, hmark⟩⟩
  refine ⟨wholeText, ?_, ?_⟩
  · rw [decodeComponents] at hcomponents
    obtain ⟨nameBytes', hnameBytes, hrest⟩ := Option.bind_eq_some_iff.1 hcomponents
    obtain ⟨valueBytes', hvalueBytes, hpair⟩ := Option.map_eq_some_iff.1 hrest
    obtain ⟨rfl, rfl⟩ : nameBytes' = nameBytes ∧ valueBytes' = valueBytes := by simpa using hpair
    have hnameAscii : ∀ c ∈ (splitField pair).1, IsAscii c := fun c hc =>
      hascii c ((List.takeWhile_prefix _).subset hc)
    have hvalueAscii : ∀ c ∈ (splitField pair).2, IsAscii c := fun c hc =>
      hascii c ((List.dropWhile_suffix _).subset ((List.drop_suffix _ _).subset hc))
    rw [decodeField, decodePart_eq hnameAscii, decodePart_eq hvalueAscii, hnameBytes, hvalueBytes]
    simp only [hwholeName, hwholeText]
    rfl
  · rw [gateField, hcomponents, Option.bind_some, hname, Option.bind_some, htext, Option.map_some,
      asGate, utf8_of_decodeUtf8 hwholeText]
    by_cases hsubmission : wholeName = "submissionToken"
    · rw [if_pos hsubmission, if_pos hsubmission, htoken hsubmission]
    · rw [if_neg hsubmission, if_neg hsubmission]

/-- A field the gate decodes as it is has no mark on its token. -/
theorem not_marked_of_gateField {pair : List Char} {name value : List UInt8} {field : String × String}
    (h : gateField pair = some (asGate field)) (hbytes : decodeComponents pair = some (name, value))
    (hname : textDecoder name = some "submissionToken") : ¬ byteOrderMark <+: value := by
  rw [gateField, hbytes, Option.bind_some, hname, Option.bind_some] at h
  obtain ⟨text, htext, heq⟩ := Option.map_eq_some_iff.1 h
  rw [asGate, GateField.mk.injEq] at heq
  obtain ⟨hfield, rfl, htoken⟩ := heq
  rw [if_pos rfl, if_pos hfield.symm, Option.some.injEq] at htoken
  exact not_marked_of_textDecoder (htoken ▸ htext)

theorem formFields_cons {form : Fields} {pair : List Char} {field : String × String}
    (h : decodeField pair = .ok field) (pairs : List (List Char)) :
    formFields form (pair :: pairs) =
      if field.1 ∉ allowedFields then .error .field
      else if field.1 ∈ form.map Prod.fst then .error .duplicate
      else formFields (form ++ [field]) pairs := by
  rw [formFields, h]
  rfl

/-- **Fields the gate passes are read as it decoded them**, when it drops no mark. -/
theorem formFields_of_parseFields {seen : List String} {form : Fields} {pairs : List (List Char)}
    (hascii : ∀ pair ∈ pairs, ∀ c ∈ pair, IsAscii c) (hseen : ∀ name ∈ form.map Prod.fst, name ∈ seen)
    (h : parseFields seen pairs = .pass) (hunmarked : ∀ pair ∈ pairs, ¬ Marked pair) :
    ∃ fields, formFields form pairs = .ok (form ++ fields) ∧
      pairs.mapM gateField = some (fields.map asGate) := by
  induction pairs generalizing seen form with
  | nil => exact ⟨[], by rw [formFields, List.append_nil], rfl⟩
  | cons pair pairs ih =>
    rw [parseFields] at h
    cases hfield : parseField seen pair with
    | error reason =>
      rw [hfield] at h
      cases h
    | ok name =>
      rw [hfield] at h
      obtain ⟨value, hdecoded, hgate⟩ := decodeField_of_parseField (hascii pair List.mem_cons_self)
        hfield (hunmarked pair List.mem_cons_self)
      obtain ⟨-, -, -, -, -, -, hallowed, hnew, -⟩ := parseField_eq_ok hfield
      have hseen' : ∀ name' ∈ (form ++ [(name, value)]).map Prod.fst, name' ∈ name :: seen := by
        intro name' hname
        rw [List.map_append, List.mem_append] at hname
        rcases hname with hname | hname
        · exact List.mem_cons_of_mem _ (hseen name' hname)
        · rw [List.map_singleton, List.mem_singleton] at hname
          exact hname ▸ List.mem_cons_self
      obtain ⟨fields, hform, hall⟩ := ih (fun p hp => hascii p (List.mem_cons_of_mem _ hp)) hseen' h
        fun p hp => hunmarked p (List.mem_cons_of_mem _ hp)
      refine ⟨(name, value) :: fields, ?_, ?_⟩
      · have hknown : name ∈ allowedFields := hallowed
        rw [formFields_cons hdecoded, if_neg (not_not.2 hknown),
          if_neg fun hmem => hnew (hseen _ hmem), hform, List.append_assoc]
        rfl
      · rw [List.mapM_cons, hgate, hall]
        rfl

theorem decodePart_eq_ok {raw : List Char} (hascii : ∀ c ∈ raw, IsAscii c) {text : String}
    (h : decodePart raw = .ok text) : decodeComponent raw = some (utf8 text) := by
  rw [decodePart_eq hascii] at h
  split at h
  · cases h
  · next bytes hbytes =>
    split at h
    · cases h
    · next whole hwhole =>
      obtain rfl : whole = text := by simpa using h
      rw [hbytes, utf8_of_decodeUtf8 hwhole]

theorem decodeField_eq_ok {pair : List Char} (hascii : ∀ c ∈ pair, IsAscii c)
    {field : String × String} (h : decodeField pair = .ok field) :
    decodeComponent (splitField pair).1 = some (utf8 field.1) ∧
      decodeComponent (splitField pair).2 = some (utf8 field.2) := by
  have hnameAscii : ∀ c ∈ (splitField pair).1, IsAscii c := fun c hc =>
    hascii c ((List.takeWhile_prefix _).subset hc)
  have hvalueAscii : ∀ c ∈ (splitField pair).2, IsAscii c := fun c hc =>
    hascii c ((List.dropWhile_suffix _).subset ((List.drop_suffix _ _).subset hc))
  rw [decodeField] at h
  cases hname : decodePart (splitField pair).1 with
  | error e =>
    rw [hname] at h
    cases h
  | ok name =>
    cases hvalue : decodePart (splitField pair).2 with
    | error e =>
      rw [hname, hvalue] at h
      cases h
    | ok value =>
      rw [hname, hvalue] at h
      change Except.ok (name, value) = Except.ok field at h
      obtain rfl := Except.ok.inj h
      exact ⟨decodePart_eq_ok hnameAscii hname, decodePart_eq_ok hvalueAscii hvalue⟩

/-- What the application accepts: every field is decoded and has an allowed name of its own. -/
theorem formFields_eq_ok {form fields : Fields} {pairs : List (List Char)}
    (h : formFields form pairs = .ok fields) :
    ∃ decoded, fields = form ++ decoded ∧
      List.Forall₂ (fun pair field => decodeField pair = .ok field) pairs decoded ∧
      (∀ field ∈ decoded, field.1 ∈ allowedFields) ∧
      ((form.map Prod.fst).Nodup → (fields.map Prod.fst).Nodup) := by
  induction pairs generalizing form with
  | nil =>
    obtain rfl : form = fields := by simpa [formFields] using h
    exact ⟨[], (List.append_nil _).symm, .nil, fun _ hmem => absurd hmem List.not_mem_nil, id⟩
  | cons pair pairs ih =>
    cases hfield : decodeField pair with
    | error e =>
      rw [formFields, hfield] at h
      cases h
    | ok field =>
      rw [formFields_cons hfield] at h
      split at h
      · cases h
      · next hallowed =>
        split at h
        · cases h
        · next hnew =>
          obtain ⟨decoded, rfl, hforall, hall, hnodup⟩ := ih h
          refine ⟨field :: decoded, by simp, .cons hfield hforall,
            List.forall_mem_cons.2 ⟨not_not.1 hallowed, hall⟩, fun hform => hnodup ?_⟩
          rw [List.map_append, List.map_singleton, List.nodup_append]
          exact ⟨hform, List.nodup_singleton _, fun a ha b hb hab =>
            hnew (List.mem_singleton.1 hb ▸ hab ▸ ha)⟩

theorem parseStrictUrlEncodedForm_eq {body : List UInt8} (h : (latin1 body).all isBodyChar = true) :
    parseStrictUrlEncodedForm body =
      if latin1 body = [] then .ok [] else formFields [] ((latin1 body).splitOn '&') := by
  rw [parseStrictUrlEncodedForm, decodeUtf8_of_body h]
  have hempty : String.ofList (latin1 body) = "" ↔ latin1 body = [] := by
    rw [← String.toList_inj, String.toList_ofList]
    rfl
  simp only [hempty, String.toList_ofList]

/-- What the gate has checked of a form. -/
theorem parseForm_eq_pass {body : List UInt8} (h : parseForm body = .pass) :
    (latin1 body).all isBodyChar = true ∧
      (latin1 body ≠ [] → parseFields [] ((latin1 body).splitOn '&') = .pass) := by
  unfold parseForm at h
  dsimp only at h
  split at h
  · cases h
  · next hbody =>
    rw [not_not] at hbody
    split at h
    · next hnil => exact ⟨hbody, fun hne => absurd hnil hne⟩
    · split at h
      · cases h
      · exact ⟨hbody, fun _ => h⟩

theorem isAscii_of_mem_splitOn {text : List Char} (h : text.all isBodyChar = true) :
    ∀ pair ∈ text.splitOn '&', ∀ c ∈ pair, IsAscii c := by
  intro pair hpair c hc
  have hmem : c ∈ ['&'].intercalate (text.splitOn '&') := mem_intercalate_of_mem hpair hc
  rw [List.intercalate_splitOn] at hmem
  exact isAscii_of_isBodyChar (List.all_eq_true.1 h c hmem)

/-- The gate drops a byte order mark from what it reads of a body. -/
def MarkedBody (body : List UInt8) : Prop :=
  latin1 body ≠ [] ∧ ∃ pair ∈ (latin1 body).splitOn '&', Marked pair

theorem allowed_unmarked : ∀ name ∈ allowedFields, ¬ byteOrderMark <+: utf8 name := by
  have hall : (allowedFields.all fun name => !byteOrderMark.isPrefixOf (utf8 name)) = true := by
    decide
  intro name hname hmark
  have hno := List.all_eq_true.1 hall name hname
  rw [List.isPrefixOf_iff_prefix.2 hmark] at hno
  cases hno

/-- What the readers read as the gate decoded it has lost no mark. -/
theorem unmarked_of_reread {body : List UInt8} {fields : Fields} (h : parseForm body = .pass)
    (happ : parseStrictUrlEncodedForm body = .ok fields)
    (hgate : gateFields body = some (fields.map asGate)) : ¬ MarkedBody body := by
  obtain ⟨hbody, -⟩ := parseForm_eq_pass h
  rintro ⟨hnil, pair, hpair, name, value, hbytes, hmark | ⟨hname, hmark⟩⟩
  · rw [parseStrictUrlEncodedForm_eq hbody, if_neg hnil] at happ
    obtain ⟨decoded, -, hforall, hallowed, -⟩ := formFields_eq_ok happ
    obtain ⟨field, hmem, hfield⟩ := exists_of_forall₂ hforall hpair
    obtain ⟨hdecoded, -⟩ := decodeField_eq_ok (isAscii_of_mem_splitOn hbody pair hpair) hfield
    rw [decodeComponents, hdecoded, Option.bind_some] at hbytes
    obtain ⟨value', -, heq⟩ := Option.map_eq_some_iff.1 hbytes
    obtain ⟨rfl, -⟩ := Prod.mk.inj heq
    exact allowed_unmarked field.1 (hallowed field hmem) hmark
  · rw [gateFields, if_neg hnil] at hgate
    obtain ⟨gate, hgate, hfield⟩ := exists_of_forall₂ (mapM_eq_some_iff.1 hgate) hpair
    obtain ⟨field, -, rfl⟩ := List.mem_map.1 hgate
    exact not_marked_of_gateField hfield hbytes hname hmark

/-- What has lost no mark is read by both readers as the gate decoded it. -/
theorem reread_of_unmarked {body : List UInt8} (h : parseForm body = .pass)
    (hunmarked : ¬ MarkedBody body) :
    ∃ fields, parseStrictUrlEncodedForm body = .ok fields ∧ parseStrictForm body = some fields ∧
      gateFields body = some (fields.map asGate) := by
  obtain ⟨hbody, hpass⟩ := parseForm_eq_pass h
  rw [parseStrictForm_eq, parseStrictUrlEncodedForm_eq hbody, gateFields]
  by_cases hnil : latin1 body = []
  · simp only [hnil, if_true]
    exact ⟨[], rfl, rfl, rfl⟩
  · simp only [hnil, if_false]
    have hseen : ∀ name ∈ ([] : Fields).map Prod.fst, name ∈ ([] : List String) :=
      fun _ hmem => absurd hmem List.not_mem_nil
    obtain ⟨fields, hform, hgate⟩ := formFields_of_parseFields (isAscii_of_mem_splitOn hbody) hseen
      (hpass hnil) fun pair hpair hmark => hunmarked ⟨hnil, pair, hpair, hmark⟩
    rw [List.nil_append] at hform
    exact ⟨fields, hform, by rw [hform]; rfl, hgate⟩

/-- **A body the gate passes is read by the application and by the origin as the gate decoded it exactly
when the gate drops no byte order mark** from a name or from the token. -/
theorem admitted_reread_iff {body : List UInt8} (h : parseForm body = .pass) :
    (∃ fields, parseStrictUrlEncodedForm body = .ok fields ∧ parseStrictForm body = some fields ∧
      gateFields body = some (fields.map asGate)) ↔
    ¬ MarkedBody body := by
  constructor
  · rintro ⟨fields, happ, -, hgate⟩
    exact unmarked_of_reread h happ hgate
  · exact reread_of_unmarked h

theorem admitted_reread_iff_name :
    (∃ fields, parseStrictUrlEncodedForm (asciiBytes "name=Ada+L") = .ok fields ∧
      parseStrictForm (asciiBytes "name=Ada+L") = some fields ∧
      gateFields (asciiBytes "name=Ada+L") = some (fields.map asGate)) ↔
    ¬ MarkedBody (asciiBytes "name=Ada+L") :=
  admitted_reread_iff (by decide +kernel)

/-- A token of the right form. -/
def sampleToken : String := String.ofList (List.replicate 43 'A')

/-- The gate passes a name with a byte order mark, which the application and the origin refuse, and a
token with one, of which they read one character more than the gate. -/
theorem marked_reread :
    (parseForm (asciiBytes "%EF%BB%BFname=Ada") = .pass ∧
      parseStrictUrlEncodedForm (asciiBytes "%EF%BB%BFname=Ada") = .error .field ∧
      parseStrictForm (asciiBytes "%EF%BB%BFname=Ada") = none) ∧
    parseForm (asciiBytes ("submissionToken=%EF%BB%BF" ++ sampleToken)) = .pass ∧
    gateFields (asciiBytes ("submissionToken=%EF%BB%BF" ++ sampleToken)) =
      some [⟨"submissionToken", byteOrderMark ++ utf8 sampleToken, some sampleToken⟩] ∧
    parseStrictUrlEncodedForm (asciiBytes ("submissionToken=%EF%BB%BF" ++ sampleToken)) =
      .ok [("submissionToken", "\uFEFF" ++ sampleToken)] ∧
    parseStrictForm (asciiBytes ("submissionToken=%EF%BB%BF" ++ sampleToken)) =
      some [("submissionToken", "\uFEFF" ++ sampleToken)] := by
  refine ⟨⟨?_, ?_, ?_⟩, ?_, ?_, ?_, ?_⟩ <;> decide +kernel

end Limitmark.PublicInquiry
