import Limitmark.PublicInquiry.FormBody

/-!
# The token of a form

The lanes look for the submission token in the raw fields of a body (`extractSubmissionToken`), the
application in the fields it has decoded. In a body the shape gate passes the two agree
(`token_agrees`): what the lanes find is the token of the application, and they find it whenever its
field is spelled without escapes.
-/

namespace Limitmark.PublicInquiry

open Limitmark.Defense Limitmark.Foundations Limitmark.Lanes Limitmark.Plane Limitmark.Plane.ShapeGate

/-- The token of a form the application has read. -/
def tokenOf (fields : Fields) : Option String :=
  (fields.find? fun field => field.1 = "submissionToken").map Prod.snd

/-- The field of the token, with its name and its value as they are. -/
def SpelledPlainly (body : List UInt8) (token : String) : Prop :=
  TOKEN_FIELD ++ utf8 token ∈ body.splitOn 38

/-! ## The scan of the lanes -/

/-- The values of the raw fields of the token. -/
def tokenValues (fields : List (List UInt8)) : List (List UInt8) :=
  fields.filterMap fun field => field.dropPrefix? TOKEN_FIELD

theorem scanFields_some {found token : List UInt8} {fields : List (List UInt8)} :
    scanFields (some found) fields = some token ↔ tokenValues fields = [] ∧ found = token := by
  induction fields with
  | nil => simp [scanFields, tokenValues]
  | cons field fields ih =>
    rw [scanFields]
    cases hfield : field.dropPrefix? TOKEN_FIELD with
    | none =>
      rw [tokenValues, List.filterMap_cons, hfield]
      exact ih
    | some value => simp [tokenValues, hfield]

theorem scanFields_none {token : List UInt8} {fields : List (List UInt8)} :
    scanFields none fields = some token ↔
      tokenValues fields = [token] ∧ isTokenValue token = true := by
  induction fields with
  | nil => simp [scanFields, tokenValues]
  | cons field fields ih =>
    rw [scanFields]
    cases hfield : field.dropPrefix? TOKEN_FIELD with
    | none =>
      rw [tokenValues, List.filterMap_cons, hfield]
      exact ih
    | some value =>
      have hvalues : tokenValues (field :: fields) = value :: tokenValues fields :=
        List.filterMap_cons_some hfield
      rw [hvalues, List.cons.injEq]
      dsimp only
      rw [if_neg (by simp), Option.ite_none_right_eq_some, scanFields_some]
      constructor
      · rintro ⟨hvalue, hnil, rfl⟩
        exact ⟨⟨rfl, hnil⟩, hvalue⟩
      · rintro ⟨⟨rfl, hnil⟩, hvalue⟩
        exact ⟨hvalue, hnil, rfl⟩

theorem mem_tokenValues {fields : List (List UInt8)} {value : List UInt8} :
    value ∈ tokenValues fields ↔ TOKEN_FIELD ++ value ∈ fields := by
  rw [tokenValues, List.mem_filterMap]
  constructor
  · rintro ⟨field, hmem, hfield⟩
    obtain ⟨start, rfl, hstart⟩ := List.dropPrefix?_eq_some_iff.1 hfield
    rwa [← beq_iff_eq.1 hstart]
  · intro hmem
    exact ⟨_, hmem, List.dropPrefix?_append_of_beq _ (by simp)⟩

/-! ## A raw field, decoded -/

theorem ofNat_toNat_inj {a b : UInt8} (h : Char.ofNat a.toNat = Char.ofNat b.toNat) : a = b := by
  have ha := a.toNat_lt
  have hb := b.toNat_lt
  have htoNat := congrArg Char.toNat h
  rw [toNat_ofNat (by omega), toNat_ofNat (by omega)] at htoNat
  exact UInt8.toNat_inj.1 htoNat

/-- The fields of the text are those of the bytes. -/
theorem splitOn_latin1 (body : List UInt8) :
    (latin1 body).splitOn '&' = (body.splitOn 38).map latin1 :=
  splitOn_map (fun b : UInt8 => Char.ofNat b.toNat) 38 (fun _ h => ofNat_toNat_inj h) body

theorem splitField_token (value : List UInt8) :
    splitField (latin1 (TOKEN_FIELD ++ value)) = ("submissionToken".toList, latin1 value) := by
  have hlatin1 : latin1 TOKEN_FIELD = "submissionToken=".toList := by decide
  rw [latin1, List.map_append, ← latin1, ← latin1, hlatin1]
  rfl

theorem decodeComponent_cons {c : Char} (hpercent : c ≠ '%') (hplus : c ≠ '+') (rest : List Char) :
    decodeComponent (c :: rest) = (decodeComponent rest).map (c.toNat.toUInt8 :: ·) := by
  match rest with
  | [] => simp [decodeComponent, hpercent, hplus]
  | [_] => simp [decodeComponent, hpercent, hplus]
  | _ :: _ :: _ => simp [decodeComponent, hpercent, hplus]

/-- The value of a token stands for itself. -/
theorem decodeComponent_token {value : List UInt8} (h : isTokenValue value = true) :
    decodeComponent (latin1 value) = some value := by
  rw [isTokenValue, Bool.and_eq_true] at h
  have hall := List.all_eq_true.1 h.2
  clear h
  induction value with
  | nil => rfl
  | cons b value ih =>
    have hb := hall b List.mem_cons_self
    have hpercent : Char.ofNat b.toNat ≠ '%' := by
      intro hc
      rw [hc] at hb
      exact absurd hb (by decide)
    have hplus : Char.ofNat b.toNat ≠ '+' := by
      intro hc
      rw [hc] at hb
      exact absurd hb (by decide)
    have hlt := b.toNat_lt
    rw [latin1, List.map_cons, decodeComponent_cons hpercent hplus, ← latin1,
      ih fun c hc => hall c (List.mem_cons_of_mem _ hc), toNat_ofNat (by omega)]
    simp

/-! ## What the application reads of a token -/

section

variable {body : List UInt8} {fields : Fields}

/-- The fields of a body the gate passes, as the application reads them: raw field by raw field. -/
theorem fields_of_body (hpass : parseForm body = .pass)
    (happ : parseStrictUrlEncodedForm body = .ok fields) (hne : body ≠ []) :
    List.Forall₂ (fun raw field => decodeField (latin1 raw) = .ok field) (body.splitOn 38) fields ∧
      (fields.map Prod.fst).Nodup := by
  obtain ⟨hbody, -⟩ := parseForm_eq_pass hpass
  have hnil : latin1 body ≠ [] := fun h => hne (List.map_eq_nil_iff.1 h)
  rw [parseStrictUrlEncodedForm_eq hbody, if_neg hnil, splitOn_latin1] at happ
  obtain ⟨decoded, rfl, hforall, -, hnodup⟩ := formFields_eq_ok happ
  exact ⟨List.forall₂_map_left_iff.1 hforall, hnodup List.nodup_nil⟩

theorem ascii_of_body (hpass : parseForm body = .pass) {raw : List UInt8}
    (hraw : raw ∈ body.splitOn 38) : ∀ c ∈ latin1 raw, IsAscii c := by
  refine isAscii_of_mem_splitOn (parseForm_eq_pass hpass).1 (latin1 raw) ?_
  rw [splitOn_latin1]
  exact List.mem_map_of_mem hraw

/-- A raw field of the token is read as a field of the token, whose value decodes the raw one. -/
theorem decodeField_token {value : List UInt8} {field : String × String}
    (hascii : ∀ c ∈ latin1 (TOKEN_FIELD ++ value), IsAscii c)
    (h : decodeField (latin1 (TOKEN_FIELD ++ value)) = .ok field) :
    field.1 = "submissionToken" ∧ decodeComponent (latin1 value) = some (utf8 field.2) := by
  obtain ⟨hname, hvalue⟩ := decodeField_eq_ok hascii h
  rw [splitField_token] at hname hvalue
  have htoken : decodeComponent "submissionToken".toList = some (utf8 "submissionToken") := by
    decide +kernel
  exact ⟨utf8_injective (Option.some.inj (hname.symm.trans htoken)), hvalue⟩

/-- The field of the token is the only one of its name. -/
theorem tokenOf_of_mem (hnodup : (fields.map Prod.fst).Nodup) {field : String × String}
    (hmem : field ∈ fields) (hname : field.1 = "submissionToken") :
    tokenOf fields = some field.2 := by
  induction fields with
  | nil => cases hmem
  | cons first fields ih =>
    rw [List.map_cons, List.nodup_cons] at hnodup
    rw [tokenOf, List.find?_cons]
    rcases List.mem_cons.1 hmem with rfl | hmem
    · simp [hname]
    · have hfirst : first.1 ≠ "submissionToken" := fun h =>
        hnodup.1 (h ▸ hname ▸ List.mem_map_of_mem hmem)
      rw [decide_eq_false hfirst]
      exact ih hnodup.2 hmem

/-- There are no more raw fields of the token than fields of its name. -/
theorem length_tokenValues_le {raws : List (List UInt8)}
    (hascii : ∀ raw ∈ raws, ∀ c ∈ latin1 raw, IsAscii c)
    (h : List.Forall₂ (fun raw field => decodeField (latin1 raw) = .ok field) raws fields) :
    (tokenValues raws).length ≤ (fields.map Prod.fst).count "submissionToken" := by
  induction h with
  | nil => exact le_rfl
  | @cons raw field raws fields hfield _ ih =>
    have hrest := ih fun r hr => hascii r (List.mem_cons_of_mem _ hr)
    rw [List.map_cons, List.count_cons]
    cases hraw : raw.dropPrefix? TOKEN_FIELD with
    | none =>
      have hvalues : tokenValues (raw :: raws) = tokenValues raws := List.filterMap_cons_none hraw
      rw [hvalues]
      omega
    | some value =>
      have hvalues : tokenValues (raw :: raws) = value :: tokenValues raws :=
        List.filterMap_cons_some hraw
      obtain ⟨start, rfl, hstart⟩ := List.dropPrefix?_eq_some_iff.1 hraw
      rw [beq_iff_eq.1 hstart] at hfield hascii
      obtain ⟨hname, -⟩ := decodeField_token (hascii _ List.mem_cons_self) hfield
      rw [hvalues, List.length_cons, hname, beq_self_eq_true, if_pos rfl]
      omega

end

/-! ## What the gate has checked of a token -/

/-- Every field of a form the gate passes has passed its own check. -/
theorem parseField_of_mem {seen : List String} {pairs : List (List Char)}
    (h : parseFields seen pairs = .pass) {pair : List Char} (hmem : pair ∈ pairs) :
    ∃ seen name, parseField seen pair = .ok name := by
  induction pairs generalizing seen with
  | nil => cases hmem
  | cons first pairs ih =>
    rw [parseFields] at h
    cases hfirst : parseField seen first with
    | error reason =>
      rw [hfirst] at h
      cases h
    | ok name =>
      rw [hfirst] at h
      rcases List.mem_cons.1 hmem with rfl | hmem
      · exact ⟨seen, name, hfirst⟩
      · exact ih h hmem

theorem isTokenValue_utf8 {text : String} (h : isToken text = true) :
    isTokenValue (utf8 text) = true := by
  rw [isToken, Bool.and_eq_true, decide_eq_true_eq] at h
  have hall := List.all_eq_true.1 h.2
  have hascii : ∀ c ∈ text.toList, IsAscii c := fun c hc =>
    forall_mem_of_all (p := IsAscii) (by decide) c (List.contains_iff_mem.1 (hall c hc))
  have hbytes := utf8_ofList_of_ascii hascii
  rw [String.ofList_toList] at hbytes
  rw [hbytes, isTokenValue, Bool.and_eq_true, decide_eq_true_eq, List.length_map,
    String.length_toList]
  refine ⟨h.1, List.all_eq_true.2 fun b hb => ?_⟩
  obtain ⟨c, hc, rfl⟩ := List.mem_map.1 hb
  have hlt : c.toNat < 0x80 := hascii c hc
  have hc' : Char.ofNat c.toNat.toUInt8.toNat = c := by
    rw [Nat.toUInt8_eq, UInt8.toNat_ofNat', Nat.mod_eq_of_lt (by omega)]
    exact Char.ofNat_toNat c
  rw [hc']
  exact hall c hc

/-- The gate finds a token in every raw field of the token whose value stands for itself. -/
theorem isTokenValue_of_body {body : List UInt8} (hpass : parseForm body = .pass) (hne : body ≠ [])
    {text : String} (hraw : TOKEN_FIELD ++ utf8 text ∈ body.splitOn 38)
    (hplain : decodeComponent (latin1 (utf8 text)) = some (utf8 text)) :
    isTokenValue (utf8 text) = true := by
  have hnil : latin1 body ≠ [] := fun h => hne (List.map_eq_nil_iff.1 h)
  have hascii := ascii_of_body hpass hraw
  have hmem : latin1 (TOKEN_FIELD ++ utf8 text) ∈ (latin1 body).splitOn '&' := by
    rw [splitOn_latin1]
    exact List.mem_map_of_mem hraw
  obtain ⟨seen, name, hfield⟩ := parseField_of_mem ((parseForm_eq_pass hpass).2 hnil) hmem
  obtain ⟨nameBytes, valueBytes, value, hcomponents, hname, hvalue, -, -, htoken⟩ :=
    parseField_eq_ok hfield
  have hdecoded : decodeComponents (latin1 (TOKEN_FIELD ++ utf8 text)) =
      some (utf8 "submissionToken", utf8 text) := by
    have hplainName : decodeComponent "submissionToken".toList = some (utf8 "submissionToken") := by
      decide +kernel
    rw [decodeComponents, splitField_token, hplainName, hplain]
    rfl
  rw [hdecoded, Option.some.injEq, Prod.mk.injEq] at hcomponents
  obtain ⟨rfl, rfl⟩ := hcomponents
  have hsubmission : name = "submissionToken" := by
    have hread : textDecoder (utf8 "submissionToken") = some "submissionToken" := by decide
    exact Option.some.inj (hname.symm.trans hread)
  -- The raw value is ASCII, so the decoder has no byte order mark to drop.
  have hunmarked : ¬ byteOrderMark <+: utf8 text := by
    rintro ⟨rest, hrest⟩
    have hmark : Char.ofNat (0xEF : UInt8).toNat ∈ latin1 (TOKEN_FIELD ++ utf8 text) := by
      refine List.mem_map_of_mem (List.mem_append_right _ ?_)
      rw [← hrest]
      exact List.mem_cons_self
    exact absurd (hascii _ hmark) (by decide)
  obtain ⟨whole, hwhole, hsame⟩ := decodeUtf8_of_textDecoder hvalue
  rw [decodeUtf8_utf8, Option.some.injEq] at hwhole
  rw [hwhole, hsame hunmarked]
  exact isTokenValue_utf8 (htoken hsubmission)

/-- The lanes scan the raw fields of a form that has come whole. -/
theorem extractSubmissionToken_eq {request : LayerRequest} {body : List UInt8}
    (hmethod : request.method = "POST") (hcomplete : request.bodyStatus = .complete)
    (hbody : request.body = some body) :
    extractSubmissionToken request = scanFields none (body.splitOn 38) := by
  rw [extractSubmissionToken, if_pos ⟨hmethod, hcomplete⟩, hbody]
  rfl

theorem ne_nil_of_token {body value : List UInt8} (h : TOKEN_FIELD ++ value ∈ body.splitOn 38) :
    body ≠ [] := by
  rintro rfl
  rw [List.splitOn_nil, List.mem_singleton] at h
  exact absurd (List.append_eq_nil_iff.1 h).1 (by decide)

/-- What the lanes find is the token the application reads. -/
theorem tokenOf_of_scan {body t : List UInt8} {fields : Fields} (hpass : parseForm body = .pass)
    (happ : parseStrictUrlEncodedForm body = .ok fields)
    (ht : scanFields none (body.splitOn 38) = some t) :
    ∃ text, tokenOf fields = some text ∧ utf8 text = t := by
  obtain ⟨hvalues, ht⟩ := scanFields_none.1 ht
  have hraw : TOKEN_FIELD ++ t ∈ body.splitOn 38 :=
    mem_tokenValues.1 (hvalues ▸ List.mem_singleton_self t)
  obtain ⟨hfields, hnodup⟩ := fields_of_body hpass happ (ne_nil_of_token hraw)
  obtain ⟨field, hmem, hfield⟩ := exists_of_forall₂ hfields hraw
  obtain ⟨hname, hvalue⟩ := decodeField_token (ascii_of_body hpass hraw) hfield
  rw [decodeComponent_token ht, Option.some.injEq] at hvalue
  exact ⟨field.2, tokenOf_of_mem hnodup hmem hname, hvalue.symm⟩

/-- The lanes find the token the application reads, when its field is spelled without escapes. -/
theorem scan_of_tokenOf {body : List UInt8} {fields : Fields} {text : String}
    (hpass : parseForm body = .pass) (happ : parseStrictUrlEncodedForm body = .ok fields)
    (htext : tokenOf fields = some text) (hraw : SpelledPlainly body text) :
    scanFields none (body.splitOn 38) = some (utf8 text) := by
  obtain ⟨hfields, hnodup⟩ := fields_of_body hpass happ (ne_nil_of_token hraw)
  obtain ⟨field, hmem, hfield⟩ := exists_of_forall₂ hfields hraw
  obtain ⟨hname, hvalue⟩ := decodeField_token (ascii_of_body hpass hraw) hfield
  have hsame : field.2 = text :=
    Option.some.inj ((tokenOf_of_mem hnodup hmem hname).symm.trans htext)
  rw [hsame] at hvalue
  have hlength := (length_tokenValues_le (fun raw hraw => ascii_of_body hpass hraw) hfields).trans
    (List.nodup_iff_count_le_one.1 hnodup _)
  refine scanFields_none.2 ⟨?_, isTokenValue_of_body hpass (ne_nil_of_token hraw) hraw hvalue⟩
  exact eq_singleton_of_mem (mem_tokenValues.2 hraw) hlength

/-- **In a body the gate passes the lanes and the application agree on the token**: what the lanes find
is the token the application reads, and they find it when its field is spelled without escapes. -/
theorem token_agrees {request : LayerRequest} {body : List UInt8} {fields : Fields}
    (hmethod : request.method = "POST") (hcomplete : request.bodyStatus = .complete)
    (hbody : request.body = some body) (hpass : parseForm body = .pass)
    (happ : parseStrictUrlEncodedForm body = .ok fields) :
    (∀ t, extractSubmissionToken request = some t →
      ∃ text, tokenOf fields = some text ∧ utf8 text = t) ∧
    (∀ text, tokenOf fields = some text → SpelledPlainly body text →
      extractSubmissionToken request = some (utf8 text)) := by
  rw [extractSubmissionToken_eq hmethod hcomplete hbody]
  constructor
  · intro t ht
    exact tokenOf_of_scan hpass happ ht
  · intro text htext hraw
    exact scan_of_tokenOf hpass happ htext hraw

theorem token_agrees_sampleToken :
    (∀ t, extractSubmissionToken (JourneyLanes.samplePost (asciiBytes sampleToken)) = some t →
      ∃ text, tokenOf [("submissionToken", sampleToken)] = some text ∧ utf8 text = t) ∧
    (∀ text, tokenOf [("submissionToken", sampleToken)] = some text →
      SpelledPlainly (TOKEN_FIELD ++ asciiBytes sampleToken) text →
      extractSubmissionToken (JourneyLanes.samplePost (asciiBytes sampleToken)) =
        some (utf8 text)) :=
  token_agrees rfl rfl rfl (by decide +kernel) (by decide +kernel)

end Limitmark.PublicInquiry
