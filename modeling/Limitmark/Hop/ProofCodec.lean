import Mathlib
import Limitmark.Foundations.JsonRoundTrip
import Limitmark.Hop.HopProof

/-!
# The codec of the hop proofs

The issuing side of `defense/core/hop-proof.ts`: the payload of a proof is the JSON text of its
claims, and a proof is the payload and its signature, each in base64url, with a dot between them.

The strict decoder accepts exactly the envelopes of well-formed claims that are no longer than its
limit (`decodeProof_eq_ok`). All it needs of the platform is that a payload is read as the value it
is the text of (`ReadsJson`), which is so of the parser of the JSON library (`readsJson_parsePayload`).
-/

namespace Limitmark.Hop

open Limitmark.Defense Limitmark.Plane Limitmark.Foundations

/-! ## Values and their texts -/

mutual

/-- A value, in the JSON library. -/
def Json.value : Json → Foundations.Json
  | .null => .null
  | .bool b => .bool b
  | .num q => .num q
  | .str s => .text s
  | .arr values => .arr (Json.valueAll values)
  | .obj members => .obj (Json.valueMembers members)

def Json.valueAll : List Json → List Foundations.Json
  | [] => []
  | v :: rest => v.value :: Json.valueAll rest

def Json.valueMembers : List (String × Json) → List (JsString × Foundations.Json)
  | [] => []
  | (key, v) :: rest => (.ofString key, v.value) :: Json.valueMembers rest

end

mutual

/-- A value the serialiser writes exactly: no fraction, no unsafe number and no object. -/
def Json.IsPlain : Json → Prop
  | .num q => q.den = 1 ∧ |q.num| ≤ MAX_SAFE_INTEGER
  | .arr values => Json.ArePlain values
  | .obj _ => False
  | _ => True

def Json.ArePlain : List Json → Prop
  | [] => True
  | v :: rest => v.IsPlain ∧ Json.ArePlain rest

end

/-- A payload is read as a plain value exactly when it is the UTF-8 of the value's text. -/
structure ReadsJson (P : Platform) : Prop where
  reads : ∀ (payload : List UInt8) (v : Json), v.IsPlain →
    (P.parseJson payload = some v ↔ payload = utf8 v.value.stringify)

mutual

def ofValue? : Foundations.Json → Option Json
  | .null => some .null
  | .bool b => some (.bool b)
  | .num q => some (.num q)
  | .str s => s.string?.map .str
  | .arr values => (ofValues? values).map .arr
  | .obj _ => none

def ofValues? : List Foundations.Json → Option (List Json)
  | [] => some []
  | v :: rest => (ofValue? v).bind fun w => (ofValues? rest).map (w :: ·)

end

/-- The parser of a payload: fatal UTF-8, `JSON.parse`, and the value serialised to the same text. -/
def parsePayload (payload : List UInt8) : Option Json :=
  (decodeUtf8 payload).bind fun text => (Foundations.Json.parse text).bind fun v =>
    if v.stringify = text then ofValue? v else none

mutual

theorem ofValue?_value (v : Json) (h : v.IsPlain) : ofValue? v.value = some v := by
  cases v with
  | null | bool _ | num _ => rfl
  | str s => simp [Json.value, Foundations.Json.text, ofValue?]
  | arr values =>
    rw [Json.value, ofValue?, ofValues?_valueAll values (by simpa only [Json.IsPlain] using h)]
    rfl
  | obj members => simp only [Json.IsPlain] at h

theorem ofValues?_valueAll (values : List Json) (h : Json.ArePlain values) :
    ofValues? (Json.valueAll values) = some values := by
  cases values with
  | nil => rfl
  | cons v rest =>
    simp only [Json.ArePlain] at h
    rw [Json.valueAll, ofValues?, ofValue?_value v h.1, ofValues?_valueAll rest h.2]
    rfl

end

mutual

theorem value_of_ofValue? (v : Foundations.Json) {w : Json} (h : ofValue? v = some w) :
    w.value = v := by
  cases v with
  | null | bool _ | num _ =>
    rw [ofValue?] at h
    obtain rfl := Option.some.inj h
    rfl
  | str s =>
    rw [ofValue?] at h
    obtain ⟨text, htext, rfl⟩ := Option.map_eq_some_iff.1 h
    rw [Json.value, Foundations.Json.text, JsString.ofString_of_string? htext]
  | arr values =>
    rw [ofValue?] at h
    obtain ⟨ws, hws, rfl⟩ := Option.map_eq_some_iff.1 h
    rw [Json.value, valueAll_of_ofValues? values hws]
  | obj members => cases h

theorem valueAll_of_ofValues? (values : List Foundations.Json) {ws : List Json}
    (h : ofValues? values = some ws) : Json.valueAll ws = values := by
  cases values with
  | nil =>
    obtain rfl := Option.some.inj h
    rfl
  | cons v rest =>
    rw [ofValues?] at h
    obtain ⟨w, hw, h⟩ := Option.bind_eq_some_iff.1 h
    obtain ⟨ws', hws, rfl⟩ := Option.map_eq_some_iff.1 h
    rw [Json.valueAll, value_of_ofValue? v hw, valueAll_of_ofValues? rest hws]

end

mutual

theorem fits_value (v : Json) (h : v.IsPlain) (depth : ℕ) :
    Foundations.Json.Fits Foundations.Json.standard depth v.value := by
  have hwithin := Foundations.Json.within_standard depth
  cases v with
  | null =>
    rw [Json.value, Foundations.Json.Fits]
    exact ⟨hwithin, fun _ _ => rfl⟩
  | bool b =>
    rw [Json.value, Foundations.Json.Fits]
    refine ⟨hwithin, fun _ _ => ?_⟩
    cases b <;> rfl
  | num q =>
    simp only [Json.IsPlain] at h
    have hq : Json.value (.num q) = Foundations.Json.int q.num := by
      rw [Json.value, Foundations.Json.int, Rat.coe_int_num_of_den_eq_one h.1]
    rw [hq]
    exact Foundations.Json.fits_standard_int q.num depth
  | str s => exact (Foundations.Json.isAtom_text s).fits depth
  | arr values =>
    rw [Json.value, Foundations.Json.Fits]
    exact ⟨hwithin, fitsAll_valueAll values (by simpa only [Json.IsPlain] using h) (depth + 1)⟩
  | obj members => simp only [Json.IsPlain] at h

theorem fitsAll_valueAll (values : List Json) (h : Json.ArePlain values) (depth : ℕ) :
    Foundations.Json.FitsAll Foundations.Json.standard depth (Json.valueAll values) := by
  cases values with
  | nil => simp only [Json.valueAll, Foundations.Json.FitsAll]
  | cons v rest =>
    simp only [Json.ArePlain] at h
    rw [Json.valueAll, Foundations.Json.FitsAll]
    exact ⟨fits_value v h.1 depth, fitsAll_valueAll rest h.2 depth⟩

end

/-- **The library's parser reads plain values.** -/
theorem readsJson_parsePayload {P : Platform} (h : P.parseJson = parsePayload) : ReadsJson P where
  reads payload v hplain := by
    rw [h, parsePayload]
    constructor
    · intro hread
      obtain ⟨text, htext, hread⟩ := Option.bind_eq_some_iff.1 hread
      obtain ⟨w, -, hread⟩ := Option.bind_eq_some_iff.1 hread
      split_ifs at hread with hsame
      rw [value_of_ofValue? w hread, hsame, utf8_of_decodeUtf8 htext]
    · rintro rfl
      rw [decodeUtf8_utf8, Option.bind_some, Foundations.Json.parse,
        Foundations.Json.read_stringify (fits_value v hplain 0), Option.bind_some, if_pos rfl,
        ofValue?_value v hplain]

/-! ## The payload of a proof -/

def pairJson (pair : HeaderPair) : Json := .arr [.str pair.1, .str pair.2]

def requestFields (request : RequestClaims) : List Json :=
  [.str request.method, .str request.target, .arr (request.pairs.map pairJson),
    .num request.bodyLen, .str request.bodySha256]

def commonFields (claims : Claims) : List Json :=
  [.str claims.kid, .str claims.aud, .num claims.iat, .num claims.exp, .str claims.jti,
    .num claims.hop, .str claims.corr] ++ requestFields claims.request

def parentFields (parent : Parent) : List Json := [.str parent.pbJti, .str parent.pbSha256]

/-- The claims as a list; those of a BA end with its parent's id and hash. -/
def claimsPayload (claims : Claims) : Json :=
  .arr (.str (ROLE_STRING claims.role) ::
    (commonFields claims ++ claims.parent.elim [] parentFields))

/-- The bytes that are signed, after the domain. -/
def payloadOf (claims : Claims) : List UInt8 := utf8 (claimsPayload claims).value.stringify

/-- A proof of a payload and its signature. -/
def envelope (payload signature : List UInt8) : String :=
  base64url payload ++ "." ++ base64url signature

def encodeEnvelope (edSign : Key → List UInt8 → List UInt8) (claims : Claims) (privateKey : Key) :
    String :=
  let payload := payloadOf claims
  envelope payload (edSign privateKey (asciiBytes (DOMAIN claims.role) ++ payload))

/-! ## Well-formed claims -/

/-- Bound names in ascending order after a name, with canonical values. -/
def Ascending (previous : String) : List HeaderPair → Prop
  | [] => True
  | (name, value) :: rest =>
    (BOUND_HEADER_NAMES.contains name = true ∧ previous < name ∧ canonicalValue value = some value) ∧
      Ascending name rest

/-- A request as a proof may carry it. -/
structure RequestClaims.Semantic (request : RequestClaims) : Prop where
  method : request.method = "GET" ∨ request.method = "POST"
  target : isTarget request.target = true
  count : request.pairs.length ≤ BOUND_HEADER_NAMES.length
  pairs : Ascending "" request.pairs
  length : request.bodyLen ≤ MAX_SEMANTIC_BODY
  digest : (decodeCanonicalB64Of 32 request.bodySha256).isSome = true
  coherent : request.isCoherent = true

/-- The parent of a BA. -/
structure Parent.WellFormed (parent : Parent) : Prop where
  pbJti : isNonce parent.pbJti = true
  pbSha256 : (decodeCanonicalB64Of 32 parent.pbSha256).isSome = true

/-- What the claims of both roles have to be. -/
structure Claims.Common (claims : Claims) : Prop where
  kid : isKid claims.kid = true
  aud : isNonce claims.aud = true
  iat : claims.iat ≤ MAX_SAFE_INTEGER
  exp : claims.exp ≤ MAX_SAFE_INTEGER
  jti : isNonce claims.jti = true
  hop : 1 ≤ claims.hop ∧ claims.hop ≤ MAX_SAFE_INTEGER
  corr : isNonce claims.corr = true
  request : claims.request.Semantic

/-- Claims as a proof may carry them. -/
structure Claims.WellFormed (claims : Claims) : Prop extends claims.Common where
  parent : ∀ parent, claims.parent = some parent → parent.WellFormed
  lineage : claims.parent.isSome = true ↔ claims.role = .ba

theorem Json.int?_eq_some {v : Json} {n : ℕ} :
    v.int? = some n ↔ v = .num n ∧ n ≤ MAX_SAFE_INTEGER := by
  constructor
  · intro h
    cases v with
    | num q =>
      rw [Json.int?] at h
      split_ifs at h with hq
      obtain ⟨hden, hnonneg, hle⟩ := hq
      obtain rfl := Option.some.inj h
      refine ⟨congrArg Json.num ?_, by omega⟩
      rw [← Int.cast_natCast, Int.toNat_of_nonneg hnonneg, Rat.coe_int_num_of_den_eq_one hden]
    | _ => cases h
  · rintro ⟨rfl, hle⟩
    rw [Json.int?, if_pos ⟨Rat.den_natCast n, by simp, by simpa using hle⟩]
    simp

theorem parsePairs_eq_some {previous : String} {raw : List Json} {pairs : List HeaderPair} :
    parsePairs previous raw = some pairs ↔ raw = pairs.map pairJson ∧ Ascending previous pairs := by
  induction raw generalizing previous pairs with
  | nil =>
    rw [parsePairs, Option.some.injEq]
    constructor
    · rintro rfl
      exact ⟨rfl, trivial⟩
    · rintro ⟨hnil, -⟩
      exact (List.map_eq_nil_iff.1 hnil.symm).symm
  | cons v rest ih =>
    constructor
    · intro h
      unfold parsePairs at h
      split at h
      · cases ‹v :: rest = []›
      · next name value rest' heq =>
        obtain ⟨rfl, rfl⟩ := List.cons.inj heq
        split_ifs at h with hpair
        obtain ⟨tail, htail, rfl⟩ := Option.map_eq_some_iff.1 h
        obtain ⟨rfl, hascending⟩ := ih.1 htail
        exact ⟨rfl, hpair, hascending⟩
      · cases h
    · rintro ⟨hraw, hascending⟩
      cases pairs with
      | nil => cases hraw
      | cons pair pairs =>
        obtain ⟨rfl, rfl⟩ := List.cons.inj hraw
        obtain ⟨name, value⟩ := pair
        rw [Ascending] at hascending
        rw [pairJson, parsePairs, if_pos hascending.1, ih.2 ⟨rfl, hascending.2⟩]
        rfl

/-- **A request is read exactly from its own fields.** -/
theorem parseRequest_eq_some {fields : List Json} {request : RequestClaims} :
    parseRequest fields = some request ↔ fields = requestFields request ∧ request.Semantic := by
  constructor
  · intro h
    unfold parseRequest at h
    split at h
    · next method target pairsRaw bodyLen bodySha256 =>
      by_cases hcount : pairsRaw.length ≤ BOUND_HEADER_NAMES.length
      swap
      · simp [hcount] at h
      simp only [hcount, if_true, Option.bind_eq_bind, Option.bind_eq_some_iff] at h
      obtain ⟨pairs, hpairs, length, hlength, h⟩ := h
      split_ifs at h with hchecks
      obtain ⟨hmethod, htarget, hle, hdigest, hcoherent⟩ := hchecks
      obtain rfl := Option.some.inj h
      obtain ⟨rfl, hascending⟩ := parsePairs_eq_some.1 hpairs
      obtain ⟨rfl, -⟩ := Json.int?_eq_some.1 hlength
      rw [List.length_map] at hcount
      exact ⟨rfl, hmethod, htarget, hcount, hascending, hle, hdigest, hcoherent⟩
    · cases h
  · rintro ⟨rfl, h⟩
    have hlength : Json.int? (.num request.bodyLen) = some request.bodyLen :=
      Json.int?_eq_some.2 ⟨rfl, h.length.trans (by decide)⟩
    have hcount : (request.pairs.map pairJson).length ≤ BOUND_HEADER_NAMES.length := by
      rw [List.length_map]
      exact h.count
    rw [requestFields, parseRequest, if_pos hcount, parsePairs_eq_some.2 ⟨rfl, h.pairs⟩, hlength]
    exact if_pos ⟨h.method, h.target, h.length, h.digest, h.coherent⟩

theorem parseCommon_eq_some {role : HopRole} {fields : List Json} {claims : Claims} :
    parseCommon role fields = some claims ↔ fields = commonFields claims ∧ claims.role = role ∧
      claims.parent = none ∧ claims.Common := by
  constructor
  · intro h
    unfold parseCommon at h
    split at h
    · simp only [Option.bind_eq_bind, Option.bind_eq_some_iff] at h
      obtain ⟨iat, hiat, exp, hexp, hop, hhop, request, hrequest, h⟩ := h
      split_ifs at h with hchecks
      obtain ⟨hkid, haud, hjti, hpos, hcorr⟩ := hchecks
      obtain rfl := Option.some.inj h
      obtain ⟨rfl, hsafe⟩ := Json.int?_eq_some.1 hiat
      obtain ⟨rfl, hsafe'⟩ := Json.int?_eq_some.1 hexp
      obtain ⟨rfl, hsafeHop⟩ := Json.int?_eq_some.1 hhop
      obtain ⟨hfields, hsemantic⟩ := parseRequest_eq_some.1 hrequest
      refine ⟨?_, rfl, rfl, hkid, haud, hsafe, hsafe', hjti, ⟨hpos, hsafeHop⟩, hcorr, hsemantic⟩
      rw [commonFields, ← hfields]
      rfl
    · cases h
  · rintro ⟨rfl, rfl, hparent, h⟩
    have hiat : Json.int? (.num claims.iat) = some claims.iat := Json.int?_eq_some.2 ⟨rfl, h.iat⟩
    have hexp : Json.int? (.num claims.exp) = some claims.exp := Json.int?_eq_some.2 ⟨rfl, h.exp⟩
    have hhop : Json.int? (.num claims.hop) = some claims.hop :=
      Json.int?_eq_some.2 ⟨rfl, h.hop.2⟩
    have hrequest := parseRequest_eq_some.2 ⟨rfl, h.request⟩
    rw [requestFields] at hrequest
    simp only [commonFields, requestFields, List.cons_append, List.nil_append, parseCommon, hiat,
      hexp, hhop, hrequest, Option.bind_eq_bind, Option.bind_some]
    rw [if_pos ⟨h.kid, h.aud, h.jti, h.hop.1, h.corr⟩]
    cases claims
    cases hparent
    rfl

theorem parseParent_eq_some {fields : List Json} {parent : Parent} :
    parseParent fields = some parent ↔ fields = parentFields parent ∧ parent.WellFormed := by
  constructor
  · intro h
    unfold parseParent at h
    split at h
    · split_ifs at h with hchecks
      obtain rfl := Option.some.inj h
      exact ⟨rfl, hchecks.1, hchecks.2⟩
    · cases h
  · rintro ⟨rfl, h⟩
    rw [parentFields, parseParent, if_pos ⟨h.pbJti, h.pbSha256⟩]

theorem Claims.Common.withParent {claims : Claims} (h : claims.Common) (parent : Option Parent) :
    { claims with parent := parent }.Common :=
  ⟨h.kid, h.aud, h.iat, h.exp, h.jti, h.hop, h.corr, h.request⟩

theorem length_commonFields (claims : Claims) : (commonFields claims).length = 12 := rfl

/-- **The claims of a role are read exactly from their own fields.** -/
theorem parseClaims_eq_some {role : HopRole} {fields : List Json} {claims : Claims} :
    parseClaims role fields = some claims ↔
      fields = commonFields claims ++ claims.parent.elim [] parentFields ∧ claims.role = role ∧
        claims.WellFormed := by
  cases role with
  | pb =>
    rw [parseClaims, parseCommon_eq_some]
    constructor
    · rintro ⟨rfl, hrole, hparent, h⟩
      refine ⟨by rw [hparent]; exact (List.append_nil _).symm, hrole, h, fun parent hsome => ?_, ?_⟩
      · rw [hparent] at hsome
        cases hsome
      · rw [hparent, hrole]
        decide
    · rintro ⟨rfl, hrole, h⟩
      have hparent : claims.parent = none := by
        rw [← Option.not_isSome_iff_eq_none, h.lineage, hrole]
        decide
      refine ⟨?_, hrole, hparent, h.toCommon⟩
      rw [hparent]
      exact List.append_nil _
  | ba =>
    simp only [parseClaims, Option.bind_eq_bind, Option.bind_eq_some_iff]
    constructor
    · rintro ⟨common, hcommon, parent, hparent, h⟩
      obtain ⟨htake, hrole, -, hc⟩ := parseCommon_eq_some.1 hcommon
      obtain ⟨hdrop, hwell⟩ := parseParent_eq_some.1 hparent
      obtain rfl := Option.some.inj h
      refine ⟨?_, hrole, hc.withParent _, ?_, ?_⟩
      · rw [← List.take_append_drop 12 fields, htake, hdrop]
        rfl
      · rintro _ ⟨⟩
        exact hwell
      · exact iff_of_true rfl hrole
    · rintro ⟨rfl, hrole, h⟩
      obtain ⟨parent, hparent⟩ := Option.isSome_iff_exists.1 (h.lineage.2 hrole)
      refine ⟨{ claims with parent := none }, ?_, parent, ?_, ?_⟩
      · refine parseCommon_eq_some.2 ⟨?_, hrole, rfl, h.withParent none⟩
        rw [List.take_append_of_le_length (by rw [length_commonFields])]
        exact List.take_of_length_le (by rw [length_commonFields])
      · rw [List.drop_append_of_le_length (by rw [length_commonFields]),
          List.drop_of_length_le (by rw [length_commonFields]), hparent]
        exact parseParent_eq_some.2 ⟨rfl, h.parent parent hparent⟩
      · rw [← hparent]

/-- **A payload is read exactly when it is the list of well-formed claims of the role.** -/
theorem readClaims_eq_ok {expected : HopRole} {v : Json} {claims : Claims} :
    readClaims expected v = .ok claims ↔
      v = claimsPayload claims ∧ claims.role = expected ∧ claims.WellFormed := by
  have hknown (role : HopRole) : ¬ (ROLE_STRING role ≠ PB_ROLE ∧ ROLE_STRING role ≠ BA_ROLE) := by
    cases role <;> decide
  constructor
  · intro h
    unfold readClaims at h
    split at h
    · next roleString fields =>
      split_ifs at h with hunknown hother
      split at h
      · cases h
      · next hparse =>
        obtain rfl := Except.ok.inj h
        obtain ⟨rfl, hrole, hwell⟩ := parseClaims_eq_some.1 hparse
        refine ⟨?_, hrole, hwell⟩
        rw [claimsPayload, hrole, not_not.1 hother]
    · cases h
  · rintro ⟨rfl, rfl, h⟩
    rw [claimsPayload, readClaims, if_neg (hknown _), if_neg (not_not.2 rfl),
      parseClaims_eq_some.2 ⟨rfl, rfl, h⟩]

/-! ## The decoder -/

theorem isPlain_int {n : ℕ} (h : n ≤ MAX_SAFE_INTEGER) : Json.IsPlain (.num n) := by
  simp only [Json.IsPlain, Rat.den_natCast, Rat.num_natCast, Nat.abs_cast, true_and]
  exact_mod_cast h

theorem arePlain_iff {values : List Json} : Json.ArePlain values ↔ ∀ v ∈ values, v.IsPlain := by
  induction values with
  | nil => simp [Json.ArePlain]
  | cons v rest ih => simp [Json.ArePlain, ih]

theorem Claims.WellFormed.isPlain {claims : Claims} (h : claims.WellFormed) :
    (claimsPayload claims).IsPlain := by
  have hpairs : Json.IsPlain (.arr (claims.request.pairs.map pairJson)) := by
    rw [Json.IsPlain, arePlain_iff]
    intro v hv
    obtain ⟨pair, -, rfl⟩ := List.mem_map.1 hv
    simp [pairJson, Json.IsPlain, Json.ArePlain]
  have hparent : Json.ArePlain (claims.parent.elim [] parentFields) := by
    cases claims.parent with
    | none => trivial
    | some parent => simp [parentFields, Json.ArePlain, Json.IsPlain]
  rw [arePlain_iff] at hparent
  have hlength := isPlain_int (h.request.length.trans (by decide))
  rw [claimsPayload, Json.IsPlain, arePlain_iff]
  simp only [commonFields, requestFields, List.mem_cons, List.cons_append, List.nil_append]
  rintro v (rfl | rfl | rfl | rfl | rfl | rfl | rfl | rfl | rfl | rfl | rfl | rfl | rfl | hv)
  all_goals first
    | exact hpairs
    | exact hparent _ hv
    | exact isPlain_int h.iat
    | exact isPlain_int h.exp
    | exact isPlain_int h.hop.2
    | exact hlength
    | trivial

theorem payloadOf_ne_nil (claims : Claims) : payloadOf claims ≠ [] := by
  intro h
  have htext := utf8_of_decodeUtf8 (decodeUtf8_utf8 (claimsPayload claims).value.stringify)
  have hempty : (claimsPayload claims).value.stringify = "" := utf8_injective (h.trans rfl)
  have := congrArg String.toList hempty
  rw [Foundations.Json.stringify, String.toList_ofList, claimsPayload, Json.value,
    Foundations.Json.write] at this
  cases this

/-- The length of a proof. -/
theorem length_envelope (payload signature : List UInt8) :
    (envelope payload signature).length =
      (payload.length * 4 + 2) / 3 + 1 + (signature.length * 4 + 2) / 3 := by
  rw [← String.length_toList]
  simp only [envelope, base64url, String.toList_append, String.toList_ofList, List.length_append,
    length_base64urlChars]
  rfl

/-- A header of two parts is its parts with a dot between them. -/
theorem envelope_of_splitOn {header text signatureText : String}
    (h : (header.toList.splitOn '.').map String.ofList = [text, signatureText]) :
    text ++ "." ++ signatureText = header := by
  have hparts : header.toList.splitOn '.' = [text.toList, signatureText.toList] := by
    have := congrArg (List.map String.toList) h
    simpa [Function.comp_def] using this
  apply String.toList_inj.1
  have hjoin : ['.'].intercalate (header.toList.splitOn '.') = header.toList :=
    List.intercalate_splitOn '.'
  rw [← hjoin, hparts]
  simp

/-- **A header is a proof exactly when it is the envelope of well-formed claims of the role and a
signature of 64 bytes, no longer than the role's limit.** -/
theorem decodeProof_eq_ok {P : Platform} (hP : ReadsJson P) {header : String} {role : HopRole}
    {decoded : Decoded} :
    decodeProof P header role = .ok decoded ↔
      header = envelope decoded.payload decoded.signature ∧ header.length ≤ HEADER_MAX role ∧
        decoded.signature.length = 64 ∧ decoded.payload = payloadOf decoded.claims ∧
          decoded.claims.role = role ∧ decoded.claims.WellFormed := by
  constructor
  · intro h
    unfold decodeProof at h
    split_ifs at h with hlong
    split at h
    · next text signatureText hsplit =>
      split at h
      · next payload signature hpayload hsignature =>
        split at h
        · cases h
        · next parsed hparsed =>
          split at h
          · cases h
          · next claims hclaims =>
            obtain rfl := Except.ok.inj h
            obtain ⟨rfl, hrole, hwell⟩ := readClaims_eq_ok.1 hclaims
            obtain ⟨-, rfl⟩ := decodeCanonicalB64_eq_some.1 hpayload
            obtain ⟨⟨-, rfl⟩, hlength⟩ := decodeCanonicalB64Of_eq_some.1 hsignature
            refine ⟨?_, not_lt.1 hlong, hlength, (hP.reads _ _ hwell.isPlain).1 hparsed, hrole,
              hwell⟩
            exact (envelope_of_splitOn hsplit).symm
      · cases h
    · cases h
  · rintro ⟨rfl, hlength, hsignature, hpayload, hrole, hwell⟩
    obtain ⟨claims, payload, signature⟩ := decoded
    dsimp only at hlength hsignature hpayload hrole hwell ⊢
    subst hpayload
    rw [length_envelope, hsignature] at hlength
    exact decodeProof_encoded (payloadOf_ne_nil claims) hsignature (by omega)
      ((hP.reads _ _ hwell.isPlain).2 rfl) (readClaims_eq_ok.2 ⟨rfl, hrole, hwell⟩)

end Limitmark.Hop
