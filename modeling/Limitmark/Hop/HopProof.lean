import Mathlib.Algebra.Order.Field.Rat
import Limitmark.Hop.Base64url
import Limitmark.Hop.SemanticRequest

/-!
# The hop proofs

The verifier side of `defense/core/hop-proof.ts`: the strict structural decode of a proof header, its
window, and its signature. There are two proofs: the plane's (PB) at the boundary, and the boundary's
(BA) at the app, which carries the plane's as lineage.

The platform's JSON parser, SHA-256 and Ed25519 are parameters (`Platform`).
-/

namespace Limitmark.Hop

open Limitmark.Defense Limitmark.Plane

inductive HopRole
  | pb
  | ba
  deriving DecidableEq, Repr

def PB_ROLE : String := "ba0-pb-v2"

def BA_ROLE : String := "ba0-ba-v2"

def PB_DOMAIN : String := "ba0:pb:ed25519:v2\x00"

def BA_DOMAIN : String := "ba0:ba:ed25519:v2\x00"

def PB_MAX_LIFETIME_MS : ℕ := 5000

def BA_MAX_LIFETIME_MS : ℕ := 2000

def HOP_SKEW_MS : ℕ := 1000

def ROLE_STRING : HopRole → String
  | .pb => PB_ROLE
  | .ba => BA_ROLE

def DOMAIN : HopRole → String
  | .pb => PB_DOMAIN
  | .ba => BA_DOMAIN

def MAX_LIFETIME : HopRole → ℕ
  | .pb => PB_MAX_LIFETIME_MS
  | .ba => BA_MAX_LIFETIME_MS

def HEADER_MAX : HopRole → ℕ
  | .pb => 2048
  | .ba => 2304

/-! ## The platform -/

inductive Json
  | null
  | bool (value : Bool)
  | num (value : ℚ)
  | str (value : String)
  | arr (values : List Json)
  | obj (members : List (String × Json))

/-- A public key. -/
abbrev Key := List UInt8

/-- What a verifier uses of its platform. `parseJson` is the value of a payload that is UTF-8 and is
itself the text the value is serialised to. -/
structure Platform where
  parseJson : List UInt8 → Option Json
  sha256 : List UInt8 → Digest
  edVerify : (key : Key) → (message signature : List UInt8) → Bool

def Platform.sha256B64 (P : Platform) (bytes : List UInt8) : String :=
  digestBase64url (P.sha256 bytes)

/-- The only form of an id that appears in an event: a part of a role-separated hash. -/
def proofTag (P : Platform) (role jti : String) : String :=
  String.ofList ((P.sha256B64 (asciiBytes (role ++ ":" ++ jti))).toList.take 16)

/-! ## Claims -/

structure RequestClaims where
  method : String
  target : String
  pairs : List HeaderPair
  bodyLen : ℕ
  bodySha256 : String
  deriving DecidableEq, Repr

/-- What a BA says of the PB it was issued for. -/
structure Parent where
  pbJti : String
  pbSha256 : String
  deriving DecidableEq, Repr

/-- The claims of a proof; those of a BA have a parent. -/
structure Claims where
  role : HopRole
  kid : String
  aud : String
  iat : ℕ
  exp : ℕ
  jti : String
  hop : ℕ
  corr : String
  request : RequestClaims
  parent : Option Parent := none
  deriving DecidableEq, Repr

structure Decoded where
  claims : Claims
  payload : List UInt8
  signature : List UInt8
  deriving DecidableEq, Repr

/-! ## Decoding -/

def MAX_SAFE_INTEGER : ℕ := 2 ^ 53 - 1

def Json.int? : Json → Option ℕ
  | .num q => if q.den = 1 ∧ 0 ≤ q.num ∧ q.num ≤ MAX_SAFE_INTEGER then some q.num.toNat else none
  | _ => none

/-- `/^[A-Za-z0-9_-]{1,32}$/`. -/
def isKid (value : String) : Bool :=
  1 ≤ value.length && value.length ≤ 32 && value.toList.all isBase64url

/-- `/^\/[\x21-\x7e]{0,255}$/`. -/
def isTarget (value : String) : Bool :=
  match value.toList with
  | [] => false
  | c :: cs => c = '/' && cs.length ≤ 255 && cs.all isVisible

/-- The pairs of a request: bound names in ascending order, canonical values. -/
def parsePairs (previous : String) : List Json → Option (List HeaderPair)
  | [] => some []
  | .arr [.str name, .str value] :: rest =>
    if BOUND_HEADER_NAMES.contains name ∧ previous < name ∧ canonicalValue value = some value then
      (parsePairs name rest).map fun pairs => (name, value) :: pairs
    else none
  | _ => none

/-- The value of a header of a request. -/
def RequestClaims.header (request : RequestClaims) (name : String) : Option String :=
  (request.pairs.find? fun pair => pair.1 = name).map Prod.snd

/-- The rules that relate the fields of a request. -/
def RequestClaims.isCoherent (request : RequestClaims) : Bool :=
  (request.header "host").isSome &&
    (if request.method = "GET" then
      request.bodyLen = 0 && request.bodySha256 = EMPTY_BODY_SHA256 &&
        (request.header "content-type").isNone
    else request.header "content-type" = some FORM_CONTENT_TYPE)

def parseRequest : List Json → Option RequestClaims
  | [.str method, .str target, .arr pairsRaw, bodyLen, .str bodySha256] => do
    let pairs ← if pairsRaw.length ≤ BOUND_HEADER_NAMES.length then parsePairs "" pairsRaw else none
    let length ← bodyLen.int?
    let request : RequestClaims := ⟨method, target, pairs, length, bodySha256⟩
    if (method = "GET" ∨ method = "POST") ∧ isTarget target ∧ length ≤ MAX_SEMANTIC_BODY ∧
        (decodeCanonicalB64Of 32 bodySha256).isSome ∧ request.isCoherent then some request
    else none
  | _ => none

/-- The claims both roles have. -/
def parseCommon (role : HopRole) : List Json → Option Claims
  | [.str kid, .str aud, iat, exp, .str jti, hop, .str corr, method, target, pairs, bodyLen,
      bodySha256] => do
    let iat ← iat.int?
    let exp ← exp.int?
    let hop ← hop.int?
    let request ← parseRequest [method, target, pairs, bodyLen, bodySha256]
    if isKid kid ∧ isNonce aud ∧ isNonce jti ∧ 1 ≤ hop ∧ isNonce corr then
      some { role, kid, aud, iat, exp, jti, hop, corr, request }
    else none
  | _ => none

def parseParent : List Json → Option Parent
  | [.str pbJti, .str pbSha256] =>
    if isNonce pbJti ∧ (decodeCanonicalB64Of 32 pbSha256).isSome then some ⟨pbJti, pbSha256⟩
    else none
  | _ => none

/-- The claims of a role, from the fields after the role string. -/
def parseClaims (role : HopRole) (fields : List Json) : Option Claims :=
  match role with
  | .pb => parseCommon .pb fields
  | .ba => do
    let claims ← parseCommon .ba (fields.take 12)
    let parent ← parseParent (fields.drop 12)
    some { claims with parent := some parent }

/-- The role of a payload comes before its shape: the other hop's role string is its own reason. -/
def readClaims (expected : HopRole) : Json → Except ObReason Claims
  | .arr (.str roleString :: fields) =>
    if roleString ≠ PB_ROLE ∧ roleString ≠ BA_ROLE then
      .error (if "ba0-".toList.isPrefixOf roleString.toList then .versionUnsupported
        else .proofMalformed)
    else if roleString ≠ ROLE_STRING expected then .error .wrongHop
    else
      match parseClaims expected fields with
      | none => .error .proofMalformed
      | some claims => .ok claims
  | _ => .error .proofMalformed

/-- Strict structural decode: no key, no clock. -/
def decodeProof (P : Platform) (header : String) (expected : HopRole) : Except ObReason Decoded :=
  if HEADER_MAX expected < header.length then .error .proofOversize
  else
    match (header.toList.splitOn '.').map String.ofList with
    | [text, signatureText] =>
      match decodeCanonicalB64 text, decodeCanonicalB64Of 64 signatureText with
      | some payload, some signature =>
        match P.parseJson payload with
        | none => .error .proofMalformed
        | some parsed =>
          match readClaims expected parsed with
          | .error reason => .error reason
          | .ok claims => .ok ⟨claims, payload, signature⟩
      | _, _ => .error .proofMalformed
    | _ => .error .proofMalformed

/-! ## Window and signature -/

structure WindowContext where
  kid : String
  aud : String
  nowMs : ℚ
  fenceMs : ℚ

/-- Key id, audience, lifetime shape, freshness, then the start fence. -/
def checkProofWindow (claims : Claims) (context : WindowContext) : Option ObReason :=
  if claims.kid ≠ context.kid then some .keyUnknown
  else if claims.aud ≠ context.aud then some .audienceMismatch
  else if claims.exp ≤ claims.iat ∨ MAX_LIFETIME claims.role < claims.exp - claims.iat then
    some .lifetimeInvalid
  else if context.nowMs < (claims.iat : ℚ) - HOP_SKEW_MS then some .notYetValid
  else if (claims.exp : ℚ) + HOP_SKEW_MS < context.nowMs then some .expired
  else if (claims.iat : ℚ) < context.fenceMs then some .beforeFence
  else none

def verifyProofSignature (P : Platform) (role : HopRole) (decoded : Decoded) (key : Key) : Bool :=
  P.edVerify key (asciiBytes (DOMAIN role) ++ decoded.payload) decoded.signature

/-- The times of an acceptable proof. -/
structure InWindow (claims : Claims) (nowMs fenceMs : ℚ) : Prop where
  lifetime : claims.iat < claims.exp ∧ claims.exp ≤ claims.iat + MAX_LIFETIME claims.role
  valid : (claims.iat : ℚ) - HOP_SKEW_MS ≤ nowMs
  alive : nowMs ≤ (claims.exp : ℚ) + HOP_SKEW_MS
  fenced : fenceMs ≤ claims.iat

/-- A proof is acceptable when its key and audience are the verifier's and its times are in the
window. -/
theorem checkProofWindow_eq_none {claims : Claims} {context : WindowContext} :
    checkProofWindow claims context = none ↔
      claims.kid = context.kid ∧ claims.aud = context.aud ∧
        InWindow claims context.nowMs context.fenceMs := by
  unfold checkProofWindow
  constructor
  · intro h
    split_ifs at h with hkid haud hlife hvalid halive hfence
    refine ⟨not_not.1 hkid, not_not.1 haud, ?_, not_lt.1 hvalid, not_lt.1 halive,
      not_lt.1 hfence⟩
    omega
  · rintro ⟨hkid, haud, hlife, hvalid, halive, hfence⟩
    rw [if_neg (not_not.2 hkid), if_neg (not_not.2 haud), if_neg (by omega),
      if_neg (not_lt.2 hvalid), if_neg (not_lt.2 halive), if_neg (not_lt.2 hfence)]

theorem role_of_parseCommon {role : HopRole} {fields : List Json} {claims : Claims}
    (h : parseCommon role fields = some claims) : claims.role = role := by
  unfold parseCommon at h
  split at h
  · simp only [Option.bind_eq_bind, Option.bind_eq_some_iff] at h
    obtain ⟨iat, -, exp, -, hop, -, request, -, h⟩ := h
    split_ifs at h
    obtain rfl := Option.some.inj h
    rfl
  · cases h

theorem role_of_parseClaims {role : HopRole} {fields : List Json} {claims : Claims}
    (h : parseClaims role fields = some claims) : claims.role = role := by
  cases role with
  | pb => exact role_of_parseCommon h
  | ba =>
    simp only [parseClaims, Option.bind_eq_bind, Option.bind_eq_some_iff] at h
    obtain ⟨common, hcommon, parent, -, h⟩ := h
    obtain rfl := Option.some.inj h
    have hrole : common.role = .ba := role_of_parseCommon hcommon
    exact hrole

theorem role_of_readClaims {role : HopRole} {parsed : Json} {claims : Claims}
    (h : readClaims role parsed = .ok claims) : claims.role = role := by
  unfold readClaims at h
  split at h
  · split_ifs at h
    split at h
    · cases h
    · next hparse =>
      obtain rfl := Except.ok.inj h
      exact role_of_parseClaims hparse
  · cases h

/-- The claims of a decoded proof are those of its payload. -/
theorem readClaims_of_decodeProof {P : Platform} {header : String} {role : HopRole}
    {decoded : Decoded} (h : decodeProof P header role = .ok decoded) :
    ∃ parsed, P.parseJson decoded.payload = some parsed ∧
      readClaims role parsed = .ok decoded.claims := by
  unfold decodeProof at h
  split_ifs at h
  split at h
  · split at h
    · split at h
      · cases h
      · next parsed hparsed =>
        split at h
        · cases h
        · next hclaims =>
          obtain rfl := Except.ok.inj h
          exact ⟨parsed, hparsed, hclaims⟩
    · cases h
  · cases h

/-- A decoded proof is of the role it was decoded for. -/
theorem role_of_decodeProof {P : Platform} {header : String} {role : HopRole} {decoded : Decoded}
    (h : decodeProof P header role = .ok decoded) : decoded.claims.role = role := by
  obtain ⟨parsed, -, hclaims⟩ := readClaims_of_decodeProof h
  exact role_of_readClaims hclaims

/-! ## Encoded proofs -/

/-- **An encoded proof is decoded** to the claims of its payload. -/
theorem decodeProof_encoded {P : Platform} {payload signature : List UInt8} {role : HopRole}
    {parsed : Json} {claims : Claims} (hpayload : payload ≠ []) (hsignature : signature.length = 64)
    (hlength : (payload.length * 4 + 2) / 3 + 87 ≤ HEADER_MAX role)
    (hparsed : P.parseJson payload = some parsed) (hclaims : readClaims role parsed = .ok claims) :
    decodeProof P (base64url payload ++ "." ++ base64url signature) role =
      .ok ⟨claims, payload, signature⟩ := by
  have hne : signature ≠ [] := by
    rintro rfl
    cases hsignature
  have hlist : (base64url payload ++ "." ++ base64url signature).toList =
      base64urlChars payload ++ '.' :: base64urlChars signature := by
    simp [base64url]
  have hshort : ¬ HEADER_MAX role < (base64url payload ++ "." ++ base64url signature).length := by
    rw [← String.length_toList, hlist, List.length_append, List.length_cons, length_base64urlChars,
      length_base64urlChars, hsignature]
    omega
  have hof : decodeCanonicalB64Of 64 (base64url signature) = some signature := by
    rw [decodeCanonicalB64Of, decodeCanonicalB64_base64url hne]
    simp [hsignature]
  rw [decodeProof, if_neg hshort, hlist, splitOn_dot]
  simp only [List.map_cons, List.map_nil]
  rw [show String.ofList (base64urlChars payload) = base64url payload from rfl,
    show String.ofList (base64urlChars signature) = base64url signature from rfl,
    decodeCanonicalB64_base64url hpayload, hof]
  simp only [hparsed, hclaims]

end Limitmark.Hop
