import Limitmark.Hop.Approval
import Limitmark.Hop.SingleAdmission
import Limitmark.Hop.Admission

/-!
# The issuers of the hop proofs

`issuePb` and `issueBa` of `defense/core/hop-proof.ts`. The plane signs only what it approved, the
boundary only for a proof of the plane's that it verified.

A proof is decoded to the claims it was issued with, unless it is longer than its role allows
(`proof_codec`). Only the plane's proof can be: the boundary's has room for everything a proof of the
plane's that was decoded can hold (`length_ba_le`).
-/

namespace Limitmark.Hop

open Limitmark.Defense Limitmark.Plane Limitmark.Foundations

/-! ## The issuers -/

/-- The signing side of a platform. -/
structure Signer (P : Platform) where
  edSign : (privateKey : Key) → (message : List UInt8) → List UInt8
  publicKey : (privateKey : Key) → Key
  length_edSign : ∀ privateKey message, (edSign privateKey message).length = 64
  edVerify_edSign : ∀ privateKey message,
    P.edVerify (publicKey privateKey) message (edSign privateKey message) = true

/-- An id of sixteen random bytes. -/
def newId (random : Vector UInt8 16) : String := base64url random.toList

/-- A request the plane approved: nothing else makes one. -/
structure ApprovedRequest (P : Platform) where
  request : RequestClaims
  minted : ∃ layer approval, buildApprovedRequest P layer = .ok approval ∧
    approval.approved = request

structure Issued where
  header : String
  jti : String
  tag : String
  deriving DecidableEq, Repr

structure PbIssuerConfig where
  kid : String
  privateKey : Key
  boundaryId : String
  lifetimeMs : ℕ
  deriving DecidableEq, Repr

structure BaIssuerConfig where
  kid : String
  privateKey : Key
  appId : String
  lifetimeMs : ℕ
  deriving DecidableEq, Repr

/-- The claims of a plane's proof, issued at a reading of the clock. -/
def pbClaims (config : PbIssuerConfig) (request : RequestClaims) (hop : ℕ) (corr : String)
    (iat : ℕ) (jti : String) : Claims where
  role := .pb
  kid := config.kid
  aud := config.boundaryId
  iat
  exp := iat + config.lifetimeMs
  jti
  hop
  corr
  request

/-- The claims of a boundary's proof for a proof of the plane's. -/
def baClaims (P : Platform) (config : BaIssuerConfig) (verified : VerifiedPb) (iat : ℕ)
    (jti : String) : Claims where
  role := .ba
  kid := config.kid
  aud := config.appId
  iat
  exp := iat + config.lifetimeMs
  jti
  hop := verified.claims.hop
  corr := verified.claims.corr
  request := verified.claims.request
  parent := some ⟨verified.claims.jti, P.sha256B64 (asciiBytes verified.header)⟩

variable {P : Platform}

def issuePb (S : Signer P) (config : PbIssuerConfig) (approved : ApprovedRequest P) (hop : ℕ)
    (corr : String) (iat : ℕ) (random : Vector UInt8 16) : Except String Issued := do
  ensure (1 ≤ config.lifetimeMs ∧ config.lifetimeMs ≤ PB_MAX_LIFETIME_MS) "PB lifetime out of range"
  let jti := newId random
  let claims := pbClaims config approved.request hop corr iat jti
  return ⟨encodeEnvelope S.edSign claims config.privateKey, jti, proofTag P "pb" jti⟩

def issueBa (S : Signer P) (config : BaIssuerConfig) (verified : VerifiedPb) (iat : ℕ)
    (random : Vector UInt8 16) : Except String Issued := do
  ensure (1 ≤ config.lifetimeMs ∧ config.lifetimeMs ≤ BA_MAX_LIFETIME_MS) "BA lifetime out of range"
  let jti := newId random
  let claims := baClaims P config verified iat jti
  return ⟨encodeEnvelope S.edSign claims config.privateKey, jti, proofTag P "ba" jti⟩

/-- What a proof of these claims decodes to. -/
def decodedOf (S : Signer P) (claims : Claims) (privateKey : Key) : Decoded where
  claims
  payload := payloadOf claims
  signature := S.edSign privateKey (asciiBytes (DOMAIN claims.role) ++ payloadOf claims)

theorem issuePb_eq_ok {S : Signer P} {config : PbIssuerConfig} {approved : ApprovedRequest P}
    {hop iat : ℕ} {corr : String} {random : Vector UInt8 16} {issued : Issued} :
    issuePb S config approved hop corr iat random = .ok issued ↔
      (1 ≤ config.lifetimeMs ∧ config.lifetimeMs ≤ PB_MAX_LIFETIME_MS) ∧
        issued = ⟨encodeEnvelope S.edSign (pbClaims config approved.request hop corr iat
          (newId random)) config.privateKey, newId random, proofTag P "pb" (newId random)⟩ := by
  simp only [issuePb, check_bind_eq_ok, ensure_eq_ok, pure, Except.pure, Except.ok.injEq]
  rw [eq_comm (a := issued)]

theorem issueBa_eq_ok {S : Signer P} {config : BaIssuerConfig} {verified : VerifiedPb} {iat : ℕ}
    {random : Vector UInt8 16} {issued : Issued} :
    issueBa S config verified iat random = .ok issued ↔
      (1 ≤ config.lifetimeMs ∧ config.lifetimeMs ≤ BA_MAX_LIFETIME_MS) ∧
        issued = ⟨encodeEnvelope S.edSign (baClaims P config verified iat (newId random))
          config.privateKey, newId random, proofTag P "ba" (newId random)⟩ := by
  simp only [issueBa, check_bind_eq_ok, ensure_eq_ok, pure, Except.pure, Except.ok.injEq]
  rw [eq_comm (a := issued)]

/-! ## Issued claims are well-formed -/

theorem isNonce_newId (random : Vector UInt8 16) : isNonce (newId random) = true := by
  have hlength : (base64urlChars random.toList).length = 22 := by
    rw [length_base64urlChars, Vector.length_toList]
  rw [isNonce, newId, base64url, String.length_ofList, String.toList_ofList, hlength,
    all_base64urlChars]
  rfl

theorem ApprovedRequest.semantic (approved : ApprovedRequest P) : approved.request.Semantic := by
  obtain ⟨layer, approval, happroval, heq⟩ := approved.minted
  exact heq ▸ (semantic_of_buildApprovedRequest happroval).1

theorem wellFormed_pbClaims {config : PbIssuerConfig} {approved : ApprovedRequest P} {hop iat : ℕ}
    {corr : String} (hkid : isKid config.kid = true) (haud : isNonce config.boundaryId = true)
    (hhop : 1 ≤ hop ∧ hop ≤ MAX_SAFE_INTEGER) (hcorr : isNonce corr = true)
    (hexp : iat + config.lifetimeMs ≤ MAX_SAFE_INTEGER) (random : Vector UInt8 16) :
    (pbClaims config approved.request hop corr iat (newId random)).WellFormed where
  kid := hkid
  aud := haud
  iat := le_trans (Nat.le_add_right _ _) hexp
  exp := hexp
  jti := isNonce_newId random
  hop := hhop
  corr := hcorr
  request := approved.semantic
  parent _ h := by cases h
  lineage := ⟨fun h => (by cases h), fun h => (by cases h)⟩

theorem wellFormed_baClaims {config : BaIssuerConfig} {verified : VerifiedPb} {iat : ℕ}
    (hverified : verified.claims.WellFormed) (hkid : isKid config.kid = true)
    (haud : isNonce config.appId = true) (hexp : iat + config.lifetimeMs ≤ MAX_SAFE_INTEGER)
    (random : Vector UInt8 16) : (baClaims P config verified iat (newId random)).WellFormed where
  kid := hkid
  aud := haud
  iat := le_trans (Nat.le_add_right _ _) hexp
  exp := hexp
  jti := isNonce_newId random
  hop := hverified.hop
  corr := hverified.corr
  request := hverified.request
  parent parent h := by
    obtain rfl := Option.some.inj h
    exact ⟨hverified.jti, isSome_digest _⟩
  lineage := iff_of_true rfl rfl

/-- **An issued proof is decoded to its claims**, unless it is too long for its role. -/
theorem decodeProof_encodeEnvelope (hP : ReadsJson P) (S : Signer P) {claims : Claims}
    (h : claims.WellFormed) (privateKey : Key) :
    decodeProof P (encodeEnvelope S.edSign claims privateKey) claims.role =
      if HEADER_MAX claims.role < (encodeEnvelope S.edSign claims privateKey).length then
        .error .proofOversize
      else .ok (decodedOf S claims privateKey) := by
  split_ifs with hlong
  · rw [decodeProof, if_pos hlong]
  · have hsignature : (decodedOf S claims privateKey).signature.length = 64 := S.length_edSign _ _
    have henvelope : encodeEnvelope S.edSign claims privateKey = envelope
        (decodedOf S claims privateKey).payload (decodedOf S claims privateKey).signature := by
      rw [encodeEnvelope, decodedOf]
    refine (decodeProof_eq_ok hP).2 ⟨henvelope, not_lt.1 hlong, hsignature, ?_, ?_, h⟩
    · rw [decodedOf]
    · rw [decodedOf]

/-! ## The lengths of proofs -/

/-- The bytes of the text of a value. -/
def sizeOf (v : Foundations.Json) : ℕ := (utf8 (String.ofList (Foundations.Json.write v))).length

theorem length_utf8_append (a b : List Char) :
    (utf8 (String.ofList (a ++ b))).length =
      (utf8 (String.ofList a)).length + (utf8 (String.ofList b)).length := by
  simp [utf8]

theorem length_utf8_cons {c : Char} (h : IsAscii c) (text : List Char) :
    (utf8 (String.ofList (c :: text))).length = (utf8 (String.ofList text)).length + 1 := by
  have hone : (utf8 (String.ofList [c])).length = 1 :=
    length_utf8_ofList fun d hd => by rwa [List.mem_singleton.1 hd]
  rw [← List.singleton_append, length_utf8_append, hone, Nat.add_comm]

theorem size_writeValues {values : List Foundations.Json} (h : values ≠ []) :
    (utf8 (String.ofList (Foundations.Json.writeValues values))).length + 1 =
      (values.map fun v => sizeOf v + 1).sum := by
  induction values with
  | nil => exact absurd rfl h
  | cons v rest ih =>
    cases rest with
    | nil => simp [Foundations.Json.writeValues, sizeOf]
    | cons w rest =>
      have ih := ih (List.cons_ne_nil w rest)
      rw [Foundations.Json.writeValues, length_utf8_append, length_utf8_cons (by decide),
        List.map_cons, List.sum_cons, ← ih, ← sizeOf]
      omega

theorem sizeOf_arr {values : List Foundations.Json} (h : values ≠ []) :
    sizeOf (.arr values) = (values.map fun v => sizeOf v + 1).sum + 1 := by
  have hvalues := size_writeValues h
  rw [sizeOf, Foundations.Json.write, List.cons_append, length_utf8_cons (by decide),
    length_utf8_append, length_utf8_cons (by decide)]
  have hempty : (utf8 (String.ofList [])).length = 0 := length_utf8_ofList fun c hc => by cases hc
  omega

theorem sizeOf_text {s : String} (h : ∀ c ∈ s.toList, Foundations.Json.isPlain c = true) :
    sizeOf (.text s) = s.length + 2 := by
  rw [sizeOf, length_utf8_ofList (Foundations.Json.isAscii_write_text h),
    Foundations.Json.length_write_text h]

theorem isPlain_of_isBase64url {c : Char} (h : isBase64url c = true) :
    Foundations.Json.isPlain c = true := by
  have hall : BASE64URL_ALPHABET.all Foundations.Json.isPlain = true := by decide +kernel
  exact List.all_eq_true.1 hall c (List.contains_iff_mem.1 h)

theorem sizeOf_nonce {s : String} (h : isNonce s = true) : sizeOf (.text s) = 24 := by
  rw [isNonce, Bool.and_eq_true, decide_eq_true_eq] at h
  rw [sizeOf_text fun c hc => isPlain_of_isBase64url (List.all_eq_true.1 h.2 c hc), h.1]

theorem sizeOf_kid {s : String} (h : isKid s = true) :
    3 ≤ sizeOf (.text s) ∧ sizeOf (.text s) ≤ 34 := by
  rw [isKid, Bool.and_eq_true, Bool.and_eq_true, decide_eq_true_eq, decide_eq_true_eq] at h
  rw [sizeOf_text fun c hc => isPlain_of_isBase64url (List.all_eq_true.1 h.2 c hc)]
  omega

theorem sizeOf_int {n : ℕ} (h : n ≤ MAX_SAFE_INTEGER) :
    1 ≤ sizeOf (.int n) ∧ sizeOf (.int n) ≤ 16 := by
  have hlt : (n : ℤ) < 10 ^ 16 := by
    have hsafe : MAX_SAFE_INTEGER < 10 ^ 16 := by
      unfold MAX_SAFE_INTEGER
      norm_num
    exact_mod_cast h.trans_lt hsafe
  rw [sizeOf, length_utf8_ofList (Foundations.Json.isAscii_write_int n)]
  refine ⟨?_, Foundations.Json.length_write_int (by decide) (Int.natCast_nonneg n) hlt⟩
  obtain ⟨c, cs, hcons, -⟩ := Foundations.Json.toDigits_eq_cons n
  rw [Foundations.Json.write_int, Foundations.Json.intText, if_neg (not_lt.2 (Int.natCast_nonneg n)),
    Int.natAbs_natCast, hcons]
  exact Nat.succ_pos _

theorem sizeOf_role (role : HopRole) : sizeOf (.text (ROLE_STRING role)) = 11 := by
  have hplain : (ROLE_STRING role).toList.all Foundations.Json.isPlain = true := by
    cases role <;> rfl
  have hlength : (ROLE_STRING role).length = 9 := by cases role <;> rfl
  rw [sizeOf_text (List.all_eq_true.1 hplain), hlength]

theorem sizeOf_digest (d : Digest) : sizeOf (.text (digestBase64url d)) = 45 := by
  have hall (c : Char) (hc : c ∈ (digestBase64url d).toList) : isBase64url c = true := by
    rw [digestBase64url, base64url, String.toList_ofList] at hc
    exact List.all_eq_true.1 (all_base64urlChars d.toList) c hc
  have hlength : (digestBase64url d).length = 43 := by
    rw [digestBase64url, base64url, String.length_ofList, length_base64urlChars,
      Vector.length_toList]
  rw [sizeOf_text fun c hc => isPlain_of_isBase64url (hall c hc), hlength]

theorem valueAll_append (a b : List Json) :
    Json.valueAll (a ++ b) = Json.valueAll a ++ Json.valueAll b := by
  induction a with
  | nil => rfl
  | cons v a ih => simp only [List.cons_append, Json.valueAll, ih]

/-- The bytes of the elements of a payload, each with its comma or bracket. -/
def sizeAll (values : List Json) : ℕ :=
  ((Json.valueAll values).map fun v => sizeOf v + 1).sum

theorem sizeAll_append (a b : List Json) : sizeAll (a ++ b) = sizeAll a + sizeAll b := by
  rw [sizeAll, valueAll_append, List.map_append, List.sum_append, sizeAll, sizeAll]

theorem sizeAll_cons (v : Json) (rest : List Json) :
    sizeAll (v :: rest) = sizeOf v.value + 1 + sizeAll rest := by
  rw [sizeAll, Json.valueAll, List.map_cons, List.sum_cons, sizeAll]

theorem sizeAll_nil : sizeAll [] = 0 := rfl

theorem length_payloadOf (claims : Claims) :
    (payloadOf claims).length = sizeOf (.text (ROLE_STRING claims.role)) + 1 +
      (sizeAll (commonFields claims) + sizeAll (claims.parent.elim [] parentFields)) + 1 := by
  rw [payloadOf, Foundations.Json.stringify, ← sizeOf, claimsPayload, Json.value,
    sizeOf_arr (by rw [Json.valueAll]; exact List.cons_ne_nil _ _), ← sizeAll, sizeAll_cons,
    sizeAll_append]
  rfl

/-- The bytes of the fields of a request, which a boundary takes over from the plane. -/
theorem sizeAll_commonFields {claims : Claims} (h : claims.Common) :
    ∃ kid iat exp, 3 ≤ kid ∧ kid ≤ 34 ∧ (1 ≤ iat ∧ iat ≤ 16) ∧ (1 ≤ exp ∧ exp ≤ 16) ∧
      sizeAll (commonFields claims) = kid + iat + exp + (24 + 24 + 24 + 7) +
        (sizeOf (Json.value (.num claims.hop)) + sizeAll (requestFields claims.request)) := by
  have hint (n : ℕ) : Json.value (.num n) = .int n := by
    rw [Json.value, Foundations.Json.int, Int.cast_natCast]
  refine ⟨_, _, _, (sizeOf_kid h.kid).1, (sizeOf_kid h.kid).2, sizeOf_int h.iat, sizeOf_int h.exp, ?_⟩
  rw [commonFields, sizeAll_append]
  simp only [sizeAll_cons, sizeAll_nil, Json.value, sizeOf_nonce h.aud, sizeOf_nonce h.jti,
    sizeOf_nonce h.corr]
  rw [← hint claims.iat, ← hint claims.exp]
  simp only [Json.value]
  omega

/-- **A boundary's proof is never too long**: it has room for what a plane's proof that was decoded
can hold. -/
theorem length_ba_le (S : Signer P) {config : BaIssuerConfig} {verified : VerifiedPb} {iat : ℕ}
    {random : Vector UInt8 16} {signature : List UInt8}
    (hsignature : signature.length = 64)
    (hheader : verified.header = envelope (payloadOf verified.claims) signature)
    (hlength : verified.header.length ≤ HEADER_MAX .pb) (hrole : verified.claims.role = .pb)
    (hpb : verified.claims.WellFormed)
    (hba : (baClaims P config verified iat (newId random)).WellFormed) :
    (encodeEnvelope S.edSign (baClaims P config verified iat (newId random))
      config.privateKey).length ≤ HEADER_MAX .ba := by
  obtain ⟨kid, time, exp, hkid, -, htime, hexp, hcommon⟩ := sizeAll_commonFields hpb.toCommon
  obtain ⟨kid', time', exp', -, hkid', htime', hexp', hcommon'⟩ := sizeAll_commonFields hba.toCommon
  have hrequest : sizeAll (requestFields (baClaims P config verified iat (newId random)).request) =
      sizeAll (requestFields verified.claims.request) := rfl
  have hhop : sizeOf (Json.value (.num (baClaims P config verified iat (newId random)).hop)) =
      sizeOf (Json.value (.num verified.claims.hop)) := rfl
  have hsize := length_payloadOf verified.claims
  have hsize' := length_payloadOf (baClaims P config verified iat (newId random))
  have hnone : verified.claims.parent = none := by
    rw [← Option.not_isSome_iff_eq_none, hpb.lineage, hrole]
    decide
  have hparent : sizeAll ((baClaims P config verified iat (newId random)).parent.elim []
      parentFields) = 71 := by
    simp only [baClaims, Option.elim_some, parentFields, sizeAll_cons, sizeAll_nil, Json.value,
      sizeOf_nonce hpb.jti, Platform.sha256B64, sizeOf_digest]
  rw [sizeOf_role, hnone, Option.elim_none, sizeAll_nil, hcommon] at hsize
  rw [sizeOf_role, hparent, hcommon', hrequest, hhop] at hsize'
  rw [hheader, length_envelope, hsignature, show HEADER_MAX .pb = 2048 from rfl] at hlength
  rw [encodeEnvelope, length_envelope, S.length_edSign, show HEADER_MAX .ba = 2304 from rfl]
  omega

/-! ## The round trip -/

/-- **The codec of the proofs.** What the plane issues for an approved request is decoded to the claims
it was issued with, or refused as oversize when it is too long. What the boundary issues for a proof
of the plane's that was decoded is always decoded. And whatever is decoded is the envelope of the
payload of its claims. -/
theorem proof_codec (hP : ReadsJson P) (S : Signer P) :
    (∀ (config : PbIssuerConfig) (approved : ApprovedRequest P) (hop : ℕ) (corr : String) (iat : ℕ)
      (random : Vector UInt8 16) (issued : Issued), isKid config.kid = true →
      isNonce config.boundaryId = true → 1 ≤ hop ∧ hop ≤ MAX_SAFE_INTEGER → isNonce corr = true →
      iat + config.lifetimeMs ≤ MAX_SAFE_INTEGER →
      issuePb S config approved hop corr iat random = .ok issued →
      decodeProof P issued.header .pb =
        if HEADER_MAX .pb < issued.header.length then .error .proofOversize
        else .ok (decodedOf S (pbClaims config approved.request hop corr iat issued.jti)
          config.privateKey)) ∧
    (∀ (config : BaIssuerConfig) (verified : VerifiedPb) (decoded : Decoded) (iat : ℕ)
      (random : Vector UInt8 16) (issued : Issued), isKid config.kid = true →
      isNonce config.appId = true → iat + config.lifetimeMs ≤ MAX_SAFE_INTEGER →
      decodeProof P verified.header .pb = .ok decoded → decoded.claims = verified.claims →
      issueBa S config verified iat random = .ok issued →
      decodeProof P issued.header .ba =
        .ok (decodedOf S (baClaims P config verified iat issued.jti) config.privateKey)) ∧
    ∀ (header : String) (role : HopRole) (decoded : Decoded),
      decodeProof P header role = .ok decoded →
        header = envelope (payloadOf decoded.claims) decoded.signature ∧
          decoded.payload = payloadOf decoded.claims ∧ decoded.claims.role = role := by
  refine ⟨?_, ?_, ?_⟩
  · intro config approved hop corr iat random issued hkid haud hhop hcorr hexp hissued
    obtain ⟨-, rfl⟩ := issuePb_eq_ok.1 hissued
    exact decodeProof_encodeEnvelope hP S (wellFormed_pbClaims hkid haud hhop hcorr hexp random)
      config.privateKey
  · intro config verified decoded iat random issued hkid haud hexp hdecode hclaims hissued
    obtain ⟨-, rfl⟩ := issueBa_eq_ok.1 hissued
    obtain ⟨hheader, hlength, hsignature, hpayload, hrole, hwell⟩ := (decodeProof_eq_ok hP).1 hdecode
    rw [hpayload, hclaims] at hheader
    rw [hclaims] at hrole hwell
    have hba := wellFormed_baClaims (P := P) hwell hkid haud hexp random
    have hle := length_ba_le S hsignature hheader hlength hrole hwell hba
    exact (decodeProof_encodeEnvelope hP S hba config.privateKey).trans (if_neg (not_lt.2 hle))
  · intro header role decoded hdecode
    obtain ⟨hheader, -, -, hpayload, hrole, -⟩ := (decodeProof_eq_ok hP).1 hdecode
    exact ⟨hpayload ▸ hheader, hpayload, hrole⟩

/-! ### The sample proof, issued -/

section Sample

open Verifier (sampleId sampleClaims samplePayload sampleKey sampleSignature samplePlatform
  length_samplePayload)

/-- The signature of the sample payload; other messages get a signature of zeros. -/
def sampleSign (message : List UInt8) : List UInt8 :=
  if message = asciiBytes PB_DOMAIN ++ samplePayload then sampleSignature
  else List.replicate 64 0

/-- The platform the sample proof is issued on; the digests are those of no bytes and of its tag. -/
def issuingPlatform : Platform where
  parseJson := parsePayload
  sha256 bytes :=
    if bytes = [] then
      #v[227, 176, 196, 66, 152, 252, 28, 20, 154, 251, 244, 200, 153, 111, 185, 36, 39, 174, 65, 228,
        100, 155, 147, 76, 164, 149, 153, 27, 120, 82, 184, 85]
    else samplePlatform.sha256 bytes
  edVerify key message signature := key = sampleKey && signature = sampleSign message

theorem sha256B64_nil_sample : issuingPlatform.sha256B64 [] = EMPTY_BODY_SHA256 := by decide +kernel

def sampleSigner : Signer issuingPlatform where
  edSign _ := sampleSign
  publicKey _ := sampleKey
  length_edSign _ message := by
    unfold sampleSign
    split_ifs <;> rfl
  edVerify_edSign _ message := by simp [issuingPlatform]

def sampleIssuer : PbIssuerConfig where
  kid := "pb-1"
  privateKey := List.replicate 32 7
  boundaryId := sampleId
  lifetimeMs := 1500

/-- The request of the sample proof, as the layers of the plane see it. -/
def sampleLayer : LayerRequest where
  method := "GET"
  target := "/"
  headers := [("Host", "h"), ("Connection", "close")]
  bodyStatus := .none
  body := none

theorem buildApprovedRequest_sample :
    buildApprovedRequest issuingPlatform sampleLayer = .ok ⟨sampleClaims.request, 0⟩ := by
  decide +kernel

def sampleApproved : ApprovedRequest issuingPlatform :=
  ⟨sampleClaims.request, sampleLayer, _, buildApprovedRequest_sample, rfl⟩

theorem newId_sample : newId (Vector.replicate 16 0) = sampleId := by decide +kernel

theorem decodedOf_sample :
    decodedOf sampleSigner sampleClaims sampleIssuer.privateKey =
      ⟨sampleClaims, samplePayload, sampleSignature⟩ := by
  have hpayload : payloadOf sampleClaims = samplePayload := by decide +kernel
  have hdomain : DOMAIN sampleClaims.role = PB_DOMAIN := rfl
  rw [decodedOf, hpayload, hdomain]
  simp only [sampleSigner, sampleSign, ↓reduceIte]

def sampleIssued : Issued where
  header := envelope samplePayload sampleSignature
  jti := sampleId
  tag := proofTag issuingPlatform "pb" sampleId

theorem issuePb_sample :
    issuePb sampleSigner sampleIssuer sampleApproved 1 sampleId 1500 (Vector.replicate 16 0) =
      .ok sampleIssued := by
  have hclaims : pbClaims sampleIssuer sampleApproved.request 1 sampleId 1500 sampleId =
      sampleClaims := rfl
  have hheader : encodeEnvelope sampleSigner.edSign sampleClaims sampleIssuer.privateKey =
      sampleIssued.header := by
    have hdecoded := decodedOf_sample
    rw [decodedOf, Decoded.mk.injEq] at hdecoded
    rw [encodeEnvelope, sampleIssued]
    exact congrArg₂ envelope hdecoded.2.1 hdecoded.2.2
  refine issuePb_eq_ok.2 ⟨by decide, ?_⟩
  rw [newId_sample, hclaims, hheader]
  rfl

theorem length_sampleIssued : sampleIssued.header.length ≤ HEADER_MAX .pb := by
  have hsignature : sampleSignature.length = 64 := by decide
  rw [sampleIssued, length_envelope, length_samplePayload, hsignature]
  decide

theorem proof_codec_sample :
    (issuePb sampleSigner sampleIssuer sampleApproved 1 sampleId 1500 (Vector.replicate 16 0)).map
        (fun issued => decodeProof issuingPlatform issued.header .pb) =
      .ok (.ok ⟨sampleClaims, samplePayload, sampleSignature⟩) := by
  have hdecode := (proof_codec (readsJson_parsePayload rfl) sampleSigner).1 sampleIssuer
    sampleApproved 1 sampleId 1500 _ _ (by decide) (by decide) (by decide) (by decide) (by decide)
    issuePb_sample
  rw [issuePb_sample, Except.map, hdecode, if_neg (not_lt.2 length_sampleIssued)]
  exact congrArg (Except.ok ∘ Except.ok) decodedOf_sample

end Sample

end Limitmark.Hop
