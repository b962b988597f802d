import Limitmark.Ingress.IngressPayload

/-!
# The admission RPC

The payload codec of `src/lib/admission-protocol.ts`: a JSON array of 9 fields, by the scheme of the
ingress payload, in at most 2048 bytes. Every valid payload fits (`length_encoding_le`).

The HMAC of the platform is a parameter.
-/

namespace Limitmark.Ingress

open Limitmark.Foundations Limitmark.Defense Limitmark.Hop

def ADMISSION_RPC_VERSION : String := "lm-admission-rpc-v1"

def ADMISSION_MAX_BODY_BYTES : ℕ := 2048

def ADMISSION_RPC_MAX_SKEW_MS : ℕ := 5000

/-- The paths `/v1/pre` and `/v1/post`. -/
inductive AdmissionPath
  | pre
  | post
  deriving DecidableEq, Repr

def AdmissionPath.text : AdmissionPath → String
  | .pre => "/v1/pre"
  | .post => "/v1/post"

/-- `^[A-Za-z0-9_.:-]{1,128}$`. -/
def isReleaseText (text : String) : Bool :=
  1 ≤ text.length && text.length ≤ 128 && text.toList.all isNameChar

def isPermitText (text : String) : Bool :=
  text = "-" || (decodeCanonicalBase64url text (some 32)).isSome

def validateRpc : Json → Except String Unit
  | .arr [version, releaseId, operationId, issuedAtMs, clientPseudonym, requestBinding, nonce, permit,
      ingressIssuedAtMs] => do
    ensure (isText version ADMISSION_RPC_VERSION) "rpc-shape"
    ensure (releaseId.text?.any isReleaseText) "rpc-release"
    checkBase64url operationId "rpc-operation" 16
    ensure (isSafeNumber issuedAtMs (2 ^ 53 - 1)) "rpc-time"
    checkBase64url clientPseudonym "rpc-binding" 32
    checkBase64url requestBinding "rpc-binding" 32
    checkBase64url nonce "rpc-nonce" 16
    ensure (permit.text?.any isPermitText) "rpc-permit"
    ensure (isSafeNumber ingressIssuedAtMs (2 ^ 53 - 1)) "rpc-ingress-time"
  | _ => .error "rpc-shape"

def encodeAdmissionRpcPayload (payload : Json) : Except String (List UInt8) := do
  validateRpc payload
  let bytes := utf8 payload.stringify
  ensure (bytes.length ≤ ADMISSION_MAX_BODY_BYTES) "rpc-size"
  return bytes

def decodeAdmissionRpcPayload (bytes : List UInt8) : Except String Json := do
  ensure (1 ≤ bytes.length ∧ bytes.length ≤ ADMISSION_MAX_BODY_BYTES) "rpc-size"
  match decodeUtf8 bytes with
  | none => .error "rpc-utf8"
  | some text =>
    match Json.parse text with
    | none => .error "rpc-json"
    | some parsed => do
      validateRpc parsed
      ensure (parsed.stringify = text) "rpc-canonical"
      return parsed

def macInput (path : AdmissionPath) (body : List UInt8) : List UInt8 :=
  asciiBytes ("limitmark:admission:rpc-mac:v1\x00" ++ path.text ++ "\x00") ++ body

def signAdmissionRpc (crypto : Crypto) (path : AdmissionPath) (body key : List UInt8) : String :=
  encodeBase64url (crypto.hmacSha256 key (macInput path body)).toList

def verifyAdmissionRpcMac (crypto : Crypto) (path : AdmissionPath) (body : List UInt8)
    (value : String) (key : List UInt8) : Bool :=
  match decodeCanonicalBase64url value (some 32) with
  | none => false
  | some signature => signature = (crypto.hmacSha256 key (macInput path body)).toList

/-! ## A valid payload fits -/

theorem narrow_of_checkBase64url {value : Json} {name : String} {n : ℕ} {u : Unit}
    (h : checkBase64url value name n = .ok u) : Json.Narrow value ((n * 4 + 2) / 3 + 2) := by
  rw [checkBase64url, check_bind_eq_ok, ensure_eq_ok, ensure_eq_ok, Option.any_eq_true] at h
  obtain ⟨-, text, htext, hdecoded⟩ := h
  obtain ⟨bytes, hbytes⟩ := Option.isSome_iff_exists.1 hdecoded
  rw [Json.eq_text_of_text? htext]
  exact narrow_base64url hbytes

theorem narrow_of_isSafeNumber {value : Json} {maximum : ℤ}
    (h : isSafeNumber value maximum = true) : Json.Narrow value 16 := by
  rw [isSafeNumber, Option.any_eq_true] at h
  obtain ⟨n, hn, hbounds⟩ := h
  simp only [Bool.and_eq_true, decide_eq_true_eq, isSafeInteger_iff] at hbounds
  rw [Json.eq_int_of_int? hn]
  exact Json.narrow_int (by decide) hbounds.1.2 (by omega)

theorem narrow_of_isReleaseText {value : Json} (h : value.text?.any isReleaseText = true) :
    Json.Narrow value 130 := by
  rw [Option.any_eq_true] at h
  obtain ⟨text, htext, hrelease⟩ := h
  simp only [isReleaseText, Bool.and_eq_true, decide_eq_true_eq] at hrelease
  rw [Json.eq_text_of_text? htext]
  exact Json.narrow_text (fun c hc => isPlain_of_isNameChar (List.all_eq_true.1 hrelease.2 c hc))
    hrelease.1.2

theorem narrow_of_isPermitText {value : Json} (h : value.text?.any isPermitText = true) :
    Json.Narrow value 45 := by
  rw [Option.any_eq_true] at h
  obtain ⟨text, htext, hpermit⟩ := h
  rw [Json.eq_text_of_text? htext]
  rw [isPermitText, Bool.or_eq_true, decide_eq_true_eq] at hpermit
  rcases hpermit with rfl | hdecoded
  · exact ⟨by decide, forall_mem_of_all (by decide)⟩
  · obtain ⟨bytes, hbytes⟩ := Option.isSome_iff_exists.1 hdecoded
    exact narrow_base64url hbytes

theorem narrow_of_version {value : Json} (h : isText value ADMISSION_RPC_VERSION = true) :
    Json.Narrow value 21 := by
  rw [isText, decide_eq_true_eq] at h
  rw [Json.eq_text_of_text? h]
  exact ⟨by decide, forall_mem_of_all (by decide)⟩

/-- The fields of a valid payload. -/
structure RpcFields (values : List Json) : Prop where
  atoms : ∀ v ∈ values, v.IsAtom
  isAscii : ∀ v ∈ values, ∀ c ∈ v.write, IsAscii c
  length_le : (values.map fun v => v.write.length + 1).sum ≤ 1000

theorem fields_of_validateRpc {payload : Json} {u : Unit} (h : validateRpc payload = .ok u) :
    ∃ values, payload = .arr values ∧ RpcFields values := by
  unfold validateRpc at h
  split at h
  · simp only [check_bind_eq_ok, ensure_eq_ok] at h
    obtain ⟨hversion, hrelease, hoperation, hissued, hclient, hbinding, hnonce, hpermit, hingress⟩ := h
    have hsome {value : Json} {p : String → Bool} (h : value.text?.any p = true) :
        value.text?.isSome = true := by
      rw [Option.any_eq_true] at h
      obtain ⟨text, htext, -⟩ := h
      rw [htext]
      rfl
    have h₀ := narrow_of_version hversion
    have h₁ := narrow_of_isReleaseText hrelease
    have h₂ := narrow_of_checkBase64url hoperation
    have h₃ := narrow_of_isSafeNumber hissued
    have h₄ := narrow_of_checkBase64url hclient
    have h₅ := narrow_of_checkBase64url hbinding
    have h₆ := narrow_of_checkBase64url hnonce
    have h₇ := narrow_of_isPermitText hpermit
    have h₈ := narrow_of_isSafeNumber hingress
    refine ⟨_, rfl, ?_, ?_, ?_⟩
    · simp only [List.forall_mem_cons]
      exact ⟨isAtom_of_isText hversion, isAtom_of_text? (hsome hrelease),
        isAtom_of_checkBase64url hoperation, isAtom_of_isSafeNumber hissued,
        isAtom_of_checkBase64url hclient, isAtom_of_checkBase64url hbinding,
        isAtom_of_checkBase64url hnonce, isAtom_of_text? (hsome hpermit),
        isAtom_of_isSafeNumber hingress, fun _ h => by cases h⟩
    · simp only [List.forall_mem_cons]
      exact ⟨h₀.isAscii, h₁.isAscii, h₂.isAscii, h₃.isAscii, h₄.isAscii, h₅.isAscii,
        h₆.isAscii, h₇.isAscii, h₈.isAscii, fun _ h => by cases h⟩
    · have := h₀.length_le
      have := h₁.length_le
      have := h₂.length_le
      have := h₃.length_le
      have := h₄.length_le
      have := h₅.length_le
      have := h₆.length_le
      have := h₇.length_le
      have := h₈.length_le
      simp only [List.map_cons, List.map_nil, List.sum_cons, List.sum_nil]
      omega
  · cases h

/-- **Every valid payload fits.** -/
theorem length_encoding_le {payload : Json} {u : Unit} (h : validateRpc payload = .ok u) :
    1 ≤ (utf8 payload.stringify).length ∧
      (utf8 payload.stringify).length ≤ ADMISSION_MAX_BODY_BYTES := by
  obtain ⟨values, rfl, hfields⟩ := fields_of_validateRpc h
  have hwritten := Json.length_write_arr_le values
  have hlength := hfields.length_le
  rw [Json.stringify, length_utf8_ofList (Json.isAscii_write_arr hfields.isAscii),
    ADMISSION_MAX_BODY_BYTES]
  refine ⟨?_, by omega⟩
  rw [Json.write, List.length_append, List.length_cons]
  omega

/-! ## The payload is read back -/

theorem encodeAdmissionRpcPayload_eq_ok {payload : Json} {bytes : List UInt8} :
    encodeAdmissionRpcPayload payload = .ok bytes ↔
      validateRpc payload = .ok () ∧ utf8 payload.stringify = bytes := by
  rw [encodeAdmissionRpcPayload, check_bind_eq_ok]
  refine and_congr_right fun hvalid => ?_
  rw [check_bind_eq_ok, ensure_eq_ok]
  exact ⟨fun h => Except.ok.inj h.2, fun h => ⟨(length_encoding_le hvalid).2, congrArg Except.ok h⟩⟩

/-- **Bytes are decoded exactly when they are the encoding of a valid payload**, and to it. -/
theorem decodeAdmissionRpcPayload_eq_ok {bytes : List UInt8} {payload : Json} :
    decodeAdmissionRpcPayload bytes = .ok payload ↔
      encodeAdmissionRpcPayload payload = .ok bytes := by
  rw [encodeAdmissionRpcPayload_eq_ok]
  constructor
  · intro h
    rw [decodeAdmissionRpcPayload, check_bind_eq_ok] at h
    obtain ⟨-, h⟩ := h
    split at h
    · cases h
    · next text htext =>
      split at h
      · cases h
      · simp only [check_bind_eq_ok, ensure_eq_ok] at h
        obtain ⟨hvalid, hcanonical, h⟩ := h
        obtain rfl := Except.ok.inj h
        exact ⟨hvalid, by rw [hcanonical, decodeUtf8_eq_some.1 htext]⟩
  · rintro ⟨hvalid, rfl⟩
    obtain ⟨values, hvalues, hfields⟩ := fields_of_validateRpc hvalid
    have hparse := parse_stringify_of_atoms ⟨values, hvalues, hfields.atoms⟩
    rw [decodeAdmissionRpcPayload, check_bind_eq_ok, ensure_eq_ok, decodeUtf8_utf8]
    refine ⟨length_encoding_le hvalid, ?_⟩
    simp only [hparse, hvalid, ensure, if_true]
    rfl

/-- **The wire codecs are canonical.** -/
theorem wire_codecs_canonical :
    (∀ bytes, bytes ≠ [] → decodeCanonicalBase64url (encodeBase64url bytes) none = some bytes) ∧
      (∀ value expectedLength, (decodeCanonicalBase64url value expectedLength).isSome ↔
        ∃ bytes, bytes ≠ [] ∧ (∀ length ∈ expectedLength, bytes.length = length) ∧
          encodeBase64url bytes = value) ∧
      (∀ payload, validatePayload payload = .ok () → ∃ bytes,
        encodeIngressPayload payload = .ok bytes ∧ decodeIngressPayload bytes = .ok payload) ∧
      (∀ bytes payload, decodeIngressPayload bytes = .ok payload →
        encodeIngressPayload payload = .ok bytes) ∧
      (∀ header envelope, splitIngressEnvelope header = .ok envelope →
        encodeIngressPayload envelope.payload = .ok envelope.payloadBytes ∧
          header = encodeBase64url envelope.payloadBytes ++ "." ++
            encodeBase64url envelope.signature) ∧
      (∀ payload, validateRpc payload = .ok () → ∃ bytes,
        encodeAdmissionRpcPayload payload = .ok bytes ∧
          decodeAdmissionRpcPayload bytes = .ok payload) ∧
      ∀ bytes payload, decodeAdmissionRpcPayload bytes = .ok payload →
        encodeAdmissionRpcPayload payload = .ok bytes := by
  refine ⟨fun bytes hne => decodeCanonicalB64_base64url hne, fun value expectedLength => ?_,
    fun payload hvalid => ?_, fun bytes payload h => decodeIngressPayload_eq_ok.1 h,
    fun header envelope h => ?_, fun payload hvalid => ?_,
    fun bytes payload h => decodeAdmissionRpcPayload_eq_ok.1 h⟩
  · rw [Option.isSome_iff_exists]
    cases expectedLength with
    | none => simp [decodeCanonicalBase64url, decodeCanonicalB64_eq_some, encodeBase64url]
    | some length =>
      simp only [decodeCanonicalBase64url, decodeCanonicalB64Of_eq_some, encodeBase64url,
        Option.mem_def, Option.some.injEq, forall_eq', and_assoc]
      exact exists_congr fun bytes => and_congr_right fun _ => and_comm
  · have hencoded := encodeIngressPayload_eq_ok.2 ⟨hvalid, rfl⟩
    exact ⟨_, hencoded, decodeIngressPayload_eq_ok.2 hencoded⟩
  · obtain ⟨hheader, hencoded, -⟩ := of_splitIngressEnvelope h
    exact ⟨hencoded, hheader⟩
  · have hencoded := encodeAdmissionRpcPayload_eq_ok.2 ⟨hvalid, rfl⟩
    exact ⟨_, hencoded, decodeAdmissionRpcPayload_eq_ok.2 hencoded⟩

/-- A payload of the ingress. -/
def sampleIngressPayload : Json :=
  .arr [.text INGRESS_VERSION, .text "k1", .text INGRESS_ENVIRONMENT, .text "limitmark",
    .text "dpl_1", .int 1700000000000, .text "GET", .text "https", .text "limitmark.com", .text "/",
    .text "q=\"\\", .text "-", .text INGRESS_BODY_ENCODING, .int 0, .text EMPTY_SHA256_BASE64URL,
    .text INGRESS_IDENTITY_VERSION, .text EMPTY_SHA256_BASE64URL, .text INGRESS_NO_NONCE]

theorem validatePayload_sample : validatePayload sampleIngressPayload = .ok () := by
  decide +kernel

theorem wire_codecs_canonical_sample : ∃ bytes,
    encodeIngressPayload sampleIngressPayload = .ok bytes ∧
      decodeIngressPayload bytes = .ok sampleIngressPayload :=
  wire_codecs_canonical.2.2.1 sampleIngressPayload validatePayload_sample

end Limitmark.Ingress
